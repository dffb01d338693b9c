import OpenRadiusWeb.Lib.Effects
import OpenRadiusWeb.Secrets.Vault
import Mathlib.Logic.Function.Basic
import Mathlib.Data.List.Forall2

/-! # Rotation of the master secret

The columns that the application writes through `encrypt_secret`, and the script that takes
them from an old key to a new one: column by column in a transaction each, a run being
interrupted anywhere. A run that is not interrupted settles every column of the script's
list; whether these are all columns is another matter.
-/

namespace OpenRadiusWeb.Secrets

open Effects (Eff)

/-! ## Tables -/

structure Row where
  id : String
  /-- The columns; nothing is NULL. -/
  value : String → Option String

structure Database where
  rows : String → List Row
  primaryKey : ∀ table, ((rows table).map Row.id).Nodup

def Row.set (row : Row) (column : String) (value : Option String) : Row :=
  { row with value := Function.update row.value column value }

/-- `UPDATE table SET column = value WHERE id = id`. -/
def Database.setValue (db : Database) (table column id : String) (value : Option String) :
    Database where
  rows t :=
    if t = table then
      (db.rows t).map fun row => if row.id = id then row.set column value else row
    else db.rows t
  primaryKey t := by
    by_cases ht : t = table
    · have hIds : ((db.rows t).map fun row => if row.id = id then row.set column value else row).map
          Row.id = (db.rows t).map Row.id := by
        rw [List.map_map]
        apply List.map_congr_left
        intro row _
        simp only [Function.comp_apply]
        split
        · rfl
        · rfl
      rw [if_pos ht, hIds]
      exact db.primaryKey t
    · rw [if_neg ht]
      exact db.primaryKey t

/-! ## The writers -/

/-- A plaintext that `encrypt_secret` is called on, and the column its result is bound to. -/
structure SecretBinding where
  table : String
  column : String
  plaintext : Option String

/-- The calls of `encrypt_secret`: by the repositories, and by the scripts that encrypted
what was stored before. -/
inductive SecretWrite
  | insertLdapServer (bindPassword : Option String)
  | updateLdapServer (bindPassword : Option String)
  | insertNasClient (sharedSecret : String)
  | updateNasClient (sharedSecret : Option String)
  | insertCert (keyPem : Option String)
  | insertRealm (proxySecret : Option String)
  | updateRealm (proxySecret : Option String)
  | insertNetworkDevice (snmpCommunity sshPassword : Option String)
  | migrateLdapPassword (current : String)
  | migrateNasSecret (current : String)
  | migrateRemainingSecret (target : Fin 4) (current : String)

/-- `_TARGETS` of the migration of the remaining secrets. -/
def remainingTargets : Fin 4 → String × String
  | 0 => ("certificates", "key_pem_encrypted")
  | 1 => ("radius_realms", "proxy_secret_encrypted")
  | 2 => ("network_devices", "snmp_community_encrypted")
  | 3 => ("network_devices", "coa_secret_encrypted")

def SecretWrite.bindings : SecretWrite → List SecretBinding
  | .insertLdapServer bindPassword => [⟨"ldap_servers", "bind_password_encrypted", bindPassword⟩]
  | .updateLdapServer bindPassword => [⟨"ldap_servers", "bind_password_encrypted", bindPassword⟩]
  | .insertNasClient sharedSecret =>
    [⟨"radius_nas_clients", "secret_encrypted", some sharedSecret⟩]
  | .updateNasClient sharedSecret => [⟨"radius_nas_clients", "secret_encrypted", sharedSecret⟩]
  | .insertCert keyPem => [⟨"certificates", "key_pem_encrypted", keyPem⟩]
  | .insertRealm proxySecret => [⟨"radius_realms", "proxy_secret_encrypted", proxySecret⟩]
  | .updateRealm proxySecret => [⟨"radius_realms", "proxy_secret_encrypted", proxySecret⟩]
  | .insertNetworkDevice snmpCommunity sshPassword =>
    [⟨"network_devices", "snmp_community_encrypted", snmpCommunity⟩,
      ⟨"network_devices", "ssh_password_encrypted", sshPassword⟩]
  | .migrateLdapPassword current => [⟨"ldap_servers", "bind_password_encrypted", some current⟩]
  | .migrateNasSecret current => [⟨"radius_nas_clients", "secret_encrypted", some current⟩]
  | .migrateRemainingSecret target current =>
    [⟨(remainingTargets target).1, (remainingTargets target).2, some current⟩]

/-- A column that some writer fills through `encrypt_secret`. -/
def Written (table column : String) : Prop :=
  ∃ write : SecretWrite, ∃ binding ∈ write.bindings,
    binding.table = table ∧ binding.column = column

/-! ## The script -/

/-- `ENCRYPTED_COLUMNS`. -/
def encryptedColumns : List (String × String) :=
  [("ldap_servers", "bind_password_encrypted"),
    ("radius_nas_clients", "secret_encrypted"),
    ("certificates", "key_pem_encrypted"),
    ("radius_realms", "proxy_secret_encrypted"),
    ("network_devices", "snmp_community_encrypted"),
    ("network_devices", "coa_secret_encrypted")]

/-- Where a run can be interrupted. -/
inductive Point
  | table (table column : String)
  | row (table column id : String)
  | commit (table column : String)

structure RotationRun where
  dryRun : Bool
  skipUndecryptable : Bool
  nonce : String → String → String → Nonce
  interrupted : Point → Bool

inductive Interrupted
  | interrupted

structure Failure where
  table : String
  column : String
  id : String
  error : DecryptError

structure Tally where
  rotated : Nat
  skipped : Nat
  failures : List Failure

def Tally.add (a b : Tally) : Tally :=
  ⟨a.rotated + b.rotated, a.skipped + b.skipped, a.failures ++ b.failures⟩

section Script

variable {Key : Type} (cipher : Cipher Key) (old new : Key) (run : RotationRun)

/-- The body of the loop over the rows, with the row as it was selected. -/
def rotateRow (table column : String) (row : Row) :
    Tally × Database → Except Interrupted (Tally × Database)
  | (tally, db) =>
    if run.interrupted (.row table column row.id) then .error .interrupted
    else .ok <|
      let skip := (⟨tally.rotated, tally.skipped + 1, tally.failures⟩, db)
      match row.value column with
      | none => skip
      | some ctOld =>
        if ctOld = "" then skip
        else
          match cipher.decrypt old (some ctOld) with
          | .error e =>
            if run.skipUndecryptable then skip
            else (⟨tally.rotated, tally.skipped,
              tally.failures ++ [⟨table, column, row.id, e⟩]⟩, db)
          | .ok none => skip
          | .ok (some plaintext) =>
            let ctNew := cipher.encrypt new (run.nonce table column row.id) (some plaintext)
            (⟨tally.rotated + 1, tally.skipped, tally.failures⟩,
              if run.dryRun then db else db.setValue table column row.id ctNew)

/-- `_rotate_table`. -/
def rotateTable (table column : String) (db : Database) : Except Interrupted (Tally × Database) :=
  (db.rows table).foldlM (fun acc row => rotateRow cipher old new run table column row acc)
    (⟨0, 0, []⟩, db)

/-- `with conn:` commits at the end and rolls back on an exception. -/
def withConn {ε α : Type} (body : Database → Except ε (α × Database)) : Eff Database ε α := fun db =>
  match body db with
  | .ok (a, db') => (.ok a, db')
  | .error e => (.error e, db)

/-- The transaction of one column. -/
def rotateColumn (table column : String) (db : Database) : Except Interrupted (Tally × Database) :=
  match rotateTable cipher old new run table column db with
  | .error e => .error e
  | .ok result =>
    if run.interrupted (.commit table column) then .error .interrupted else .ok result

/-- The loop of `main` over the columns. -/
def rotateColumns : List (String × String) → Tally → Eff Database Interrupted Tally
  | [], total => return total
  | (table, column) :: rest, total =>
    if run.interrupted (.table table column) then Eff.raise .interrupted
    else do
      let tally ← withConn (rotateColumn cipher old new run table column)
      rotateColumns rest (total.add tally)

/-- `main`: the exit code, unless the run is interrupted. -/
def main : Eff Database Interrupted Nat := do
  let total ← rotateColumns cipher old new run encryptedColumns ⟨0, 0, []⟩
  return if total.failures.isEmpty then 0 else 2

end Script

end OpenRadiusWeb.Secrets
