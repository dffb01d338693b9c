import OpenRadiusWeb.Certificates.Files
import OpenRadiusWeb.ConfigManager.GeneratedNames
import OpenRadiusWeb.ConfigManager.StoredHash
import OpenRadiusWeb.Lib.Containment

/-! # Where certificate names lead

Both `write_cert_files` replace the blanks of a name, lower it and join it to a directory.
Separators and dot segments go through: a file lies in its directory exactly when the name
does not climb out of it, and `_chain` at the end of one name is the chain of another.
-/

namespace OpenRadiusWeb.ConfigManager

open Paths
open Certificates (Issuer certBaseDir)

def CertStep.path : CertStep → Option String
  | .write path _ => some path
  | .raise _ => none

def pathsOf (steps : List CertStep) : List String := steps.filterMap CertStep.path

/-- What the files of a CA add to its name: nothing, and `_chain` when it has a chain. -/
def Certificate.marks (cert : Certificate) : List String :=
  "" :: if orEmpty cert.chainPem = "" then [] else ["_chain"]

namespace Reads

/-- The CAs that `write_cert_files` writes. -/
def filedCas (r : Reads) : List Certificate :=
  r.activeCertificates.filter fun cert => cert.certType = "ca" ∧ cert.pemData ≠ ""

end Reads

namespace Manager

variable (m : Manager)

/-- The files of a CA in `trusted-cas`: its writes after `ca.pem`. -/
def trustedFiles (cert : Certificate) : List String := (pathsOf (m.certificateSteps cert)).tail

def ldapFiles (server : LdapServer) : List String := pathsOf (m.ldapSteps server)

/-- Two CAs in one folder, a file of the one ending like a file of the other. -/
def Collide (a b : Certificate) : Prop :=
  below (resolve m.trustedCasDir) (m.trustedName a.name) =
      below (resolve m.trustedCasDir) (m.trustedName b.name) ∧
    ∃ x ∈ a.marks, ∃ y ∈ b.marks, leaf (m.trustedName a.name) ++ x = leaf (m.trustedName b.name) ++ y

end Manager

section Claim

variable {Key : Type} (issuer : Issuer Key) (subdir name : String) (m : Manager) (r : Reads)

/-- Every file lies in its directory, and no two CAs share one. -/
structure FilesPlaced : Prop where
  gateway : ∀ path ∈ [issuer.certPath subdir name, issuer.keyPath subdir name],
    Inside (resolve (join certBaseDir subdir)) (resolve path)
  trusted : ∀ cert ∈ r.filedCas, ∀ path ∈ m.trustedFiles cert, Inside (resolve m.trustedCasDir) (resolve path)
  ldap : ∀ server ∈ r.enabledLdapServers, ∀ path ∈ m.ldapFiles server,
    Inside (resolve m.ldapCertsDir) (resolve path)
  apart : r.filedCas.Pairwise fun a b =>
    ((m.trustedFiles a).map resolve).Disjoint ((m.trustedFiles b).map resolve)

/-- The names stay in their directories, and no two CAs collide. -/
structure NamesPlaced : Prop where
  gateway : Stays (resolve (join certBaseDir subdir)) (issuer.safeName name)
  trusted : ∀ cert ∈ r.filedCas, Stays (resolve m.trustedCasDir) (m.trustedName cert.name)
  ldap : ∀ server ∈ r.enabledLdapServers, orEmpty server.tlsCaCert ≠ "" →
    Stays (resolve m.ldapCertsDir) (m.safeName server.name)
  apart : r.filedCas.Pairwise fun a b => ¬ m.Collide a b

end Claim

/-! ## The files of a row -/

section Files

variable {m : Manager} {r : Reads}

theorem ending_mark {cert : Certificate} {mark : String} (h : mark ∈ cert.marks) : Ending (mark ++ ".pem") := by
  have hMark : mark = "" ∨ mark = "_chain" := by
    rw [Certificate.marks] at h
    split at h <;> simp_all
  rcases hMark with rfl | rfl
  · exact ⟨by decide, by decide⟩
  · exact ⟨by decide, by decide⟩

theorem pathsOf_writeIf (path : String) (content : Option String) :
    pathsOf (Manager.writeIf path content) = if orEmpty content = "" then [] else [path] := by
  rw [Manager.writeIf]
  split <;> rfl

theorem pathsOf_certificateSteps {cert : Certificate} (h : cert ∈ r.filedCas) :
    pathsOf (m.certificateSteps cert) = join m.certDir "ca.pem" ::
      cert.marks.map fun mark => join m.trustedCasDir (m.trustedName cert.name ++ (mark ++ ".pem")) := by
  have hCert := (List.mem_filter.mp h).2
  rw [decide_eq_true_eq] at hCert
  rw [Manager.certificateSteps, if_neg hCert.2, if_pos hCert.1, pathsOf, List.filterMap_append]
  have hChain := pathsOf_writeIf (join m.trustedCasDir (m.trustedName cert.name ++ "_chain.pem")) cert.chainPem
  rw [pathsOf] at hChain
  rw [hChain, Certificate.marks]
  split <;> rfl

theorem trustedFiles_eq {cert : Certificate} (h : cert ∈ r.filedCas) :
    m.trustedFiles cert =
      cert.marks.map fun mark => join m.trustedCasDir (m.trustedName cert.name ++ (mark ++ ".pem")) := by
  rw [Manager.trustedFiles, pathsOf_certificateSteps h, List.tail_cons]

theorem trusted_iff {cert : Certificate} (h : cert ∈ r.filedCas) :
    (∀ path ∈ m.trustedFiles cert, Inside (resolve m.trustedCasDir) (resolve path)) ↔
      Stays (resolve m.trustedCasDir) (m.trustedName cert.name) := by
  rw [trustedFiles_eq h, List.forall_mem_map]
  constructor
  · intro hInside
    have hFirst : "" ∈ cert.marks := List.mem_cons_self
    exact (inside_iff_stays (ending_mark hFirst) _ _).mp (hInside _ hFirst)
  · intro hStays mark hMark
    exact (inside_iff_stays (ending_mark hMark) _ _).mpr hStays

theorem ldap_iff (server : LdapServer) :
    (∀ path ∈ m.ldapFiles server, Inside (resolve m.ldapCertsDir) (resolve path)) ↔
      (orEmpty server.tlsCaCert ≠ "" → Stays (resolve m.ldapCertsDir) (m.safeName server.name)) := by
  rw [Manager.ldapFiles, Manager.ldapSteps, pathsOf_writeIf]
  by_cases hCa : orEmpty server.tlsCaCert = ""
  · simp [hCa]
  · rw [if_neg hCa, List.forall_mem_singleton, Manager.ldapCaPath, inside_iff_stays ⟨by decide, by decide⟩]
    exact ⟨fun h _ => h, fun h => h hCa⟩

theorem apart_iff {a b : Certificate} (ha : a ∈ r.filedCas) (hb : b ∈ r.filedCas)
    (hStaysA : Stays (resolve m.trustedCasDir) (m.trustedName a.name))
    (hStaysB : Stays (resolve m.trustedCasDir) (m.trustedName b.name)) :
    ((m.trustedFiles a).map resolve).Disjoint ((m.trustedFiles b).map resolve) ↔ ¬ m.Collide a b := by
  have hSame : ∀ x ∈ a.marks, ∀ y ∈ b.marks,
      (resolve (join m.trustedCasDir (m.trustedName a.name ++ (x ++ ".pem"))) =
          resolve (join m.trustedCasDir (m.trustedName b.name ++ (y ++ ".pem"))) ↔
        below (resolve m.trustedCasDir) (m.trustedName a.name) =
            below (resolve m.trustedCasDir) (m.trustedName b.name) ∧
          leaf (m.trustedName a.name) ++ x = leaf (m.trustedName b.name) ++ y) := by
    intro x hx y hy
    rw [same_file_iff (ending_mark hx) (ending_mark hy) hStaysA hStaysB, ← String.append_assoc,
      ← String.append_assoc, String.append_left_inj]
  rw [trustedFiles_eq ha, trustedFiles_eq hb, List.map_map, List.map_map, List.disjoint_left,
    List.forall_mem_map, Manager.Collide]
  constructor
  · rintro hApart ⟨hBelow, x, hx, y, hy, hLeaf⟩
    refine hApart x hx (List.mem_map.mpr ⟨y, hy, ?_⟩)
    exact ((hSame x hx y hy).mpr ⟨hBelow, hLeaf⟩).symm
  · intro hNot x hx hMem
    obtain ⟨y, hy, hEq⟩ := List.mem_map.mp hMem
    obtain ⟨hBelow, hLeaf⟩ := (hSame x hx y hy).mp hEq.symm
    exact hNot ⟨hBelow, x, hx, y, hy, hLeaf⟩

end Files

/-- Every file lies in its directory and no two CAs share one exactly when the names stay and
do not collide. -/
theorem filesPlaced_iff {Key : Type} (issuer : Issuer Key) (subdir name : String) (m : Manager) (r : Reads) :
    FilesPlaced issuer subdir name m r ↔ NamesPlaced issuer subdir name m r := by
  have hGateway : (∀ path ∈ [issuer.certPath subdir name, issuer.keyPath subdir name],
      Inside (resolve (join certBaseDir subdir)) (resolve path)) ↔
        Stays (resolve (join certBaseDir subdir)) (issuer.safeName name) := by
    rw [List.forall_mem_cons, List.forall_mem_singleton, Issuer.certPath, Issuer.keyPath,
      inside_iff_stays ⟨by decide, by decide⟩, inside_iff_stays ⟨by decide, by decide⟩, and_self_iff]
  have hApart : (∀ cert ∈ r.filedCas, Stays (resolve m.trustedCasDir) (m.trustedName cert.name)) →
      ((r.filedCas.Pairwise fun a b =>
        ((m.trustedFiles a).map resolve).Disjoint ((m.trustedFiles b).map resolve)) ↔
          r.filedCas.Pairwise fun a b => ¬ m.Collide a b) := by
    intro hStays
    exact List.Pairwise.iff_of_mem fun ha hb => apart_iff ha hb (hStays _ ha) (hStays _ hb)
  constructor
  · rintro ⟨hFiles, hTrusted, hLdap, hPairs⟩
    have hStays := fun cert hCert => (trusted_iff hCert).mp (hTrusted cert hCert)
    exact ⟨hGateway.mp hFiles, hStays, fun server hServer => (ldap_iff server).mp (hLdap server hServer),
      (hApart hStays).mp hPairs⟩
  · rintro ⟨hName, hStays, hLdap, hPairs⟩
    exact ⟨hGateway.mpr hName, fun cert hCert => (trusted_iff hCert).mpr (hStays cert hCert),
      fun server hServer => (ldap_iff server).mpr (hLdap server hServer), (hApart hStays).mpr hPairs⟩

/-! ## Plain names -/

/-- The file of an LDAP server stays unless its name begins with a separator. -/
theorem ldap_stays {m : Manager} {server : LdapServer} (h : ¬ Absolute (m.lower server.name)) :
    Stays (resolve m.ldapCertsDir) (m.safeName server.name) := by
  refine stays_of_no_dot ?_ ?_
  · rw [Absolute, toList_safeName, List.head?_map]
    intro hHead
    obtain ⟨c, hc, hSlash⟩ := Option.map_eq_some_iff.mp hHead
    rw [safeChar] at hSlash
    split at hSlash
    · cases hSlash
    · rw [hSlash] at hc
      exact h hc
  · rw [toList_safeName, List.mem_map]
    rintro ⟨c, -, hDot⟩
    rw [safeChar] at hDot
    split at hDot
    · cases hDot
    · rename_i hNot
      exact hNot (hDot ▸ by decide)

/-- Two CAs without separators in their names collide when a name is the other's, or the other's
with `_chain`. -/
theorem collide_iff {m : Manager} {a b : Certificate} (ha : '/' ∉ (m.trustedName a.name).toList)
    (hb : '/' ∉ (m.trustedName b.name).toList) : m.Collide a b ↔
      ∃ x ∈ a.marks, ∃ y ∈ b.marks, m.trustedName a.name ++ x = m.trustedName b.name ++ y := by
  have hBelow : ∀ {name : String}, '/' ∉ name.toList → below (resolve m.trustedCasDir) name = [] := by
    intro name hName
    rw [below, folder_of_not_mem hName]
    exact List.drop_nil
  rw [Manager.Collide, hBelow ha, hBelow hb, leaf_of_not_mem ha, leaf_of_not_mem hb]
  exact and_iff_right rfl

/-! ## A name that climbs and a name that ends like a chain -/

def loweringManager : Manager := { plainManager with lower := Certificates.plainIssuer.lower }

def activeCa (name : String) (chainPem : Option String) : Certificate where
  certType := "ca"
  name := name
  pemData := "PEM"
  keyPemEncrypted := none
  chainPem := chainPem
  dhParamsPem := none
  isActive := some true
  enabled := some true

def readsOf (certificates : List Certificate) : Reads where
  db := ⟨certificates, [], [], [], []⟩
  queryFails _ := none
  now := ""

/-- `../server` is the server certificate in both services, and the chain of `Root` is the
file of `Root_Chain`. -/
theorem names_displaced :
    (("../server".length ≤ 255 ∧ "Root_Chain".length ≤ 255) ∧
      resolve (Certificates.plainIssuer.certPath "ca" "../server") = ["opt", "orw", "certs", "server.pem"]) ∧
    ¬ FilesPlaced Certificates.plainIssuer "ca" "../server" loweringManager (readsOf []) ∧
    ¬ FilesPlaced Certificates.plainIssuer "ca" "Root" loweringManager (readsOf [activeCa "../server" none]) ∧
    ¬ FilesPlaced Certificates.plainIssuer "ca" "Root" loweringManager
      (readsOf [activeCa "Root" (some "CHAIN"), activeCa "Root_Chain" none]) := by
  refine ⟨⟨by decide, by decide +kernel⟩, ?_, ?_, ?_⟩
  · intro h
    have hStays := (inside_iff_stays ⟨by decide, by decide⟩ _ _).mp (h.gateway _ List.mem_cons_self)
    revert hStays
    decide +kernel
  · intro h
    have hCa : activeCa "../server" none ∈ (readsOf [activeCa "../server" none]).filedCas := by decide +kernel
    have hStays := (trusted_iff hCa).mp (h.trusted _ hCa)
    revert hStays
    decide +kernel
  · intro h
    have hPairs : (readsOf [activeCa "Root" (some "CHAIN"), activeCa "Root_Chain" none]).filedCas =
      [activeCa "Root" (some "CHAIN"), activeCa "Root_Chain" none] := by decide +kernel
    have hApart := h.apart
    rw [hPairs, List.pairwise_pair] at hApart
    have hShared : resolve "/etc/freeradius/certs/trusted-cas/root_chain.pem" ∈
        (loweringManager.trustedFiles (activeCa "Root" (some "CHAIN"))).map resolve := by decide +kernel
    exact hApart hShared (by decide +kernel)

end OpenRadiusWeb.ConfigManager
