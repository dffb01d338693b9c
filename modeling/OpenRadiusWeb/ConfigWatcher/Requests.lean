import OpenRadiusWeb.ConfigManager.Success
import OpenRadiusWeb.Certificates.Service
import OpenRadiusWeb.Realms.Service
import OpenRadiusWeb.Lib.Joint
import OpenRadiusWeb.Lib.Commits

/-! # Requests and the watcher side by side

The requests whose operations publish an apply event run as transactions, statement by
statement and in any order, and put their messages into the stream while they are still
open. The watcher takes a message, acknowledges it, reads the database and writes the files,
and any step of a request may come between two of its own.
-/

namespace OpenRadiusWeb.ConfigWatcher

open ConfigManager (Manager Call Database)
open Certificates (PyException Actor)

/-- A row of `certificates`, or of `radius_realms` and the keys of `ldap_servers`. -/
abbrev Row := Certificates.Certificate ⊕ Realms.Stored

abbrev Command := Certificates.Command ⊕ Realms.Command

abbrev Answer : Command → Type := Sum.elim Certificates.Command.Answer Realms.Command.Answer

def statement : (c : Command) → Option (SqlAction Row (Answer c))
  | .inl c => c.statement.map SqlAction.left
  | .inr c => c.statement.map SqlAction.right

def clashes : Row → Row → Bool
  | .inl a, .inl b => Certificates.clashes a b
  | .inr a, .inr b => Realms.Stored.clashes a b
  | _, _ => false

/-- The commands that publish `orw.config.freeradius.apply`. -/
def publishesCert : Certificates.Command → Bool
  | .publishFreeradiusApplyForCert .. => true
  | _ => false

def publishesRealm : Realms.Command → Bool
  | .publishFreeradiusApply .. => true
  | _ => false

def publishes : Command → Bool := Sum.elim publishesCert publishesRealm

theorem statement_of_publishes (c : Command) (h : publishes c = true) : statement c = none := by
  cases c with
  | inl c => cases c <;> first | rfl | cases h
  | inr c => cases c <;> first | rfl | cases h

/-- A request whose operation publishes an apply event. -/
inductive Request
  | realm (request : Realms.Request)
  | activateCert (actor : Actor) (certId : String)

abbrev Operation := Program Command Answer PyException Unit

def Request.program (codec : Realms.UuidCodec) : Request → Operation
  | .realm request => (request.program codec).right
  | .activateCert actor certId =>
    Program.left (do let _ ← Certificates.activateCert actor certId)

/-! ## Every operation publishes before it returns -/

section Operations

open Program

theorem issues_activateCert (actor : Actor) (certId : String) (before : Prop) :
    (Certificates.activateCert actor certId).Issues publishesCert before := by
  refine issues_bind_last _ fun summary => ?_
  cases summary with
  | none => trivial
  | some summary =>
    refine issues_bind_last _ fun _ => issues_bind_last _ fun row => ?_
    cases row with
    | none => trivial
    | some row => exact issues_bind_last _ fun _ => (issues_command rfl).bind _

theorem issues_realm (codec : Realms.UuidCodec) (request : Realms.Request) (before : Prop) :
    (request.program codec).Issues publishesRealm before := by
  cases request with
  | create actor fields =>
    refine Issues.bind ?_ _
    exact issues_bind_last _ fun _ => issues_bind_last _ fun _ => issues_bind_last _ fun _ =>
      issues_bind_last _ fun row => issues_bind_last _ fun _ => (issues_command rfl).bind _
  | update actor realmId updates =>
    refine Issues.bind ?_ _
    unfold Realms.updateRealm
    split
    · trivial
    · exact issues_bind_last _ fun _ => issues_bind_last _ fun _ => issues_bind_last _ fun row =>
        issues_bind_last _ fun _ => (issues_command rfl).bind _
  | delete actor realmId =>
    refine issues_bind_last _ fun _ => issues_bind_last _ fun summary => ?_
    cases summary with
    | none => trivial
    | some summary =>
      exact issues_bind_last _ fun _ => issues_bind_last _ fun _ => issues_command rfl

theorem issues_program (codec : Realms.UuidCodec) (request : Request) (before : Prop) :
    (request.program codec).Issues publishes before := by
  cases request with
  | realm request => exact (issues_realm codec request before).right
  | activateCert actor certId => exact Issues.left ((issues_activateCert actor certId before).bind _)

end Operations

/-! ## The rows as the manager reads them -/

/-- What no request here writes. -/
structure Unwritten where
  /-- The column of the certificate with the id. -/
  dhParamsPem : String → Option String
  ldapServers : List ConfigManager.LdapServer
  radiusNasClients : List ConfigManager.NasClient
  systemSettings : List ConfigManager.SystemSetting

def certificateRow (u : Unwritten) (c : Certificates.Certificate) : ConfigManager.Certificate where
  certType := c.certType
  name := c.name
  pemData := c.pemData
  keyPemEncrypted := c.keyPemEncrypted
  chainPem := c.chainPem
  dhParamsPem := u.dhParamsPem c.id
  isActive := some c.isActive
  enabled := some c.enabled

/-- The name and the type of a realm are never null. -/
def realmRow (r : Realms.Realm) : ConfigManager.Realm where
  name := r.name.getD ""
  realmType := r.realmType.getD ""
  stripUsername := r.stripUsername
  proxyHost := r.proxyHost
  proxyPort := r.proxyPort
  proxySecretEncrypted := r.proxySecretEncrypted
  proxyDeadTimeSeconds := r.proxyDeadTimeSeconds
  priority := r.priority
  enabled := r.enabled

def Unwritten.database (u : Unwritten) (rows : List Row) : Database where
  certificates := (rows.filterMap Sum.getLeft?).map (certificateRow u)
  ldapServers := u.ldapServers
  radiusRealms := ((rows.filterMap Sum.getRight?).filterMap Realms.Stored.asRealm).map realmRow
  radiusNasClients := u.radiusNasClients
  systemSettings := u.systemSettings

/-! ## The machine -/

structure Deployment where
  manager : Manager
  unwritten : Unwritten
  codec : Realms.UuidCodec
  request : Nat → Request
  external : Nat → Nat → (c : Command) → Except PyException (Answer c)
  /-- Has the message of a publish that raises reached the stream? -/
  delivered : Nat → Nat → Bool
  newKey : Nat → String
  uniqueViolation : PyException
  failedTransaction : PyException

abbrev Requests := ReadCommitted.State Row Command Answer PyException Unit

/-- The watcher between two messages, and on its way through one; a message is the request
that published it, or nothing for one from before and for the apply at the start. -/
inductive Phase
  | idle
  | received (message : Option Nat)
  | acked (message : Option Nat)
  | read (db : Database)

structure State where
  requests : Requests
  stream : List (Option Nat)
  watcher : Phase
  files : ConfigManager.World

inductive Label
  | request (l : ReadCommitted.Label PyException)
  | receive (k : Nat)
  | ack
  | read
  /-- The database of the call is the one that was read. -/
  | write (call : Call)

namespace Deployment

variable (d : Deployment)

def env : ReadCommitted.Env Row Command Answer PyException where
  statement := statement
  clashes := clashes
  external := d.external
  newKey := d.newKey
  uniqueViolation := d.uniqueViolation
  failedTransaction := d.failedTransaction

/-- Does a publish put its message into the stream? -/
def reaches (i clock : Nat) (c : Command) : Bool :=
  match d.external i clock c with
  | .ok _ => true
  | .error _ => d.delivered i clock

/-- The messages that a step of the requests publishes. -/
def published (s : Requests) : ReadCommitted.Label PyException → List (Option Nat)
  | .step i =>
    match (s.proc i).phase with
    | .running (.call c _) => if publishes c && d.reaches i s.clock c then [some i] else []
    | _ => []
  | _ => []

/-- The database that the manager finds. -/
def database (s : State) : Database := d.unwritten.database s.requests.committedRows

/-- `apply_configs` on what was read. -/
def apply (db : Database) (call : Call) (files : ConfigManager.World) : ConfigManager.World :=
  (d.manager.applyConfigs { call with db := db } files).2

def step : Label → State → Unit × State
  | .request l, s =>
    ((), { s with
      requests := (ReadCommitted.step d.env l s.requests).2
      stream := s.stream ++ d.published s.requests l })
  | .receive k, s =>
    match s.watcher, s.stream[k]? with
    | .idle, some message =>
      ((), { s with stream := s.stream.eraseIdx k, watcher := .received message })
    | _, _ => ((), s)
  | .ack, s =>
    match s.watcher with
    | .received message => ((), { s with watcher := .acked message })
    | _ => ((), s)
  | .read, s =>
    match s.watcher with
    | .acked _ => ((), { s with watcher := .read (d.database s) })
    | _ => ((), s)
  | .write call, s =>
    match s.watcher with
    | .read db => ((), { s with watcher := .idle, files := d.apply db call s.files })
    | _ => ((), s)

/-- The key of a row among all rows. -/
def key : Row → String
  | .inl c => "certificates " ++ c.id
  | .inr (.realm r) => "radius_realms " ++ r.id
  | .inr (.ldapServer s) => "ldap_servers " ++ s.id

/-- Requests that have not begun, a watcher about to make its first apply, and the messages
that are in the stream from before. -/
def initial (rows : List Row) (backlog : Nat) (files : ConfigManager.World) : State where
  requests :=
    { clock := 0
      keys := rows.map key
      slot := fun k => ⟨rows.find? fun row => key row = k, none⟩
      proc := fun i => ⟨false, .running ((d.request i).program d.codec)⟩ }
  stream := List.replicate backlog none
  watcher := .acked none
  files := files

def InFlight (s : State) (i : Nat) : Prop :=
  (s.requests.proc i).phase ≠ .running ((d.request i).program d.codec) ∧
    ∀ r, (s.requests.proc i).phase ≠ .ended r

/-- No request is in flight and every message has been processed. -/
def AtRest (s : State) : Prop :=
  (∀ i, ¬d.InFlight s i) ∧ s.stream = [] ∧ s.watcher = .idle

end Deployment

end OpenRadiusWeb.ConfigWatcher
