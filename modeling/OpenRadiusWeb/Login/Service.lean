import OpenRadiusWeb.Lib.Redis
import OpenRadiusWeb.Lib.Transcript
import OpenRadiusWeb.Policy.Values

/-! # Logins

`login` of the auth service as its sequence of Redis and database steps, and any number of
requests that take these steps in any order, at any time. A request can die at any of them.
-/

namespace OpenRadiusWeb.Login

open OpenRadiusWeb.Policy (PyErr)
open Redis (Keyspace get incr expire setex keyExists erase)

def ipRateLimit : Nat := 20
def ipRateTtl : Nat := 60
def failLockoutThreshold : Nat := 5
def failLockoutTtl : Nat := 900

/-- The columns that `lookup_user_for_login` reads. -/
structure User where
  id : String
  username : String
  passwordHash : Option String
  role : String
  tenantId : Option String
  enabled : Option Bool
  deriving DecidableEq

structure Request where
  username : String
  password : String
  clientIp : String

structure Env where
  /-- The key by which CITEXT values are compared. -/
  fold : String → String
  /-- `bcrypt.checkpw` of the encoded password and hash. -/
  checkpw : String → String → Except PyErr Bool
  /-- `users`, where `username` is unique. -/
  users : List User
  requests : Nat → Request

/-- The payload of `create_access_token`. -/
structure AccessToken where
  userId : String
  username : String
  role : String
  tenantId : String
  deriving DecidableEq

inductive LoginError
  | rateLimit (message : String)
  | authentication (message : String)
  | raised (e : PyErr)
  /-- The process or a connection is gone. -/
  | died
  deriving DecidableEq

/-- Where a request is: the command it issues next, with what it has read. -/
inductive Pc
  | start
  | expireRate
  | checkLockout
  | lookup
  | verify (user : Option User)
  | recordFailure
  | expireFailures
  | armLockout (count : Nat)
  | auditFailure (count : Nat)
  | clearFailures (user : User)
  | updateLastLogin (user : User)
  | auditSuccess (user : User)
  | done (result : Except LoginError AccessToken)
  deriving DecidableEq

/-- What a step does beside its effect on the keys. -/
inductive Event
  /-- `verify_password` is called for a user. -/
  | verified (user : User) (result : Except PyErr Bool)
  /-- The attempt is rejected without a verification. -/
  | refused
  | recorded (count : Nat)
  deriving DecidableEq

def rateKey (clientIp : String) : String := "orw:login_rate:" ++ clientIp
def lockoutKey (username : String) : String := "orw:lockout:" ++ username
def failKey (username : String) : String := "orw:login_fail:" ++ username

def rateMessage : String := "Too many login attempts. Try again later."

def lockoutMessage : String :=
  "Account temporarily locked due to repeated failed login attempts."

def lookupUserForLogin (env : Env) (username : String) : Option User :=
  env.users.find? fun user => env.fold user.username = env.fold username

/-- `None` has no `encode`, which is not one of the caught errors. -/
def verifyPassword (env : Env) (plain : String) : Option String → Except PyErr Bool
  | none => .error .attributeError
  | some hashed =>
    match env.checkpw plain hashed with
    | .ok valid => .ok valid
    | .error e => if e.isValueOrTypeError then .ok false else .error e

/-- The rest of `_check_ip_rate`. -/
def afterRate (count : Nat) : Pc :=
  if count > ipRateLimit then .done (.error (.rateLimit rateMessage)) else .checkLockout

/-- The rest of `_record_failed_login`, after a new counter has got its expiry time. -/
def afterFailure (count : Nat) : Pc :=
  if count ≥ failLockoutThreshold then .armLockout count else .auditFailure count

def createAccessToken (user : User) : AccessToken :=
  ⟨user.id, user.username, user.role, user.tenantId.getD "None"⟩

/-- The test of the credentials, where a NULL in `enabled` counts as disabled. -/
def checkCredentials (env : Env) (password : String) : Option User → Option Event × Pc
  | none => (some .refused, .recordFailure)
  | some user =>
    if user.enabled = some true then
      let result := verifyPassword env password user.passwordHash
      (some (.verified user result),
        match result with
        | .ok true => .clearFailures user
        | .ok false => .recordFailure
        | .error e => .done (.error (.raised e)))
    else (some .refused, .recordFailure)

/-- The next step of a request. -/
def advance (env : Env) (request : Request) (now : Nat) (ks : Keyspace) :
    Pc → Option Event × Keyspace × Pc
  | .start =>
    match incr ks now (rateKey request.clientIp) with
    | none => (none, ks, .done (.error (.raised (.other "ResponseError"))))
    | some (count, ks) => (none, ks, if count = 1 then .expireRate else afterRate count)
  | .expireRate => (none, expire ks now (rateKey request.clientIp) ipRateTtl, afterRate 1)
  | .checkLockout =>
    (none, ks,
      if keyExists ks now (lockoutKey request.username) then
        .done (.error (.rateLimit lockoutMessage))
      else .lookup)
  | .lookup => (none, ks, .verify (lookupUserForLogin env request.username))
  | .verify user =>
    let (event, pc) := checkCredentials env request.password user
    (event, ks, pc)
  | .recordFailure =>
    match incr ks now (failKey request.username) with
    | none => (none, ks, .done (.error (.raised (.other "ResponseError"))))
    | some (count, ks) =>
      (some (.recorded count), ks, if count = 1 then .expireFailures else afterFailure count)
  | .expireFailures =>
    (none, expire ks now (failKey request.username) failLockoutTtl, afterFailure 1)
  | .armLockout count =>
    (none, setex ks now (lockoutKey request.username) failLockoutTtl "locked",
      .auditFailure count)
  | .auditFailure _ => (none, ks, .done (.error (.authentication "Invalid credentials")))
  | .clearFailures user =>
    (none, erase (erase ks (failKey request.username)) (lockoutKey request.username),
      .updateLastLogin user)
  | .updateLastLogin user => (none, ks, .auditSuccess user)
  | .auditSuccess user => (none, ks, .done (.ok (createAccessToken user)))
  | .done result => (none, ks, .done result)

structure State where
  now : Nat
  ks : Keyspace
  pc : Nat → Pc

inductive Label
  | wait (d : Nat)
  | step (i : Nat)
  | die (i : Nat)
  deriving DecidableEq

/-- A request that has died issues no more commands. -/
def abandon : Pc → Pc
  | .done result => .done result
  | _ => .done (.error .died)

def step (env : Env) : Label → State → Option (Nat × Event) × State
  | .wait d, s => (none, { s with now := s.now + d })
  | .die i, s => (none, { s with pc := Function.update s.pc i (abandon (s.pc i)) })
  | .step i, s =>
    let (event, ks, pc) := advance env (env.requests i) s.now s.ks (s.pc i)
    (event.map (i, ·), { s with ks := ks, pc := Function.update s.pc i pc })

/-- Before the first login no key exists. -/
def initial (now : Nat) : State := ⟨now, fun _ => none, fun _ => .start⟩

section Keys

theorem failKey_ne_lockoutKey (u v : String) : failKey u ≠ lockoutKey v := by
  intro h
  have hChars := congrArg String.toList h
  simp [failKey, lockoutKey] at hChars

theorem failKey_ne_rateKey (u ip : String) : failKey u ≠ rateKey ip := by
  intro h
  have hChars := congrArg String.toList h
  simp [failKey, rateKey] at hChars

theorem lockoutKey_ne_rateKey (u ip : String) : lockoutKey u ≠ rateKey ip := by
  intro h
  have hChars := congrArg String.toList h
  simp [lockoutKey, rateKey] at hChars

theorem failKey_injective {u v : String} (h : failKey u = failKey v) : u = v := by
  have hChars := congrArg String.toList h
  exact String.toList_inj.mp (by simpa [failKey] using hChars)

theorem lockoutKey_injective {u v : String} (h : lockoutKey u = lockoutKey v) : u = v := by
  have hChars := congrArg String.toList h
  exact String.toList_inj.mp (by simpa [lockoutKey] using hChars)

theorem rateKey_injective {ip ip' : String} (h : rateKey ip = rateKey ip') : ip = ip' := by
  have hChars := congrArg String.toList h
  exact String.toList_inj.mp (by simpa [rateKey] using hChars)

end Keys

end OpenRadiusWeb.Login
