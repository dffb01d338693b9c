import OpenRadiusWeb.Jsonb.Repr
import OpenRadiusWeb.Radius.PostAuth

/-! # The reason of a rejection

`_detect_failure_reason` looks for the codes of Active Directory in two messages of the reply and in
the printed reply. A code is found wherever its three characters stand, so that the branch for
`E=` is never reached. The reason is right exactly where the first code that is found is one of
those that the messages carry as tokens, and these agree.
-/

namespace OpenRadiusWeb.FailureReason

open OpenRadiusWeb.Policy (PyErr PyVal)
open Radius (AttrValue)

/-- `AD_ERROR_MAP`: code, reason and description. -/
def adErrorMap : List (String × String × String) :=
  [("525", "AD_MACHINE_NOT_FOUND", "User/computer not found in AD"),
    ("52e", "AD_INVALID_CREDENTIALS", "Invalid credentials - wrong password"),
    ("530", "AD_LOGON_HOURS", "Not permitted to logon at this time"),
    ("531", "AD_LOGON_WORKSTATION", "Not permitted to logon from this workstation"),
    ("532", "AD_PASSWORD_EXPIRED", "Password has expired"),
    ("533", "AD_ACCOUNT_DISABLED", "Account is disabled"),
    ("701", "AD_ACCOUNT_EXPIRED", "Account has expired"),
    ("773", "AD_PASSWORD_MUST_CHANGE", "User must change password before first logon"),
    ("775", "AD_ACCOUNT_LOCKED", "Account is locked out"),
    ("691", "AD_INVALID_CREDENTIALS", "Authentication failure - wrong password or username"),
    ("646", "AD_ACCOUNT_DISABLED", "Account restriction - account disabled or locked"),
    ("647", "AD_ACCOUNT_EXPIRED", "Account expired"),
    ("648", "AD_LOGON_HOURS", "Logon hours restriction"),
    ("649", "AD_LOGON_WORKSTATION", "Workstation restriction")]

/-- The triple that is returned. -/
structure Failure where
  failureReason : Option AttrValue
  adErrorCode : Option String
  adErrorMessage : Option String
  deriving DecidableEq

def toPy : AttrValue → PyVal
  | .text s => .str s
  | .list values => .list (values.map PyVal.str)

/-- `certificate` with one of its failures. -/
def certificateError (lower : String) : Option (String × String) :=
  if Text.contains "certificate" lower then
    if Text.contains "expired" lower then some ("Client certificate expired", "CERT_EXPIRED")
    else if Text.contains "revoked" lower then some ("Client certificate revoked", "CERT_REVOKED")
    else if Text.contains "unknown ca" lower || Text.contains "untrusted" lower then
      some ("Client certificate from untrusted CA", "CERT_NOT_TRUSTED")
    else if Text.contains "verify" lower then
      some ("Certificate verification failed", "CERT_VERIFY_FAILED")
    else none
  else none

def eapError (lower : String) : Option (String × String) :=
  if Text.contains "eap" lower then
    if Text.contains "timeout" lower then some ("EAP conversation timed out", "EAP_TIMEOUT")
    else if Text.contains "method" lower &&
        (Text.contains "reject" lower || Text.contains "not found" lower) then
      some ("EAP method not supported", "EAP_METHOD_MISMATCH")
    else none
  else none

def ldapError (lower : String) : Option (String × String) :=
  if Text.contains "ldap" lower && (Text.contains "connect" lower || Text.contains "bind" lower) then
    some ("Cannot connect to AD/LDAP", "AD_CONNECT_FAILED")
  else none

def secretError (lower : String) : Option (String × String) :=
  if Text.contains "shared secret" lower || Text.contains "authenticator" lower then
    some ("RADIUS shared secret mismatch", "SHARED_SECRET_MISMATCH")
  else none

/-- The errors besides those of the table, in the order of the tests. -/
def otherError (lower : String) : Option (String × String) :=
  (((certificateError lower).or (eapError lower)).or (ldapError lower)).or (secretError lower)

section Functions

variable (py : Radius.Python) (printable : Char → Bool)

/-- `str(reply)`. -/
def printedReply (reply : Dict AttrValue) : String :=
  String.ofList (Jsonb.render (Jsonb.reprText printable) (fun _ => [])
    (.dict (reply.map fun item => (item.1, toPy item.2))))

/-- `code in source or f"data {code}" in source_lower`. -/
def found (source code : String) : Bool :=
  Text.contains code source || Text.contains ("data " ++ code) (py.lower source)

def adError (source : String) : Option (String × String × String) :=
  adErrorMap.find? fun entry => found py source entry.1

def mschapError (source : String) : Option (String × String × String) :=
  if Text.contains "E=" source then
    adErrorMap.find? fun entry => Text.contains ("E=" ++ entry.1) source
  else none

/-- What one source says. -/
def classify (source : String) : Option Failure :=
  match (adError py source).or (mschapError source) with
  | some (_, reason, desc) => some ⟨some (.text desc), some reason, some source⟩
  | none => (otherError (py.lower source)).map fun error =>
      ⟨some (.text error.1), some error.2, some source⟩

/-- A source that is empty is passed over; a list has no `lower`. -/
def classifySource : AttrValue → Except PyErr (Option Failure)
  | .text s => if s = "" then .ok none else .ok (classify py s)
  | .list values => if values = [] then .ok none else .error .attributeError

def firstFailure : List AttrValue → Except PyErr (Option Failure)
  | [] => .ok none
  | source :: rest => do
    match ← classifySource py source with
    | some failure => return some failure
    | none => firstFailure rest

def replyMessage (reply : Dict AttrValue) : AttrValue := reply.getD "Reply-Message" (.text "")

def moduleFail (reply : Dict AttrValue) : AttrValue := reply.getD "Module-Failure-Message" (.text "")

/-- The places that are searched, in order. -/
def errorSources (reply : Dict AttrValue) : List AttrValue :=
  [replyMessage reply, moduleFail reply, .text (printedReply printable reply)]

def genericFailure (reply : Dict AttrValue) : Failure :=
  if (moduleFail reply).truthy then ⟨some (moduleFail reply), none, none⟩
  else if (replyMessage reply).truthy then ⟨some (replyMessage reply), none, none⟩
  else ⟨some (.text "Authentication rejected"), none, none⟩

/-- `_detect_failure_reason`; the request is not looked at. -/
def detectFailureReason (reply : Dict AttrValue) (authResult : String) : Except PyErr Failure :=
  if authResult = "success" then .ok ⟨none, none, none⟩
  else do
    let failure ← firstFailure py (errorSources printable reply)
    return failure.getD (genericFailure reply)

end Functions

/-! ## Tokens -/

def messages (reply : Dict AttrValue) : List String :=
  [replyMessage reply, moduleFail reply].flatMap fun value =>
    match value with
    | .text s => [s]
    | .list values => values

/-- No letter or digit stands at this end. -/
def Ends (c : Option Char) : Prop := ∀ d, c = some d → d.isAlphanum = false

/-- The message carries the code as a token `data c` or `E=c`, the digits compared without case. -/
def Carries (message code : String) : Prop :=
  ∃ pre mark digits post, message.toList = pre ++ (mark ++ (digits ++ post)) ∧
    mark ∈ ["data ".toList, "E=".toList] ∧ digits.map Char.toLower = code.toList ∧
    Ends pre.getLast? ∧ Ends post.head?

/-- The reason for the code. -/
def MapsTo (code reason : String) : Prop := ∃ desc, (code, reason, desc) ∈ adErrorMap

def Carried (reply : Dict AttrValue) (code : String) : Prop := ∃ message ∈ messages reply, Carries message code

section Claim

variable (py : Radius.Python) (printable : Char → Bool)

/-- This code is returned for the rejected request. -/
def Returns (reply : Dict AttrValue) (reason : String) : Prop :=
  ∃ failure, detectFailureReason py printable reply "reject" = .ok failure ∧
    failure.adErrorCode = some reason

/-- A code of the table is returned only for a token, and for every token of a known code its code
is. -/
def FollowsTokens (reply : Dict AttrValue) : Prop :=
  (∀ reason, (∃ code, MapsTo code reason) → Returns py printable reply reason →
    ∃ code, MapsTo code reason ∧ Carried reply code) ∧
  ∀ code reason, MapsTo code reason → Carried reply code → Returns py printable reply reason

/-- The first code of the table that stands in the source is for this reason. -/
def FirstCode (source reason : String) : Prop :=
  ∃ before code desc after, adErrorMap = before ++ (code, reason, desc) :: after ∧
    found py source code = true ∧ ∀ entry ∈ before, found py source entry.1 = false

/-- Empty, or a text with no code of the table and without the words of another error. -/
inductive Silent : AttrValue → Prop
  | empty : Silent (.text "")
  | nothing : Silent (.list [])
  | text {s : String} (codes : ∀ entry ∈ adErrorMap, found py s entry.1 = false)
      (words : otherError (py.lower s) = none) : Silent (.text s)

/-- The first source that is not silent has a code of the table, the first one for this reason. -/
inductive Told : List AttrValue → String → Prop
  | here {s reason : String} {rest : List AttrValue} (some : s ≠ "") (first : FirstCode py s reason) :
      Told (.text s :: rest) reason
  | later {source : AttrValue} {rest : List AttrValue} {reason : String} (silent : Silent py source)
      (told : Told rest reason) : Told (source :: rest) reason

/-- Tokens and codes are in step: without a token the first source that speaks has no code; with
tokens they are all for the reason that is told. -/
inductive InStep (reply : Dict AttrValue) : Prop
  | none (tokens : ∀ code reason, MapsTo code reason → ¬ Carried reply code)
      (told : ∀ reason, ¬ Told py (errorSources printable reply) reason) : InStep reply
  | some {reason : String} (told : Told py (errorSources printable reply) reason)
      (token : ∃ code, MapsTo code reason ∧ Carried reply code)
      (tokens : ∀ code reason', MapsTo code reason' → Carried reply code → reason' = reason) : InStep reply

end Claim

/-! ## What one source says -/

theorem contains_append {mark code source : String} (h : Text.contains (mark ++ code) source = true) :
    Text.contains code source = true := by
  simp only [Text.contains, decide_eq_true_eq, String.toList_append] at h ⊢
  exact (List.suffix_append mark.toList code.toList).isInfix.trans h

/-- The codes of the other errors. -/
def otherCodes : List String :=
  ["CERT_EXPIRED", "CERT_REVOKED", "CERT_NOT_TRUSTED", "CERT_VERIFY_FAILED", "EAP_TIMEOUT",
    "EAP_METHOD_MISMATCH", "AD_CONNECT_FAILED", "SHARED_SECRET_MISMATCH"]

theorem certificateError_mem {lower : String} {error : String × String}
    (h : certificateError lower = some error) : error.2 ∈ otherCodes := by
  rw [certificateError] at h
  split at h
  · split at h
    · cases h; decide
    · split at h
      · cases h; decide
      · split at h
        · cases h; decide
        · split at h
          · cases h; decide
          · cases h
  · cases h

theorem eapError_mem {lower : String} {error : String × String} (h : eapError lower = some error) :
    error.2 ∈ otherCodes := by
  rw [eapError] at h
  split at h
  · split at h
    · cases h; decide
    · split at h
      · cases h; decide
      · cases h
  · cases h

theorem otherError_mem {lower : String} {error : String × String} (h : otherError lower = some error) :
    error.2 ∈ otherCodes := by
  rw [otherError] at h
  obtain h | ⟨-, h⟩ := Option.or_eq_some_iff.mp h
  · obtain h | ⟨-, h⟩ := Option.or_eq_some_iff.mp h
    · obtain h | ⟨-, h⟩ := Option.or_eq_some_iff.mp h
      · exact certificateError_mem h
      · exact eapError_mem h
    · rw [ldapError] at h
      split at h
      · cases h; decide
      · cases h
  · rw [secretError] at h
    split at h
    · cases h; decide
    · cases h

theorem not_mapsTo_other {reason : String} (h : reason ∈ otherCodes) (code : String) : ¬ MapsTo code reason := by
  rintro ⟨desc, hEntry⟩
  have hApart : ∀ entry ∈ adErrorMap, entry.2.1 ∉ otherCodes := by decide
  exact hApart _ hEntry h

section Search

variable {py : Radius.Python} {printable : Char → Bool}

/-- The branch for `E=` is never reached: its code stands in the source. -/
theorem mschapError_none {source : String} (h : adError py source = none) : mschapError source = none := by
  rw [mschapError]
  split
  · rw [adError, List.find?_eq_none] at h
    rw [List.find?_eq_none]
    intro entry hEntry hMark
    refine h entry hEntry ?_
    rw [found, contains_append hMark, Bool.true_or]
  · rfl

theorem adError_eq_some {source reason : String} :
    (∃ code desc, adError py source = some (code, reason, desc)) ↔ FirstCode py source reason := by
  constructor
  · rintro ⟨code, desc, h⟩
    obtain ⟨hFound, before, after, hMap, hBefore⟩ := List.find?_eq_some_iff_append.mp h
    exact ⟨before, code, desc, after, hMap, hFound, fun entry hEntry => by simpa using hBefore entry hEntry⟩
  · rintro ⟨before, code, desc, after, hMap, hFound, hBefore⟩
    refine ⟨code, desc, List.find?_eq_some_iff_append.mpr ⟨hFound, before, after, hMap, ?_⟩⟩
    intro entry hEntry
    rw [hBefore entry hEntry]
    rfl

theorem FirstCode.mapsTo {source reason : String} (h : FirstCode py source reason) :
    ∃ code, MapsTo code reason := by
  obtain ⟨before, code, desc, after, hMap, -, -⟩ := h
  exact ⟨code, desc, hMap ▸ List.mem_append_right before List.mem_cons_self⟩

theorem classify_eq_none {source : String} : classify py source = none ↔
    (∀ entry ∈ adErrorMap, found py source entry.1 = false) ∧ otherError (py.lower source) = none := by
  have hCodes : adError py source = none ↔ ∀ entry ∈ adErrorMap, found py source entry.1 = false := by
    rw [adError, List.find?_eq_none]
    exact forall₂_congr fun _ _ => Bool.not_eq_true _ ▸ Iff.rfl
  rw [← hCodes, classify]
  cases hAd : adError py source with
  | none => simp [mschapError_none hAd]
  | some entry => simp

/-- A source tells a reason of the table by the first code in it. -/
theorem classify_code {source reason : String} (hReason : ∃ code, MapsTo code reason) :
    (∃ failure, classify py source = some failure ∧ failure.adErrorCode = some reason) ↔
      FirstCode py source reason := by
  rw [← adError_eq_some, classify]
  cases hAd : adError py source with
  | none =>
    rw [mschapError_none hAd, Option.none_or]
    constructor
    · rintro ⟨failure, hFailure, hCode⟩
      obtain ⟨error, hError, rfl⟩ := Option.map_eq_some_iff.mp hFailure
      obtain ⟨code, hMaps⟩ := hReason
      have hOther := otherError_mem hError
      rw [Option.some.inj hCode] at hOther
      exact absurd hMaps (not_mapsTo_other hOther code)
    · rintro ⟨code, desc, h⟩
      cases h
  | some entry =>
    obtain ⟨code, reason', desc⟩ := entry
    rw [Option.some_or]
    constructor
    · rintro ⟨failure, hFailure, hCode⟩
      cases hFailure
      cases hCode
      exact ⟨code, desc, rfl⟩
    · rintro ⟨code', desc', h⟩
      cases h
      exact ⟨_, rfl, rfl⟩

/-! ## What the sources say -/

theorem classifySource_none {source : AttrValue} :
    classifySource py source = .ok none ↔ Silent py source := by
  cases source with
  | text s =>
    by_cases hEmpty : s = ""
    · rw [classifySource, if_pos hEmpty, hEmpty]
      exact ⟨fun _ => .empty, fun _ => rfl⟩
    · rw [classifySource, if_neg hEmpty]
      constructor
      · intro h
        obtain ⟨hCodes, hWords⟩ := classify_eq_none.mp (Except.ok.inj h)
        exact .text hCodes hWords
      · intro h
        cases h with
        | empty => exact absurd rfl hEmpty
        | text hCodes hWords => exact congrArg Except.ok (classify_eq_none.mpr ⟨hCodes, hWords⟩)
  | list values =>
    cases values with
    | nil => exact ⟨fun _ => .nothing, fun _ => rfl⟩
    | cons value values =>
      constructor
      · intro h
        cases h
      · intro h
        cases h

theorem classifySource_code {source : AttrValue} {reason : String} (hReason : ∃ code, MapsTo code reason) :
    (∃ failure, classifySource py source = .ok (some failure) ∧ failure.adErrorCode = some reason) ↔
      ∃ s, source = .text s ∧ s ≠ "" ∧ FirstCode py s reason := by
  cases source with
  | text s =>
    by_cases hEmpty : s = ""
    · rw [classifySource, if_pos hEmpty]
      constructor
      · rintro ⟨failure, hFailure, -⟩
        cases hFailure
      · rintro ⟨s', hSame, hSome, -⟩
        cases hSame
        exact absurd hEmpty hSome
    · rw [classifySource, if_neg hEmpty]
      constructor
      · rintro ⟨failure, hFailure, hCode⟩
        exact ⟨s, rfl, hEmpty, (classify_code hReason).mp ⟨failure, Except.ok.inj hFailure, hCode⟩⟩
      · rintro ⟨s', hSame, -, hFirst⟩
        cases hSame
        obtain ⟨failure, hFailure, hCode⟩ := (classify_code hReason).mpr hFirst
        exact ⟨failure, congrArg Except.ok hFailure, hCode⟩
  | list values =>
    constructor
    · rintro ⟨failure, hFailure, -⟩
      rw [classifySource] at hFailure
      split at hFailure <;> cases hFailure
    · rintro ⟨s, hSame, -⟩
      cases hSame

/-- The first source that is not silent decides. -/
theorem told_cons {source : AttrValue} {rest : List AttrValue} {reason : String} :
    Told py (source :: rest) reason ↔
      (∃ s, source = .text s ∧ s ≠ "" ∧ FirstCode py s reason) ∨ (Silent py source ∧ Told py rest reason) := by
  constructor
  · intro h
    cases h with
    | here hSome hFirst => exact .inl ⟨_, rfl, hSome, hFirst⟩
    | later hSilent hTold => exact .inr ⟨hSilent, hTold⟩
  · rintro (⟨s, rfl, hSome, hFirst⟩ | ⟨hSilent, hTold⟩)
    · exact .here hSome hFirst
    · exact .later hSilent hTold

theorem firstFailure_code {sources : List AttrValue} {reason : String} (hReason : ∃ code, MapsTo code reason) :
    (∃ failure, firstFailure py sources = .ok (some failure) ∧ failure.adErrorCode = some reason) ↔
      Told py sources reason := by
  induction sources with
  | nil =>
    constructor
    · rintro ⟨failure, hFailure, -⟩
      cases hFailure
    · intro h
      cases h
  | cons source rest ih =>
    rw [told_cons, ← classifySource_code hReason, ← classifySource_none, ← ih, firstFailure]
    cases hSource : classifySource py source with
    | error e =>
      constructor
      · rintro ⟨failure, hFailure, -⟩
        cases hFailure
      · rintro (⟨failure, hFailure, -⟩ | ⟨hFailure, -⟩) <;> cases hFailure
    | ok result =>
      cases result with
      | none =>
        constructor
        · intro h
          exact .inr ⟨rfl, h⟩
        · rintro (⟨failure, hFailure, -⟩ | ⟨-, h⟩)
          · cases hFailure
          · exact h
      | some failure =>
        constructor
        · rintro ⟨failure', hFailure, hCode⟩
          exact .inl ⟨failure', hFailure, hCode⟩
        · rintro (⟨failure', hFailure, hCode⟩ | ⟨hFailure, -⟩)
          · exact ⟨failure', hFailure, hCode⟩
          · cases hFailure

theorem genericFailure_code (reply : Dict AttrValue) : (genericFailure reply).adErrorCode = none := by
  rw [genericFailure]
  split
  · rfl
  · split <;> rfl

/-- A reason of the table is returned exactly if it is told. -/
theorem returns_iff {reply : Dict AttrValue} {reason : String} (hReason : ∃ code, MapsTo code reason) :
    Returns py printable reply reason ↔ Told py (errorSources printable reply) reason := by
  rw [← firstFailure_code hReason, Returns, detectFailureReason, if_neg (by decide)]
  cases hFirst : firstFailure py (errorSources printable reply) with
  | error e =>
    constructor
    · rintro ⟨failure, hFailure, -⟩
      cases hFailure
    · rintro ⟨failure, hFailure, -⟩
      cases hFailure
  | ok result =>
    cases result with
    | none =>
      constructor
      · rintro ⟨failure, hFailure, hCode⟩
        cases hFailure
        rw [Option.getD_none, genericFailure_code] at hCode
        cases hCode
      · rintro ⟨failure, hFailure, -⟩
        cases hFailure
    | some found =>
      constructor
      · rintro ⟨failure, hFailure, hCode⟩
        cases hFailure
        exact ⟨found, rfl, hCode⟩
      · rintro ⟨failure, hFailure, hCode⟩
        cases hFailure
        exact ⟨found, rfl, hCode⟩

theorem Told.mapsTo {sources : List AttrValue} {reason : String} (h : Told py sources reason) :
    ∃ code, MapsTo code reason := by
  induction h with
  | here _ hFirst => exact hFirst.mapsTo
  | later _ _ ih => exact ih

theorem Returns.unique {reply : Dict AttrValue} {r r' : String} (h : Returns py printable reply r)
    (h' : Returns py printable reply r') : r = r' := by
  obtain ⟨failure, hFailure, hCode⟩ := h
  obtain ⟨failure', hFailure', hCode'⟩ := h'
  rw [hFailure, Except.ok.injEq] at hFailure'
  rw [← hFailure', hCode, Option.some_inj] at hCode'
  exact hCode'

/-- The code follows the tokens exactly if they are in step with the codes that stand in the
sources. -/
theorem followsTokens_iff (py : Radius.Python) (printable : Char → Bool) (reply : Dict AttrValue) :
    FollowsTokens py printable reply ↔ InStep py printable reply := by
  constructor
  · rintro ⟨hOnly, hEvery⟩
    by_cases hToken : ∃ code reason, MapsTo code reason ∧ Carried reply code
    · obtain ⟨code, reason, hMaps, hCarried⟩ := hToken
      have hReturns := hEvery code reason hMaps hCarried
      refine .some ((returns_iff ⟨code, hMaps⟩).mp hReturns) ⟨code, hMaps, hCarried⟩ ?_
      intro code' reason' hMaps' hCarried'
      exact (hEvery code' reason' hMaps' hCarried').unique hReturns
    · refine .none (fun code reason hMaps hCarried => hToken ⟨code, reason, hMaps, hCarried⟩) ?_
      intro reason hTold
      obtain ⟨code, hMaps, hCarried⟩ := hOnly reason hTold.mapsTo ((returns_iff hTold.mapsTo).mpr hTold)
      exact hToken ⟨code, reason, hMaps, hCarried⟩
  · intro h
    cases h with
    | none hTokens hTold =>
      constructor
      · intro reason hReason hReturns
        exact absurd ((returns_iff hReason).mp hReturns) (hTold reason)
      · intro code reason hMaps hCarried
        exact absurd hCarried (hTokens code reason hMaps)
    | @some told hTold hToken hTokens =>
      have hReturns := (returns_iff hTold.mapsTo).mpr hTold
      constructor
      · intro reason _ hReason
        rw [hReason.unique hReturns]
        exact hToken
      · intro code reason hMaps hCarried
        rw [hTokens code reason hMaps hCarried]
        exact hReturns

end Search

/-- The reason that `post_auth` logs: the reply of a rejection is empty. -/
theorem detectFailureReason_empty {py : Radius.Python} (printable : Char → Bool)
    (hLower : py.lower "\x7b\x7d" = "\x7b\x7d") : detectFailureReason py printable [] "reject" =
      .ok ⟨some (.text "Authentication rejected"), none, none⟩ := by
  have hNone : classify py "\x7b\x7d" = none := by
    rw [classify_eq_none, hLower]
    refine ⟨fun entry hEntry => ?_, by decide⟩
    have hPlain : ∀ entry ∈ adErrorMap, (Text.contains entry.1 "\x7b\x7d" ||
        Text.contains ("data " ++ entry.1) "\x7b\x7d") = false := by decide
    rw [found, hLower]
    exact hPlain entry hEntry
  have hPrinted : errorSources printable [] = [.text "", .text "", .text "\x7b\x7d"] := rfl
  rw [detectFailureReason, if_neg (by decide), hPrinted]
  simp only [firstFailure, classifySource, if_true]
  rw [hNone]
  rfl

/-- The digits of a port are taken for a code. -/
theorem code_of_port : ¬ ∀ (py : Radius.Python) (printable : Char → Bool) (reply : Dict AttrValue),
    FollowsTokens py printable reply := by
  intro h
  obtain ⟨hOnly, -⟩ := h ⟨Policy.lowerAscii, fun _ => false, fun _ => none⟩ (fun _ => false)
    [("Module-Failure-Message", .text "No answer from 10.0.0.7:1532")]
  obtain ⟨code, -, message, hMessage, pre, mark, digits, post, hText, hMark, -⟩ :=
    hOnly "AD_PASSWORD_EXPIRED" ⟨"532", "Password has expired", by decide⟩ ⟨_, rfl, rfl⟩
  have hLetters : ∀ message ∈ ["", "No answer from 10.0.0.7:1532"],
      'd' ∉ message.toList ∧ '=' ∉ message.toList := by decide
  obtain ⟨hD, hEquals⟩ := hLetters message hMessage
  simp only [List.mem_cons, List.not_mem_nil, or_false] at hMark
  obtain rfl | rfl := hMark
  · exact hD (hText ▸ List.mem_append_right pre List.mem_cons_self)
  · exact hEquals (hText ▸ List.mem_append_right pre (List.mem_cons_of_mem _ List.mem_cons_self))

end OpenRadiusWeb.FailureReason
