import OpenRadiusWeb.Lib.Dict
import OpenRadiusWeb.Lib.Text
import OpenRadiusWeb.Policy.Values

/-! # Requests to the RADIUS module

The attributes of a request as the module collects them, the authentication method it
detects, and the two ways in which MAC addresses are normalised: by the module, for its
look-up, and by the gateway, for the devices it stores.
-/

namespace OpenRadiusWeb.Radius

open OpenRadiusWeb.Policy (PyErr)

/-- Functions of the interpreter that depend on its Unicode tables. -/
structure Python where
  lower : String → String
  isdigit : String → Bool
  /-- `int` of a text, if it is a number. -/
  int : String → Option Int

/-- The value of an attribute, which is a list when the attribute is repeated. -/
inductive AttrValue
  | text (s : String)
  | list (values : List String)
  deriving DecidableEq

def AttrValue.truthy : AttrValue → Bool
  | .text s => s ≠ ""
  | .list values => !values.isEmpty

def addAttr (attrs : Dict AttrValue) (pair : String × String) : Dict AttrValue :=
  match attrs.get? pair.1 with
  | none => attrs.set pair.1 (.text pair.2)
  | some (.text first) => attrs.set pair.1 (.list [first, pair.2])
  | some (.list values) => attrs.set pair.1 (.list (values ++ [pair.2]))

def extractAttrs (pairs : List (String × String)) : Dict AttrValue := pairs.foldl addAttr []

def eapMethodMap : List (Int × String) :=
  [(1, "Identity"), (4, "MD5-Challenge"), (6, "GTC"), (13, "EAP-TLS"), (21, "EAP-TTLS"),
    (25, "PEAP"), (26, "MSCHAPv2"), (43, "EAP-FAST")]

section Functions

variable (py : Python)

/-- A text without the separators of MAC addresses, in lower case. -/
def macClean (s : String) : String :=
  py.lower (Text.removeChar '.' (Text.removeChar '-' (Text.removeChar ':' s)))

def eapMethodName (n : Int) (default : String) : String :=
  match eapMethodMap.find? fun entry => entry.1 = n with
  | some entry => entry.2
  | none => default

/-- A list has no `isdigit`, and some digits are not decimal. -/
def eapMethod : AttrValue → Except PyErr String
  | .list _ => .error .attributeError
  | .text s =>
    if py.isdigit s then
      match py.int s with
      | none => .error .valueError
      | some n => .ok (eapMethodName n ("EAP-" ++ s))
    else .ok (eapMethodName 0 ("EAP-" ++ s))

/-- A list has no `replace`. -/
def sameStation : AttrValue → AttrValue → Except PyErr Bool
  | .text calling, .text username => .ok (macClean py calling == macClean py username)
  | _, _ => .error .attributeError

/-- Are both given, and the same address? -/
def userIsStation (callingId username : AttrValue) : Except PyErr Bool :=
  if callingId.truthy && username.truthy then sameStation py callingId username else .ok false

def detectAuthMethod (request : Dict AttrValue) : Except PyErr String :=
  match (request.get? "EAP-Type").filter AttrValue.truthy with
  | some eapType => eapMethod py eapType
  | none => do
    let callingId := request.getD "Calling-Station-Id" (.text "")
    let username := request.getD "User-Name" (.text "")
    let same ← userIsStation py callingId username
    if same || request.get? "Service-Type" = some (.text "Call-Check") then .ok "MAB"
    else .ok "PAP"

/-- The first twelve characters in pairs. -/
def macPairs (f : String → String) (s : String) : String :=
  ":".intercalate ((List.range 6).map fun i => f (String.ofList ((s.toList.drop (2 * i)).take 2)))

/-- `_normalize_mac` of the module. -/
def normalizeMac (raw : String) : String :=
  if '.' ∈ raw.toList ∧ raw.toList.length = 14 then
    macPairs py.lower (Text.removeChar '.' raw)
  else if (macClean py raw).toList.length = 12 then macPairs id (macClean py raw)
  else py.lower raw

def isHexDigit (c : Char) : Bool :=
  ('0' ≤ c && c ≤ '9') || ('a' ≤ c && c ≤ 'f') || ('A' ≤ c && c ≤ 'F')

def hexOnly (raw : String) : String := String.ofList (raw.toList.filter isHexDigit)

/-- `_normalize_mac` of the gateway, which refuses what does not have twelve digits. -/
def gatewayNormalizeMac (raw : String) : Option String :=
  if (hexOnly raw).toList.length = 12 then some (macPairs py.lower (hexOnly raw)) else none

end Functions

/-! ## What is collected of an attribute -/

/-- The values of an attribute in the order of the request. -/
def valuesOf (pairs : List (String × String)) (name : String) : List String :=
  (pairs.filter fun pair => pair.1 = name).map Prod.snd

def ofValues : List String → Option AttrValue
  | [] => none
  | [value] => some (.text value)
  | values => some (.list values)

theorem get?_addAttr_of_ne {attrs : Dict AttrValue} {pair : String × String} {name : String}
    (h : name ≠ pair.1) : (addAttr attrs pair).get? name = attrs.get? name := by
  unfold addAttr
  split <;> exact Dict.get?_set_of_ne _ _ h

theorem get?_addAttr_self {attrs : Dict AttrValue} {pair : String × String} {values : List String}
    (h : attrs.get? pair.1 = ofValues values) :
    (addAttr attrs pair).get? pair.1 = ofValues (values ++ [pair.2]) := by
  unfold addAttr
  rw [h]
  match values with
  | [] => exact Dict.get?_set_self ..
  | [first] => exact Dict.get?_set_self ..
  | first :: second :: rest => exact Dict.get?_set_self ..

theorem extractAttrs_concat (pairs : List (String × String)) (pair : String × String) :
    extractAttrs (pairs ++ [pair]) = addAttr (extractAttrs pairs) pair :=
  List.foldl_concat ..

theorem valuesOf_concat (pairs : List (String × String)) (pair : String × String) (name : String) :
    valuesOf (pairs ++ [pair]) name =
      if name = pair.1 then valuesOf pairs name ++ [pair.2] else valuesOf pairs name := by
  unfold valuesOf
  rw [List.filter_append, List.map_append]
  by_cases h : name = pair.1
  · simp [h]
  · simp [h, Ne.symm h]

theorem get?_extractAttrs (pairs : List (String × String)) (name : String) :
    (extractAttrs pairs).get? name = ofValues (valuesOf pairs name) := by
  induction pairs using List.reverseRecOn with
  | nil => rfl
  | append_singleton pairs pair ih =>
    rw [extractAttrs_concat, valuesOf_concat]
    by_cases h : name = pair.1
    · subst h
      rw [if_pos rfl]
      exact get?_addAttr_self ih
    · rw [if_neg h]
      exact (get?_addAttr_of_ne h).trans ih

theorem getD_extractAttrs (pairs : List (String × String)) (name : String) :
    (extractAttrs pairs).getD name (.text "") =
      (ofValues (valuesOf pairs name)).getD (.text "") := by
  rw [Dict.getD, get?_extractAttrs]

end OpenRadiusWeb.Radius
