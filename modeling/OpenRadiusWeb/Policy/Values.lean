import OpenRadiusWeb.Lib.Dict
import OpenRadiusWeb.Lib.Text
import Mathlib.Algebra.Order.Ring.Rat

/-! # Values of policy conditions and contexts

Conditions, actions and device contexts are untyped: JSON values from the database and
objects such as addresses and timestamps from a device row. Equality, truth, iteration
and the conversions to text and to a float follow the interpreter, including the values
on which they raise.
-/

namespace OpenRadiusWeb.Policy

/-- A float: one of the special values or a finite one. -/
inductive PyFloat
  | nan
  | posInf
  | negInf
  | finite (q : ℚ)
  deriving DecidableEq

namespace PyFloat

/-- `a < b`. -/
def lt : PyFloat → PyFloat → Bool
  | nan, _ | _, nan => false
  | negInf, negInf => false
  | negInf, _ => true
  | _, negInf => false
  | posInf, _ => false
  | finite _, posInf => true
  | finite a, finite b => decide (a < b)

/-- `a == b`. -/
def eq : PyFloat → PyFloat → Bool
  | nan, _ => false
  | a, b => decide (a = b)

/-- `a <= b`. -/
def le (a b : PyFloat) : Bool := lt a b || eq a b

end PyFloat

/-- A value of the interpreter; `obj` is an object that is equal to another of its class
with the same text. -/
inductive PyVal
  | none
  | bool (b : Bool)
  | int (n : Int)
  | float (x : PyFloat)
  | str (s : String)
  | list (xs : List PyVal)
  | dict (items : List (String × PyVal))
  | obj (cls text : String)

/-- The exceptions the evaluator tells apart. -/
inductive PyErr
  | valueError
  | typeError
  | attributeError
  | keyError
  | other (name : String)
  deriving DecidableEq

/-- `except (ValueError, TypeError)`. -/
def PyErr.isValueOrTypeError : PyErr → Bool
  | .valueError | .typeError => true
  | _ => false

/-- Library functions of the interpreter. -/
structure Builtins where
  /-- `str.lower`. -/
  lower : String → String
  /-- `str` of a float, a list or a dictionary. -/
  repr : PyVal → String
  /-- `float` of a text, if it names one. -/
  floatOfStr : String → Option PyFloat
  /-- `float` of an integer, which may be out of range. -/
  floatOfInt : Int → Except PyErr PyFloat
  /-- `bool(re.search(pattern, text))`; a bad pattern raises. -/
  reSearch : String → String → Except PyErr Bool

namespace PyVal

/-- `bool(v)`. -/
def truthy : PyVal → Bool
  | none => false
  | bool b => b
  | int n => n != 0
  | float x => !x.eq (.finite 0)
  | str s => s != ""
  | list xs => !xs.isEmpty
  | dict items => !items.isEmpty
  | obj _ _ => true

/-- `a or b`. -/
def or (a b : PyVal) : PyVal := if a.truthy then a else b

def isNone : PyVal → Bool
  | none => true
  | _ => false

/-- The number a value is equal to. -/
def number? : PyVal → Option PyFloat
  | bool b => some (.finite (if b then 1 else 0))
  | int n => some (.finite n)
  | float x => some x
  | _ => Option.none

mutual

/-- `a == b`. -/
def eq : PyVal → PyVal → Bool
  | none, none => true
  | str s, str t => s == t
  | list xs, list ys => eqList xs ys
  | dict xs, dict ys => xs.length == ys.length && eqItems xs ys
  | obj c s, obj c' s' => c == c' && s == s'
  | a, b =>
    match a.number?, b.number? with
    | some x, some y => x.eq y
    | _, _ => false

def eqList : List PyVal → List PyVal → Bool
  | [], [] => true
  | x :: xs, y :: ys => eq x y && eqList xs ys
  | _, _ => false

/-- Every item of the first dictionary is in the second. -/
def eqItems : List (String × PyVal) → List (String × PyVal) → Bool
  | [], _ => true
  | (k, v) :: rest, ys =>
    (match Dict.get? ys k with
      | some w => eq v w
      | Option.none => false) && eqItems rest ys

end

/-- `x in xs`. -/
def elem (x : PyVal) (xs : List PyVal) : Bool := xs.any fun y => x.eq y

/-- Can the value be put in a set? -/
def hashable : PyVal → Bool
  | list _ | dict _ => false
  | _ => true

/-- The values `for x in v` visits. -/
def iter : PyVal → Except PyErr (List PyVal)
  | list xs => .ok xs
  | dict items => .ok (items.map fun item => str item.1)
  | str s => .ok (s.toList.map fun c => str (String.ofList [c]))
  | _ => .error .typeError

/-- `str(v)`. -/
def toStr (B : Builtins) : PyVal → String
  | str s => s
  | none => "None"
  | bool true => "True"
  | bool false => "False"
  | int n => toString n
  | obj _ text => text
  | v => B.repr v

/-- `float(v)`. -/
def toFloat (B : Builtins) : PyVal → Except PyErr PyFloat
  | bool b => .ok (.finite (if b then 1 else 0))
  | int n => B.floatOfInt n
  | float x => .ok x
  | str s =>
    match B.floatOfStr s with
    | some x => .ok x
    | Option.none => .error .valueError
  | _ => .error .typeError

/-- `v.get(k, default)`; only dictionaries have the method. -/
def getAttr (v : PyVal) (k : String) (default : PyVal) : Except PyErr PyVal :=
  match v with
  | dict items => .ok (Dict.getD items k default)
  | _ => .error .attributeError

/-- The dictionaries among a list's elements, with their positions from `j` on. -/
def dicts (j : Nat) : List PyVal → List (Nat × Dict PyVal)
  | [] => []
  | dict items :: rest => (j, items) :: dicts (j + 1) rest
  | _ :: rest => dicts (j + 1) rest

theorem dicts_index (j : Nat) (xs : List PyVal) : ∀ a ∈ dicts j xs, j ≤ a.1 := by
  induction xs generalizing j with
  | nil => intro a ha; cases ha
  | cons x xs ih =>
    have hRest : ∀ a ∈ dicts (j + 1) xs, j ≤ a.1 := fun a ha => by
      have := ih (j + 1) a ha
      omega
    cases x with
    | dict items => exact List.forall_mem_cons.mpr ⟨le_refl j, hRest⟩
    | _ => exact hRest

theorem dicts_pairwise (j : Nat) (xs : List PyVal) :
    (dicts j xs).Pairwise fun a b => a.1 < b.1 := by
  induction xs generalizing j with
  | nil => exact List.Pairwise.nil
  | cons x xs ih =>
    cases x with
    | dict items => exact List.pairwise_cons.mpr ⟨fun a ha => dicts_index (j + 1) xs a ha, ih _⟩
    | _ => exact ih (j + 1)

end PyVal

/-! ## The library functions on plain texts -/

mutual

/-- `repr` of a value whose texts have no quotes or escapes. -/
def plainRepr : PyVal → String
  | .str s => "'" ++ s ++ "'"
  | .list xs => "[" ++ ", ".intercalate (plainReprList xs) ++ "]"
  | .dict items => "\x7b" ++ ", ".intercalate (plainReprItems items) ++ "\x7d"
  | .none => "None"
  | .bool b => if b then "True" else "False"
  | .int n => toString n
  | .float (.finite q) => toString q
  | .float .nan => "nan"
  | .float .posInf => "inf"
  | .float .negInf => "-inf"
  | .obj _ text => text

def plainReprList : List PyVal → List String
  | [] => []
  | x :: xs => plainRepr x :: plainReprList xs

def plainReprItems : List (String × PyVal) → List String
  | [] => []
  | (k, v) :: rest => ("'" ++ k ++ "': " ++ plainRepr v) :: plainReprItems rest

end

def lowerAscii (s : String) : String := String.ofList (s.toList.map Char.toLower)

/-- The library functions on ASCII texts, integers that a float represents, numerals without
a sign and patterns that stand for themselves. -/
def plainBuiltins : Builtins where
  lower := lowerAscii
  repr := plainRepr
  floatOfStr s := s.toNat?.map fun n => .finite n
  floatOfInt n := .ok (.finite n)
  reSearch pattern text := .ok (Text.contains pattern text)

end OpenRadiusWeb.Policy
