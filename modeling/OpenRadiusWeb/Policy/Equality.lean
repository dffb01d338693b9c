import OpenRadiusWeb.Policy.Comparison

/-! # Equality of scalars

`equals` compares normalised values, and as soon as one of them is a boolean it compares truth
values; `in` compares the same normalised values by the interpreter's equality. The two agree,
and `equals` is an equivalence relation, as long as no truth value is taken of a value that is
not equal to the boolean.
-/

namespace OpenRadiusWeb.Policy

/-- A null, a boolean, a number or a text. -/
def Scalar : PyVal → Prop
  | .none | .bool _ | .int _ | .float (.finite _) | .str _ => True
  | _ => False

def trueTexts : List String := ["true", "yes", "1"]

def falseTexts : List String := ["false", "no", "0"]

section Laws

variable (B : Builtins)

def Equal (actual expected : PyVal) : Prop := compare B actual (.str "equals") expected = .ok true

def In (actual : PyVal) (expected : List PyVal) : Prop :=
  compare B actual (.str "in") (.list expected) = .ok true

def trimmed (s : String) : String := Text.strip (B.lower s)

/-- Texts that differ at most in case, surrounding blanks and the spelling of a boolean. -/
def SameText (s t : String) : Prop :=
  trimmed B s = trimmed B t ∨ (trimmed B s ∈ trueTexts ∧ trimmed B t ∈ trueTexts) ∨
    (trimmed B s ∈ falseTexts ∧ trimmed B t ∈ falseTexts)

/-- The number a value is, booleans apart. -/
def numberOf : PyVal → Option ℚ
  | .int n => some n
  | .float (.finite q) => some q
  | _ => none

structure EqualityLaws (actuals scalars : Set PyVal) : Prop where
  refl : ∀ a ∈ scalars, Equal B a a
  symm : ∀ a ∈ scalars, ∀ b ∈ scalars, Equal B a b → Equal B b a
  trans : ∀ a ∈ scalars, ∀ b ∈ scalars, ∀ c ∈ scalars, Equal B a b → Equal B b c → Equal B a c
  numbers : ∀ a ∈ scalars, ∀ b ∈ scalars, ∀ x y, numberOf a = some x → numberOf b = some y →
    x ≠ y → ¬Equal B a b
  texts : ∀ s t, .str s ∈ scalars → .str t ∈ scalars → ¬SameText B s t → ¬Equal B (.str s) (.str t)
  isIn : ∀ a ∈ actuals, ∀ es : List PyVal, (∀ e ∈ es, e ∈ scalars) →
    (In B a es ↔ ∃ e ∈ es, Equal B a e)

/-- A truth value that is taken of a value the boolean is not equal to. -/
def CoercedTo (b : Bool) (v : PyVal) : Prop := v ≠ .none ∧ v.truthy = b ∧ v.eq (.bool b) = false

/-- Two normalised values of which one is a boolean and the other one has its truth value only. -/
def Coerced (x y : PyVal) : Prop :=
  (∃ b, x = .bool b ∧ CoercedTo b y) ∨ ∃ b, y = .bool b ∧ CoercedTo b x

/-- Lower-casing a text that is lower-cased and trimmed changes nothing. -/
def LowerStable : Prop := ∀ s, B.lower (trimmed B s) = trimmed B s

end Laws

/-! ## The interpreter's equality -/

theorem PyFloat.eq_comm (x y : PyFloat) : x.eq y = y.eq x := by
  cases x <;> cases y <;> simp [PyFloat.eq, Eq.comm]

theorem eq_of_numbers {x y : PyVal} {p q : PyFloat} (hx : x.number? = some p)
    (hy : y.number? = some q) : x.eq y = p.eq q := by
  cases x <;> cases hx <;> cases y <;> cases hy <;> simp [PyVal.eq, PyVal.number?]

theorem eq_of_no_number {x y : PyVal} {p : PyFloat} (hx : x.number? = some p)
    (hy : y.number? = none) : x.eq y = false ∧ y.eq x = false := by
  cases x <;> cases hx <;> cases y <;> cases hy <;> simp [PyVal.eq, PyVal.number?]

theorem eq_bool_comm (b : Bool) (v : PyVal) : (PyVal.bool b).eq v = v.eq (.bool b) := by
  cases hNumber : v.number? with
  | none =>
    have hFalse := @eq_of_no_number (.bool b) v _ rfl hNumber
    rw [hFalse.1, hFalse.2]
  | some p =>
    rw [eq_of_numbers rfl hNumber, eq_of_numbers hNumber rfl, PyFloat.eq_comm]

theorem truthy_of_eq_bool {v : PyVal} {b : Bool} (h : v.eq (.bool b) = true) : v.truthy = b := by
  cases hNumber : v.number? with
  | none =>
    rw [(@eq_of_no_number (.bool b) v _ rfl hNumber).2] at h
    cases h
  | some p =>
    rw [eq_of_numbers hNumber rfl] at h
    cases v with
    | bool b' =>
      cases hNumber
      cases b <;> cases b' <;> simp_all [PyFloat.eq, PyVal.truthy]
    | int n =>
      cases hNumber
      cases b <;> simp_all [PyFloat.eq, PyVal.truthy]
    | float x =>
      cases hNumber
      cases b <;> cases p <;> simp_all [PyFloat.eq, PyVal.truthy]
    | _ => cases hNumber

/-- What identifies a scalar: nothing, a number or a text. -/
def scalarKey : PyVal → Option (ℚ ⊕ String)
  | .bool b => some (.inl (if b then 1 else 0))
  | .int n => some (.inl n)
  | .float (.finite q) => some (.inl q)
  | .str s => some (.inr s)
  | _ => none

theorem finite_eq (p q : ℚ) : (PyFloat.finite p).eq (.finite q) = true ↔ p = q := by
  simp [PyFloat.eq]

theorem scalar_cases {x : PyVal} (h : Scalar x) :
    (∃ q, x.number? = some (.finite q) ∧ scalarKey x = some (.inl q)) ∨
    (∃ s, x = .str s) ∨ x = .none := by
  cases x with
  | none => exact .inr (.inr rfl)
  | bool b => exact .inl ⟨_, rfl, rfl⟩
  | int n => exact .inl ⟨_, rfl, rfl⟩
  | float x =>
    cases x with
    | finite q => exact .inl ⟨_, rfl, rfl⟩
    | _ => exact h.elim
  | str s => exact .inr (.inl ⟨s, rfl⟩)
  | _ => exact h.elim

theorem eq_iff_scalarKey {x y : PyVal} (hx : Scalar x) (hy : Scalar y) :
    x.eq y = true ↔ scalarKey x = scalarKey y := by
  obtain ⟨p, hp, hpKey⟩ | ⟨s, rfl⟩ | rfl := scalar_cases hx
  · obtain ⟨q, hq, hqKey⟩ | ⟨t, rfl⟩ | rfl := scalar_cases hy
    · rw [eq_of_numbers hp hq, finite_eq, hpKey, hqKey]
      simp
    · rw [(eq_of_no_number hp rfl).1, hpKey]
      simp [scalarKey]
    · rw [(eq_of_no_number hp rfl).1, hpKey]
      simp [scalarKey]
  · obtain ⟨q, hq, hqKey⟩ | ⟨t, rfl⟩ | rfl := scalar_cases hy
    · rw [(eq_of_no_number hq rfl).2, hqKey]
      simp [scalarKey]
    · simp [PyVal.eq, scalarKey]
    · simp [PyVal.eq, PyVal.number?, scalarKey]
  · obtain ⟨q, hq, hqKey⟩ | ⟨t, rfl⟩ | rfl := scalar_cases hy
    · rw [(eq_of_no_number hq rfl).2, hqKey]
      simp [scalarKey]
    · simp [PyVal.eq, PyVal.number?, scalarKey]
    · simp [PyVal.eq, scalarKey]

/-! ## Normalised values -/

section Normalized

variable {B : Builtins}

theorem normalize_str (s : String) :
    (trimmed B s ∈ trueTexts ∧ normalize B (.str s) = .bool true) ∨
    (trimmed B s ∈ falseTexts ∧ normalize B (.str s) = .bool false) ∨
    (trimmed B s ∉ trueTexts ∧ trimmed B s ∉ falseTexts ∧
      normalize B (.str s) = .str (trimmed B s)) := by
  by_cases hTrue : trimmed B s ∈ trueTexts
  · exact .inl ⟨hTrue, if_pos hTrue⟩
  · by_cases hFalse : trimmed B s ∈ falseTexts
    · exact .inr (.inl ⟨hFalse, (if_neg hTrue).trans (if_pos hFalse)⟩)
    · exact .inr (.inr ⟨hTrue, hFalse, (if_neg hTrue).trans (if_neg hFalse)⟩)

/-- A value whose texts do not change when they are lower-cased. -/
def Lowered (B : Builtins) (x : PyVal) : Prop := ∀ s, x = .str s → B.lower s = s

theorem normalize_lowered (h : LowerStable B) (v : PyVal) : Lowered B (normalize B v) := by
  intro t ht
  cases v with
  | str s =>
    obtain ⟨-, hNormal⟩ | ⟨-, hNormal⟩ | ⟨-, -, hNormal⟩ := @normalize_str B s
    · rw [hNormal] at ht
      cases ht
    · rw [hNormal] at ht
      cases ht
    · rw [hNormal] at ht
      cases ht
      exact h s
  | _ => cases ht

theorem normalize_scalar {v : PyVal} (h : Scalar v) : Scalar (normalize B v) := by
  cases v with
  | str s =>
    obtain ⟨-, hNormal⟩ | ⟨-, hNormal⟩ | ⟨-, -, hNormal⟩ := @normalize_str B s <;>
      rw [hNormal] <;> trivial
  | _ => exact h

theorem truthy_beq {b : Bool} {v : PyVal} (h : ¬CoercedTo b v) (hNone : v ≠ .none) :
    (b == v.truthy) = v.eq (.bool b) := by
  by_cases hTruthy : v.truthy = b
  · have hEq : v.eq (.bool b) = true := by
      by_contra hFalse
      exact h ⟨hNone, hTruthy, Bool.eq_false_iff.mpr hFalse⟩
    rw [hTruthy, hEq, beq_self_eq_true]
  · have hEq : v.eq (.bool b) = false := Bool.eq_false_iff.mpr fun h => hTruthy (truthy_of_eq_bool h)
    rw [hEq, beq_eq_false_iff_ne]
    exact Ne.symm hTruthy

theorem equals_bool_left {b : Bool} {v : PyVal} (h : v ≠ .none) :
    equals B (.bool b) v = (b == v.truthy) := by
  cases v with
  | none => exact absurd rfl h
  | _ => rfl

theorem equals_bool_right {b : Bool} {v : PyVal} (h : v ≠ .none) :
    equals B v (.bool b) = (b == v.truthy) := by
  cases v with
  | none => exact absurd rfl h
  | bool b' => exact Bool.beq_comm
  | _ => exact Bool.beq_comm

theorem equals_bool_none (b : Bool) : equals B (.bool b) .none = (PyVal.bool b).eq .none ∧
    equals B .none (.bool b) = PyVal.none.eq (.bool b) := ⟨rfl, rfl⟩

theorem equals_of_not_coerced {x y : PyVal} (hx : Lowered B x) (hy : Lowered B y)
    (h : ¬Coerced x y) : equals B x y = x.eq y := by
  obtain ⟨hLeft, hRight⟩ := not_or.mp h
  by_cases hBoolX : ∃ b, x = .bool b
  · obtain ⟨b, rfl⟩ := hBoolX
    by_cases hNone : y = .none
    · rw [hNone]
      exact (equals_bool_none b).1
    · rw [equals_bool_left hNone, truthy_beq (fun hCoerced => hLeft ⟨b, rfl, hCoerced⟩) hNone,
        eq_bool_comm]
  · by_cases hBoolY : ∃ b, y = .bool b
    · obtain ⟨b, rfl⟩ := hBoolY
      by_cases hNone : x = .none
      · rw [hNone]
        exact (equals_bool_none b).2
      · rw [equals_bool_right hNone, truthy_beq (fun hCoerced => hRight ⟨b, rfl, hCoerced⟩) hNone]
    · cases x with
      | bool b => exact absurd ⟨b, rfl⟩ hBoolX
      | str s =>
        cases y with
        | bool b => exact absurd ⟨b, rfl⟩ hBoolY
        | str t =>
          rw [equals, hx s rfl, hy t rfl]
          simp [PyVal.eq]
        | _ => simp [equals, PyVal.eq, PyVal.number?]
      | none => cases y <;> simp [equals, PyVal.eq, PyVal.number?]
      | _ =>
        cases y with
        | bool b => exact absurd ⟨b, rfl⟩ hBoolY
        | _ => simp [equals, PyVal.eq, PyVal.number?]

theorem equals_of_coerced {x y : PyVal} (h : Coerced x y) : equals B x y = true ∧ x.eq y = false := by
  obtain ⟨b, rfl, hNone, hTruthy, hEq⟩ | ⟨b, rfl, hNone, hTruthy, hEq⟩ := h
  · rw [equals_bool_left hNone, eq_bool_comm, hTruthy]
    exact ⟨beq_self_eq_true b, hEq⟩
  · rw [equals_bool_right hNone, hTruthy]
    exact ⟨beq_self_eq_true b, hEq⟩

theorem equal_iff {a e : PyVal} : Equal B a e ↔ equals B (normalize B a) (normalize B e) = true := by
  have hCompare : compare B a (.str "equals") e = .ok (equals B (normalize B a) (normalize B e)) := rfl
  rw [Equal, hCompare, Except.ok.injEq]

theorem in_iff {a : PyVal} {es : List PyVal} :
    In B a es ↔ ∃ e ∈ es, (normalize B a).eq (normalize B e) = true := by
  have hCompare : compare B a (.str "in") (.list es) =
      .ok ((normalize B a).elem (es.map (normalize B))) := rfl
  rw [In, hCompare, Except.ok.injEq, PyVal.elem, List.any_map, List.any_eq_true]
  rfl

theorem sameText_of_key {s t : String}
    (h : scalarKey (normalize B (.str s)) = scalarKey (normalize B (.str t))) : SameText B s t := by
  obtain ⟨hs, hNormalS⟩ | ⟨hs, hNormalS⟩ | ⟨-, -, hNormalS⟩ := @normalize_str B s <;>
    obtain ⟨ht, hNormalT⟩ | ⟨ht, hNormalT⟩ | ⟨-, -, hNormalT⟩ := @normalize_str B t <;>
    rw [hNormalS, hNormalT] at h
  · exact .inr (.inl ⟨hs, ht⟩)
  · simp [scalarKey] at h
  · simp [scalarKey] at h
  · simp [scalarKey] at h
  · exact .inr (.inr ⟨hs, ht⟩)
  · simp [scalarKey] at h
  · simp [scalarKey] at h
  · simp [scalarKey] at h
  · simp only [scalarKey, Option.some.injEq, Sum.inr.injEq] at h
    exact .inl h

theorem scalarKey_of_number {v : PyVal} {q : ℚ} (h : numberOf v = some q) :
    scalarKey (normalize B v) = some (.inl q) := by
  cases v with
  | int n =>
    cases h
    rfl
  | float x =>
    cases x with
    | finite p =>
      cases h
      rfl
    | _ => cases h
  | _ => cases h

end Normalized

/-- The laws of equality hold among the values and scalars of which none is coerced. -/
theorem equality_laws_iff (B : Builtins) (hLower : LowerStable B) (actuals scalars : Set PyVal)
    (hScalars : ∀ v ∈ scalars, Scalar v) (hSubset : scalars ⊆ actuals) :
    EqualityLaws B actuals scalars ↔
      ∀ a ∈ actuals, ∀ e ∈ scalars, ¬Coerced (normalize B a) (normalize B e) := by
  constructor
  · intro h a ha e he hCoerced
    obtain ⟨hEqual, hEq⟩ := @equals_of_coerced B _ _ hCoerced
    have hIn : In B a [e] := (h.isIn a ha [e] (by simpa using he)).mpr
      ⟨e, List.mem_singleton.mpr rfl, equal_iff.mpr hEqual⟩
    obtain ⟨e', he', hTrue⟩ := in_iff.mp hIn
    rw [List.mem_singleton.mp he', hEq] at hTrue
    cases hTrue
  · intro h
    have hEq : ∀ a ∈ actuals, ∀ e ∈ scalars,
        (Equal B a e ↔ (normalize B a).eq (normalize B e) = true) := by
      intro a ha e he
      rw [equal_iff, equals_of_not_coerced (normalize_lowered hLower a) (normalize_lowered hLower e)
        (h a ha e he)]
    have hKey : ∀ a ∈ scalars, ∀ e ∈ scalars,
        (Equal B a e ↔ scalarKey (normalize B a) = scalarKey (normalize B e)) := by
      intro a ha e he
      rw [hEq a (hSubset ha) e he, eq_iff_scalarKey (normalize_scalar (hScalars a ha))
        (normalize_scalar (hScalars e he))]
    refine ⟨?_, ?_, ?_, ?_, ?_, ?_⟩
    · intro a ha
      exact (hKey a ha a ha).mpr rfl
    · intro a ha b hb hab
      exact (hKey b hb a ha).mpr ((hKey a ha b hb).mp hab).symm
    · intro a ha b hb c hc hab hbc
      exact (hKey a ha c hc).mpr (((hKey a ha b hb).mp hab).trans ((hKey b hb c hc).mp hbc))
    · intro a ha b hb x y hx hy hNe hab
      have hSame := (hKey a ha b hb).mp hab
      rw [scalarKey_of_number hx, scalarKey_of_number hy] at hSame
      exact hNe (Sum.inl.inj (Option.some.inj hSame))
    · intro s t hs ht hNe hEqual
      exact hNe (sameText_of_key ((hKey _ hs _ ht).mp hEqual))
    · intro a ha es hes
      rw [in_iff]
      exact exists_congr fun e => and_congr_right fun he => (hEq a ha e (hes e he)).symm

/-! ## On ASCII texts -/

theorem toLower_toLower (c : Char) : c.toLower.toLower = c.toLower := by
  unfold Char.toLower
  split
  · rename_i hUpper
    rw [dif_neg]
    intro hAgain
    have hLow := hUpper.1
    have hHigh := hUpper.2
    have hStill := hAgain.2
    simp only [ge_iff_le, UInt32.le_iff_toNat_le, UInt32.toNat_add] at hLow hHigh hStill
    simp at hLow hHigh hStill
    omega
  · rfl

theorem mem_strip {c : Char} {s : String} (h : c ∈ (Text.strip s).toList) : c ∈ s.toList := by
  rw [Text.strip, String.toList_ofList, List.mem_reverse] at h
  have hTrailing := (List.dropWhile_sublist _).subset h
  exact (List.dropWhile_sublist _).subset (List.mem_reverse.mp hTrailing)

theorem lowerStable_plain : LowerStable plainBuiltins := by
  intro s
  have hFixed : ∀ c ∈ (trimmed plainBuiltins s).toList, c.toLower = id c := by
    intro c hc
    have hMem : c ∈ (lowerAscii s).toList := mem_strip hc
    rw [lowerAscii, String.toList_ofList] at hMem
    obtain ⟨d, -, rfl⟩ := List.mem_map.mp hMem
    exact toLower_toLower d
  have hMap := List.map_congr_left hFixed
  rw [List.map_id] at hMap
  exact (congrArg String.ofList hMap).trans String.ofList_toList

/-- A spelling of a boolean, a number that is equal to one and nothing. -/
def spelledScalars : Set PyVal := {.str " Yes ", .int 1, .none}

theorem spelledScalars_laws : EqualityLaws plainBuiltins spelledScalars spelledScalars := by
  refine (equality_laws_iff plainBuiltins lowerStable_plain spelledScalars spelledScalars ?_
    (fun _ h => h)).mpr ?_
  · rintro v (rfl | rfl | rfl) <;> trivial
  · have hNormal : ∀ v ∈ spelledScalars, normalize plainBuiltins v = .bool true ∨
        normalize plainBuiltins v = .int 1 ∨ normalize plainBuiltins v = .none := by
      rintro v (rfl | rfl | rfl)
      · exact .inl rfl
      · exact .inr (.inl rfl)
      · exact .inr (.inr rfl)
    have hNot : ∀ b v, v = .bool true ∨ v = .int 1 ∨ v = .none → ¬CoercedTo b v := by
      rintro b v (rfl | rfl | rfl) ⟨hNone, hTruthy, hEq⟩
      · cases hTruthy
        cases hEq
      · cases hTruthy
        cases hEq
      · exact hNone rfl
    rintro a ha e he (⟨b, -, hCoerced⟩ | ⟨b, -, hCoerced⟩)
    · exact hNot b _ (hNormal e he) hCoerced
    · exact hNot b _ (hNormal a ha) hCoerced

theorem truth_values_coerced :
    (Equal plainBuiltins (.int 5) (.str "yes") ∧ Equal plainBuiltins (.str "yes") (.int 7) ∧
      ¬Equal plainBuiltins (.int 5) (.int 7)) ∧
    (Equal plainBuiltins (.str "hello") (.str "1") ∧ ¬SameText plainBuiltins "hello" "1") ∧
    (Equal plainBuiltins (.int 5) (.bool true) ∧ ¬In plainBuiltins (.int 5) [.bool true]) ∧
    ¬EqualityLaws plainBuiltins Set.univ {v | Scalar v} := by
  have hFive : Equal plainBuiltins (.int 5) (.str "yes") := by rfl
  have hSeven : Equal plainBuiltins (.str "yes") (.int 7) := by rfl
  have hApart : ¬Equal plainBuiltins (.int 5) (.int 7) := by
    intro h
    cases h
  have hTexts : ¬SameText plainBuiltins "hello" "1" := by
    unfold SameText
    decide
  refine ⟨⟨hFive, hSeven, hApart⟩, ⟨by rfl, hTexts⟩, ⟨by rfl, ?_⟩, fun h => ?_⟩
  · intro h
    cases h
  · exact hApart (h.trans (.int 5) trivial (.str "yes") trivial (.int 7) trivial hFive hSeven)

end OpenRadiusWeb.Policy
