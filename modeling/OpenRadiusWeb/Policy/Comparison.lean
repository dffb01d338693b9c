import OpenRadiusWeb.Policy.SharedEvaluator

/-! # The comparison operators

Which comparisons raise, and which operators are each other's complements. An exception that
is neither a `ValueError` nor a `TypeError` escapes the handler of `_compare`: the overflow of
a conversion to a float, and whatever `re.search` makes of a pattern.
-/

namespace OpenRadiusWeb.Policy

/-- An exception that `_compare` does not turn into a failed condition. -/
def Escapes {α : Type} (x : Except PyErr α) : Prop := ∃ e, x = .error e ∧ e.isValueOrTypeError = false

section Hazards

variable (B : Builtins) (actual : PyVal) (op : String) (expected : PyVal)

def orderings : List String := ["gt", ">", "gte", ">=", "lt", "<", "lte", "<="]

/-- The second operand is converted when the first one could be. -/
def OrderingEscapes : Prop :=
  Escapes ((actual.or (.int 0)).toFloat B) ∨
    (∃ a, (actual.or (.int 0)).toFloat B = .ok a) ∧ Escapes ((expected.or (.int 0)).toFloat B)

/-- The upper bound is converted when the lower one is met. -/
def BetweenEscapes : Prop :=
  ∃ low high, expected = .list [low, high] ∧ (Escapes (low.toFloat B) ∨
    ∃ l, low.toFloat B = .ok l ∧ (Escapes ((actual.or (.int 0)).toFloat B) ∨
      ∃ a, (actual.or (.int 0)).toFloat B = .ok a ∧ l.le a = true ∧ Escapes (high.toFloat B)))

/-- The comparisons that raise. -/
def Hazard : Prop :=
  op ∈ orderings ∧ OrderingEscapes B actual expected ∨
  op = "between" ∧ BetweenEscapes B actual expected ∨
  op = "regex" ∧ actual.truthy = true ∧ Escapes (B.reSearch (expected.toStr B) (actual.toStr B))

end Hazards

section Comparison

variable {B : Builtins} {actual expected : PyVal} {op : String}

theorem not_escapes_ok {α : Type} (a : α) : ¬Escapes (Except.ok a : Except PyErr α) := by
  rintro ⟨e, h, -⟩
  cases h

theorem not_escapes_typeError {α : Type} : ¬Escapes (Except.error .typeError : Except PyErr α) := by
  rintro ⟨e, h, hEscapes⟩
  cases h
  cases hEscapes

theorem escapes_bind {α β : Type} {x : Except PyErr α} {f : α → Except PyErr β} :
    Escapes (x >>= f) ↔ Escapes x ∨ ∃ a, x = .ok a ∧ Escapes (f a) := by
  cases x with
  | error e =>
    have hNone : ¬∃ a, (Except.error e : Except PyErr α) = .ok a ∧ Escapes (f a) := nofun
    rw [or_iff_left hNone]
    constructor
    · rintro ⟨e', h, hEscapes⟩
      cases h
      exact ⟨e, rfl, hEscapes⟩
    · rintro ⟨e', h, hEscapes⟩
      cases h
      exact ⟨e, rfl, hEscapes⟩
  | ok a =>
    rw [or_iff_right (not_escapes_ok a)]
    constructor
    · exact fun h => ⟨a, rfl, h⟩
    · rintro ⟨a', h, hEscapes⟩
      cases h
      exact hEscapes

theorem compareFloats_escapes {test : PyFloat → PyFloat → Bool} :
    Escapes (compareFloats B test actual expected) ↔ OrderingEscapes B actual expected := by
  unfold compareFloats OrderingEscapes
  rw [escapes_bind]
  refine or_congr_right ?_
  constructor
  · rintro ⟨a, ha, hRest⟩
    obtain hEscapes | ⟨e, -, hPure⟩ := escapes_bind.mp hRest
    · exact ⟨⟨a, ha⟩, hEscapes⟩
    · exact absurd hPure (not_escapes_ok _)
  · rintro ⟨⟨a, ha⟩, hEscapes⟩
    exact ⟨a, ha, escapes_bind.mpr (.inl hEscapes)⟩

theorem between_escapes : Escapes (between B actual expected) ↔ BetweenEscapes B actual expected := by
  unfold between
  split
  · rename_i low high
    have hPair : BetweenEscapes B actual (.list [low, high]) ↔ (Escapes (low.toFloat B) ∨
        ∃ l, low.toFloat B = .ok l ∧ (Escapes ((actual.or (.int 0)).toFloat B) ∨
          ∃ a, (actual.or (.int 0)).toFloat B = .ok a ∧ l.le a = true ∧ Escapes (high.toFloat B))) := by
      constructor
      · rintro ⟨low', high', h, hEscapes⟩
        cases h
        exact hEscapes
      · exact fun h => ⟨low, high, rfl, h⟩
    rw [hPair, escapes_bind]
    refine or_congr_right (exists_congr fun l => and_congr_right fun _ => ?_)
    rw [escapes_bind]
    refine or_congr_right (exists_congr fun a => and_congr_right fun _ => ?_)
    by_cases hLow : l.le a = true
    · rw [if_pos hLow, escapes_bind, and_iff_right hLow]
      exact or_iff_left fun ⟨_, _, hPure⟩ => not_escapes_ok _ hPure
    · rw [if_neg hLow]
      exact iff_of_false (not_escapes_ok _) fun h => hLow h.1
  · rename_i hShape
    refine iff_of_false (not_escapes_ok _) ?_
    rintro ⟨low, high, rfl, -⟩
    exact hShape low high rfl

theorem isMemberOf_quiet : ¬Escapes (isMemberOf B actual expected) := by
  unfold isMemberOf
  split
  · split
    · dsimp only
      split
      · exact not_escapes_ok _
      · exact not_escapes_typeError
    · exact not_escapes_ok _
  · exact not_escapes_ok _

theorem compareOp_quiet (hOrdering : op ∉ orderings) (hBetween : op ≠ "between")
    (hRegex : op ≠ "regex") : ¬Escapes (compareOp B actual op expected) := by
  unfold compareOp
  split
  all_goals first
    | exact not_escapes_ok _
    | exact isMemberOf_quiet
    | exact absurd (by decide) hOrdering
    | exact absurd rfl hBetween
    | exact absurd rfl hRegex
    | (dsimp only
       split <;> exact not_escapes_ok _)

theorem compareOp_escapes :
    Escapes (compareOp B actual op expected) ↔ Hazard B actual op expected := by
  unfold Hazard
  by_cases hOrdering : op ∈ orderings
  · have hOther : op ≠ "between" ∧ op ≠ "regex" := by
      constructor <;> rintro rfl <;> exact absurd hOrdering (by decide)
    have hFloats : ∃ test, compareOp B actual op expected = compareFloats B test actual expected := by
      simp only [orderings, List.mem_cons, List.not_mem_nil, or_false] at hOrdering
      obtain rfl | rfl | rfl | rfl | rfl | rfl | rfl | rfl := hOrdering <;> exact ⟨_, rfl⟩
    obtain ⟨test, hTest⟩ := hFloats
    rw [hTest, compareFloats_escapes]
    simp only [hOrdering, true_and, hOther.1, hOther.2, false_and, or_false]
  · by_cases hBetween : op = "between"
    · subst hBetween
      have hOther : "between" ≠ "regex" := by decide
      have hEscapes := @between_escapes B actual expected
      exact hEscapes.trans (by tauto)
    · by_cases hRegex : op = "regex"
      · subst hRegex
        have hSearch : Escapes (compareOp B actual "regex" expected) ↔
            actual.truthy = true ∧ Escapes (B.reSearch (expected.toStr B) (actual.toStr B)) := by
          change Escapes (if actual.truthy = true then
            B.reSearch (expected.toStr B) (actual.toStr B) else Except.ok false) ↔ _
          split
          · rename_i hTruthy
            exact (and_iff_right hTruthy).symm
          · rename_i hFalsy
            exact iff_of_false (not_escapes_ok _) fun h => hFalsy h.1
        rw [hSearch]
        tauto
      · have hQuiet := @compareOp_quiet B actual expected op hOrdering hBetween hRegex
        tauto

/-- A comparison by an operator that is a text returns unless it is a hazard. -/
theorem compare_returns_iff :
    (∃ b, compare B actual (.str op) expected = .ok b) ↔ ¬Hazard B actual op expected := by
  rw [← compareOp_escapes, compare]
  cases compareOp B actual op expected with
  | ok b => exact iff_of_true ⟨b, rfl⟩ (not_escapes_ok b)
  | error e =>
    dsimp only
    split
    · rename_i hHandled
      refine iff_of_true ⟨false, rfl⟩ ?_
      rintro ⟨e', h, hEscapes⟩
      cases h
      rw [hHandled] at hEscapes
      cases hEscapes
    · rename_i hEscapes
      refine iff_of_false Except.error_not_ok fun h => h ⟨e, rfl, ?_⟩
      rwa [Bool.not_eq_true] at hEscapes

/-! ## Complements -/

/-- The positive operators with their negations, in all spellings. -/
def complements : List (String × String) :=
  (["equals", "eq", "=="].flatMap fun op => ["not_equals", "ne", "!="].map fun neg => (op, neg)) ++
    [("in", "not_in"), ("contains", "not_contains"), ("exists", "not_exists"),
      ("is_empty", "is_not_empty")]

theorem compare_of_ok {b : Bool} (h : compareOp B actual op expected = .ok b) :
    compare B actual (.str op) expected = .ok b := by
  rw [compare, h]

theorem ite_not_comm (c b d : Bool) : (if c then !b else !d) = !(if c then b else d) := by
  cases c <;> rfl

theorem ok_ite_not (c b : Bool) : (Except.ok (if c then !b else true) : Except PyErr Bool) =
    .ok !(if c then b else false) := congrArg Except.ok (ite_not_comm c b false)

theorem compareOp_complement {neg : String} (h : (op, neg) ∈ complements) :
    ∃ b, compareOp B actual op expected = .ok b ∧ compareOp B actual neg expected = .ok !b := by
  obtain hEquals | hOther := List.mem_append.mp h
  · obtain ⟨op', hOp, hPair⟩ := List.mem_flatMap.mp hEquals
    obtain ⟨neg', hNeg, hPair⟩ := List.mem_map.mp hPair
    cases hPair
    simp only [List.mem_cons, List.not_mem_nil, or_false] at hOp hNeg
    refine ⟨equals B (normalize B actual) (normalize B expected), ?_, ?_⟩
    · obtain rfl | rfl | rfl := hOp <;> rfl
    · obtain rfl | rfl | rfl := hNeg <;> rfl
  · simp only [List.mem_cons, List.not_mem_nil, or_false, Prod.mk.injEq] at hOther
    obtain ⟨rfl, rfl⟩ | ⟨rfl, rfl⟩ | ⟨rfl, rfl⟩ | ⟨rfl, rfl⟩ := hOther
    · cases expected with
      | list es => exact ⟨_, rfl, rfl⟩
      | _ => exact ⟨_, rfl, ok_ite_not _ _⟩
    · exact ⟨_, rfl, ok_ite_not _ _⟩
    · exact ⟨!actual.isNone, rfl, congrArg Except.ok (Bool.not_not _).symm⟩
    · refine ⟨actual.isNone || actual.eq (.str "") || actual.eq (.list []), rfl, ?_⟩
      rw [Bool.not_or, Bool.not_or]
      rfl

/-- A condition as a policy holds it. -/
def conditionOf (field value : PyVal) (op : String) : Dict PyVal :=
  [("field", field), ("operator", .str op), ("value", value)]

/-- Each negated operator is the complement of its positive one, in both copies, and of a
condition and its negation exactly one matches wherever the field can be looked up. -/
theorem negation_complements (B : Builtins) (now : Now) {op neg : String}
    (h : (op, neg) ∈ complements) :
    (∀ actual expected, ∃ b,
      compare B actual (.str op) expected = .ok b ∧ compare B actual (.str neg) expected = .ok !b) ∧
    (∀ actual expected, ∃ b, Shared.compare B actual (.str op) expected = .ok b ∧
      Shared.compare B actual (.str neg) expected = .ok !b) ∧
    ∀ context field value,
      (checkCondition B now context (conditionOf field value neg)).map ConditionResult.matched =
        (checkCondition B now context (conditionOf field value op)).map fun r => !r.matched := by
  have hCompare : ∀ actual expected, ∃ b, compare B actual (.str op) expected = .ok b ∧
      compare B actual (.str neg) expected = .ok !b := by
    intro actual expected
    obtain ⟨b, hOp, hNeg⟩ := @compareOp_complement B actual expected op neg h
    exact ⟨b, compare_of_ok hOp, compare_of_ok hNeg⟩
  refine ⟨hCompare, ?_, ?_⟩
  · intro actual expected
    rw [Shared.compare_eq, Shared.compare_eq]
    exact hCompare actual expected
  · intro context field value
    have hCheck : ∀ op', checkCondition B now context (conditionOf field value op') = (do
        let actual ← resolveField now context field
        let matched ← compare B actual (.str op') value
        return ⟨field, .str op', value, actual, matched⟩) := fun _ => rfl
    rw [hCheck, hCheck]
    cases resolveField now context field with
    | error e => rfl
    | ok actual =>
      obtain ⟨b, hOp, hNeg⟩ := hCompare actual value
      simp only [bind, Except.bind, hOp, hNeg, pure, Except.pure, Except.map]

/-- `in` and `not_in` on an expected value that is no list. -/
theorem in_complements : ("in", "not_in") ∈ complements ∧
    ∃ b, compare plainBuiltins (.int 5) (.str "in") (.str "15") = .ok b ∧
      compare plainBuiltins (.int 5) (.str "not_in") (.str "15") = .ok !b :=
  ⟨by decide, (negation_complements plainBuiltins ⟨0, 0, 0, 1, 1, ""⟩ (by decide)).1 (.int 5) (.str "15")⟩

end Comparison

end OpenRadiusWeb.Policy
