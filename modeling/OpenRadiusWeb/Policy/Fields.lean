import OpenRadiusWeb.Policy.SharedEvaluator

/-! # The sources of a field

A dotted field path can be a direct key of the context, an aliased key, a key with underscores,
a time field or a path into the properties. `_resolve_field` looks at them in this order, but
stops at the first one that the name belongs to, whether or not the context has it.
-/

namespace OpenRadiusWeb.Policy

def timeNames : List String := [
  "time.hour", "time.minute", "time.weekday", "time.day_of_month", "time.month", "time.date",
  "time.is_business_hours", "time.is_weekend"]

/-- What lies at the end of a path, if every part of it is there. -/
def valueAt : PyVal → List String → Option PyVal
  | current, [] => some current
  | .dict items, part :: parts =>
    match Dict.get? items part with
    | some v => valueAt v parts
    | none => none
  | _, _ :: _ => none

section Sources

variable (now : Now) (context : Context) (field : String)

/-- Direct key, aliased key, underscored key, time field and nested path, each with the value it
has for the field. -/
def sources : List (Option PyVal) := [
  if field ∈ directFields then context.get? field else none,
  (aliases.get? field).bind fun key => context.get? key,
  context.get? (Text.replaceChar '.' "_" field),
  if field ∈ timeNames then some (resolveTimeField now field) else none,
  valueAt (context.getD "properties" (.dict [])) (Text.split '.' field)]

/-- The first value there is, and `None` without one. -/
def firstOf (values : List (Option PyVal)) : PyVal := (values.findSome? id).getD .none

/-- How many of the sources are looked at for a name. -/
def sourcesRead : Nat :=
  if field = "" then 0
  else if field ∈ directFields then 1
  else if (aliases.get? field).isSome then 2
  else if field.startsWith "time." then 4
  else 5

end Sources

theorem lookupPath_eq (v : PyVal) (parts : List String) :
    lookupPath v parts = (valueAt v parts).getD .none := by
  induction parts generalizing v with
  | nil => cases v <;> rfl
  | cons part parts ih =>
    cases v with
    | dict items =>
      rw [lookupPath, valueAt]
      cases Dict.get? items part with
      | none => rfl
      | some v => exact ih v
    | _ => rfl

theorem resolveTimeField_eq (now : Now) (field : String) : resolveTimeField now field =
    (if field ∈ timeNames then some (resolveTimeField now field) else none).getD .none := by
  split
  · rfl
  · rename_i hName
    simp only [timeNames, List.mem_cons, List.not_mem_nil, or_false, not_or] at hName
    simp only [resolveTimeField, Dict.getD, Dict.get?_cons, hName, if_false, Dict.get?_nil]

theorem firstOf_singleton (x : Option PyVal) : firstOf [x] = x.getD .none := by
  cases x <;> rfl

theorem startsWith_of_timeNames {field : String} (h : field ∈ timeNames) :
    field.startsWith "time." = true := by
  have hAll : ∀ name ∈ timeNames, name.startsWith "time." = true := by decide +kernel
  exact hAll field h

theorem resolveName_eq_firstOf (now : Now) (context : Context) {field : String} (h : field ≠ "") :
    resolveName now context field = firstOf ((sources now context field).take (sourcesRead field)) := by
  unfold resolveName sourcesRead sources
  rw [if_neg h]
  by_cases hDirect : field ∈ directFields
  · rw [if_pos hDirect, if_pos hDirect, if_pos hDirect]
    exact (firstOf_singleton _).symm
  · simp only [if_neg hDirect]
    cases aliases.get? field with
    | some key => exact (firstOf_singleton _).symm
    | none =>
      dsimp only [Option.isSome]
      rw [if_neg Bool.false_ne_true]
      cases context.get? (Text.replaceChar '.' "_" field) with
      | some v =>
        dsimp only
        split <;> rfl
      | none =>
        dsimp only
        by_cases hTime : field.startsWith "time." = true
        · rw [if_pos hTime, if_pos hTime]
          exact (resolveTimeField_eq now field).trans (firstOf_singleton _).symm
        · have hName : field ∉ timeNames := fun hName => hTime (startsWith_of_timeNames hName)
          rw [if_neg hTime, if_neg hTime, if_neg hName, lookupPath_eq]
          exact (firstOf_singleton _).symm

theorem resolveField_eq_firstOf (now : Now) (context : Context) (field : String) :
    resolveField now context (.str field) =
      .ok (firstOf ((sources now context field).take (sourcesRead field))) := by
  by_cases h : field = ""
  · subst h
    rfl
  · have hTruthy : (PyVal.str field).truthy ≠ false := by simpa [PyVal.truthy] using h
    rw [resolveField, if_neg hTruthy, resolveName_eq_firstOf now context h]

/-- Dropping the sources behind some of them changes nothing when one of these has a value or
none of the others has one but `None`. -/
theorem firstOf_take_iff (values : List (Option PyVal)) (n : Nat) :
    firstOf (values.take n) = firstOf values ↔
      ((values.take n).findSome? id = none → firstOf (values.drop n) = .none) := by
  have hSplit : values.findSome? id =
      ((values.take n).findSome? id).or ((values.drop n).findSome? id) := by
    rw [← List.findSome?_append, List.take_append_drop]
  unfold firstOf
  rw [hSplit]
  cases (values.take n).findSome? id with
  | some v => exact iff_of_true rfl nofun
  | none => exact ⟨fun h _ => h.symm, fun h => (h rfl).symm⟩

/-- A field gets the value of its first source when one of the sources that are looked at has it,
and when no other one has it or has `None`. -/
theorem resolveField_first_iff (now : Now) (context : Context) (field : String) :
    (resolveField now context (.str field) = .ok (firstOf (sources now context field)) ∧
      Shared.resolveField now context (.str field) = .ok (firstOf (sources now context field))) ↔
    (((sources now context field).take (sourcesRead field)).findSome? id = none →
      firstOf ((sources now context field).drop (sourcesRead field)) = .none) := by
  rw [Shared.resolveField_eq, and_self, resolveField_eq_firstOf, Except.ok.injEq, firstOf_take_iff]

/-- The context of the boolean-normalisation test. -/
def dot1xContext : Context := [
  ("mac_address", .str "00:11:22:33:44:55"), ("risk_score", .int 0),
  ("properties", .dict [("auth", .dict [("802_1x", .str "true")])])]

theorem dot1x_property_missed :
    firstOf (sources ⟨12, 0, 0, 1, 1, "2026-01-01"⟩ dot1xContext "auth.802_1x") = .str "true" ∧
    resolveField ⟨12, 0, 0, 1, 1, "2026-01-01"⟩ dot1xContext (.str "auth.802_1x") = .ok .none :=
  ⟨by rfl, by rfl⟩

end OpenRadiusWeb.Policy
