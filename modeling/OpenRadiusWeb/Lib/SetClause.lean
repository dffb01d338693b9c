import OpenRadiusWeb.Lib.Text

/-! # The SET clause of an UPDATE

A clause is read as assignments of bound parameters, with or without a cast. Which names and
types may stand in it as they are is for the database and its driver to say; from what they
promise about them a clause has one reading.
-/

namespace SetClause

/-- `column = :param`, or `column = CAST(:param AS cast)`. -/
structure Assignment where
  column : String
  param : String
  cast : Option String
  deriving DecidableEq

def Assignment.text (a : Assignment) : String :=
  match a.cast with
  | none => a.column ++ " = :" ++ a.param
  | some type => a.column ++ " = CAST(:" ++ a.param ++ " AS " ++ type ++ ")"

def clauseText (as : List Assignment) : String := ", ".intercalate (as.map Assignment.text)

/-- The names and types that a database and its driver take unquoted. -/
structure Dialect where
  isColumn : String → Bool
  isParam : String → Bool
  isType : String → Bool
  column_plain : ∀ name, isColumn name = true → ' ' ∉ name.toList
  param_plain : ∀ name, isParam name = true → ' ' ∉ name.toList ∧ ',' ∉ name.toList
  type_ends : ∀ s t u v, isType s = true → isType t = true →
    s.toList ++ ')' :: u = t.toList ++ ')' :: v → s = t

namespace Dialect

variable (dialect : Dialect)

structure WellFormed (a : Assignment) : Prop where
  column : dialect.isColumn a.column = true
  param : dialect.isParam a.param = true
  cast : ∀ type, a.cast = some type → dialect.isType type = true

/-- The clause is the text of these assignments. -/
structure Reads (clause : String) (as : List Assignment) : Prop where
  some : as ≠ []
  wellFormed : ∀ a ∈ as, dialect.WellFormed a
  text : clause = clauseText as

/-- The database takes the clause: no column is assigned twice and every parameter is bound. -/
def Accepts (clause : String) (bound : List String) : Prop :=
  ∃ as, dialect.Reads clause as ∧ (as.map Assignment.column).Nodup ∧ ∀ a ∈ as, a.param ∈ bound

end Dialect

/-! ## A clause has one reading -/

/-- What may follow an assignment. -/
def Follows (rest : List Char) : Prop := rest = [] ∨ ∃ more, rest = ',' :: more

theorem append_inj_of_follows {xs ys u v : List Char} (hx : ',' ∉ xs) (hy : ',' ∉ ys) (hu : Follows u)
    (hv : Follows v) (h : xs ++ u = ys ++ v) : xs = ys ∧ u = v := by
  rcases hu with rfl | ⟨u, rfl⟩
  · rcases hv with rfl | ⟨v, rfl⟩
    · simpa using h
    · exact (hx (by simpa using congrArg (',' ∈ ·) h)).elim
  · rcases hv with rfl | ⟨v, rfl⟩
    · exact (hy (by simpa using congrArg (',' ∈ ·) h.symm)).elim
    · obtain ⟨rfl, rfl⟩ := Text.append_cons_inj_of_not_mem hx hy h
      exact ⟨rfl, rfl⟩

section Reading

variable {dialect : Dialect} {a b : Assignment}

/-- What stands after the column and its blank. -/
def valueText (param : String) : Option String → List Char
  | none => '=' :: ' ' :: ':' :: param.toList
  | some type => '=' :: ' ' :: 'C' :: ("AST(:".toList ++ param.toList ++ ' ' :: ("AS ".toList ++
      type.toList ++ [')']))

theorem toList_text (a : Assignment) : a.text.toList = a.column.toList ++ ' ' :: valueText a.param a.cast := by
  rw [Assignment.text]
  cases a.cast <;> simp [valueText]

theorem valueText_inj {u v : List Char} (ha : dialect.WellFormed a) (hb : dialect.WellFormed b)
    (hu : Follows u) (hv : Follows v)
    (h : valueText a.param a.cast ++ u = valueText b.param b.cast ++ v) :
    a.param = b.param ∧ a.cast = b.cast ∧ u = v := by
  have hParamA := dialect.param_plain _ ha.param
  have hParamB := dialect.param_plain _ hb.param
  cases hCastA : a.cast with
  | none =>
    cases hCastB : b.cast with
    | none =>
      rw [hCastA, hCastB, valueText, valueText] at h
      simp only [List.cons_append, List.cons.injEq, true_and] at h
      obtain ⟨hParam, hRest⟩ := append_inj_of_follows hParamA.2 hParamB.2 hu hv h
      exact ⟨String.toList_inj.mp hParam, rfl, hRest⟩
    | some type =>
      rw [hCastA, hCastB, valueText, valueText] at h
      simp at h
  | some type =>
    cases hCastB : b.cast with
    | none =>
      rw [hCastA, hCastB, valueText, valueText] at h
      simp at h
    | some type' =>
      rw [hCastA, hCastB, valueText, valueText] at h
      simp only [List.cons_append, List.append_assoc, List.cons.injEq, true_and,
        List.append_cancel_left_eq] at h
      obtain ⟨hParam, hRest⟩ := Text.append_cons_inj_of_not_mem hParamA.1 hParamB.1 h
      rw [List.append_cancel_left_eq, List.nil_append, List.nil_append] at hRest
      obtain rfl := dialect.type_ends _ _ _ _ (ha.cast _ hCastA) (hb.cast _ hCastB) hRest
      rw [List.append_cancel_left_eq, List.cons.injEq] at hRest
      exact ⟨String.toList_inj.mp hParam, rfl, hRest.2⟩

theorem text_inj {u v : List Char} (ha : dialect.WellFormed a) (hb : dialect.WellFormed b)
    (hu : Follows u) (hv : Follows v) (h : a.text.toList ++ u = b.text.toList ++ v) : a = b ∧ u = v := by
  rw [toList_text, toList_text, List.append_assoc, List.append_assoc, List.cons_append,
    List.cons_append] at h
  obtain ⟨hColumn, hValue⟩ := Text.append_cons_inj_of_not_mem (dialect.column_plain _ ha.column)
    (dialect.column_plain _ hb.column) h
  obtain ⟨hParam, hCast, hRest⟩ := valueText_inj ha hb hu hv hValue
  refine ⟨?_, hRest⟩
  cases a
  cases b
  cases String.toList_inj.mp hColumn
  cases hParam
  cases hCast
  rfl

/-- The text of the assignments after the first. -/
def restText (as : List Assignment) : List Char :=
  match as with
  | [] => []
  | _ :: _ => ',' :: ' ' :: (clauseText as).toList

theorem follows_restText (as : List Assignment) : Follows (restText as) := by
  cases as with
  | nil => exact .inl rfl
  | cons a as => exact .inr ⟨_, rfl⟩

theorem toList_clauseText (a : Assignment) (as : List Assignment) :
    (clauseText (a :: as)).toList = a.text.toList ++ restText as := by
  cases as with
  | nil => simp [clauseText, restText]
  | cons b as => simp [clauseText, restText, String.intercalate_cons_cons]

theorem clauseText_inj {as bs : List Assignment} (ha : ∀ a ∈ as, dialect.WellFormed a)
    (hb : ∀ b ∈ bs, dialect.WellFormed b) (h : restText as = restText bs) : as = bs := by
  induction as generalizing bs with
  | nil =>
    cases bs with
    | nil => rfl
    | cons b bs => cases h
  | cons a as ih =>
    cases bs with
    | nil => cases h
    | cons b bs =>
      rw [List.forall_mem_cons] at ha hb
      rw [restText, restText, List.cons.injEq, List.cons.injEq, toList_clauseText, toList_clauseText] at h
      obtain ⟨rfl, hRest⟩ := text_inj ha.1 hb.1 (follows_restText as) (follows_restText bs) h.2.2
      rw [ih ha.2 hb.2 hRest]

theorem Dialect.Reads.unique {clause : String} {as bs : List Assignment} (ha : dialect.Reads clause as)
    (hb : dialect.Reads clause bs) : as = bs := by
  refine clauseText_inj ha.wellFormed hb.wellFormed ?_
  obtain ⟨a, as, rfl⟩ := List.exists_cons_of_ne_nil ha.some
  obtain ⟨b, bs, rfl⟩ := List.exists_cons_of_ne_nil hb.some
  rw [restText, restText, ← ha.text, ← hb.text]

end Reading

/-! ## Lower-case names -/

def isWord (name : String) : Bool :=
  name ≠ "" && name.toList.all fun c => c.isLower || c.isDigit || c == '_'

theorem not_mem_of_isWord {name : String} (h : isWord name = true) {c : Char}
    (hc : (c.isLower || c.isDigit || c == '_') = false) : c ∉ name.toList := by
  intro hMem
  rw [isWord, Bool.and_eq_true, List.all_eq_true] at h
  exact absurd (h.2 c hMem) (by rw [hc]; exact Bool.false_ne_true)

/-- Lower-case names and types of such words. -/
def lowerCase : Dialect where
  isColumn := isWord
  isParam := isWord
  isType := isWord
  column_plain _ h := not_mem_of_isWord h (by decide)
  param_plain _ h := ⟨not_mem_of_isWord h (by decide), not_mem_of_isWord h (by decide)⟩
  type_ends _ _ _ _ hs ht h := String.toList_inj.mp
    (Text.append_cons_inj_of_not_mem (not_mem_of_isWord hs (by decide)) (not_mem_of_isWord ht (by decide)) h).1

end SetClause
