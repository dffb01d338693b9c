import OpenRadiusWeb.Lib.Text

/-! # File paths

`os.path.join` and the file a path names: its components with `.` and `..` resolved.
A path with an ordinary last component names a file with that last component, so
files with different endings never coincide whatever the directories contain.
-/

namespace Paths

/-- The components of a file below the root. -/
abbrev Path : Type := List String

/-- `os.path.join(a, b)`. -/
def join (a b : String) : String :=
  if b.toList.head? = some '/' then b
  else if a = "" ∨ a.toList.getLast? = some '/' then a ++ b
  else a ++ "/" ++ b

def resolveStep (stack : Path) (component : String) : Path :=
  if component = "" ∨ component = "." then stack
  else if component = ".." then stack.dropLast
  else stack ++ [component]

/-- The file that `path` names. -/
def resolve (path : String) : Path := (Text.split '/' path).foldl resolveStep []

/-- A component that names an entry of its directory. -/
def Ordinary (component : String) : Prop :=
  component ≠ "" ∧ component ≠ "." ∧ component ≠ ".."

theorem resolveStep_ordinary {component : String} (h : Ordinary component) (stack : Path) :
    resolveStep stack component = stack ++ [component] := by
  obtain ⟨h1, h2, h3⟩ := h
  simp [resolveStep, h1, h2, h3]

theorem foldl_resolveStep_ordinary {components : List String}
    (h : ∀ c ∈ components, Ordinary c) (stack : Path) :
    components.foldl resolveStep stack = stack ++ components := by
  induction components generalizing stack with
  | nil => simp
  | cons c rest ih =>
    rw [List.foldl_cons, resolveStep_ordinary (h c List.mem_cons_self),
      ih fun c hc => h c (List.mem_cons_of_mem _ hc)]
    simp

/-! ## Splitting joined texts -/

theorem split_append_slash (s t : String) :
    Text.split '/' (s ++ "/" ++ t) = Text.split '/' s ++ Text.split '/' t := by
  have hText : (s ++ "/" ++ t).toList = s.toList ++ '/' :: t.toList := by simp
  rw [Text.split, hText, List.splitOn_append_cons_self, List.map_append]
  rfl

theorem split_of_not_mem {s : String} (h : '/' ∉ s.toList) : Text.split '/' s = [s] := by
  rw [Text.split, List.splitOn_eq_singleton h]
  simp

theorem split_ne_nil (s : String) : Text.split '/' s ≠ [] := by
  simp [Text.split, List.splitOn_ne_nil]

theorem exists_last_component (s : String) :
    '/' ∉ s.toList ∨ ∃ front last, s = front ++ "/" ++ last ∧ '/' ∉ last.toList := by
  by_cases h : '/' ∈ s.toList
  · obtain ⟨as, bs, hEq, hNot⟩ := List.eq_append_cons_of_mem (List.mem_reverse.mpr h)
    refine .inr ⟨String.ofList bs.reverse, String.ofList as.reverse, ?_, by simpa using hNot⟩
    apply String.toList_inj.mp
    have := congrArg List.reverse hEq
    simpa using this
  · exact .inl h

theorem getLast?_split_append {t : String} (ht : '/' ∉ t.toList) (s : String) :
    ∃ u, (Text.split '/' (s ++ t)).getLast? = some (u ++ t) := by
  rcases exists_last_component s with h | ⟨front, last, rfl, h⟩
  · refine ⟨s, ?_⟩
    rw [split_of_not_mem (by simp [h, ht])]
    rfl
  · refine ⟨last, ?_⟩
    have hAppend : front ++ "/" ++ last ++ t = front ++ "/" ++ (last ++ t) := by
      simp [String.append_assoc]
    rw [hAppend, split_append_slash, split_of_not_mem (s := last ++ t) (by simp [h, ht])]
    simp

/-! ## Joined paths -/

theorem split_join {a b : String} :
    join a b = b ∨ ∃ front, Text.split '/' (join a b) = front ++ Text.split '/' b := by
  rw [join]
  split_ifs with hb ha
  · exact .inl rfl
  · rcases ha with rfl | ha
    · exact .inl (by simp)
    · obtain ⟨front, hFront⟩ := List.getLast?_eq_some_iff.mp ha
      have hText : a = String.ofList front ++ "/" := String.toList_inj.mp (by simp [hFront])
      exact .inr ⟨Text.split '/' (String.ofList front), by rw [hText, split_append_slash]⟩
  · exact .inr ⟨Text.split '/' a, split_append_slash a b⟩

theorem getLast?_split_join (a b : String) :
    (Text.split '/' (join a b)).getLast? = (Text.split '/' b).getLast? := by
  rcases split_join (a := a) (b := b) with h | ⟨front, h⟩
  · rw [h]
  · rw [h, List.getLast?_append_of_ne_nil _ (split_ne_nil b)]

theorem resolve_join {a b : String} (hb : b.toList.head? ≠ some '/') :
    resolve (join a b) = (Text.split '/' b).foldl resolveStep (resolve a) := by
  rw [join, if_neg hb, resolve]
  split_ifs with ha
  · rcases ha with rfl | ha
    · simp [resolve, Text.split, resolveStep]
    · obtain ⟨front, hFront⟩ := List.getLast?_eq_some_iff.mp ha
      have hText : a = String.ofList front ++ "/" ++ "" := String.toList_inj.mp (by simp [hFront])
      rw [resolve, hText, split_append_slash, String.append_empty, split_append_slash,
        List.foldl_append, List.foldl_append]
      simp [Text.split, resolveStep]
  · rw [split_append_slash, List.foldl_append]
    rfl

theorem getLast?_resolve {path c : String} (h : (Text.split '/' path).getLast? = some c)
    (hc : Ordinary c) : (resolve path).getLast? = some c := by
  obtain ⟨front, hFront⟩ := List.getLast?_eq_some_iff.mp h
  rw [resolve, hFront, List.foldl_append, List.foldl_cons, List.foldl_nil,
    resolveStep_ordinary hc]
  simp

theorem ordinary_append {ending : String} (h : 2 < ending.toList.length) (u : String) :
    Ordinary (u ++ ending) := by
  have hLong : 2 < (u ++ ending).toList.length := by
    rw [String.toList_append, List.length_append]
    omega
  refine ⟨?_, ?_, ?_⟩ <;> intro hEq <;> rw [hEq] at hLong <;> revert hLong <;> decide

theorem getLast?_resolve_join {ending : String} (hEnding : '/' ∉ ending.toList)
    (hLong : 2 < ending.toList.length) (a name : String) :
    ∃ u, (resolve (join a (name ++ ending))).getLast? = some (u ++ ending) := by
  obtain ⟨u, hu⟩ := getLast?_split_append hEnding name
  refine ⟨u, getLast?_resolve ?_ (ordinary_append hLong u)⟩
  rw [getLast?_split_join, hu]

end Paths
