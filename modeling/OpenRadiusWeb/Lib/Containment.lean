import OpenRadiusWeb.Lib.Paths

/-! # Names that stay in their directory

A name that is joined to a directory is walked component by component: `..` climbs, and what
it has climbed above the directory has to be spelled again for the file to lie inside. Two
names that stay have one file exactly when they lead to the same folder and end alike.
-/

namespace Paths

/-- `path` lies below `dir`. -/
def Inside (dir path : Path) : Prop := ∃ name rest, path = dir ++ name :: rest

/-- The levels climbed above the starting point, and the way down from there. -/
structure Walk where
  up : Nat
  down : Path

namespace Walk

def step (w : Walk) (component : String) : Walk :=
  if component = "" ∨ component = "." then w
  else if component = ".." then
    if w.down = [] then ⟨w.up + 1, []⟩ else ⟨w.up, w.down.dropLast⟩
  else ⟨w.up, w.down ++ [component]⟩

/-- Where the walk leads from `start`; nothing lies above the root. -/
def arrive (w : Walk) (start : Path) : Path := start.take (start.length - w.up) ++ w.down

theorem arrive_step (w : Walk) (component : String) (start : Path) :
    (w.step component).arrive start = resolveStep (w.arrive start) component := by
  rw [step, resolveStep]
  split_ifs with hSkip hUp hTop
  · rfl
  · have hLevel : start.length - (w.up + 1) = min (start.length - w.up) start.length - 1 := by omega
    rw [arrive, arrive, hTop, List.append_nil, List.append_nil, List.dropLast_eq_take, List.take_take,
      List.length_take, hLevel]
    congr 1
    omega
  · rw [arrive, arrive, List.dropLast_append_of_ne_nil hTop]
  · rw [arrive, arrive, List.append_assoc]

end Walk

def walk (components : List String) : Walk := components.foldl Walk.step ⟨0, []⟩

theorem foldl_resolveStep (components : List String) (start : Path) :
    components.foldl resolveStep start = (walk components).arrive start := by
  have hRun : ∀ (cs : List String) (w : Walk),
      cs.foldl resolveStep (w.arrive start) = (cs.foldl Walk.step w).arrive start := by
    intro cs
    induction cs with
    | nil => exact fun _ => rfl
    | cons c cs ih =>
      intro w
      rw [List.foldl_cons, List.foldl_cons, ← ih, Walk.arrive_step]
  rw [walk, ← hRun]
  simp [Walk.arrive]

theorem walk_up_of_not_climbing {components : List String} (h : ".." ∉ components) :
    (walk components).up = 0 := by
  have hRun : ∀ (cs : List String) (w : Walk), ".." ∉ cs → (cs.foldl Walk.step w).up = w.up := by
    intro cs
    induction cs with
    | nil => exact fun _ _ => rfl
    | cons c cs ih =>
      intro w hNot
      rw [List.mem_cons, not_or] at hNot
      rw [List.foldl_cons, ih _ hNot.2, Walk.step, if_neg (Ne.symm hNot.1)]
      split_ifs <;> rfl
  exact hRun components _ h

/-! ## The folder and the last part of a name -/

def folder (name : String) : List String := (Text.split '/' name).dropLast

def leaf (name : String) : String := ((Text.split '/' name).getLast?).getD ""

def Absolute (name : String) : Prop := name.toList.head? = some '/'

instance (name : String) : Decidable (Absolute name) :=
  inferInstanceAs (Decidable (_ = _))

theorem split_append {ending : String} (h : '/' ∉ ending.toList) (name : String) :
    Text.split '/' (name ++ ending) = folder name ++ [leaf name ++ ending] := by
  rw [folder, leaf]
  rcases exists_last_component name with hName | ⟨front, last, rfl, hLast⟩
  · rw [split_of_not_mem hName, split_of_not_mem (by simp [hName, h])]
    rfl
  · have hAppend : front ++ "/" ++ last ++ ending = front ++ "/" ++ (last ++ ending) := by
      simp [String.append_assoc]
    rw [hAppend, split_append_slash, split_append_slash, split_of_not_mem hLast,
      split_of_not_mem (s := last ++ ending) (by simp [hLast, h])]
    simp

private theorem mem_intercalate {α : Type} {sep part : List α} {parts : List (List α)} (h : part ∈ parts)
    {a : α} (ha : a ∈ part) : a ∈ sep.intercalate parts := by
  induction parts with
  | nil => cases h
  | cons first rest ih =>
    cases rest with
    | nil =>
      obtain rfl := List.mem_singleton.mp h
      rwa [List.intercalate_singleton]
    | cons second rest =>
      rw [List.intercalate_cons_cons, List.mem_append]
      rcases List.mem_cons.mp h with rfl | h
      · exact .inl (List.mem_append_left _ ha)
      · exact .inr (ih h)

theorem mem_of_mem_folder {name part : String} {c : Char} (h : part ∈ folder name) (hc : c ∈ part.toList) :
    c ∈ name.toList := by
  obtain ⟨chars, hChars, rfl⟩ := List.mem_map.mp (List.mem_of_mem_dropLast h)
  rw [String.toList_ofList] at hc
  have hMem : c ∈ ['/'].intercalate (name.toList.splitOn '/') := mem_intercalate hChars hc
  rwa [List.intercalate_splitOn] at hMem

theorem folder_of_not_mem {name : String} (h : '/' ∉ name.toList) : folder name = [] := by
  rw [folder, split_of_not_mem h]
  rfl

theorem leaf_of_not_mem {name : String} (h : '/' ∉ name.toList) : leaf name = name := by
  rw [leaf, split_of_not_mem h]
  rfl

theorem absolute_append {ending : String} (h : '/' ∉ ending.toList) (name : String) :
    Absolute (name ++ ending) ↔ Absolute name := by
  rw [Absolute, Absolute, String.toList_append]
  cases name.toList with
  | nil => exact ⟨fun hHead => (h (List.mem_of_head? hHead)).elim, fun hHead => by cases hHead⟩
  | cons c cs => exact Iff.rfl

/-- What an ending must be for the file of a name to end like it. -/
structure Ending (ending : String) : Prop where
  noSlash : '/' ∉ ending.toList
  long : 2 < ending.toList.length

theorem resolve_join_name {ending : String} (h : Ending ending) (dir name : String) :
    resolve (join dir (name ++ ending)) =
      (walk (folder name)).arrive (if Absolute name then [] else resolve dir) ++ [leaf name ++ ending] := by
  have hFrom : resolve (join dir (name ++ ending)) = (Text.split '/' (name ++ ending)).foldl resolveStep
      (if Absolute name then [] else resolve dir) := by
    by_cases hAbsolute : Absolute name
    · have hHead : (name ++ ending).toList.head? = some '/' := (absolute_append h.noSlash name).mpr hAbsolute
      rw [if_pos hAbsolute, join, if_pos hHead, resolve]
    · rw [if_neg hAbsolute, resolve_join fun hHead => hAbsolute ((absolute_append h.noSlash name).mp hHead)]
  rw [hFrom, split_append h.noSlash, List.foldl_append, List.foldl_cons, List.foldl_nil,
    resolveStep_ordinary (ordinary_append h.long _), foldl_resolveStep]

/-! ## Names that stay -/

/-- What a name leaves of the directory: all of it when it is absolute, otherwise the levels
it climbs. -/
def left (dir : Path) (name : String) : Path :=
  if Absolute name then dir else dir.drop (dir.length - (walk (folder name)).up)

/-- The name spells again what it has left of the directory. -/
def Stays (dir : Path) (name : String) : Prop := left dir name <+: (walk (folder name)).down

instance (dir : Path) (name : String) : Decidable (Stays dir name) :=
  inferInstanceAs (Decidable (_ <+: _))

/-- The folder below the directory that the name leads to. -/
def below (dir : Path) (name : String) : Path := (walk (folder name)).down.drop (left dir name).length

theorem inside_concat {dir front : Path} {last : String} : Inside dir (front ++ [last]) ↔ dir <+: front := by
  constructor
  · rintro ⟨name, rest, hPath⟩
    refine ⟨(name :: rest).dropLast, ?_⟩
    have hFront := congrArg List.dropLast hPath
    rw [List.dropLast_concat, List.dropLast_append_of_ne_nil (List.cons_ne_nil _ _)] at hFront
    exact hFront.symm
  · rintro ⟨rest, rfl⟩
    cases rest with
    | nil => exact ⟨last, [], by simp⟩
    | cons name rest => exact ⟨name, rest ++ [last], by simp⟩

theorem prefix_arrive (dir : Path) (name : String) :
    dir <+: (walk (folder name)).arrive (if Absolute name then [] else dir) ↔ Stays dir name := by
  rw [Stays, left, Walk.arrive]
  split_ifs with hAbsolute
  · simp
  · have hDir := List.take_append_drop (dir.length - (walk (folder name)).up) dir
    generalize hTake : dir.take (dir.length - (walk (folder name)).up) = kept at hDir ⊢
    generalize hDrop : dir.drop (dir.length - (walk (folder name)).up) = lost at hDir ⊢
    rw [← hDir, List.prefix_append_right_inj]

variable {dir name ending : String}

theorem inside_iff_stays (h : Ending ending) (dir name : String) :
    Inside (resolve dir) (resolve (join dir (name ++ ending))) ↔ Stays (resolve dir) name := by
  rw [resolve_join_name h, inside_concat, prefix_arrive]

theorem arrive_of_stays {dir : Path} {name : String} (h : Stays dir name) :
    (walk (folder name)).arrive (if Absolute name then [] else dir) = dir ++ below dir name := by
  obtain ⟨rest, hRest⟩ := (prefix_arrive dir name).mpr h
  obtain ⟨more, hMore⟩ := id h
  rw [← hRest, List.append_cancel_left_eq, below, ← hMore, List.drop_left]
  rw [Walk.arrive, ← hMore, left] at hRest
  split_ifs at hRest with hAbsolute
  · simpa using hRest
  · rw [← List.append_assoc, List.take_append_drop, List.append_cancel_left_eq] at hRest
    exact hRest

theorem resolve_of_stays (h : Ending ending) (hStays : Stays (resolve dir) name) :
    resolve (join dir (name ++ ending)) =
      resolve dir ++ below (resolve dir) name ++ [leaf name ++ ending] := by
  rw [resolve_join_name h, arrive_of_stays hStays]

theorem same_file_iff {name' ending' : String} (h : Ending ending) (h' : Ending ending')
    (hStays : Stays (resolve dir) name) (hStays' : Stays (resolve dir) name') :
    resolve (join dir (name ++ ending)) = resolve (join dir (name' ++ ending')) ↔
      below (resolve dir) name = below (resolve dir) name' ∧ leaf name ++ ending = leaf name' ++ ending' := by
  rw [resolve_of_stays h hStays, resolve_of_stays h' hStays', List.append_assoc, List.append_assoc,
    List.append_cancel_left_eq, ← List.concat_eq_append, ← List.concat_eq_append, List.concat_inj]

theorem stays_of_relative {dir : Path} {name : String} (h : ¬ Absolute name) (hClimb : ".." ∉ folder name) :
    Stays dir name := by
  rw [Stays, left, if_neg h, walk_up_of_not_climbing hClimb]
  simp

theorem stays_of_no_dot {dir : Path} {name : String} (h : ¬ Absolute name) (hDot : '.' ∉ name.toList) :
    Stays dir name :=
  stays_of_relative h fun hClimb => hDot (mem_of_mem_folder hClimb (by decide))

end Paths
