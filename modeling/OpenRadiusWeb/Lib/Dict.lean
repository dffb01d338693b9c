import Mathlib.Data.List.Basic

/-! # Insertion-ordered dictionaries

A dictionary with string keys is its list of items. Assigning to a key that is
present replaces the value in place, as the dictionaries of the modelled programs do.
-/

/-- A dictionary as its items in insertion order. -/
abbrev Dict (α : Type) : Type := List (String × α)

namespace Dict

variable {α : Type}

/-- `d.get(k)`. -/
def get? : Dict α → String → Option α
  | [], _ => none
  | (k', v) :: rest, k => if k = k' then some v else get? rest k

/-- `d.get(k, default)`. -/
def getD (d : Dict α) (k : String) (default : α) : α := (d.get? k).getD default

/-- `d[k] = v`. -/
def set (d : Dict α) (k : String) (v : α) : Dict α :=
  match d with
  | [] => [(k, v)]
  | (k', v') :: rest => if k = k' then (k', v) :: rest else (k', v') :: Dict.set rest k v

@[simp] theorem get?_nil (k : String) : get? ([] : Dict α) k = none := rfl

theorem get?_cons (k k' : String) (v : α) (d : Dict α) :
    get? ((k', v) :: d) k = if k = k' then some v else get? d k := rfl

@[simp] theorem get?_set_self (d : Dict α) (k : String) (v : α) : (d.set k v).get? k = some v := by
  induction d with
  | nil => simp [Dict.set, get?_cons]
  | cons item rest ih =>
    obtain ⟨k', v'⟩ := item
    by_cases h : k = k'
    · simp [Dict.set, get?_cons, h]
    · simp [Dict.set, get?_cons, h, ih]

theorem get?_set_of_ne (d : Dict α) {k k' : String} (v : α) (h : k' ≠ k) :
    (d.set k v).get? k' = d.get? k' := by
  induction d with
  | nil => simp [Dict.set, get?_cons, h]
  | cons item rest ih =>
    obtain ⟨l, w⟩ := item
    by_cases hl : k = l
    · subst hl
      simp [Dict.set, get?_cons, h]
    · simp [Dict.set, get?_cons, hl, ih]

theorem forall_mem_set {p : α → Prop} {d : Dict α} (hd : ∀ item ∈ d, p item.2) (k : String) {v : α}
    (hv : p v) : ∀ item ∈ d.set k v, p item.2 := by
  induction d with
  | nil => simpa [Dict.set] using hv
  | cons item rest ih =>
    obtain ⟨l, w⟩ := item
    rw [List.forall_mem_cons] at hd
    rw [Dict.set]
    split
    · exact List.forall_mem_cons.mpr ⟨hv, hd.2⟩
    · exact List.forall_mem_cons.mpr ⟨hd.1, ih hd.2⟩

theorem forall_mem_foldl_set {β : Type} {p : α → Prop} {xs : List β} {key : β → String} {value : β → α}
    (hx : ∀ x ∈ xs, p (value x)) {d : Dict α} (hd : ∀ item ∈ d, p item.2) :
    ∀ item ∈ xs.foldl (fun d x => d.set (key x) (value x)) d, p item.2 := by
  induction xs generalizing d with
  | nil => exact hd
  | cons x xs ih =>
    rw [List.forall_mem_cons] at hx
    exact ih hx.2 (forall_mem_set hd (key x) hx.1)

/-! ## Keys -/

def keys (d : Dict α) : List String := d.map Prod.fst

theorem mem_keys_set {d : Dict α} {k k' : String} {v : α} :
    k' ∈ keys (d.set k v) ↔ k' = k ∨ k' ∈ keys d := by
  induction d with
  | nil => simp [Dict.set, keys]
  | cons item rest ih =>
    obtain ⟨l, w⟩ := item
    simp only [keys] at ih
    by_cases h : k = l
    · subst h
      simp [Dict.set, keys]
    · simp only [Dict.set, keys, if_neg h, List.map_cons, List.mem_cons, ih]
      tauto

theorem get?_of_notMem {d : Dict α} {k : String} (h : k ∉ keys d) : d.get? k = none := by
  induction d with
  | nil => rfl
  | cons item rest ih =>
    rw [keys, List.map_cons, List.mem_cons, not_or] at h
    rw [get?_cons, if_neg h.1]
    exact ih h.2

theorem mem_of_get? {d : Dict α} {k : String} {v : α} (h : d.get? k = some v) : (k, v) ∈ d := by
  induction d with
  | nil => cases h
  | cons item rest ih =>
    obtain ⟨k', v'⟩ := item
    rw [get?_cons] at h
    split at h
    · rename_i hKey
      cases h
      exact hKey ▸ List.mem_cons_self
    · exact List.mem_cons_of_mem _ (ih h)

theorem get?_filter {d : Dict α} (h : (keys d).Nodup) (p : String × α → Bool) (k : String) :
    get? (d.filter p) k = (d.get? k).filter fun v => p (k, v) := by
  induction d with
  | nil => rfl
  | cons item rest ih =>
    obtain ⟨l, w⟩ := item
    rw [keys, List.map_cons, List.nodup_cons] at h
    rw [get?_cons, List.filter_cons]
    by_cases hKey : k = l
    · subst hKey
      have hNone : get? (rest.filter p) k = none := by
        rw [ih h.2, get?_of_notMem h.1]
        rfl
      cases hKeep : p (k, w) <;> simp [hKeep, get?_cons, hNone, Option.filter]
    · cases hKeep : p (l, w) <;> simp [get?_cons, hKey, ih h.2]

theorem set_of_notMem {d : Dict α} {k : String} (h : k ∉ keys d) (v : α) :
    d.set k v = d ++ [(k, v)] := by
  induction d with
  | nil => rfl
  | cons item rest ih =>
    obtain ⟨l, w⟩ := item
    rw [keys, List.map_cons, List.mem_cons, not_or] at h
    rw [Dict.set, if_neg h.1, ih h.2]
    rfl

theorem foldl_set_of_nodup {β : Type} {xs : List β} {key : β → String} {value : β → α} {d : Dict α}
    (h : (keys d ++ xs.map key).Nodup) :
    xs.foldl (fun d x => d.set (key x) (value x)) d = d ++ xs.map fun x => (key x, value x) := by
  induction xs generalizing d with
  | nil => simp
  | cons x xs ih =>
    have hNew : key x ∉ keys d := by
      rw [List.nodup_append] at h
      exact fun hMem => h.2.2 _ hMem _ List.mem_cons_self rfl
    rw [List.foldl_cons, set_of_notMem hNew, ih, List.map_cons, List.append_assoc]
    · rfl
    · simpa [keys] using h

theorem nodup_keys_set {d : Dict α} (hd : (keys d).Nodup) (k : String) (v : α) :
    (keys (d.set k v)).Nodup := by
  induction d with
  | nil => simp [Dict.set, keys]
  | cons item rest ih =>
    obtain ⟨l, w⟩ := item
    have hRest : (keys rest).Nodup := (List.nodup_cons.mp hd).2
    have hHead : l ∉ keys rest := (List.nodup_cons.mp hd).1
    by_cases h : k = l
    · simpa [Dict.set, h, keys] using hd
    · have hMem : l ∉ keys (Dict.set rest k v) := by
        rw [mem_keys_set]
        rintro (rfl | hl)
        · exact h rfl
        · exact hHead hl
      simpa [Dict.set, h, keys] using And.intro hMem (ih hRest)

theorem mem_set {d : Dict α} {k : String} {v : α} {item : String × α} (h : item ∈ d.set k v) :
    item = (k, v) ∨ item ∈ d := by
  induction d with
  | nil => exact .inl (List.mem_singleton.mp h)
  | cons head rest ih =>
    rw [Dict.set] at h
    split at h
    · rename_i hKey
      rw [hKey]
      exact (List.mem_cons.mp h).imp_right (List.mem_cons_of_mem _)
    · obtain rfl | hRest := List.mem_cons.mp h
      · exact .inr List.mem_cons_self
      · exact (ih hRest).imp_right (List.mem_cons_of_mem _)

theorem mem_foldl_set {β : Type} {xs : List β} {key : β → String} {value : β → α} {d : Dict α}
    {item : String × α} (h : item ∈ xs.foldl (fun d x => d.set (key x) (value x)) d) :
    item ∈ d ∨ ∃ x ∈ xs, item = (key x, value x) := by
  induction xs generalizing d with
  | nil => exact .inl h
  | cons x xs ih =>
    obtain hMem | ⟨y, hy, hItem⟩ := ih h
    · exact (mem_set hMem).symm.imp_right fun hItem => ⟨x, List.mem_cons_self, hItem⟩
    · exact .inr ⟨y, List.mem_cons_of_mem _ hy, hItem⟩

theorem get?_foldl_set_ne_none {β : Type} {xs : List β} {key : β → String} {value : β → α} {d : Dict α}
    {k : String} (h : d.get? k ≠ none ∨ ∃ x ∈ xs, key x = k) :
    (xs.foldl (fun d x => d.set (key x) (value x)) d).get? k ≠ none := by
  induction xs generalizing d with
  | nil => exact h.resolve_right fun ⟨x, hx, _⟩ => nomatch hx
  | cons x xs ih =>
    apply ih
    by_cases hKey : k = key x
    · left
      rw [hKey, get?_set_self]
      exact Option.some_ne_none _
    · rw [get?_set_of_ne d _ hKey]
      refine h.imp_right fun ⟨y, hy, hEq⟩ => ⟨y, ?_, hEq⟩
      exact (List.mem_cons.mp hy).resolve_left fun hSame => hKey (hSame ▸ hEq.symm)

/-! ## Values -/

def mapValues {β : Type} (f : α → β) (d : Dict α) : Dict β := d.map (Prod.map id f)

theorem get?_mapValues {β : Type} (f : α → β) (d : Dict α) (k : String) :
    (d.mapValues f).get? k = (d.get? k).map f := by
  induction d with
  | nil => rfl
  | cons item rest ih =>
    change get? ((item.1, f item.2) :: mapValues f rest) k = _
    rw [get?_cons, get?_cons, ih]
    split <;> rfl

theorem mapValues_set {β : Type} (f : α → β) (d : Dict α) (k : String) (v : α) :
    (d.set k v).mapValues f = (d.mapValues f).set k (f v) := by
  induction d with
  | nil => rfl
  | cons item rest ih =>
    change _ = Dict.set ((item.1, f item.2) :: mapValues f rest) k (f v)
    rw [Dict.set, Dict.set]
    split
    · rfl
    · exact congrArg (_ :: ·) ih

theorem mapValues_foldl_set {β γ : Type} (f : α → γ) (xs : List β) (key : β → String)
    (value : β → α) (d : Dict α) :
    (xs.foldl (fun d x => d.set (key x) (value x)) d).mapValues f =
      xs.foldl (fun d x => d.set (key x) (f (value x))) (d.mapValues f) := by
  induction xs generalizing d with
  | nil => rfl
  | cons x xs ih => rw [List.foldl_cons, List.foldl_cons, ih, mapValues_set]

end Dict
