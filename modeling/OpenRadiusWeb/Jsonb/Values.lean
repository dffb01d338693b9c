import OpenRadiusWeb.Jsonb.Repr

/-! # Which values are read back

The text of a value is read back as the value if each text in it can be read back and it has no
value whose text JSON does not have: `None`, `True`, `False`, `inf`.
-/

namespace OpenRadiusWeb.Jsonb

open OpenRadiusWeb.Policy

section Values

variable (I : Interpreter)

mutual

/-- Values that `json.loads` gives. -/
def Jsonable : PyVal → Prop
  | .float (.finite q) => I.IsFloat q
  | .list xs => JsonableElements xs
  | .dict items => (items.map Prod.fst).Nodup ∧ JsonableItems items
  | .obj _ _ => False
  | _ => True

def JsonableElements : List PyVal → Prop
  | [] => True
  | x :: xs => Jsonable x ∧ JsonableElements xs

def JsonableItems : List (String × PyVal) → Prop
  | [] => True
  | (_, v) :: items => Jsonable v ∧ JsonableItems items

end

mutual

/-- The JSON value stands for the value; of the members of one key the last one counts. -/
def Denotes : PyVal → Json → Prop
  | .none, j => j = .null
  | .bool b, j => j = .bool b
  | .int n, j => j = .int n
  | .float x, j => ∃ ds, j = .decimal ds ∧ I.float ds = some x
  | .str s, j => j = .str s.toList
  | .list xs, j => ∃ js, j = .arr js ∧ DenotesElements xs js
  | .dict items, j => ∃ ms, j = .obj ms ∧ (∀ m ∈ ms, ∃ item ∈ items, m.1 = item.1.toList) ∧
      DenotesItems items ms
  | .obj _ _, _ => False

def DenotesElements : List PyVal → List Json → Prop
  | [], js => js = []
  | x :: xs, js => ∃ j js', js = j :: js' ∧ Denotes x j ∧ DenotesElements xs js'

def DenotesItems : List (String × PyVal) → List (List Char × Json) → Prop
  | [], _ => True
  | (k, v) :: items, ms => (∃ j, Json.lookup ms k.toList = some j ∧ Denotes v j) ∧ DenotesItems items ms

end

/-- The text is JSON, and what it says is the value. -/
def ReadsBack (text : List Char) (v : PyVal) : Prop :=
  (∃ j, Json.IsText text j) ∧ ∀ j, Json.IsText text j → Denotes I v j

end Values

mutual

/-- The texts in a value satisfy `T`, and its other values without parts satisfy `A`. -/
def Each (T : List Char → Prop) (A : PyVal → Prop) : PyVal → Prop
  | .none => A .none
  | .bool b => A (.bool b)
  | .int n => A (.int n)
  | .float x => A (.float x)
  | .str s => T s.toList
  | .list xs => EachElement T A xs
  | .dict items => EachItem T A items
  | .obj cls text => A (.obj cls text)

def EachElement (T : List Char → Prop) (A : PyVal → Prop) : List PyVal → Prop
  | [] => True
  | x :: xs => Each T A x ∧ EachElement T A xs

def EachItem (T : List Char → Prop) (A : PyVal → Prop) : List (String × PyVal) → Prop
  | [] => True
  | (k, v) :: items => T k.toList ∧ Each T A v ∧ EachItem T A items

end

/-- The texts in a value satisfy `T`. -/
abbrev Texts (T : List Char → Prop) : PyVal → Prop := Each T fun _ => True

mutual

theorem each_of_forall {T : List Char → Prop} {A : PyVal → Prop} (hT : ∀ s, T s) (hA : ∀ v, A v)
    (v : PyVal) : Each T A v := by
  match v with
  | .none | .bool _ | .int _ | .float _ | .obj _ _ => exact hA _
  | .str s => exact hT s.toList
  | .list xs => exact eachElement_of_forall hT hA xs
  | .dict items => exact eachItem_of_forall hT hA items

theorem eachElement_of_forall {T : List Char → Prop} {A : PyVal → Prop} (hT : ∀ s, T s)
    (hA : ∀ v, A v) (xs : List PyVal) : EachElement T A xs := by
  match xs with
  | [] => trivial
  | x :: xs => exact ⟨each_of_forall hT hA x, eachElement_of_forall hT hA xs⟩

theorem eachItem_of_forall {T : List Char → Prop} {A : PyVal → Prop} (hT : ∀ s, T s)
    (hA : ∀ v, A v) (items : List (String × PyVal)) : EachItem T A items := by
  match items with
  | [] => trivial
  | (k, v) :: items => exact ⟨hT k.toList, each_of_forall hT hA v, eachItem_of_forall hT hA items⟩

end

mutual

theorem texts_and {T T' U : List Char → Prop} (hU : ∀ s, T s → T' s → U s) (v : PyVal)
    (h : Texts T v) (h' : Texts T' v) : Texts U v := by
  match v with
  | .none | .bool _ | .int _ | .float _ | .obj _ _ => trivial
  | .str s => exact hU s.toList h h'
  | .list xs => exact textsElement_and hU xs h h'
  | .dict items => exact textsItem_and hU items h h'

theorem textsElement_and {T T' U : List Char → Prop} (hU : ∀ s, T s → T' s → U s) (xs : List PyVal)
    (h : EachElement T (fun _ => True) xs) (h' : EachElement T' (fun _ => True) xs) :
    EachElement U (fun _ => True) xs := by
  match xs with
  | [] => trivial
  | x :: xs => exact ⟨texts_and hU x h.1 h'.1, textsElement_and hU xs h.2 h'.2⟩

theorem textsItem_and {T T' U : List Char → Prop} (hU : ∀ s, T s → T' s → U s)
    (items : List (String × PyVal)) (h : EachItem T (fun _ => True) items)
    (h' : EachItem T' (fun _ => True) items) : EachItem U (fun _ => True) items := by
  match items with
  | [] => trivial
  | (k, v) :: items =>
    exact ⟨hU k.toList h.1 h'.1, texts_and hU v h.2.1 h'.2.1, textsItem_and hU items h.2.2 h'.2.2⟩

end

theorem texts_imp {T U : List Char → Prop} (hU : ∀ s, T s → U s) (v : PyVal) (h : Texts T v) : Texts U v :=
  texts_and (fun s hs _ => hU s hs) v h h

/-- Numbers have the texts that JSON has for them. -/
def IsNumber : PyVal → Prop
  | .int _ => True
  | .float (.finite _) => True
  | _ => False

/-! ## The first character of a text -/

section Reads

variable {I : Interpreter} {text : List Char → List Char} {S G : List Char → Prop}

theorem not_numeric_of_blank {c : Char} (h : Json.isBlank c = true) : Json.isNumeric c = false := by
  simp only [Json.isBlank, List.mem_cons, List.not_mem_nil, or_false, decide_eq_true_eq] at h
  obtain rfl | rfl | rfl | rfl := h <;> decide

/-- A value begins neither with a blank nor with a closing bracket. -/
def Opens (t : List Char) : Prop := ∃ c ds, t = c :: ds ∧ Json.isBlank c = false ∧ c ≠ ']' ∧ c ≠ '}'

theorem Opens.skip {t : List Char} (h : Opens t) (r : List Char) : Json.skip (t ++ r) = t ++ r := by
  obtain ⟨c, ds, rfl, hc, -⟩ := h
  exact Json.skip_of_not_blank hc _

theorem opens_of_numeric {t : List Char} (hSome : t ≠ []) (h : ∀ c ∈ t, Json.isNumeric c = true) :
    Opens t := by
  obtain ⟨c, ds, rfl⟩ := List.exists_cons_of_ne_nil hSome
  have hc := h c List.mem_cons_self
  refine ⟨c, ds, rfl, ?_, ?_, ?_⟩
  · rw [← Bool.not_eq_true]
    intro hBlank
    rw [not_numeric_of_blank hBlank] at hc
    cases hc
  · rintro rfl
    exact absurd hc (by decide)
  · rintro rfl
    exact absurd hc (by decide)

theorem Quoting.opens (hText : Quoting text S G) (s : List Char) : Opens (text s) := by
  obtain ⟨ds, h⟩ | ⟨ds, h⟩ := hText.quote s
  · exact ⟨'"', ds, h, by decide, by decide, by decide⟩
  · exact ⟨'\'', ds, h, by decide, by decide, by decide⟩

theorem intText_ne_nil {ds : List Char} {n : Int} (h : Json.IntText ds n) : ds ≠ [] := by
  obtain ⟨c, hc, -⟩ := h.digit
  exact List.ne_nil_of_mem hc

theorem decimalText_ne_nil {ds : List Char} (h : Json.DecimalText ds) : ds ≠ [] := by
  obtain ⟨c, hc, -⟩ := h.digit
  exact List.ne_nil_of_mem hc

theorem render_opens (hText : Quoting text S G) {v : PyVal} (hv : Jsonable I v) :
    Opens (render text I.reprFloat v) := by
  cases v with
  | none => exact ⟨'N', _, rfl, by decide, by decide, by decide⟩
  | bool b =>
    cases b with
    | true => exact ⟨'T', _, rfl, by decide, by decide, by decide⟩
    | false => exact ⟨'F', _, rfl, by decide, by decide, by decide⟩
  | int n => exact opens_of_numeric (intText_ne_nil (.inl rfl)) (Json.IntText.numeric (.inl rfl))
  | float x =>
    cases x with
    | nan => exact ⟨'n', _, rfl, by decide, by decide, by decide⟩
    | posInf => exact ⟨'i', _, rfl, by decide, by decide, by decide⟩
    | negInf => exact ⟨'-', _, rfl, by decide, by decide, by decide⟩
    | finite q =>
      have hDecimal := I.reprFloat_decimal q hv
      exact opens_of_numeric (decimalText_ne_nil hDecimal) hDecimal.numeric
  | str s => exact hText.opens s.toList
  | list xs =>
    cases xs with
    | nil => exact ⟨'[', _, rfl, by decide, by decide, by decide⟩
    | cons x xs => exact ⟨'[', _, rfl, by decide, by decide, by decide⟩
  | dict items =>
    cases items with
    | nil => exact ⟨'{', _, rfl, by decide, by decide, by decide⟩
    | cons item items => exact ⟨'{', _, rfl, by decide, by decide, by decide⟩
  | obj cls text => exact hv.elim

/-! ## What is read of a value -/

theorem render_list (x : PyVal) (xs : List PyVal) (t : List Char) :
    render text I.reprFloat (.list (x :: xs)) ++ t =
      '[' :: (render text I.reprFloat x ++ (renderTail text I.reprFloat xs ++ ']' :: t)) := by
  simp [render]

theorem render_dict (k : String) (v : PyVal) (items : List (String × PyVal)) (t : List Char) :
    render text I.reprFloat (.dict ((k, v) :: items)) ++ t =
      '{' :: (text k.toList ++ (':' :: ' ' :: (render text I.reprFloat v ++
        (renderItems text I.reprFloat items ++ '}' :: t)))) := by
  simp [render]

theorem renderTail_cons (x : PyVal) (xs : List PyVal) (t : List Char) :
    renderTail text I.reprFloat (x :: xs) ++ t =
      ',' :: ' ' :: (render text I.reprFloat x ++ (renderTail text I.reprFloat xs ++ t)) := by
  simp [renderTail]

theorem renderItems_cons (k : String) (v : PyVal) (items : List (String × PyVal)) (t : List Char) :
    renderItems text I.reprFloat ((k, v) :: items) ++ t =
      ',' :: ' ' :: (text k.toList ++ (':' :: ' ' :: (render text I.reprFloat v ++
        (renderItems text I.reprFloat items ++ t)))) := by
  simp [renderItems]

theorem tail_head (xs : List PyVal) (t : List Char) :
    ∀ c ∈ (renderTail text I.reprFloat xs ++ ']' :: t).head?, Json.isNumeric c = false := by
  cases xs with
  | nil =>
    rintro c ⟨⟩
    decide
  | cons x xs =>
    rw [renderTail_cons]
    rintro c ⟨⟩
    decide

theorem items_head (items : List (String × PyVal)) (t : List Char) :
    ∀ c ∈ (renderItems text I.reprFloat items ++ '}' :: t).head?, Json.isNumeric c = false := by
  cases items with
  | nil =>
    rintro c ⟨⟩
    decide
  | cons item items =>
    rw [renderItems_cons]
    rintro c ⟨⟩
    decide

theorem element_of_reads (hText : Quoting text S G) {x : PyVal} (hx : Jsonable I x) {j : Json}
    {t r u : List Char} (ht : Json.skip t = Json.skip (render text I.reprFloat x ++ r))
    (h : Json.Reads .elements j t u) :
    ∃ y ys w, Json.Reads .value y (render text I.reprFloat x ++ r) w ∧ Json.AfterElement ys w u := by
  obtain ⟨y, ys, w, -, hValue, hAfter⟩ := h.of_elements
  rw [ht, (render_opens hText hx).skip] at hValue
  exact ⟨y, ys, w, hValue, hAfter⟩

theorem member_of_reads (hText : Quoting text S G) {k : String} (hk : S k.toList) {v : PyVal}
    (hv : Jsonable I v) {j : Json} {t r u : List Char}
    (ht : Json.skip t = Json.skip (text k.toList ++ (':' :: ' ' :: (render text I.reprFloat v ++ r))))
    (h : Json.Reads .members j t u) :
    G k.toList ∧ ∃ x ms w, Json.Reads .value x (render text I.reprFloat v ++ r) w ∧
      Json.AfterMember ms w u := by
  obtain ⟨k', t₁, t₂, x, ms, w, -, hKey, hColon, hValue, hAfter⟩ := h.of_members
  rw [ht, (hText.opens k.toList).skip] at hKey
  obtain ⟨hGood, -, rfl⟩ := hText.reads hk hKey
  rw [Json.skip_of_not_blank (by decide)] at hColon
  obtain ⟨-, rfl⟩ := List.cons.inj hColon
  have hSkip : Json.skip (' ' :: (render text I.reprFloat v ++ r)) = render text I.reprFloat v ++ r :=
    (render_opens hText hv).skip r
  rw [hSkip] at hValue
  exact ⟨hGood, x, ms, w, hValue, hAfter⟩

mutual

/-- If a value is read at the text of `v`, the text of `v` is what is read. -/
theorem each_of_reads (hText : Quoting text S G) (v : PyVal) (hv : Jsonable I v) (hS : Texts S v)
    {j : Json} {t u : List Char} (hEnd : ∀ c ∈ t.head?, Json.isNumeric c = false)
    (h : Json.Reads .value j (render text I.reprFloat v ++ t) u) : Each G IsNumber v ∧ u = t := by
  match v with
  | .none => exact absurd (Json.Reads.head (c := 'N') h) (by decide)
  | .bool true => exact absurd (Json.Reads.head (c := 'T') h) (by decide)
  | .bool false => exact absurd (Json.Reads.head (c := 'F') h) (by decide)
  | .int n =>
    exact ⟨trivial, (h.of_number (Json.IntText.numeric (.inl rfl)) (intText_ne_nil (.inl rfl)) hEnd).1⟩
  | .float (.finite q) =>
    have hDecimal := I.reprFloat_decimal q hv
    exact ⟨trivial, (h.of_number hDecimal.numeric (decimalText_ne_nil hDecimal) hEnd).1⟩
  | .float .nan =>
    cases h with
    | null h => exact absurd (List.cons.inj (List.cons.inj h).2).1 (by decide)
    | int h => exact absurd (.int h ‹_›) ((Json.Reads.not_number (c := 'n') (by decide)).1 _)
    | decimal h hToken =>
      exact absurd (.decimal h hToken ‹_›) ((Json.Reads.not_number (c := 'n') (by decide)).2 _)
    | str h => cases h
    | _ h => exact absurd (List.cons.inj h).1 (by decide)
  | .float .posInf => exact absurd (Json.Reads.head (c := 'i') h) (by decide)
  | .float .negInf =>
    obtain ⟨-, ⟨n, hInt⟩ | hDecimal⟩ := @Json.Reads.of_number j ['-'] ('i' :: 'n' :: 'f' :: t) u
      (by decide) (by decide) (by rintro c ⟨⟩; decide) h
    · obtain ⟨c, hc, hDigit⟩ := hInt.digit
      exact absurd (List.mem_singleton.mp hc ▸ hDigit) (by decide)
    · obtain ⟨c, hc, hDigit⟩ := hDecimal.digit
      exact absurd (List.mem_singleton.mp hc ▸ hDigit) (by decide)
  | .str s =>
    obtain ⟨ds, hQuote⟩ | ⟨ds, hQuote⟩ := hText.quote s.toList
    · rw [render, hQuote] at h
      obtain ⟨r, -, hQuoted⟩ := h.of_quote
      have hWhole : Json.Quoted r (text s.toList ++ t) u := by
        rw [hQuote]
        exact hQuoted
      obtain ⟨hGood, -, rfl⟩ := hText.reads hS hWhole
      exact ⟨hGood, rfl⟩
    · rw [render, hQuote] at h
      exact absurd h.head (by decide)
  | .list [] =>
    obtain ⟨-, hClose⟩ | ⟨js, -, hElements⟩ := Json.Reads.of_bracket (t := ']' :: t) h
    · exact ⟨trivial, (List.cons.inj hClose).2.symm⟩
    · exact absurd (Json.skip_of_not_blank (by decide) t) hElements.not_bracket
  | .list (x :: xs) =>
    rw [render_list] at h
    obtain ⟨-, hClose⟩ | ⟨js, -, hElements⟩ := h.of_bracket
    · rw [(render_opens hText hv.1).skip] at hClose
      obtain ⟨c, ds, hHead, -, hNot, -⟩ := render_opens hText hv.1
      rw [hHead] at hClose
      exact absurd (List.cons.inj hClose).1 hNot
    · obtain ⟨y, ys, w, hValue, hAfter⟩ := element_of_reads hText hv.1 rfl hElements
      obtain ⟨hHead, rfl⟩ := each_of_reads hText x hv.1 hS.1 (tail_head xs t) hValue
      obtain ⟨hTail, rfl⟩ := each_of_afterElement hText xs hv.2 hS.2 hAfter
      exact ⟨⟨hHead, hTail⟩, rfl⟩
  | .dict [] =>
    obtain ⟨-, hClose⟩ | ⟨ms, -, hMembers⟩ := Json.Reads.of_brace (t := '}' :: t) h
    · exact ⟨trivial, (List.cons.inj hClose).2.symm⟩
    · exact absurd (Json.skip_of_not_blank (by decide) t) hMembers.not_brace
  | .dict ((k, v) :: items) =>
    rw [render_dict] at h
    obtain ⟨-, hClose⟩ | ⟨ms, -, hMembers⟩ := h.of_brace
    · rw [(hText.opens k.toList).skip] at hClose
      obtain ⟨c, ds, hHead, -, -, hNot⟩ := hText.opens k.toList
      rw [hHead] at hClose
      exact absurd (List.cons.inj hClose).1 hNot
    · obtain ⟨hKey, y, ms, w, hValue, hAfter⟩ := member_of_reads hText hS.1 hv.2.1 rfl hMembers
      obtain ⟨hHead, rfl⟩ := each_of_reads hText v hv.2.1 hS.2.1 (items_head items t) hValue
      obtain ⟨hTail, rfl⟩ := each_of_afterMember hText items hv.2.2 hS.2.2 hAfter
      exact ⟨⟨hKey, hHead, hTail⟩, rfl⟩
  | .obj cls text => exact hv.elim

theorem each_of_afterElement (hText : Quoting text S G) (xs : List PyVal)
    (hv : JsonableElements I xs) (hS : EachElement S (fun _ => True) xs) {t u : List Char}
    {ys : List Json}
    (h : Json.AfterElement ys (renderTail text I.reprFloat xs ++ ']' :: t) u) :
    EachElement G IsNumber xs ∧ u = t := by
  match xs with
  | [] =>
    obtain ⟨-, hClose⟩ | ⟨v', hComma, -⟩ := h
    · exact ⟨trivial, (List.cons.inj hClose).2.symm⟩
    · exact absurd (List.cons.inj hComma).1 (by decide)
  | x :: xs =>
    rw [renderTail_cons] at h
    obtain ⟨-, hClose⟩ | ⟨v', hComma, hElements⟩ := h
    · exact absurd (List.cons.inj hClose).1 (by decide)
    · obtain rfl := (List.cons.inj hComma).2
      obtain ⟨y, ys, w, hValue, hAfter⟩ := element_of_reads (t := ' ' :: _) hText hv.1 rfl hElements
      obtain ⟨hHead, rfl⟩ := each_of_reads hText x hv.1 hS.1 (tail_head xs t) hValue
      obtain ⟨hTail, rfl⟩ := each_of_afterElement hText xs hv.2 hS.2 hAfter
      exact ⟨⟨hHead, hTail⟩, rfl⟩

theorem each_of_afterMember (hText : Quoting text S G) (items : List (String × PyVal))
    (hv : JsonableItems I items) (hS : EachItem S (fun _ => True) items) {t u : List Char}
    {ms : List (List Char × Json)}
    (h : Json.AfterMember ms (renderItems text I.reprFloat items ++ '}' :: t) u) :
    EachItem G IsNumber items ∧ u = t := by
  match items with
  | [] =>
    obtain ⟨-, hClose⟩ | ⟨v', hComma, -⟩ := h
    · exact ⟨trivial, (List.cons.inj hClose).2.symm⟩
    · exact absurd (List.cons.inj hComma).1 (by decide)
  | (k, v) :: items =>
    rw [renderItems_cons] at h
    obtain ⟨-, hClose⟩ | ⟨v', hComma, hMembers⟩ := h
    · exact absurd (List.cons.inj hClose).1 (by decide)
    · obtain rfl := (List.cons.inj hComma).2
      obtain ⟨hKey, y, ms, w, hValue, hAfter⟩ := member_of_reads (t := ' ' :: _) hText hS.1 hv.1 rfl hMembers
      obtain ⟨hHead, rfl⟩ := each_of_reads hText v hv.1 hS.2.1 (items_head items t) hValue
      obtain ⟨hTail, rfl⟩ := each_of_afterMember hText items hv.2 hS.2.2 hAfter
      exact ⟨⟨hKey, hHead, hTail⟩, rfl⟩

end

/-- The members stand for the items, one for each. -/
abbrev Members (I : Interpreter) : List (String × PyVal) → List (List Char × Json) → Prop :=
  List.Forall₂ fun item m => m.1 = item.1.toList ∧ Denotes I item.2 m.2

theorem keys_of_members {items : List (String × PyVal)} {ms : List (List Char × Json)}
    (h : Members I items ms) : ms.map Prod.fst = (items.map Prod.fst).map String.toList := by
  induction h with
  | nil => rfl
  | cons hHead _ ih => rw [List.map_cons, List.map_cons, List.map_cons, hHead.1, ih]

theorem member_of_item {items : List (String × PyVal)} {ms : List (List Char × Json)}
    (h : Members I items ms) {item : String × PyVal} (hItem : item ∈ items) :
    ∃ m ∈ ms, m.1 = item.1.toList ∧ Denotes I item.2 m.2 := by
  induction h with
  | nil => cases hItem
  | @cons item' m items ms hHead _ ih =>
    obtain rfl | hRest := List.mem_cons.mp hItem
    · exact ⟨m, List.mem_cons_self, hHead⟩
    · obtain ⟨m', hm', hPair⟩ := ih hRest
      exact ⟨m', List.mem_cons_of_mem m hm', hPair⟩

theorem denotesItems_iff {items : List (String × PyVal)} {ms : List (List Char × Json)} :
    DenotesItems I items ms ↔
      ∀ item ∈ items, ∃ j, Json.lookup ms item.1.toList = some j ∧ Denotes I item.2 j := by
  induction items with
  | nil => exact iff_of_true trivial nofun
  | cons item items ih =>
    obtain ⟨k, v⟩ := item
    rw [DenotesItems, ih, List.forall_mem_cons]

theorem denotes_dict {items : List (String × PyVal)} {ms : List (List Char × Json)}
    (hNodup : (items.map Prod.fst).Nodup) (h : Members I items ms) :
    Denotes I (.dict items) (.obj ms) := by
  have hKeys : (ms.map Prod.fst).Nodup := by
    rw [keys_of_members h]
    exact List.Pairwise.map _ (fun _ _ hNe hSame => hNe (String.toList_inj.mp hSame)) hNodup
  refine ⟨ms, rfl, ?_, denotesItems_iff.mpr ?_⟩
  · intro m hm
    have hKey := List.mem_map_of_mem (f := Prod.fst) hm
    rw [keys_of_members h, List.map_map] at hKey
    obtain ⟨item, hItem, hSame⟩ := List.mem_map.mp hKey
    exact ⟨item, hItem, hSame.symm⟩
  · intro item hItem
    obtain ⟨m, hm, hKey, hDenotes⟩ := member_of_item h hItem
    exact ⟨m.2, hKey ▸ Json.lookup_of_nodup hKeys hm, hDenotes⟩

mutual

/-- A value whose texts can be read back is read back. -/
theorem reads_of_each (hText : Quoting text S G) (v : PyVal) (hv : Jsonable I v)
    (h : Each G IsNumber v) : ∃ j, Denotes I v j ∧ ∀ t, (∀ c ∈ t.head?, Json.isNumeric c = false) →
      Json.Reads .value j (render text I.reprFloat v ++ t) t := by
  match v with
  | .none => exact h.elim
  | .bool b => exact h.elim
  | .int n =>
    refine ⟨.int n, rfl, fun t hEnd => ?_⟩
    obtain ⟨hTake, hDrop⟩ := Json.token_append (Json.IntText.numeric (.inl rfl)) hEnd
    exact .int (.inl hTake) hDrop
  | .float (.finite q) =>
    have hDecimal := I.reprFloat_decimal q hv
    refine ⟨.decimal (I.reprFloat q), ⟨_, rfl, I.float_reprFloat q hv⟩, fun t hEnd => ?_⟩
    obtain ⟨hTake, hDrop⟩ := Json.token_append hDecimal.numeric hEnd
    exact .decimal hDecimal hTake hDrop
  | .float .nan => exact h.elim
  | .float .posInf => exact h.elim
  | .float .negInf => exact h.elim
  | .str s => exact ⟨.str s.toList, rfl, fun t _ => .str (hText.written t h)⟩
  | .list [] => exact ⟨.arr [], ⟨[], rfl, rfl⟩, fun t _ => .emptyArr rfl rfl⟩
  | .list (x :: xs) =>
    obtain ⟨j, hj, hHead⟩ := reads_of_each hText x hv.1 h.1
    obtain ⟨js, hjs, hTail⟩ := elements_of_each hText xs hv.2 h.2
    refine ⟨.arr (j :: js), ⟨_, rfl, j, js, rfl, hj, hjs⟩, fun t _ => ?_⟩
    rw [render_list]
    refine .arr rfl (hTail ?_)
    rw [(render_opens hText hv.1).skip]
    exact hHead _ (tail_head xs t)
  | .dict [] => exact ⟨.obj [], ⟨[], rfl, nofun, trivial⟩, fun t _ => .emptyObj rfl rfl⟩
  | .dict ((k, v) :: items) =>
    obtain ⟨j, hj, hHead⟩ := reads_of_each hText v hv.2.1 h.2.1
    obtain ⟨ms, hms, hTail⟩ := members_of_each hText items hv.2.2 h.2.2
    refine ⟨.obj ((k.toList, j) :: ms), denotes_dict hv.1 (.cons ⟨rfl, hj⟩ hms), fun t _ => ?_⟩
    rw [render_dict]
    refine .obj rfl (hTail (hText.opens k.toList |>.skip _ ▸ hText.written _ h.1)
      (Json.skip_of_not_blank (by decide) _) ?_)
    refine ((render_opens hText hv.2.1).skip _).symm ▸ hHead _ (items_head items t)
  | .obj cls text => exact hv.elim

theorem elements_of_each (hText : Quoting text S G) (xs : List PyVal) (hv : JsonableElements I xs)
    (h : EachElement G IsNumber xs) : ∃ js, DenotesElements I xs js ∧ ∀ {r t y},
      Json.Reads .value y (Json.skip r) (renderTail text I.reprFloat xs ++ ']' :: t) →
      Json.Reads .elements (.arr (y :: js)) r t := by
  match xs with
  | [] => exact ⟨[], rfl, fun hValue => .lastElement hValue rfl⟩
  | x :: xs =>
    obtain ⟨j, hj, hHead⟩ := reads_of_each hText x hv.1 h.1
    obtain ⟨js, hjs, hTail⟩ := elements_of_each hText xs hv.2 h.2
    refine ⟨j :: js, ⟨j, js, rfl, hj, hjs⟩, fun hValue => ?_⟩
    rw [renderTail_cons] at hValue
    refine .element hValue (Json.skip_of_not_blank (by decide) _) (hTail (r := ' ' :: _) ?_)
    exact ((render_opens hText hv.1).skip _).symm ▸ hHead _ (tail_head xs _)

theorem members_of_each (hText : Quoting text S G) (items : List (String × PyVal))
    (hv : JsonableItems I items) (h : EachItem G IsNumber items) : ∃ ms, Members I items ms ∧
      ∀ {k r r₁ r₂ t y}, Json.Quoted k (Json.skip r) r₁ → Json.skip r₁ = ':' :: r₂ →
      Json.Reads .value y (Json.skip r₂) (renderItems text I.reprFloat items ++ '}' :: t) →
      Json.Reads .members (.obj ((k, y) :: ms)) r t := by
  match items with
  | [] => exact ⟨[], .nil, fun hKey hColon hValue => .lastMember hKey hColon hValue rfl⟩
  | (k, v) :: items =>
    obtain ⟨j, hj, hHead⟩ := reads_of_each hText v hv.1 h.2.1
    obtain ⟨ms, hms, hTail⟩ := members_of_each hText items hv.2 h.2.2
    refine ⟨(k.toList, j) :: ms, .cons ⟨rfl, hj⟩ hms, fun hKey hColon hValue => ?_⟩
    rw [renderItems_cons] at hValue
    refine .member hKey hColon hValue (Json.skip_of_not_blank (by decide) _)
      (hTail (r := ' ' :: _) (hText.opens k.toList |>.skip _ ▸ hText.written _ h.1)
        (Json.skip_of_not_blank (by decide) _) ?_)
    exact ((render_opens hText hv.1).skip _).symm ▸ hHead _ (items_head items _)

end

theorem each_of_isText (hText : Quoting text S G) {v : PyVal} (hv : Jsonable I v) (hS : Texts S v)
    {j : Json} (h : Json.IsText (render text I.reprFloat v) j) : Each G IsNumber v := by
  obtain ⟨u, hReads, -⟩ := h
  rw [← List.append_nil (render text I.reprFloat v), (render_opens hText hv).skip] at hReads
  exact (each_of_reads (t := []) hText v hv hS nofun hReads).1

theorem readsBack_of_each (hText : Quoting text S G) {v : PyVal} (hv : Jsonable I v)
    (h : Each G IsNumber v) : ReadsBack I (render text I.reprFloat v) v := by
  obtain ⟨j, hDenotes, hReads⟩ := reads_of_each hText v hv h
  have hIs : Json.IsText (render text I.reprFloat v) j := by
    refine ⟨[], ?_, rfl⟩
    rw [← List.append_nil (render text I.reprFloat v), (render_opens hText hv).skip]
    exact hReads [] nofun
  exact ⟨⟨j, hIs⟩, fun j' hIs' => hIs.unique hIs' ▸ hDenotes⟩

end Reads

section Repr

variable (I : Interpreter)

/-- The text of a value is JSON for it exactly when each text in it has single quotes and no double
ones. -/
theorem readsBack_repr_iff {v : PyVal} (hv : Jsonable I v) :
    ReadsBack I (repr I v) v ↔ Each (ReprLegible I.printable) IsNumber v := by
  constructor
  · rintro ⟨⟨j, hText⟩, -⟩
    exact each_of_isText (reprText_quoting I.printable) hv
      (each_of_forall (fun _ => trivial) (fun _ => trivial) v) hText
  · exact readsBack_of_each (reprText_quoting I.printable) hv

end Repr

end OpenRadiusWeb.Jsonb
