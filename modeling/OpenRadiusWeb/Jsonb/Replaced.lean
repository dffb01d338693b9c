import OpenRadiusWeb.Jsonb.Values

/-! # The text of a value with its quotes replaced

Replacing every single quote of the text by a double one is meant to turn it into JSON. It also
replaces the quotes inside of texts, and leaves `None`, `True` and the escapes of the interpreter.
-/

namespace OpenRadiusWeb.Jsonb

open OpenRadiusWeb.Policy

/-- `text.replace("'", '"')`. -/
def replaced (t : List Char) : List Char := t.map fun c => if c = '\'' then '"' else c

theorem toList_replaceChar (s : String) : (Text.replaceChar '\'' "\"" s).toList = replaced s.toList := by
  rw [Text.replaceChar, String.toList_ofList, replaced, List.map_eq_flatMap]
  congr 1
  funext c
  split <;> rfl

theorem replaced_of_notMem {t : List Char} (h : '\'' ∉ t) : replaced t = t :=
  (List.map_congr_left fun _ hc => if_neg (ne_of_mem_of_not_mem hc h)).trans (List.map_id t)

theorem replaced_append (s t : List Char) : replaced (s ++ t) = replaced s ++ replaced t := List.map_append

theorem replaced_cons {c : Char} (h : c ≠ '\'') (t : List Char) : replaced (c :: t) = c :: replaced t := by
  rw [replaced, List.map_cons, if_neg h]
  rfl

theorem replaced_numeric {t : List Char} (h : ∀ c ∈ t, Json.isNumeric c = true) : replaced t = t :=
  replaced_of_notMem fun hMem => absurd (h _ hMem) (by decide)

section Render

variable {I : Interpreter} {text : List Char → List Char}

mutual

/-- Nothing outside of the texts is replaced. -/
theorem replaced_render (v : PyVal) (hv : Jsonable I v) :
    replaced (render text I.reprFloat v) = render (fun s => replaced (text s)) I.reprFloat v := by
  match v with
  | .none | .bool true | .bool false | .float .nan | .float .posInf | .float .negInf => rfl
  | .int n => exact replaced_numeric (Json.IntText.numeric (.inl rfl))
  | .float (.finite q) => exact replaced_numeric (I.reprFloat_decimal q hv).numeric
  | .str s => rfl
  | .list [] | .dict [] => rfl
  | .list (x :: xs) =>
    rw [render, render, replaced_append, replaced_cons (by decide), replaced_append,
      replaced_render x hv.1, replaced_renderTail xs hv.2]
    rfl
  | .dict ((k, v) :: items) =>
    rw [render, render, replaced_append, replaced_cons (by decide), replaced_append, replaced_append,
      replaced_append, replaced_render v hv.2.1, replaced_renderItems items hv.2.2]
    rfl
  | .obj _ _ => exact hv.elim

theorem replaced_renderTail (xs : List PyVal) (hv : JsonableElements I xs) :
    replaced (renderTail text I.reprFloat xs) =
      renderTail (fun s => replaced (text s)) I.reprFloat xs := by
  match xs with
  | [] => rfl
  | x :: xs =>
    rw [renderTail, renderTail, replaced_append, replaced_append, replaced_render x hv.1,
      replaced_renderTail xs hv.2]
    rfl

theorem replaced_renderItems (items : List (String × PyVal)) (hv : JsonableItems I items) :
    replaced (renderItems text I.reprFloat items) =
      renderItems (fun s => replaced (text s)) I.reprFloat items := by
  match items with
  | [] => rfl
  | (k, v) :: items =>
    rw [renderItems, renderItems, replaced_append, replaced_append, replaced_append, replaced_append,
      replaced_render v hv.1, replaced_renderItems items hv.2]
    rfl

end

/-! ## Where the backslashes are -/

variable {P : Char → Prop} {T : List Char → Prop}

theorem escaped_append (hP : ∀ c, c ≠ '\'' → c ≠ '"' → P c) {s t : List Char}
    (hs : ∀ c ∈ s, c ≠ '\\' ∧ c ≠ '\'') (ht : Json.Escaped P t) : Json.Escaped P (s ++ t) := by
  induction s with
  | nil => exact ht
  | cons c s ih =>
    obtain ⟨⟨hSlash, hSingle⟩, hRest⟩ := List.forall_mem_cons.mp hs
    exact .plain hSlash (hP c hSingle) (ih hRest)

theorem escaped_numeric (hP : ∀ c, c ≠ '\'' → c ≠ '"' → P c) {s t : List Char}
    (hs : ∀ c ∈ s, Json.isNumeric c = true) (ht : Json.Escaped P t) : Json.Escaped P (s ++ t) := by
  refine escaped_append hP (fun c hc => ⟨?_, ?_⟩) ht
  · rintro rfl
    exact absurd (hs _ hc) (by decide)
  · rintro rfl
    exact absurd (hs _ hc) (by decide)

mutual

theorem escaped_render (hP : ∀ c, c ≠ '\'' → c ≠ '"' → P c)
    (hText : ∀ s t, T s → Json.Escaped P t → Json.Escaped P (text s ++ t)) (v : PyVal)
    (hv : Jsonable I v) (hT : Texts T v) {t : List Char} (ht : Json.Escaped P t) :
    Json.Escaped P (render text I.reprFloat v ++ t) := by
  match v with
  | .none | .bool true | .bool false | .float .nan | .float .posInf | .float .negInf | .list [] | .dict [] =>
    rw [render]
    exact escaped_append hP (by decide) ht
  | .int n => exact escaped_numeric hP (Json.IntText.numeric (.inl rfl)) ht
  | .float (.finite q) => exact escaped_numeric hP (I.reprFloat_decimal q hv).numeric ht
  | .str s => exact hText _ _ hT ht
  | .list (x :: xs) =>
    rw [render_list]
    exact escaped_append (s := ['[']) hP (by decide) (escaped_render hP hText x hv.1 hT.1
      (escaped_renderTail hP hText xs hv.2 hT.2 (escaped_append (s := [']']) hP (by decide) ht)))
  | .dict ((k, v) :: items) =>
    rw [render_dict]
    exact escaped_append (s := ['{']) hP (by decide) (hText _ _ hT.1
      (escaped_append (s := [':', ' ']) hP (by decide) (escaped_render hP hText v hv.2.1 hT.2.1
        (escaped_renderItems hP hText items hv.2.2 hT.2.2
          (escaped_append (s := ['}']) hP (by decide) ht)))))
  | .obj _ _ => exact hv.elim

theorem escaped_renderTail (hP : ∀ c, c ≠ '\'' → c ≠ '"' → P c)
    (hText : ∀ s t, T s → Json.Escaped P t → Json.Escaped P (text s ++ t)) (xs : List PyVal)
    (hv : JsonableElements I xs) (hT : EachElement T (fun _ => True) xs) {t : List Char}
    (ht : Json.Escaped P t) : Json.Escaped P (renderTail text I.reprFloat xs ++ t) := by
  match xs with
  | [] => exact ht
  | x :: xs =>
    rw [renderTail_cons]
    exact escaped_append (s := [',', ' ']) hP (by decide) (escaped_render hP hText x hv.1 hT.1
      (escaped_renderTail hP hText xs hv.2 hT.2 ht))

theorem escaped_renderItems (hP : ∀ c, c ≠ '\'' → c ≠ '"' → P c)
    (hText : ∀ s t, T s → Json.Escaped P t → Json.Escaped P (text s ++ t))
    (items : List (String × PyVal)) (hv : JsonableItems I items)
    (hT : EachItem T (fun _ => True) items) {t : List Char} (ht : Json.Escaped P t) :
    Json.Escaped P (renderItems text I.reprFloat items ++ t) := by
  match items with
  | [] => exact ht
  | (k, v) :: items =>
    rw [renderItems_cons]
    exact escaped_append (s := [',', ' ']) hP (by decide) (hText _ _ hT.1
      (escaped_append (s := [':', ' ']) hP (by decide) (escaped_render hP hText v hv.1 hT.2.1
        (escaped_renderItems hP hText items hv.2 hT.2.2 ht))))

end

mutual

theorem texts_of_denotes (v : PyVal) {j : Json} (h : Denotes I v j) (hj : Json.Within P j) :
    Texts (fun s => ∀ c ∈ s, P c) v := by
  match v with
  | .none | .bool _ | .int _ | .float _ => trivial
  | .str s =>
    rw [Denotes] at h
    subst h
    exact hj
  | .list xs =>
    obtain ⟨js, rfl, hElements⟩ := h
    exact texts_of_denotesElements xs hElements hj
  | .dict items =>
    obtain ⟨ms, rfl, -, hItems⟩ := h
    exact texts_of_denotesItems items hItems hj
  | .obj _ _ => exact h.elim

theorem texts_of_denotesElements (xs : List PyVal) {js : List Json} (h : DenotesElements I xs js)
    (hj : Json.WithinElements P js) : EachElement (fun s => ∀ c ∈ s, P c) (fun _ => True) xs := by
  match xs with
  | [] => trivial
  | x :: xs =>
    obtain ⟨j, js, rfl, hHead, hTail⟩ := h
    exact ⟨texts_of_denotes x hHead hj.1, texts_of_denotesElements xs hTail hj.2⟩

theorem texts_of_denotesItems (items : List (String × PyVal)) {ms : List (List Char × Json)}
    (h : DenotesItems I items ms) (hms : Json.WithinMembers P ms) :
    EachItem (fun s => ∀ c ∈ s, P c) (fun _ => True) items := by
  match items with
  | [] => trivial
  | (k, v) :: items =>
    obtain ⟨⟨j, hLookup, hHead⟩, hTail⟩ := h
    obtain ⟨hKey, hValue⟩ := Json.within_of_mem hms (Json.mem_of_lookup hLookup)
    exact ⟨hKey, texts_of_denotes v hHead hValue, texts_of_denotesItems items hTail hms⟩

end

end Render

/-! ## The texts -/

section Text

variable {printable : Char → Bool} {P : Char → Prop}

theorem hexText_digits (width n : Nat) : ∀ c ∈ hexText width n, c ≠ '\\' ∧ c ≠ '\'' := by
  have hDigit : ∀ m < 16, hexDigit m ≠ '\\' ∧ hexDigit m ≠ '\'' := by decide
  induction width generalizing n with
  | zero => nofun
  | succ width ih =>
    refine List.forall_mem_append.mpr ⟨ih (n / 16), ?_⟩
    exact List.forall_mem_singleton.mpr (hDigit _ (Nat.mod_lt n (by decide)))

theorem replaced_hexText (width n : Nat) : replaced (hexText width n) = hexText width n :=
  replaced_of_notMem fun hMem => (hexText_digits width n _ hMem).2 rfl

/-- A character as `repr` writes it, with its quotes replaced. -/
theorem escaped_replaced_reprChar (hP : ∀ c, c ≠ '\'' → c ≠ '"' → P c) {quote c : Char} {t : List Char}
    (hQuote : quote = '\'' ∨ quote = '"') (hDouble : P '"' ∨ c ≠ quote) (ht : Json.Escaped P t) :
    Json.Escaped P (replaced (reprChar printable quote c) ++ t) := by
  have hLetter : ∀ e ∈ ['\\', 't', 'n', 'r', 'x', 'U'], ∀ x, (e, x) ∈ Json.escapes → P x := by
    intro e he x hx
    have hAll : ∀ y ∈ Json.escapes, y.1 ∈ ['\\', 't', 'n', 'r', 'x', 'U'] → y.2 ≠ '\'' ∧ y.2 ≠ '"' := by
      decide
    obtain ⟨hSingle, hDouble⟩ := hAll _ hx he
    exact hP x hSingle hDouble
  have hDigits : ∀ e ∈ ['x', 'U'], ∀ width, Json.Escaped P
      (replaced (['\\', e] ++ hexText width c.toNat) ++ t) := by
    intro e he width
    have hNoU : ∀ e ∈ ['x', 'U'], e ≠ 'u' ∧ replaced ['\\', e] = ['\\', e] ∧
        e ∈ ['\\', 't', 'n', 'r', 'x', 'U'] := by decide
    obtain ⟨hNot, hSame, hIn⟩ := hNoU e he
    rw [replaced_append, hSame, replaced_hexText, List.append_assoc]
    refine .escape hNot (hLetter e hIn) ?_
    exact escaped_append (s := hexText width c.toNat) hP (hexText_digits width c.toNat) ht
  unfold reprChar
  split
  · rename_i hEscaped
    obtain hSame | rfl := hEscaped
    · have hP' := hDouble.resolve_right fun hNe => hNe hSame
      have hText : replaced ['\\', c] = ['\\', '"'] := by
        obtain rfl | rfl := hQuote <;> rw [hSame] <;> rfl
      rw [hText]
      refine .escape (by decide) (fun x hx => ?_) ht
      have hOnly : ∀ y ∈ Json.escapes, y.1 = '"' → y.2 = '"' := by decide
      have hx' : x = '"' := hOnly _ hx rfl
      rwa [hx']
    · exact .escape (by decide) (hLetter _ (by decide)) ht
  rename_i hPlain
  split
  · exact .escape (by decide) (hLetter _ (by decide)) ht
  split
  · exact .escape (by decide) (hLetter _ (by decide)) ht
  split
  · exact .escape (by decide) (hLetter _ (by decide)) ht
  split
  · exact hDigits 'x' (by decide) 2
  split
  · by_cases hSingle : c = '\''
    · subst hSingle
      exact .plain (by decide) (fun hNe => absurd rfl hNe) ht
    · rw [replaced_cons hSingle]
      exact .plain (fun hSlash => hPlain (.inr hSlash)) (hP c hSingle) ht
  split
  · exact hDigits 'x' (by decide) 2
  rename_i hByte
  split
  · rename_i hWord
    obtain ⟨a, b, d, e, hText, hHex⟩ := hex4_hexText hWord
    rw [replaced_append, replaced_hexText, hText]
    refine .unicode hHex c.valid ?_ ht
    rw [Char.ofNat_toNat]
    refine hP c ?_ ?_
    · rintro rfl
      exact hByte (by decide)
    · rintro rfl
      exact hByte (by decide)
  · exact hDigits 'U' (by decide) 8

variable (printable)

/-- A text as `repr` writes it, with its quotes replaced. -/
def replacedText (s : List Char) : List Char := replaced (reprText printable s)

variable {printable}

theorem quoteOf_eq (s : List Char) : quoteOf s = '\'' ∨ quoteOf s = '"' := by
  unfold quoteOf
  split
  · exact .inr rfl
  · exact .inl rfl

theorem replacedText_eq (s : List Char) : replacedText printable s =
    '"' :: replaced (s.flatMap (reprChar printable (quoteOf s))) ++ ['"'] := by
  have hOuter : replaced [quoteOf s] = ['"'] := by
    obtain h | h := quoteOf_eq s <;> rw [h] <;> rfl
  rw [replacedText, reprText, quotedBy, replaced_append, hOuter, ← List.singleton_append, replaced_append,
    hOuter]
  rfl

theorem escaped_replacedText (hP : ∀ c, c ≠ '\'' → c ≠ '"' → P c) {s t : List Char}
    (hs : P '"' ∨ '\'' ∉ s) (ht : Json.Escaped P t) : Json.Escaped P (replacedText printable s ++ t) := by
  have hQuote := quoteOf_eq s
  have hInner : ∀ r : List Char, (∀ c ∈ r, c ∈ s) → ∀ {u}, Json.Escaped P u →
      Json.Escaped P (replaced (r.flatMap (reprChar printable (quoteOf s))) ++ u) := by
    intro r hr u hu
    induction r with
    | nil => exact hu
    | cons c r ih =>
      obtain ⟨hc, hRest⟩ := List.forall_mem_cons.mp hr
      rw [List.flatMap_cons, replaced_append, List.append_assoc]
      refine escaped_replaced_reprChar hP hQuote (hs.imp_right fun hSingle => ?_) (ih hRest)
      have hNone : quoteOf s = '\'' := if_neg fun h => hSingle h.1
      rw [hNone]
      exact ne_of_mem_of_not_mem hc hSingle
  rw [replacedText_eq, List.cons_append, List.cons_append, List.append_assoc]
  refine .plain (by decide) (fun hNe => absurd rfl hNe) (hInner s (fun _ hc => hc) ?_)
  exact .plain (by decide) (fun hNe => absurd rfl hNe) ht

theorem notMem_reprChar {c : Char} (hSingle : c ≠ '\'') : '\'' ∉ reprChar printable '\'' c := by
  have hDigits : ∀ e ∈ ['x', 'u', 'U'], ∀ width, '\'' ∉ ['\\', e] ++ hexText width c.toNat := by
    intro e he width hMem
    have hNoQuote : ∀ e ∈ ['x', 'u', 'U'], '\'' ∉ ['\\', e] := by decide
    obtain hEscape | hDigit := List.mem_append.mp hMem
    · exact hNoQuote e he hEscape
    · exact (hexText_digits width c.toNat _ hDigit).2 rfl
  unfold reprChar
  split
  · rename_i hEscaped
    rw [hEscaped.resolve_left hSingle]
    decide
  split
  · decide
  split
  · decide
  split
  · decide
  split
  · exact hDigits 'x' (by decide) 2
  split
  · exact fun hMem => hSingle (List.mem_singleton.mp hMem).symm
  split
  · exact hDigits 'x' (by decide) 2
  split
  · exact hDigits 'u' (by decide) 4
  · exact hDigits 'U' (by decide) 8

theorem replacedText_of_notMem {s : List Char} (hSingle : '\'' ∉ s) :
    replacedText printable s = doubleQuoted printable s := by
  have hNone : quoteOf s = '\'' := if_neg fun h => hSingle h.1
  have hInner : replaced (s.flatMap (reprChar printable '\'')) = s.flatMap (reprChar printable '\'') := by
    refine replaced_of_notMem fun hMem => ?_
    obtain ⟨c, hc, hIn⟩ := List.mem_flatMap.mp hMem
    exact notMem_reprChar (ne_of_mem_of_not_mem hc hSingle) hIn
  rw [replacedText_eq, hNone, hInner]
  rfl

theorem replacedText_quoting : Quoting (replacedText printable) (fun s => '\'' ∉ s ∧ '"' ∉ s)
    (PlainLegible printable) where
  reads hs h := by
    rw [replacedText_of_notMem hs.1] at h
    exact (doubleQuoted_quoting printable).reads hs h
  written t h := by
    rw [replacedText_of_notMem h.1.1]
    exact (doubleQuoted_quoting printable).written t h
  quote s := .inl ⟨_, replacedText_eq s⟩

end Text

variable (I : Interpreter)

theorem texts_of_isText {I : Interpreter} {P : Char → Prop} (hP : ∀ c, c ≠ '\'' → c ≠ '"' → P c)
    {v : PyVal} (hv : Jsonable I v) (hT : Texts (fun s => P '"' ∨ '\'' ∉ s) v) {j : Json}
    (hText : Json.IsText (render (replacedText I.printable) I.reprFloat v) j) (h : Denotes I v j) :
    Texts (fun s => ∀ c ∈ s, P c) v := by
  obtain ⟨u, hReads, -⟩ := hText
  have hEscaped : Json.Escaped P (render (replacedText I.printable) I.reprFloat v) := by
    rw [← List.append_nil (render _ _ v)]
    exact escaped_render hP (fun _ _ hs => escaped_replacedText hP hs) v hv hT .nil
  exact texts_of_denotes v h (hReads.within hEscaped.skip).2

/-- With its quotes replaced the text of a value is JSON for it exactly when no text in it has quotes
or a character that JSON escapes differently, and there is no `None`, `True` or `False`. -/
theorem readsBack_replaced_iff {v : PyVal} (hv : Jsonable I v) :
    ReadsBack I (replaced (repr I v)) v ↔ Each (PlainLegible I.printable) IsNumber v := by
  have hRender : replaced (repr I v) = render (replacedText I.printable) I.reprFloat v :=
    replaced_render v hv
  rw [hRender]
  constructor
  · rintro ⟨⟨j, hText⟩, hSays⟩
    have hDenotes := hSays j hText
    -- no text read has a single quote, so the value has none, and then no text read has a double one
    have hSingle := texts_of_isText (fun c h _ => h) hv
      (each_of_forall (fun _ => .inl (by decide)) (fun _ => trivial) v) hText hDenotes
    have hDouble := texts_of_isText (fun c _ h => h) hv
      (texts_imp (fun s hs => .inr fun hMem => hs _ hMem rfl) v hSingle) hText hDenotes
    refine each_of_isText replacedText_quoting hv ?_ hText
    exact texts_and (fun s hs hd => ⟨fun hMem => hs _ hMem rfl, fun hMem => hd _ hMem rfl⟩) v hSingle
      hDouble
  · exact readsBack_of_each replacedText_quoting hv

end OpenRadiusWeb.Jsonb
