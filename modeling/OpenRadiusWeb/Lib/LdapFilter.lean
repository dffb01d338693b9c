import OpenRadiusWeb.Lib.Json
import OpenRadiusWeb.Lib.Replace
import OpenRadiusWeb.Lib.Utf8

/-! # LDAP search filters

The string representation of RFC 4515. A template is a filter text with holes, where a value is to
be put; it is read by the same grammar, and a hole is read as a piece of an assertion value. With
an escaped value in its holes a template is a filter of the same structure.
-/

/-- A piece of an assertion value: an octet, an asterisk that is not escaped, or a hole. -/
inductive LdapFilter.Piece
  | octet (b : UInt8)
  | star
  | hole

inductive LdapFilter.Op
  | equal
  | approx
  | greaterOrEqual
  | lessOrEqual
  | extensible

/-- A search filter; `attr=*` and the substring filters are items with asterisks in their values. -/
inductive LdapFilter
  | and (fs : List LdapFilter)
  | or (fs : List LdapFilter)
  | not (f : LdapFilter)
  | item (attr : List Char) (op : LdapFilter.Op) (value : List LdapFilter.Piece)

namespace LdapFilter

open Json (hexValue)

/-- A text with holes. -/
abbrev Template : Type := List (Option Char)

/-- The characters that an assertion value does not hold as themselves. -/
def special : List Char := ['*', '(', ')', '\\', '\x00']

def Plain (c : Char) : Prop := c ∉ special

instance : DecidablePred Plain := fun c => inferInstanceAs (Decidable (c ∉ special))

/-- The text of an assertion value. -/
inductive Value : List Piece → Template → Prop
  | nil : Value [] []
  | hole {ps : List Piece} {t : Template} (h : Value ps t) : Value (.hole :: ps) (none :: t)
  | star {ps : List Piece} {t : Template} (h : Value ps t) : Value (.star :: ps) (some '*' :: t)
  | char {ps : List Piece} {t : Template} {c : Char} (hPlain : Plain c) (h : Value ps t) :
    Value ((String.utf8EncodeChar c).map .octet ++ ps) (some c :: t)
  | pair {ps : List Piece} {t : Template} {a b : Char} {m n : Nat} (hHigh : hexValue a = some m)
    (hLow : hexValue b = some n) (h : Value ps t) :
    Value (.octet (UInt8.ofNat (m * 16 + n)) :: ps) (some '\\' :: some a :: some b :: t)

/-- What stands before the equals sign. -/
def Op.mark : Op → List Char
  | .equal => []
  | .approx => ['~']
  | .greaterOrEqual => ['>']
  | .lessOrEqual => ['<']
  | .extensible => [':']

def AttrChar (c : Char) : Prop := c.isAlphanum = true ∨ c ∈ ['.', ';', '-']

/-- An attribute description; before `:=` also its flag and matching rule. -/
def Attr (attr : List Char) (op : Op) : Prop :=
  attr ≠ [] ∧ ∀ c ∈ attr, AttrChar c ∨ (op = .extensible ∧ c = ':')

/-- A text begins with a sequence of filters. -/
inductive Seq : List LdapFilter → Template → Template → Prop
  | nil {t : Template} : Seq [] t t
  | item {attr : List Char} {op : Op} {v : List Piece} {fs : List LdapFilter} {tv t u w : Template}
    (hAttr : Attr attr op) (hValue : Value v tv)
    (h : t = some '(' :: ((attr ++ op.mark).map some ++ some '=' :: (tv ++ some ')' :: u)))
    (hRest : Seq fs u w) : Seq (.item attr op v :: fs) t w
  | not {f : LdapFilter} {fs : List LdapFilter} {t u w : Template}
    (hBody : Seq [f] t (some ')' :: u)) (hRest : Seq fs u w) :
    Seq (.not f :: fs) (some '(' :: some '!' :: t) w
  | and {gs fs : List LdapFilter} {t u w : Template} (hSome : gs ≠ [])
    (hBody : Seq gs t (some ')' :: u)) (hRest : Seq fs u w) :
    Seq (.and gs :: fs) (some '(' :: some '&' :: t) w
  | or {gs fs : List LdapFilter} {t u w : Template} (hSome : gs ≠ [])
    (hBody : Seq gs t (some ')' :: u)) (hRest : Seq fs u w) :
    Seq (.or gs :: fs) (some '(' :: some '|' :: t) w

/-- The whole text is a filter. -/
def IsFilter (f : LdapFilter) (t : Template) : Prop := Seq [f] t []

/-! ## Putting a value -/

/-- The octets at the holes of a value. -/
def putPieces (bs : List UInt8) (ps : List Piece) : List Piece :=
  ps.flatMap fun
    | .hole => bs.map .octet
    | p => [p]

mutual
/-- The octets at the holes of a filter. -/
def put (bs : List UInt8) : LdapFilter → LdapFilter
  | .and fs => .and (putAll bs fs)
  | .or fs => .or (putAll bs fs)
  | .not f => .not (put bs f)
  | .item attr op value => .item attr op (putPieces bs value)

def putAll (bs : List UInt8) : List LdapFilter → List LdapFilter
  | [] => []
  | f :: fs => put bs f :: putAll bs fs
end

/-- The text at the holes of a template. -/
def Template.put (s : List Char) (t : Template) : Template := (Replace.fill s t).map some

@[simp] theorem Template.put_some (s : List Char) (c : Char) (t : Template) :
    Template.put s (some c :: t) = some c :: Template.put s t := rfl

theorem Template.put_none (s : List Char) (t : Template) :
    Template.put s (none :: t) = s.map some ++ Template.put s t := by
  rw [Template.put, Replace.fill_none, List.map_append, Template.put]

theorem Template.put_append (s : List Char) (t u : Template) :
    Template.put s (t ++ u) = Template.put s t ++ Template.put s u := by
  rw [Template.put, Replace.fill_append, List.map_append, Template.put, Template.put]

theorem Template.put_text (s cs : List Char) : Template.put s (cs.map some) = cs.map some := by
  rw [Template.put, Replace.fill_map_some]

@[simp] theorem putPieces_append (bs : List UInt8) (ps qs : List Piece) :
    putPieces bs (ps ++ qs) = putPieces bs ps ++ putPieces bs qs := List.flatMap_append

@[simp] theorem putPieces_octets (bs cs : List UInt8) :
    putPieces bs (cs.map .octet) = cs.map .octet := by
  induction cs with
  | nil => rfl
  | cons c cs ih => exact congrArg (Piece.octet c :: ·) ih

theorem Value.append {ps qs : List Piece} {t u : Template} (h : Value ps t) (h' : Value qs u) :
    Value (ps ++ qs) (t ++ u) := by
  induction h with
  | nil => exact h'
  | hole _ ih => exact ih.hole
  | star _ ih => exact ih.star
  | char hPlain _ ih =>
    rw [List.append_assoc]
    exact .char hPlain ih
  | pair hHigh hLow _ ih => exact .pair hHigh hLow ih

section Put

variable {bs : List UInt8} {s : List Char}

theorem Value.put (hs : Value (bs.map .octet) (s.map some)) {ps : List Piece} {t : Template}
    (h : Value ps t) : Value (putPieces bs ps) (Template.put s t) := by
  induction h with
  | nil => exact .nil
  | hole _ ih =>
    rw [Template.put_none]
    exact hs.append ih
  | star _ ih => exact ih.star
  | char hPlain _ ih =>
    rw [putPieces_append, putPieces_octets]
    exact .char hPlain ih
  | pair hHigh hLow _ ih => exact .pair hHigh hLow ih

theorem putAll_ne_nil {fs : List LdapFilter} (h : fs ≠ []) : putAll bs fs ≠ [] := by
  obtain ⟨f, fs, rfl⟩ := List.exists_cons_of_ne_nil h
  exact List.cons_ne_nil _ _

theorem Seq.put (hs : Value (bs.map .octet) (s.map some)) {fs : List LdapFilter} {t u : Template}
    (h : Seq fs t u) : Seq (putAll bs fs) (Template.put s t) (Template.put s u) := by
  induction h with
  | nil => exact .nil
  | item hAttr hValue hText _ ih =>
    refine .item hAttr (Value.put hs hValue) ?_ ih
    rw [hText]
    simp only [Template.put_some, Template.put_append, Template.put_text]
  | not _ _ ihBody ih => exact .not ihBody ih
  | and hSome _ _ ihBody ih => exact .and (putAll_ne_nil hSome) ihBody ih
  | or hSome _ _ ihBody ih => exact .or (putAll_ne_nil hSome) ihBody ih

/-- With the text of a value in its holes a template is a filter of the same structure. -/
theorem IsFilter.put (hs : Value (bs.map .octet) (s.map some)) {f : LdapFilter} {t : Template}
    (h : IsFilter f t) : IsFilter (LdapFilter.put bs f) (Template.put s t) := Seq.put hs h

end Put

/-! ## Escaping -/

/-- The escape of a special character. -/
def escapeChar (c : Char) : List Char :=
  if c = '*' then "\\2a".toList
  else if c = '(' then "\\28".toList
  else if c = ')' then "\\29".toList
  else if c = '\\' then "\\5c".toList
  else if c = '\x00' then "\\00".toList
  else [c]

/-- A text as a literal assertion value. -/
def escape (s : List Char) : List Char := s.flatMap escapeChar

theorem escapeChar_of_plain {c : Char} (h : Plain c) : escapeChar c = [c] := by
  simp only [Plain, special, List.mem_cons, List.not_mem_nil, or_false, not_or] at h
  obtain ⟨hStar, hOpen, hClose, hBackslash, hNul⟩ := h
  rw [escapeChar, if_neg hStar, if_neg hOpen, if_neg hClose, if_neg hBackslash, if_neg hNul]

theorem escape_of_plain {s : List Char} (h : ∀ c ∈ s, Plain c) : escape s = s := by
  induction s with
  | nil => rfl
  | cons c s ih =>
    rw [List.forall_mem_cons] at h
    rw [escape, List.flatMap_cons, escapeChar_of_plain h.1, ← escape, ih h.2]
    rfl

/-- How many characters are escaped. -/
def specials (s : List Char) : Nat := s.countP fun c => ¬Plain c

theorem plain_of_specials {s : List Char} (h : specials s = 0) : ∀ c ∈ s, Plain c := by
  intro c hc
  simpa using List.countP_eq_zero.mp h c hc

/-- Every escape has one backslash and two digits. -/
theorem escapeChar_measures (c : Char) :
    (escapeChar c).length = 1 + (if Plain c then 0 else 2) ∧
      (escapeChar c).count '\\' = (if Plain c then 0 else 1) ∧
      ∀ d ∈ ['*', '(', ')', '\x00'], (escapeChar c).count d = 0 := by
  by_cases h : Plain c
  · rw [escapeChar_of_plain h, if_pos h, if_pos h]
    have hOther : ∀ d, ¬Plain d → [c].count d = 0 := by
      intro d hd
      refine List.count_eq_zero.mpr ?_
      rw [List.mem_singleton]
      rintro rfl
      exact hd h
    refine ⟨rfl, hOther _ (by decide), ?_⟩
    intro d hd
    simp only [List.mem_cons, List.not_mem_nil, or_false] at hd
    obtain rfl | rfl | rfl | rfl := hd <;> exact hOther _ (by decide)
  · rw [if_neg h, if_neg h]
    simp only [Plain, special, List.mem_cons, List.not_mem_nil, or_false, not_not] at h
    obtain rfl | rfl | rfl | rfl | rfl := h <;> decide

theorem specials_cons (c : Char) (s : List Char) :
    specials (c :: s) = specials s + if Plain c then 0 else 1 := by
  rw [specials, List.countP_cons]
  by_cases h : Plain c <;> simp [h, specials]

theorem length_escape (s : List Char) : (escape s).length = s.length + 2 * specials s := by
  induction s with
  | nil => rfl
  | cons c s ih =>
    rw [escape, List.flatMap_cons, List.length_append, ← escape, ih, specials_cons,
      (escapeChar_measures c).1, List.length_cons]
    split <;> omega

theorem count_escape_backslash (s : List Char) : (escape s).count '\\' = specials s := by
  induction s with
  | nil => rfl
  | cons c s ih =>
    rw [escape, List.flatMap_cons, List.count_append, ← escape, ih, specials_cons,
      (escapeChar_measures c).2.1]
    omega

theorem count_escape_special {d : Char} (hd : d ∈ ['*', '(', ')', '\x00']) (s : List Char) :
    (escape s).count d = 0 := by
  induction s with
  | nil => rfl
  | cons c s ih =>
    rw [escape, List.flatMap_cons, List.count_append, ← escape, ih, (escapeChar_measures c).2.2 d hd]

theorem value_escapeChar (c : Char) :
    Value ((String.utf8EncodeChar c).map .octet) ((escapeChar c).map some) := by
  by_cases h : Plain c
  · rw [escapeChar_of_plain h]
    simpa using Value.char h .nil
  · simp only [Plain, special, List.mem_cons, List.not_mem_nil, or_false, not_not] at h
    obtain rfl | rfl | rfl | rfl | rfl := h
    · exact .pair (m := 2) (n := 10) rfl rfl .nil
    · exact .pair (m := 2) (n := 8) rfl rfl .nil
    · exact .pair (m := 2) (n := 9) rfl rfl .nil
    · exact .pair (m := 5) (n := 12) rfl rfl .nil
    · exact .pair (m := 0) (n := 0) rfl rfl .nil

theorem value_escape (s : List Char) : Value ((Utf8.encode s).map .octet) ((escape s).map some) := by
  induction s with
  | nil => exact .nil
  | cons c s ih =>
    rw [Utf8.encode_cons, escape, List.flatMap_cons, List.map_append, List.map_append]
    exact (value_escapeChar c).append ih

/-! ## A text has one reading -/

theorem Value.unique {ps qs : List Piece} {t : Template} (h : Value ps t) (h' : Value qs t) :
    ps = qs := by
  induction h generalizing qs with
  | nil => cases h' with | nil => rfl
  | hole _ ih => cases h' with | hole h' => rw [ih h']
  | star _ ih =>
    cases h' with
    | star h' => rw [ih h']
    | char hPlain => exact absurd hPlain (by decide)
  | char hPlain _ ih =>
    cases h' with
    | star => exact absurd hPlain (by decide)
    | char _ h' => rw [ih h']
    | pair => exact absurd hPlain (by decide)
  | pair hHigh hLow _ ih =>
    cases h' with
    | char hPlain => exact absurd hPlain (by decide)
    | pair hHigh' hLow' h' =>
      cases hHigh.symm.trans hHigh'
      cases hLow.symm.trans hLow'
      rw [ih h']

theorem hexValue_ne_close {c : Char} {n : Nat} (h : hexValue c = some n) : c ≠ ')' := by
  rintro rfl
  cases h

theorem Value.close_not_mem {ps : List Piece} {t : Template} (h : Value ps t) : some ')' ∉ t := by
  induction h with
  | nil => exact List.not_mem_nil
  | hole _ ih => simpa using ih
  | star _ ih => simpa using ih
  | @char _ _ c hPlain _ ih =>
    have hClose : c ≠ ')' := by
      rintro rfl
      exact absurd hPlain (by decide)
    simpa [hClose.symm] using ih
  | pair hHigh hLow _ ih =>
    simpa [(hexValue_ne_close hHigh).symm, (hexValue_ne_close hLow).symm] using ih

theorem AttrChar.ne {c d : Char} (h : AttrChar c) (hd : ¬AttrChar d) : c ≠ d := by
  rintro rfl
  exact hd h

instance : DecidablePred AttrChar := fun c => by unfold AttrChar; infer_instance

theorem Attr.ne {attr : List Char} {op : Op} (h : Attr attr op) {c : Char} (hc : c ∈ attr) {d : Char}
    (hd : ¬AttrChar d) (hColon : d ≠ ':') : c ≠ d := by
  obtain hAttr | ⟨-, rfl⟩ := h.2 c hc
  · exact hAttr.ne hd
  · exact hColon.symm

theorem Attr.not_mem_name {attr : List Char} {op : Op} (h : Attr attr op) :
    '=' ∉ attr ++ op.mark ∧ ')' ∉ attr ++ op.mark := by
  have hMark : '=' ∉ op.mark ∧ ')' ∉ op.mark := by cases op <;> decide
  constructor
  · rw [List.mem_append, not_or]
    exact ⟨fun hc => h.ne hc (by decide) (by decide) rfl, hMark.1⟩
  · rw [List.mem_append, not_or]
    exact ⟨fun hc => h.ne hc (by decide) (by decide) rfl, hMark.2⟩

theorem Attr.mark_getLast {attr : List Char} {op : Op} (h : Attr attr op) :
    (op = .equal ∧ ∃ c, (attr ++ op.mark).getLast? = some c ∧ AttrChar c) ∨
      (op ≠ .equal ∧ (attr ++ op.mark).getLast? = op.mark.head?) := by
  cases op with
  | equal =>
    left
    obtain ⟨init, c, hInit⟩ := List.eq_nil_or_concat attr |>.resolve_left h.1
    refine ⟨rfl, c, by simp [Op.mark, hInit], ?_⟩
    obtain hAttr | ⟨hOp, -⟩ := h.2 c (by simp [hInit])
    · exact hAttr
    · cases hOp
  | _ => exact .inr ⟨nofun, by simp [Op.mark]⟩

theorem Attr.unique {attr attr' : List Char} {op op' : Op} (h : Attr attr op) (h' : Attr attr' op')
    (hName : attr ++ op.mark = attr' ++ op'.mark) : attr = attr' ∧ op = op' := by
  have hOp : op = op' := by
    obtain ⟨rfl, c, hLast, hc⟩ | ⟨hNot, hLast⟩ := h.mark_getLast <;>
      obtain ⟨rfl, c', hLast', hc'⟩ | ⟨hNot', hLast'⟩ := h'.mark_getLast
    · rfl
    · rw [hName, hLast'] at hLast
      cases op' with
      | equal => exact absurd rfl hNot'
      | _ =>
        cases hLast
        exact absurd hc (by decide)
    · rw [hName, hLast'] at hLast
      cases op with
      | equal => exact absurd rfl hNot
      | _ =>
        cases hLast
        exact absurd hc' (by decide)
    · rw [hName, hLast'] at hLast
      cases op <;> cases op' <;> simp_all [Op.mark]
  subst hOp
  exact ⟨List.append_cancel_right hName, rfl⟩

theorem Attr.ne_compound {attr : List Char} {op : Op} (h : Attr attr op) {c : Char}
    (hc : ¬AttrChar c) (hColon : c ≠ ':') {t u : Template} :
    some '(' :: ((attr ++ op.mark).map some ++ t) ≠ some '(' :: some c :: u := by
  intro hSame
  obtain ⟨a, as, rfl⟩ := List.exists_cons_of_ne_nil h.1
  have hHead : a = c := Option.some.inj (List.cons.inj (List.cons.inj hSame).2).1
  exact h.ne List.mem_cons_self hc hColon hHead

theorem Seq.unique {fs gs : List LdapFilter} {t u v : Template} (h : Seq fs t u) (h' : Seq gs t v)
    (hu : u.head? ≠ some (some '(')) (hv : v.head? ≠ some (some '(')) : fs = gs ∧ u = v := by
  induction h generalizing gs v with
  | nil =>
    cases h' with
    | nil => exact ⟨rfl, rfl⟩
    | item _ _ h => exact absurd (by rw [h]; rfl) hu
    | not => exact absurd rfl hu
    | and => exact absurd rfl hu
    | or => exact absurd rfl hu
  | @item attr op value fs tv t u w hAttr hValue hText _ ih =>
    cases h' with
    | nil => exact absurd (by rw [hText]; rfl) hv
    | @item attr' op' value' fs' tv' _ u' _ hAttr' hValue' hText' hRest' =>
      rw [hText'] at hText
      have hText := (List.cons.inj hText).2
      have hMem : ∀ {attr : List Char} {op : Op}, Attr attr op →
          some '=' ∉ (attr ++ op.mark).map some := by
        intro attr op h hIn
        obtain ⟨c, hc, hSame⟩ := List.mem_map.mp hIn
        cases hSame
        exact h.not_mem_name.1 hc
      obtain ⟨hName, hBehind⟩ := Text.append_cons_inj_of_not_mem (hMem hAttr') (hMem hAttr) hText
      obtain ⟨hSameValue, rfl⟩ := Text.append_cons_inj_of_not_mem hValue'.close_not_mem
        hValue.close_not_mem hBehind
      obtain ⟨rfl, rfl⟩ := hAttr'.unique hAttr (List.map_injective_iff.mpr (Option.some_injective _) hName)
      rw [hSameValue] at hValue'
      rw [hValue.unique hValue']
      obtain ⟨rfl, rfl⟩ := ih hRest' hu hv
      exact ⟨rfl, rfl⟩
    | not => exact absurd hText.symm (hAttr.ne_compound (by decide) (by decide))
    | and => exact absurd hText.symm (hAttr.ne_compound (by decide) (by decide))
    | or => exact absurd hText.symm (hAttr.ne_compound (by decide) (by decide))
  | not _ _ ihBody ih =>
    cases h' with
    | nil => exact absurd rfl hv
    | item hAttr' _ hText' => exact absurd hText'.symm (hAttr'.ne_compound (by decide) (by decide))
    | not hBody' hRest' =>
      obtain ⟨hSame, hTail⟩ := ihBody hBody' (by simp) (by simp)
      cases hSame
      cases hTail
      obtain ⟨rfl, rfl⟩ := ih hRest' hu hv
      exact ⟨rfl, rfl⟩
  | and _ _ _ ihBody ih =>
    cases h' with
    | nil => exact absurd rfl hv
    | item hAttr' _ hText' => exact absurd hText'.symm (hAttr'.ne_compound (by decide) (by decide))
    | and _ hBody' hRest' =>
      obtain ⟨hSame, hTail⟩ := ihBody hBody' (by simp) (by simp)
      cases hSame
      cases hTail
      obtain ⟨rfl, rfl⟩ := ih hRest' hu hv
      exact ⟨rfl, rfl⟩
  | or _ _ _ ihBody ih =>
    cases h' with
    | nil => exact absurd rfl hv
    | item hAttr' _ hText' => exact absurd hText'.symm (hAttr'.ne_compound (by decide) (by decide))
    | or _ hBody' hRest' =>
      obtain ⟨hSame, hTail⟩ := ihBody hBody' (by simp) (by simp)
      cases hSame
      cases hTail
      obtain ⟨rfl, rfl⟩ := ih hRest' hu hv
      exact ⟨rfl, rfl⟩

theorem IsFilter.unique {f g : LdapFilter} {t : Template} (h : IsFilter f t) (h' : IsFilter g t) :
    f = g := by
  obtain ⟨hSame, -⟩ := Seq.unique h h' (by simp) (by simp)
  exact (List.cons.inj hSame).1

end LdapFilter
