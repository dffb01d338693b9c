import OpenRadiusWeb.Lib.DistinguishedName
import OpenRadiusWeb.Radius.PostAuth
import Mathlib.Data.Nat.Find

/-! # The names of the groups

`_get_user_ldap_groups` cuts a distinguished name at its commas and takes what follows `CN=` in the
first piece that begins so. It undoes no escape. The value of a common name comes out where the
name begins with it and it is written as itself.
-/

namespace OpenRadiusWeb.GroupNames

open DistinguishedName
open Radius (cnOf Sources getUserLdapGroups)

/-! ## Pieces between commas -/

/-- The text without the blanks at its end. -/
def stripEnd (cs : List Char) : List Char := (cs.reverse.dropWhile Text.isSpace).reverse

theorem count_stripEnd {c : Char} (h : Text.isSpace c = false) (cs : List Char) :
    (stripEnd cs).count c = cs.count c := by
  have hBlanks : (cs.reverse.takeWhile Text.isSpace).count c = 0 := by
    refine List.count_eq_zero.mpr fun hMem => ?_
    rw [List.mem_takeWhile_imp hMem] at h
    cases h
  have hSplit := congrArg (List.count c) (List.takeWhile_append_dropWhile (p := Text.isSpace) (l := cs.reverse))
  rw [List.count_append, hBlanks, List.count_reverse] at hSplit
  rw [stripEnd, List.count_reverse]
  omega

theorem marks_stripEnd (cs : List Char) : marks (stripEnd cs) = marks cs := by
  rw [marks, marks, count_stripEnd (by decide), count_stripEnd (by decide)]

theorem stripEnd_prefix (cs : List Char) :
    ∃ blanks, cs = stripEnd cs ++ blanks ∧ ∀ c ∈ blanks, Text.isSpace c = true := by
  refine ⟨(cs.reverse.takeWhile Text.isSpace).reverse, ?_, fun c hc => ?_⟩
  · rw [stripEnd, ← List.reverse_append, List.takeWhile_append_dropWhile, List.reverse_reverse]
  · exact List.mem_takeWhile_imp (List.mem_reverse.mp hc)

theorem stripEnd_append_blanks {blanks : List Char} (h : ∀ c ∈ blanks, Text.isSpace c = true)
    (cs : List Char) : stripEnd (cs ++ blanks) = stripEnd cs := by
  rw [stripEnd, stripEnd, List.reverse_append, List.dropWhile_append,
    List.dropWhile_eq_nil_iff.mpr fun c hc => h c (List.mem_reverse.mp hc)]
  rfl

theorem stripEnd_append_cons {c : Char} (h : Text.isSpace c = false) (xs ys : List Char) :
    stripEnd (xs ++ c :: ys) = xs ++ c :: stripEnd ys := by
  have hReverse : (xs ++ c :: ys).reverse = ys.reverse ++ c :: xs.reverse := by simp
  rw [stripEnd, stripEnd, hReverse]
  induction ys.reverse with
  | nil => simp [h]
  | cons z zs ih =>
    rw [List.cons_append, List.dropWhile_cons, List.dropWhile_cons]
    split
    · exact ih
    · simp

theorem stripEnd_eq_self {cs : List Char} : stripEnd cs = cs ↔ ∀ c, cs.getLast? = some c → Text.isSpace c = false := by
  rw [List.getLast?_eq_head?_reverse, stripEnd]
  constructor
  · intro h c hc
    have hReverse := congrArg List.reverse h
    rw [List.reverse_reverse] at hReverse
    obtain ⟨t, ht⟩ := List.head?_eq_some_iff.mp hc
    rw [ht] at hReverse
    by_contra hSpace
    rw [Bool.not_eq_false] at hSpace
    rw [List.dropWhile_cons_of_pos hSpace] at hReverse
    have hLength := congrArg List.length hReverse
    have hLe := (List.dropWhile_sublist Text.isSpace (l := t)).length_le
    simp only [List.length_cons] at hLength
    omega
  · intro h
    cases hReverse : cs.reverse with
    | nil => simpa using hReverse.symm
    | cons c t =>
      rw [List.dropWhile_cons_of_neg (by simp [h c (by rw [hReverse]; rfl)]), ← hReverse, List.reverse_reverse]

theorem exists_cut (xs : List Char) : ∃ front tail, xs = front ++ tail ∧ ',' ∉ front ∧ Continues ',' tail := by
  by_cases h : ',' ∈ xs
  · obtain ⟨front, behind, rfl, hFront⟩ := List.eq_append_cons_of_mem h
    exact ⟨front, ',' :: behind, rfl, hFront, .inr ⟨behind, rfl⟩⟩
  · exact ⟨xs, [], (List.append_nil xs).symm, h, .inl rfl⟩

theorem splitOn_cut {f tail : List Char} (hFront : ',' ∉ f) (hTail : Continues ',' tail) :
    ∃ rest, (f ++ tail).splitOn ',' = f :: rest := by
  obtain rfl | ⟨behind, rfl⟩ := hTail
  · exact ⟨[], by rw [List.append_nil]; exact List.splitOn_eq_singleton hFront⟩
  · exact ⟨behind.splitOn ',', List.splitOn_append_cons_self_of_not_mem hFront behind⟩

theorem splitOn_pieces (text : List Char) : ∃ p ps, text.splitOn ',' = p :: ps ∧
    text = p ++ ps.flatMap (',' :: ·) := by
  obtain ⟨p, ps, hSplit⟩ := List.exists_cons_of_ne_nil (List.splitOn_ne_nil ',' text)
  refine ⟨p, ps, hSplit, ?_⟩
  rw [← intercalate_singleton_cons, ← hSplit, List.intercalate_splitOn]

/-! ## The piece that is read -/

/-- A piece between commas, without the blanks around it. -/
def stripped (piece : List Char) : List Char := (Text.strip (String.ofList piece)).toList

/-- A piece begins with `CN=`. -/
def BeginsWithCn (piece : List Char) : Prop := (piece.take 3).map Char.toUpper = "CN=".toList

instance (piece : List Char) : Decidable (BeginsWithCn piece) :=
  inferInstanceAs (Decidable (_ = _))

theorem isCn_ofList (piece : List Char) : Radius.isCn (String.ofList piece) = true ↔ BeginsWithCn piece := by
  rw [Radius.isCn, String.toList_ofList, beq_iff_eq, BeginsWithCn]

def commaPieces (text : List Char) : List (List Char) := (text.splitOn ',').map stripped

theorem cnOf_ofList (text : List Char) : cnOf (String.ofList text) =
    ((commaPieces text).find? fun p => BeginsWithCn p).map fun p => String.ofList (p.drop 3) := by
  have hPieces : (Text.split ',' (String.ofList text)).map Text.strip =
      (commaPieces text).map String.ofList := by
    rw [Text.split, String.toList_ofList, commaPieces, List.map_map, List.map_map]
    exact List.map_congr_left fun piece _ => (String.ofList_toList).symm
  rw [cnOf, hPieces, List.find?_map]
  have hTest : (Radius.isCn ∘ String.ofList) = fun p => decide (BeginsWithCn p) := by
    funext p
    rw [Bool.eq_iff_iff, decide_eq_true_eq]
    exact isCn_ofList p
  rw [hTest, Option.map_map]
  congr 1
  funext p
  rw [Function.comp_apply, String.toList_ofList]

/-! ## Where `CN=` stands -/

theorem cn_letters {type : List Char} (h : isCn type = true) :
    ∃ a b, type = [a, b] ∧ a.toUpper = 'C' ∧ b.toUpper = 'N' := by
  rw [isCn, beq_iff_eq] at h
  obtain ⟨a, t, rfl, ha, ht⟩ := List.map_eq_cons_iff.mp h
  obtain ⟨b, t, rfl, hb, ht⟩ := List.map_eq_cons_iff.mp ht
  rw [List.map_eq_nil_iff.mp ht]
  exact ⟨a, b, rfl, ha, hb⟩

theorem code_of_toUpper {a c : Char} (h : a.toUpper = c) :
    a.toNat = c.toNat ∨ (97 ≤ a.toNat ∧ a.toNat ≤ 122 ∧ a.toNat = c.toNat + 32) := by
  delta Char.toUpper at h
  split at h
  · rename_i hLower
    right
    have hNat := congrArg (fun d : Char => d.val.toNat) h
    have hShift : ('A'.val - 'a'.val).toNat = 2 ^ 32 - 32 := rfl
    have hLow : 97 ≤ a.val.toNat := hLower.1
    have hHigh : a.val.toNat ≤ 122 := hLower.2
    simp only [UInt32.toNat_add, hShift] at hNat
    have hToNat : a.toNat = a.val.toNat := rfl
    have hToNat' : c.toNat = c.val.toNat := rfl
    omega
  · exact .inl (congrArg Char.toNat h)

theorem equals_of_toUpper {a : Char} (h : a.toUpper = '=') : a = '=' := by
  have hCode : ('=').toNat = 61 := rfl
  obtain hSame | hLower := code_of_toUpper h
  · exact Char.toNat_inj.mp hSame
  · omega

/-- A letter of `CN` is no blank and no comma. -/
theorem letter_of_toUpper {a c : Char} (hc : c ∈ ['C', 'N']) (h : a.toUpper = c) :
    Text.isSpace a = false ∧ a ≠ ',' := by
  have hRange : 67 ≤ a.toNat ∧ a.toNat ≤ 110 := by
    have hCode := code_of_toUpper h
    simp only [List.mem_cons, List.not_mem_nil, or_false] at hc
    obtain rfl | rfl := hc
    · have hNat : ('C').toNat = 67 := rfl
      omega
    · have hNat : ('N').toNat = 78 := rfl
      omega
  constructor
  · simp only [Text.isSpace, Bool.or_eq_false_iff, Bool.and_eq_false_iff, decide_eq_false_iff_not,
      beq_eq_false_iff_ne]
    omega
  · rintro rfl
    exact absurd hRange.1 (by decide)

theorem begins_iff {piece : List Char} : BeginsWithCn piece ↔
    ∃ type t, piece = type ++ '=' :: t ∧ isCn type = true := by
  constructor
  · intro h
    have hLetters : (piece.take 3).map Char.toUpper = ['C', 'N', '='] := h
    obtain ⟨a, rest, hPiece, ha, hRest⟩ := List.map_eq_cons_iff.mp hLetters
    obtain ⟨b, rest, rfl, hb, hBehind⟩ := List.map_eq_cons_iff.mp hRest
    obtain ⟨d, rest, rfl, hd, hNil⟩ := List.map_eq_cons_iff.mp hBehind
    cases equals_of_toUpper hd
    refine ⟨[a, b], piece.drop 3, ?_, ?_⟩
    · have hSplit := List.take_append_drop 3 piece
      rw [hPiece, List.map_eq_nil_iff.mp hNil] at hSplit
      exact hSplit.symm
    · simp [isCn, ha, hb]
  · rintro ⟨type, t, rfl, h⟩
    obtain ⟨a, b, rfl, ha, hb⟩ := cn_letters h
    change [a.toUpper, b.toUpper, ('=').toUpper] = _
    rw [ha, hb]
    rfl

theorem dropWhile_blanks {blanks : List Char} (h : ∀ c ∈ blanks, Text.isSpace c = true) (cs : List Char) :
    (blanks ++ cs).dropWhile Text.isSpace = cs.dropWhile Text.isSpace := by
  rw [List.dropWhile_append, List.dropWhile_eq_nil_iff.mpr h]
  rfl

theorem stripped_of_cn {blanks type : List Char} (hBlanks : ∀ c ∈ blanks, Text.isSpace c = true)
    (h : isCn type = true) (t : List Char) :
    stripped (blanks ++ (type ++ '=' :: t)) = type ++ '=' :: stripEnd t := by
  obtain ⟨a, b, rfl, ha, -⟩ := cn_letters h
  rw [stripped, Text.strip, String.toList_ofList, String.toList_ofList, dropWhile_blanks hBlanks,
    List.cons_append, List.dropWhile_cons_of_neg (by simp [(letter_of_toUpper (by decide) ha).1])]
  exact stripEnd_append_cons (by decide) [a, b] t

/-- The text begins with `CN=` and goes on with `t`, blanks in front of it apart. -/
def CnAhead (text t : List Char) : Prop :=
  ∃ blanks type, text = blanks ++ (type ++ '=' :: t) ∧ (∀ c ∈ blanks, Text.isSpace c = true) ∧
    isCn type = true

theorem CnAhead.append {text t : List Char} (h : CnAhead text t) (tail : List Char) :
    CnAhead (text ++ tail) (t ++ tail) := by
  obtain ⟨blanks, type, rfl, hBlanks, hType⟩ := h
  exact ⟨blanks, type, by simp, hBlanks, hType⟩

theorem CnAhead.lead {text t : List Char} (h : CnAhead text t) :
    ∃ lead, text = lead ++ t ∧ ',' ∉ lead := by
  obtain ⟨blanks, type, rfl, hBlanks, hType⟩ := h
  refine ⟨blanks ++ (type ++ ['=']), by simp, ?_⟩
  obtain ⟨a, b, rfl, ha, hb⟩ := cn_letters hType
  have hBlank : ',' ∉ blanks := by
    intro hMem
    have hSpace := hBlanks ',' hMem
    cases hSpace
  simp [hBlank, (letter_of_toUpper (by decide) ha).2.symm, (letter_of_toUpper (by decide) hb).2.symm]

theorem CnAhead.cut {front tail t : List Char} (hFront : ',' ∉ front) (hTail : Continues ',' tail)
    (h : CnAhead (front ++ tail) t) : ∃ t', t = t' ++ tail ∧ CnAhead front t' := by
  obtain ⟨lead, hText, hLead⟩ := h.lead
  obtain ⟨t', tail', rfl, hComma, hTail'⟩ := exists_cut t
  rw [← List.append_assoc] at hText
  obtain ⟨rfl, rfl⟩ := hTail.cut hTail' hFront (by simp [hLead, hComma]) hText
  refine ⟨t', rfl, ?_⟩
  obtain ⟨blanks, type, hShape, hBlanks, hType⟩ := h
  refine ⟨blanks, type, (List.append_left_inj tail).mp ?_, hBlanks, hType⟩
  simpa using hShape

theorem begins_stripped {piece : List Char} : BeginsWithCn (stripped piece) ↔ ∃ t, CnAhead piece t := by
  constructor
  · intro h
    obtain ⟨type, t, hPiece, hType⟩ := begins_iff.mp h
    rw [stripped, Text.strip, String.toList_ofList, String.toList_ofList] at hPiece
    obtain ⟨behind, hBehind, -⟩ := stripEnd_prefix (piece.dropWhile Text.isSpace)
    have hFront : stripEnd (piece.dropWhile Text.isSpace) = type ++ '=' :: t := hPiece
    refine ⟨t ++ behind, piece.takeWhile Text.isSpace, type, ?_,
      fun c hc => List.mem_takeWhile_imp hc, hType⟩
    rw [hFront, List.append_assoc, List.cons_append] at hBehind
    rw [← hBehind, List.takeWhile_append_dropWhile]
  · rintro ⟨t, blanks, type, rfl, hBlanks, hType⟩
    rw [stripped_of_cn hBlanks hType]
    exact begins_iff.mpr ⟨type, _, rfl, hType⟩

/-- Behind a comma of the text, blanks apart, stand `CN=` and then `t`. -/
def Opens (text pre t : List Char) : Prop := ∃ behind, text = pre ++ ',' :: behind ∧ CnAhead behind t

/-- The value in front of the next comma of the text, blanks apart. -/
structure Reads (t value : List Char) : Prop where
  front : ∃ blanks tail, t = value ++ (blanks ++ tail) ∧ (∀ c ∈ blanks, Text.isSpace c = true) ∧
    Continues ',' tail
  comma : ',' ∉ value
  visible : ∀ c, value.getLast? = some c → Text.isSpace c = false


theorem Reads.iff_front {front : List Char} (hComma : ',' ∉ front) {tail : List Char}
    (hTail : Continues ',' tail) {value : List Char} :
    Reads (front ++ tail) value ↔ stripEnd front = value := by
  constructor
  · rintro ⟨⟨blanks, tail', hText, hBlanks, hTail'⟩, hValue, hVisible⟩
    have hBlankComma : ',' ∉ value ++ blanks := by
      rw [List.mem_append, not_or]
      refine ⟨hValue, fun hMem => ?_⟩
      have hSpace := hBlanks ',' hMem
      cases hSpace
    rw [← List.append_assoc] at hText
    rw [(hTail.cut hTail' hComma hBlankComma hText).1, stripEnd_append_blanks hBlanks]
    exact stripEnd_eq_self.mpr hVisible
  · rintro rfl
    obtain ⟨blanks, hFront, hBlanks⟩ := stripEnd_prefix front
    refine ⟨⟨blanks, tail, ?_, hBlanks, hTail⟩, ?_, ?_⟩
    · rw [← List.append_assoc, ← hFront]
    · intro hMem
      exact hComma (hFront ▸ List.mem_append_left _ hMem)
    · have hAgain := stripEnd_append_blanks hBlanks (stripEnd front)
      rw [← hFront] at hAgain
      exact stripEnd_eq_self.mp hAgain.symm

/-! ## The value that is read -/

/-- The stripped piece that is taken. -/
def taken (text : List Char) : Option (List Char) := (commaPieces text).find? fun p => BeginsWithCn p

theorem commaPieces_append (pre behind : List Char) :
    commaPieces (pre ++ ',' :: behind) = commaPieces pre ++ commaPieces behind := by
  rw [commaPieces, List.splitOn_append_cons_self, List.map_append]
  rfl

theorem taken_append (pre behind : List Char) :
    taken (pre ++ ',' :: behind) = (taken pre).or (taken behind) := by
  rw [taken, commaPieces_append, List.find?_append]
  rfl

/-- A text that begins with `CN=` gives what stands in front of its first comma. -/
theorem cnOf_ahead {text t : List Char} (h : CnAhead text t) :
    ∃ p value, taken text = some p ∧ p.drop 3 = value ∧ Reads t value := by
  obtain ⟨front, tail, rfl, hComma, hTail⟩ := exists_cut t
  obtain ⟨lead, rfl, hLead⟩ := h.lead
  obtain ⟨rest, hSplit⟩ := splitOn_cut (f := lead ++ front) (by simp [hLead, hComma]) hTail
  rw [List.append_assoc] at hSplit
  obtain ⟨blanks, type, hShape, hBlanks, hType⟩ := h
  have hPiece : lead ++ front = blanks ++ (type ++ '=' :: front) := by
    refine (List.append_left_inj tail).mp ?_
    simpa using hShape
  refine ⟨type ++ '=' :: stripEnd front, stripEnd front, ?_, ?_, (Reads.iff_front hComma hTail).mpr rfl⟩
  · rw [taken, commaPieces, hSplit, List.map_cons, hPiece, stripped_of_cn hBlanks hType]
    exact List.find?_cons_of_pos (by simpa using begins_iff.mpr ⟨type, _, rfl, hType⟩)
  · obtain ⟨a, b, rfl, -, -⟩ := cn_letters hType
    rfl

theorem Reads.unique {t v w : List Char} (hv : Reads t v) (hw : Reads t w) : v = w := by
  obtain ⟨front, tail, rfl, hComma, hTail⟩ := exists_cut t
  rw [Reads.iff_front hComma hTail] at hv hw
  exact hv.symm.trans hw

theorem Opens.append {text pre t : List Char} (h : Opens text pre t) (tail : List Char) :
    Opens (text ++ tail) pre (t ++ tail) := by
  obtain ⟨behind, rfl, hBehind⟩ := h
  exact ⟨behind ++ tail, by simp, hBehind.append tail⟩

/-- A text that has `CN=` neither in front nor behind a comma gives nothing. -/
theorem taken_eq_none {text : List Char} (hFront : ∀ t, ¬ CnAhead text t)
    (hOpens : ∀ pre t, ¬ Opens text pre t) : taken text = none := by
  rw [taken, List.find?_eq_none]
  intro p hp hBegins
  rw [decide_eq_true_eq] at hBegins
  obtain ⟨piece, hPiece, rfl⟩ := List.mem_map.mp hp
  obtain ⟨t, ht⟩ := begins_stripped.mp hBegins
  obtain ⟨first, pieces, hSplit, hText⟩ := splitOn_pieces text
  rw [hSplit] at hPiece
  obtain rfl | hPiece := List.mem_cons.mp hPiece
  · rw [hText] at hFront
    exact hFront _ (ht.append _)
  · obtain ⟨before, behind, rfl⟩ := List.append_of_mem hPiece
    refine hOpens (first ++ before.flatMap (',' :: ·)) (t ++ behind.flatMap (',' :: ·))
      ⟨piece ++ behind.flatMap (',' :: ·), ?_, ht.append _⟩
    rw [hText]
    simp

/-- A text that does not begin with `CN=` gives what stands behind its first other place. -/
theorem taken_eq_some {text value : List Char} (hFront : ∀ t, ¬ CnAhead text t) :
    (taken text).map (List.drop 3) = some value ↔
      ∃ pre t, Opens text pre t ∧ (∀ pre' t', ¬ Opens pre pre' t') ∧ Reads t value := by
  have hFirst : ∀ {pre t}, Opens text pre t → (∀ pre' t', ¬ Opens pre pre' t') →
      ∃ v, (taken text).map (List.drop 3) = some v ∧ Reads t v := by
    rintro pre t ⟨behind, rfl, hBehind⟩ hNone
    obtain ⟨p, v, hTaken, rfl, hReads⟩ := cnOf_ahead hBehind
    have hPre : taken pre = none := taken_eq_none (fun t' ht' => hFront _ (ht'.append _)) hNone
    rw [taken_append, hPre, Option.none_or, hTaken]
    exact ⟨_, rfl, hReads⟩
  constructor
  · intro hSome
    have hPlace : ∃ n pre t, Opens text pre t ∧ pre.length = n := by
      by_contra hNot
      rw [taken_eq_none hFront fun pre t h => hNot ⟨_, pre, t, h, rfl⟩] at hSome
      cases hSome
    classical
    obtain ⟨pre, t, hOpens, hLength⟩ := Nat.find_spec hPlace
    have hNone : ∀ pre' t', ¬ Opens pre pre' t' := by
      intro pre' t' h
      obtain ⟨behind, rfl, -⟩ := hOpens
      refine Nat.find_min hPlace ?_ ⟨pre', _, h.append (',' :: behind), rfl⟩
      obtain ⟨behind', rfl, -⟩ := h
      rw [← hLength, List.length_append, List.length_cons]
      omega
    obtain ⟨v, hTaken, hReads⟩ := hFirst hOpens hNone
    rw [hTaken] at hSome
    cases hSome
    exact ⟨pre, t, hOpens, hNone, hReads⟩
  · rintro ⟨pre, t, hOpens, hNone, hReads⟩
    obtain ⟨v, hTaken, hReads'⟩ := hFirst hOpens hNone
    rw [hTaken, hReads'.unique hReads]

/-! ## The leading part -/

theorem comma_of_read {value front : List Char} {ps : List Piece} (hWritten : Written value ps)
    (hComma : ',' ∉ front) (hRead : stripEnd front = value) : ',' ∉ textOf ps := by
  intro hMem
  have hOctet := comma_textOf hWritten.pieces hMem
  rw [hWritten.octets] at hOctet
  have hSome : 0 < value.count ',' :=
    Utf8.count_encode (c := ',') (by decide) value ▸ List.count_pos_iff.mpr hOctet
  have hCount := count_stripEnd (c := ',') (by decide) front
  rw [hRead, List.count_eq_zero.mpr hComma] at hCount
  omega

theorem raw_of_read {value behind : List Char} {ps : List Piece} (hWritten : Written value ps)
    (hRead : stripEnd (textOf ps ++ behind) = value) : ∀ p ∈ ps, p.isEscape = false := by
  have hMarks := marks_textOf hWritten.pieces
  rw [hWritten.octets, octetMarks_encode, ← hRead, marks_stripEnd, marks_append] at hMarks
  have hNone : ps.countP Piece.isEscape = 0 := by omega
  rw [List.countP_eq_zero] at hNone
  intro p hp
  exact Bool.eq_false_iff.mpr (hNone p hp)

/-- Only a value that is written as itself, alone in its part, is read as it is. -/
theorem reads_string {value : List Char} {ps : List Piece} (hWritten : Written value ps)
    {more after : List Char} (hMore : Continues '+' more) (hAfter : Continues ',' after) :
    Reads (textOf ps ++ (more ++ after)) value ↔
      more = [] ∧ (∀ p ∈ ps, p.isEscape = false) ∧ ∀ c, value.getLast? = some c → Text.isSpace c = false := by
  constructor
  · intro hReads
    obtain ⟨behind, tail, hText, hComma, hTail⟩ := exists_cut (more ++ after)
    have hFrontComma : ',' ∉ textOf ps := by
      obtain ⟨front, tail', hText', hComma', hTail'⟩ := exists_cut (textOf ps ++ (more ++ after))
      rw [hText', Reads.iff_front hComma' hTail'] at hReads
      exact comma_of_read hWritten hComma' hReads
    rw [hText, ← List.append_assoc,
      Reads.iff_front (by simp [hFrontComma, hComma]) hTail] at hReads
    have hRaw := raw_of_read hWritten hReads
    have hSame := hWritten.text_of_raw hRaw
    rw [hSame] at hReads
    have hPlus := count_stripEnd (c := '+') (by decide) (value ++ behind)
    rw [hReads, List.count_append] at hPlus
    have hAlone : more = [] := by
      obtain hNil | ⟨t, rfl⟩ := hMore
      · exact hNil
      · cases behind with
        | nil =>
          obtain rfl | ⟨t', rfl⟩ := hTail <;> cases hText
        | cons c behind =>
          cases (List.cons.inj hText).1
          rw [List.count_cons_self] at hPlus
          omega
    subst hAlone
    have hNil : behind = [] := (hAfter.cut hTail (List.not_mem_nil) hComma hText).1.symm
    rw [hNil, List.append_nil] at hReads
    exact ⟨rfl, hRaw, stripEnd_eq_self.mp hReads⟩
  · rintro ⟨rfl, hRaw, hVisible⟩
    have hText := hWritten.text_of_raw hRaw
    have hComma := comma_not_mem_raw hWritten.pieces hRaw
    rw [List.nil_append, Reads.iff_front hComma hAfter, hText]
    exact stripEnd_eq_self.mpr hVisible

theorem typeChar_visible {c : Char} (h : typeChar c = true) : Text.isSpace c = false := by
  have hCode := typeChar_code h
  simp only [Text.isSpace, Bool.or_eq_false_iff, Bool.and_eq_false_iff, decide_eq_false_iff_not,
    beq_eq_false_iff_ne]
  omega

/-- A name that begins with another type does not begin with `CN=`. -/
theorem not_ahead {a : Ava} (hValid : a.Valid) (hType : isCn a.type = false) (behind t : List Char) :
    ¬ CnAhead (a.text ++ behind) t := by
  rintro ⟨blanks, type, hText, hBlanks, hCn⟩
  obtain ⟨value, hValue⟩ := a.text_eq
  obtain ⟨hType', hChars⟩ := hValid.shape
  rw [hValue, List.append_assoc, List.cons_append] at hText
  have hNoBlank : blanks = [] := by
    cases blanks with
    | nil => rfl
    | cons b blanks =>
      obtain ⟨c, cs, hCons⟩ := List.exists_cons_of_ne_nil hType'
      rw [hCons, List.cons_append, List.cons_append] at hText
      have hHead : c = b := (List.cons.inj hText).1
      have hChar := typeChar_visible (hChars c (hCons ▸ List.mem_cons_self))
      rw [hHead, ← Bool.not_eq_true] at hChar
      exact absurd (hBlanks b List.mem_cons_self) hChar
  rw [hNoBlank, List.nil_append] at hText
  have hEquals : '=' ∉ a.type := by
    intro hMem
    have hChar := hChars '=' hMem
    cases hChar
  have hEquals' : '=' ∉ type := by
    obtain ⟨x, y, rfl, hx, hy⟩ := cn_letters hCn
    rw [List.mem_pair]
    rintro (rfl | rfl)
    · cases hx
    · cases hy
  have hSame := (Text.append_cons_inj_of_not_mem hEquals hEquals' hText).1
  rw [hSame, hCn] at hType
  cases hType

/-! ## The names that come out right -/

theorem filterMap_take_iff {α β : Type} {f g : α → Option β} (xs : List α) :
    (∀ k, (xs.take k).filterMap f = (xs.take k).filterMap g) ↔ ∀ x ∈ xs, f x = g x := by
  constructor
  · intro h
    induction xs with
    | nil => exact List.forall_mem_nil _
    | cons x xs ih =>
      have hHead : f x = g x := by
        have hOne := h 1
        simp only [List.take_succ_cons, List.take_zero, List.filterMap_cons, List.filterMap_nil] at hOne
        cases hf : f x <;> cases hg : g x <;> simp [hf, hg] at hOne <;> simp [hOne]
      refine List.forall_mem_cons.mpr ⟨hHead, ih fun k => ?_⟩
      have hMore := h (k + 1)
      rw [List.take_succ_cons, List.filterMap_cons, List.filterMap_cons, hHead] at hMore
      cases hg : g x with
      | none => simpa only [hg] using hMore
      | some y => exact (List.cons.inj (by simpa only [hg] using hMore)).2
  · intro h k
    exact List.filterMap_congr fun x hx => h x (List.mem_of_mem_take hx)

/-- The name of the group is read off such a distinguished name: its common name leads alone and is
written as itself, or the first `CN=` behind a comma says the same. A name without a common name in
its leading part has no such place. -/
inductive Legible : Name → Prop
  | alone {type value : List Char} {ps : List Piece} {rest : Name} (cn : isCn type = true)
      (raw : ∀ p ∈ ps, p.isEscape = false)
      (visible : ∀ c, value.getLast? = some c → Text.isSpace c = false) :
      Legible ([.string type value ps] :: rest)
  | behind {a : Ava} {others : List Ava} {rest : Name} {value pre t : List Char}
      (other : isCn a.type = false) (cn : Name.leadingCn ((a :: others) :: rest) = some value)
      (opens : Opens (Name.text ((a :: others) :: rest)) pre t)
      (first : ∀ pre' t', ¬ Opens pre pre' t') (reads : Reads t value) :
      Legible ((a :: others) :: rest)
  | without {name : Name} (none : name.leadingCn = none) (opens : ∀ pre t, ¬ Opens name.text pre t) :
      Legible name

theorem cnOf_eq (text : List Char) :
    cnOf (String.ofList text) = ((taken text).map (List.drop 3)).map String.ofList := by
  rw [cnOf_ofList, taken, Option.map_map]
  rfl

theorem taken_none_iff {text : List Char} (hFront : ∀ t, ¬ CnAhead text t) :
    taken text = none ↔ ∀ pre t, ¬ Opens text pre t := by
  refine ⟨?_, taken_eq_none hFront⟩
  rintro hNone pre t ⟨behind, rfl, hBehind⟩
  obtain ⟨p, value, hTaken, -, -⟩ := cnOf_ahead hBehind
  rw [taken_append, hTaken, Option.or_eq_none_iff] at hNone
  cases hNone.2

theorem leadingCn_string {type value : List Char} {ps : List Piece} (hType : isCn type = true)
    (others : List Ava) (rest : Name) :
    Name.leadingCn ((.string type value ps :: others) :: rest) = some value := by
  simp [Name.leadingCn, Ava.cn?, hType]

/-- A name that leads with its common name. -/
theorem taken_string_iff {type value : List Char} {ps : List Piece} (hType : isCn type = true)
    (hWritten : Written value ps) (others : List Ava) (rest : Name) :
    (taken (Name.text ((.string type value ps :: others) :: rest))).map (List.drop 3) = some value ↔
      Legible ((.string type value ps :: others) :: rest) := by
  have hText : Name.text ((.string type value ps :: others) :: rest) =
      type ++ '=' :: (textOf ps ++ ((others.flatMap fun b => '+' :: b.text) ++
        rest.flatMap fun q => ',' :: partText q)) := by
    rw [Name.text_cons, partText_cons, Ava.text]
    simp
  obtain ⟨p, v, hTaken, rfl, hReads⟩ := cnOf_ahead ⟨[], type, hText, List.forall_mem_nil _, hType⟩
  have hShape := reads_string hWritten (continues_flatMap '+' Ava.text others)
    (continues_flatMap ',' partText rest)
  rw [hTaken, Option.map_some, Option.some_inj]
  constructor
  · rintro rfl
    obtain ⟨hMore, hRaw, hVisible⟩ := hShape.mp hReads
    cases others with
    | nil => exact .alone hType hRaw hVisible
    | cons b others => cases hMore
  · intro hLegible
    have hValue : Reads (textOf ps ++ ((others.flatMap fun b => '+' :: b.text) ++
        rest.flatMap fun q => ',' :: partText q)) value := by
      refine hShape.mpr ?_
      cases hLegible with
      | alone _ hRaw hVisible => exact ⟨rfl, hRaw, hVisible⟩
      | behind hOther => exact absurd hType (Bool.eq_false_iff.mp hOther)
      | without hNone =>
        rw [leadingCn_string hType] at hNone
        cases hNone
    exact hReads.unique hValue

/-- A name that leads with another attribute. -/
theorem taken_other_iff {a : Ava} (hValid : a.Valid) (hType : isCn a.type = false) (others : List Ava)
    (rest : Name) : (taken (Name.text ((a :: others) :: rest))).map (List.drop 3) =
      Name.leadingCn ((a :: others) :: rest) ↔ Legible ((a :: others) :: rest) := by
  have hFront : ∀ t, ¬ CnAhead (Name.text ((a :: others) :: rest)) t := by
    intro t
    rw [Name.text_cons, partText_cons, List.append_assoc]
    exact not_ahead hValid hType _ t
  cases hCn : Name.leadingCn ((a :: others) :: rest) with
  | none =>
    rw [Option.map_eq_none_iff, taken_none_iff hFront]
    refine ⟨fun hOpens => .without hCn hOpens, fun hLegible => ?_⟩
    cases hLegible with
    | alone hLead => exact absurd hLead (Bool.eq_false_iff.mp hType)
    | behind _ hSome =>
      rw [hSome] at hCn
      cases hCn
    | without _ hOpens => exact hOpens
  | some value =>
    rw [taken_eq_some hFront]
    constructor
    · rintro ⟨pre, t, hOpens, hFirst, hReads⟩
      exact .behind hType hCn hOpens hFirst hReads
    · intro hLegible
      cases hLegible with
      | alone hLead => exact absurd hLead (Bool.eq_false_iff.mp hType)
      | behind _ hSome hOpens hFirst hReads =>
        rw [hSome, Option.some_inj] at hCn
        exact ⟨_, _, hOpens, hFirst, hCn ▸ hReads⟩
      | without hNone =>
        rw [hNone] at hCn
        cases hCn

theorem cnOf_eq_iff {name : Name} (hValid : name.Valid) :
    cnOf (String.ofList name.text) = name.leadingCn.map String.ofList ↔ Legible name := by
  rw [cnOf_eq, (Option.map_injective fun _ _ => String.ofList_injective).eq_iff]
  cases name with
  | nil =>
    refine ⟨fun _ => .without rfl ?_, fun _ => rfl⟩
    rintro pre t ⟨behind, hText, -⟩
    exact absurd hText.symm (List.append_ne_nil_of_right_ne_nil pre (List.cons_ne_nil _ _))
  | cons part rest =>
    obtain ⟨hPart, hAvas⟩ := hValid part List.mem_cons_self
    cases part with
    | nil => exact absurd rfl hPart
    | cons a others =>
      have hFirst := hAvas a List.mem_cons_self
      cases hType : isCn a.type with
      | false => exact taken_other_iff hFirst hType others rest
      | true =>
        cases a with
        | encoded type digits => exact absurd hType (Bool.eq_false_iff.mp hFirst.2.1)
        | string type value ps =>
          have hCn : isCn type = true := hType
          rw [leadingCn_string hCn]
          exact taken_string_iff hCn hFirst.2 others rest

/-- What the module reads when LDAP answers with these names. -/
def groupsOf (src : Sources) (username : String) (names : List {name : Name // name.Valid}) : List String :=
  getUserLdapGroups
    { src with memberOf := fun _ => some (names.map fun name => String.ofList name.1.text) }
    (.text username)

theorem groupsOf_eq (src : Sources) (username : String) (names : List {name : Name // name.Valid}) :
    groupsOf src username names = names.filterMap fun name => cnOf (String.ofList name.1.text) := by
  rw [groupsOf, getUserLdapGroups, Option.getD_some, List.filterMap_map]
  rfl

/-- The groups are the common names, name by name, exactly if every name is legible. -/
theorem groups_iff (src : Sources) (username : String) (names : List {name : Name // name.Valid}) :
    (∀ k, groupsOf src username (names.take k) =
        (names.take k).filterMap fun name => name.1.leadingCn.map String.ofList) ↔
      ∀ name ∈ names, Legible name.1 := by
  have hSame : (∀ k, groupsOf src username (names.take k) =
        (names.take k).filterMap fun name => name.1.leadingCn.map String.ofList) ↔
      ∀ name ∈ names, cnOf (String.ofList name.1.text) = name.1.leadingCn.map String.ofList := by
    simp only [groupsOf_eq]
    exact filterMap_take_iff names
  rw [hSame]
  exact forall₂_congr fun name _ => cnOf_eq_iff name.2

/-- `CN=IT\, Staff,DC=corp`. -/
def itStaff : Name :=
  [[.string "CN".toList "IT, Staff".toList
      [.raw 'I', .raw 'T', .pair ',', .raw ' ', .raw 'S', .raw 't', .raw 'a', .raw 'f', .raw 'f']],
    [.string "DC".toList "corp".toList [.raw 'c', .raw 'o', .raw 'r', .raw 'p']]]

theorem itStaff_valid : itStaff.Valid := by
  have hStaff : Written "IT, Staff".toList
      [.raw 'I', .raw 'T', .pair ',', .raw ' ', .raw 'S', .raw 't', .raw 'a', .raw 'f', .raw 'f'] :=
    ⟨by simp [Piece.Valid, Piece.escaped, Piece.paired], rfl, by simp, by simp⟩
  have hCorp : Written "corp".toList [.raw 'c', .raw 'o', .raw 'r', .raw 'p'] :=
    ⟨by simp [Piece.Valid, Piece.escaped], rfl, by simp, by simp⟩
  have hCn : Descr "CN".toList := ⟨'C', ['N'], rfl, rfl, by decide⟩
  have hDc : Descr "DC".toList := ⟨'D', ['C'], rfl, rfl, by decide⟩
  refine List.forall_mem_cons.mpr ⟨⟨List.cons_ne_nil _ _, ?_⟩, ?_⟩
  · exact List.forall_mem_singleton.mpr ⟨.inl hCn, hStaff⟩
  · exact List.forall_mem_singleton.mpr ⟨List.cons_ne_nil _ _,
      List.forall_mem_singleton.mpr ⟨.inl hDc, hCorp⟩⟩

/-- A comma in the name of a group cuts it. -/
theorem groups_cut : ∃ src username, ∃ names : List {name : Name // name.Valid},
    groupsOf src username names ≠ names.filterMap fun name => name.1.leadingCn.map String.ofList :=
  ⟨⟨none, fun _ => none, none, fun _ => false⟩, "alice", [⟨itStaff, itStaff_valid⟩], by decide⟩

end OpenRadiusWeb.GroupNames
