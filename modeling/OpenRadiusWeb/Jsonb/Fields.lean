import OpenRadiusWeb.Jsonb.Values
import Mathlib.Data.List.Nodup
import Mathlib.Data.List.Perm.Subperm
import Mathlib.Algebra.Order.Ring.Nat
import Mathlib.Algebra.Order.BigOperators.Group.List

/-! # An object written around texts that are put in as they are

A text with a quote in it can end its string and go on with members of its own, also with ones for
keys that come again later. What is read is still the object that was meant only if no text does:
the members that would have to be read do not fit into what is left.
-/

namespace OpenRadiusWeb.Jsonb

open OpenRadiusWeb.Policy

/-- A key, the text behind it and the value that it should have. -/
structure Field where
  key : List Char
  text : List Char
  value : Json

namespace Field

def member (f : Field) : List Char × Json := (f.key, f.value)

/-- The member that is read if the text has no character that ends or escapes it. -/
def plainMember (f : Field) : List Char × Json := (f.key, .str f.text)

/-- The field, and what is behind its closing quote. -/
def write (f : Field) (behind : List Char) : List Char :=
  '"' :: (f.key ++ '"' :: ':' :: ' ' :: '"' :: (f.text ++ '"' :: behind))

def writeRest : List Field → List Char
  | [] => ['}']
  | f :: fs => ',' :: ' ' :: f.write (writeRest fs)

/-- The key is a word, and the value is the text or is written with as many characters. -/
structure Fits (f : Field) : Prop where
  key : f.key ≠ [] ∧
    ∀ c ∈ f.key, Json.Plain c ∧ Json.isBlank c = false ∧ c ≠ ',' ∧ c ≠ '}'
  length : f.text.length ≤ Json.cost f.value
  value : f.value = .str f.text ∨ ∀ c ∈ f.text, Json.Plain c

theorem length_writeRest (fs : List Field) :
    (writeRest fs).length = (fs.map fun f => f.key.length + f.text.length + 8).sum + 1 := by
  induction fs with
  | nil => rfl
  | cons f fs ih =>
    rw [writeRest, write, List.map_cons, List.sum_cons]
    simp only [List.length_cons, List.length_append, ih]
    omega

theorem sum_memberCost_le {fs : List Field} {ms : List (List Char × Json)}
    (hKeys : (fs.map Field.key).Nodup) (h : ∀ f ∈ fs, f.member ∈ ms) :
    (fs.map fun f => Json.memberCost f.member).sum ≤ (ms.map Json.memberCost).sum := by
  have hNodup : (fs.map Field.member).Nodup := List.Nodup.of_map Prod.fst (by rwa [List.map_map])
  have hSubset : fs.map Field.member ⊆ ms := by
    intro m hm
    obtain ⟨f, hf, rfl⟩ := List.mem_map.mp hm
    exact h f hf
  obtain ⟨l, hPerm, hSublist⟩ := List.subperm_of_subset hNodup hSubset
  have hSame := (hPerm.map Json.memberCost).sum_eq
  rw [List.map_map] at hSame
  calc (fs.map fun f => Json.memberCost f.member).sum
      = (l.map Json.memberCost).sum := hSame.symm
    _ ≤ (ms.map Json.memberCost).sum := (hSublist.map Json.memberCost).sum_le_sum fun _ _ => Nat.zero_le _

/-- The key of a field is read as it was written, and then its value. -/
theorem key_of_reads {f : Field} (hf : f.Fits) {behind k t t₁ t₂ v : List Char} {x : Json}
    (ht : Json.skip t = f.write behind) (hKey : Json.Quoted k (Json.skip t) t₁)
    (hColon : Json.skip t₁ = ':' :: t₂) (h : Json.Reads .value x (Json.skip t₂) v) :
    k = f.key ∧ ∃ s, x = .str s ∧ Json.Body s (f.text ++ '"' :: behind) v := by
  rw [ht, write] at hKey
  generalize hText : '"' :: (f.key ++ _) = text at hKey
  cases hKey with
  | mk hBody =>
    rw [← (List.cons.inj hText).2] at hBody
    have hPlain : ¬∃ c ∈ f.key, ¬Json.Plain c := fun ⟨c, hc, hNot⟩ => hNot (hf.key.2 c hc).1
    obtain ⟨rfl, rfl, -⟩ | ⟨hNot, -⟩ | ⟨hNot, -⟩ := hBody.around
    · obtain rfl := (List.cons.inj hColon).2
      obtain ⟨s, rfl, hQuoted⟩ := h.of_quote
      cases hQuoted with
      | mk hValue => exact ⟨rfl, s, rfl, hValue⟩
    · exact absurd hNot hPlain
    · exact absurd hNot hPlain

theorem not_on {fs : List Field} (hfs : ∀ f ∈ fs, f.Fits) {s v : List Char}
    (h : Json.Body s (writeRest fs) v) : ∃ c ds, v = c :: ds ∧ Json.skip v = v ∧ c ≠ ',' ∧ c ≠ '}' := by
  cases fs with
  | nil =>
    obtain ⟨r, -, hNil⟩ := h.of_piece (p := ['}']) (t := []) (.plain (by decide))
    cases hNil.length_lt
  | cons f fs =>
    obtain ⟨r, -, hRest⟩ := h.of_piece (p := [',']) (.plain (by decide))
    obtain ⟨r, -, hRest⟩ := hRest.of_piece (p := [' ']) (.plain (by decide))
    obtain ⟨-, rfl⟩ := hRest.of_quote
    obtain ⟨hSome, hKey⟩ := (hfs f List.mem_cons_self).key
    obtain ⟨c, ds, hc⟩ := List.exists_cons_of_ne_nil hSome
    rw [hc] at hKey ⊢
    obtain ⟨-, hBlank, hComma, hBrace⟩ := hKey c List.mem_cons_self
    exact ⟨c, _, rfl, Json.skip_of_not_blank hBlank _, hComma, hBrace⟩

/-- The blanks behind a key are too few to make room for its member to come again. -/
def Tight : List Field → Prop
  | [] => True
  | f :: fs => 4 * fs.length < f.key.length + 6 ∧ Tight fs

theorem sum_le_memberCost {fs : List Field} (hFits : ∀ f ∈ fs, f.Fits) :
    (fs.map fun f => f.key.length + f.text.length + 8).sum ≤
      (fs.map fun f => Json.memberCost f.member).sum + 4 * fs.length := by
  induction fs with
  | nil => exact Nat.le_refl _
  | cons f fs ih =>
    obtain ⟨hHead, hTail⟩ := List.forall_mem_cons.mp hFits
    have hLength := hHead.length
    have hRest := ih hTail
    simp only [List.map_cons, List.sum_cons, List.length_cons, Json.memberCost, member] at hRest ⊢
    omega

/-- No room is left for the members of all fields behind a string that ended early. -/
theorem no_room {f : Field} {fs : List Field} (hFits : ∀ g ∈ f :: fs, g.Fits)
    (hKeys : ((f :: fs).map key).Nodup) (hTight : Tight (f :: fs)) (hText : f.value = .str f.text)
    {ms : List (List Char × Json)} (hMembers : ∀ g ∈ f :: fs, g.member ∈ ms) {v v' u : List Char}
    (hLength : v.length ≤ f.text.length + (writeRest fs).length) (hComma : Json.skip v = ',' :: v')
    (h : Json.Reads .members (.obj ms) v' u) : False := by
  have hCost := h.memberCost_le
  have hAll := sum_memberCost_le hKeys hMembers
  have hRest := sum_le_memberCost (List.forall_mem_cons.mp hFits).2
  have hBehind := hComma ▸ Json.length_skip_le v
  rw [length_writeRest] at hLength
  have hHead : Json.memberCost f.member = f.key.length + 4 + (f.text.length + 2) := by
    rw [Json.memberCost, member, hText]
    rfl
  rw [List.map_cons, List.sum_cons, hHead] at hAll
  rw [List.length_cons] at hBehind
  have hFew := hTight.1
  omega

/-- The first member that is read is the first field. -/
theorem head_of_members {f : Field} {fs : List Field} (hFits : ∀ g ∈ f :: fs, g.Fits)
    (hKeys : ((f :: fs).map key).Nodup) (hTight : Tight (f :: fs)) {ms : List (List Char × Json)}
    (hMembers : ∀ g ∈ f :: fs, g.member ∈ ms) {t u : List Char}
    (ht : Json.skip t = f.write (writeRest fs)) (h : Json.Reads .members (.obj ms) t u) :
    (∀ c ∈ f.text, Json.Plain c) ∧ ∃ ms', ms = f.plainMember :: ms' ∧
      ((ms' = [] ∧ Json.skip (writeRest fs) = '}' :: u) ∨
        ∃ v', Json.skip (writeRest fs) = ',' :: v' ∧ Json.Reads .members (.obj ms') v' u) := by
  obtain ⟨hHead, hRestFits⟩ := List.forall_mem_cons.mp hFits
  have hOther : ∀ {s : List Char}, s.length < f.text.length → f.value = .str f.text →
      ∀ {ms'}, ms = (f.key, .str s) :: ms' → ∀ g ∈ f :: fs, g.member ∈ ms' := by
    intro s hShort hValue ms' hms g hg
    rw [hms] at hMembers
    refine (List.mem_cons.mp (hMembers g hg)).resolve_left fun hSame => ?_
    obtain ⟨hKey, hString⟩ := Prod.mk.inj hSame
    have hg' : g = f := List.inj_on_of_nodup_map hKeys hg List.mem_cons_self hKey
    rw [hg', hValue] at hString
    cases hString
    exact absurd hShort (Nat.lt_irrefl _)
  cases h with
  | lastMember hKey hColon hValue hClose =>
    obtain ⟨rfl, s, rfl, hBody⟩ := key_of_reads hHead ht hKey hColon hValue
    obtain ⟨rfl, rfl, hPlain⟩ | ⟨⟨c, hc, hNot⟩, hShort, -⟩ | ⟨-, s', hOn⟩ := hBody.around
    · exact ⟨hPlain, [], rfl, .inl ⟨rfl, hClose⟩⟩
    · have hText := hHead.value.resolve_right fun hPlain => hNot (hPlain c hc)
      cases hOther hShort hText rfl f List.mem_cons_self
    · obtain ⟨c, ds, rfl, hSkip, -, hBrace⟩ := not_on hRestFits hOn
      exact absurd (List.cons.inj (hSkip.symm.trans hClose)).1 hBrace
  | member hKey hColon hValue hComma hRest =>
    obtain ⟨rfl, s, rfl, hBody⟩ := key_of_reads hHead ht hKey hColon hValue
    obtain ⟨rfl, rfl, hPlain⟩ | ⟨⟨c, hc, hNot⟩, hShort, hEarly⟩ | ⟨-, s', hOn⟩ := hBody.around
    · exact ⟨hPlain, _, rfl, .inr ⟨_, hComma, hRest⟩⟩
    · have hText := hHead.value.resolve_right fun hPlain => hNot (hPlain c hc)
      exact (no_room hFits hKeys hTight hText (hOther hShort hText rfl) hEarly hComma hRest).elim
    · obtain ⟨c, ds, rfl, hSkip, hNotComma, -⟩ := not_on hRestFits hOn
      exact absurd (List.cons.inj (hSkip.symm.trans hComma)).1 hNotComma

/-- If the members that are read have the values of all fields, no text has a character that ends or
escapes it, and the members are the fields. -/
theorem plain_of_members {f : Field} {fs : List Field} (hFits : ∀ g ∈ f :: fs, g.Fits)
    (hKeys : ((f :: fs).map key).Nodup) (hTight : Tight (f :: fs)) {ms : List (List Char × Json)}
    (hMembers : ∀ g ∈ f :: fs, g.member ∈ ms) {t u : List Char}
    (ht : Json.skip t = f.write (writeRest fs)) (h : Json.Reads .members (.obj ms) t u) :
    (∀ g ∈ f :: fs, ∀ c ∈ g.text, Json.Plain c) ∧ ms = (f :: fs).map plainMember := by
  induction fs generalizing f ms t with
  | nil =>
    obtain ⟨hPlain, ms', rfl, ⟨rfl, -⟩ | ⟨v', hComma, -⟩⟩ := head_of_members hFits hKeys hTight hMembers ht h
    · exact ⟨List.forall_mem_singleton.mpr hPlain, rfl⟩
    · exact absurd (List.cons.inj hComma).1 (by decide)
  | cons g gs ih =>
    obtain ⟨hPlain, ms', rfl, ⟨rfl, hClose⟩ | ⟨v', hComma, hRest⟩⟩ :=
      head_of_members hFits hKeys hTight hMembers ht h
    · exact absurd (List.cons.inj hClose).1 (by decide)
    · obtain rfl := (List.cons.inj hComma).2
      obtain ⟨hHeadKey, hRestKeys⟩ := List.nodup_cons.mp hKeys
      have hRestMembers : ∀ x ∈ g :: gs, x.member ∈ ms' := by
        intro x hx
        refine (List.mem_cons.mp (hMembers x (List.mem_cons_of_mem f hx))).resolve_left fun hSame => ?_
        have hKey : x.key = f.key := congrArg Prod.fst hSame
        exact hHeadKey (hKey ▸ List.mem_map_of_mem hx)
      obtain ⟨hPlains, rfl⟩ := ih (List.forall_mem_cons.mp hFits).2 hRestKeys hTight.2 hRestMembers rfl hRest
      exact ⟨List.forall_mem_cons.mpr ⟨hPlain, hPlains⟩, rfl⟩

end Field

end OpenRadiusWeb.Jsonb
