import OpenRadiusWeb.Lib.LdapFilter

/-! # The search filter for a user's groups

`_get_user_ldap_groups` puts the name of the user into the stored filter by `str.replace`. The
places for a name are spelled in three ways: as in the default of the gateway's model, as in the
default of the module and of the form in the frontend, and as in the default of the database. The
module replaces the last two of them and does not escape the name.
-/

namespace OpenRadiusWeb.Radius

/-- The spellings of the place for a name. -/
inductive Placeholder
  | index
  | username
  | expansion
  deriving DecidableEq

def Placeholder.text : Placeholder → List Char
  | .index => "{0}".toList
  | .username => "{username}".toList
  | .expansion => "%{%{Stripped-User-Name}:-%{User-Name}}".toList

/-- The name without its domain. -/
def searchUser (username : String) : List Char :=
  let cs := username.toList
  if '\\' ∈ cs then (cs.dropWhile fun c => c ≠ '\\').drop 1
  else if '@' ∈ cs then ((cs.reverse.dropWhile fun c => c ≠ '@').drop 1).reverse
  else cs

/-- The stored filter, or the default of the module. -/
def filterTemplate (userSearchFilter : Option String) : List Char :=
  if userSearchFilter.getD "" = "" then "(sAMAccountName={username})".toList
  else (userSearchFilter.getD "").toList

/-- The `search_filter` that is sent. -/
def searchFilter (userSearchFilter : Option String) (username : String) : List Char :=
  Replace.replace Placeholder.username.text (searchUser username)
    (Replace.replace Placeholder.expansion.text (searchUser username) (filterTemplate userSearchFilter))

/-! ## Templates -/

inductive Sym
  | char (c : Char)
  | mark (p : Placeholder)
  deriving DecidableEq

/-- One spelling recognised in a template. -/
def recognise (p : Placeholder) (ts : List Sym) : List Sym :=
  (Replace.cut (p.text.map Sym.char) ts).map fun t => t.getD (.mark p)

/-- A template with its places for the name. -/
def symbols (template : List Char) : List Sym :=
  recognise .index (recognise .username (recognise .expansion (template.map Sym.char)))

/-- A text at each kind of place. -/
def spell (f : Placeholder → List Char) (ts : List Sym) : List Char :=
  ts.flatMap fun
    | .char c => [c]
    | .mark p => f p

/-- The places as holes of a filter. -/
def holes (ts : List Sym) : LdapFilter.Template :=
  ts.map fun
    | .char c => some c
    | .mark _ => none

@[simp] theorem spell_nil (f : Placeholder → List Char) : spell f [] = [] := rfl

@[simp] theorem spell_char (f : Placeholder → List Char) (c : Char) (ts : List Sym) :
    spell f (.char c :: ts) = c :: spell f ts := rfl

@[simp] theorem spell_mark (f : Placeholder → List Char) (p : Placeholder) (ts : List Sym) :
    spell f (.mark p :: ts) = f p ++ spell f ts := rfl

theorem spell_append (f : Placeholder → List Char) (ts us : List Sym) :
    spell f (ts ++ us) = spell f ts ++ spell f us := List.flatMap_append

theorem spell_chars (f : Placeholder → List Char) (cs : List Char) : spell f (cs.map Sym.char) = cs := by
  induction cs with
  | nil => rfl
  | cons c cs ih => rw [List.map_cons, spell_char, ih]

theorem char_injective : Function.Injective Sym.char := by
  intro c d h
  cases h
  rfl

theorem text_ne_nil (p : Placeholder) : p.text.map Sym.char ≠ [] := by cases p <;> decide

/-- Recognising a spelling does not change a text that keeps it. -/
theorem spell_recognise {f : Placeholder → List Char} {p : Placeholder} (h : f p = p.text)
    (ts : List Sym) : spell f (recognise p ts) = spell f ts := by
  have hCut := Replace.fill_cut (text_ne_nil p) ts
  conv_rhs => rw [← hCut]
  rw [recognise]
  generalize Replace.cut (p.text.map Sym.char) ts = ys
  induction ys with
  | nil => rfl
  | cons y ys ih =>
    cases y with
    | none => rw [List.map_cons, Replace.fill_none, spell_append, spell_chars, ← ih, ← h]; rfl
    | some t =>
      rw [List.map_cons, Replace.fill_some]
      cases t with
      | char c => rw [spell_char, ← ih]; rfl
      | mark q => rw [spell_mark, ← ih]; rfl

theorem spell_recognise_chars {f : Placeholder → List Char} (p : Placeholder) (cs : List Char) :
    spell f (recognise p (cs.map Sym.char)) = Replace.replace p.text (f p) cs := by
  rw [recognise, Replace.cut_map char_injective, Replace.replace]
  generalize Replace.cut p.text cs = ys
  induction ys with
  | nil => rfl
  | cons y ys ih =>
    cases y with
    | none => exact congrArg (f p ++ ·) ih
    | some c => exact congrArg (c :: ·) ih

section User

variable (user : List Char)

/-- The name at the places that the first `replace` finds. -/
def firstPass : Placeholder → List Char
  | .expansion => user
  | p => p.text

/-- The name at the places that the module knows. -/
def bothPasses : Placeholder → List Char
  | .index => Placeholder.index.text
  | _ => user

theorem replace_expansion (template : List Char) :
    Replace.replace Placeholder.expansion.text user template =
      spell (firstPass user) (symbols template) := by
  have hIndex : firstPass user .index = Placeholder.index.text := rfl
  have hUsername : firstPass user .username = Placeholder.username.text := rfl
  rw [symbols, spell_recognise hIndex, spell_recognise hUsername, spell_recognise_chars]
  rfl

/-- The text of the first pass, with the places that are still to be replaced. -/
def stillMarked (ts : List Sym) : List (Option Char) :=
  ts.flatMap fun
    | .char c => [some c]
    | .mark .username => [none]
    | .mark p => (firstPass user p).map some

theorem fill_stillMarked (v : List Char) (ts : List Sym) :
    Replace.fill v (stillMarked user ts) =
      spell (fun p => if p = .username then v else firstPass user p) ts := by
  induction ts with
  | nil => rfl
  | cons t ts ih =>
    rw [stillMarked, List.flatMap_cons, Replace.fill_append, ← stillMarked, ih]
    cases t with
    | char c => rfl
    | mark p =>
      cases p with
      | username => simp
      | index => simp
      | expansion => simp

end User

/-! ## Counting -/

/-- How often a spelling stands in the template. -/
def places (p : Placeholder) (ts : List Sym) : Nat := ts.count (.mark p)

@[simp] theorem places_char (p : Placeholder) (c : Char) (ts : List Sym) :
    places p (.char c :: ts) = places p ts := by simp [places]

@[simp] theorem places_mark (p q : Placeholder) (ts : List Sym) :
    places p (.mark q :: ts) = places p ts + if q = p then 1 else 0 := by
  simp [places, List.count_cons]

/-- What the texts at the places contribute to a measure that adds up along texts. -/
theorem spell_measure {μ : List Char → Nat} (hAppend : ∀ s t, μ (s ++ t) = μ s + μ t)
    (f : Placeholder → List Char) (ts : List Sym) :
    μ (spell f ts) = μ (spell (fun _ => []) ts) + places .index ts * μ (f .index) +
      places .username ts * μ (f .username) + places .expansion ts * μ (f .expansion) := by
  have hNil : μ [] = 0 := by
    have hTwice := hAppend [] []
    rw [List.append_nil] at hTwice
    omega
  induction ts with
  | nil => simp [places, hNil]
  | cons t ts ih =>
    cases t with
    | char c =>
      have hHead := hAppend [c] (spell f ts)
      have hHead' := hAppend [c] (spell (fun _ => []) ts)
      simp only [List.cons_append, List.nil_append] at hHead hHead'
      rw [spell_char, spell_char, hHead, hHead', ih, places_char, places_char, places_char]
      omega
    | mark p =>
      rw [spell_mark, spell_mark, hAppend, List.nil_append, ih]
      cases p <;> simp [Nat.add_mul] <;> omega

/-! ## The filter for a user -/

def placesOf (userSearchFilter : Option String) : List Sym := symbols (filterTemplate userSearchFilter)

/-- The filter is the template with the name as a literal at its places, so it has the structure
of the template and the name as its assertion value. -/
structure Searches (userSearchFilter : Option String) (username : String) : Prop where
  place : ∃ p, .mark p ∈ placesOf userSearchFilter
  literal : searchFilter userSearchFilter username =
    spell (fun _ => LdapFilter.escape (searchUser username)) (placesOf userSearchFilter)
  parsed : ∀ f, LdapFilter.IsFilter f (holes (placesOf userSearchFilter)) →
    ∀ g, LdapFilter.IsFilter g ((searchFilter userSearchFilter username).map some) ↔
      g = LdapFilter.put (Utf8.encode (searchUser username)) f

/-- Putting the name at the long spelling does not make a place where the template has none. -/
def NoNewPlace (user : List Char) (ts : List Sym) : Prop :=
  Replace.cut Placeholder.username.text (spell (firstPass user) ts) = stillMarked user ts

/-- The template has a place, none is spelled as an index, the name has no special characters and
makes no new place; a name that is itself the spelling of a place is replaced by itself. -/
structure Safe (userSearchFilter : Option String) (username : String) : Prop where
  place : ∃ p, .mark p ∈ placesOf userSearchFilter
  plain : ∀ c ∈ searchUser username, LdapFilter.Plain c
  known : .mark .index ∉ placesOf userSearchFilter ∨
    searchUser username = Placeholder.index.text
  noNewPlace : NoNewPlace (searchUser username) (placesOf userSearchFilter) ∨
    searchUser username = Placeholder.username.text

theorem spell_congr {f g : Placeholder → List Char} {ts : List Sym} (h : ∀ p, .mark p ∈ ts → f p = g p) :
    spell f ts = spell g ts := by
  induction ts with
  | nil => rfl
  | cons t ts ih =>
    have hTail := ih fun p hp => h p (List.mem_cons_of_mem _ hp)
    cases t with
    | char c => rw [spell_char, spell_char, hTail]
    | mark p => rw [spell_mark, spell_mark, hTail, h p List.mem_cons_self]

/-- Texts of the same lengths at the places are aligned. -/
theorem eq_of_spell {f g : Placeholder → List Char} (hLength : ∀ p, (f p).length = (g p).length)
    {ts : List Sym} (h : spell f ts = spell g ts) : ∀ p, .mark p ∈ ts → f p = g p := by
  induction ts with
  | nil =>
    intro p hp
    cases hp
  | cons t ts ih =>
    intro p hp
    cases t with
    | char c =>
      obtain hHead | hTail := List.mem_cons.mp hp
      · cases hHead
      · exact ih (List.cons.inj h).2 p hTail
    | mark q =>
      obtain ⟨hHere, hRest⟩ := List.append_inj h (hLength q)
      obtain hHead | hTail := List.mem_cons.mp hp
      · cases hHead
        exact hHere
      · exact ih hRest p hTail

theorem put_holes (s : List Char) (ts : List Sym) :
    LdapFilter.Template.put s (holes ts) = (spell (fun _ => s) ts).map some := by
  induction ts with
  | nil => rfl
  | cons t ts ih =>
    cases t with
    | char c => exact congrArg (some c :: ·) ih
    | mark p =>
      rw [holes, List.map_cons, LdapFilter.Template.put_none, ← holes, ih, spell_mark, List.map_append]

/-- The second pass: the places of the first are found, and perhaps new ones. -/
theorem searchFilter_finds (userSearchFilter : Option String) (username : String) : ∃ zs n,
    Replace.Finds Placeholder.username.text (stillMarked (searchUser username) (placesOf userSearchFilter))
      zs n ∧
    Replace.cut Placeholder.username.text
      (spell (firstPass (searchUser username)) (placesOf userSearchFilter)) = zs ∧
    Replace.fill Placeholder.username.text zs = Replace.fill Placeholder.username.text
      (stillMarked (searchUser username) (placesOf userSearchFilter)) ∧
    searchFilter userSearchFilter username = Replace.fill (searchUser username) zs := by
  have hFirst : spell (firstPass (searchUser username)) (placesOf userSearchFilter) =
      Replace.fill Placeholder.username.text
        (stillMarked (searchUser username) (placesOf userSearchFilter)) := by
    rw [fill_stillMarked]
    refine spell_congr fun p _ => ?_
    cases p <;> rfl
  obtain ⟨n, hFinds⟩ := Replace.finds_cut (w := Placeholder.username.text) (by decide) (by decide)
    (stillMarked (searchUser username) (placesOf userSearchFilter))
  rw [← hFirst] at hFinds
  refine ⟨_, n, hFinds, rfl, ?_, ?_⟩
  · rw [Replace.fill_cut (by decide), hFirst]
  · rw [searchFilter, replace_expansion, Replace.replace, placesOf]

theorem fill_bothPasses (user : List Char) (ts : List Sym) :
    Replace.fill user (stillMarked user ts) = spell (bothPasses user) ts := by
  rw [fill_stillMarked]
  refine spell_congr fun p _ => ?_
  cases p <;> rfl

/-! ## What a literal filter forces -/

section Forced

variable {stored : Option String} {username : String}

theorem parsed_of_literal (h : searchFilter stored username =
      spell (fun _ => LdapFilter.escape (searchUser username)) (placesOf stored)) :
    ∀ f, LdapFilter.IsFilter f (holes (placesOf stored)) →
      ∀ g, LdapFilter.IsFilter g ((searchFilter stored username).map some) ↔
        g = LdapFilter.put (Utf8.encode (searchUser username)) f := by
  intro f hFilter g
  have hPut := LdapFilter.IsFilter.put (LdapFilter.value_escape (searchUser username)) hFilter
  rw [put_holes, ← h] at hPut
  constructor
  · exact fun hg => hg.unique hPut
  · rintro rfl
    exact hPut

/-- `x`, `y` and `w` places of the three spellings, `n` new ones: no character is escaped. -/
theorem specials_eq_zero {x y w n len z b : Nat} (hPlace : 0 < w + y + x)
    (hLength : (w + y + x) * (len + 2 * z) + n * 10 = w * 3 + y * len + x * len + n * len)
    (hBack : (w + y + x) * z = y * b + x * b + n * b) (hOnly : 0 < y + x + n → z = b) : z = 0 := by
  by_contra hz
  have hPos : 0 < z := Nat.pos_of_ne_zero hz
  have hSome : 0 < y + x + n := by
    by_contra hNone
    obtain ⟨rfl, rfl, rfl⟩ : y = 0 ∧ x = 0 ∧ n = 0 := by omega
    simp only [Nat.zero_mul, Nat.add_zero] at hBack hPlace
    have hProduct := Nat.mul_pos hPlace hPos
    omega
  rw [← hOnly hSome, ← Nat.add_mul, ← Nat.add_mul] at hBack
  have hSame : w = n := by
    have hCount := Nat.eq_of_mul_eq_mul_right hPos hBack
    omega
  subst hSame
  have hProduct := Nat.mul_pos hPlace hPos
  simp only [Nat.add_mul, Nat.mul_add] at hLength hProduct
  have hDouble : ∀ a, a * (2 * z) = 2 * (a * z) := fun a => by rw [Nat.mul_left_comm]
  simp only [hDouble] at hLength
  omega

/-- Of the places that the module does not know and the new ones there is only one kind. -/
theorem none_new_or_none_unknown {y x w n len o t : Nat}
    (hLength : w * len + y * len + x * len + n * 10 = w * 3 + y * len + x * len + n * len)
    (hZero : w * o + y * o + x * o + n * 0 = w * 1 + y * o + x * o + n * o)
    (hLetter : w * t + y * t + x * t + n * 1 = w * 0 + y * t + x * t + n * t) :
    w = 0 ∨ (n = 0 ∧ 0 < w) := by
  obtain rfl | hPos := Nat.eq_zero_or_pos w
  · exact .inl rfl
  refine .inr ⟨?_, hPos⟩
  obtain hLess | rfl | hMore := Nat.lt_trichotomy n w
  · obtain ⟨k, rfl⟩ := Nat.exists_eq_add_of_le hLess.le
    simp only [Nat.add_mul] at hLetter
    omega
  · omega
  · obtain ⟨k, rfl⟩ := Nat.exists_eq_add_of_le hMore.le
    simp only [Nat.add_mul] at hZero
    omega

theorem safe_of_searches (h : Searches stored username) : Safe stored username := by
  obtain ⟨zs, n, hFinds, hCut, hKept, hSent⟩ := searchFilter_finds stored username
  set user := searchUser username with hUser
  set ts := placesOf stored with hTs
  have hText : Replace.fill user zs = spell (fun _ => LdapFilter.escape user) ts :=
    hSent.symm.trans h.literal
  -- a measure of both sides, with the places of the three spellings counted
  have hMeasure : ∀ μ : List Char → Nat, (∀ s t, μ (s ++ t) = μ s + μ t) →
      μ (Replace.fill user zs) + n * μ Placeholder.username.text =
        μ (Replace.fill user (stillMarked user ts)) + n * μ user →
      places .index ts * μ (LdapFilter.escape user) + places .username ts * μ (LdapFilter.escape user) +
          places .expansion ts * μ (LdapFilter.escape user) + n * μ Placeholder.username.text =
        places .index ts * μ Placeholder.index.text + places .username ts * μ user +
          places .expansion ts * μ user + n * μ user := by
    intro μ hAppend hBoth
    rw [hText, fill_bothPasses, spell_measure hAppend, spell_measure hAppend (bothPasses user)] at hBoth
    simp only [bothPasses] at hBoth
    omega
  have hCount : ∀ c : Char, _ := fun c => hMeasure (fun s => s.count c) (fun s t => List.count_append)
    (hFinds.count user c)
  have hLength := hMeasure List.length (fun s t => List.length_append) (hFinds.length user)
  have hPlaces : 0 < places .index ts + places .username ts + places .expansion ts := by
    obtain ⟨p, hp⟩ := h.place
    have hPos : 0 < places p ts := List.count_pos_iff.mpr hp
    cases p <;> omega
  -- the special characters
  have hOnly : 0 < places .username ts + places .expansion ts + n →
      LdapFilter.specials user = user.count '\\' := by
    intro hSome
    have hNone : ∀ d ∈ ['*', '(', ')', '\x00'], d ∉ user := by
      intro d hd
      have hd' := hCount d
      rw [LdapFilter.count_escape_special hd] at hd'
      have hOther : Placeholder.username.text.count d = 0 ∧ Placeholder.index.text.count d = 0 := by
        simp only [List.mem_cons, List.not_mem_nil, or_false] at hd
        obtain rfl | rfl | rfl | rfl := hd <;> decide
      rw [hOther.1, hOther.2] at hd'
      refine List.count_eq_zero.mp ?_
      by_contra hPos
      have hProduct := Nat.mul_pos hSome (Nat.pos_of_ne_zero hPos)
      simp only [Nat.add_mul] at hProduct
      omega
    rw [LdapFilter.specials, List.count]
    refine List.countP_congr fun c hc => ?_
    rw [decide_eq_true_eq, beq_iff_eq, LdapFilter.Plain, not_not]
    simp only [LdapFilter.special, List.mem_cons, List.not_mem_nil, or_false]
    constructor
    · rintro (rfl | rfl | rfl | rfl | rfl)
      · exact absurd hc (hNone _ (by decide))
      · exact absurd hc (hNone _ (by decide))
      · exact absurd hc (hNone _ (by decide))
      · rfl
      · exact absurd hc (hNone _ (by decide))
    · rintro rfl
      simp
  have hPlain : LdapFilter.specials user = 0 := by
    have hBack := hCount '\\'
    rw [LdapFilter.count_escape_backslash] at hBack
    have hTexts : Placeholder.username.text.count '\\' = 0 ∧ Placeholder.index.text.count '\\' = 0 := by
      decide
    rw [hTexts.1, hTexts.2] at hBack
    rw [LdapFilter.length_escape] at hLength
    have hTexts : Placeholder.username.text.length = 10 ∧ Placeholder.index.text.length = 3 := by decide
    rw [hTexts.1, hTexts.2] at hLength
    exact specials_eq_zero hPlaces (by simp only [Nat.add_mul]; omega) (by simp only [Nat.add_mul]; omega)
      hOnly
  have hSame : LdapFilter.escape user = user :=
    LdapFilter.escape_of_plain (LdapFilter.plain_of_specials hPlain)
  rw [hSame] at hLength hCount hText
  have hKinds := none_new_or_none_unknown (o := user.count '0') (t := user.count 'u') hLength (hCount '0')
    (hCount 'u')
  refine ⟨h.place, LdapFilter.plain_of_specials hPlain, ?_, ?_⟩
  · obtain hNone | ⟨rfl, hPos⟩ := hKinds
    · exact .inl (List.count_eq_zero.mp hNone)
    · right
      have hLen : user.length = 3 := by
        have hThree : Placeholder.index.text.length = 3 := by decide
        rw [hThree] at hLength
        refine Nat.eq_of_mul_eq_mul_left hPos ?_
        omega
      rw [hFinds.eq_of_zero rfl, fill_bothPasses] at hText
      refine (eq_of_spell (fun p => ?_) hText .index (List.count_pos_iff.mp hPos)).symm
      cases p
      · exact hLen.symm
      · rfl
      · rfl
  · obtain hNone | ⟨rfl, -⟩ := hKinds
    · have hBoth : Replace.fill user zs = Replace.fill user (stillMarked user ts) := by
        rw [hText, fill_bothPasses]
        refine spell_congr fun p hp => ?_
        cases p with
        | index => exact absurd hp (List.count_eq_zero.mp hNone)
        | username => rfl
        | expansion => rfl
      obtain hNoNew | hUserText := (hFinds.fill_eq_iff (by decide) hKept).mp hBoth
      · exact .inl (hCut.trans hNoNew)
      · exact .inr hUserText
    · exact .inl (hCut.trans (hFinds.eq_of_zero rfl))

theorem searches_of_safe (h : Safe stored username) : Searches stored username := by
  obtain ⟨zs, n, hFinds, hCut, hKept, hSent⟩ := searchFilter_finds stored username
  have hLiteral : searchFilter stored username =
      spell (fun _ => LdapFilter.escape (searchUser username)) (placesOf stored) := by
    have hNew : zs = stillMarked (searchUser username) (placesOf stored) ∨
        searchUser username = Placeholder.username.text :=
      h.noNewPlace.imp (fun hNo => hCut.symm.trans hNo) id
    rw [hSent, (hFinds.fill_eq_iff (by decide) hKept).mpr hNew, fill_bothPasses,
      LdapFilter.escape_of_plain h.plain]
    refine spell_congr fun p hp => ?_
    cases p with
    | index =>
      obtain hNone | hUser := h.known
      · exact absurd hp hNone
      · exact hUser.symm
    | username => rfl
    | expansion => rfl
  exact ⟨h.place, hLiteral, parsed_of_literal hLiteral⟩

/-- The filter searches for the name of the user exactly when the template and the name are safe. -/
theorem searches_iff (stored : Option String) (username : String) :
    Searches stored username ↔ Safe stored username := ⟨safe_of_searches, searches_of_safe⟩

end Forced

/-- The default of the gateway's model is sent as it is, and an asterisk matches every user. -/
theorem filters_without_name :
    (searchFilter (some "(sAMAccountName={0})") "alice" = "(sAMAccountName={0})".toList ∧
      ¬Searches (some "(sAMAccountName={0})") "alice") ∧
    (searchFilter (some "(sAMAccountName={username})") "*" = "(sAMAccountName=*)".toList ∧
      ¬Searches (some "(sAMAccountName={username})") "*") := by
  refine ⟨⟨by decide +kernel, fun h => ?_⟩, by decide +kernel, fun h => ?_⟩
  · obtain hNone | hUser := (safe_of_searches h).known
    · exact absurd hNone (by decide +kernel)
    · exact absurd hUser (by decide)
  · exact absurd ((safe_of_searches h).plain '*' (by decide)) (by decide)

end OpenRadiusWeb.Radius
