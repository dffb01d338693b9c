import OpenRadiusWeb.Lib.Pattern
import OpenRadiusWeb.Lib.Text

/-! # Passwords in logged URLs

`mask_db_url` and `scrub_message` replace what one regular expression takes for the password of
a URL, in a URL or anywhere in a message. A URL is read from the left and its password ends at
the next `@`.
-/

namespace OpenRadiusWeb.DbUrlSafe

open Pattern

/-! ## The regular expression -/

def schemeChar (c : Char) : Bool := c.isAlphanum || c == '+' || c == '-' || c == '.'

/-- `[^:/?#@\\s]`. -/
def userChar (c : Char) : Bool :=
  !(c == ':' || c == '/' || c == '?' || c == '#' || c == '@' || Text.isSpace c)

/-- `[^@\\s]`. -/
def passwordChar (c : Char) : Bool := !(c == '@' || Text.isSpace c)

/-- The group `scheme`. -/
def schemeItems : List (Item Char) := [
  .one Char.isAlpha, .many schemeChar, .one (· == ':'), .one (· == '/'), .one (· == '/'),
  .one userChar, .many userChar, .one (· == ':')]

/-- The group `password`. -/
def passwordItems : List (Item Char) := [.one passwordChar, .many passwordChar]

/-- The group `at`. -/
def atItems : List (Item Char) := [.one (· == '@')]

/-- `_DB_URL_PASSWORD_RE`. -/
def dbUrlPassword : List (Item Char) := schemeItems ++ passwordItems ++ atItems

/-- What a match is replaced by: its groups `scheme` and `at`, and `***` between them. -/
def maskMatch (parts : List (List Char)) : List Char :=
  (parts.take schemeItems.length).flatten ++ ['*', '*', '*'] ++
    (parts.drop (schemeItems.length + passwordItems.length)).flatten

def substitute (text : String) : String := String.ofList (sub dbUrlPassword maskMatch text.toList)

/-- The body of both functions. -/
def replacePasswords : Option String → Option String
  | none => none
  | some text => if text = "" then some text else some (substitute text)

def maskDbUrl (url : Option String) : Option String := replacePasswords url

def scrubMessage (text : Option String) : Option String := replacePasswords text

/-! ## URLs with credentials -/

/-- `scheme://user:password@`, with a user and a password. -/
structure CredentialUrl where
  scheme : List Char
  user : List Char
  password : List Char
  scheme_head : ∃ c cs, scheme = c :: cs ∧ c.isAlpha = true ∧ ∀ c ∈ cs, schemeChar c = true
  user_some : user ≠ []
  user_plain : ∀ c ∈ user, userChar c = true
  password_some : password ≠ []
  password_plain : ∀ c ∈ password, Text.isSpace c = false

namespace CredentialUrl

variable (url : CredentialUrl)

def head : List Char := url.scheme ++ [':', '/', '/'] ++ url.user ++ [':']

def text : List Char := url.head ++ url.password ++ ['@']

def maskedText : List Char := url.head ++ ['*', '*', '*'] ++ ['@']

end CredentialUrl

/-- A URL whose password has no `@` begins with the text. -/
def BeginsUrl (cs : List Char) : Prop :=
  ∃ url : CredentialUrl, '@' ∉ url.password ∧ ∃ rest, cs = url.text ++ rest

/-- A text put together from URLs, each with the text before it, and the text after them. -/
def textOf (urls : List (List Char × CredentialUrl)) (last : List Char) : List Char :=
  urls.foldr (fun u rest => u.1 ++ (u.2.text ++ rest)) last

def maskedOf (urls : List (List Char × CredentialUrl)) (last : List Char) : List Char :=
  urls.foldr (fun u rest => u.1 ++ (u.2.maskedText ++ rest)) last

/-- No URL begins in `before`, when `rest` follows it. -/
def NoUrl (before rest : List Char) : Prop := ∀ s, s <:+ before → s ≠ [] → ¬ BeginsUrl (s ++ rest)

/-- The URLs are those met from the left, with passwords that have no `@`. -/
def MetFromLeft : List (List Char × CredentialUrl) → List Char → Prop
  | [], last => NoUrl last []
  | (before, url) :: urls, last => '@' ∉ url.password ∧ NoUrl before (url.text ++ textOf urls last) ∧
    MetFromLeft urls last

/-! ## Matches are URLs -/

theorem decided_dbUrlPassword : Decided dbUrlPassword := by
  have hScheme : ∀ c, schemeChar c = true → (c == ':') = false := by
    intro c h
    rw [beq_eq_false_iff_ne]
    rintro rfl
    revert h
    decide
  have hUser : ∀ c, userChar c = true → (c == ':') = false := by
    intro c h
    rw [beq_eq_false_iff_ne]
    rintro rfl
    revert h
    decide
  have hPassword : ∀ c, passwordChar c = true → (c == '@') = false := by
    intro c h
    rw [beq_eq_false_iff_ne]
    rintro rfl
    revert h
    decide
  exact ⟨⟨_, _, rfl, hScheme⟩, ⟨_, _, rfl, hUser⟩, ⟨_, _, rfl, hPassword⟩, trivial⟩

namespace CredentialUrl

variable (url : CredentialUrl)

/-- The parts of a URL, by the items of the regular expression. -/
def parts : List (List Char) := [
  url.scheme.take 1, url.scheme.drop 1, [':'], ['/'], ['/'], url.user.take 1, url.user.drop 1, [':'],
  url.password.take 1, url.password.drop 1, ['@']]

theorem flatten_parts : url.parts.flatten = url.text := by
  rw [text, head, ← List.take_append_drop 1 url.scheme, ← List.take_append_drop 1 url.user,
    ← List.take_append_drop 1 url.password]
  simp [parts]

end CredentialUrl

theorem fits_head {p : Char → Bool} {part : List Char} (h : part ≠ []) (hAll : ∀ c ∈ part, p c = true) :
    Fits (.one p) (part.take 1) ∧ Fits (.many p) (part.drop 1) := by
  obtain ⟨c, cs, rfl⟩ := List.exists_cons_of_ne_nil h
  rw [List.forall_mem_cons] at hAll
  exact ⟨⟨c, rfl, hAll.1⟩, hAll.2⟩

theorem passwordChar_iff {c : Char} : passwordChar c = true ↔ c ≠ '@' ∧ Text.isSpace c = false := by
  simp [passwordChar]

theorem fits_parts {url : CredentialUrl} (h : '@' ∉ url.password) :
    List.Forall₂ Fits dbUrlPassword url.parts := by
  obtain ⟨c, cs, hScheme, hAlpha, hChars⟩ := url.scheme_head
  obtain ⟨hUser, hUsers⟩ := fits_head url.user_some url.user_plain
  have hPlain : ∀ c ∈ url.password, passwordChar c = true := fun c hc =>
    passwordChar_iff.mpr ⟨fun hAt => h (hAt ▸ hc), url.password_plain c hc⟩
  obtain ⟨hPassword, hPasswords⟩ := fits_head url.password_some hPlain
  rw [CredentialUrl.parts, hScheme]
  have hOne : ∀ c : Char, Fits (.one (· == c)) [c] := fun c => ⟨c, rfl, beq_self_eq_true c⟩
  exact .cons ⟨c, rfl, hAlpha⟩ <| .cons hChars <| .cons (hOne _) <| .cons (hOne _) <| .cons (hOne _) <|
    .cons hUser <| .cons hUsers <| .cons (hOne _) <| .cons hPassword <| .cons hPasswords <|
    .cons (hOne _) .nil

theorem exists_url {parts : List (List Char)} (h : List.Forall₂ Fits dbUrlPassword parts) :
    ∃ url : CredentialUrl, '@' ∉ url.password ∧ parts = url.parts := by
  have hOne : ∀ {c : Char} {part : List Char}, Fits (.one (· == c)) part → part = [c] := by
    rintro c part ⟨d, rfl, hd⟩
    rw [beq_iff_eq.mp hd]
  obtain _ | ⟨⟨c, rfl, hAlpha⟩, h⟩ := h
  obtain _ | ⟨hChars, h⟩ := h
  obtain _ | ⟨hColon, h⟩ := h
  obtain _ | ⟨hSlash, h⟩ := h
  obtain _ | ⟨hSlash', h⟩ := h
  obtain _ | ⟨⟨u, rfl, hUser⟩, h⟩ := h
  obtain _ | ⟨hUsers, h⟩ := h
  obtain _ | ⟨hColon', h⟩ := h
  obtain _ | ⟨⟨p, rfl, hPassword⟩, h⟩ := h
  obtain _ | ⟨hPasswords, h⟩ := h
  obtain _ | ⟨hAt, h⟩ := h
  cases h
  obtain rfl := hOne hColon
  obtain rfl := hOne hSlash
  obtain rfl := hOne hSlash'
  obtain rfl := hOne hColon'
  obtain rfl := hOne hAt
  have hUserAll : ∀ x ∈ u :: _, userChar x = true := List.forall_mem_cons.mpr ⟨hUser, hUsers⟩
  have hPlain : ∀ x ∈ p :: _, passwordChar x = true := List.forall_mem_cons.mpr ⟨hPassword, hPasswords⟩
  refine ⟨⟨_, _, _, ⟨c, _, rfl, hAlpha, hChars⟩, List.cons_ne_nil u _, hUserAll,
    List.cons_ne_nil p _, fun x hx => (passwordChar_iff.mp (hPlain x hx)).2⟩, ?_, rfl⟩
  exact fun hMem => (passwordChar_iff.mp (hPlain _ hMem)).1 rfl

theorem begins_iff_url {cs : List Char} : Begins dbUrlPassword cs ↔ BeginsUrl cs := by
  constructor
  · rintro ⟨parts, rest, hMatch⟩
    obtain ⟨hFits, rfl⟩ := matchItems_sound hMatch
    obtain ⟨url, hAt, rfl⟩ := exists_url hFits
    exact ⟨url, hAt, rest, by rw [url.flatten_parts]⟩
  · rintro ⟨url, hAt, rest, rfl⟩
    rw [← url.flatten_parts]
    exact ⟨_, _, matchItems_complete decided_dbUrlPassword (fits_parts hAt) rest⟩

/-! ## The mask hides where the password was -/

/-- The parts with the password's replaced. -/
def maskParts (parts : List (List Char)) : List (List Char) :=
  parts.take schemeItems.length ++ [['*'], ['*', '*']] ++ parts.drop (schemeItems.length + passwordItems.length)

namespace CredentialUrl

/-- The URL with `***` for its password. -/
def mask (url : CredentialUrl) : CredentialUrl where
  scheme := url.scheme
  user := url.user
  password := ['*', '*', '*']
  scheme_head := url.scheme_head
  user_some := url.user_some
  user_plain := url.user_plain
  password_some := List.cons_ne_nil _ _
  password_plain := by decide

theorem not_mem_mask (url : CredentialUrl) : '@' ∉ url.mask.password := by
  change '@' ∉ ['*', '*', '*']
  decide

theorem maskParts_parts (url : CredentialUrl) : maskParts url.parts = url.mask.parts := rfl

theorem text_mask (url : CredentialUrl) : url.mask.text = url.maskedText := rfl

theorem maskMatch_parts (url : CredentialUrl) : maskMatch url.parts = url.maskedText := by
  rw [maskedText, head, ← List.take_append_drop 1 url.scheme, ← List.take_append_drop 1 url.user]
  simp [maskMatch, parts, schemeItems, passwordItems]

end CredentialUrl

section Reading

variable {url : CredentialUrl}

theorem run_password (rest : List Char) {part : List Char} (hSome : part ≠ [])
    (h : ∀ c ∈ part, passwordChar c = true) :
    run (part ++ '@' :: rest) (passwordItems ++ atItems) = .found rest ∧
      run (part ++ '@' :: rest) (passwordItems.tail ++ atItems) = .found rest := by
  have hAt : ∀ part : List Char, (∀ c ∈ part, passwordChar c = true) →
      run (part ++ '@' :: rest) (passwordItems.tail ++ atItems) = .found rest := by
    intro part h
    have hMany := run_many h ('@' :: rest) atItems
    refine hMany.trans ?_
    rw [atItems, run_many_skip (by decide), run_one (by decide), run_nil]
  obtain ⟨c, cs, rfl⟩ := List.exists_cons_of_ne_nil hSome
  refine ⟨?_, hAt _ h⟩
  rw [List.forall_mem_cons] at h
  exact (run_one h.1 _ _).trans (hAt cs h.2)

theorem run_user (rest : List Char) {part : List Char} (hSome : part ≠ []) (h : ∀ c ∈ part, userChar c = true) :
    run (part ++ ':' :: rest) (schemeItems.drop 5 ++ passwordItems ++ atItems) =
        run rest (passwordItems ++ atItems) ∧
      run (part ++ ':' :: rest) (schemeItems.drop 6 ++ passwordItems ++ atItems) =
        run rest (passwordItems ++ atItems) := by
  have hColon : ∀ part : List Char, (∀ c ∈ part, userChar c = true) →
      run (part ++ ':' :: rest) (schemeItems.drop 6 ++ passwordItems ++ atItems) =
        run rest (passwordItems ++ atItems) := by
    intro part h
    refine (run_many h (':' :: rest) _).trans ?_
    exact (run_many_skip (by decide) _ _).trans (run_one (by decide) _ _)
  obtain ⟨c, cs, rfl⟩ := List.exists_cons_of_ne_nil hSome
  refine ⟨?_, hColon _ h⟩
  rw [List.forall_mem_cons] at h
  exact (run_one h.1 _ _).trans (hColon cs h.2)

theorem schemeChar_code {c : Char} (h : schemeChar c = true) : (48 ≤ c.toNat ∧ c.toNat ≤ 57) ∨
    (65 ≤ c.toNat ∧ c.toNat ≤ 122) ∨ c.toNat = 43 ∨ c.toNat = 45 ∨ c.toNat = 46 := by
  have hUpper : ('A').toNat = 65 ∧ ('Z').toNat = 90 := ⟨rfl, rfl⟩
  have hLower : ('a').toNat = 97 ∧ ('z').toNat = 122 := ⟨rfl, rfl⟩
  have hDigit : ('0').toNat = 48 ∧ ('9').toNat = 57 := ⟨rfl, rfl⟩
  have hOrder : ∀ {d e : Char}, d.val ≤ e.val → d.toNat ≤ e.toNat := fun hLe => hLe
  have hShape : schemeChar c = ((decide (c.val ≥ 'A'.val ∧ c.val ≤ 'Z'.val) ||
      (decide (c.val ≥ 'a'.val) && decide (c.val ≤ 'z'.val)) ||
      (decide (c.val ≥ '0'.val) && decide (c.val ≤ '9'.val))) || c == '+' || c == '-' || c == '.') := rfl
  simp only [hShape, Bool.or_eq_true, Bool.and_eq_true, decide_eq_true_eq, beq_iff_eq] at h
  obtain (((((h | h) | h) | rfl) | rfl) | rfl) := h
  · have hLow := hOrder h.1
    have hHigh := hOrder h.2
    omega
  · have hLow := hOrder h.1
    have hHigh := hOrder h.2
    omega
  · have hLow := hOrder h.1
    have hHigh := hOrder h.2
    omega
  · exact .inr (.inr (.inl rfl))
  · exact .inr (.inr (.inr (.inl rfl)))
  · exact .inr (.inr (.inr (.inr rfl)))

theorem userChar_of_schemeChar {c : Char} (h : schemeChar c = true) : userChar c = true := by
  have hCode := schemeChar_code h
  have hSpace : Text.isSpace c = false := by
    simp only [Text.isSpace, Bool.or_eq_false_iff, Bool.and_eq_false_iff, decide_eq_false_iff_not,
      beq_eq_false_iff_ne]
    omega
  have hNe : ∀ d : Char, d.toNat ∈ [58, 47, 63, 35, 64] → c ≠ d := by
    rintro d hd rfl
    simp only [List.mem_cons, List.not_mem_nil, or_false] at hd
    omega
  simp [userChar, hSpace, hNe ':' (by decide), hNe '/' (by decide), hNe '?' (by decide), hNe '#' (by decide),
    hNe '@' (by decide)]

theorem passwordChar_of_userChar {c : Char} (h : userChar c = true) : passwordChar c = true := by
  simp only [userChar, Bool.not_eq_true', Bool.or_eq_false_iff, beq_eq_false_iff_ne] at h
  exact passwordChar_iff.mpr ⟨h.1.2, h.2⟩

theorem run_scheme (rest : List Char) {c : Char} {cs : List Char} (hHead : c.isAlpha = true)
    (h : ∀ c ∈ cs, schemeChar c = true) :
    run (c :: cs ++ ':' :: '/' :: '/' :: rest) dbUrlPassword =
        run rest (schemeItems.drop 5 ++ passwordItems ++ atItems) ∧
      run (c :: cs ++ ':' :: '/' :: '/' :: rest) (schemeItems.drop 1 ++ passwordItems ++ atItems) =
        run rest (schemeItems.drop 5 ++ passwordItems ++ atItems) := by
  have hMark : run (':' :: '/' :: '/' :: rest) (schemeItems.drop 1 ++ passwordItems ++ atItems) =
      run rest (schemeItems.drop 5 ++ passwordItems ++ atItems) := by
    refine (run_many_skip (by decide) _ _).trans ?_
    refine (run_one (by decide) _ _).trans ?_
    exact (run_one (by decide) _ _).trans (run_one (by decide) _ _)
  have hMany := fun (part : List Char) (hPart : ∀ c ∈ part, schemeChar c = true) =>
    (run_many hPart (':' :: '/' :: '/' :: rest)
      (schemeItems.drop 2 ++ passwordItems ++ atItems)).trans hMark
  constructor
  · exact (run_one hHead _ _).trans (hMany cs h)
  · refine hMany (c :: cs) (List.forall_mem_cons.mpr ⟨?_, h⟩)
    simp [schemeChar, Char.isAlphanum, hHead]

/-- Wherever a match is being read, it ends at a URL or fails at its first character. -/
theorem run_text (hAt : '@' ∉ url.password) {state : List (Item Char)} (h : state <:+ dbUrlPassword) :
    (∃ rest, run url.text state = .found rest) ∨
      ∃ d items, state = .one (· == d) :: items ∧ ∀ c, c.isAlpha = true → c ≠ d := by
  obtain ⟨c, cs, hScheme, hAlpha, hChars⟩ := url.scheme_head
  have hText : url.text = url.scheme ++ ':' :: '/' :: '/' :: (url.user ++ ':' :: (url.password ++ ['@'])) := by
    simp [CredentialUrl.text, CredentialUrl.head]
  have hSchemeChars : ∀ x ∈ url.scheme, schemeChar x = true := by
    rw [hScheme]
    refine List.forall_mem_cons.mpr ⟨?_, hChars⟩
    simp [schemeChar, Char.isAlphanum, hAlpha]
  have hSome : url.scheme ≠ [] := hScheme ▸ List.cons_ne_nil c cs
  have hPasswordChars : ∀ x ∈ url.password, passwordChar x = true := fun x hx =>
    passwordChar_iff.mpr ⟨fun hEq => hAt (hEq ▸ hx), url.password_plain x hx⟩
  -- what follows the scheme, read as a password
  have hTailChars : ∀ x ∈ '/' :: '/' :: (url.user ++ ':' :: url.password), passwordChar x = true := by
    simp only [List.forall_mem_cons, List.forall_mem_append]
    exact ⟨by decide, by decide, fun x hx => passwordChar_of_userChar (url.user_plain x hx), by decide,
      hPasswordChars⟩
  have hAllChars : ∀ x ∈ url.scheme ++ ':' :: '/' :: '/' :: (url.user ++ ':' :: url.password),
      passwordChar x = true := by
    rw [List.forall_mem_append]
    refine ⟨fun x hx => passwordChar_of_userChar (userChar_of_schemeChar (hSchemeChars x hx)), ?_⟩
    exact List.forall_mem_cons.mpr ⟨by decide, hTailChars⟩
  have hPassword := run_password [] url.password_some hPasswordChars
  have hUser := run_user (url.password ++ ['@']) url.user_some url.user_plain
  have hTail := run_password [] (List.cons_ne_nil _ _) hTailChars
  have hSchemeUser := run_user ('/' :: '/' :: (url.user ++ ':' :: (url.password ++ ['@']))) hSome
    fun x hx => userChar_of_schemeChar (hSchemeChars x hx)
  have hAll := run_password [] (List.append_ne_nil_of_left_ne_nil hSome _) hAllChars
  have hStart := run_scheme (url.user ++ ':' :: (url.password ++ ['@'])) hAlpha hChars
  rw [← hScheme] at hStart
  simp only [List.append_assoc, List.cons_append] at hTail hAll
  have hMark : ∀ d : Char, d.isAlpha = false → ∀ c : Char, c.isAlpha = true → c ≠ d := by
    rintro d hd c hc rfl
    rw [hd] at hc
    cases hc
  rw [hText]
  -- the states from the first item to the last, the single marks fail
  rcases List.suffix_cons_iff.mp h with rfl | h
  · exact .inl ⟨[], hStart.1.trans (hUser.1.trans hPassword.1)⟩
  rcases List.suffix_cons_iff.mp h with rfl | h
  · exact .inl ⟨[], hStart.2.trans (hUser.1.trans hPassword.1)⟩
  rcases List.suffix_cons_iff.mp h with rfl | h
  · exact .inr ⟨_, _, rfl, hMark ':' (by decide)⟩
  rcases List.suffix_cons_iff.mp h with rfl | h
  · exact .inr ⟨_, _, rfl, hMark '/' (by decide)⟩
  rcases List.suffix_cons_iff.mp h with rfl | h
  · exact .inr ⟨_, _, rfl, hMark '/' (by decide)⟩
  rcases List.suffix_cons_iff.mp h with rfl | h
  · exact .inl ⟨[], hSchemeUser.1.trans hTail.1⟩
  rcases List.suffix_cons_iff.mp h with rfl | h
  · exact .inl ⟨[], hSchemeUser.2.trans hTail.1⟩
  rcases List.suffix_cons_iff.mp h with rfl | h
  · exact .inr ⟨_, _, rfl, hMark ':' (by decide)⟩
  rcases List.suffix_cons_iff.mp h with rfl | h
  · exact .inl ⟨[], hAll.1⟩
  rcases List.suffix_cons_iff.mp h with rfl | h
  · exact .inl ⟨[], hAll.2⟩
  rcases List.suffix_cons_iff.mp h with rfl | h
  · exact .inr ⟨_, _, rfl, hMark '@' (by decide)⟩
  · obtain rfl := List.suffix_nil.mp h
    exact .inl ⟨_, run_nil _⟩

end Reading

theorem masks_parts {url : CredentialUrl} (h : '@' ∉ url.password) :
    Masks dbUrlPassword url.parts.flatten url.mask.parts.flatten := by
  intro state hState
  rw [url.flatten_parts, url.mask.flatten_parts]
  rcases run_text h hState with hFound | ⟨d, items, rfl, hFirst⟩
  · exact .inl hFound
  · obtain ⟨c, cs, hScheme, hAlpha, -⟩ := url.scheme_head
    refine .inr ?_
    rw [url.text_mask, CredentialUrl.maskedText, CredentialUrl.head, hScheme]
    exact run_one_of_not (beq_eq_false_iff_ne.mpr (hFirst c hAlpha)) _ _

theorem masking : Masking dbUrlPassword maskMatch maskParts where
  decided := decided_dbUrlPassword
  some parts h := by
    obtain ⟨url, -, rfl⟩ := exists_url h
    rw [url.flatten_parts, CredentialUrl.text]
    simp
  repl parts h := by
    obtain ⟨url, -, rfl⟩ := exists_url h
    rw [url.maskMatch_parts, url.maskParts_parts, url.mask.flatten_parts, url.text_mask]
  fits parts h := by
    obtain ⟨url, -, rfl⟩ := exists_url h
    exact fits_parts url.not_mem_mask
  masks parts h := by
    obtain ⟨url, hAt, rfl⟩ := exists_url h
    exact masks_parts hAt
  twice parts h := by
    obtain ⟨url, -, rfl⟩ := exists_url h
    rfl

/-! ## What both functions do -/

/-- A text is left alone the second time and where it has no URL, and of the URLs met from the
left the whole passwords are replaced and nothing else. -/
structure HidesPasswords (f : Option String → Option String) : Prop where
  idempotent : ∀ text, f (f text) = f text
  unchanged : ∀ text, (∀ t ∈ text, ∀ s, s <:+ t.toList → ¬ BeginsUrl s) → f text = text
  masked : ∀ urls last, MetFromLeft urls last →
    f (some (String.ofList (textOf urls last))) = some (String.ofList (maskedOf urls last))

theorem substitute_empty : substitute "" = "" := rfl

theorem replacePasswords_some (text : String) : replacePasswords (some text) = some (substitute text) := by
  rw [replacePasswords]
  split
  · rename_i hEmpty
    rw [hEmpty, substitute_empty]
  · rfl

theorem quiet_iff_noUrl {before rest : List Char} : Quiet dbUrlPassword before rest ↔ NoUrl before rest := by
  constructor
  · exact fun h s hs hSome hUrl => h s hs hSome (begins_iff_url.mpr hUrl)
  · exact fun h s hs hSome hBegins => h s hs hSome (begins_iff_url.mp hBegins)

def occurrenceOf (u : List Char × CredentialUrl) : Occurrence Char := ⟨u.1, u.2.parts⟩

theorem written_occurrences (urls : List (List Char × CredentialUrl)) (last : List Char) :
    written (urls.map occurrenceOf) last = textOf urls last := by
  induction urls with
  | nil => rfl
  | cons u urls ih =>
    simp only [written, textOf, List.map_cons, List.foldr_cons, occurrenceOf] at ih ⊢
    rw [ih, u.2.flatten_parts]

theorem replaced_occurrences (urls : List (List Char × CredentialUrl)) (last : List Char) :
    replaced maskMatch (urls.map occurrenceOf) last = maskedOf urls last := by
  induction urls with
  | nil => rfl
  | cons u urls ih =>
    simp only [replaced, maskedOf, List.map_cons, List.foldr_cons, occurrenceOf] at ih ⊢
    rw [ih, u.2.maskMatch_parts]

theorem reads_of_metFromLeft {urls : List (List Char × CredentialUrl)} {last : List Char}
    (h : MetFromLeft urls last) : Reads dbUrlPassword (urls.map occurrenceOf) last := by
  induction urls with
  | nil => exact quiet_iff_noUrl.mpr h
  | cons u urls ih =>
    obtain ⟨hAt, hBefore, hRest⟩ := h
    refine ⟨fits_parts hAt, ?_, ih hRest⟩
    rw [written_occurrences, occurrenceOf, u.2.flatten_parts]
    exact quiet_iff_noUrl.mpr hBefore

theorem exists_metFromLeft (cs : List Char) : ∃ urls last, MetFromLeft urls last ∧ textOf urls last = cs := by
  obtain ⟨occurrences, last, hReads, rfl⟩ := exists_reads masking.some cs
  induction occurrences with
  | nil => exact ⟨[], last, quiet_iff_noUrl.mp hReads, rfl⟩
  | cons o occurrences ih =>
    obtain ⟨hParts, hQuiet, hRest⟩ := hReads
    obtain ⟨urls, last', hMet, hText⟩ := ih hRest
    obtain ⟨url, hAt, hUrl⟩ := exists_url hParts
    rw [hUrl, url.flatten_parts, ← hText] at hQuiet
    refine ⟨(o.before, url) :: urls, last', ⟨hAt, quiet_iff_noUrl.mp hQuiet, hMet⟩, ?_⟩
    simp only [textOf, written, List.foldr_cons] at hText ⊢
    rw [hText, hUrl, url.flatten_parts]

theorem hidesPasswords_replacePasswords : HidesPasswords replacePasswords where
  idempotent text := by
    cases text with
    | none => rfl
    | some text =>
      rw [replacePasswords_some, replacePasswords_some, substitute, substitute, String.toList_ofList,
        masking.sub_sub]
  unchanged text h := by
    cases text with
    | none => rfl
    | some text =>
      have hReads : Reads dbUrlPassword [] text.toList := by
        refine quiet_iff_noUrl.mpr fun s hs _ => ?_
        rw [List.append_nil]
        exact h text rfl s hs
      have hSame : sub dbUrlPassword maskMatch text.toList = text.toList :=
        sub_written masking.decided masking.some hReads
      rw [replacePasswords_some, substitute, hSame, String.ofList_toList]
  masked urls last h := by
    rw [replacePasswords_some, substitute, String.toList_ofList, ← written_occurrences,
      sub_written masking.decided masking.some (reads_of_metFromLeft h), replaced_occurrences]

theorem mask_and_scrub : HidesPasswords maskDbUrl ∧ HidesPasswords scrubMessage :=
  ⟨hidesPasswords_replacePasswords, hidesPasswords_replacePasswords⟩

/-! ## A password with a mark of its own, and a URL behind another scheme -/

def sampleUrl : CredentialUrl where
  scheme := "ldap".toList
  user := "u".toList
  password := "p@ss".toList
  scheme_head := ⟨'l', "dap".toList, by decide, by decide, by decide⟩
  user_some := by decide
  user_plain := by decide
  password_some := by decide
  password_plain := by decide

/-- The password `p@ss` is masked up to its mark only, and a URL behind another scheme is taken
for the password of a user `http`. -/
theorem password_left :
    (maskDbUrl (some "ldap://u:p@ss@h") = some "ldap://u:***@ss@h" ∧
      maskDbUrl (some "https://http://u:p@h") = some "https://http:***@h") ∧
    ¬ ∀ urls last, maskDbUrl (some (String.ofList (textOf urls last))) =
      some (String.ofList (maskedOf urls last)) := by
  refine ⟨⟨by decide +kernel, by decide +kernel⟩, fun h => ?_⟩
  have hSample := h [([], sampleUrl)] "h".toList
  revert hSample
  decide +kernel

end OpenRadiusWeb.DbUrlSafe
