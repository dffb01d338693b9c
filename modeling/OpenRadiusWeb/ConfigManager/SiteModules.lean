import OpenRadiusWeb.ConfigManager.SiteTemplates

/-! # The modules that the sites call

`generate_all_configs` passes to the site templates which modules it generated, so that a site refers
to no module that is missing. The calls are read off the text of a site, the declarations off the
texts of the module files.
-/

namespace OpenRadiusWeb.BareTexts

open ConfigManager Statements

/-! ## Calls and declarations -/

/-- The sections of a virtual server in which modules are called. -/
def processing : List Word :=
  ["authorize", "authenticate", "post-auth", "pre-proxy", "post-proxy", "accounting"].map String.toList

def isProcessing (heading : Heading) : Bool := processing.any fun name => heading == [name]

def within (stack : List Heading) : Bool := stack.any isProcessing

/-- A word alone calls a module, and so does the heading of a section of one word, but for `update`. -/
def called (stack : List Heading) : Statement → List Word
  | .item [name] => if within stack then [name] else []
  | .opens [name] => if within stack && name != "update".toList then [name] else []
  | _ => []

/-- The modules that the package and its policies come with. -/
def stock : List Word :=
  ["preprocess", "expiration", "logintime", "pap", "mschap", "detail", "filter_username", "suffix",
    "attr_filter.access_reject", "attr_filter.accounting_response"].map String.toList

/-- `&Auth-Type := name`. -/
def authTypeSet (_ : List Heading) : Statement → List Word
  | .item [attr, sign, name] => if attr = "&Auth-Type".toList ∧ sign = ":=".toList then [name] else []
  | _ => []

/-- A section of `authenticate` for an `Auth-Type`. -/
def authTypeDefined (stack : List Heading) : Statement → List Word
  | .opens [kind, name] =>
    if kind = "Auth-Type".toList ∧ stack.head? = some ["authenticate".toList] then [name] else []
  | _ => []

/-- The module that an unindented heading declares: `kind name`, or `kind` alone. -/
def declaredBy (line : List Char) : List Word :=
  if (line.head?.map blank).getD true then []
  else match classify (uncommented (words line)) with
    | some (.opens ws) => ws.getLast?.toList
    | _ => []

def declares (text : String) : List Word := (text.toList.splitOn '\n').flatMap declaredBy

/-! ## The calls of the sites -/

section Calls

variable {stack : List Heading} {a b c d : Word} {ws : List Word} {n : Nat} {text : String}
  {parts : List Passage}

@[simp] theorem called_closes : called stack .closes = [] := rfl

@[simp] theorem called_item_one : called stack (.item [a]) = if within stack then [a] else [] := rfl

@[simp] theorem called_item_more : called stack (.item (a :: b :: ws)) = [] := rfl

@[simp] theorem called_opens_one :
    called stack (.opens [a]) = if within stack && a != "update".toList then [a] else [] := rfl

@[simp] theorem called_opens_more : called stack (.opens (a :: b :: ws)) = [] := rfl

@[simp] theorem within_nil : within [] = false := rfl

@[simp] theorem within_cons (heading : Heading) :
    within (heading :: stack) = (isProcessing heading || within stack) := rfl

@[simp] theorem isProcessing_more : isProcessing (a :: b :: ws) = false := by
  simp [isProcessing, processing]

section Scan

variable {α : Type} {f : List Heading → Statement → List α}

@[simp] theorem scan_note : (note n text).scan f stack = [] := rfl

@[simp] theorem scan_boxed (texts : List String) : (boxed n texts).scan f stack = [] := by
  simp [boxed, List.flatMap_map]

@[simp] theorem scan_encl (heading : List String) : (encl n heading parts).scan f stack =
    f stack (.opens (heading.map String.toList)) ++
      (parts.flatMap (Passage.scan f (heading.map String.toList :: stack)) ++
        f (heading.map String.toList :: stack) .closes) := Passage.scan_enclosed _

@[simp] theorem scan_onlyIf (condition : Bool) : (onlyIf condition parts).scan f stack =
    if condition then parts.flatMap (Passage.scan f stack) else [] := by
  rw [onlyIf, Passage.scan_all]
  cases condition <;> rfl

@[simp] theorem scan_forEach {β : Type} (xs : List β) (g : β → List Passage) :
    (forEach xs g).scan f stack = xs.flatMap fun x => (g x).flatMap (Passage.scan f stack) := by
  simp [forEach, List.flatMap_map]

@[simp] theorem scan_page (titles heading : List String) : (page titles heading parts).scan f stack =
    (encl 0 heading parts).scan f stack := by
  simp [page, List.flatMap_map]

end Scan

end Calls

section Sites

variable (hasEap : Bool) (vars : SiteVars)

/-- The modules a site may call. -/
def Offered (vars : SiteVars) (hasEap : Bool) (name : Word) : Prop :=
  name ∈ stock ∨ hasEap = true ∧ name = "eap".toList ∨ vars.hasPython = true ∧ name = "orw".toList ∨
    ∃ ldapMod ∈ vars.ldapModules, name = ldapMod.moduleName.toList

section Members

variable {stack : List Heading} {name : Word} (h : within stack = false)
include h

theorem scan_listenLines (kind : String) : (listenLines kind).scan called stack = [] := by
  simp [-String.reduceToList, String.toList_inj, listenLines, sets, isProcessing, processing, h]

theorem mem_defaultAuthorize : name ∈ (defaultAuthorize hasEap vars).scan called stack ↔
    vars.realmsEnabled = true ∧ (name = "filter_username".toList ∨ name = "suffix".toList) ∨
      name = "preprocess".toList ∨ hasEap = true ∧ name = "eap".toList ∨
      (∃ ldapMod ∈ vars.ldapModules, name = ldapMod.moduleName.toList) ∨
      vars.hasPython = true ∧ name = "orw".toList ∨ name = "expiration".toList ∨
      name = "logintime".toList ∨ name = "pap".toList := by
  simp [-String.reduceToList, String.toList_inj, defaultAuthorize, sets, invokes, bindIfPassword,
    assigns, isProcessing, processing, h]

theorem mem_defaultAuthenticate : name ∈ (defaultAuthenticate hasEap vars).scan called stack ↔
    hasEap = true ∧ name = "eap".toList ∨
      (∃ ldapMod ∈ vars.ldapModules, name = ldapMod.moduleName.toList) ∨
      name = "pap".toList ∨ name = "mschap".toList := by
  simp [-String.reduceToList, defaultAuthenticate, invokes, bindSection, isProcessing, processing, h]

theorem mem_defaultPostAuth : name ∈ (defaultPostAuth vars).scan called stack ↔
    vars.hasPython = true ∧ name = "orw".toList ∨ name = "attr_filter.access_reject".toList := by
  simp [-String.reduceToList, defaultPostAuth, defaultReject, marksResult, copiesState, merges,
    invokes, assigns, isProcessing, processing, h]

theorem mem_defaultProxy : name ∈ (defaultProxy hasEap vars).scan called stack ↔
    vars.realmsEnabled = true ∧ hasEap = true ∧ name = "eap".toList := by
  simp [-String.reduceToList, defaultProxy, invokes, isProcessing, processing, h]

theorem mem_defaultAccounting : name ∈ (defaultAccounting vars).scan called stack ↔
    vars.hasPython = true ∧ name = "orw".toList ∨ name = "detail".toList ∨
      (∃ ldapMod ∈ vars.ldapModules, name = ldapMod.moduleName.toList) ∨
      name = "attr_filter.accounting_response".toList := by
  simp [-String.reduceToList, defaultAccounting, invokes, isProcessing, processing, h]

theorem mem_innerAuthorize : name ∈ (innerAuthorize vars).scan called stack ↔
    vars.realmsEnabled = true ∧ (name = "filter_username".toList ∨ name = "suffix".toList) ∨
      name = "eap".toList ∨ (∃ ldapMod ∈ vars.ldapModules, name = ldapMod.moduleName.toList) ∨
      name = "mschap".toList ∨ name = "pap".toList ∨ vars.hasPython = true ∧ name = "orw".toList := by
  simp [-String.reduceToList, String.toList_inj, innerAuthorize, sets, invokes, bindIfPassword,
    assigns, isProcessing, processing, h]

theorem mem_innerAuthenticate : name ∈ (innerAuthenticate vars).scan called stack ↔
    name = "eap".toList ∨ name = "mschap".toList ∨ name = "pap".toList ∨
      ∃ ldapMod ∈ vars.ldapModules, name = ldapMod.moduleName.toList := by
  simp [-String.reduceToList, innerAuthenticate, invokes, bindSection, isProcessing, processing, h]

theorem mem_innerPostAuth : name ∈ (innerPostAuth vars).scan called stack ↔
    vars.hasPython = true ∧ name = "orw".toList ∨ name = "attr_filter.access_reject".toList := by
  simp [-String.reduceToList, innerPostAuth, innerReject, marksResult, copiesState, merges, invokes,
    assigns, isProcessing, processing, h]

theorem mem_innerProxy : name ∈ (innerProxy vars).scan called stack ↔
    vars.realmsEnabled = true ∧ name = "eap".toList := by
  simp [-String.reduceToList, innerProxy, invokes, isProcessing, processing, h]

end Members

variable {hasEap vars} {name : Word}

/-- The default site calls the modules that it is told of, and none besides but stock ones. -/
theorem mem_siteDefault_calls : name ∈ (siteDefaultLines hasEap vars).scan called [] ∨ name ∈ stock ↔
    Offered vars hasEap name := by
  have hOutside : within [["server", "default"].map String.toList] = false := by simp
  have hScan : (siteDefaultLines hasEap vars).scan called [] =
      (defaultAuthorize hasEap vars).scan called [["server", "default"].map String.toList] ++
        ((defaultAuthenticate hasEap vars).scan called [["server", "default"].map String.toList] ++
          ((defaultPostAuth vars).scan called [["server", "default"].map String.toList] ++
            ((defaultProxy hasEap vars).scan called [["server", "default"].map String.toList] ++
              (defaultAccounting vars).scan called [["server", "default"].map String.toList]))) := by
    simp only [siteDefaultLines, scan_page, scan_encl, List.flatMap_cons, List.flatMap_nil,
      Passage.scan_empty, scan_boxed, scan_listenLines hOutside, List.nil_append, List.append_nil]
    simp
  rw [hScan, List.mem_append, List.mem_append, List.mem_append, List.mem_append,
    mem_defaultAuthorize _ _ hOutside, mem_defaultAuthenticate _ _ hOutside,
    mem_defaultPostAuth _ hOutside, mem_defaultProxy _ _ hOutside, mem_defaultAccounting _ hOutside]
  simp only [Offered, stock, List.map_cons, List.map_nil, List.mem_cons, List.not_mem_nil, or_false]
  grind

/-- The inner site calls the modules that it is told of and EAP, and none besides but stock ones. -/
theorem mem_siteInnerTunnel_calls : name ∈ (siteInnerTunnelLines vars).scan called [] ∨ name ∈ stock ↔
    Offered vars true name := by
  have hOutside : within [["server", "inner-tunnel"].map String.toList] = false := by simp
  have hScan : (siteInnerTunnelLines vars).scan called [] =
      (innerAuthorize vars).scan called [["server", "inner-tunnel"].map String.toList] ++
        ((innerAuthenticate vars).scan called [["server", "inner-tunnel"].map String.toList] ++
          ((innerPostAuth vars).scan called [["server", "inner-tunnel"].map String.toList] ++
            (innerProxy vars).scan called [["server", "inner-tunnel"].map String.toList])) := by
    simp only [siteInnerTunnelLines, scan_page, scan_encl, List.flatMap_cons, List.flatMap_nil,
      Passage.scan_empty, scan_boxed, List.nil_append, List.append_nil]
    simp [-String.reduceToList, sets, isProcessing, processing]
  rw [hScan, List.mem_append, List.mem_append, List.mem_append, mem_innerAuthorize _ hOutside,
    mem_innerAuthenticate _ hOutside, mem_innerPostAuth _ hOutside, mem_innerProxy _ hOutside]
  simp only [Offered, stock, List.map_cons, List.map_nil, List.mem_cons, List.not_mem_nil, or_false]
  grind

/-! ## The `Auth-Type`s of the sites -/

section AuthTypes

variable {stack : List Heading} {a b c : Word} {ws : List Word}

@[simp] theorem authTypeSet_closes : authTypeSet stack .closes = [] := rfl

@[simp] theorem authTypeSet_opens : authTypeSet stack (.opens ws) = [] := rfl

@[simp] theorem authTypeSet_one : authTypeSet stack (.item [a]) = [] := rfl

@[simp] theorem authTypeSet_three : authTypeSet stack (.item [a, b, c]) =
    if a = "&Auth-Type".toList ∧ b = ":=".toList then [c] else [] := rfl

@[simp] theorem authTypeDefined_closes : authTypeDefined stack .closes = [] := rfl

@[simp] theorem authTypeDefined_item : authTypeDefined stack (.item ws) = [] := rfl

end AuthTypes

@[simp] theorem authTypeDefined_opens_one {stack : List Heading} {a : Word} :
    authTypeDefined stack (.opens [a]) = [] := rfl

@[simp] theorem authTypeDefined_opens_two {stack : List Heading} {a b : Word} :
    authTypeDefined stack (.opens [a, b]) =
      if a = "Auth-Type".toList ∧ stack.head? = some ["authenticate".toList] then [b] else [] := rfl

@[simp] theorem authTypeDefined_opens_more {stack : List Heading} {a b c : Word} {ws : List Word} :
    authTypeDefined stack (.opens (a :: b :: c :: ws)) = [] := rfl

theorem mem_siteDefault_authTypes : name ∈ (siteDefaultLines hasEap vars).scan authTypeSet [] ↔
    ∃ ldapMod ∈ vars.ldapModules, name = ldapMod.moduleName.toList := by
  simp [-String.reduceToList, String.toList_inj, siteDefaultLines, listenLines, defaultAuthorize,
    defaultAuthenticate, defaultPostAuth, defaultProxy,
    defaultAccounting, defaultReject, marksResult, copiesState, merges, sets, invokes, bindIfPassword,
    bindSection, assigns]

theorem mem_siteDefault_sections : name ∈ (siteDefaultLines hasEap vars).scan authTypeDefined [] ↔
    hasEap = true ∧ name = "EAP".toList ∨
      (∃ ldapMod ∈ vars.ldapModules, name = ldapMod.moduleName.toList) ∨
      name = "PAP".toList ∨ name = "MS-CHAP".toList := by
  simp [-String.reduceToList, String.toList_inj, siteDefaultLines, listenLines, defaultAuthorize,
    defaultAuthenticate, defaultPostAuth, defaultProxy,
    defaultAccounting, defaultReject, marksResult, copiesState, merges, sets, invokes, bindIfPassword,
    bindSection, assigns]

theorem mem_siteInnerTunnel_authTypes : name ∈ (siteInnerTunnelLines vars).scan authTypeSet [] ↔
    ∃ ldapMod ∈ vars.ldapModules, name = ldapMod.moduleName.toList := by
  simp [-String.reduceToList, String.toList_inj, siteInnerTunnelLines, innerAuthorize,
    innerAuthenticate, innerPostAuth, innerProxy, innerReject,
    marksResult, copiesState, merges, sets, invokes, bindIfPassword, bindSection, assigns]

theorem mem_siteInnerTunnel_sections : name ∈ (siteInnerTunnelLines vars).scan authTypeDefined [] ↔
    name = "EAP".toList ∨ name = "MS-CHAP".toList ∨ name = "PAP".toList ∨
      ∃ ldapMod ∈ vars.ldapModules, name = ldapMod.moduleName.toList := by
  simp [-String.reduceToList, String.toList_inj, siteInnerTunnelLines, innerAuthorize,
    innerAuthenticate, innerPostAuth, innerProxy, innerReject,
    marksResult, copiesState, merges, sets, invokes, bindIfPassword, bindSection, assigns]

end Sites

/-! ## Sites that are read -/

/-- The characters of the templates' own words. -/
def siteChar (c : Char) : Bool := plainChar c || ['(', ')', '|', '&', '"', '*', '='].contains c

structure SiteLexis extends Lexis where
  site : ∀ c, siteChar c = true → wordChar c = true

def Spelled (w : Word) : Bool := !w.isEmpty && w.all siteChar

theorem isWord_of_spelled {l : SiteLexis} {w : Word} (h : Spelled w = true) : IsWord l.toLexis w := by
  rw [Spelled, Bool.and_eq_true, List.all_eq_true] at h
  have hNone : ∀ c ∈ [' ', '\t', '\n', '#'], siteChar c = false := by decide
  have hNe : ∀ c ∈ w, ∀ s ∈ [' ', '\t', '\n', '#'], c ≠ s := by
    rintro c hc s hs rfl
    have hChar := h.2 c hc
    rw [hNone c hs] at hChar
    cases hChar
  refine ⟨?_, ?_, fun c hc => ?_, ?_⟩
  · rintro rfl
    exact absurd h.1 (by decide)
  · cases w with
    | nil => rfl
    | cons c w => simpa [isComment] using hNe c List.mem_cons_self '#' (by decide)
  · have hc := hNe c hc
    rw [blank, Bool.or_eq_false_iff, beq_eq_false_iff_ne, beq_eq_false_iff_ne]
    exact ⟨⟨hc ' ' (by decide), hc '\t' (by decide)⟩, hc '\n' (by decide)⟩
  · rw [Lexis.allows, List.all_eq_true.mpr fun c hc => l.site c (h.2 c hc), Bool.or_true]

section Legible

variable {l : Lexis} {n : Nat} {parts : List Passage} {text key value name : String}

theorem legible_note : (note n text).Legible l ↔ '\n' ∉ text.toList := Passage.legible_comment

theorem legible_boxed {texts : List String} :
    (boxed n texts).Legible l ↔ ∀ text ∈ texts, '\n' ∉ text.toList := by
  rw [boxed, Passage.legible_all, List.forall_mem_cons, List.forall_mem_append, List.forall_mem_map,
    List.forall_mem_singleton]
  simp [legible_note]

theorem legible_encl {heading : List String} : (encl n heading parts).Legible l ↔
    (∀ word ∈ heading, IsWord l word.toList) ∧ ∀ p ∈ parts, p.Legible l := by
  simp [encl]

theorem legible_onlyIf {condition : Bool} : (onlyIf condition parts).Legible l ↔
    (condition = true → ∀ p ∈ parts, p.Legible l) := by
  cases condition <;> simp [onlyIf]

theorem legible_forEach {α : Type} {xs : List α} {g : α → List Passage} :
    (forEach xs g).Legible l ↔ ∀ x ∈ xs, ∀ p ∈ g x, p.Legible l := by
  simp [forEach]

theorem legible_invokes : (invokes n name).Legible l ↔ IsWord l name.toList ∧ name.toList ≠ unbrace ∧
    name.toList ≠ brace := by
  simp [invokes]

theorem legible_sets : (sets n key value).Legible l ↔
    IsWord l key.toList ∧ IsWord l value.toList ∧ value.toList ≠ brace := by
  have hSign : IsWord l ['='] := ⟨by decide, by decide, by decide, rfl⟩
  simp [sets, hSign, and_assoc]

theorem legible_merges : (merges n key value).Legible l ↔
    IsWord l key.toList ∧ IsWord l "+=".toList ∧ IsWord l value.toList ∧ value.toList ≠ brace := by
  simp [merges, and_assoc]

theorem legible_assigns : (assigns n key value).Legible l ↔
    IsWord l key.toList ∧ IsWord l ":=".toList ∧ IsWord l value.toList ∧ value.toList ≠ brace := by
  simp [assigns, and_assoc]

end Legible

section Sites

variable {l : SiteLexis} {hasEap : Bool} {vars : SiteVars}

/-- A module whose name is a word of the lexis. -/
structure ModuleSpelled (l : Lexis) (ldapMod : LdapModule) : Prop where
  word : IsWord l ldapMod.moduleName.toList
  notBrace : ldapMod.moduleName.toList ≠ brace
  notUnbrace : ldapMod.moduleName.toList ≠ unbrace
  name : '\n' ∉ ldapMod.name.toList

/-- A word of the templates' own. -/
structure Wording (text : String) : Prop where
  spelled : Spelled text.toList = true

structure OneLine (text : String) : Prop where
  unbroken : text.toList.contains '\n' = false

/-- The letters of a literal are checked, not the literal. -/
theorem wording_lit (cs : List Char) (h : Spelled cs = true) : Wording (String.ofList cs) :=
  ⟨by rwa [String.toList_ofList]⟩

theorem oneLine_lit (cs : List Char) (h : cs.contains '\n' = false) : OneLine (String.ofList cs) :=
  ⟨by rwa [String.toList_ofList]⟩

section Texts

variable {text a b : String}

theorem Wording.isWord (h : Wording text) : IsWord l.toLexis text.toList := isWord_of_spelled h.spelled

theorem Wording.ne_brace (h : Wording text) : text.toList ≠ brace := by
  intro hEq
  have hSpelled := h.spelled
  rw [hEq] at hSpelled
  exact absurd hSpelled (by decide)

theorem Wording.ne_unbrace (h : Wording text) : text.toList ≠ unbrace := by
  intro hEq
  have hSpelled := h.spelled
  rw [hEq] at hSpelled
  exact absurd hSpelled (by decide)

theorem OneLine.notMem (h : OneLine text) : '\n' ∉ text.toList := by
  rw [List.contains_iff_mem.symm.not, h.unbroken]
  exact Bool.false_ne_true

theorem OneLine.append (h : OneLine a) : '\n' ∉ (a ++ b).toList ↔ '\n' ∉ b.toList := by
  rw [String.toList_append, List.mem_append, or_iff_right h.notMem]

end Texts

section

variable (h : ∀ ldapMod ∈ vars.ldapModules, ModuleSpelled l.toLexis ldapMod)
include h

theorem legible_siteDefault : (siteDefaultLines hasEap vars).Legible l.toLexis := by
  simp (disch := first | (apply wording_lit; decide) | (apply oneLine_lit; decide)) only
    [siteDefaultLines, page, defaultAuthorize, defaultAuthenticate, defaultPostAuth, defaultProxy,
    defaultAccounting, defaultReject, marksResult, copiesState,
    bindIfPassword, bindSection, listenLines, betweenQuotes, legible_encl, legible_boxed, legible_note,
    legible_invokes, legible_onlyIf, legible_forEach, legible_sets, legible_assigns, legible_merges,
    Passage.legible_all, Passage.legible_empty, List.forall_mem_cons, List.forall_mem_append,
    List.forall_mem_map, List.not_mem_nil, false_implies, implies_true, Wording.isWord,
    Wording.ne_brace, Wording.ne_unbrace, OneLine.notMem, OneLine.append, String.reduceAppend, ne_eq,
    not_false_eq_true, and_true, true_and]
  exact ⟨fun x hx => ⟨(h x hx).name, ⟨(h x hx).word, (h x hx).notUnbrace, (h x hx).notBrace⟩,
      (h x hx).word, (h x hx).notBrace⟩,
    fun x hx => ⟨(h x hx).name, (h x hx).word, (h x hx).word, (h x hx).notUnbrace, (h x hx).notBrace⟩,
    fun x hx => ⟨(h x hx).name, (h x hx).word, (h x hx).notUnbrace, (h x hx).notBrace⟩⟩

theorem legible_siteInnerTunnel : (siteInnerTunnelLines vars).Legible l.toLexis := by
  simp (disch := first | (apply wording_lit; decide) | (apply oneLine_lit; decide)) only
    [siteInnerTunnelLines, page, innerAuthorize, innerAuthenticate,
    innerPostAuth, innerProxy, innerReject, marksResult, copiesState, bindIfPassword, bindSection,
    betweenQuotes, legible_encl, legible_boxed, legible_note, legible_invokes, legible_onlyIf,
    legible_forEach, legible_sets, legible_assigns, legible_merges, Passage.legible_all,
    Passage.legible_empty, List.forall_mem_cons, List.forall_mem_append, List.forall_mem_map,
    List.not_mem_nil, false_implies, implies_true, Wording.isWord, Wording.ne_brace,
    Wording.ne_unbrace, OneLine.notMem, OneLine.append, String.reduceAppend, ne_eq, not_false_eq_true,
    and_true, true_and]
  exact ⟨fun x hx => ⟨(h x hx).name, ⟨(h x hx).word, (h x hx).notUnbrace, (h x hx).notBrace⟩,
      (h x hx).word, (h x hx).notBrace⟩,
    fun x hx => ⟨(h x hx).name, (h x hx).word, (h x hx).word, (h x hx).notUnbrace, (h x hx).notBrace⟩⟩

end

end Sites

end OpenRadiusWeb.BareTexts
