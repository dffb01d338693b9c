import OpenRadiusWeb.Lib.ConfigText
import OpenRadiusWeb.Lib.Json
import OpenRadiusWeb.ConfigManager.GeneratedNames

/-! # The template of the LDAP modules

`ldap.j2` puts the values of a row between double quotes as they are. The rendered text is read back
as FreeRADIUS reads it, and compared with the sections and pairs that the rows are to become.
-/

namespace OpenRadiusWeb.ConfigManager

open ConfigText

/-! ## The rendered text -/

section Template

variable (s : RenderedServer)

def comment (n : Nat) (text : String) : Line := .comment n text.toList

def opens (n : Nat) (kind : String) : Line := .opens n kind.toList

def bare (n : Nat) (attr value : String) : Line := .bare n attr.toList value.toList

def quoted (n : Nat) (attr value : String) : Line := .quoted n attr.toList value.toList

def hasTls : Prop := s.useTls = some true ∨ s.useStarttls = some true

instance : Decidable (hasTls s) := inferInstanceAs (Decidable (_ ∨ _))

def startTlsLines : List Line := if s.useStarttls = some true then [bare 8 "start_tls" "yes"] else []

/-- The path of the CA file; an empty one is none. -/
def caFile : Option String := s.tlsCaCertPath.filter fun path => path ≠ ""

def requireCert : String := if s.tlsRequireCert = "" then "demand" else s.tlsRequireCert

def tlsLines : List Line :=
  if hasTls s then
    [comment 4 "", comment 4 " TLS / STARTTLS configuration", comment 4 "", opens 4 "tls"] ++
      startTlsLines s ++ (caFile s).toList.map (quoted 8 "ca_file") ++
      [quoted 8 "require_cert" (requireCert s), .closes 4]
  else []

/-- The body of the loop. The variables that a rendered server does not have are undefined. -/
def serverLines : List Line :=
  [comment 0 "", comment 0 (" LDAP instance: " ++ s.moduleName),
    comment 0 (" Server: " ++ s.host ++ ":" ++ intOrNone s.port), comment 0 "",
    .opensNamed 0 "ldap".toList s.moduleName.toList,
    quoted 4 "server" s.host, bare 4 "port" (intOrNone s.port), .empty,
    quoted 4 "identity" s.bindDn, quoted 4 "password" s.bindPassword, quoted 4 "base_dn" s.baseDn,
    .empty,
    comment 4 "", comment 4 " User object search configuration", comment 4 "", opens 4 "user",
    quoted 8 "base_dn" s.userSearchBase, quoted 8 "filter" (strOrNone s.userSearchFilter),
    quoted 8 "scope" "sub", .empty, .closes 4, .empty,
    comment 4 "", comment 4 " Group object search configuration", comment 4 "", opens 4 "group",
    quoted 8 "base_dn" s.groupSearchBase, quoted 8 "filter" (strOrNone s.groupSearchFilter),
    quoted 8 "membership_attribute" (strOrNone s.groupMembershipAttr), quoted 8 "scope" "sub",
    .closes 4, .empty,
    comment 4 "", comment 4 " LDAP connection options", comment 4 "", opens 4 "options",
    bare 8 "chase_referrals" "yes", bare 8 "rebind" "yes",
    bare 8 "res_timeout" (intOrNone s.searchTimeoutSeconds),
    bare 8 "srv_timelimit" (intOrNone s.searchTimeoutSeconds),
    bare 8 "net_timeout" (intOrNone s.connectTimeoutSeconds),
    bare 8 "idle" (intOrNone s.idleTimeoutSeconds),
    bare 8 "probes" "3", bare 8 "interval" "3", .closes 4, .empty] ++
  tlsLines s ++
  [.empty, comment 4 "", comment 4 " Connection pool", comment 4 "", opens 4 "pool",
    bare 8 "start" "5", bare 8 "min" "3", bare 8 "max" "32", bare 8 "spare" "3",
    bare 8 "uses" "0", bare 8 "retry_delay" "30", bare 8 "lifetime" "0",
    bare 8 "idle_timeout" "60", .closes 4, .closes 0, .empty]

def headerLines : List Line :=
  [comment 0 " OpenRadiusWeb Generated Configuration - DO NOT EDIT MANUALLY", comment 0 "",
    comment 0 " LDAP module configuration", comment 0 " Template: ldap.j2", comment 0 "",
    comment 0 " Each LDAP server is instantiated as a named module: ldap_<sanitized_name>",
    comment 0 " These can be referenced in virtual server authorize/authenticate sections.", .empty]

end Template

def ldapLines (servers : List RenderedServer) : List Line := headerLines ++ servers.flatMap serverLines

/-- `ldap.j2`; it does not print the time. -/
def ldapTemplate (_generatedAt : String) (servers : List RenderedServer) : Option String :=
  some (String.ofList (joined (ldapLines servers)))

/-! ## What the text is to say -/

section Meaning

variable (s : RenderedServer)

def opened (kind : String) : Event := .opened [kind.toList]

def text (attr value : String) : Event := .pair attr.toList (.quoted value.toList)

def word (attr value : String) : Event := .pair attr.toList (.bare value.toList)

def tlsBlock : List Event :=
  if hasTls s then
    [opened "tls"] ++ (if s.useStarttls = some true then [word "start_tls" "yes"] else []) ++
      (caFile s).toList.map (text "ca_file") ++ [text "require_cert" (requireCert s), .closed]
  else []

/-- The one section of a server, with the values of its row. -/
def block : List Event :=
  [.opened ["ldap".toList, s.moduleName.toList], text "server" s.host,
    word "port" (intOrNone s.port), text "identity" s.bindDn, text "password" s.bindPassword,
    text "base_dn" s.baseDn] ++
  [opened "user", text "base_dn" s.userSearchBase, text "filter" (strOrNone s.userSearchFilter),
    text "scope" "sub", .closed] ++
  [opened "group", text "base_dn" s.groupSearchBase, text "filter" (strOrNone s.groupSearchFilter),
    text "membership_attribute" (strOrNone s.groupMembershipAttr), text "scope" "sub", .closed] ++
  [opened "options", word "chase_referrals" "yes", word "rebind" "yes",
    word "res_timeout" (intOrNone s.searchTimeoutSeconds),
    word "srv_timelimit" (intOrNone s.searchTimeoutSeconds),
    word "net_timeout" (intOrNone s.connectTimeoutSeconds),
    word "idle" (intOrNone s.idleTimeoutSeconds), word "probes" "3", word "interval" "3", .closed] ++
  tlsBlock s ++
  [opened "pool", word "start" "5", word "min" "3", word "max" "32", word "spare" "3",
    word "uses" "0", word "retry_delay" "30", word "lifetime" "0", word "idle_timeout" "60",
    .closed, .closed]

/-- Read back, the text is one section for each server with exactly the values of the rows, and the
search bases are still themselves when they are expanded. A filter is an expression of the expansion
language, and is to arrive as it is. -/
structure ReadBack (d : Dialect) (servers : List RenderedServer) (content : String) : Prop where
  blocks : d.readText content.toList = some (servers.flatMap block)
  userBases : ∀ s ∈ servers,
    d.expand s.userSearchBase.toList = some (s.userSearchBase.toList.map Part.char)
  groupBases : ∀ s ∈ servers,
    d.expand s.groupSearchBase.toList = some (s.groupSearchBase.toList.map Part.char)

def tlsTexts : List String := if hasTls s then (caFile s).toList ++ [requireCert s] else []

/-- The texts between quotes. -/
def quotedTexts : List String :=
  [s.host, s.bindDn, s.bindPassword, s.baseDn, s.userSearchBase, strOrNone s.userSearchFilter,
    s.groupSearchBase, strOrNone s.groupSearchFilter, strOrNone s.groupMembershipAttr] ++ tlsTexts s

/-- No text has a quote, a backslash or a line break, no search base a percent sign, and the name of
the module is a word. -/
structure Quotable (d : Dialect) : Prop where
  moduleName : ∀ c ∈ s.moduleName.toList, d.wordChar c = true
  texts : ∀ text ∈ quotedTexts s, Plain text.toList
  userBase : '%' ∉ s.userSearchBase.toList
  groupBase : '%' ∉ s.groupSearchBase.toList

end Meaning

variable {d : Dialect} {s : RenderedServer} {servers : List RenderedServer}

theorem serverLines_events (s : RenderedServer) : (serverLines s).flatMap Line.events = block s := by
  have hTls : (tlsLines s).flatMap Line.events = tlsBlock s := by
    unfold tlsLines tlsBlock startTlsLines
    split
    · cases caFile s <;> split <;> rfl
    · rfl
  rw [serverLines, List.flatMap_append, List.flatMap_append, hTls]
  rfl

theorem isName_intOrNone (n : Option Int) : IsName (intOrNone n).toList := by
  cases n with
  | none => exact (by decide : IsName "None".toList)
  | some n =>
    have hText : Json.IntText (toString n).toList n := .inl rfl
    obtain ⟨c, hc, -⟩ := Json.exists_digit n
    refine ⟨List.ne_nil_of_mem hc, fun c hc => ?_⟩
    rw [nameChar, Bool.or_eq_true, Bool.or_eq_true]
    rcases hText.digits c hc with hDigit | rfl
    · have hAlphanum : c.isAlphanum = (c.isAlpha || c.isDigit) := rfl
      exact .inl (.inl (by rw [hAlphanum, hDigit, Bool.or_true]))
    · exact .inr (by decide)

section Fixed

variable (n : Nat) (attr value : String)

@[simp] theorem fixed_comment : (comment n value).Fixed ↔ True := Iff.rfl

@[simp] theorem fixed_empty : Line.empty.Fixed ↔ True := Iff.rfl

@[simp] theorem fixed_closes : (Line.closes n).Fixed ↔ True := Iff.rfl

@[simp] theorem fixed_opens : (opens n value).Fixed ↔ IsName value.toList := Iff.rfl

@[simp] theorem fixed_quoted : (quoted n attr value).Fixed ↔ IsName attr.toList := Iff.rfl

@[simp] theorem fixed_bare :
    (bare n attr value).Fixed ↔ IsName attr.toList ∧ IsName value.toList := Iff.rfl

@[simp] theorem fixed_named (kind name : List Char) : (Line.opensNamed n kind name).Fixed ↔
    IsName kind ∧ ∃ c ∈ name.head?, nameChar c = true := Iff.rfl

end Fixed

theorem headerLines_fixed : ∀ line ∈ headerLines, line.Fixed := by
  simp only [headerLines, List.forall_mem_cons, fixed_comment, fixed_empty, List.not_mem_nil,
    false_implies, implies_true, and_true]

theorem tlsLines_fixed (s : RenderedServer) : ∀ line ∈ tlsLines s, line.Fixed := by
  have hStart : ∀ line ∈ startTlsLines s, line.Fixed := by
    unfold startTlsLines
    split
    · intro line hLine
      rw [List.mem_singleton.mp hLine, fixed_bare]
      decide
    · exact fun line hLine => absurd hLine List.not_mem_nil
  have hTls : IsName "tls".toList := by decide
  have hCa : IsName "ca_file".toList := by decide
  have hRequire : IsName "require_cert".toList := by decide
  unfold tlsLines
  split
  · simp only [List.forall_mem_append, List.forall_mem_cons, List.forall_mem_map, fixed_comment,
      fixed_opens, fixed_quoted, fixed_closes, hTls, hCa, hRequire, List.not_mem_nil, false_implies,
      implies_true, and_true, true_and]
    exact hStart
  · exact fun line hLine => absurd hLine List.not_mem_nil

theorem serverLines_fixed (hName : ∃ c ∈ s.moduleName.toList.head?, nameChar c = true) :
    ∀ line ∈ serverLines s, line.Fixed := by
  have hTls := tlsLines_fixed s
  have hNumber := isName_intOrNone
  simp only [serverLines, List.forall_mem_append, List.forall_mem_cons, fixed_comment, fixed_empty,
    fixed_closes, fixed_opens, fixed_quoted, fixed_bare, fixed_named, hNumber, hName,
    List.not_mem_nil, false_implies, implies_true, and_true, true_and]
  exact ⟨⟨by decide, hTls⟩, by decide⟩

/-- A line that is to be read as something has sound values. -/
def Held (d : Dialect) (line : Line) : Prop := line.events ≠ [] → line.Sound d

section Held

variable (d : Dialect) (n : Nat) (attr value : String)

@[simp] theorem held_quoted : Held d (quoted n attr value) ↔ Plain value.toList :=
  ⟨fun h => h (List.cons_ne_nil _ _), fun h _ => h⟩

@[simp] theorem held_named (kind name : List Char) :
    Held d (.opensNamed n kind name) ↔ ∀ c ∈ name, d.wordChar c = true :=
  ⟨fun h => h (List.cons_ne_nil _ _), fun h _ => h⟩

@[simp] theorem held_comment : Held d (comment n value) ↔ True :=
  iff_true_intro fun h => absurd rfl h

@[simp] theorem held_empty : Held d .empty ↔ True := iff_true_intro fun _ => trivial

@[simp] theorem held_opens : Held d (opens n value) ↔ True := iff_true_intro fun _ => trivial

@[simp] theorem held_closes : Held d (.closes n) ↔ True := iff_true_intro fun _ => trivial

@[simp] theorem held_bare : Held d (bare n attr value) ↔ True := iff_true_intro fun _ => trivial

end Held

theorem tlsLines_held_iff :
    (∀ line ∈ tlsLines s, Held d line) ↔ ∀ text ∈ tlsTexts s, Plain text.toList := by
  have hStart : ∀ line ∈ startTlsLines s, Held d line := by
    unfold startTlsLines
    split
    · intro line hLine
      rw [List.mem_singleton.mp hLine, held_bare]
      trivial
    · exact fun line hLine => absurd hLine List.not_mem_nil
  unfold tlsLines tlsTexts
  split
  · simp only [List.forall_mem_append, List.forall_mem_cons, List.forall_mem_map, List.not_mem_nil,
      false_implies, implies_true, and_true, true_and, held_quoted, held_comment, held_opens,
      held_closes]
    exact ⟨fun h => ⟨h.1.2, h.2⟩, fun h => ⟨⟨hStart, h.1⟩, h.2⟩⟩
  · simp only [List.not_mem_nil, false_implies, implies_true]

theorem serverLines_held_iff : (∀ line ∈ serverLines s, Held d line) ↔
    (∀ c ∈ s.moduleName.toList, d.wordChar c = true) ∧ ∀ text ∈ quotedTexts s, Plain text.toList := by
  have hSub : Plain "sub".toList ↔ True := iff_true_intro (by decide)
  unfold serverLines quotedTexts
  simp only [List.forall_mem_append, List.forall_mem_cons, List.not_mem_nil, false_implies,
    implies_true, and_true, true_and, held_quoted, held_named, held_comment, held_empty, held_opens,
    held_closes, held_bare, hSub, tlsLines_held_iff, and_assoc]

def remark : Line → List Char
  | .comment _ text => text
  | _ => []

section Remark

variable (n : Nat) (attr value : String)

@[simp] theorem remark_comment : remark (comment n value) = value.toList := rfl

@[simp] theorem remark_opens : remark (opens n value) = [] := rfl

@[simp] theorem remark_bare : remark (bare n attr value) = [] := rfl

@[simp] theorem remark_quoted : remark (quoted n attr value) = [] := rfl

@[simp] theorem remark_closes : remark (.closes n) = [] := rfl

@[simp] theorem remark_empty : remark .empty = [] := rfl

@[simp] theorem remark_named (kind name : List Char) : remark (.opensNamed n kind name) = [] := rfl

end Remark

theorem sound_of_held {line : Line} (hHeld : Held d line) (hRemark : '\n' ∉ remark line) :
    line.Sound d := by
  cases line with
  | comment n text => exact hRemark
  | empty => trivial
  | _ => exact hHeld (List.cons_ne_nil _ _)

theorem tlsLines_remarks (s : RenderedServer) : ∀ line ∈ tlsLines s, '\n' ∉ remark line := by
  have hStart : ∀ line ∈ startTlsLines s, '\n' ∉ remark line := by
    unfold startTlsLines
    split
    · intro line hLine
      rw [List.mem_singleton.mp hLine]
      exact List.not_mem_nil
    · exact fun line hLine => absurd hLine List.not_mem_nil
  unfold tlsLines
  split
  · simp only [List.forall_mem_append, List.forall_mem_cons, List.forall_mem_map, remark_comment,
      remark_opens, remark_quoted, remark_closes, List.not_mem_nil, not_false_eq_true, false_implies,
      implies_true, and_true]
    exact ⟨by decide, hStart⟩
  · exact fun line hLine => absurd hLine List.not_mem_nil

/-- The comments show the name of the module and the host, which other lines hold. -/
theorem serverLines_remarks (hHost : '\n' ∉ s.host.toList) (hName : '\n' ∉ s.moduleName.toList) :
    ∀ line ∈ serverLines s, '\n' ∉ remark line := by
  have hTls := tlsLines_remarks s
  have hPort : '\n' ∉ (intOrNone s.port).toList := (isName_intOrNone s.port).newline
  have hInstance : '\n' ∉ (" LDAP instance: " ++ s.moduleName).toList := by
    rw [String.toList_append, List.mem_append]
    exact not_or.mpr ⟨by decide, hName⟩
  have hServer : '\n' ∉ (" Server: " ++ s.host ++ ":" ++ intOrNone s.port).toList := by
    rw [String.toList_append, String.toList_append, String.toList_append, List.mem_append,
      List.mem_append, List.mem_append]
    exact not_or.mpr ⟨not_or.mpr ⟨not_or.mpr ⟨by decide, hHost⟩, by decide⟩, hPort⟩
  unfold serverLines
  simp only [List.forall_mem_append, List.forall_mem_cons, remark_comment, remark_opens, remark_bare,
    remark_quoted, remark_closes, remark_empty, remark_named, List.not_mem_nil, not_false_eq_true,
    false_implies, implies_true, and_true, true_and, hInstance, hServer]
  exact ⟨⟨by decide, hTls⟩, by decide⟩

theorem headerLines_sound (d : Dialect) : ∀ line ∈ headerLines, line.Sound d := by
  have hHeld : ∀ line ∈ headerLines, Held d line := by
    simp only [headerLines, List.forall_mem_cons, held_comment, held_empty, List.not_mem_nil,
      false_implies, implies_true, and_true]
  have hRemarks : ∀ line ∈ headerLines, '\n' ∉ remark line := by
    simp only [headerLines, List.forall_mem_cons, remark_comment, remark_empty, List.not_mem_nil,
      not_false_eq_true, false_implies, implies_true, and_true]
    decide
  exact fun line hLine => sound_of_held (hHeld line hLine) (hRemarks line hLine)

theorem serverLines_sound (hWord : ∀ c ∈ s.moduleName.toList, d.wordChar c = true)
    (hTexts : ∀ text ∈ quotedTexts s, Plain text.toList) : ∀ line ∈ serverLines s, line.Sound d := by
  have hName : '\n' ∉ s.moduleName.toList := by
    intro hMem
    have hNewline := hWord _ hMem
    rw [d.special_not_word '\n' (by decide)] at hNewline
    cases hNewline
  have hRemarks := serverLines_remarks (hTexts s.host List.mem_cons_self).2.2 hName
  have hHeld := serverLines_held_iff.mpr ⟨hWord, hTexts⟩
  exact fun line hLine => sound_of_held (hHeld line hLine) (hRemarks line hLine)

/-! ## Reading the text back -/

theorem ldapLines_events (servers : List RenderedServer) :
    (ldapLines servers).flatMap Line.events = servers.flatMap block := by
  have hHeader : headerLines.flatMap Line.events = [] := rfl
  have hServers : (servers.flatMap serverLines).flatMap Line.events = servers.flatMap block := by
    rw [List.flatMap_assoc]
    exact congrArg (servers.flatMap ·) (funext serverLines_events)
  rw [ldapLines, List.flatMap_append, hHeader, hServers, List.nil_append]

theorem readText_ldapLines_iff
    (hNames : ∀ s ∈ servers, ∃ c ∈ s.moduleName.toList.head?, nameChar c = true) :
    d.readText (joined (ldapLines servers)) = some (servers.flatMap block) ↔
      ∀ s ∈ servers, (∀ c ∈ s.moduleName.toList, d.wordChar c = true) ∧
        ∀ text ∈ quotedTexts s, Plain text.toList := by
  have hFixed : ∀ line ∈ ldapLines servers, line.Fixed := by
    intro line hLine
    rcases List.mem_append.mp hLine with hLine | hLine
    · exact headerLines_fixed line hLine
    · obtain ⟨s, hs, hLine⟩ := List.mem_flatMap.mp hLine
      exact serverLines_fixed (hNames s hs) line hLine
  constructor
  · intro h s hs
    rw [← ldapLines_events] at h
    refine serverLines_held_iff.mp fun line hLine hEvents => ?_
    have hMem : line ∈ ldapLines servers :=
      List.mem_append_right _ (List.mem_flatMap.mpr ⟨s, hs, hLine⟩)
    exact Line.sound_of_readText (hFixed line hMem) hEvents (readText_of_joined hFixed h line hMem)
  · intro h
    rw [← ldapLines_events]
    refine readText_joined_of_sound hFixed fun line hLine => ?_
    rcases List.mem_append.mp hLine with hLine | hLine
    · exact headerLines_sound d line hLine
    · obtain ⟨s, hs, hLine⟩ := List.mem_flatMap.mp hLine
      exact serverLines_sound (h s hs).1 (h s hs).2 line hLine

theorem readBack_iff {now content : String}
    (hNames : ∀ s ∈ servers, ∃ c ∈ s.moduleName.toList.head?, nameChar c = true)
    (hContent : ldapTemplate now servers = some content) :
    ReadBack d servers content ↔ ∀ s ∈ servers, Quotable s d := by
  obtain rfl := Option.some.inj hContent
  have hText := readText_ldapLines_iff (d := d) hNames
  constructor
  · intro h s hs
    have hBlocks := h.blocks
    rw [String.toList_ofList] at hBlocks
    obtain ⟨hName, hTexts⟩ := hText.mp hBlocks s hs
    exact ⟨hName, hTexts, expand_eq_self_iff.mp (h.userBases s hs),
      expand_eq_self_iff.mp (h.groupBases s hs)⟩
  · intro h
    refine ⟨?_, fun s hs => expand_eq_self_iff.mpr (h s hs).userBase,
      fun s hs => expand_eq_self_iff.mpr (h s hs).groupBase⟩
    rw [String.toList_ofList]
    exact hText.mpr fun s hs => ⟨(h s hs).moduleName, (h s hs).texts⟩

section Manager

variable {m : Manager} {r : Reads} {content : String} {names : List String}

/-- What one file of LDAP modules is rendered from. -/
theorem generateLdapConfigs_content (h : m.generateLdapConfigs r = .ok ([("ldap_orw", content)], names)) :
    ∃ rendered, r.enabledLdapServers.mapM m.renderedServer = .ok rendered ∧
      m.templates.ldap r.now rendered = some content := by
  obtain ⟨loaded, hLoaded, h⟩ := Except.ok_of_bind h
  obtain ⟨rendered, hRendered, h⟩ := Except.ok_of_bind h
  have hSame : r.enabledLdapServers = loaded := by
    rw [Reads.loadLdapServers, Reads.fetchAll] at hLoaded
    split at hLoaded
    · cases hLoaded
    · exact Except.ok.inj hLoaded
  refine ⟨rendered, hSame ▸ hRendered, ?_⟩
  cases loaded with
  | nil => cases h
  | cons row rows =>
    cases hTemplate : m.templates.ldap r.now rendered with
    | none =>
      rw [hTemplate] at h
      cases h
    | some text =>
      rw [hTemplate] at h
      cases h
      rfl

theorem moduleName_head {rows : List LdapServer} (h : rows.mapM m.renderedServer = .ok servers) :
    ∀ s ∈ servers, ∃ c ∈ s.moduleName.toList.head?, nameChar c = true := by
  intro s hs
  have hName : s.moduleName ∈ rows.map m.moduleName :=
    mapM_renderedServer_names h ▸ List.mem_map_of_mem hs
  obtain ⟨row, -, hEq⟩ := List.mem_map.mp hName
  rw [← hEq, Manager.moduleName, String.toList_append]
  exact ⟨'l', rfl, by decide⟩

/-- The LDAP modules are read back as their rows exactly when the values of the rows can stand
between quotes. -/
theorem ldapConfigs_readBack_iff (d : Dialect) (hTemplate : m.templates.ldap = ldapTemplate)
    (h : m.generateLdapConfigs r = .ok ([("ldap_orw", content)], names))
    (hRendered : r.enabledLdapServers.mapM m.renderedServer = .ok servers) :
    ReadBack d servers content ↔ ∀ s ∈ servers, Quotable s d := by
  obtain ⟨rendered, hMade, hContent⟩ := generateLdapConfigs_content h
  rw [hRendered] at hMade
  cases hMade
  rw [hTemplate] at hContent
  exact readBack_iff (moduleName_head hRendered) hContent

end Manager

/-! ## One server -/

/-- The escapes of one letter, `%%`, `%\x7b..}` and the one-letter expansions. -/
def freeradius : Dialect where
  wordChar c := decide (c ∉ special)
  escape
    | 'n' :: _ => ('\n', 1)
    | 'r' :: _ => ('\r', 1)
    | 't' :: _ => ('\t', 1)
    | c :: _ => (c, 1)
    | [] => ('\\', 1)
  expansion
    | '%' :: _ => (.char '%', 1)
    | '\x7b' :: rest =>
      (.expansion (rest.takeWhile (· ≠ '\x7d')), (rest.takeWhile (· ≠ '\x7d')).length + 2)
    | c :: _ => (.expansion [c], 1)
    | [] => (.expansion [], 1)
  nameChar_word c h := decide_eq_true fun hMem => nameChar_ne h c hMem rfl
  special_not_word c h := decide_eq_false (not_not_intro h)
  escape_takes text := by
    split <;> exact Nat.one_pos
  expansion_takes text := by
    split <;> omega

/-- Passwords are rows in plain text here, which `decrypt_secret` lets through. -/
def ldapManager : Manager :=
  { plainManager with
    templates := { plainManager.templates with ldap := ldapTemplate }
    decrypt := .ok
    lower := id }

def corpServer (bindPassword : String) : LdapServer :=
  { sampleServer "corp-ad" "CA 1" with
    bindPasswordEncrypted := bindPassword
    userSearchFilter := some "(sAMAccountName=%\x7bUser-Name\x7d)"
    groupSearchFilter := some "(objectClass=group)"
    groupMembershipAttr := some "memberOf" }

def corpRendered (bindPassword : String) : RenderedServer where
  moduleName := "ldap_corp_ad"
  host := "ldap.corp.local"
  port := some 389
  bindDn := "cn=radius,dc=corp,dc=local"
  bindPassword := bindPassword
  baseDn := "dc=corp,dc=local"
  userSearchBase := "dc=corp,dc=local"
  userSearchFilter := some "(sAMAccountName=%\x7bUser-Name\x7d)"
  groupSearchBase := "dc=corp,dc=local"
  groupSearchFilter := some "(objectClass=group)"
  groupMembershipAttr := some "memberOf"
  useTls := some false
  useStarttls := some true
  tlsCaCertPath := some "/etc/freeradius/certs/ldap/corp_ad_ca.pem"
  tlsRequireCert := "demand"
  connectTimeoutSeconds := some 5
  searchTimeoutSeconds := some 10
  idleTimeoutSeconds := some 60

def oneServer (bindPassword : String) : Reads :=
  ⟨⟨[], [corpServer bindPassword], [], [], []⟩, fun _ => none, ""⟩

def corpContent (bindPassword : String) : String :=
  String.ofList (joined (ldapLines [corpRendered bindPassword]))

theorem oneServer_rendered (bindPassword : String) (h : bindPassword ≠ "") :
    (oneServer bindPassword).enabledLdapServers.mapM ldapManager.renderedServer =
      .ok [corpRendered bindPassword] := by
  have hRows : (oneServer bindPassword).enabledLdapServers = [corpServer bindPassword] := rfl
  have hSafe : ldapManager.safeName (corpServer bindPassword).name = "corp_ad" :=
    (by decide : ldapManager.safeName "corp-ad" = "corp_ad")
  have hPassword : ldapManager.decryptSecret (some (corpServer bindPassword).bindPasswordEncrypted) =
      .ok (some bindPassword) := if_neg h
  rw [hRows, List.mapM_cons, Manager.renderedServer, hPassword, hSafe]
  rfl

theorem oneServer_generated (bindPassword : String) (h : bindPassword ≠ "") :
    ldapManager.generateLdapConfigs (oneServer bindPassword) =
      .ok ([("ldap_orw", corpContent bindPassword)], ["ldap_corp_ad"]) := by
  have hLoaded : (oneServer bindPassword).loadLdapServers .ldapServers =
      .ok [corpServer bindPassword] := rfl
  have hRendered : [corpServer bindPassword].mapM ldapManager.renderedServer =
      .ok [corpRendered bindPassword] := oneServer_rendered bindPassword h
  rw [Manager.generateLdapConfigs, hLoaded]
  change ([corpServer bindPassword].mapM ldapManager.renderedServer >>= _) = _
  rw [hRendered]
  rfl

theorem corp_readBack : ReadBack freeradius [corpRendered "secret"] (corpContent "secret") := by
  refine (ldapConfigs_readBack_iff freeradius rfl (oneServer_generated "secret" (by decide))
    (oneServer_rendered "secret" (by decide))).mpr fun s hs => ?_
  rw [List.mem_singleton.mp hs]
  exact ⟨by decide, by decide, by decide, by decide⟩

/-- A quote in the password of a bind ends the string of the password. -/
theorem password_cut :
    ldapManager.generateLdapConfigs (oneServer "pa\"ss") =
        .ok ([("ldap_orw", corpContent "pa\"ss")], ["ldap_corp_ad"]) ∧
      ¬ ReadBack freeradius [corpRendered "pa\"ss"] (corpContent "pa\"ss") := by
  refine ⟨oneServer_generated _ (by decide), fun h => ?_⟩
  have hNames := moduleName_head (oneServer_rendered "pa\"ss" (by decide))
  have hContent : ldapTemplate "" [corpRendered "pa\"ss"] = some (corpContent "pa\"ss") := rfl
  have hQuotable := (readBack_iff hNames hContent).mp h _ (List.mem_singleton.mpr rfl)
  exact absurd (hQuotable.texts "pa\"ss" (by decide)) (by decide)

end OpenRadiusWeb.ConfigManager
