import OpenRadiusWeb.ConfigManager.ClientsConf
import OpenRadiusWeb.ConfigManager.LdapTemplate

/-! # Reading back `proxy.conf`

The values of a realm stand bare on their lines too. The generated text is compared with the sections
that the enabled rows are to become; then the pools and home servers that it refers to are compared
with those it defines.
-/

namespace OpenRadiusWeb.BareTexts

open ConfigManager Statements

section Realms

variable (m : Manager) (r : Reads) (realm : Realm)

def realmSecret : String := secretText m realm.proxySecretEncrypted

def proxyHeaderLines : List Line :=
  [remark 0 " OpenRadiusWeb Generated Configuration - DO NOT EDIT MANUALLY", remark 0 "",
    remark 0 " Proxy configuration", remark 0 " Template: proxy.conf (inline)", .empty,
    heads "proxy" "server", pair "default_fallback" "no", .closes 0, .empty]

def homeServerLines : List Line :=
  [heads "home_server" (m.homeServerName realm), pair "type" "auth+acct",
    pair "ipaddr" (strOrNone realm.proxyHost), pair "port" (intOrNone realm.proxyPort),
    pair "secret" (realmSecret m realm), pair "response_window" "20",
    pair "zombie_period" (intOrNone realm.proxyDeadTimeSeconds),
    pair "revive_interval" (intOrNone realm.proxyDeadTimeSeconds), .closes 0, .empty,
    heads "home_server_pool" (m.poolName realm), pair "type" "fail-over",
    pair "home_server" (m.homeServerName realm), .closes 0, .empty]

def stripFlag : String := if realm.stripUsername = some true then "strip" else "nostrip"

def realmLines : List Line :=
  if realm.realmType = "proxy" then
    [heads "realm" realm.name, pair "pool" (m.poolName realm), flag (stripFlag realm), .closes 0, .empty]
  else if realm.realmType = "local" then
    [heads "realm" realm.name, flag (stripFlag realm), .closes 0, .empty]
  else if realm.realmType = "reject" then
    [heads "realm" realm.name, pair "auth_pool" "reject", .closes 0, .empty]
  else []

def defaultLines : List Line :=
  [remark 0 " Default realm - handle locally", heads "realm" "DEFAULT", flag "strip", .closes 0, .empty,
    heads "realm" "NULL", flag "strip", .closes 0, .empty]

/-- The rows `_load_realms` selects. -/
def enabledRealms : List Realm :=
  Sorting.sortBy (fun s => toLex (Sorting.nullsLast s.priority, s.name))
    (r.db.radiusRealms.filter fun s => s.enabled = some true)

/-- Is a realm named `DEFAULT`, `default` or `*`? -/
def hasDefault : Bool := (enabledRealms r).any fun realm =>
  realm.name = "DEFAULT" || realm.name = "default" || realm.name = "*"

/-! ## What the text is to say -/

def homeServerBlock : List Statement :=
  [.opens ["home_server".toList, (m.homeServerName realm).toList], saysPair "type" "auth+acct",
    saysPair "ipaddr" (strOrNone realm.proxyHost), saysPair "port" (intOrNone realm.proxyPort),
    saysPair "secret" (realmSecret m realm), saysPair "response_window" "20",
    saysPair "zombie_period" (intOrNone realm.proxyDeadTimeSeconds),
    saysPair "revive_interval" (intOrNone realm.proxyDeadTimeSeconds), .closes,
    .opens ["home_server_pool".toList, (m.poolName realm).toList], saysPair "type" "fail-over",
    saysPair "home_server" (m.homeServerName realm), .closes]

def saysFlag (name : String) : Statement := .item [name.toList]

def realmBlock : List Statement :=
  if realm.realmType = "proxy" then
    [.opens ["realm".toList, realm.name.toList], saysPair "pool" (m.poolName realm),
      saysFlag (stripFlag realm), .closes]
  else if realm.realmType = "local" then
    [.opens ["realm".toList, realm.name.toList], saysFlag (stripFlag realm), .closes]
  else if realm.realmType = "reject" then
    [.opens ["realm".toList, realm.name.toList], saysPair "auth_pool" "reject", .closes]
  else []

def proxyServerBlock : List Statement :=
  [.opens ["proxy".toList, "server".toList], saysPair "default_fallback" "no", .closes]

def defaultBlocks : List Statement :=
  [.opens ["realm".toList, "DEFAULT".toList], saysFlag "strip", .closes,
    .opens ["realm".toList, "NULL".toList], saysFlag "strip", .closes]

/-- The sections of all enabled realms, and those for unknown realms where no row has one. -/
def proxyBlocks : List Statement :=
  proxyServerBlock ++ r.proxyRealms.flatMap (homeServerBlock m) ++
    (enabledRealms r).flatMap (realmBlock m) ++ if hasDefault r then [] else defaultBlocks

def ProxyReadBack (l : Lexis) (content : String) : Prop :=
  l.readText content.toList = some (proxyBlocks m r)

/-- The types that get a section. -/
def routed : Bool :=
  realm.realmType = "proxy" || realm.realmType = "local" || realm.realmType = "reject"

/-- The values of a realm are single words. -/
structure RealmWritable (l : Lexis) : Prop where
  name : routed realm = true → IsWord l realm.name.toList
  homeServer : realm.realmType = "proxy" → IsValue l (m.homeServerName realm)
  pool : realm.realmType = "proxy" → IsValue l (m.poolName realm)
  proxyHost : realm.realmType = "proxy" → IsValue l (strOrNone realm.proxyHost)
  secret : realm.realmType = "proxy" → IsValue l (realmSecret m realm)

end Realms

variable {m : Manager} {r : Reads} {realm : Realm} {l : Lexis} {content : String}

theorem isPlain_intOrNone (n : Option Int) : IsPlain (intOrNone n).toList := by
  obtain ⟨hSome, hChars⟩ := isName_intOrNone n
  refine ⟨hSome, fun c hc => ?_⟩
  have hName := hChars c hc
  rw [ConfigText.nameChar, Bool.or_assoc, Bool.or_eq_true, Bool.or_eq_true, beq_iff_eq, beq_iff_eq] at hName
  rw [plainChar, Bool.or_eq_true]
  rcases hName with hAlphanum | rfl | rfl
  · exact .inl hAlphanum
  · exact .inr (by decide)
  · exact .inr (by decide)

theorem isPlain_stripFlag (realm : Realm) : IsPlain (stripFlag realm).toList := by
  unfold stripFlag
  split <;> decide

theorem proxyHeaderLines_text : Manager.proxyHeader.map String.toList = proxyHeaderLines.map Line.text := by
  decide

theorem defaultLines_text : Manager.defaultRealmLines.map String.toList = defaultLines.map Line.text := by
  decide

theorem homeServerLines_text {texts : List String} (h : m.homeServerLines realm = .ok texts) :
    texts.map String.toList = (homeServerLines m realm).map Line.text := by
  obtain ⟨secret, hSecret, h⟩ := Except.ok_of_bind h
  have hText : realmSecret m realm = orElse secret "changeme" := by
    rw [realmSecret, secretText, hSecret]
  cases h
  simp [homeServerLines, hText, heads, pair, Line.text, unwords, unbrace, brace,
    Manager.homeServerName, Manager.poolName]

theorem realmLines_text (m : Manager) (realm : Realm) :
    (m.realmLines realm).map String.toList = (realmLines m realm).map Line.text := by
  have hStrip : (Manager.stripLine realm).toList = (flag (stripFlag realm)).text := by
    unfold Manager.stripLine stripFlag
    split <;> rfl
  unfold Manager.realmLines realmLines
  split
  · simp [hStrip, heads, pair, Line.text, unwords, unbrace, brace, Manager.poolName]
  · split
    · simp [hStrip, heads, Line.text, unwords, unbrace, brace]
    · split
      · simp [heads, pair, Line.text, unwords, unbrace, brace]
      · rfl

theorem realmLines_statements : (realmLines m realm).flatMap Line.statements = realmBlock m realm := by
  unfold realmLines realmBlock
  split
  · rfl
  · split
    · rfl
    · split <;> rfl

section Fixed

theorem proxyHeaderLines_fixed : ∀ line ∈ proxyHeaderLines, line.Fixed := by
  simp only [proxyHeaderLines, List.forall_mem_cons, fixed_closes, fixed_empty, fixed_remark,
    List.not_mem_nil, false_implies, implies_true, and_true, true_and]
  exact ⟨by decide, by decide, by decide, by decide, fixed_heads (by decide), fixed_pair (by decide)⟩

theorem defaultLines_fixed : ∀ line ∈ defaultLines, line.Fixed := by
  simp only [defaultLines, List.forall_mem_cons, fixed_closes, fixed_empty, fixed_remark,
    List.not_mem_nil, false_implies, implies_true, and_true, true_and]
  exact ⟨by decide, fixed_heads (by decide), fixed_flag (by decide), fixed_heads (by decide),
    fixed_flag (by decide)⟩

theorem homeServerLines_fixed : ∀ line ∈ homeServerLines m realm, line.Fixed := by
  simp only [homeServerLines, List.forall_mem_cons, fixed_closes, fixed_empty,
    List.not_mem_nil, false_implies, implies_true, and_true, true_and]
  exact ⟨fixed_heads (by decide), fixed_pair (by decide), fixed_pair (by decide), fixed_pair (by decide),
    fixed_pair (by decide), fixed_pair (by decide), fixed_pair (by decide), fixed_pair (by decide),
    fixed_heads (by decide), fixed_pair (by decide), fixed_pair (by decide)⟩

theorem realmLines_fixed : ∀ line ∈ realmLines m realm, line.Fixed := by
  have hStrip : (flag (stripFlag realm)).Fixed := fixed_flag (isPlain_stripFlag realm)
  unfold realmLines
  split
  · simp only [List.forall_mem_cons, fixed_closes, fixed_empty, List.not_mem_nil, false_implies,
      implies_true, and_true]
    exact ⟨fixed_heads (by decide), fixed_pair (by decide), hStrip⟩
  · split
    · simp only [List.forall_mem_cons, fixed_closes, fixed_empty, List.not_mem_nil, false_implies,
        implies_true, and_true]
      exact ⟨fixed_heads (by decide), hStrip⟩
    · split
      · simp only [List.forall_mem_cons, fixed_closes, fixed_empty, List.not_mem_nil, false_implies,
          implies_true, and_true]
        exact ⟨fixed_heads (by decide), fixed_pair (by decide)⟩
      · exact fun line hMem => absurd hMem List.not_mem_nil

end Fixed

section Sound

theorem proxyHeaderLines_sound : ∀ line ∈ proxyHeaderLines, line.Sound l := by
  simp only [proxyHeaderLines, List.forall_mem_cons, sound_closes, sound_empty, sound_remark,
    List.not_mem_nil, false_implies, implies_true, and_true, true_and]
  rw [sound_heads (by decide), sound_pair (by decide)]
  exact ⟨IsPlain.isWord (by decide), isValue_of_plain (by decide)⟩

theorem defaultLines_sound : ∀ line ∈ defaultLines, line.Sound l := by
  have hStrip : (flag "strip").Sound l := sound_flag (by decide)
  simp only [defaultLines, List.forall_mem_cons, sound_closes, sound_empty, sound_remark,
    List.not_mem_nil, false_implies, implies_true, and_true, true_and]
  rw [sound_heads (by decide), sound_heads (by decide)]
  exact ⟨IsPlain.isWord (by decide), hStrip, IsPlain.isWord (by decide), hStrip⟩

theorem homeServerLines_sound_iff : (∀ line ∈ homeServerLines m realm, line.Sound l) ↔
    IsValue l (m.homeServerName realm) ∧ IsValue l (strOrNone realm.proxyHost) ∧
      IsValue l (realmSecret m realm) ∧ IsWord l (m.poolName realm).toList := by
  have hNumber : ∀ n, IsValue l (intOrNone n) := fun n => isValue_of_plain (isPlain_intOrNone n)
  have hType : IsValue l "auth+acct" := isValue_of_plain (by decide)
  have hWindow : IsValue l "20" := isValue_of_plain (by decide)
  have hOver : IsValue l "fail-over" := isValue_of_plain (by decide)
  simp only [homeServerLines, List.forall_mem_cons, sound_closes, sound_empty,
    List.not_mem_nil, false_implies, implies_true, and_true, true_and]
  rw [sound_heads (by decide), sound_heads (by decide), sound_pair (by decide), sound_pair (by decide),
    sound_pair (by decide), sound_pair (by decide), sound_pair (by decide), sound_pair (by decide),
    sound_pair (by decide), sound_pair (by decide), sound_pair (by decide)]
  constructor
  · rintro ⟨-, -, hHost, -, hSecret, -, -, -, hPool, -, hName⟩
    exact ⟨hName, hHost, hSecret, hPool⟩
  · rintro ⟨hName, hHost, hSecret, hPool⟩
    exact ⟨hName.1, hType, hHost, hNumber _, hSecret, hWindow, hNumber _, hNumber _, hPool, hOver, hName⟩

theorem realmLines_sound_iff : (∀ line ∈ realmLines m realm, line.Sound l) ↔
    (routed realm = true → IsWord l realm.name.toList) ∧
      (realm.realmType = "proxy" → IsValue l (m.poolName realm)) := by
  have hStrip : (flag (stripFlag realm)).Sound l := sound_flag (isPlain_stripFlag realm)
  have hReject : IsValue l "reject" := isValue_of_plain (by decide)
  unfold realmLines routed
  split
  · rename_i hProxy
    simp only [List.forall_mem_cons, sound_closes, sound_empty, List.not_mem_nil, false_implies,
      implies_true, and_true]
    rw [sound_heads (by decide), sound_pair (by decide), and_iff_left hStrip]
    simp [hProxy]
  · rename_i hProxy
    split
    · rename_i hLocal
      simp only [List.forall_mem_cons, sound_closes, sound_empty, List.not_mem_nil, false_implies,
        implies_true, and_true]
      rw [sound_heads (by decide), and_iff_left hStrip]
      simp [hLocal]
    · rename_i hLocal
      split
      · rename_i hType
        simp only [List.forall_mem_cons, sound_closes, sound_empty, List.not_mem_nil, false_implies,
          implies_true, and_true]
        rw [sound_heads (by decide), sound_pair (by decide), and_iff_left hReject]
        simp [hType]
      · rename_i hType
        simp [hProxy, hLocal, hType]

end Sound

/-- The lines of the whole text. -/
def proxyLines (m : Manager) (r : Reads) : List Line :=
  proxyHeaderLines ++ r.proxyRealms.flatMap (homeServerLines m) ++
    (enabledRealms r).flatMap (realmLines m) ++ if hasDefault r then [] else defaultLines

theorem mem_proxyRealms : realm ∈ r.proxyRealms ↔ realm ∈ enabledRealms r ∧ realm.realmType = "proxy" := by
  rw [Reads.proxyRealms, List.mem_filter, decide_eq_true_eq]
  rfl

theorem proxyLines_fixed : ∀ line ∈ proxyLines m r, line.Fixed := by
  simp only [proxyLines, List.forall_mem_append, List.forall_mem_flatMap]
  refine ⟨⟨⟨proxyHeaderLines_fixed, fun _ _ => homeServerLines_fixed⟩, fun _ _ => realmLines_fixed⟩, ?_⟩
  split
  · exact fun line hMem => absurd hMem List.not_mem_nil
  · exact defaultLines_fixed

theorem proxyLines_statements : (proxyLines m r).flatMap Line.statements = proxyBlocks m r := by
  have hHome : ∀ realm, (homeServerLines m realm).flatMap Line.statements = homeServerBlock m realm :=
    fun _ => rfl
  rw [proxyLines, proxyBlocks, List.flatMap_append, List.flatMap_append, List.flatMap_append,
    List.flatMap_assoc, List.flatMap_assoc]
  simp only [hHome, realmLines_statements]
  split <;> rfl

theorem proxyLines_sound_iff : (∀ line ∈ proxyLines m r, line.Sound l) ↔
    ∀ realm ∈ enabledRealms r, RealmWritable m realm l := by
  have hDefault : ∀ line ∈ if hasDefault r then [] else defaultLines, line.Sound l := by
    split
    · exact fun line hMem => absurd hMem List.not_mem_nil
    · exact defaultLines_sound
  simp only [proxyLines, List.forall_mem_append, List.forall_mem_flatMap, homeServerLines_sound_iff,
    realmLines_sound_iff]
  rw [and_iff_left hDefault, and_iff_right proxyHeaderLines_sound]
  constructor
  · rintro ⟨hServers, hRealms⟩ realm hMem
    have hServer := fun hProxy => hServers realm (mem_proxyRealms.mpr ⟨hMem, hProxy⟩)
    exact ⟨(hRealms realm hMem).1, fun h => (hServer h).1, (hRealms realm hMem).2,
      fun h => (hServer h).2.1, fun h => (hServer h).2.2.1⟩
  · intro h
    refine ⟨fun realm hMem => ?_, fun realm hMem => ⟨(h realm hMem).name, (h realm hMem).pool⟩⟩
    obtain ⟨hMem, hProxy⟩ := mem_proxyRealms.mp hMem
    have hRealm := h realm hMem
    exact ⟨hRealm.homeServer hProxy, hRealm.proxyHost hProxy, hRealm.secret hProxy,
      (hRealm.pool hProxy).1⟩

theorem proxyLines_text (h : m.generateProxyConfig r = .ok content) :
    content.toList = joined (proxyLines m r) := by
  obtain ⟨realms, hLoad, h⟩ := Except.ok_of_bind h
  obtain ⟨homeServers, hServers, h⟩ := Except.ok_of_bind h
  have hRealms : enabledRealms r = realms := by
    rw [Reads.loadRealms, Reads.fetchAll] at hLoad
    split at hLoad
    · cases hLoad
    · exact Except.ok.inj hLoad
  rw [proxyRealms_of_load hLoad] at hServers
  have hDefault : (realms.any fun realm =>
      realm.name = "DEFAULT" || realm.name = "default" || realm.name = "*") = hasDefault r := by
    rw [hasDefault, hRealms]
  cases h
  refine toList_intercalate ?_
  rw [hDefault, proxyLines, hRealms]
  simp only [List.map_append, List.map_flatMap]
  rw [proxyHeaderLines_text, flatten_of_mapM hServers fun _ _ => homeServerLines_text, List.map_flatMap]
  congr 1
  · exact congrArg _ (List.flatMap_congr fun realm _ => realmLines_text m realm)
  · split
    · rfl
    · exact defaultLines_text

/-- The generated realms are read back as the rows exactly when the values of each enabled row are
single words; the sections for unknown realms are there exactly when no row has one. -/
theorem proxyConf_readBack_iff (l : Lexis) (h : m.generateProxyConfig r = .ok content) :
    ProxyReadBack m r l content ↔ ∀ realm ∈ enabledRealms r, RealmWritable m realm l := by
  rw [ProxyReadBack, proxyLines_text h, ← proxyLines_statements, readText_joined_iff proxyLines_fixed,
    proxyLines_sound_iff]

/-! ## What the text refers to and what it defines -/

section References

variable (kind key : String)

def definedName : Statement → Option Word
  | .opens [k, name] => if k = kind.toList then some name else none
  | _ => none

def referredName : Statement → Option Word
  | .item [k, _, value] => if k = key.toList then some value else none
  | _ => none

/-- The names of the sections of a kind. -/
def defined (statements : List Statement) : List Word := statements.filterMap (definedName kind)

/-- The values of the pairs with a key. -/
def referred (statements : List Statement) : List Word := statements.filterMap (referredName key)

end References

/-- Every reference that a text makes to a pool or a home server, and where it leads. -/
structure References (r : Reads) (statements : List Statement) : Prop where
  pools : ∀ pool ∈ referred "pool" statements, pool ∈ defined "home_server_pool" statements
  homeServers : ∀ server ∈ referred "home_server" statements, server ∈ defined "home_server" statements
  /-- The pool of the rejecting realms is none of those defined. -/
  rejectPool : ∀ pool ∈ referred "auth_pool" statements, pool ∉ defined "home_server_pool" statements
  rejects : referred "auth_pool" statements ≠ [] ↔
    ∃ realm ∈ enabledRealms r, realm.realmType = "reject"

/-- A name that the whole text has stands in one of its parts. -/
theorem mem_proxyBlocks {f : Statement → Option Word} {x : Word}
    (hServer : proxyServerBlock.filterMap f = []) (hDefault : defaultBlocks.filterMap f = []) :
    x ∈ (proxyBlocks m r).filterMap f ↔
      (∃ realm ∈ r.proxyRealms, x ∈ (homeServerBlock m realm).filterMap f) ∨
        ∃ realm ∈ enabledRealms r, x ∈ (realmBlock m realm).filterMap f := by
  have hNone : (if hasDefault r then [] else defaultBlocks).filterMap f = [] := by
    split
    · rfl
    · exact hDefault
  rw [proxyBlocks, List.filterMap_append, List.filterMap_append, List.filterMap_append, hServer, hNone,
    List.append_nil, List.nil_append, List.mem_append, List.filterMap_flatMap, List.filterMap_flatMap,
    List.mem_flatMap, List.mem_flatMap]

theorem realmBlock_defines {kind : String} (h : "realm".toList ≠ kind.toList) :
    defined kind (realmBlock m realm) = [] := by
  have hNone : definedName kind (.opens ["realm".toList, realm.name.toList]) = none := if_neg h
  unfold realmBlock defined
  split
  · exact List.filterMap_cons_none hNone
  · split
    · exact List.filterMap_cons_none hNone
    · split
      · exact List.filterMap_cons_none hNone
      · rfl

theorem realmBlock_pool : referred "pool" (realmBlock m realm) =
    if realm.realmType = "proxy" then [(m.poolName realm).toList] else [] := by
  unfold realmBlock
  split
  · rfl
  · split
    · rfl
    · split <;> rfl

theorem realmBlock_homeServer : referred "home_server" (realmBlock m realm) = [] := by
  unfold realmBlock
  split
  · rfl
  · split
    · rfl
    · split <;> rfl

theorem realmBlock_authPool : referred "auth_pool" (realmBlock m realm) =
    if realm.realmType = "reject" then ["reject".toList] else [] := by
  unfold realmBlock
  split
  · rename_i hType
    rw [hType]
    rfl
  · split
    · rename_i hType
      rw [hType]
      rfl
    · split <;> rfl

theorem homeServerBlock_pool : referred "pool" (homeServerBlock m realm) = [] := rfl

theorem homeServerBlock_authPool : referred "auth_pool" (homeServerBlock m realm) = [] := rfl

theorem mem_defined_pools {x : Word} : x ∈ defined "home_server_pool" (proxyBlocks m r) ↔
    ∃ realm ∈ r.proxyRealms, x = (m.poolName realm).toList := by
  refine (mem_proxyBlocks rfl rfl).trans ?_
  constructor
  · rintro (⟨realm, hMem, hx⟩ | ⟨realm, -, hx⟩)
    · exact ⟨realm, hMem, List.mem_singleton.mp hx⟩
    · rw [← defined, realmBlock_defines (by decide)] at hx
      cases hx
  · rintro ⟨realm, hMem, hx⟩
    exact .inl ⟨realm, hMem, List.mem_singleton.mpr hx⟩

theorem mem_defined_homeServers {x : Word} : x ∈ defined "home_server" (proxyBlocks m r) ↔
    ∃ realm ∈ r.proxyRealms, x = (m.homeServerName realm).toList := by
  refine (mem_proxyBlocks rfl rfl).trans ?_
  constructor
  · rintro (⟨realm, hMem, hx⟩ | ⟨realm, -, hx⟩)
    · exact ⟨realm, hMem, List.mem_singleton.mp hx⟩
    · rw [← defined, realmBlock_defines (by decide)] at hx
      cases hx
  · rintro ⟨realm, hMem, hx⟩
    exact .inl ⟨realm, hMem, List.mem_singleton.mpr hx⟩

theorem mem_referred_authPool {x : Word} : x ∈ referred "auth_pool" (proxyBlocks m r) ↔
    x = "reject".toList ∧ ∃ realm ∈ enabledRealms r, realm.realmType = "reject" := by
  refine (mem_proxyBlocks rfl rfl).trans ?_
  constructor
  · rintro (⟨realm, -, hx⟩ | ⟨realm, hMem, hx⟩)
    · rw [← referred, homeServerBlock_authPool] at hx
      cases hx
    · rw [← referred, realmBlock_authPool] at hx
      split at hx
      · exact ⟨List.mem_singleton.mp hx, realm, hMem, ‹_›⟩
      · cases hx
  · rintro ⟨rfl, realm, hMem, hType⟩
    refine .inr ⟨realm, hMem, ?_⟩
    rw [← referred, realmBlock_authPool, if_pos hType]
    exact List.mem_cons_self

theorem proxyBlocks_references (m : Manager) (r : Reads) : References r (proxyBlocks m r) where
  pools pool hPool := by
    rcases (mem_proxyBlocks rfl rfl).mp hPool with ⟨realm, -, hx⟩ | ⟨realm, hMem, hx⟩
    · rw [← referred, homeServerBlock_pool] at hx
      cases hx
    · rw [← referred, realmBlock_pool] at hx
      split at hx
      · exact mem_defined_pools.mpr ⟨realm, mem_proxyRealms.mpr ⟨hMem, ‹_›⟩, List.mem_singleton.mp hx⟩
      · cases hx
  homeServers server hServer := by
    rcases (mem_proxyBlocks rfl rfl).mp hServer with ⟨realm, hMem, hx⟩ | ⟨realm, -, hx⟩
    · exact mem_defined_homeServers.mpr ⟨realm, hMem, List.mem_singleton.mp hx⟩
    · rw [← referred, realmBlock_homeServer] at hx
      cases hx
  rejectPool pool hPool hDefined := by
    obtain ⟨rfl, -⟩ := mem_referred_authPool.mp hPool
    obtain ⟨realm, -, hName⟩ := mem_defined_pools.mp hDefined
    rw [Manager.poolName, String.toList_append] at hName
    cases hName
  rejects := by
    constructor
    · intro hSome
      obtain ⟨pool, hPool⟩ := List.exists_mem_of_ne_nil _ hSome
      exact (mem_referred_authPool.mp hPool).2
    · intro hReject
      exact List.ne_nil_of_mem (mem_referred_authPool.mpr ⟨rfl, hReject⟩)

/-- Where the values of the enabled realms are single words, every pool and home server that the
generated text refers to is defined in it, but for the pool of the rejecting realms. -/
theorem proxyConf_references (l : Lexis) (h : m.generateProxyConfig r = .ok content)
    (hWritable : ∀ realm ∈ enabledRealms r, RealmWritable m realm l) :
    ∃ statements, l.readText content.toList = some statements ∧ References r statements :=
  ⟨proxyBlocks m r, (proxyConf_readBack_iff l h).mpr hWritable, proxyBlocks_references m r⟩

/-! ## Three realms -/

def sampleRealm (name realmType : String) (proxyHost : Option String) : Realm where
  name := name
  realmType := realmType
  stripUsername := some true
  proxyHost := proxyHost
  proxyPort := some 1812
  proxySecretEncrypted := some "s3cret!"
  proxyDeadTimeSeconds := some 120
  priority := some 100
  enabled := some true

def realmReads (proxyHost : Option String) : Reads :=
  ⟨⟨[], [], [sampleRealm "corp.local" "proxy" proxyHost, sampleRealm "guest" "reject" none], [], []⟩,
    fun _ => none, ""⟩

theorem realms_generate (proxyHost : Option String) :
    ∃ content, legacyManager.generateProxyConfig (realmReads proxyHost) = .ok content := by
  refine Except.bind_succeeds ⟨_, rfl⟩ fun realms => ?_
  refine Except.bind_succeeds (Except.mapM_succeeds fun realm _ => ?_) fun _ => ⟨_, rfl⟩
  refine Except.bind_succeeds ?_ fun _ => ⟨_, rfl⟩
  unfold Manager.decryptSecret
  split
  · exact ⟨_, rfl⟩
  · split
    · exact ⟨_, rfl⟩
    · exact ⟨_, rfl⟩

theorem realms_writable : ∀ realm ∈ enabledRealms (realmReads (some "10.9.0.1")),
    RealmWritable legacyManager realm wideLexis := by
  intro realm hMem
  obtain ⟨hMem, -⟩ := List.mem_filter.mp (Sorting.mem_sortBy.mp hMem)
  rcases List.mem_cons.mp hMem with rfl | hMem
  · exact ⟨fun _ => by decide, fun _ => by decide, fun _ => by decide, fun _ => by decide,
      fun _ => by decide⟩
  · rw [List.mem_singleton.mp hMem]
    exact ⟨fun _ => by decide, fun h => absurd h (by decide), fun h => absurd h (by decide),
      fun h => absurd h (by decide), fun h => absurd h (by decide)⟩

theorem proxyConf_readBack_sample :
    (∃ content, legacyManager.generateProxyConfig (realmReads (some "10.9.0.1")) = .ok content ∧
      ProxyReadBack legacyManager (realmReads (some "10.9.0.1")) wideLexis content) ∧
    ∃ content, legacyManager.generateProxyConfig (realmReads (some "")) = .ok content ∧
      ¬ProxyReadBack legacyManager (realmReads (some "")) wideLexis content := by
  constructor
  · obtain ⟨content, h⟩ := realms_generate (some "10.9.0.1")
    exact ⟨content, h, (proxyConf_readBack_iff wideLexis h).mpr realms_writable⟩
  · obtain ⟨content, h⟩ := realms_generate (some "")
    refine ⟨content, h, fun hRead => ?_⟩
    have hMem : sampleRealm "corp.local" "proxy" (some "") ∈ enabledRealms (realmReads (some "")) :=
      Sorting.mem_sortBy.mpr (List.mem_filter.mpr ⟨List.mem_cons_self, rfl⟩)
    have hHost := ((proxyConf_readBack_iff wideLexis h).mp hRead _ hMem).proxyHost rfl
    exact absurd hHost (by decide)

theorem proxyConf_references_sample :
    ∃ content, legacyManager.generateProxyConfig (realmReads (some "10.9.0.1")) = .ok content ∧
      ∃ statements, wideLexis.readText content.toList = some statements ∧
        References (realmReads (some "10.9.0.1")) statements := by
  obtain ⟨content, h⟩ := realms_generate (some "10.9.0.1")
  exact ⟨content, h, proxyConf_references wideLexis h realms_writable⟩

end OpenRadiusWeb.BareTexts
