import OpenRadiusWeb.ConfigManager.SiteClosure

/-! # The links of the server

The container of FreeRADIUS applies the configuration when it starts and links each generated site and
module file that is on disk then. The watcher applies the configuration afterwards without linking:
a file that is generated later is read after the next start.
-/

namespace OpenRadiusWeb.BareTexts

open ConfigManager Statements Effects Transcript Paths

/-! ## All that a file declares -/

section Declares

variable {titles heading : List String} {parts : List Passage}

theorem declaredBy_nested {line : Line} (h : line.Nested) : declaredBy line.text = [] := if_pos h.text.2

theorem declaredBy_empty : declaredBy Line.empty.text = [] := rfl

theorem declaredBy_closes : declaredBy (Line.closes 0).text = [] := by decide

theorem declaredBy_comment (text : List Char) : declaredBy (Line.comment 0 text).text = [] := by
  obtain ⟨w, ws, hWords⟩ := words_cons (c := '#') (t := text) (by decide)
  have hText : (Line.comment 0 text).text = '#' :: text := rfl
  have hNone : uncommented (words ('#' :: text)) = [] := by
    rw [hWords]
    rfl
  rw [hText, declaredBy, hNone]
  rfl

theorem declares_textOf {p : Passage} (hSome : p.lines ≠ []) (h : ∀ line ∈ p.lines, '\n' ∉ line.text) :
    declares (textOf p) = p.lines.flatMap fun line => declaredBy line.text := by
  rw [declares, textOf, String.toList_ofList, joined,
    List.splitOn_intercalate '\n' (List.forall_mem_map.mpr h) (by simpa using hSome), List.flatMap_map]

theorem page_lines : (page titles heading parts).lines = titles.map (fun title => .comment 0 title.toList) ++
    (.empty :: .opens 0 (heading.map String.toList) :: ((Passage.all parts).lines ++ [.closes 0, .empty])) := by
  have hTitles : (titles.map (note 0)).flatMap Passage.lines =
      titles.map fun title => .comment 0 title.toList := by
    rw [List.flatMap_map, List.map_eq_flatMap]
    rfl
  have hLines : (page titles heading parts).lines = (titles.map (note 0)).flatMap Passage.lines ++
      [Passage.empty, encl 0 heading parts, Passage.empty].flatMap Passage.lines := List.flatMap_append
  rw [hLines, hTitles]
  simp [encl, Passage.enclosed, Passage.empty]

/-- A file of one section declares that module, whatever the values in the section are. -/
theorem declares_page {l : Lexis} (hTitles : ∀ title ∈ titles, '\n' ∉ title.toList)
    (hHeading : ∀ w ∈ heading, IsWord l w.toList) (hSome : heading ≠ [])
    (hParts : ∀ p ∈ parts, p.Nested) :
    declares (textOf (page titles heading parts)) = (heading.map String.toList).getLast?.toList := by
  have hBody : ∀ line ∈ (Passage.all parts).lines, line.Nested := Passage.nested_all.mpr hParts
  have hWords : ∀ w ∈ heading.map String.toList, IsWord l w := List.forall_mem_map.mpr hHeading
  have hOpens := declaredBy_opens hWords (by simpa using hSome)
  have hTitled : titles.flatMap (fun title => declaredBy (Line.comment 0 title.toList).text) = [] :=
    List.flatMap_eq_nil_iff.mpr fun title _ => declaredBy_comment title.toList
  have hInner : (Passage.all parts).lines.flatMap (fun line => declaredBy line.text) = [] :=
    List.flatMap_eq_nil_iff.mpr fun line hLine => declaredBy_nested (hBody line hLine)
  have hOneLine : ∀ line ∈ (page titles heading parts).lines, '\n' ∉ line.text := by
    rw [page_lines, List.forall_mem_append, List.forall_mem_map, List.forall_mem_cons, List.forall_mem_cons,
      List.forall_mem_append]
    refine ⟨fun title hTitle => ?_, by decide, oneLine_unwords hWords,
      fun line hLine => (hBody line hLine).text.1, by decide⟩
    exact List.not_mem_cons_of_ne_of_not_mem (by decide) (hTitles title hTitle)
  rw [declares_textOf (by rw [page_lines]; simp) hOneLine, page_lines, List.flatMap_append, List.flatMap_map,
    hTitled, List.nil_append, List.flatMap_cons, List.flatMap_cons, List.flatMap_append, hInner]
  have hHead : declaredBy (Line.opens 0 (heading.map String.toList)).text =
      (heading.map String.toList).getLast?.toList := hOpens
  rw [hHead]
  simp [declaredBy_empty, declaredBy_closes]

end Declares

section Nested

variable {n : Nat} {parts : List Passage} {key value text : String}

theorem nested_note : (note n text).Nested ↔ 0 < n ∧ '\n' ∉ text.toList := Passage.nested_comment

theorem nested_boxed {texts : List String} : (boxed n texts).Nested ↔
    0 < n ∧ ∀ text ∈ texts, '\n' ∉ text.toList := by
  rw [boxed, Passage.nested_all, List.forall_mem_cons, List.forall_mem_append, List.forall_mem_map,
    List.forall_mem_singleton]
  simp only [nested_note]
  constructor
  · exact fun h => ⟨h.1.1, fun text hText => (h.2.1 text hText).2⟩
  · exact fun h => ⟨⟨h.1, by decide⟩, fun text hText => ⟨h.1, h.2 text hText⟩, h.1, by decide⟩

theorem nested_encl {heading : List String} : (encl n heading parts).Nested ↔
    0 < n ∧ (∀ word ∈ heading, '\n' ∉ word.toList) ∧ ∀ p ∈ parts, p.Nested := by
  rw [encl, Passage.nested_enclosed, List.forall_mem_map]

theorem nested_forEach {α : Type} {xs : List α} {g : α → List Passage} :
    (forEach xs g).Nested ↔ ∀ x ∈ xs, ∀ p ∈ g x, p.Nested := by
  simp [forEach]

theorem nested_sets : (sets n key value).Nested ↔
    0 < n ∧ '\n' ∉ key.toList ∧ '\n' ∉ value.toList := by
  have hSign : '\n' ∉ ['='] := by decide
  simp [sets, hSign]

theorem notMem_betweenQuotes : '\n' ∉ (betweenQuotes value).toList ↔ '\n' ∉ value.toList := by
  simp [betweenQuotes]

/-- No value that the template of `eap` prints breaks its line. -/
structure EapVarsOneLined (vars : EapVars) : Prop where
  paths : ∀ path ∈ [vars.caCertPath, vars.caPath, vars.serverCertPath, vars.serverKeyPath], '\n' ∉ path.toList
  dhFile : ∀ path ∈ vars.dhFile, '\n' ∉ path.toList
  texts : ∀ text ∈ [strOrNone vars.defaultEapType, strOrNone vars.tlsMinVersion, strOrNone vars.tlsMaxVersion,
    vars.cipherList], '\n' ∉ text.toList

theorem notMem_toString (n : Nat) : '\n' ∉ (toString n).toList := by
  have hText : (toString n).toList = Nat.toDigits 10 n := Nat.toList_repr
  rw [hText]
  exact fun h => absurd (Nat.isDigit_of_mem_toDigits (by decide) (by decide) h) (by decide)

theorem declares_eapLines {vars : EapVars} (h : EapVarsOneLined vars) :
    declares (textOf (eapLines vars)) = ["eap".toList] := by
  obtain ⟨hPaths, hDh, hTexts⟩ := h
  simp only [List.forall_mem_cons, List.not_mem_nil, false_implies, implies_true, and_true] at hPaths hTexts
  rw [eapLines, declares_page (l := wideLexis)]
  · rfl
  · simp (disch := first | (apply oneLine_lit; decide)) only [List.forall_mem_cons, OneLine.notMem,
      not_false_eq_true, List.not_mem_nil, false_implies, implies_true, and_true]
  · decide
  · decide
  · simp (disch := first | (apply oneLine_lit; decide)) only [tlsConfigLines, tunnelLines, nested_encl,
      nested_boxed, nested_sets, nested_forEach, Passage.nested_empty, Passage.nested_item, notMem_betweenQuotes,
      List.forall_mem_cons, List.not_mem_nil, false_implies, implies_true, and_true, true_and,
      OneLine.notMem, not_false_eq_true]
    have hFiltered : ∀ path ∈ (vars.dhFile.filter fun path => path ≠ "").toList, '\n' ∉ path.toList :=
      fun path hPath => hDh path (Option.mem_filter_iff.mp (Option.mem_toList.mp hPath)).1
    have hSign : '\n' ∉ ['='] := by decide
    simp only [hPaths, hTexts, hSign, notMem_toString, Nat.reduceLT, true_and, not_false_eq_true, and_self,
      and_true]
    exact hFiltered

theorem declares_pythonLines {pythonPath : String} (h : '\n' ∉ pythonPath.toList) :
    declares (textOf (pythonLines pythonPath)) = ["orw".toList] := by
  rw [pythonLines, declares_page (l := wideLexis)]
  · rfl
  · simp (disch := first | (apply oneLine_lit; decide)) only [List.forall_mem_cons, OneLine.notMem,
      not_false_eq_true, List.not_mem_nil, false_implies, implies_true, and_true]
  · decide
  · decide
  · simp (disch := first | (apply oneLine_lit; decide)) only [nested_note, nested_boxed, nested_sets,
      Passage.nested_empty, notMem_betweenQuotes, List.forall_mem_cons, List.not_mem_nil,
      false_implies, implies_true, and_true, true_and, OneLine.notMem, not_false_eq_true]
    simp [h]

end Nested

/-! ## The container and the watcher -/

def moduleFiles : List String := ["mods-available/eap", "mods-available/ldap_orw", "mods-available/python"]

def siteFiles : List String := ["sites-available/default", "sites-available/inner-tunnel"]

/-- The volumes and the links of the container. -/
structure Container where
  world : World
  linked : List String

/-- What applies the configuration: the entry point of the container, which may be a new one, or the
watcher. -/
inductive Event
  | starts (recreated : Bool) (c : Call)
  | applies (c : Call)

def Event.call : Event → Call
  | .starts _ c => c
  | .applies c => c

def Event.isStart : Event → Bool
  | .starts .. => true
  | .applies _ => false

namespace Container

variable (m : Manager)

def held (d : Disk) (f : String) : Option ByteArray := d (resolve (m.outputPath f))

/-- The loops of the entry point over the files of the two directories. -/
def enabled (d : Disk) : List String := (moduleFiles ++ siteFiles).filter fun f => (held m d f).isSome

def step (s : Container) : Event → Container
  | .starts recreated c =>
    let world := (m.applyConfigs c s.world).2
    ⟨world, (if recreated then [] else s.linked) ++ enabled m world.disk⟩
  | .applies c => ⟨(m.applyConfigs c s.world).2, s.linked⟩

def run (events : List Event) : Container := events.foldl (step m) ⟨unrecorded fun _ => none, []⟩

/-- A linked file declares the module. -/
def Linked (s : Container) (name : Word) : Prop :=
  ∃ file ∈ moduleFiles, file ∈ s.linked ∧ ∃ content : String,
    held m s.world.disk file = some content.toUTF8 ∧ name ∈ declares content

/-- Each linked site resolves in the linked files. -/
def SitesLoad (l : Lexis) (s : Container) : Prop :=
  ∀ site ∈ siteFiles, site ∈ s.linked → ∀ content : String,
    held m s.world.disk site = some content.toUTF8 → Resolves l (Linked m s) content

end Container

/-! ## What is on disk and what is linked -/

section Runs

open Container

variable {m : Manager} {s : Container} {events : List Event}

theorem foldl_world : (events.foldl (step m) s).world = final m.applyConfigs s.world (events.map Event.call) := by
  induction events generalizing s with
  | nil => rfl
  | cons e events ih =>
    rw [List.foldl_cons, ih]
    cases e <;> rfl

theorem foldl_linked (h : ∀ e ∈ events, e.isStart = false) : (events.foldl (step m) s).linked = s.linked := by
  induction events generalizing s with
  | nil => rfl
  | cons e events ih =>
    rw [List.forall_mem_cons] at h
    rw [List.foldl_cons, ih h.2]
    cases e with
    | starts => cases h.1
    | applies => rfl

/-- Only files on disk are linked. -/
theorem linked_enabled (hFaithful : Faithful m s.world) (hClean : CleanRun m s.world (events.map Event.call))
    (hOk : NoErrorRun m s.world (events.map Event.call)) (h : s.linked ⊆ enabled m s.world.disk) :
    (events.foldl (step m) s).linked ⊆ enabled m (events.foldl (step m) s).world.disk := by
  induction events generalizing s with
  | nil => exact h
  | cons e events ih =>
    have hHere : Clean m s.world e.call := hClean _ List.mem_cons_self
    obtain ⟨results, hResults, hNoError⟩ := hOk _ List.mem_cons_self
    have hStep : ∀ p, (m.applyConfigs e.call s.world).2.disk p =
        (m.named e.call.toReads p).or (s.world.disk p) :=
      Manager.applyConfigs_disk hFaithful hHere (Prod.ext hResults rfl) hNoError
    have hWorld : (step m s e).world = (m.applyConfigs e.call s.world).2 := by cases e <;> rfl
    have hKept : s.linked ⊆ enabled m (step m s e).world.disk := by
      intro f hf
      obtain ⟨hFile, hSome⟩ := List.mem_filter.mp (h hf)
      refine List.mem_filter.mpr ⟨hFile, ?_⟩
      rw [held, hWorld, hStep, Option.isSome_or, Bool.or_eq_true]
      exact .inr hSome
    apply ih
    · rw [hWorld]
      exact (Manager.applyConfigs_faithful hFaithful hHere).1
    · rw [hWorld]
      exact fun e he => hClean e (List.mem_cons_of_mem _ he)
    · rw [hWorld]
      exact fun e he => hOk e (List.mem_cons_of_mem _ he)
    · cases e with
      | applies c => exact hKept
      | starts recreated c =>
        refine List.append_subset.mpr ⟨?_, fun _ h => h⟩
        cases recreated with
        | true => exact List.nil_subset _
        | false => exact hKept

theorem held_run (hClean : CleanRun m (unrecorded fun _ => none) (events.map Event.call))
    (hOk : NoErrorRun m (unrecorded fun _ => none) (events.map Event.call)) (f : String) :
    held m (run m events).world.disk f = m.lastNamed (events.map Event.call) (resolve (m.outputPath f)) := by
  rw [held, run, foldl_world, disk_of_history (unrecorded_faithful m _) hClean hOk]
  exact Option.or_none

theorem noErrorRun_start {w : World} {calls calls' : List Call} (h : NoErrorRun m w (calls ++ calls')) :
    NoErrorRun m w calls := fun e he =>
  h e (transcript_append w calls calls' ▸ List.mem_append_left _ he)

theorem cleanRun_start {w : World} {calls calls' : List Call} (h : CleanRun m w (calls ++ calls')) :
    CleanRun m w calls := fun e he =>
  h e (transcript_append w calls calls' ▸ List.mem_append_left _ he)

theorem generated_of_noError {w : World} {calls : List Call} (h : NoErrorRun m w calls) :
    ∀ c ∈ calls, ∃ configs, m.generateAllConfigs c.toReads = .ok configs := by
  induction calls generalizing w with
  | nil => exact fun c hc => absurd hc List.not_mem_nil
  | cons c calls ih =>
    obtain ⟨results, hResults, hNoError⟩ := h _ List.mem_cons_self
    exact List.forall_mem_cons.mpr ⟨Manager.configs_of_noError hResults hNoError,
      ih fun e he => h e (List.mem_cons_of_mem _ he)⟩

/-- The links after a run are the files that were named up to the last start. -/
theorem mem_linked {before after : List Event} {recreated : Bool} {c : Call} {f : String}
    (hAfter : ∀ e ∈ after, e.isStart = false)
    (hClean : CleanRun m (unrecorded fun _ => none) ((before ++ [Event.starts recreated c]).map Event.call))
    (hOk : NoErrorRun m (unrecorded fun _ => none) ((before ++ [Event.starts recreated c]).map Event.call)) :
    f ∈ (run m (before ++ [.starts recreated c] ++ after)).linked ↔ f ∈ moduleFiles ++ siteFiles ∧
      ∃ e ∈ before ++ [.starts recreated c], (m.named e.call.toReads (resolve (m.outputPath f))).isSome := by
  have hEnabled : f ∈ (run m (before ++ [.starts recreated c])).linked ↔
      f ∈ enabled m (run m (before ++ [.starts recreated c])).world.disk := by
    constructor
    · exact fun h => linked_enabled (unrecorded_faithful m _) hClean hOk (List.nil_subset _) h
    · intro h
      rw [run, List.foldl_append] at h ⊢
      exact List.mem_append_right _ h
  rw [run, List.foldl_append, foldl_linked hAfter]
  change f ∈ (run m (before ++ [.starts recreated c])).linked ↔ _
  rw [hEnabled, enabled, List.mem_filter, held_run hClean hOk]
  refine and_congr_right fun _ => ⟨fun h => ?_, fun ⟨e, he, hNamed⟩ => ?_⟩
  · obtain ⟨b, hb⟩ := Option.isSome_iff_exists.mp h
    obtain ⟨call, hCall, hNamed⟩ := exists_of_lastNamed hb
    obtain ⟨e, he, rfl⟩ := List.mem_map.mp hCall
    exact ⟨e, he, hNamed⟩
  · exact lastNamed_isSome (List.mem_map_of_mem he) hNamed

end Runs

/-! ## What the repository's templates generate -/

theorem generatedAt_managed {m : Manager} {configs : Dict String} (h : Managed configs) {f : String}
    (hf : f ∈ managedFiles) :
    m.generatedAt configs (resolve (m.outputPath f)) = (configs.get? f).map String.toUTF8 := by
  induction configs with
  | nil => rfl
  | cons config configs ih =>
    obtain ⟨filename, content⟩ := config
    have hRest : Managed configs := ⟨(List.nodup_cons.mp h.nodup).2,
      fun g hg => h.subset g (List.mem_cons_of_mem _ hg)⟩
    have hName := h.subset filename List.mem_cons_self
    rw [Manager.generatedAt, List.find?_cons, Dict.get?]
    split
    · rename_i hSame
      have hEq : f = filename := by
        by_contra hNe
        exact Manager.outputPath_ne hName hf (fun hEq => hNe hEq.symm) (of_decide_eq_true hSame)
      rw [if_pos hEq]
      rfl
    · rename_i hOther
      have hNe : f ≠ filename := by
        rintro rfl
        simp at hOther
      rw [if_neg hNe]
      exact ih hRest

theorem named_managed {m : Manager} {r : Reads} {configs : Dict String}
    (h : m.generateAllConfigs r = .ok configs) {f : String} (hf : f ∈ managedFiles) :
    m.named r (resolve (m.outputPath f)) = (configs.get? f).map String.toUTF8 := by
  rw [Manager.named, h, lastWrite_of_not (Manager.writesWithin_certSteps r)
    (Manager.not_certFile_outputPath hf)]
  exact (Option.or_none).trans <| generatedAt_managed (Manager.generateAllConfigs_managed h) hf

section Settings

variable {rows : List SystemSetting} {d : Dict (Option String)} {key : String}

theorem get?_settings {value : Option String}
    (h : (rows.foldl (fun d s => d.set s.settingKey s.settingValue) d).get? key = some value) :
    d.get? key = some value ∨ ∃ s ∈ rows, s.settingKey = key ∧ s.settingValue = value := by
  induction rows generalizing d with
  | nil => exact .inl h
  | cons s rows ih =>
    rcases ih h with h | ⟨s', hMem, hRow⟩
    · rcases Classical.em (key = s.settingKey) with rfl | hKey
      · rw [Dict.get?_set_self] at h
        exact .inr ⟨s, List.mem_cons_self, rfl, Option.some.inj h⟩
      · rw [Dict.get?_set_of_ne _ _ hKey] at h
        exact .inl h
    · exact .inr ⟨s', List.mem_cons_of_mem _ hMem, hRow⟩

/-- The settings that the template of `eap` prints are like this. -/
def EapSettings (P : String → Prop) (r : Reads) : Prop :=
  ∀ s ∈ r.db.systemSettings, s.category = "radius" →
    s.settingKey ∈ ["default_eap_type", "tls_min_version", "tls_max_version"] →
      ∀ value ∈ s.settingValue, P value

theorem setting_like {P : String → Prop} {r : Reads} (h : EapSettings P r) {q : Query}
    {settings : Dict (Option String)} (hLoad : r.loadSystemSettings q "radius" = .ok settings)
    (hKey : key ∈ ["default_eap_type", "tls_min_version", "tls_max_version"]) (hNone : P "None")
    {default : String} (hDefault : P default) : P (strOrNone (settings.getD key (some default))) := by
  obtain ⟨rows, hRows, hSettings⟩ := Except.ok_of_bind hLoad
  have hSame : r.db.systemSettings.filter (fun s => s.category = "radius") = rows := rows_of_fetchAll hRows
  rw [← Except.ok.inj hSettings, Dict.getD]
  cases hGet : Dict.get? (rows.foldl (fun d s => Dict.set d s.settingKey s.settingValue) []) key with
  | none => exact hDefault
  | some value =>
    cases value with
    | none => exact hNone
    | some text =>
      rcases get?_settings hGet with hEmpty | ⟨s, hMem, hName, hValue⟩
      · cases hEmpty
      · rw [← hSame, List.mem_filter, decide_eq_true_eq] at hMem
        exact h s hMem.1 hMem.2 (hName ▸ hKey) text hValue

end Settings

section Repository

variable {l : SiteLexis} {m : Manager} {r : Reads} {configs : Dict String} {k : Capabilities}

theorem notMem_join {a b : String} (ha : '\n' ∉ a.toList) (hb : '\n' ∉ b.toList) :
    '\n' ∉ (join a b).toList := by
  unfold join
  split
  · exact hb
  · split
    · rw [String.toList_append, List.mem_append, not_or]
      exact ⟨ha, hb⟩
    · rw [String.toList_append, String.toList_append, List.mem_append, List.mem_append, not_or, not_or]
      exact ⟨⟨ha, by decide⟩, hb⟩

/-- Whether `generate_eap_config` finds DH parameters. -/
def namesDh (r : Reads) : Prop :=
  orEmpty (r.selectedServer.bind Certificate.dhParamsPem) ≠ "" ∨
    orEmpty (r.selectedCa.bind Certificate.dhParamsPem) ≠ ""

instance (r : Reads) : Decidable (namesDh r) := inferInstanceAs (Decidable (_ ∨ _))

/-- What `generate_eap_config` passes to its template. -/
structure EapVarsOf (m : Manager) (r : Reads) (vars : EapVars) : Prop where
  caCertPath : vars.caCertPath = join m.certDir "ca.pem"
  caPath : vars.caPath = join m.certDir "trusted-cas/"
  serverCertPath : vars.serverCertPath = join m.certDir "server.pem"
  serverKeyPath : vars.serverKeyPath = join m.certDir "server.key"
  dhFile : vars.dhFile = if namesDh r then some (join m.certDir "dh.pem") else none
  cipherList : vars.cipherList = "DEFAULT"
  settings : ∀ P : String → Prop, P "None" → P "peap" → P "1.2" → EapSettings P r →
    ∀ text ∈ [strOrNone vars.defaultEapType, strOrNone vars.tlsMinVersion, strOrNone vars.tlsMaxVersion], P text

theorem eapContent_eq (hTemplates : m.templates = repositoryTemplates) (h : k.Generate m r configs) :
    ∃ vars, k.eapContent = textOf (eapLines vars) ∧ EapVarsOf m r vars := by
  obtain ⟨certs, hCerts, hRest⟩ := Except.ok_of_bind h.eap
  obtain ⟨settings, hSettings, hRest⟩ := Except.ok_of_bind hRest
  have hSame : r.activeCertificates = certs := rows_of_fetchAll hCerts
  rw [hTemplates] at hRest
  refine ⟨_, (Except.ok.inj hRest).symm, rfl, rfl, rfl, rfl, ?_, rfl, fun P hNone hPeap hVersion hRows => ?_⟩
  · rw [← hSame]
    rfl
  · simp only [List.forall_mem_cons, List.not_mem_nil, false_implies, implies_true, and_true]
    exact ⟨setting_like hRows hSettings (by decide) hNone hPeap,
      setting_like hRows hSettings (by decide) hNone hVersion,
      setting_like hRows hSettings (by decide) hNone hVersion⟩

theorem EapVarsOf.oneLined {vars : EapVars} (h : EapVarsOf m r vars) (hDir : '\n' ∉ m.certDir.toList)
    (hSettings : EapSettings (fun text => '\n' ∉ text.toList) r) : EapVarsOneLined vars where
  paths := by
    rw [h.caCertPath, h.caPath, h.serverCertPath, h.serverKeyPath]
    simp only [List.forall_mem_cons, List.not_mem_nil, false_implies, implies_true, and_true]
    exact ⟨notMem_join hDir (by decide), notMem_join hDir (by decide), notMem_join hDir (by decide),
      notMem_join hDir (by decide)⟩
  dhFile path hPath := by
    rw [h.dhFile] at hPath
    split at hPath
    · cases hPath
      exact notMem_join hDir (by decide)
    · cases hPath
  texts := by
    have hTexts := h.settings _ (by decide) (by decide) (by decide) hSettings
    simp only [List.forall_mem_cons, List.not_mem_nil, false_implies, implies_true, and_true] at hTexts ⊢
    rw [h.cipherList]
    exact ⟨hTexts.1, hTexts.2.1, hTexts.2.2, by decide⟩

theorem nonEmpty_textOf_page (titles heading : List String) (parts : List Passage) :
    nonEmpty (textOf (page titles heading parts)) = some (textOf (page titles heading parts)) :=
  nonEmpty_of_ne (textOf_page_ne _ _ _)

theorem hasEap_eq (hTemplates : m.templates = repositoryTemplates) (h : k.Generate m r configs) :
    k.hasEap = true := by
  obtain ⟨vars, hContent, -⟩ := eapContent_eq hTemplates h
  rw [Capabilities.hasEap, hContent]
  exact decide_eq_true (textOf_page_ne _ _ _)

theorem site_generated (hTemplates : m.templates = repositoryTemplates) (h : k.Generate m r configs) :
    ∀ site ∈ siteFiles, ∃ content, configs.get? site = some content := by
  refine List.forall_mem_cons.mpr ⟨?_, List.forall_mem_singleton.mpr ?_⟩
  · rw [h.defaultFile, hTemplates]
    exact ⟨_, nonEmpty_textOf_page _ _ _⟩
  · rw [h.innerTunnelFile, hTemplates, hasEap_eq hTemplates h, if_pos rfl]
    exact ⟨_, nonEmpty_textOf_page _ _ _⟩

theorem eap_generated (hTemplates : m.templates = repositoryTemplates) (h : k.Generate m r configs) :
    configs.get? "mods-available/eap" = some k.eapContent := by
  rw [h.eapFile]
  exact nonEmpty_of_ne (of_decide_eq_true (hasEap_eq hTemplates h))

theorem python_generated (hTemplates : m.templates = repositoryTemplates) (h : k.Generate m r configs) :
    configs.get? "mods-available/python" =
      if m.rlmPython3Available then some (textOf (pythonLines "/etc/freeradius/mods-config/python")) else none := by
  rw [h.pythonFile, h.python]
  split
  · rw [Manager.generatePythonConfig, hTemplates]
    exact nonEmpty_textOf_page _ _ _
  · rfl

theorem ldap_generated (hTemplates : m.templates = repositoryTemplates) (h : k.Generate m r configs) :
    (configs.get? "mods-available/ldap_orw").isSome ↔ r.enabledLdapServers ≠ [] := by
  obtain ⟨servers, hServers, hRest⟩ := Except.ok_of_bind h.ldap
  obtain ⟨rendered, -, hRest⟩ := Except.ok_of_bind hRest
  have hSame : r.enabledLdapServers = servers := rows_of_fetchAll hServers
  rw [h.ldapFile, hSame]
  rw [hTemplates] at hRest
  cases servers with
  | nil =>
    obtain ⟨hFiles, -⟩ := Prod.mk.inj (Except.ok.inj hRest)
    simp [← hFiles]
  | cons server servers =>
    obtain ⟨hFiles, -⟩ := Prod.mk.inj (Except.ok.inj hRest)
    simp [← hFiles]

/-- The module files of a call, by what they need. -/
theorem module_generated (hTemplates : m.templates = repositoryTemplates)
    (h : m.generateAllConfigs r = .ok configs) :
    (m.named r (resolve (m.outputPath "mods-available/eap"))).isSome ∧
      ((m.named r (resolve (m.outputPath "mods-available/python"))).isSome ↔ m.rlmPython3Available = true) ∧
      ((m.named r (resolve (m.outputPath "mods-available/ldap_orw"))).isSome ↔ r.enabledLdapServers ≠ []) ∧
      ∀ site ∈ siteFiles, (m.named r (resolve (m.outputPath site))).isSome := by
  obtain ⟨k, hk⟩ := exists_capabilities h
  have hSites : ∀ site ∈ siteFiles, site ∈ managedFiles := by decide
  refine ⟨?_, ?_, ?_, fun site hSite => ?_⟩
  · rw [named_managed h (by decide), eap_generated hTemplates hk]
    rfl
  · rw [named_managed h (by decide), python_generated hTemplates hk, Option.isSome_map]
    split <;> simp_all
  · rw [named_managed h (by decide), Option.isSome_map]
    exact ldap_generated hTemplates hk
  · obtain ⟨content, hContent⟩ := site_generated hTemplates hk site hSite
    rw [named_managed h (hSites site hSite), hContent]
    rfl

end Repository

/-! ## Sites that load -/

section Load

open Container

variable {m : Manager} {before after : List Event} {recreated : Bool} {c last : Call}

theorem module_of_managed {file : String} (h : "mods-available/" ++ file ∈ managedFiles) :
    "mods-available/" ++ file ∈ moduleFiles := by
  have hOthers : ∀ f ∈ managedFiles, f ∈ moduleFiles ∨ f.toList.take 5 ≠ "mods-".toList := by decide
  refine (hOthers _ h).resolve_right fun hNot => hNot ?_
  rw [String.toList_append]
  rfl

/-- The files that the last call generates are there. -/
theorem lastNamed_last (calls : List Call) {configs : Dict String}
    (hConfigs : m.generateAllConfigs last.toReads = .ok configs) {f content : String} (hf : f ∈ managedFiles)
    (hContent : configs.get? f = some content) :
    m.lastNamed (calls ++ [last]) (resolve (m.outputPath f)) = some content.toUTF8 := by
  have hNamed : m.lastNamed [last] (resolve (m.outputPath f)) = some content.toUTF8 := by
    rw [Manager.lastNamed, Manager.lastNamed, Option.none_or, named_managed hConfigs hf, hContent]
    rfl
  rw [lastNamed_append, hNamed, Option.some_or]

theorem held_last {events : List Event} (hLast : (events.map Event.call).getLast? = some last)
    (hClean : CleanRun m (unrecorded fun _ => none) (events.map Event.call))
    (hOk : NoErrorRun m (unrecorded fun _ => none) (events.map Event.call)) {configs : Dict String}
    (hConfigs : m.generateAllConfigs last.toReads = .ok configs) {f content : String} (hf : f ∈ managedFiles)
    (hContent : configs.get? f = some content) :
    held m (run m events).world.disk f = some content.toUTF8 := by
  obtain ⟨front, hFront⟩ := List.getLast?_eq_some_iff.mp hLast
  rw [held_run hClean hOk, hFront]
  exact lastNamed_last front hConfigs hf hContent

theorem text_of_held {d : Disk} {f content text : String} (h : held m d f = some content.toUTF8)
    (hText : held m d f = some text.toUTF8) : text = content :=
  String.toByteArray_inj.mp (Option.some.inj (hText.symm.trans h))

section LastFiles

variable {l : SiteLexis} {s : Container} {configs : Dict String} {k : Capabilities}
  (hTemplates : m.templates = repositoryTemplates) (hk : k.Generate m last.toReads configs)
  (hHeld : ∀ {f content : String}, f ∈ managedFiles → configs.get? f = some content →
    held m s.world.disk f = some content.toUTF8)
  (hSpelled : ∀ server ∈ last.enabledLdapServers, IsWord l.toLexis (m.moduleName server).toList)
include hTemplates hk hHeld

/-- Only the file of the LDAP servers declares the module of one. -/
theorem ldap_declares (hDir : '\n' ∉ m.certDir.toList)
    (hSettings : EapSettings (fun text => '\n' ∉ text.toList) last.toReads)
    (hPython : "mods-available/python" ∈ s.linked → m.rlmPython3Available = true) {server : LdapServer}
    (h : Linked m s (m.moduleName server).toList) : "mods-available/ldap_orw" ∈ s.linked := by
  obtain ⟨file, hFile, hFileLinked, text, hText, hDeclares⟩ := h
  rcases List.mem_cons.mp hFile with rfl | hFile
  · obtain ⟨vars, hEap, hVars⟩ := eapContent_eq hTemplates hk
    rw [text_of_held (hHeld (by decide) (eap_generated hTemplates hk)) hText, hEap,
      declares_eapLines (hVars.oneLined hDir hSettings), List.mem_singleton] at hDeclares
    exact absurd hDeclares (moduleName_ne server (by decide))
  · rcases List.mem_cons.mp hFile with rfl | hFile
    · exact hFileLinked
    · rcases List.mem_singleton.mp hFile with rfl
      have hFile := python_generated hTemplates hk
      rw [if_pos (hPython hFileLinked)] at hFile
      rw [text_of_held (hHeld (by decide) hFile) hText, declares_pythonLines (by decide),
        List.mem_singleton] at hDeclares
      exact absurd hDeclares (moduleName_ne server (by decide))

/-- A module that a generated file declares is linked if that file is. -/
theorem linked_of_declared (hEap : "mods-available/eap" ∈ s.linked)
    (hPython : m.rlmPython3Available = true → "mods-available/python" ∈ s.linked)
    (hLdap : last.enabledLdapServers ≠ [] → "mods-available/ldap_orw" ∈ s.linked)
    (hManaged : Managed configs) {name : Word} (h : DeclaredIn configs name) : Linked m s name := by
  obtain ⟨file, declared, hFile, hDeclares⟩ := h
  have hName : "mods-available/" ++ file ∈ managedFiles :=
    hManaged.subset _ (List.mem_map_of_mem (f := Prod.fst) (Dict.mem_of_get? hFile))
  have hModule := module_of_managed hName
  refine ⟨_, hModule, ?_, declared, hHeld hName hFile, hDeclares⟩
  generalize "mods-available/" ++ file = path at *
  rcases List.mem_cons.mp hModule with rfl | hModule
  · exact hEap
  · rcases List.mem_cons.mp hModule with rfl | hModule
    · exact hLdap ((ldap_generated hTemplates hk).mp (Option.isSome_iff_exists.mpr ⟨declared, hFile⟩))
    · rcases List.mem_singleton.mp hModule with rfl
      refine hPython ?_
      rw [python_generated hTemplates hk] at hFile
      split at hFile
      · assumption
      · cases hFile

include hSpelled

theorem server_linked (hLoad : SitesLoad m l.toLexis s) (hDefault : "sites-available/default" ∈ s.linked)
    {server : LdapServer} (hServer : server ∈ last.enabledLdapServers) :
    Linked m s (m.moduleName server).toList := by
  have hRepository : FromRepository m.templates := hTemplates ▸ fromRepository
  obtain ⟨content, hContent⟩ := site_generated hTemplates hk "sites-available/default" (by decide)
  obtain ⟨statements, hRead, hCalls, -⟩ := hLoad _ (by decide) hDefault content (hHeld (by decide) hContent)
  have hLdapSome := (ldap_generated hTemplates hk).mpr (List.ne_nil_of_mem hServer)
  rw [siteDefault_text hRepository hk hContent,
    readText_textOf (legible_siteDefault (modules_spelled hk hSpelled))] at hRead
  rw [← Option.some.inj hRead] at hCalls
  have hCalled := server_called hk (Option.ne_none_iff_isSome.mpr hLdapSome) hServer
  exact (hCalls _ hCalled).resolve_left (moduleName_notStock server)

theorem load_of_declared (h : ∀ name, DeclaredIn configs name → Linked m s name) :
    SitesLoad m l.toLexis s := by
  intro site hSite _ content hContent
  have hRepository : FromRepository m.templates := hTemplates ▸ fromRepository
  have hSites : ∀ site ∈ siteFiles, site ∈ managedFiles := by decide
  obtain ⟨generated, hGenerated⟩ := site_generated hTemplates hk site hSite
  rw [text_of_held (hHeld (hSites site hSite) hGenerated) hContent]
  refine Resolves.mono ?_ h
  rcases List.mem_cons.mp hSite with rfl | hSite
  · exact siteDefault_resolves hRepository hk hSpelled hGenerated
  · rcases List.mem_singleton.mp hSite with rfl
    exact siteInnerTunnel_resolves hRepository hk hSpelled hGenerated

end LastFiles

section Iff

variable (hTemplates : m.templates = repositoryTemplates) (hAfter : ∀ e ∈ after, e.isStart = false)
  (hLast : ((before ++ [Event.starts recreated c] ++ after).map Event.call).getLast? = some last)
  (hClean : CleanRun m (unrecorded fun _ => none) ((before ++ [Event.starts recreated c] ++ after).map Event.call))
  (hOk : NoErrorRun m (unrecorded fun _ => none) ((before ++ [Event.starts recreated c] ++ after).map Event.call))
include hTemplates hAfter hLast hClean hOk

omit hLast in
/-- What is linked, by the rows. -/
theorem linked_iff : let s := run m (before ++ [Event.starts recreated c] ++ after)
    "mods-available/eap" ∈ s.linked ∧
      ("mods-available/python" ∈ s.linked ↔ m.rlmPython3Available = true) ∧
      ("mods-available/ldap_orw" ∈ s.linked ↔
        ∃ e ∈ before ++ [Event.starts recreated c], e.call.enabledLdapServers ≠ []) ∧
      ∀ site ∈ siteFiles, site ∈ s.linked := by
  have hCalls : (before ++ [Event.starts recreated c] ++ after).map Event.call =
      (before ++ [Event.starts recreated c]).map Event.call ++ after.map Event.call := List.map_append
  rw [hCalls] at hClean hOk
  have hClean' := cleanRun_start hClean
  have hOk' := noErrorRun_start hOk
  have hStart : Event.starts recreated c ∈ before ++ [Event.starts recreated c] :=
    List.mem_append_right _ (List.mem_singleton.mpr rfl)
  have hGenerated : ∀ e ∈ before ++ [Event.starts recreated c],
      ∃ configs, m.generateAllConfigs e.call.toReads = .ok configs := fun e he =>
    generated_of_noError hOk' _ (List.mem_map_of_mem he)
  obtain ⟨configs, hConfigs⟩ := hGenerated _ hStart
  obtain ⟨hEap, hPython, -, hSites⟩ := module_generated hTemplates hConfigs
  refine ⟨?_, ?_, ?_, fun site hSite => ?_⟩
  · exact (mem_linked hAfter hClean' hOk').mpr ⟨by decide, _, hStart, hEap⟩
  · rw [mem_linked hAfter hClean' hOk']
    constructor
    · rintro ⟨-, e, he, hNamed⟩
      obtain ⟨configs', hConfigs'⟩ := hGenerated e he
      exact (module_generated hTemplates hConfigs').2.1.mp hNamed
    · exact fun hAvailable => ⟨by decide, _, hStart, hPython.mpr hAvailable⟩
  · rw [mem_linked hAfter hClean' hOk']
    constructor
    · rintro ⟨-, e, he, hNamed⟩
      obtain ⟨configs', hConfigs'⟩ := hGenerated e he
      exact ⟨e, he, (module_generated hTemplates hConfigs').2.2.1.mp hNamed⟩
    · rintro ⟨e, he, hServers⟩
      obtain ⟨configs', hConfigs'⟩ := hGenerated e he
      exact ⟨by decide, e, he, (module_generated hTemplates hConfigs').2.2.1.mpr hServers⟩
  · exact (mem_linked hAfter hClean' hOk').mpr ⟨List.mem_append_right _ hSite, _, hStart, hSites site hSite⟩

/-- The linked sites load unless the last rows have LDAP servers and the container has not been started
since there were any: the sites then call modules that no linked file declares. -/
theorem sites_load_iff (l : SiteLexis) (hDir : '\n' ∉ m.certDir.toList)
    (hSettings : EapSettings (fun text => '\n' ∉ text.toList) last.toReads)
    (hSpelled : ∀ server ∈ last.enabledLdapServers, IsWord l.toLexis (m.moduleName server).toList) :
    SitesLoad m l.toLexis (run m (before ++ [Event.starts recreated c] ++ after)) ↔
      last.enabledLdapServers = [] ∨
        ∃ e ∈ before ++ [Event.starts recreated c], e.call.enabledLdapServers ≠ [] := by
  obtain ⟨hEap, hPython, hLdap, hSites⟩ := linked_iff hTemplates hAfter hClean hOk
  obtain ⟨configs, hConfigs⟩ := generated_of_noError hOk last (List.mem_of_getLast? hLast)
  obtain ⟨k, hk⟩ := exists_capabilities hConfigs
  have hHeld : ∀ {f content : String}, f ∈ managedFiles → configs.get? f = some content →
      held m (run m (before ++ [Event.starts recreated c] ++ after)).world.disk f = some content.toUTF8 :=
    held_last hLast hClean hOk hConfigs
  constructor
  · intro hLoad
    rcases hServers : last.enabledLdapServers with - | ⟨server, servers⟩
    · exact .inl rfl
    · have hServer : server ∈ last.enabledLdapServers := hServers ▸ List.mem_cons_self
      have hDeclared := server_linked hTemplates hk hHeld hSpelled hLoad (hSites _ (by decide)) hServer
      exact .inr (hLdap.mp (ldap_declares hTemplates hk hHeld hDir hSettings hPython.mp hDeclared))
  · intro hRows
    refine load_of_declared hTemplates hk hHeld hSpelled fun name hName => ?_
    exact linked_of_declared hTemplates hk hHeld hEap hPython.mpr (fun hSome => hLdap.mpr (hRows.resolve_left hSome))
      (Manager.generateAllConfigs_managed hConfigs) hName

end Iff

end Load

/-- The call after an LDAP server was added. -/
def corpCall : Call := { plainCall with toReads := oneServer "secret" }

theorem corpCall_applies : Applies siteManager corpCall where
  faultFree := ⟨fun _ => rfl, rfl, fun _ => rfl, fun _ => rfl, fun _ => rfl, fun _ _ => rfl⟩
  readable := ⟨by decide +kernel, by decide +kernel, by decide +kernel⟩
  decrypts := oneServer_decrypts

theorem plainCall_applies : Applies siteManager plainCall where
  faultFree := plainCall_faultFree
  readable := ⟨by decide, by decide, by decide⟩
  decrypts := ⟨fun _ h => (by cases h), fun _ h => (by cases h), fun _ h => (by cases h),
    fun _ h => (by cases h)⟩

theorem calls_apply {calls : List Call} (h : ∀ c ∈ calls, c = plainCall ∨ c = corpCall) :
    ∀ c ∈ calls, Applies siteManager c := by
  intro c hc
  rcases h c hc with rfl | rfl
  · exact plainCall_applies
  · exact corpCall_applies

/-- An LDAP server that is added while the container runs takes the sites down until the next start. -/
theorem added_server_unlinked :
    ¬Container.SitesLoad siteManager wideLexis
        (Container.run siteManager ([] ++ [Event.starts true plainCall] ++ [Event.applies corpCall])) ∧
      Container.SitesLoad siteManager wideLexis (Container.run siteManager
        ([Event.starts true plainCall, Event.applies corpCall] ++ [Event.starts false corpCall] ++ [])) := by
  have hServers : corpCall.enabledLdapServers = [corpServer "secret"] := rfl
  have hSettings : EapSettings (fun text => '\n' ∉ text.toList) corpCall.toReads :=
    fun _ h => absurd h List.not_mem_nil
  have hDir : '\n' ∉ siteManager.certDir.toList := by decide
  constructor
  · have hApplies : ∀ c ∈ [plainCall, corpCall], Applies siteManager c := calls_apply
      (List.forall_mem_cons.mpr ⟨.inl rfl, List.forall_mem_singleton.mpr (.inr rfl)⟩)
    intro hLoad
    have hRows : corpCall.enabledLdapServers = [] ∨
        ∃ e ∈ [] ++ [Event.starts true plainCall], e.call.enabledLdapServers ≠ [] :=
      (sites_load_iff rfl (List.forall_mem_singleton.mpr rfl) rfl (cleanRun_of_applies hApplies _)
        (noErrorRun_of_applies hApplies _) wideSiteLexis hDir hSettings oneServer_spelled).mp hLoad
    rw [hServers] at hRows
    rcases hRows with hNone | ⟨e, he, hSome⟩
    · cases hNone
    · rcases List.mem_singleton.mp he with rfl
      exact hSome rfl
  · have hApplies : ∀ c ∈ [plainCall, corpCall, corpCall], Applies siteManager c := calls_apply
      (List.forall_mem_cons.mpr ⟨.inl rfl, List.forall_mem_cons.mpr ⟨.inr rfl,
        List.forall_mem_singleton.mpr (.inr rfl)⟩⟩)
    refine (sites_load_iff rfl (fun _ h => absurd h List.not_mem_nil) rfl (cleanRun_of_applies hApplies _)
      (noErrorRun_of_applies hApplies _) wideSiteLexis hDir hSettings oneServer_spelled).mpr (.inr ?_)
    refine ⟨Event.starts false corpCall, List.mem_append_right _ (List.mem_singleton.mpr rfl), ?_⟩
    change corpCall.enabledLdapServers ≠ []
    rw [hServers]
    exact List.cons_ne_nil _ _

end OpenRadiusWeb.BareTexts
