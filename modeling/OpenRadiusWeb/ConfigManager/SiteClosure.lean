import OpenRadiusWeb.ConfigManager.SiteModules
import OpenRadiusWeb.ConfigManager.LeftOver

/-! # The sites refer to what is generated

The modules that the generated sites call are stock modules or declared in a generated file, whatever
the rows are and whichever templates fail to render.
-/

namespace OpenRadiusWeb.BareTexts

open ConfigManager Statements

/-! ## The modules that a file declares -/

section Declares

variable {texts : List (List Char)} {line : List Char} {name : Word} {ws : List Word}

theorem mem_splitOn (hLine : '\n' ∉ line) (h : line ∈ texts) :
    line ∈ (['\n'].intercalate texts).splitOn '\n' := by
  induction texts with
  | nil => cases h
  | cons text texts ih =>
    cases texts with
    | nil =>
      rw [List.mem_singleton.mp h] at hLine ⊢
      have hOne : ['\n'].intercalate [text] = text := by simp
      rw [hOne, List.splitOn_eq_singleton hLine]
      exact List.mem_singleton.mpr rfl
    | cons next texts =>
      have hMore : ['\n'].intercalate (text :: next :: texts) =
          text ++ '\n' :: ['\n'].intercalate (next :: texts) := by
        simp [List.intercalate]
      rw [hMore, List.splitOn_append_cons_self]
      rcases List.mem_cons.mp h with rfl | h
      · rw [List.splitOn_eq_singleton hLine]
        exact List.mem_append_left _ (List.mem_singleton.mpr rfl)
      · exact List.mem_append_right _ (ih h)

theorem declaredBy_opens {l : Lexis} (h : ∀ w ∈ ws, IsWord l w) (hSome : ws ≠ []) :
    declaredBy (unwords (ws ++ [brace])) = ws.getLast?.toList := by
  have hAll : ∀ w ∈ ws ++ [brace], IsWord l w :=
    List.forall_mem_append.mpr ⟨h, List.forall_mem_singleton.mpr isWord_brace⟩
  obtain ⟨first, rest, rfl⟩ := List.exists_cons_of_ne_nil hSome
  obtain ⟨text, hText, -⟩ := unwords_cons first (rest ++ [brace])
  have hFirst := h first List.mem_cons_self
  obtain ⟨c, letters, rfl⟩ := List.exists_cons_of_ne_nil hFirst.nonempty
  have hBlank : (((unwords ((c :: letters) :: rest ++ [brace])).head?.map blank).getD true) = false := by
    rw [List.cons_append, hText]
    exact (hFirst.oneLine c List.mem_cons_self).1
  rw [declaredBy, hBlank, words_unwords, flatMap_words hAll, uncommented_words hAll, classify_opens]
  rfl

theorem mem_splitOn_joined {lines : List ConfigText.Line} {line : ConfigText.Line}
    (hLine : '\n' ∉ line.text) (h : line ∈ lines) :
    line.text ∈ (ConfigText.joined lines).splitOn '\n' := by
  induction lines with
  | nil => cases h
  | cons first lines ih =>
    rw [ConfigText.joined_cons, List.splitOn_append_cons_self]
    rcases List.mem_cons.mp h with rfl | h
    · rw [List.splitOn_eq_singleton hLine]
      exact List.mem_append_left _ (List.mem_singleton.mpr rfl)
    · exact List.mem_append_right _ (ih h)

theorem oneLine_unwords {l : Lexis} (h : ∀ w ∈ ws, IsWord l w) : '\n' ∉ unwords (ws ++ [brace]) := by
  refine notMem_unwords (List.forall_mem_append.mpr ⟨fun w hw hMem => ?_, ?_⟩)
  · exact ((h w hw).oneLine _ hMem).2 rfl
  · exact List.forall_mem_singleton.mpr (by decide)

theorem mem_declares {l : Lexis} {text : List Char} (hLine : unwords (ws ++ [brace]) ∈ text.splitOn '\n')
    (h : ∀ w ∈ ws, IsWord l w) (hName : ws.getLast? = some name) : name ∈ declares (String.ofList text) := by
  have hSome : ws ≠ [] := by
    rintro rfl
    cases hName
  rw [declares, String.toList_ofList]
  refine List.mem_flatMap.mpr ⟨_, hLine, ?_⟩
  rw [declaredBy_opens h hSome, hName]
  exact List.mem_singleton.mpr rfl

theorem mem_declares_page {l : Lexis} {titles heading : List String} {parts : List Passage}
    (h : ∀ w ∈ heading, IsWord l w.toList) (hName : (heading.map String.toList).getLast? = some name) :
    name ∈ declares (textOf (page titles heading parts)) := by
  have hLine : Line.opens 0 (heading.map String.toList) ∈ (page titles heading parts).lines := by
    refine List.mem_flatMap.mpr ⟨encl 0 heading parts, ?_, List.mem_cons_self⟩
    exact List.mem_append_right _ (List.mem_cons_of_mem _ List.mem_cons_self)
  have hWords : ∀ w ∈ heading.map String.toList, IsWord l w := List.forall_mem_map.mpr h
  exact mem_declares (mem_splitOn (oneLine_unwords hWords) (List.mem_map_of_mem (f := Line.text) hLine))
    hWords hName

end Declares

/-! ## What the sites are generated from -/

/-- What `generate_all_configs` finds out before it renders the sites. -/
structure Capabilities where
  eapContent : String
  ldapFiles : List (String × String)
  ldapModuleNames : List String
  pythonContent : String
  realmsEnabled : Bool

namespace Capabilities

variable (k : Capabilities) (m : Manager) (r : Reads)

def hasEap : Bool := k.eapContent ≠ ""

def hasPython : Bool := k.pythonContent ≠ ""

def vars : SiteVars := Manager.siteVars r k.hasPython k.ldapModuleNames k.realmsEnabled

/-- The files that depend on the capabilities, and the capabilities on the rows. -/
structure Generate (configs : Dict String) : Prop where
  eap : m.generateEapConfig r = .ok k.eapContent
  ldap : m.generateLdapConfigs r = .ok (k.ldapFiles, k.ldapModuleNames)
  python : k.pythonContent = if m.rlmPython3Available then m.generatePythonConfig r else ""
  eapFile : configs.get? "mods-available/eap" = nonEmpty k.eapContent
  ldapFile : configs.get? "mods-available/ldap_orw" = k.ldapFiles.head?.map Prod.snd
  pythonFile : configs.get? "mods-available/python" = nonEmpty k.pythonContent
  defaultFile : configs.get? "sites-available/default" =
    nonEmpty ((m.templates.siteDefault k.hasEap (k.vars r)).getD "")
  innerTunnelFile : configs.get? "sites-available/inner-tunnel" =
    if k.hasEap then nonEmpty ((m.templates.siteInnerTunnel (k.vars r)).getD "") else none

end Capabilities

theorem get?_addConfig (configs : Dict String) (filename content f : String) :
    (Manager.addConfig configs filename content).get? f =
      if f = filename then (nonEmpty content).or (configs.get? f) else configs.get? f := by
  unfold Manager.addConfig nonEmpty
  split
  · split <;> rfl
  · split
    · rename_i hName
      rw [hName, Dict.get?_set_self]
      rfl
    · rename_i hName
      exact Dict.get?_set_of_ne _ _ hName

theorem get?_set (d : Dict String) (f content : String) :
    (d.set "mods-available/ldap_orw" content).get? f =
      if f = "mods-available/ldap_orw" then some content else d.get? f := by
  split
  · rename_i hName
    rw [hName, Dict.get?_set_self]
  · rename_i hName
    exact Dict.get?_set_of_ne _ _ hName

theorem exists_capabilities {m : Manager} {r : Reads} {configs : Dict String}
    (h : m.generateAllConfigs r = .ok configs) : ∃ k : Capabilities, k.Generate m r configs := by
  rw [Manager.generateAllConfigs] at h
  obtain ⟨eapContent, hEap, h⟩ := Except.ok_of_bind h
  obtain ⟨⟨files, names⟩, hLdap, h⟩ := Except.ok_of_bind h
  obtain ⟨realms, -, h⟩ := Except.ok_of_bind h
  obtain ⟨proxyContent, -, h⟩ := Except.ok_of_bind h
  obtain ⟨clientsContent, -, h⟩ := Except.ok_of_bind h
  have hFiles : ∀ (d : Dict String) f,
      (files.foldl (fun d file => d.set ("mods-available/" ++ file.1) file.2) d).get? f =
        if f = "mods-available/ldap_orw" then (files.head?.map Prod.snd).or (d.get? f)
        else d.get? f := by
    intro d f
    rcases Manager.generateLdapConfigs_files hLdap with rfl | ⟨content, rfl⟩
    · exact (ite_self _).symm
    · exact get?_set d f content
  refine ⟨⟨eapContent, files, names, if m.rlmPython3Available then m.generatePythonConfig r else "",
    !realms.isEmpty⟩, hEap, hLdap, rfl, ?_, ?_, ?_, ?_, ?_⟩
  all_goals
    rw [← Except.ok.inj h]
    simp only [Capabilities.hasEap, Capabilities.hasPython, Capabilities.vars, decide_eq_true_eq]
    split <;> simp only [get?_addConfig, hFiles, Dict.get?_nil, Option.or_none, String.reduceEq, if_true,
      if_false]

/-! ## Sites that resolve -/

/-- What a template renders, if it renders, is what the repository has for it. -/
structure FromRepository (t : Templates) : Prop where
  eap : ∀ vars content, t.eap vars = some content → content = textOf (eapLines vars)
  ldap : ∀ now servers content, t.ldap now servers = some content →
    ldapTemplate now servers = some content
  siteDefault : ∀ hasEap vars content, t.siteDefault hasEap vars = some content →
    content = textOf (siteDefaultLines hasEap vars)
  siteInnerTunnel : ∀ vars content, t.siteInnerTunnel vars = some content →
    content = textOf (siteInnerTunnelLines vars)
  python : ∀ now path content, t.python now path = some content → content = textOf (pythonLines path)

/-- The site is read, each module it calls is a stock one or declared, and each `Auth-Type` it sets has
a section. -/
def Resolves (l : Lexis) (Declared : Word → Prop) (content : String) : Prop :=
  ∃ statements, l.readText content.toList = some statements ∧
    (∀ name ∈ scan called [] statements, name ∈ stock ∨ Declared name) ∧
    ∀ name ∈ scan authTypeSet [] statements, name ∈ scan authTypeDefined [] statements

theorem Resolves.mono {l : Lexis} {Declared Declared' : Word → Prop} {content : String}
    (h : Resolves l Declared content) (hDeclared : ∀ name, Declared name → Declared' name) :
    Resolves l Declared' content := by
  obtain ⟨statements, hRead, hCalls, hTypes⟩ := h
  exact ⟨statements, hRead, fun name hName => (hCalls name hName).imp_right (hDeclared name), hTypes⟩

/-- A generated module file declares the module. -/
def DeclaredIn (configs : Dict String) (name : Word) : Prop :=
  ∃ file content, configs.get? ("mods-available/" ++ file) = some content ∧ name ∈ declares content

theorem some_of_nonEmpty {text content : String} (h : nonEmpty text = some content) : text = content := by
  unfold nonEmpty at h
  split at h
  · cases h
  · exact Option.some.inj h

theorem nonEmpty_of_ne {text : String} (h : text ≠ "") : nonEmpty text = some text := if_neg h

theorem some_of_getD {rendered : Option String} {content : String}
    (h : nonEmpty (rendered.getD "") = some content) : rendered = some content := by
  have hText := some_of_nonEmpty h
  cases rendered with
  | none =>
    rw [← hText] at h
    exact absurd h (by decide)
  | some text => rw [← hText]; rfl

section Files

variable {l : SiteLexis} {m : Manager} {r : Reads} {configs : Dict String} {k : Capabilities}

theorem eap_declared (hTemplates : FromRepository m.templates) (h : k.Generate m r configs)
    (hEap : k.hasEap = true) : DeclaredIn configs "eap".toList := by
  have hFile := h.eapFile
  rw [nonEmpty_of_ne (of_decide_eq_true hEap)] at hFile
  refine ⟨"eap", k.eapContent, hFile, ?_⟩
  obtain ⟨certs, -, hRest⟩ := Except.ok_of_bind h.eap
  obtain ⟨settings, -, hRest⟩ := Except.ok_of_bind hRest
  have hContent := Except.ok.inj hRest
  rw [hTemplates.eap _ k.eapContent (some_of_getD (by
    rw [hContent]
    exact nonEmpty_of_ne (of_decide_eq_true hEap)))]
  exact mem_declares_page (l := wideLexis) (by decide) rfl

theorem orw_declared (hTemplates : FromRepository m.templates) (h : k.Generate m r configs)
    (hPython : k.hasPython = true) : DeclaredIn configs "orw".toList := by
  have hSome : k.pythonContent ≠ "" := of_decide_eq_true hPython
  have hFile := h.pythonFile
  rw [nonEmpty_of_ne hSome] at hFile
  refine ⟨"python", k.pythonContent, hFile, ?_⟩
  have hContent := h.python
  split at hContent
  · rw [hTemplates.python r.now _ k.pythonContent (some_of_getD (by
      rw [hContent] at hSome ⊢
      exact nonEmpty_of_ne hSome))]
    exact mem_declares_page (l := wideLexis) (by decide) rfl
  · exact absurd hContent hSome

theorem rows_of_fetchAll {α : Type} {q : Query} {rows rows' : List α} (h : r.fetchAll q rows = .ok rows') :
    rows = rows' := by
  rw [Reads.fetchAll] at h
  split at h
  · cases h
  · exact Except.ok.inj h

/-- The names that the sites get, and the one file that declares them. -/
theorem ldap_file (h : k.Generate m r configs) :
    configs.get? "mods-available/ldap_orw" = none ∧ k.ldapModuleNames = [] ∨
      ∃ rendered content, m.templates.ldap r.now rendered = some content ∧
        configs.get? "mods-available/ldap_orw" = some content ∧
        k.ldapModuleNames = rendered.map RenderedServer.moduleName ∧
        k.ldapModuleNames = r.enabledLdapServers.map m.moduleName := by
  have hFile := h.ldapFile
  obtain ⟨servers, hServers, hRest⟩ := Except.ok_of_bind h.ldap
  obtain ⟨rendered, hRendered, hRest⟩ := Except.ok_of_bind hRest
  have hSame : r.enabledLdapServers = servers := rows_of_fetchAll hServers
  split at hRest
  · obtain ⟨hFiles, hNames⟩ := Prod.mk.inj (Except.ok.inj hRest)
    rw [← hFiles] at hFile
    exact .inl ⟨hFile, hNames.symm⟩
  · obtain ⟨hFiles, hNames⟩ := Prod.mk.inj (Except.ok.inj hRest)
    rw [← hFiles] at hFile
    exact .inl ⟨hFile, hNames.symm⟩
  · rename_i content hTemplate _
    obtain ⟨hFiles, hNames⟩ := Prod.mk.inj (Except.ok.inj hRest)
    rw [← hFiles] at hFile
    refine .inr ⟨rendered, content, hTemplate, hFile, hNames.symm, ?_⟩
    rw [← hNames, hSame]
    exact mapM_renderedServer_names hRendered

theorem ldap_declared (hTemplates : FromRepository m.templates) (h : k.Generate m r configs)
    (hSpelled : ∀ server ∈ r.enabledLdapServers, IsWord l.toLexis (m.moduleName server).toList)
    {name : String} (hName : name ∈ k.ldapModuleNames) : DeclaredIn configs name.toList := by
  rcases ldap_file h with ⟨-, hNone⟩ | ⟨rendered, content, hRendered, hFile, hModules, hNames⟩
  · rw [hNone] at hName
    cases hName
  · refine ⟨"ldap_orw", content, hFile, ?_⟩
    have hWord : IsWord l.toLexis name.toList := by
      rw [hNames] at hName
      obtain ⟨server, hServer, rfl⟩ := List.mem_map.mp hName
      exact hSpelled server hServer
    rw [hModules] at hName
    obtain ⟨s, hs, rfl⟩ := List.mem_map.mp hName
    obtain rfl := Option.some.inj (hTemplates.ldap _ _ _ hRendered)
    have hWords : ∀ w ∈ ["ldap".toList, s.moduleName.toList], IsWord l.toLexis w :=
      List.forall_mem_cons.mpr ⟨isWord_of_spelled (by decide), List.forall_mem_singleton.mpr hWord⟩
    have hLine : ConfigText.Line.opensNamed 0 "ldap".toList s.moduleName.toList ∈ ldapLines rendered := by
      refine List.mem_append_right _ (List.mem_flatMap.mpr ⟨s, hs, ?_⟩)
      simp [serverLines]
    have hText : (ConfigText.Line.opensNamed 0 "ldap".toList s.moduleName.toList).text =
        unwords (["ldap".toList, s.moduleName.toList] ++ [brace]) := rfl
    have hBreak := oneLine_unwords hWords
    rw [← hText] at hBreak
    have hSplit := mem_splitOn_joined hBreak hLine
    rw [hText] at hSplit
    exact mem_declares hSplit hWords rfl

theorem moduleName_ne (server : LdapServer) {w : Word} (h : w.take 5 ≠ "ldap_".toList) :
    (m.moduleName server).toList ≠ w := by
  rintro rfl
  refine h ?_
  rw [Manager.moduleName, String.toList_append]
  rfl

/-- The lines of the sites can be read when the names of the LDAP modules can. -/
theorem modules_spelled (h : k.Generate m r configs)
    (hSpelled : ∀ server ∈ r.enabledLdapServers, IsWord l.toLexis (m.moduleName server).toList) :
    ∀ ldapMod ∈ (k.vars r).ldapModules, ModuleSpelled l.toLexis ldapMod := by
  intro ldapMod hMod
  obtain ⟨name, hName, rfl⟩ := List.mem_map.mp hMod
  rcases ldap_file h with ⟨-, hNone⟩ | ⟨-, -, -, -, -, hNames⟩
  · rw [hNone] at hName
    cases hName
  · rw [hNames] at hName
    obtain ⟨server, hServer, rfl⟩ := List.mem_map.mp hName
    have hWord := hSpelled server hServer
    refine ⟨hWord, moduleName_ne server (by decide), moduleName_ne server (by decide), fun hMem => ?_⟩
    rw [Manager.ldapModule, String.toList_ofList] at hMem
    have hLine : '\n' ∈ (m.moduleName server).toList := by
      split at hMem
      · exact List.mem_of_mem_drop hMem
      · exact hMem
    exact (hWord.oneLine _ hLine).2 rfl

theorem readText_textOf {p : Passage} (h : p.Legible l.toLexis) :
    l.readText (textOf p).toList = some p.statements := by
  rw [textOf, String.toList_ofList]
  exact Passage.readText_of_legible h

theorem resolves_of_passage {p : Passage} {Declared : Word → Prop} (hLegible : p.Legible l.toLexis)
    (hCalls : ∀ name ∈ p.scan called [], name ∈ stock ∨ Declared name)
    (hTypes : ∀ name ∈ p.scan authTypeSet [], name ∈ p.scan authTypeDefined []) :
    Resolves l.toLexis Declared (textOf p) := by
  exact ⟨p.statements, readText_textOf hLegible, hCalls, hTypes⟩

theorem offered_declared (hTemplates : FromRepository m.templates) (h : k.Generate m r configs)
    (hSpelled : ∀ server ∈ r.enabledLdapServers, IsWord l.toLexis (m.moduleName server).toList)
    {name : Word} (hOffered : Offered (k.vars r) k.hasEap name) : name ∈ stock ∨ DeclaredIn configs name := by
  rcases hOffered with hStock | ⟨hEap, rfl⟩ | ⟨hPython, rfl⟩ | ⟨ldapMod, hMod, rfl⟩
  · exact .inl hStock
  · exact .inr (eap_declared hTemplates h hEap)
  · exact .inr (orw_declared hTemplates h hPython)
  · obtain ⟨name, hName, rfl⟩ := List.mem_map.mp hMod
    exact .inr (ldap_declared hTemplates h hSpelled hName)

theorem siteDefault_text (hTemplates : FromRepository m.templates) (h : k.Generate m r configs) {content : String}
    (hContent : configs.get? "sites-available/default" = some content) :
    content = textOf (siteDefaultLines k.hasEap (k.vars r)) := by
  rw [h.defaultFile] at hContent
  exact hTemplates.siteDefault _ _ _ (some_of_getD hContent)

theorem siteDefault_resolves (hTemplates : FromRepository m.templates) (h : k.Generate m r configs)
    (hSpelled : ∀ server ∈ r.enabledLdapServers, IsWord l.toLexis (m.moduleName server).toList)
    {content : String} (hContent : configs.get? "sites-available/default" = some content) :
    Resolves l.toLexis (DeclaredIn configs) content := by
  rw [siteDefault_text hTemplates h hContent]
  refine resolves_of_passage (legible_siteDefault (modules_spelled h hSpelled)) (fun name hName => ?_)
    fun name hName => ?_
  · exact offered_declared hTemplates h hSpelled (mem_siteDefault_calls.mp (.inl hName))
  · exact mem_siteDefault_sections.mpr (.inr (.inl (mem_siteDefault_authTypes.mp hName)))

theorem siteInnerTunnel_resolves (hTemplates : FromRepository m.templates) (h : k.Generate m r configs)
    (hSpelled : ∀ server ∈ r.enabledLdapServers, IsWord l.toLexis (m.moduleName server).toList)
    {content : String} (hContent : configs.get? "sites-available/inner-tunnel" = some content) :
    Resolves l.toLexis (DeclaredIn configs) content := by
  rw [h.innerTunnelFile] at hContent
  split at hContent
  · rename_i hEap
    rw [hTemplates.siteInnerTunnel _ _ (some_of_getD hContent)]
    refine resolves_of_passage (legible_siteInnerTunnel (modules_spelled h hSpelled))
      (fun name hName => ?_) fun name hName => ?_
    · have hOffered := mem_siteInnerTunnel_calls.mp (.inl hName)
      rw [← hEap] at hOffered
      exact offered_declared hTemplates h hSpelled hOffered
    · exact mem_siteInnerTunnel_sections.mpr
        (.inr (.inr (.inr (mem_siteInnerTunnel_authTypes.mp hName))))
  · cases hContent

theorem moduleName_notStock (server : LdapServer) : (m.moduleName server).toList ∉ stock := by
  have hStocked : ∀ w ∈ stock, w.take 5 ≠ "ldap_".toList := by decide
  exact fun hStock => moduleName_ne server (hStocked _ hStock) rfl

/-- The outer site calls each LDAP server that the file of the servers declares. -/
theorem server_called (h : k.Generate m r configs) (hFile : configs.get? "mods-available/ldap_orw" ≠ none)
    {server : LdapServer} (hServer : server ∈ r.enabledLdapServers) :
    (m.moduleName server).toList ∈ (siteDefaultLines k.hasEap (k.vars r)).scan called [] := by
  rcases ldap_file h with ⟨hNone, -⟩ | ⟨-, -, -, -, -, hNames⟩
  · exact absurd hNone hFile
  · have hOffered : Offered (k.vars r) k.hasEap (m.moduleName server).toList := by
      refine .inr (.inr (.inr ⟨Manager.ldapModule (m.moduleName server), List.mem_map_of_mem ?_, rfl⟩))
      rw [hNames]
      exact List.mem_map_of_mem hServer
    exact (mem_siteDefault_calls.mpr hOffered).resolve_right (moduleName_notStock server)

/-- The generated sites call no module that is neither stock nor declared in a generated file, set no
`Auth-Type` without a section, and the outer one calls each LDAP server that is enabled when the file
of these is generated. Templates that fail to render do not change that. -/
theorem sites_resolve (l : SiteLexis) (hTemplates : FromRepository m.templates)
    (h : m.generateAllConfigs r = .ok configs)
    (hSpelled : ∀ server ∈ r.enabledLdapServers, IsWord l.toLexis (m.moduleName server).toList) :
    (∀ site ∈ ["sites-available/default", "sites-available/inner-tunnel"], ∀ content,
      configs.get? site = some content → Resolves l.toLexis (DeclaredIn configs) content) ∧
    ∀ content, configs.get? "sites-available/default" = some content →
      configs.get? "mods-available/ldap_orw" ≠ none → ∀ server ∈ r.enabledLdapServers,
        ∃ statements, l.readText content.toList = some statements ∧
          (m.moduleName server).toList ∈ scan called [] statements := by
  obtain ⟨k, hk⟩ := exists_capabilities h
  refine ⟨List.forall_mem_cons.mpr ⟨fun content hContent => ?_,
    List.forall_mem_singleton.mpr fun content hContent => ?_⟩, fun content hContent hFile server hServer => ?_⟩
  · exact siteDefault_resolves hTemplates hk hSpelled hContent
  · exact siteInnerTunnel_resolves hTemplates hk hSpelled hContent
  · rw [siteDefault_text hTemplates hk hContent]
    exact ⟨_, readText_textOf (legible_siteDefault (modules_spelled hk hSpelled)),
      server_called hk hFile hServer⟩

end Files

def repositoryTemplates : Templates where
  eap vars := some (textOf (eapLines vars))
  ldap := ldapTemplate
  siteDefault hasEap vars := some (textOf (siteDefaultLines hasEap vars))
  siteInnerTunnel vars := some (textOf (siteInnerTunnelLines vars))
  python _ pythonPath := some (textOf (pythonLines pythonPath))

/-- Every character but a line break may stand in a word. -/
def wideSiteLexis : SiteLexis where
  toLexis := wideLexis
  site c h := by
    have hNot : siteChar '\n' = false := by decide
    rw [wideLexis, bne_iff_ne]
    rintro rfl
    rw [hNot] at h
    cases h

theorem fromRepository : FromRepository repositoryTemplates where
  eap _ _ h := (Option.some.inj h).symm
  ldap _ _ _ h := h
  siteDefault _ _ _ h := (Option.some.inj h).symm
  siteInnerTunnel _ _ h := (Option.some.inj h).symm
  python _ _ _ h := (Option.some.inj h).symm

def siteManager : Manager := { ldapManager with templates := repositoryTemplates }

theorem oneServer_decrypts : Decrypts siteManager (oneServer "secret") where
  keys _ h := by cases h
  bindPasswords _ _ := by
    unfold Manager.decryptSecret
    split
    · exact ⟨_, rfl⟩
    · split
      · exact ⟨_, rfl⟩
      · exact ⟨_, rfl⟩
  proxySecrets _ h := by cases h
  clientSecrets _ h := by cases h

theorem oneServer_spelled : ∀ server ∈ (oneServer "secret").enabledLdapServers,
    IsWord wideSiteLexis.toLexis (siteManager.moduleName server).toList := by
  refine List.forall_mem_singleton.mpr ?_
  have hName : siteManager.moduleName (corpServer "secret") = "ldap_corp_ad" :=
    (by decide : siteManager.moduleName (sampleServer "corp-ad" "CA 1") = "ldap_corp_ad")
  rw [hName]
  exact isWord_of_spelled (by decide)

theorem textOf_page_ne (titles heading : List String) (parts : List Passage) :
    textOf (page titles heading parts) ≠ "" := by
  intro h
  have hCloses : Line.closes 0 ∈ (page titles heading parts).lines := by
    refine List.mem_flatMap.mpr ⟨encl 0 heading parts, ?_, ?_⟩
    · exact List.mem_append_right _ (List.mem_cons_of_mem _ List.mem_cons_self)
    · exact List.mem_cons_of_mem _ (List.mem_append_right _ (List.mem_singleton.mpr rfl))
  have hSplit := mem_splitOn (by decide) (List.mem_map_of_mem (f := Line.text) hCloses)
  have hNone : ['\n'].intercalate ((page titles heading parts).lines.map Line.text) = [] :=
    String.ofList_injective h
  rw [hNone] at hSplit
  exact absurd hSplit (by decide)

theorem sites_resolve_corp : ∃ configs, siteManager.generateAllConfigs (oneServer "secret") = .ok configs ∧
    ∃ content, configs.get? "sites-available/default" = some content ∧
      Resolves wideLexis (DeclaredIn configs) content := by
  obtain ⟨configs, h⟩ := Manager.generateAllConfigs_succeeds (fun _ => rfl) oneServer_decrypts
  obtain ⟨k, hk⟩ := exists_capabilities h
  have hFile := hk.defaultFile
  refine ⟨configs, h, _, hFile.trans (nonEmpty_of_ne (textOf_page_ne _ _ _)), ?_⟩
  exact (sites_resolve wideSiteLexis fromRepository h oneServer_spelled).1 _ List.mem_cons_self _
    (hFile.trans (nonEmpty_of_ne (textOf_page_ne _ _ _)))

end OpenRadiusWeb.BareTexts
