import OpenRadiusWeb.ConfigManager.StoredHash
import Mathlib.Data.List.Pairwise

/-! # Generated names

The modules of the LDAP servers, the files of their CAs and the home servers and pools of the realms
are named after the names of the rows, in lower case and with blanks, hyphens and dots as
underscores. Names that differ in nothing else meet, and any other character is kept.
-/

namespace OpenRadiusWeb.ConfigManager

open Paths

/-- The characters that become underscores, and the underscore. -/
def separators : List Char := [' ', '-', '.', '_']

def safeChar (c : Char) : Char := if c ∈ separators then '_' else c

namespace Manager

variable (m : Manager) (r : Reads)

def moduleName (server : LdapServer) : String := "ldap_" ++ m.safeName server.name

def homeServerName (realm : Realm) : String := "hs_" ++ m.safeName realm.name

def poolName (realm : Realm) : String := "pool_" ++ m.safeName realm.name

end Manager

/-- The rows `generate_proxy_config` makes home servers for. -/
def Reads.proxyRealms (r : Reads) : List Realm :=
  (Sorting.sortBy (fun s => toLex (Sorting.nullsLast s.priority, s.name))
    (r.db.radiusRealms.filter fun s => s.enabled = some true)).filter fun realm => realm.realmType = "proxy"

def hasCa (server : LdapServer) : Bool := orEmpty server.tlsCaCert ≠ ""

/-- ASCII letters, digits, underscores and hyphens. -/
def identifierChar (c : Char) : Bool := c.isAlphanum || c == '_' || c == '-'

/-- A name that can be written bare, as that of a module or a server. -/
def Identifier (name : String) : Prop := name ≠ "" ∧ ∀ c ∈ name.toList, identifierChar c = true

section Claim

variable (m : Manager) (r : Reads)

def generatedNames : List String :=
  r.enabledLdapServers.map m.moduleName ++ r.proxyRealms.map m.homeServerName ++ r.proxyRealms.map m.poolName

/-- Each row has names of its own, all of them identifiers, and its CA is written where its module
looks for it. -/
structure Named : Prop where
  modules : (r.enabledLdapServers.map m.moduleName).Nodup
  files : ((r.enabledLdapServers.filter hasCa).map fun server => resolve (m.ldapCaPath server)).Nodup
  homeServers : (r.proxyRealms.map m.homeServerName).Nodup
  pools : (r.proxyRealms.map m.poolName).Nodup
  identifiers : ∀ name ∈ generatedNames m r, Identifier name
  rendered : ∀ server ∈ r.enabledLdapServers, ∀ rendered, m.renderedServer server = .ok rendered →
    m.ldapSteps server = rendered.tlsCaCertPath.toList.map fun path =>
      CertStep.write path (orEmpty server.tlsCaCert)

/-- Two characters that are the same in a generated name. -/
def SameChar (c d : Char) : Prop := c = d ∨ (c ∈ separators ∧ d ∈ separators)

/-- Two names that meet: in lower case they differ in separators alone. -/
def Meet (a b : String) : Prop := List.Forall₂ SameChar (m.lower a).toList (m.lower b).toList

/-- In lower case the name has only ASCII letters, digits and separators. -/
def Spellable (name : String) : Prop := ∀ c ∈ (m.lower name).toList, c.isAlphanum = true ∨ c ∈ separators

/-- No two servers and no two proxy realms meet, and their names are plain. -/
structure SafeNames : Prop where
  servers : r.enabledLdapServers.Pairwise fun a b => ¬ Meet m a.name b.name
  realms : r.proxyRealms.Pairwise fun a b => ¬ Meet m a.name b.name
  plainServers : ∀ server ∈ r.enabledLdapServers, Spellable m server.name
  plainRealms : ∀ realm ∈ r.proxyRealms, Spellable m realm.name

end Claim

/-! ## The names in the generated texts -/

section Texts

variable {m : Manager} {r : Reads}

theorem renderedServer_names {server : LdapServer} {rendered : RenderedServer}
    (h : m.renderedServer server = .ok rendered) : rendered.moduleName = m.moduleName server ∧
      rendered.tlsCaCertPath = if hasCa server then some (m.ldapCaPath server) else none := by
  obtain ⟨bindPassword, -, hRest⟩ := Except.ok_of_bind h
  cases hRest
  refine ⟨rfl, ?_⟩
  by_cases hCa : orEmpty server.tlsCaCert = "" <;> simp [hasCa, hCa, Manager.ldapCaPath, Manager.ldapCertsDir]

theorem mapM_renderedServer_names {servers : List LdapServer} {rendered : List RenderedServer}
    (h : servers.mapM m.renderedServer = .ok rendered) :
    rendered.map RenderedServer.moduleName = servers.map m.moduleName := by
  induction servers generalizing rendered with
  | nil => cases h; rfl
  | cons server servers ih =>
    rw [List.mapM_cons] at h
    obtain ⟨first, hFirst, h⟩ := Except.ok_of_bind h
    obtain ⟨rest, hRest, h⟩ := Except.ok_of_bind h
    cases h
    rw [List.map_cons, List.map_cons, (renderedServer_names hFirst).1, ih hRest]

/-- The module names that the site templates get are those of the rendered servers. -/
theorem generateLdapConfigs_names {files : List (String × String)} {names : List String}
    (h : m.generateLdapConfigs r = .ok (files, names)) :
    names = [] ∨ names = r.enabledLdapServers.map m.moduleName := by
  obtain ⟨servers, hServers, h⟩ := Except.ok_of_bind h
  obtain ⟨rendered, hRendered, h⟩ := Except.ok_of_bind h
  have hSame : r.enabledLdapServers = servers := by
    rw [Reads.loadLdapServers, Reads.fetchAll] at hServers
    split at hServers
    · cases hServers
    · exact Except.ok.inj hServers
  split at h
  · cases h
    exact .inl rfl
  · cases h
    exact .inl rfl
  · cases h
    exact .inr (hSame ▸ mapM_renderedServer_names hRendered)

theorem homeServerLines_names {realm : Realm} {lines : List String} (h : m.homeServerLines realm = .ok lines) :
    lines.head? = some ("home_server " ++ m.homeServerName realm ++ " \x7b") ∧
      lines.drop 10 = ["home_server_pool " ++ m.poolName realm ++ " \x7b", "    type = fail-over",
        "    home_server = " ++ m.homeServerName realm, "\x7d", ""] := by
  obtain ⟨secret, -, hRest⟩ := Except.ok_of_bind h
  cases hRest
  have hServer : "home_server " ++ m.homeServerName realm = "home_server hs_" ++ m.safeName realm.name :=
    String.append_assoc.symm
  have hPool : "home_server_pool " ++ m.poolName realm = "home_server_pool pool_" ++ m.safeName realm.name :=
    String.append_assoc.symm
  have hMember : "    home_server = " ++ m.homeServerName realm =
      "    home_server = hs_" ++ m.safeName realm.name := String.append_assoc.symm
  rw [hServer, hPool, hMember]
  exact ⟨rfl, rfl⟩

theorem proxyRealms_of_load {q : Query} {realms : List Realm} (h : r.loadRealms q = .ok realms) :
    (realms.filter fun realm => realm.realmType = "proxy") = r.proxyRealms := by
  rw [Reads.loadRealms, Reads.fetchAll] at h
  split at h
  · cases h
  · cases h
    rfl

/-- A CA is written where the module of its server looks for it. -/
theorem ldapSteps_rendered {server : LdapServer} {rendered : RenderedServer}
    (h : m.renderedServer server = .ok rendered) : m.ldapSteps server =
      rendered.tlsCaCertPath.toList.map fun path => CertStep.write path (orEmpty server.tlsCaCert) := by
  rw [(renderedServer_names h).2, Manager.ldapSteps, Manager.writeIf]
  by_cases hCa : orEmpty server.tlsCaCert = "" <;> simp [hasCa, hCa]

end Texts

/-! ## Which names are the same, and which are identifiers -/

section Names

variable {m : Manager} {r : Reads}

theorem toList_replaceChar (c : Char) (s : String) :
    (Text.replaceChar c "_" s).toList = s.toList.map fun x => if x = c then '_' else x := by
  rw [Text.replaceChar, String.toList_ofList, ← List.flatMap_singleton' (s.toList.map _), List.flatMap_map]
  refine List.flatMap_congr fun x _ => ?_
  split <;> rfl

theorem toList_safeName (name : String) : (m.safeName name).toList = (m.lower name).toList.map safeChar := by
  rw [Manager.safeName, toList_replaceChar, toList_replaceChar, toList_replaceChar, List.map_map, List.map_map]
  refine List.map_congr_left fun c _ => ?_
  simp only [Function.comp_apply]
  by_cases h : c ∈ separators
  · rw [safeChar, if_pos h]
    simp only [separators, List.mem_cons, List.not_mem_nil, or_false] at h
    obtain rfl | rfl | rfl | rfl := h <;> rfl
  · have hNot : c ≠ ' ' ∧ c ≠ '-' ∧ c ≠ '.' := by
      simp only [separators, List.mem_cons, List.not_mem_nil, or_false, not_or] at h
      exact ⟨h.1, h.2.1, h.2.2.1⟩
    rw [safeChar, if_neg h, if_neg hNot.1, if_neg hNot.2.1, if_neg hNot.2.2]

theorem safeChar_eq_iff {c d : Char} : safeChar c = safeChar d ↔ SameChar c d := by
  have hUnderscore : '_' ∈ separators := by decide
  rw [safeChar, safeChar, SameChar]
  split
  · rename_i hc
    split
    · rename_i hd
      exact ⟨fun _ => .inr ⟨hc, hd⟩, fun _ => rfl⟩
    · rename_i hd
      constructor
      · intro h
        exact absurd (h ▸ hUnderscore) hd
      · rintro (rfl | ⟨-, h⟩)
        · exact absurd hc hd
        · exact absurd h hd
  · rename_i hc
    split
    · rename_i hd
      constructor
      · intro h
        exact absurd (h ▸ hUnderscore) hc
      · rintro (rfl | ⟨h, -⟩)
        · exact absurd hd hc
        · exact absurd h hc
    · constructor
      · intro h
        exact .inl h
      · rintro (h | ⟨h, -⟩)
        · exact h
        · exact absurd h hc

theorem safeName_eq_iff {a b : String} : m.safeName a = m.safeName b ↔ Meet m a b := by
  rw [← String.toList_inj, toList_safeName, toList_safeName, ← List.forall₂_eq_eq_eq,
    List.forall₂_map_left_iff, List.forall₂_map_right_iff, Meet]
  exact ⟨fun h => h.imp fun _ _ => safeChar_eq_iff.mp, fun h => h.imp fun _ _ => safeChar_eq_iff.mpr⟩

theorem identifierChar_safeChar {c : Char} :
    identifierChar (safeChar c) = true ↔ c.isAlphanum = true ∨ c ∈ separators := by
  by_cases h : c ∈ separators
  · rw [safeChar, if_pos h]
    exact ⟨fun _ => .inr h, fun _ => rfl⟩
  · have hUnderscore : c ≠ '_' := fun hSame => h (hSame ▸ by decide)
    have hHyphen : c ≠ '-' := fun hSame => h (hSame ▸ by decide)
    simp [safeChar, identifierChar, h, hUnderscore, hHyphen]

/-- A generated name is an identifier exactly if the name of its row is plain. -/
theorem identifier_iff {mark name : String} (hMark : Identifier mark) :
    Identifier (mark ++ m.safeName name) ↔ Spellable m name := by
  have hSome : mark ++ m.safeName name ≠ "" := by
    intro hEmpty
    rw [String.append_eq_empty_iff] at hEmpty
    exact hMark.1 hEmpty.1
  rw [Identifier, Spellable, String.toList_append, toList_safeName, List.forall_mem_append, List.forall_mem_map]
  constructor
  · rintro ⟨-, -, h⟩ c hc
    exact identifierChar_safeChar.mp (h c hc)
  · intro h
    exact ⟨hSome, hMark.2, fun c hc => identifierChar_safeChar.mpr (h c hc)⟩

theorem nodup_names {α : Type} {rows : List α} {name : α → String} (mark : String) :
    (rows.map fun row => mark ++ m.safeName (name row)).Nodup ↔
      rows.Pairwise fun a b => ¬ Meet m (name a) (name b) := by
  rw [List.Nodup, List.pairwise_map]
  refine List.Pairwise.iff fun a b => not_congr ?_
  rw [String.append_right_inj, safeName_eq_iff]

/-! ## The files of the CAs -/

theorem slash_not_mem {name : String} (h : Spellable m name) : '/' ∉ (m.safeName name).toList := by
  have hMark : Identifier "ldap_" := ⟨by decide, by decide⟩
  intro hSlash
  have hChar := ((identifier_iff hMark).mpr h).2 '/' (by
    rw [String.toList_append]
    exact List.mem_append_right _ hSlash)
  cases hChar

theorem resolve_ldapCaPath {server : LdapServer} (h : Spellable m server.name) :
    resolve (m.ldapCaPath server) = resolve m.ldapCertsDir ++ [m.safeName server.name ++ "_ca.pem"] := by
  have hSlash : '/' ∉ (m.safeName server.name ++ "_ca.pem").toList := by
    have hEnd : '/' ∉ "_ca.pem".toList := by decide
    rw [String.toList_append, List.mem_append, not_or]
    exact ⟨slash_not_mem h, hEnd⟩
  have hHead : (m.safeName server.name ++ "_ca.pem").toList.head? ≠ some '/' :=
    fun hHead => hSlash (List.mem_of_head? hHead)
  rw [Manager.ldapCaPath, resolve_join hHead, split_of_not_mem hSlash, List.foldl_cons, List.foldl_nil,
    resolveStep_ordinary (ordinary_append (by decide) _)]

theorem nodup_files {servers : List LdapServer} (hPlain : ∀ server ∈ servers, Spellable m server.name)
    (h : servers.Pairwise fun a b => ¬ Meet m a.name b.name) :
    (servers.map fun server => resolve (m.ldapCaPath server)).Nodup := by
  rw [List.Nodup, List.pairwise_map]
  refine List.Pairwise.imp_of_mem (fun {a b} ha hb hApart hSame => hApart ?_) h
  rw [resolve_ldapCaPath (hPlain a ha), resolve_ldapCaPath (hPlain b hb), List.append_cancel_left_eq,
    List.cons.injEq, String.append_left_inj] at hSame
  exact safeName_eq_iff.mp hSame.1

/-- The rows have names and files of their own exactly if no two of a kind meet and all are
plain. -/
theorem named_iff (m : Manager) (r : Reads) : Named m r ↔ SafeNames m r := by
  have hModule : Identifier "ldap_" := ⟨by decide, by decide⟩
  have hServer : Identifier "hs_" := ⟨by decide, by decide⟩
  have hPool : Identifier "pool_" := ⟨by decide, by decide⟩
  constructor
  · intro h
    refine ⟨(nodup_names "ldap_").mp h.modules, (nodup_names "hs_").mp h.homeServers, ?_, ?_⟩
    · intro server hMem
      refine (identifier_iff hModule).mp (h.identifiers _ ?_)
      exact List.mem_append_left _ (List.mem_append_left _ (List.mem_map_of_mem hMem))
    · intro realm hMem
      refine (identifier_iff hServer).mp (h.identifiers _ ?_)
      exact List.mem_append_left _ (List.mem_append_right _ (List.mem_map_of_mem hMem))
  · intro h
    refine ⟨(nodup_names "ldap_").mpr h.servers, ?_, (nodup_names "hs_").mpr h.realms,
      (nodup_names "pool_").mpr h.realms, ?_, fun server _ rendered hRendered => ldapSteps_rendered hRendered⟩
    · exact nodup_files (fun server hMem => h.plainServers server (List.mem_filter.mp hMem).1)
        (h.servers.filter _)
    · intro name hName
      rw [generatedNames, List.mem_append, List.mem_append] at hName
      obtain (hName | hName) | hName := hName
      · obtain ⟨server, hMem, rfl⟩ := List.mem_map.mp hName
        exact (identifier_iff hModule).mpr (h.plainServers server hMem)
      · obtain ⟨realm, hMem, rfl⟩ := List.mem_map.mp hName
        exact (identifier_iff hServer).mpr (h.plainRealms realm hMem)
      · obtain ⟨realm, hMem, rfl⟩ := List.mem_map.mp hName
        exact (identifier_iff hPool).mpr (h.plainRealms realm hMem)

end Names

def sampleServer (name tlsCaCert : String) : LdapServer where
  name := name
  host := "ldap.corp.local"
  port := some 389
  bindDn := "cn=radius,dc=corp,dc=local"
  bindPasswordEncrypted := ""
  baseDn := "dc=corp,dc=local"
  userSearchFilter := none
  userSearchBase := none
  groupSearchFilter := none
  groupSearchBase := none
  groupMembershipAttr := none
  useTls := some false
  useStarttls := some true
  tlsCaCert := some tlsCaCert
  tlsRequireCert := some "demand"
  connectTimeoutSeconds := some 5
  searchTimeoutSeconds := some 10
  idleTimeoutSeconds := some 60
  priority := some 100
  enabled := some true

def corpReads : Reads :=
  ⟨⟨[], [sampleServer "corp-ad" "CA 1", sampleServer "corp.ad" "CA 2"], [], [], []⟩, fun _ => none, ""⟩

theorem not_named_corp {m : Manager} (hLower : m.lower = id) : ¬ Named m corpReads := by
  intro h
  have hSame : m.safeName "corp-ad" = m.safeName "corp.ad" := by
    rw [safeName_eq_iff, Meet, hLower]
    simp [SameChar, separators]
  have hSorted := ((Sorting.sortBy_perm _ _).map m.moduleName).nodup_iff.mp h.modules
  have hRows : (corpReads.db.ldapServers.filter fun s => s.enabled = some true) =
      [sampleServer "corp-ad" "CA 1", sampleServer "corp.ad" "CA 2"] := by
    simp [corpReads, sampleServer]
  rw [hRows] at hSorted
  have hSame' : m.moduleName (sampleServer "corp-ad" "CA 1") = m.moduleName (sampleServer "corp.ad" "CA 2") :=
    congrArg ("ldap_" ++ ·) hSame
  rw [List.map_cons, List.map_cons, hSame'] at hSorted
  exact (List.nodup_cons.mp hSorted).1 List.mem_cons_self

/-- Two servers whose names differ in a hyphen get one module name. -/
theorem modules_meet : ¬ ∀ (m : Manager) (r : Reads), Named m r := by
  intro h
  exact not_named_corp rfl (h { plainManager with lower := id } corpReads)

end OpenRadiusWeb.ConfigManager
