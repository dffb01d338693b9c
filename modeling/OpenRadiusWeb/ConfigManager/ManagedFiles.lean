import OpenRadiusWeb.ConfigManager.Apply

/-! # The managed files

A call generates some of seven fixed files. They have distinct types and distinct
paths, and none of them is a certificate file, whatever the certificates are called.
-/

namespace OpenRadiusWeb.ConfigManager

open Paths

def managedFiles : List String := [
  "mods-available/eap", "mods-available/ldap_orw", "mods-available/python",
  "proxy.conf", "clients.conf", "sites-available/default", "sites-available/inner-tunnel"]

/-- A set of generated files. -/
structure Managed (configs : Dict String) : Prop where
  nodup : (Dict.keys configs).Nodup
  subset : ∀ filename ∈ Dict.keys configs, filename ∈ managedFiles

theorem Managed.set {configs : Dict String} (h : Managed configs) {filename : String}
    (hFile : filename ∈ managedFiles) (content : String) :
    Managed (configs.set filename content) where
  nodup := Dict.nodup_keys_set h.nodup filename content
  subset f hf := by
    rcases Dict.mem_keys_set.mp hf with rfl | hf
    · exact hFile
    · exact h.subset f hf

theorem Managed.addConfig {configs : Dict String} (h : Managed configs) {filename : String}
    (hFile : filename ∈ managedFiles) (content : String) :
    Managed (Manager.addConfig configs filename content) := by
  rw [Manager.addConfig]
  split
  · exact h
  · exact h.set hFile content

namespace Manager

variable {m : Manager} {r : Reads}

theorem generateLdapConfigs_files {files : List (String × String)} {names : List String}
    (h : m.generateLdapConfigs r = .ok (files, names)) :
    files = [] ∨ ∃ content, files = [("ldap_orw", content)] := by
  rw [generateLdapConfigs] at h
  obtain ⟨servers, -, h⟩ := Except.ok_of_bind h
  obtain ⟨rendered, -, h⟩ := Except.ok_of_bind h
  split at h <;> cases h
  · exact .inl rfl
  · exact .inl rfl
  · exact .inr ⟨_, rfl⟩

theorem generateAllConfigs_managed {configs : Dict String}
    (h : m.generateAllConfigs r = .ok configs) : Managed configs := by
  rw [generateAllConfigs] at h
  obtain ⟨eapContent, -, h⟩ := Except.ok_of_bind h
  obtain ⟨⟨files, names⟩, hLdap, h⟩ := Except.ok_of_bind h
  obtain ⟨realms, -, h⟩ := Except.ok_of_bind h
  obtain ⟨proxyContent, -, h⟩ := Except.ok_of_bind h
  obtain ⟨clientsContent, -, h⟩ := Except.ok_of_bind h
  have hEmpty : Managed [] := ⟨List.nodup_nil, by simp [Dict.keys]⟩
  have hNames : ∀ f ∈ managedFiles, f ∈ managedFiles := fun _ h => h
  simp only [managedFiles, List.forall_mem_cons] at hNames
  obtain ⟨hEapName, hLdapName, hPythonName, hProxyName, hClientsName, hDefaultName, hInnerName, -⟩ :=
    hNames
  have hEap := hEmpty.addConfig hEapName eapContent
  have hFiles : Managed (files.foldl (fun d file => d.set ("mods-available/" ++ file.1) file.2)
      (addConfig [] "mods-available/eap" eapContent)) := by
    rcases generateLdapConfigs_files hLdap with rfl | ⟨content, rfl⟩
    · exact hEap
    · exact hEap.set hLdapName content
  have hDefault := fun python proxy clients default' =>
    (((hFiles.addConfig hPythonName python).addConfig hProxyName proxy).addConfig
      hClientsName clients).addConfig hDefaultName default'
  cases h
  by_cases hHasEap : eapContent ≠ ""
  · rw [if_pos hHasEap]
    exact (hDefault _ _ _ _).addConfig hInnerName _
  · rw [if_neg hHasEap]
    exact hDefault _ _ _ _

/-! ## Types and paths -/

private theorem configTypes : managedFiles.map configTypeOf =
    ["eap", "ldap", "python", "proxy", "clients", "site-default", "inner-tunnel"] := by
  decide

theorem configTypeOf_ne {f g : String} (hf : f ∈ managedFiles) (hg : g ∈ managedFiles)
    (h : f ≠ g) : configTypeOf f ≠ configTypeOf g := by
  have hNodup : (managedFiles.map configTypeOf).Nodup := by
    rw [configTypes]
    decide
  exact fun hEq => h (List.inj_on_of_nodup_map hNodup hf hg hEq)

theorem configTypeOf_mem {f : String} (hf : f ∈ managedFiles) : configTypeOf f ∈
    ["eap", "ldap", "python", "proxy", "clients", "site-default", "inner-tunnel"] := by
  rw [← configTypes]
  exact List.mem_map_of_mem hf

theorem configTypeOf_ne_certificates {f : String} (hf : f ∈ managedFiles) :
    configTypeOf f ≠ "certificates" := by
  intro hEq
  have hType := configTypeOf_mem hf
  rw [hEq] at hType
  revert hType
  decide

theorem resolve_outputPath {f : String} (hf : f ∈ managedFiles) :
    resolve (m.outputPath f) = resolve m.outputDir ++ Text.split '/' f := by
  have hPlain : ∀ f ∈ managedFiles, f.toList.head? ≠ some '/' := by decide
  have hOrdinary : ∀ f ∈ managedFiles, ∀ c ∈ Text.split '/' f, Ordinary c := by
    unfold Ordinary
    decide
  rw [outputPath, resolve_join (hPlain f hf), foldl_resolveStep_ordinary (hOrdinary f hf)]

theorem outputPath_ne {f g : String} (hf : f ∈ managedFiles) (hg : g ∈ managedFiles)
    (h : f ≠ g) : resolve (m.outputPath f) ≠ resolve (m.outputPath g) := by
  rw [resolve_outputPath hf, resolve_outputPath hg]
  intro hEq
  have hSplit : (managedFiles.map (Text.split '/')).Nodup := by decide
  exact h (List.inj_on_of_nodup_map hSplit hf hg (List.append_cancel_left hEq))

end Manager

/-- A file with the ending of a certificate, or the server's key. -/
def CertFile (p : Path) : Prop :=
  ∃ last, p.getLast? = some last ∧ (".pem".toList <:+ last.toList ∨ last = "server.key")

theorem ordinary_of_pem {s : String} (h : ".pem".toList <:+ s.toList) : Ordinary s := by
  refine ⟨?_, ?_, ?_⟩ <;> rintro rfl <;> revert h <;> decide

theorem certFile_of_pem (a name : String) : CertFile (resolve (join a (name ++ ".pem"))) := by
  obtain ⟨u, hu⟩ := getLast?_split_append (t := ".pem") (by decide) name
  have hEnds : ".pem".toList <:+ (u ++ ".pem").toList := by simp
  exact ⟨u ++ ".pem", getLast?_resolve (by rw [getLast?_split_join, hu]) (ordinary_of_pem hEnds),
    .inl hEnds⟩

theorem certFile_of_key (a : String) : CertFile (resolve (join a "server.key")) := by
  have hOrdinary : Ordinary "server.key" := by
    unfold Ordinary
    decide
  exact ⟨"server.key", getLast?_resolve (by rw [getLast?_split_join]; decide) hOrdinary, .inr rfl⟩

namespace Manager

variable {m : Manager}

theorem writesWithin_writeIf {P : Path → Prop} {path : String} (h : P (resolve path))
    (content : Option String) : WritesWithin P (writeIf path content) := by
  intro path' content' hMem
  rw [writeIf] at hMem
  split at hMem
  · cases hMem
  · cases List.mem_singleton.mp hMem
    exact h

theorem writesWithin_append {P : Path → Prop} {xs ys : List CertStep} (hx : WritesWithin P xs)
    (hy : WritesWithin P ys) : WritesWithin P (xs ++ ys) := by
  intro path content hMem
  rcases List.mem_append.mp hMem with hMem | hMem
  · exact hx path content hMem
  · exact hy path content hMem

theorem writesWithin_keySteps (keyPemEncrypted : Option String) :
    WritesWithin CertFile (m.keySteps keyPemEncrypted) := by
  rw [keySteps]
  split
  · intro path content hMem
    cases List.mem_singleton.mp hMem
  · exact writesWithin_writeIf (certFile_of_key m.certDir) _

theorem writesWithin_certificateSteps (cert : Certificate) :
    WritesWithin CertFile (m.certificateSteps cert) := by
  have hOne : ∀ path content, CertFile (resolve path) →
      WritesWithin CertFile [.write path content] := by
    intro path content h path' content' hMem
    cases List.mem_singleton.mp hMem
    exact h
  have hChain : m.trustedName cert.name ++ "_chain.pem" =
      m.trustedName cert.name ++ "_chain" ++ ".pem" := by
    rw [String.append_assoc]
    rfl
  rw [certificateSteps]
  split_ifs
  · intro path content hMem
    cases hMem
  · rw [hChain]
    exact writesWithin_append (writesWithin_append (hOne _ _ (certFile_of_pem m.certDir "ca"))
      (hOne _ _ (certFile_of_pem _ _))) (writesWithin_writeIf (certFile_of_pem _ _) _)
  · exact writesWithin_append (writesWithin_append (hOne _ _ (certFile_of_pem m.certDir "server"))
      (writesWithin_keySteps _)) (writesWithin_writeIf (certFile_of_pem m.certDir "dh") _)
  · intro path content hMem
    cases hMem

theorem writesWithin_certSteps (r : Reads) : WritesWithin CertFile (m.certSteps r) := by
  refine writesWithin_append ?_ ?_
  · intro path content hMem
    obtain ⟨cert, -, hMem⟩ := List.mem_flatMap.mp hMem
    exact writesWithin_certificateSteps cert path content hMem
  · intro path content hMem
    obtain ⟨server, -, hMem⟩ := List.mem_flatMap.mp hMem
    refine writesWithin_writeIf ?_ _ path content hMem
    have hName : m.safeName server.name ++ "_ca.pem" = m.safeName server.name ++ "_ca" ++ ".pem" := by
      rw [String.append_assoc]
      rfl
    rw [ldapCaPath, hName]
    exact certFile_of_pem _ _

theorem not_certFile_outputPath {f : String} (hf : f ∈ managedFiles) :
    ¬CertFile (resolve (m.outputPath f)) := by
  have hNames : ∀ f ∈ managedFiles, ∀ last ∈ (Text.split '/' f).getLast?,
      ¬(".pem".toList <:+ last.toList ∨ last = "server.key") := by decide
  rintro ⟨last, hLast, hCert⟩
  rw [resolve_outputPath hf, List.getLast?_append_of_ne_nil _ (split_ne_nil f)] at hLast
  exact hNames f hf last hLast hCert

end Manager

end OpenRadiusWeb.ConfigManager
