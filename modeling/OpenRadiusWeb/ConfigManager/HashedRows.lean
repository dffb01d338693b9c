import OpenRadiusWeb.ConfigManager.StoredHash

/-! # The rows behind the certificate hash

The hash is to tell apart the sets of rows that `write_cert_files` works on, in whatever order the
query returns them. Where no part has a separator line, it does so up to the order of rows that the
sort keys do not tell apart; rows that hold separator lines can be taken for several.
-/

namespace OpenRadiusWeb.ConfigManager

open Sorting

/-- The rows of both queries, as they are returned. -/
structure CertInputs where
  certs : List Certificate
  ldapServers : List LdapServer

/-- The columns of a certificate that drive its files; a text that is missing is empty. -/
structure CertColumns where
  certType : String
  name : String
  pemData : String
  chainPem : String
  keyPemEncrypted : String
  dhParamsPem : String
  deriving DecidableEq

def certColumns (c : Certificate) : CertColumns :=
  ⟨c.certType, c.name, c.pemData, orEmpty c.chainPem, orEmpty c.keyPemEncrypted, orEmpty c.dhParamsPem⟩

def ldapColumns (s : LdapServer) : String × String := (s.name, orEmpty s.tlsCaCert)

def CertColumns.key (c : CertColumns) : String ×ₗ String := toLex (c.certType, c.name)

namespace CertInputs

variable (x y : CertInputs)

def hash (m : Manager) : String := m.computeHash (certBlob x.certs x.ldapServers)

/-- The same rows, in any order. -/
def SameRows : Prop :=
  (x.certs.map certColumns).Perm (y.certs.map certColumns) ∧
    (x.ldapServers.map ldapColumns).Perm (y.ldapServers.map ldapColumns)

/-- No part has a separator line, and no type a colon. -/
structure Legible : Prop where
  noSeparator : ∀ part ∈ blobParts x.certs x.ldapServers, "---".toList ∉ Text.lines part
  noColon : ∀ c ∈ x.certs, ':' ∉ c.certType.toList

/-- Certificates of one type and name, and servers of one name, come in the same order. -/
structure TiesInOrder : Prop where
  certs : ∀ k, (x.certs.filter fun c => (certColumns c).key = k).map certColumns =
    (y.certs.filter fun c => (certColumns c).key = k).map certColumns
  ldapServers : ∀ name, (x.ldapServers.filter fun s => (ldapColumns s).1 = name).map ldapColumns =
    (y.ldapServers.filter fun s => (ldapColumns s).1 = name).map ldapColumns

end CertInputs

/-! ## Parts and columns -/

theorem certColumns_eq_iff {c d : Certificate} (hc : ':' ∉ c.certType.toList) (hd : ':' ∉ d.certType.toList) :
    certColumns c = certColumns d ↔ certParts c = certParts d := by
  simp only [certColumns, certParts, CertColumns.mk.injEq, List.cons.injEq, and_true]
  constructor
  · rintro ⟨hType, hName, hRest⟩
    exact ⟨by rw [hType, hName], hRest⟩
  · rintro ⟨hHeader, hRest⟩
    obtain ⟨hType, hName⟩ := certType_name_of_header hc hd hHeader
    exact ⟨hType, hName, hRest⟩

theorem ldapColumns_eq_iff {s t : LdapServer} : ldapColumns s = ldapColumns t ↔ ldapParts s = ldapParts t := by
  simp only [ldapColumns, ldapParts, Prod.mk.injEq, List.cons.injEq, and_true, String.append_right_inj]

theorem map_eq_map_iff_of {α β γ : Type} {f : α → β} {g : α → γ} {p : α → Prop}
    (h : ∀ a b, p a → p b → (f a = f b ↔ g a = g b)) {xs ys : List α} (hx : ∀ a ∈ xs, p a)
    (hy : ∀ a ∈ ys, p a) : xs.map f = ys.map f ↔ xs.map g = ys.map g := by
  induction xs generalizing ys with
  | nil => cases ys <;> simp
  | cons a xs ih =>
    cases ys with
    | nil => simp
    | cons b ys =>
      rw [List.forall_mem_cons] at hx hy
      simp only [List.map_cons, List.cons.injEq, h a b hx.1 hy.1, ih hx.2 hy.2]

section Pair

variable {x y : CertInputs}

/-- Legible inputs have one text exactly if their sorted rows have the same columns. -/
theorem certBlob_eq_iff (hx : x.Legible) (hy : y.Legible) :
    certBlob x.certs x.ldapServers = certBlob y.certs y.ldapServers ↔ x.TiesInOrder y := by
  have hCerts : (sortBy (fun c => toLex (c.certType, c.name)) x.certs).map certParts =
      (sortBy (fun c => toLex (c.certType, c.name)) y.certs).map certParts ↔
      ∀ k, (x.certs.filter fun c => (certColumns c).key = k).map certColumns =
        (y.certs.filter fun c => (certColumns c).key = k).map certColumns := by
    rw [← map_sortBy_eq_iff certColumns CertColumns.key]
    refine (map_eq_map_iff_of (fun c d hc hd => certColumns_eq_iff hc hd) ?_ ?_).symm
    · exact fun c hc => hx.noColon c (mem_sortBy.mp hc)
    · exact fun c hc => hy.noColon c (mem_sortBy.mp hc)
  have hServers : (sortBy LdapServer.name x.ldapServers).map ldapParts =
      (sortBy LdapServer.name y.ldapServers).map ldapParts ↔
      ∀ name, (x.ldapServers.filter fun s => (ldapColumns s).1 = name).map ldapColumns =
        (y.ldapServers.filter fun s => (ldapColumns s).1 = name).map ldapColumns := by
    rw [← map_sortBy_eq_iff ldapColumns Prod.fst]
    exact (map_eq_map_iff_of (p := fun _ => True) (fun s t _ _ => ldapColumns_eq_iff)
      (fun _ _ => trivial) (fun _ _ => trivial)).symm
  constructor
  · intro h
    obtain ⟨hC, hS⟩ := parts_inj (blobParts_of_blob hx.noSeparator hy.noSeparator h)
    exact ⟨hCerts.mp hC, hServers.mp hS⟩
  · rintro ⟨hC, hS⟩
    rw [certBlob, certBlob, blobParts, blobParts, List.flatMap_def, List.flatMap_def, List.flatMap_def,
      List.flatMap_def, hCerts.mpr hC, hServers.mpr hS]

theorem sameRows_of_ties (h : x.TiesInOrder y) : x.SameRows y := by
  constructor
  · have hSorted := (map_sortBy_eq_iff certColumns CertColumns.key _ _).mpr h.certs
    exact ((sortBy_perm _ x.certs).map certColumns).symm.trans
      (hSorted ▸ (sortBy_perm _ y.certs).map certColumns)
  · have hSorted := (map_sortBy_eq_iff ldapColumns Prod.fst _ _).mpr h.ldapServers
    exact ((sortBy_perm _ x.ldapServers).map ldapColumns).symm.trans
      (hSorted ▸ (sortBy_perm _ y.ldapServers).map ldapColumns)

/-- Of legible inputs the hash tells the rows exactly if the same rows come with their ties in the
same order. -/
theorem certHash_iff (m : Manager) (hx : x.Legible) (hy : y.Legible) :
    (x.hash m = y.hash m ↔ x.SameRows y) ↔ (x.SameRows y → x.TiesInOrder y) := by
  rw [CertInputs.hash, CertInputs.hash, m.computeHash_injective.eq_iff, certBlob_eq_iff hx hy]
  exact ⟨fun h => h.mpr, fun h => ⟨sameRows_of_ties, h⟩⟩

end Pair

/-! ## Rows that hold other rows -/

theorem intercalate_fold (sep p : String) (front rest : List String) :
    sep.intercalate (front ++ [sep.intercalate (p :: rest)]) = sep.intercalate (front ++ p :: rest) := by
  cases front with
  | nil => exact String.intercalate_singleton
  | cons q front =>
    rw [String.intercalate_append_of_ne_nil (List.cons_ne_nil _ _) (List.cons_ne_nil _ _),
      String.intercalate_append_of_ne_nil (List.cons_ne_nil _ _) (List.cons_ne_nil _ _),
      String.intercalate_singleton]

theorem not_sameRows_of_one {x y : CertInputs} (h : 2 ≤ x.certs.length + x.ldapServers.length)
    (hOne : y.certs.length + y.ldapServers.length = 1) : ¬ x.SameRows y := by
  rintro ⟨hCerts, hServers⟩
  have hC := hCerts.length_eq
  have hS := hServers.length_eq
  simp only [List.length_map] at hC hS
  omega

/-- The certificate with all the parts that follow in its last column. -/
def foldedCert (c : Certificate) (rest : List String) : Certificate :=
  { c with dhParamsPem := some ("\n---\n".intercalate (orEmpty c.dhParamsPem :: rest)) }

def foldedServer (s : LdapServer) (rest : List String) : LdapServer :=
  { s with tlsCaCert := some ("\n---\n".intercalate (orEmpty s.tlsCaCert :: rest)) }

/-- Rows that hold separator lines: for any two rows or more there is one with the same text. -/
theorem rows_in_one {x : CertInputs} (h : 2 ≤ x.certs.length + x.ldapServers.length) :
    ∃ y : CertInputs, certBlob y.certs y.ldapServers = certBlob x.certs x.ldapServers ∧ ¬ x.SameRows y := by
  cases hCerts : sortBy (fun c => toLex (c.certType, c.name)) x.certs with
  | cons c cs =>
    refine ⟨⟨[foldedCert c (cs.flatMap certParts ++ (sortBy LdapServer.name x.ldapServers).flatMap ldapParts)], []⟩,
      ?_, not_sameRows_of_one h rfl⟩
    rw [certBlob, certBlob, blobParts, blobParts, hCerts, List.flatMap_cons, List.append_assoc]
    exact intercalate_fold "\n---\n" (orEmpty c.dhParamsPem) ((certParts c).take 4) _
  | nil =>
    cases hServers : sortBy LdapServer.name x.ldapServers with
    | nil =>
      have hC := (sortBy_perm (fun c => toLex (c.certType, c.name)) x.certs).length_eq
      have hS := (sortBy_perm LdapServer.name x.ldapServers).length_eq
      rw [hCerts, List.length_nil] at hC
      rw [hServers, List.length_nil] at hS
      omega
    | cons s ss =>
      refine ⟨⟨[], [foldedServer s (ss.flatMap ldapParts)]⟩, ?_, not_sameRows_of_one h rfl⟩
      rw [certBlob, certBlob, blobParts, blobParts, hCerts, hServers, List.flatMap_cons]
      exact intercalate_fold "\n---\n" (orEmpty s.tlsCaCert) [("ldap_ca:" ++ s.name)] (ss.flatMap ldapParts)

/-! ## Two tenants with a CA of one name -/

def sampleCa (pemData : String) : Certificate where
  certType := "ca"
  name := "Root"
  pemData := pemData
  keyPemEncrypted := none
  chainPem := none
  dhParamsPem := none
  isActive := some true
  enabled := some true

theorem mem_blobParts {cs : List Certificate} {ss : List LdapServer} {part : String} :
    part ∈ blobParts cs ss ↔ (∃ c ∈ cs, part ∈ certParts c) ∨ ∃ s ∈ ss, part ∈ ldapParts s := by
  simp only [blobParts, List.mem_append, List.mem_flatMap, mem_sortBy]

def twoTenants : CertInputs := ⟨[sampleCa "A", sampleCa "B"], []⟩

def otherOrder : CertInputs := ⟨[sampleCa "B", sampleCa "A"], []⟩

theorem legible_of_samples {x : CertInputs} (hCerts : ∀ c ∈ x.certs, c = sampleCa "A" ∨ c = sampleCa "B")
    (hServers : x.ldapServers = []) : x.Legible := by
  have hA : ∀ part ∈ certParts (sampleCa "A"), "---".toList ∉ Text.lines part := by decide +kernel
  have hB : ∀ part ∈ certParts (sampleCa "B"), "---".toList ∉ Text.lines part := by decide +kernel
  constructor
  · intro part hPart
    rw [hServers] at hPart
    obtain ⟨c, hc, hIn⟩ | ⟨s, hs, -⟩ := mem_blobParts.mp hPart
    · obtain rfl | rfl := hCerts c hc
      · exact hA part hIn
      · exact hB part hIn
    · exact absurd hs List.not_mem_nil
  · intro c hc
    obtain rfl | rfl := hCerts c hc <;> decide

theorem twoTenants_legible : twoTenants.Legible :=
  legible_of_samples (by simp [twoTenants]) rfl

theorem otherOrder_legible : otherOrder.Legible :=
  legible_of_samples (by simp [otherOrder]) rfl

theorem twoTenants_hash : (twoTenants.hash plainManager = otherOrder.hash plainManager ↔
    twoTenants.SameRows otherOrder) ↔ (twoTenants.SameRows otherOrder → twoTenants.TiesInOrder otherOrder) :=
  certHash_iff plainManager twoTenants_legible otherOrder_legible

/-- The order in which the query returns two CAs of one name changes the hash. -/
theorem hash_of_order : ¬ ∀ (m : Manager) (x y : CertInputs), x.hash m = y.hash m ↔ x.SameRows y := by
  intro h
  have hSame : twoTenants.SameRows otherOrder := ⟨List.Perm.swap _ _ [], List.Perm.nil⟩
  have hBlob := plainManager.computeHash_injective ((h plainManager twoTenants otherOrder).mpr hSame)
  have hTies := ((certBlob_eq_iff twoTenants_legible otherOrder_legible).mp hBlob).certs (toLex ("ca", "Root"))
  revert hTies
  decide +kernel

end OpenRadiusWeb.ConfigManager
