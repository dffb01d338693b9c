import OpenRadiusWeb.Radius.PostAuth

/-! # The VLAN of a list of groups

The RADIUS module and the gateway ask `group_vlan_mappings` the same question: the module with
the list of the groups, the gateway with the text that joins them by commas. The query ends in
`ORDER BY priority ASC LIMIT 1`, so of several rows with the least priority it answers with the
one that comes first in the physical order.
-/

namespace OpenRadiusWeb.GroupVlanMappings

open OpenRadiusWeb.Radius

/-- `[g.strip() for g in groups_csv.split(",") if g.strip()]`. -/
def parsedGroups (groupsCsv : String) : List String :=
  ((Text.split ',' groupsCsv).map Text.strip).filter fun g => g ≠ ""

/-- `lookup_vlan_for_groups` of the repository. -/
def repoLookupVlanForGroups (table : List VlanMapping) (tenantId : String) (groups : List String) :
    Option VlanMapping :=
  leastPriority (table.filter fun m =>
    decide (m.groupName ∈ groups) && m.enabled && decide (m.tenantId = tenantId))

/-- `lookup_vlan_for_groups` of the service. -/
def lookupVlanForGroups (table : List VlanMapping) (tenantId groupsCsv : String) :
    Option VlanMapping :=
  if parsedGroups groupsCsv = [] then none
  else repoLookupVlanForGroups table tenantId (parsedGroups groupsCsv)

/-- `_lookup_vlan_for_groups` of the module over a table. -/
def moduleLookup (env : Env) (src : Sources) (table : List VlanMapping) (groups : List String) :
    Option VlanMapping :=
  Radius.lookupVlanForGroups env { src with mappings := some table } groups

/-! ## The joined list -/

/-- What the gateway reads from one name: it is cut at its commas. -/
def pieces (group : String) : List String := parsedGroups group

theorem split_comma_cons (g : String) (rest : List String) (h : rest ≠ []) :
    Text.split ',' (",".intercalate (g :: rest)) =
      Text.split ',' g ++ Text.split ',' (",".intercalate rest) := by
  obtain ⟨r, rs, rfl⟩ := List.exists_cons_of_ne_nil h
  have hText : (",".intercalate (g :: r :: rs)).toList =
      g.toList ++ ',' :: (",".intercalate (r :: rs)).toList := by
    simp [String.intercalate_cons_cons]
  rw [Text.split, hText, List.splitOn_append_cons_self, List.map_append]
  rfl

theorem parsedGroups_joined (groups : List String) :
    parsedGroups (",".intercalate groups) = groups.flatMap pieces := by
  induction groups with
  | nil => decide
  | cons g rest ih =>
    cases rest with
    | nil => simp [pieces]
    | cons r rs =>
      rw [List.flatMap_cons, ← ih, parsedGroups, split_comma_cons g (r :: rs) (List.cons_ne_nil r rs),
        List.map_append, List.filter_append]
      rfl

/-! ## The two queries -/

/-- A mapping of the tenant that counts. -/
def Active (table : List VlanMapping) (tenantId : String) (m : VlanMapping) : Prop :=
  m ∈ table ∧ m.enabled = true ∧ m.tenantId = tenantId

/-- The module is set up for the tenant, or for none and the table has mappings of this tenant
only. -/
def Serves (env : Env) (table : List VlanMapping) (tenantId : String) : Prop :=
  (env.tenantId = some tenantId ∧ tenantId ≠ "") ∨
    ((env.tenantId = none ∨ env.tenantId = some "") ∧ ∀ m ∈ table, m.tenantId = tenantId)

variable {env : Env} {src : Sources} {table : List VlanMapping} {tenantId : String}
  {groups : List String}

theorem eligible_iff (hServes : Serves env table tenantId) {m : VlanMapping} (hMem : m ∈ table) :
    eligible env groups m = true ↔
      m.groupName ∈ groups ∧ m.enabled = true ∧ m.tenantId = tenantId := by
  rw [eligible, Bool.and_eq_true, Bool.and_eq_true, decide_eq_true_eq, and_assoc]
  refine and_congr_right fun _ => and_congr_right fun _ => ?_
  obtain ⟨hTenant, hNonempty⟩ | ⟨hNone | hEmpty, hAll⟩ := hServes
  · simp [hTenant, hNonempty]
  · simp [hNone, hAll m hMem]
  · simp [hEmpty, hAll m hMem]

theorem leastPriority_of_forall {rows : List VlanMapping} (h : ∀ m, m ∉ rows) :
    leastPriority rows = none := by
  rw [List.eq_nil_iff_forall_not_mem.mpr h]
  rfl

theorem leastPriority_of_unique {rows : List VlanMapping} {m : VlanMapping} (hMem : m ∈ rows)
    (hLess : ∀ m' ∈ rows, m' ≠ m → m.priority < m'.priority) : leastPriority rows = some m := by
  cases hLeast : leastPriority rows with
  | none =>
    rw [leastPriority_none hLeast] at hMem
    cases hMem
  | some m' =>
    obtain ⟨hMem', hOrder⟩ := leastPriority_least hLeast
    by_cases hSame : m' = m
    · rw [hSame]
    · have hLess' := hLess m' hMem' hSame
      have hOrder' := hOrder m hMem
      omega

/-- The row that comes first is the answer if no other has a smaller priority. -/
theorem leastPriority_cons {rows : List VlanMapping} {m : VlanMapping}
    (h : ∀ m' ∈ rows, m.priority ≤ m'.priority) : leastPriority (m :: rows) = some m := by
  rw [leastPriority]
  cases hLeast : leastPriority rows with
  | none => rfl
  | some m' =>
    have hOrder := h m' (leastPriority_least hLeast).1
    exact if_neg (Int.not_lt.mpr hOrder)

theorem moduleLookup_eq :
    moduleLookup env src table groups = leastPriority (table.filter (eligible env groups)) := by
  rw [moduleLookup, Radius.lookupVlanForGroups]
  split
  · rename_i hNone
    refine (leastPriority_of_forall fun m hm => ?_).symm
    have hEligible := (List.mem_filter.mp hm).2
    simp [eligible, hNone] at hEligible
  · rfl

theorem lookupVlanForGroups_eq :
    lookupVlanForGroups table tenantId (",".intercalate groups) =
      repoLookupVlanForGroups table tenantId (groups.flatMap pieces) := by
  rw [lookupVlanForGroups, parsedGroups_joined]
  split
  · rename_i hNone
    rw [hNone]
    refine (leastPriority_of_forall fun m hm => ?_).symm
    simp at hm
  · rfl

theorem mem_moduleRows (hServes : Serves env table tenantId) {m : VlanMapping} :
    m ∈ table.filter (eligible env groups) ↔ Active table tenantId m ∧ m.groupName ∈ groups := by
  rw [List.mem_filter, Active]
  constructor
  · rintro ⟨hMem, hEligible⟩
    obtain ⟨hName, hOthers⟩ := (eligible_iff hServes hMem).mp hEligible
    exact ⟨⟨hMem, hOthers⟩, hName⟩
  · rintro ⟨⟨hMem, hOthers⟩, hName⟩
    exact ⟨hMem, (eligible_iff hServes hMem).mpr ⟨hName, hOthers⟩⟩

theorem mem_repoRows {m : VlanMapping} :
    m ∈ table.filter (fun m =>
      decide (m.groupName ∈ groups) && m.enabled && decide (m.tenantId = tenantId)) ↔
      Active table tenantId m ∧ m.groupName ∈ groups := by
  simp only [List.mem_filter, Bool.and_eq_true, decide_eq_true_eq, Active]
  tauto

theorem Serves.perm {table' : List VlanMapping} (h : Serves env table tenantId)
    (hPerm : table'.Perm table) : Serves env table' tenantId := by
  obtain hTenant | ⟨hNone, hAll⟩ := h
  · exact .inl hTenant
  · exact .inr ⟨hNone, fun m hm => hAll m (hPerm.mem_iff.mp hm)⟩

/-! ## Agreement -/

/-- Whatever the order of the rows and of the groups, the module assigns one VLAN, and the
gateway finds the module's mapping. -/
def Agrees (env : Env) (src : Sources) (table : List VlanMapping) (tenantId : String)
    (groups : List String) : Prop :=
  ∀ table₁ table₂ groups', table₁.Perm table → table₂.Perm table →
    (∀ g, g ∈ groups' ↔ g ∈ groups) →
    (moduleLookup env src table₁ groups').map VlanMapping.vlanId =
        (moduleLookup env src table groups).map VlanMapping.vlanId ∧
      lookupVlanForGroups table₂ tenantId (",".intercalate groups') =
        moduleLookup env src table₁ groups'

/-- The mapping is found by one of the names, or by a piece of one. -/
def Found (table : List VlanMapping) (tenantId : String) (groups : List String) (m : VlanMapping) :
    Prop :=
  Active table tenantId m ∧ (m.groupName ∈ groups ∨ m.groupName ∈ groups.flatMap pieces)

/-- One mapping goes before all others, and its name is among the names and among the pieces. -/
def Decided (table : List VlanMapping) (tenantId : String) (groups : List String) : Prop :=
  (∀ m, ¬Found table tenantId groups m) ∨
    ∃ m, Active table tenantId m ∧ m.groupName ∈ groups ∧ m.groupName ∈ groups.flatMap pieces ∧
      ∀ m', Found table tenantId groups m' → m' ≠ m → m.priority < m'.priority

variable (table) in
theorem leastPriority_erase_filter {p : VlanMapping → Bool} {m : VlanMapping} (h : p m = true)
    (hLeast : ∀ m' ∈ table.filter p, m.priority ≤ m'.priority) :
    leastPriority ((m :: table.erase m).filter p) = some m := by
  rw [List.filter_cons_of_pos h]
  refine leastPriority_cons fun m' hm' => hLeast m' ?_
  obtain ⟨hMem, hp⟩ := List.mem_filter.mp hm'
  exact List.mem_filter.mpr ⟨List.mem_of_mem_erase hMem, hp⟩

theorem decided_of_agrees (hServes : Serves env table tenantId)
    (h : Agrees env src table tenantId groups) : Decided table tenantId groups := by
  have hTable : ∀ {m}, m ∈ table → (m :: table.erase m).Perm table :=
    fun hm => (List.perm_cons_erase hm).symm
  have hHere := (h table table groups (.refl _) (.refl _) fun _ => Iff.rfl).2
  rw [lookupVlanForGroups_eq, moduleLookup_eq, repoLookupVlanForGroups] at hHere
  cases hModule : leastPriority (table.filter (eligible env groups)) with
  | none =>
    left
    rintro m ⟨hActive, hName | hPiece⟩
    · have hMem := (mem_moduleRows hServes).mpr ⟨hActive, hName⟩
      rw [leastPriority_none hModule] at hMem
      cases hMem
    · have hMem := mem_repoRows.mpr ⟨hActive, hPiece⟩
      rw [leastPriority_none (hHere.trans hModule)] at hMem
      cases hMem
  | some m =>
    obtain ⟨hMem, hOrder⟩ := leastPriority_least hModule
    obtain ⟨hMem', hOrder'⟩ := leastPriority_least (hHere.trans hModule)
    obtain ⟨hActive, hName⟩ := (mem_moduleRows hServes).mp hMem
    refine .inr ⟨m, hActive, hName, (mem_repoRows.mp hMem').2, ?_⟩
    rintro m' ⟨hActive', hFound⟩ hOther
    by_contra hNotLess
    refine hOther ?_
    obtain hName' | hPiece := hFound
    · -- a tie among the module's rows: with the other row in front the module answers with it
      have hRow := (mem_moduleRows hServes).mpr ⟨hActive', hName'⟩
      have hFirst := leastPriority_erase_filter table (List.mem_filter.mp hRow).2
        fun m'' hm'' => (Int.not_lt.mp hNotLess).trans (hOrder m'' hm'')
      have hSame := (h _ table groups (hTable hActive'.1) (.refl _) fun _ => Iff.rfl).2
      rw [lookupVlanForGroups_eq, moduleLookup_eq, repoLookupVlanForGroups, hFirst, hHere, hModule] at hSame
      exact (Option.some.inj hSame).symm
    · have hRow := mem_repoRows.mpr ⟨hActive', hPiece⟩
      have hFirst := leastPriority_erase_filter table (List.mem_filter.mp hRow).2
        fun m'' hm'' => (Int.not_lt.mp hNotLess).trans (hOrder' m'' hm'')
      have hSame := (h table _ groups (.refl _) (hTable hActive'.1) fun _ => Iff.rfl).2
      rw [lookupVlanForGroups_eq, moduleLookup_eq, repoLookupVlanForGroups, hFirst, hModule] at hSame
      exact Option.some.inj hSame

variable (src) in
theorem lookups_of_found (hServes : Serves env table tenantId) {table₁ table₂ : List VlanMapping}
    {groups' : List String} (h₁ : table₁.Perm table) (h₂ : table₂.Perm table)
    (hGroups : ∀ g, g ∈ groups' ↔ g ∈ groups) {answer : Option VlanMapping}
    (hModule : ∀ rows, (∀ m, m ∈ rows ↔ Active table tenantId m ∧ m.groupName ∈ groups) →
      leastPriority rows = answer)
    (hGateway : ∀ rows, (∀ m, m ∈ rows ↔ Active table tenantId m ∧ m.groupName ∈ groups.flatMap pieces) →
      leastPriority rows = answer) :
    moduleLookup env src table₁ groups' = answer ∧
      lookupVlanForGroups table₂ tenantId (",".intercalate groups') = answer := by
  have hActive : ∀ {t : List VlanMapping} {m}, t.Perm table →
      (Active t tenantId m ↔ Active table tenantId m) := fun hPerm => and_congr_left fun _ => hPerm.mem_iff
  constructor
  · rw [moduleLookup_eq]
    refine hModule _ fun m => ?_
    rw [mem_moduleRows (hServes.perm h₁), hActive h₁, hGroups]
  · rw [lookupVlanForGroups_eq, repoLookupVlanForGroups]
    refine hGateway _ fun m => ?_
    rw [mem_repoRows, hActive h₂]
    simp only [List.mem_flatMap, hGroups]

theorem agrees_of_decided (hServes : Serves env table tenantId) (h : Decided table tenantId groups) :
    Agrees env src table tenantId groups := by
  have hAnswer : ∃ answer,
      (∀ rows, (∀ m, m ∈ rows ↔ Active table tenantId m ∧ m.groupName ∈ groups) →
        leastPriority rows = answer) ∧
      ∀ rows, (∀ m, m ∈ rows ↔ Active table tenantId m ∧ m.groupName ∈ groups.flatMap pieces) →
        leastPriority rows = answer := by
    obtain hNone | ⟨m, hActive, hName, hPiece, hLess⟩ := h
    · refine ⟨none, fun rows hRows => leastPriority_of_forall fun m hm => ?_,
        fun rows hRows => leastPriority_of_forall fun m hm => ?_⟩
      · obtain ⟨hActive, hName⟩ := (hRows m).mp hm
        exact hNone m ⟨hActive, .inl hName⟩
      · obtain ⟨hActive, hPiece⟩ := (hRows m).mp hm
        exact hNone m ⟨hActive, .inr hPiece⟩
    · refine ⟨some m, fun rows hRows => leastPriority_of_unique ((hRows m).mpr ⟨hActive, hName⟩) ?_,
        fun rows hRows => leastPriority_of_unique ((hRows m).mpr ⟨hActive, hPiece⟩) ?_⟩
      · intro m' hm' hOther
        obtain ⟨hActive', hName'⟩ := (hRows m').mp hm'
        exact hLess m' ⟨hActive', .inl hName'⟩ hOther
      · intro m' hm' hOther
        obtain ⟨hActive', hPiece'⟩ := (hRows m').mp hm'
        exact hLess m' ⟨hActive', .inr hPiece'⟩ hOther
  obtain ⟨answer, hModule, hGateway⟩ := hAnswer
  intro table₁ table₂ groups' h₁ h₂ hGroups
  obtain ⟨hFirst, hSecond⟩ := lookups_of_found src hServes h₁ h₂ hGroups hModule hGateway
  obtain ⟨hHere, -⟩ := lookups_of_found src hServes (.refl table) (.refl table)
    (fun _ => Iff.rfl) hModule hGateway
  exact ⟨by rw [hFirst, hHere], hSecond.trans hFirst.symm⟩

/-- The choice depends on the sets alone and is the same on both paths exactly when one mapping
goes before all that the names or their pieces find. -/
theorem agrees_iff (hServes : Serves env table tenantId) :
    Agrees env src table tenantId groups ↔ Decided table tenantId groups :=
  ⟨decided_of_agrees hServes, agrees_of_decided hServes⟩

/-- Two mappings with the default priority; the one of a name with a comma. -/
def sampleMappings : List VlanMapping :=
  [⟨"Staff", 10, 100, true, "t1"⟩, ⟨"Guests", 20, 100, true, "t1"⟩, ⟨"IT, Field", 30, 100, true, "t1"⟩]

theorem serves_sample : Serves staffEnv sampleMappings "t1" := .inr ⟨.inl rfl, by decide⟩

theorem choice_depends_on_order :
    ¬Agrees staffEnv (staffSources 0) sampleMappings "t1" ["Guests", "Staff"] ∧
      ¬Agrees staffEnv (staffSources 0) sampleMappings "t1" ["IT, Field"] := by
  constructor
  · intro h
    have hSwapped := (h [⟨"Guests", 20, 100, true, "t1"⟩, ⟨"Staff", 10, 100, true, "t1"⟩,
      ⟨"IT, Field", 30, 100, true, "t1"⟩] sampleMappings ["Guests", "Staff"] (.swap _ _ _) (.refl _)
      fun _ => Iff.rfl).1
    revert hSwapped
    decide
  · intro h
    have hSame := (h sampleMappings sampleMappings ["IT, Field"] (.refl _) (.refl _) fun _ => Iff.rfl).2
    revert hSame
    decide

theorem agrees_iff_sample : Agrees staffEnv (staffSources 0) sampleMappings "t1" ["Staff", "Printers"] ↔
    Decided sampleMappings "t1" ["Staff", "Printers"] :=
  agrees_iff serves_sample

end OpenRadiusWeb.GroupVlanMappings
