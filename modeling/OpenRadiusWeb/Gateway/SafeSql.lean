import OpenRadiusWeb.Lib.Dict
import OpenRadiusWeb.Lib.SetClause

/-! # Partial updates

`build_safe_set_clause` renames the fields of an update to columns, drops the columns that are
not allowed and assigns the others. Each column is assigned once exactly when no two fields
come to the same one.
-/

namespace OpenRadiusWeb.SafeSql

open SetClause

structure ValueError where
  text : String
  deriving DecidableEq

def noColumns : ValueError := ⟨"No valid columns to update"⟩

section Build

variable {α : Type} (allowedColumns : List String) (columnMap typeCasts : Dict String)

def dbCol (field : String) : String := columnMap.getD field field

def setPart (column : String) : String :=
  let cast := typeCasts.getD column ""
  if cast ≠ "" then column ++ " = CAST(:" ++ column ++ " AS " ++ cast ++ ")"
  else column ++ " = :" ++ column

/-- One turn of the loop. -/
def addField (built : List String × Dict α) (item : String × α) : List String × Dict α :=
  let column := dbCol columnMap item.1
  if column ∉ allowedColumns then built
  else (built.1 ++ [setPart typeCasts column], built.2.set column item.2)

def buildSafeSetClause (updates : Dict α) : Except ValueError (String × Dict α) :=
  let (setParts, params) := updates.foldl (addField allowedColumns columnMap typeCasts) ([], [])
  if setParts = [] then .error noColumns else .ok (", ".intercalate setParts, params)

/-- The items whose fields come to an allowed column. -/
def kept (updates : Dict α) : Dict α :=
  updates.filter fun item => dbCol columnMap item.1 ∈ allowedColumns

/-- The allowed columns the fields come to, in the order of the fields. -/
def columns (updates : Dict α) : List String :=
  (kept allowedColumns columnMap updates).map fun item => dbCol columnMap item.1

def castOf (column : String) : Option String :=
  let cast := typeCasts.getD column ""
  if cast ≠ "" then some cast else none

/-- What the clause does: it assigns each allowed column of the update once, from parameters
that are those of the dictionary and have the values of the fields. -/
structure Assigns (updates params : Dict α) (as : List Assignment) : Prop where
  once : (as.map Assignment.column).Nodup
  assigned : ∀ column, column ∈ as.map Assignment.column ↔ column ∈ columns allowedColumns columnMap updates
  bound : ∀ param, param ∈ Dict.keys params ↔ param ∈ as.map Assignment.param
  values : ∀ item ∈ kept allowedColumns columnMap updates,
    ∃ a ∈ as, a.column = dbCol columnMap item.1 ∧ params.get? a.param = some item.2
  casts : ∀ a ∈ as, a.cast = castOf typeCasts a.column

/-- The error, exactly when no field comes to an allowed column, or a clause that assigns them. -/
def Updates (dialect : Dialect) (updates : Dict α) : Prop :=
  match buildSafeSetClause allowedColumns columnMap typeCasts updates with
  | .error e => e = noColumns ∧ columns allowedColumns columnMap updates = []
  | .ok (clause, params) => columns allowedColumns columnMap updates ≠ [] ∧
    ∃ as, dialect.Reads clause as ∧ Assigns allowedColumns columnMap typeCasts updates params as

/-- No two fields come to one allowed column, and the columns and their casts can stand in a
clause as they are. -/
structure Distinct (dialect : Dialect) (updates : Dict α) : Prop where
  nodup : (columns allowedColumns columnMap updates).Nodup
  named : ∀ column ∈ columns allowedColumns columnMap updates,
    dialect.isColumn column = true ∧ dialect.isParam column = true
  typed : ∀ column ∈ columns allowedColumns columnMap updates, ∀ type,
    castOf typeCasts column = some type → dialect.isType type = true

end Build

/-! ## The loop -/

section Loop

variable {α : Type} {allowedColumns : List String} {columnMap typeCasts : Dict String}

def assignment (typeCasts : Dict String) (column : String) : Assignment :=
  ⟨column, column, castOf typeCasts column⟩

theorem text_assignment (column : String) : (assignment typeCasts column).text = setPart typeCasts column := by
  rw [Assignment.text, assignment, castOf, setPart]
  by_cases hCast : typeCasts.getD column "" = "" <;> simp [hCast]

/-- The parameters of the columns that are set. -/
def paramsOf (columnMap : Dict String) (params items : Dict α) : Dict α :=
  items.foldl (fun params item => params.set (dbCol columnMap item.1) item.2) params

theorem foldl_addField (updates : Dict α) (setParts : List String) (params : Dict α) :
    updates.foldl (addField allowedColumns columnMap typeCasts) (setParts, params) =
      (setParts ++ (columns allowedColumns columnMap updates).map (setPart typeCasts),
        paramsOf columnMap params (kept allowedColumns columnMap updates)) := by
  induction updates generalizing setParts params with
  | nil => simp [columns, kept, paramsOf]
  | cons item updates ih =>
    rw [List.foldl_cons, addField]
    by_cases hAllowed : dbCol columnMap item.1 ∈ allowedColumns
    · rw [if_neg (not_not.mpr hAllowed), ih]
      simp [columns, kept, paramsOf, hAllowed]
    · rw [if_pos hAllowed, ih]
      simp [columns, kept, hAllowed]

theorem buildSafeSetClause_eq (updates : Dict α) :
    buildSafeSetClause allowedColumns columnMap typeCasts updates =
      if columns allowedColumns columnMap updates = [] then .error noColumns
      else .ok (clauseText ((columns allowedColumns columnMap updates).map (assignment typeCasts)),
        paramsOf columnMap [] (kept allowedColumns columnMap updates)) := by
  have hText : (columns allowedColumns columnMap updates).map (setPart typeCasts) =
      ((columns allowedColumns columnMap updates).map (assignment typeCasts)).map Assignment.text := by
    rw [List.map_map]
    exact List.map_congr_left fun column _ => (text_assignment column).symm
  rw [buildSafeSetClause, foldl_addField, List.nil_append, hText, clauseText]
  simp only [List.map_eq_nil_iff]

theorem mem_keys_paramsOf {params items : Dict α} {column : String} :
    column ∈ Dict.keys (paramsOf columnMap params items) ↔
      column ∈ Dict.keys params ∨ column ∈ items.map fun item => dbCol columnMap item.1 := by
  induction items generalizing params with
  | nil => simp [paramsOf]
  | cons item items ih =>
    rw [paramsOf, List.foldl_cons, ← paramsOf, ih, Dict.mem_keys_set, List.map_cons, List.mem_cons]
    tauto

theorem get?_paramsOf_of_not_mem {params items : Dict α} {column : String}
    (h : column ∉ items.map fun item => dbCol columnMap item.1) :
    (paramsOf columnMap params items).get? column = params.get? column := by
  induction items generalizing params with
  | nil => rfl
  | cons item items ih =>
    rw [List.map_cons, List.mem_cons, not_or] at h
    rw [paramsOf, List.foldl_cons, ← paramsOf, ih h.2, Dict.get?_set_of_ne _ _ h.1]

theorem get?_paramsOf {params items : Dict α} (h : (items.map fun item => dbCol columnMap item.1).Nodup)
    {item : String × α} (hItem : item ∈ items) :
    (paramsOf columnMap params items).get? (dbCol columnMap item.1) = some item.2 := by
  induction items generalizing params with
  | nil => cases hItem
  | cons first items ih =>
    rw [List.map_cons, List.nodup_cons] at h
    rw [paramsOf, List.foldl_cons, ← paramsOf]
    rcases List.mem_cons.mp hItem with rfl | hItem
    · rw [get?_paramsOf_of_not_mem h.1, Dict.get?_set_self]
    · exact ih h.2 hItem

end Loop

section Main

variable {α : Type} {allowedColumns : List String} {columnMap typeCasts : Dict String}
  {dialect : Dialect} {updates : Dict α}

theorem reads_assignments (hSome : columns allowedColumns columnMap updates ≠ [])
    (hNamed : ∀ column ∈ columns allowedColumns columnMap updates,
      dialect.isColumn column = true ∧ dialect.isParam column = true)
    (hTyped : ∀ column ∈ columns allowedColumns columnMap updates, ∀ type,
      castOf typeCasts column = some type → dialect.isType type = true) :
    dialect.Reads (clauseText ((columns allowedColumns columnMap updates).map (assignment typeCasts)))
      ((columns allowedColumns columnMap updates).map (assignment typeCasts)) where
  some hNone := hSome (List.map_eq_nil_iff.mp hNone)
  wellFormed a ha := by
    obtain ⟨column, hColumn, rfl⟩ := List.mem_map.mp ha
    exact ⟨(hNamed column hColumn).1, (hNamed column hColumn).2, hTyped column hColumn⟩
  text := rfl

theorem map_column_assignment (names : List String) :
    (names.map (assignment typeCasts)).map Assignment.column = names := by
  rw [List.map_map]
  exact List.map_id _

theorem map_param_assignment (names : List String) :
    (names.map (assignment typeCasts)).map Assignment.param = names := by
  rw [List.map_map]
  exact List.map_id _

theorem assigns_of_distinct (h : Distinct allowedColumns columnMap typeCasts dialect updates) :
    Assigns allowedColumns columnMap typeCasts updates
      (paramsOf columnMap [] (kept allowedColumns columnMap updates))
      ((columns allowedColumns columnMap updates).map (assignment typeCasts)) where
  once := by
    rw [map_column_assignment]
    exact h.nodup
  assigned column := by rw [map_column_assignment]
  bound param := by
    rw [map_param_assignment, mem_keys_paramsOf, ← columns]
    simp [Dict.keys]
  values item hItem := by
    have hColumn : dbCol columnMap item.1 ∈ columns allowedColumns columnMap updates :=
      List.mem_map_of_mem (f := fun item : String × α => dbCol columnMap item.1) hItem
    exact ⟨_, List.mem_map_of_mem hColumn, rfl, get?_paramsOf h.nodup hItem⟩
  casts a ha := by
    obtain ⟨column, -, rfl⟩ := List.mem_map.mp ha
    rfl

/-- A clause that assigns the columns once shows that they are distinct and can be read. -/
theorem distinct_of_assigns {as : List Assignment} (hSome : columns allowedColumns columnMap updates ≠ [])
    (hReads : dialect.Reads
      (clauseText ((columns allowedColumns columnMap updates).map (assignment typeCasts))) as)
    (h : Assigns allowedColumns columnMap typeCasts updates
      (paramsOf columnMap [] (kept allowedColumns columnMap updates)) as) :
    Distinct allowedColumns columnMap typeCasts dialect updates := by
  have hNamed : ∀ column ∈ columns allowedColumns columnMap updates,
      dialect.isColumn column = true ∧ dialect.isParam column = true := by
    intro column hColumn
    obtain ⟨a, ha, rfl⟩ := List.mem_map.mp ((h.assigned column).mpr hColumn)
    have hKey : a.column ∈ Dict.keys (paramsOf columnMap [] (kept allowedColumns columnMap updates)) :=
      mem_keys_paramsOf.mpr (.inr hColumn)
    obtain ⟨b, hb, hParam⟩ := List.mem_map.mp ((h.bound a.column).mp hKey)
    exact ⟨(hReads.wellFormed a ha).column, hParam ▸ (hReads.wellFormed b hb).param⟩
  have hTyped : ∀ column ∈ columns allowedColumns columnMap updates, ∀ type,
      castOf typeCasts column = some type → dialect.isType type = true := by
    intro column hColumn type hType
    obtain ⟨a, ha, rfl⟩ := List.mem_map.mp ((h.assigned column).mpr hColumn)
    exact (hReads.wellFormed a ha).cast type ((h.casts a ha).trans hType)
  refine ⟨?_, hNamed, hTyped⟩
  have hOnce := h.once
  rw [hReads.unique (reads_assignments hSome hNamed hTyped), map_column_assignment] at hOnce
  exact hOnce

theorem updates_of_distinct (h : Distinct allowedColumns columnMap typeCasts dialect updates) :
    Updates allowedColumns columnMap typeCasts dialect updates := by
  rw [Updates, buildSafeSetClause_eq]
  by_cases hNone : columns allowedColumns columnMap updates = []
  · rw [if_pos hNone]
    exact ⟨rfl, hNone⟩
  · rw [if_neg hNone]
    exact ⟨hNone, _, reads_assignments hNone h.named h.typed, assigns_of_distinct h⟩

theorem distinct_of_updates (h : Updates allowedColumns columnMap typeCasts dialect updates) :
    Distinct allowedColumns columnMap typeCasts dialect updates := by
  rw [Updates, buildSafeSetClause_eq] at h
  by_cases hNone : columns allowedColumns columnMap updates = []
  · constructor
    · rw [hNone]
      exact List.nodup_nil
    · rw [hNone]
      exact List.forall_mem_nil _
    · rw [hNone]
      exact List.forall_mem_nil _
  · rw [if_neg hNone] at h
    obtain ⟨-, as, hReads, hAssigns⟩ := h
    exact distinct_of_assigns hNone hReads hAssigns

/-- The clause assigns every allowed column of the update once exactly when the columns are
distinct and can stand in a clause. -/
theorem updates_iff (allowedColumns : List String) (columnMap typeCasts : Dict String) (dialect : Dialect)
    (updates : Dict α) : Updates allowedColumns columnMap typeCasts dialect updates ↔
      Distinct allowedColumns columnMap typeCasts dialect updates :=
  ⟨distinct_of_updates, updates_of_distinct⟩

theorem accepts_of_updates (h : Updates allowedColumns columnMap typeCasts dialect updates) {clause : String}
    {params : Dict α}
    (hClause : buildSafeSetClause allowedColumns columnMap typeCasts updates = .ok (clause, params)) :
    dialect.Accepts clause (Dict.keys params) := by
  rw [Updates, hClause] at h
  obtain ⟨-, as, hReads, hAssigns⟩ := h
  refine ⟨as, hReads, hAssigns.once, fun a ha => ?_⟩
  exact (hAssigns.bound a.param).mpr (List.mem_map_of_mem ha)

end Main

/-! ## A field given beside the column it is renamed to -/

def ldapServerUpdateColumns : List String := [
  "name", "description", "host", "port", "use_tls", "use_starttls",
  "bind_dn", "bind_password_encrypted", "base_dn",
  "user_search_filter", "user_search_base",
  "group_search_filter", "group_search_base", "group_membership_attr",
  "username_attr", "display_name_attr", "email_attr",
  "connect_timeout_seconds", "search_timeout_seconds", "idle_timeout_seconds",
  "tls_ca_cert", "tls_require_cert", "priority", "enabled"]

def ldapColumnMap : Dict String := [("bind_password", "bind_password_encrypted")]

theorem one_column_twice :
    buildSafeSetClause ldapServerUpdateColumns ldapColumnMap []
        [("bind_password", "a"), ("bind_password_encrypted", "b")] =
      .ok ("bind_password_encrypted = :bind_password_encrypted, " ++
        "bind_password_encrypted = :bind_password_encrypted", [("bind_password_encrypted", "b")]) ∧
    ¬ Updates ldapServerUpdateColumns ldapColumnMap [] lowerCase
      [("bind_password", "a"), ("bind_password_encrypted", "b")] := by
  refine ⟨by decide +kernel, fun h => ?_⟩
  have hNodup := (distinct_of_updates h).nodup
  revert hNodup
  decide +kernel

/-! ## The repositories -/

section Repositories

variable {α : Type} {updates : Dict α}

def realmUpdateColumns : List String := [
  "name", "description", "realm_type", "strip_username",
  "proxy_host", "proxy_port", "proxy_secret_encrypted", "proxy_nostrip",
  "proxy_retry_count", "proxy_retry_delay_seconds", "proxy_dead_time_seconds",
  "ldap_server_id", "auth_types_allowed",
  "default_vlan", "default_filter_id", "fallback_realm_id",
  "priority", "enabled"]

def realmColumnMap : Dict String := [("proxy_secret", "proxy_secret_encrypted")]

def nasClientUpdateColumns : List String := [
  "name", "ip_address", "secret_encrypted",
  "shortname", "nas_type", "description", "enabled"]

def nasClientColumnMap : Dict String := [("shared_secret", "secret_encrypted")]

/-- One renamed field meets no other column while the column itself is not a field. -/
theorem distinct_of_one_renamed {field column : String} {allowedColumns : List String}
    (hWords : allowedColumns.all isWord = true) (hFields : (Dict.keys updates).Nodup)
    (hFresh : column ∉ Dict.keys updates) :
    Distinct allowedColumns [(field, column)] [] lowerCase updates where
  nodup := by
    have hKept : (Dict.keys (kept allowedColumns [(field, column)] updates)).Nodup :=
      hFields.sublist (List.filter_sublist.map _)
    have hNot : ∀ item ∈ kept allowedColumns [(field, column)] updates, item.1 ≠ column := by
      intro item hItem hSame
      exact hFresh (hSame ▸ List.mem_map_of_mem (List.mem_filter.mp hItem).1)
    rw [Dict.keys, List.Nodup, List.pairwise_map] at hKept
    rw [columns, List.Nodup, List.pairwise_map]
    refine hKept.imp_of_mem fun {a b} ha hb hApart hSame => ?_
    simp only [dbCol, Dict.getD, Dict.get?_cons, Dict.get?_nil] at hSame
    split_ifs at hSame with hA hB hB
    · exact hApart (hA.trans hB.symm)
    · exact hNot b hb hSame.symm
    · exact hNot a ha hSame
    · exact hApart hSame
  named c hc := by
    obtain ⟨item, hItem, rfl⟩ := List.mem_map.mp hc
    have hWord := List.all_eq_true.mp hWords _ (of_decide_eq_true (List.mem_filter.mp hItem).2)
    exact ⟨hWord, hWord⟩
  typed c _ type hType := by
    cases hType

theorem updateRealm_updates (hFields : (Dict.keys updates).Nodup)
    (hFresh : "proxy_secret_encrypted" ∉ Dict.keys updates) :
    Updates realmUpdateColumns realmColumnMap [] lowerCase updates :=
  updates_of_distinct (distinct_of_one_renamed (by decide +kernel) hFields hFresh)

theorem updateNasClient_updates (hFields : (Dict.keys updates).Nodup)
    (hFresh : "secret_encrypted" ∉ Dict.keys updates) :
    Updates nasClientUpdateColumns nasClientColumnMap [] lowerCase updates :=
  updates_of_distinct (distinct_of_one_renamed (by decide +kernel) hFields hFresh)

end Repositories

end OpenRadiusWeb.SafeSql
