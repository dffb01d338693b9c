import OpenRadiusWeb.Lib.Paging
import OpenRadiusWeb.Lib.Text
import Mathlib.Data.Prod.Lex
import Mathlib.Data.String.Basic

/-! # The pages of the auth log and of the MAB devices

Each page is a request of its own, with its own reading of the clock and its own query. MAB
devices are ordered by name and address, and no two have one address. Auth log entries are
ordered by one column, and `last_hours` reaches back from each request.
-/

namespace OpenRadiusWeb.ListPages

open Paging

/-- A point in time, in microseconds. -/
abbrev Timestamp := Int

/-- What the lists leave to Python and PostgreSQL: `str.lower`, the case folding of `ILIKE`, the
collation of texts, and the texts of `inet` values. -/
structure Host (Inet Collated : Type) where
  lower : String → String
  foldCase : String → String
  collate : String → Collated
  inetText : Inet → String
  castInet : String → Option Inet

/-- The rows with a value first, as `ASC` has them. -/
def nullsLast {κ : Type} : Option κ → WithTop κ
  | none => ⊤
  | some k => k

/-! ## The auth log -/

/-- A row of `radius_auth_log`. -/
structure LogRow (Inet : Type) where
  id : String
  timestamp : Timestamp
  authResult : String
  authMethod : Option String
  failureReason : Option String
  callingStationId : Option String
  username : Option String
  nasIp : Option Inet
  nasPortId : Option String
  nasIdentifier : Option String
  processingTimeMs : Option Int
  deriving DecidableEq

structure AuthLog (Inet : Type) where
  rows : List (LogRow Inet)
  primaryKey : (rows.map fun row => (row.id, row.timestamp)).Nodup

inductive SortColumn
  | timestamp | authResult | username | callingStationId | nasIp | authMethod | failureReason
  | processingTimeMs

def SortColumn.name : SortColumn → String
  | .timestamp => "timestamp"
  | .authResult => "auth_result"
  | .username => "username"
  | .callingStationId => "calling_station_id"
  | .nasIp => "nas_ip"
  | .authMethod => "auth_method"
  | .failureReason => "failure_reason"
  | .processingTimeMs => "processing_time_ms"

/-- `ALLOWED_SORT_COLUMNS`. -/
def allowedSortColumns : List SortColumn := [
  .timestamp, .authResult, .username, .callingStationId, .nasIp, .authMethod, .failureReason,
  .processingTimeMs]

structure Filters where
  since : Option Timestamp
  startTime : Option Timestamp
  endTime : Option Timestamp
  lastHours : Option Int
  authResult : Option String
  callingStationId : Option String
  username : Option String
  nasIp : Option String
  nasPortId : Option String
  authMethod : Option String
  failureReason : Option String
  search : Option String

/-- What the requests for the pages have in common; `page_size` is at least 1. -/
structure ListRequest where
  pageSize : Nat
  pageSize_pos : 1 ≤ pageSize
  sortBy : String
  sortOrder : String
  filters : Filters

/-- The times at which the pages are asked for. -/
structure Clock where
  now : Nat → Timestamp
  forward : ∀ k, now k ≤ now (k + 1)

structure Response (α : Type) where
  items : List α
  total : Nat
  page : Nat
  pageSize : Nat
  pages : Nat

structure DataError where
  text : String
  deriving DecidableEq

/-- `_normalize_filters`. -/
def normalizeFilters (now : Timestamp) (filters : Filters) : Filters :=
  match filters.lastHours with
  | none => filters
  | some hours =>
    if hours = 0 then { filters with lastHours := none }
    else
      { filters with
        since := some (now - hours * 3600 * 1000000)
        startTime := none
        endTime := none
        lastHours := none }

section AuthLog

variable {Inet Collated : Type} [LinearOrder Inet] (host : Host Inet Collated)

/-- `column ILIKE '%value%'`; a `NULL` is not like anything. -/
def ilike (column : Option String) (value : String) : Bool :=
  match column with
  | none => false
  | some text => Text.like (host.foldCase ("%" ++ value ++ "%")).toList (host.foldCase text).toList

/-- A condition for a filter that is neither missing nor empty. -/
def given (value : Option String) (condition : String → LogRow Inet → Bool) : List (LogRow Inet → Bool) :=
  match value with
  | none => []
  | some text => if text = "" then [] else [condition text]

def givenTime (value : Option Timestamp) (condition : Timestamp → LogRow Inet → Bool) :
    List (LogRow Inet → Bool) :=
  match value with
  | none => []
  | some time => [condition time]

/-- `CAST(:nas_ip AS inet)`, where the filter is given. -/
def castNasIp (value : Option String) : Except DataError (List Inet) :=
  match value with
  | none => .ok []
  | some text =>
    if text = "" then .ok []
    else match host.castInet text with
      | none => .error ⟨"invalid input for query argument"⟩
      | some ip => .ok [ip]

/-- The `search` condition. -/
def searched (value : String) (row : LogRow Inet) : Bool :=
  ilike host row.username value || ilike host row.callingStationId value ||
    ilike host row.nasIdentifier value ||
    match row.nasIp with
    | none => false
    | some ip => Text.like ("%" ++ value ++ "%").toList (host.inetText ip).toList

def timeConditions (filters : Filters) : List (LogRow Inet → Bool) :=
  givenTime filters.since (fun since row => since ≤ row.timestamp) ++
  givenTime filters.startTime (fun start row => start ≤ row.timestamp) ++
  givenTime filters.endTime (fun stop row => row.timestamp ≤ stop)

def columnConditions (filters : Filters) (nasIps : List Inet) : List (LogRow Inet → Bool) :=
  given filters.authResult (fun value row => row.authResult = value) ++
  given filters.callingStationId (fun value row => ilike host row.callingStationId value) ++
  given filters.username (fun value row => ilike host row.username value) ++
  nasIps.map (fun ip (row : LogRow Inet) => decide (row.nasIp = some ip)) ++
  given filters.nasPortId (fun value row => ilike host row.nasPortId value) ++
  given filters.authMethod (fun value row => ilike host row.authMethod value) ++
  given filters.failureReason (fun value row => ilike host row.failureReason value) ++
  given filters.search (searched host)

def logConditions (filters : Filters) (nasIps : List Inet) : List (LogRow Inet → Bool) :=
  timeConditions filters ++ columnConditions host filters nasIps

/-- `_build_log_where`. -/
def buildLogWhere (filters : Filters) : Except DataError (List (LogRow Inet → Bool)) :=
  (castNasIp host filters.nasIp).map (logConditions host filters)

def SortColumn.ascending [LinearOrder Collated] : SortColumn → SortOrder (LogRow Inet)
  | .timestamp => .byKey fun row => row.timestamp
  | .authResult => .byKey fun row => host.collate row.authResult
  | .username => .byKey fun row => nullsLast (row.username.map host.collate)
  | .callingStationId => .byKey fun row => nullsLast (row.callingStationId.map host.collate)
  | .nasIp => .byKey fun row => nullsLast row.nasIp
  | .authMethod => .byKey fun row => nullsLast (row.authMethod.map host.collate)
  | .failureReason => .byKey fun row => nullsLast (row.failureReason.map host.collate)
  | .processingTimeMs => .byKey fun row => nullsLast row.processingTimeMs

/-- `ORDER BY {sort_by} {sort_order}`, as the service validates them. -/
def logOrder [LinearOrder Collated] (request : ListRequest) : SortOrder (LogRow Inet) :=
  let column := (allowedSortColumns.find? fun column => column.name = request.sortBy).getD .timestamp
  if host.lower request.sortOrder = "asc" then column.ascending host else (column.ascending host).reversed

/-- The rows that meet the conditions. -/
def AuthLog.selected (log : AuthLog Inet) (conditions : List (LogRow Inet → Bool)) : List (LogRow Inet) :=
  log.rows.filter fun row => conditions.all fun condition => condition row

variable [LinearOrder Collated]

/-- What `list_logs` returns for a total and an arrangement of the rows. -/
def logResponse {α : Type} (request : ListRequest) (page total : Nat) (arranged : List α) : Response α where
  items := (arranged.drop ((page - 1) * request.pageSize)).take request.pageSize
  total := total
  page := page
  pageSize := request.pageSize
  pages := if total > 0 then (total + request.pageSize - 1) / request.pageSize else 0

/-- A response of `list_logs`, for some arrangement of the rows by the database. -/
def ListLogs (log : AuthLog Inet) (request : ListRequest) (now : Timestamp) (page : Nat)
    (response : Response (LogRow Inet)) : Prop :=
  ∃ conditions arranged, buildLogWhere host (normalizeFilters now request.filters) = .ok conditions ∧
    (logOrder host request).Arranges (log.selected conditions) arranged ∧
    response = logResponse request page (log.selected conditions).length arranged

/-- The pages of the log are the rows that match at the first request, each once, and as few as
can be. -/
def LogComplete (log : AuthLog Inet) (request : ListRequest) (clock : Clock) : Prop :=
  ∀ responses : Nat → Response (LogRow Inet),
    (∀ k, ListLogs host log request (clock.now k) (k + 1) (responses k)) →
    (∀ conditions, buildLogWhere host (normalizeFilters (clock.now 0) request.filters) = .ok conditions →
      ((List.range (responses 0).pages).flatMap fun k => (responses k).items).Perm (log.selected conditions)) ∧
    ∀ n, (responses 0).pages ≤ n ↔ (responses 0).total ≤ n * request.pageSize

/-- While the pages are asked for the same rows match, and of these the ones that are equal in the
sort column lie on one page. -/
def LogSettled (log : AuthLog Inet) (request : ListRequest) (clock : Clock) : Prop :=
  ∀ conditions : Nat → List (LogRow Inet → Bool),
    (∀ k, buildLogWhere host (normalizeFilters (clock.now k) request.filters) = .ok (conditions k)) →
    (∀ k < pageCount (log.selected (conditions 0)).length request.pageSize,
      log.selected (conditions k) = log.selected (conditions 0)) ∧
    OnePage (logOrder host request) request.pageSize (log.selected (conditions 0))

end AuthLog

/-! ## The rows of one request after another -/

theorem timeConditions_mono {Inet : Type} {filters : Filters} {now now' : Timestamp} (hNow : now ≤ now')
    {row : LogRow Inet}
    (h : (timeConditions (normalizeFilters now' filters)).all (fun condition => condition row) = true) :
    (timeConditions (normalizeFilters now filters)).all (fun condition => condition row) = true := by
  rw [normalizeFilters] at h ⊢
  cases hHours : filters.lastHours with
  | none => rwa [hHours] at h
  | some hours =>
    rw [hHours] at h
    simp only at h ⊢
    split_ifs at h ⊢ with hZero
    · exact h
    · simp only [timeConditions, givenTime, List.all_append, Bool.and_eq_true, List.all_cons, List.all_nil,
        decide_eq_true_eq, and_true] at h ⊢
      exact (Int.sub_le_sub_right hNow _).trans h

section Requests

variable {Inet Collated : Type} [LinearOrder Inet] {host : Host Inet Collated}

theorem normalizeFilters_nasIp (now : Timestamp) (filters : Filters) :
    (normalizeFilters now filters).nasIp = filters.nasIp := by
  rw [normalizeFilters]
  split
  · rfl
  · split <;> rfl

theorem columnConditions_normalizeFilters (now : Timestamp) (filters : Filters) (nasIps : List Inet) :
    columnConditions host (normalizeFilters now filters) nasIps = columnConditions host filters nasIps := by
  rw [normalizeFilters]
  split
  · rfl
  · split <;> rfl

theorem buildLogWhere_eq {nasIps : List Inet} {filters : Filters} (h : castNasIp host filters.nasIp = .ok nasIps)
    (now : Timestamp) : buildLogWhere host (normalizeFilters now filters) =
      .ok (logConditions host (normalizeFilters now filters) nasIps) := by
  rw [buildLogWhere, normalizeFilters_nasIp, h]
  rfl

theorem nasIps_of_buildLogWhere {filters : Filters} {now : Timestamp} {conditions : List (LogRow Inet → Bool)}
    (h : buildLogWhere host (normalizeFilters now filters) = .ok conditions) :
    ∃ nasIps, castNasIp host filters.nasIp = .ok nasIps := by
  rw [buildLogWhere, normalizeFilters_nasIp] at h
  cases hCast : castNasIp host filters.nasIp with
  | error e => rw [hCast] at h; cases h
  | ok nasIps => exact ⟨nasIps, rfl⟩

theorem selected_sublist (log : AuthLog Inet) (filters : Filters) (nasIps : List Inet) {now now' : Timestamp}
    (hNow : now ≤ now') :
    (log.selected (logConditions host (normalizeFilters now' filters) nasIps)).Sublist
      (log.selected (logConditions host (normalizeFilters now filters) nasIps)) := by
  refine List.monotone_filter_right _ fun row hRow => ?_
  rw [logConditions, List.all_append, Bool.and_eq_true, columnConditions_normalizeFilters] at hRow ⊢
  exact ⟨timeConditions_mono hNow hRow.1, hRow.2⟩

end Requests

theorem nodup_selected {Inet : Type} (log : AuthLog Inet) (conditions : List (LogRow Inet → Bool)) :
    (log.selected conditions).Nodup :=
  (List.Nodup.of_map _ log.primaryKey).filter _

theorem flatMap_items {α : Type} (request : ListRequest) (n : Nat) (totals : Nat → Nat) (outs : Nat → List α) :
    ((List.range n).flatMap fun k => (logResponse request (k + 1) (totals k) (outs k)).items) =
      concatPages request.pageSize n outs := by
  refine List.flatMap_congr fun k _ => ?_
  rw [logResponse, page, Nat.add_sub_cancel]

section LogPages

variable {Inet Collated : Type} [LinearOrder Inet] [LinearOrder Collated] {host : Host Inet Collated}
  {log : AuthLog Inet} {request : ListRequest} {clock : Clock} {nasIps : List Inet}

def matching (host : Host Inet Collated) (log : AuthLog Inet) (request : ListRequest) (clock : Clock)
    (nasIps : List Inet) (k : Nat) : List (LogRow Inet) :=
  log.selected (logConditions host (normalizeFilters (clock.now k) request.filters) nasIps)

theorem logComplete_of_cast (hCast : castNasIp host request.filters.nasIp = .ok nasIps) :
    LogComplete host log request clock ↔ ∀ outs : Nat → List (LogRow Inet),
      (∀ k, (logOrder host request).Arranges (matching host log request clock nasIps k) (outs k)) →
        (concatPages request.pageSize
          (pageCount (matching host log request clock nasIps 0).length request.pageSize) outs).Perm
            (matching host log request clock nasIps 0) := by
  have hWhere := fun k => buildLogWhere_eq hCast (clock.now k)
  constructor
  · intro h outs hOuts
    have hPages := (h (fun k => logResponse request (k + 1) (matching host log request clock nasIps k).length (outs k))
      fun k => ⟨_, outs k, hWhere k, hOuts k, rfl⟩).1 _ (hWhere 0)
    rw [flatMap_items] at hPages
    exact hPages
  · intro h responses hResponses
    have hArranged : ∀ k, ∃ arranged,
        (logOrder host request).Arranges (matching host log request clock nasIps k) arranged ∧
          responses k = logResponse request (k + 1) (matching host log request clock nasIps k).length arranged := by
      intro k
      obtain ⟨conditions, arranged, hConditions, hArranges, hResponse⟩ := hResponses k
      obtain rfl := Except.ok.inj ((hWhere k).symm.trans hConditions)
      exact ⟨arranged, hArranges, hResponse⟩
    choose outs hOuts hSame using hArranged
    have hEq : responses = fun k =>
        logResponse request (k + 1) (matching host log request clock nasIps k).length (outs k) := funext hSame
    rw [hEq]
    refine ⟨fun conditions hConditions => ?_, pageCount_le_iff request.pageSize_pos _⟩
    obtain rfl := Except.ok.inj ((hWhere 0).symm.trans hConditions)
    rw [flatMap_items]
    exact h outs hOuts

theorem logSettled_of_cast (hCast : castNasIp host request.filters.nasIp = .ok nasIps) :
    LogSettled host log request clock ↔
      (∀ k < pageCount (matching host log request clock nasIps 0).length request.pageSize,
        matching host log request clock nasIps k = matching host log request clock nasIps 0) ∧
      OnePage (logOrder host request) request.pageSize (matching host log request clock nasIps 0) := by
  have hWhere := fun k => buildLogWhere_eq hCast (clock.now k)
  constructor
  · exact fun h => h _ hWhere
  · intro h conditions hConditions
    have hEq : conditions = fun k => logConditions host (normalizeFilters (clock.now k) request.filters) nasIps :=
      funext fun k => Except.ok.inj ((hConditions k).symm.trans (hWhere k))
    rw [hEq]
    exact h

/-- The pages of the log are complete exactly when the rows stay and ties lie on one page. -/
theorem logComplete_iff_logSettled (host : Host Inet Collated) (log : AuthLog Inet) (request : ListRequest)
    (clock : Clock) : LogComplete host log request clock ↔ LogSettled host log request clock := by
  cases hCast : castNasIp host request.filters.nasIp with
  | error e =>
    -- the database takes no request
    have hNone : ∀ now conditions,
        buildLogWhere host (normalizeFilters now request.filters) ≠ .ok conditions := by
      intro now conditions h
      obtain ⟨nasIps, hOk⟩ := nasIps_of_buildLogWhere h
      rw [hCast] at hOk
      cases hOk
    constructor
    · exact fun _ conditions h => (hNone _ _ (h 0)).elim
    · intro _ responses h
      obtain ⟨conditions, arranged, hWhere, -⟩ := h 0
      exact (hNone _ _ hWhere).elim
  | ok nasIps =>
    rw [logComplete_of_cast hCast, logSettled_of_cast hCast]
    exact concatPages_perm_iff request.pageSize_pos (nodup_selected log _) fun k =>
      selected_sublist log request.filters nasIps (clock.forward k)

end LogPages

/-! ## The MAB devices -/

/-- A row of `mab_devices`. -/
structure MabDevice where
  id : String
  macAddress : Nat
  name : Option String
  deviceType : Option String
  enabled : Option Bool
  tenantId : Option String
  deriving DecidableEq

/-- No two devices of a tenant have one address: `UNIQUE(mac_address, tenant_id)`. -/
structure MabTable where
  rows : List MabDevice
  unique : rows.Pairwise fun a b => ¬ (a.macAddress = b.macAddress ∧ a.tenantId = b.tenantId ∧ a.tenantId ≠ none)

structure MabRequest where
  tenantId : String
  enabled : Option Bool
  deviceType : Option String
  pageSize : Nat
  pageSize_pos : 1 ≤ pageSize

structure MabResponse where
  items : List MabDevice
  total : Nat
  page : Nat
  pageSize : Nat

/-- `_filter_clause`. -/
def filterClause (request : MabRequest) (row : MabDevice) : Bool :=
  row.tenantId = some request.tenantId &&
    (match request.enabled with
      | none => true
      | some enabled => row.enabled = some enabled) &&
    match request.deviceType with
    | none => true
    | some type => type = "" || row.deviceType = some type

def MabTable.selected (table : MabTable) (request : MabRequest) : List MabDevice :=
  table.rows.filter (filterClause request)

section MabPages

variable {Inet Collated : Type} [LinearOrder Collated] (host : Host Inet Collated)

/-- `ORDER BY name, mac_address`. -/
def mabOrder : SortOrder MabDevice :=
  .byKey fun row => toLex (nullsLast (row.name.map host.collate), row.macAddress)

/-- A response of `list_mab_devices`, for some arrangement of the rows by the database. -/
def ListMabDevices (table : MabTable) (request : MabRequest) (page : Nat) (response : MabResponse) : Prop :=
  ∃ arranged, (mabOrder host).Arranges (table.selected request) arranged ∧
    response =
      { items := (arranged.drop ((page - 1) * request.pageSize)).take request.pageSize
        total := (table.selected request).length
        page := page
        pageSize := request.pageSize }

/-- The pages that the total makes are the devices that match, each once, and as few as can be. -/
def MabComplete (table : MabTable) (request : MabRequest) : Prop :=
  ∀ responses : Nat → MabResponse, (∀ k, ListMabDevices host table request (k + 1) (responses k)) →
    ((List.range (pageCount (responses 0).total request.pageSize)).flatMap fun k => (responses k).items).Perm
        (table.selected request) ∧
      ∀ n, pageCount (responses 0).total request.pageSize ≤ n ↔ (responses 0).total ≤ n * request.pageSize

variable {host}

theorem nodup_macAddress (table : MabTable) (request : MabRequest) :
    ((table.selected request).map MabDevice.macAddress).Nodup := by
  rw [List.Nodup, List.pairwise_map]
  refine List.Pairwise.imp_of_mem (fun {a b} ha hb hApart hMac => ?_) (table.unique.filter _)
  have hTenant : ∀ row ∈ table.selected request, row.tenantId = some request.tenantId := by
    intro row hRow
    have hClause := (List.mem_filter.mp hRow).2
    rw [filterClause, Bool.and_eq_true, Bool.and_eq_true, decide_eq_true_eq] at hClause
    exact hClause.1.1
  have hA := hTenant a ha
  refine hApart ⟨hMac, hA.trans (hTenant b hb).symm, ?_⟩
  rw [hA]
  exact Option.some_ne_none _

theorem mabComplete (host : Host Inet Collated) (table : MabTable) (request : MabRequest) :
    MabComplete host table request := by
  intro responses hResponses
  choose outs hOuts hSame using hResponses
  have hMacs := nodup_macAddress table request
  have hNodup := List.Nodup.of_map _ hMacs
  have hTies : OnePage (mabOrder host) request.pageSize (table.selected request) := by
    refine onePage_of_antisymm request.pageSize_pos hNodup fun x hx y hy hxy hyx => ?_
    have hKey : toLex (nullsLast (x.name.map host.collate), x.macAddress) =
        toLex (nullsLast (y.name.map host.collate), y.macAddress) := le_antisymm hxy hyx
    have hMac : x.macAddress = y.macAddress := congrArg (fun key => (ofLex key).2) hKey
    exact List.inj_on_of_nodup_map hMacs hx hy hMac
  have hTotal : (responses 0).total = (table.selected request).length := by rw [hSame 0]
  have hItems : ∀ k, (responses k).items = page request.pageSize k (outs k) := by
    intro k
    rw [hSame k, page, Nat.add_sub_cancel]
  rw [hTotal]
  refine ⟨?_, pageCount_le_iff request.pageSize_pos _⟩
  simp only [hItems]
  exact concatPages_perm request.pageSize_pos hNodup hTies fun k _ => hOuts k

end MabPages

/-- The pages of both lists are complete exactly when the log rows stay and ties lie on one page. -/
theorem lists_complete_iff {Inet Collated : Type} [LinearOrder Inet] [LinearOrder Collated]
    (host : Host Inet Collated) (log : AuthLog Inet) (request : ListRequest) (clock : Clock) (table : MabTable)
    (mabRequest : MabRequest) : LogComplete host log request clock ∧ MabComplete host table mabRequest ↔
      LogSettled host log request clock := by
  rw [logComplete_iff_logSettled]
  exact and_iff_left (mabComplete host table mabRequest)

/-! ## Two entries of one moment -/

def plainHost : Host String String := ⟨id, id, id, id, some⟩

def entry (id : String) : LogRow String where
  id := id
  timestamp := 1000000
  authResult := "success"
  authMethod := none
  failureReason := none
  callingStationId := none
  username := none
  nasIp := none
  nasPortId := none
  nasIdentifier := none
  processingTimeMs := none

def noFilters : Filters := ⟨none, none, none, none, none, none, none, none, none, none, none, none⟩

def oneByOne : ListRequest where
  pageSize := 1
  pageSize_pos := le_rfl
  sortBy := "timestamp"
  sortOrder := "desc"
  filters := noFilters

/-- The second query may put first what the first query put last. -/
theorem entry_twice : ¬ LogComplete plainHost ⟨[entry "a", entry "b"], by decide⟩ oneByOne
    ⟨fun _ => 0, fun _ => Int.le_refl 0⟩ := by
  intro h
  let outs : Nat → List (LogRow String) := fun k =>
    if k = 0 then [entry "a", entry "b"] else [entry "b", entry "a"]
  have hTied : ∀ x y : String, (logOrder plainHost oneByOne).le (entry x) (entry y) :=
    fun _ _ => Int.le_refl 1000000
  have hArranged : ∀ k, (logOrder plainHost oneByOne).Arranges [entry "a", entry "b"] (outs k) := by
    intro k
    rcases Nat.eq_zero_or_pos k with rfl | hPos
    · exact ⟨List.Perm.refl _, List.pairwise_pair.mpr (hTied "a" "b")⟩
    · have hOut : outs k = [entry "b", entry "a"] := if_neg (Nat.ne_of_gt hPos)
      rw [hOut]
      exact ⟨List.Perm.swap _ _ _, List.pairwise_pair.mpr (hTied "b" "a")⟩
  have hPages := (h (fun k => logResponse oneByOne (k + 1) 2 (outs k)) fun k =>
    ⟨[], outs k, rfl, hArranged k, rfl⟩).1 [] rfl
  revert hPages
  decide

end OpenRadiusWeb.ListPages
