import OpenRadiusWeb.Inventory.Discovered
import OpenRadiusWeb.Lib.Pattern
import OpenRadiusWeb.Policy.Equality
import Mathlib.Algebra.Order.BigOperators.Group.List
import Mathlib.Algebra.Order.Ring.Nat

/-! # The inventory after a sequence of events

Each event that is accepted stores what it gives and leaves the rest, so after a sequence of them
each column and each port has the last value given. An event that is refused leaves nothing.
-/

namespace OpenRadiusWeb.Inventory

open OpenRadiusWeb.Policy (PyErr PyVal lowerAscii plainBuiltins)
open Upsert

section Events

variable {env : Env} {tenant m : String} {data : Dict PyVal} {events : List (Dict PyVal)}

theorem eventsOf_append (env : Env) (m : String) (events more : List (Dict PyVal)) :
    env.eventsOf m (events ++ more) = env.eventsOf m events ++ env.eventsOf m more :=
  List.filter_append events more

theorem eventsOf_self (h : env.macOf data = some m) : env.eventsOf m [data] = [data] :=
  List.filter_cons_of_pos (decide_eq_true h)

theorem eventsOf_other (h : env.macOf data ≠ some m) : env.eventsOf m [data] = [] :=
  List.filter_cons_of_neg (by simpa using h)

theorem lastColumn_self (h : env.macOf data = some m) (c : Column) (events : List (Dict PyVal)) :
    env.lastColumn c m (events ++ [data]) = (env.given c data).or (env.lastColumn c m events) := by
  rw [Env.lastColumn, eventsOf_append, eventsOf_self h, lastGiven_append, lastGiven_singleton]
  rfl

theorem lastColumn_other (h : env.macOf data ≠ some m) (c : Column) (events : List (Dict PyVal)) :
    env.lastColumn c m (events ++ [data]) = env.lastColumn c m events := by
  rw [Env.lastColumn, eventsOf_append, eventsOf_other h, List.append_nil]
  rfl

theorem lastService_self (h : env.macOf data = some m) (key : String) (events : List (Dict PyVal)) :
    env.lastService key m (events ++ [data]) =
      (lastGiven (valueAt key) (env.servicesGiven data)).or (env.lastService key m events) := by
  rw [Env.lastService, eventsOf_append, eventsOf_self h, List.flatMap_append, lastGiven_append,
    List.flatMap_singleton]
  rfl

theorem lastService_other (h : env.macOf data ≠ some m) (key : String) (events : List (Dict PyVal)) :
    env.lastService key m (events ++ [data]) = env.lastService key m events := by
  rw [Env.lastService, eventsOf_append, eventsOf_other h, List.append_nil]
  rfl

theorem reported_append (env : Env) (tenant : String) (events : List (Dict PyVal)) (data : Dict PyVal)
    (d : Device) : env.reported tenant (events ++ [data]) d =
      (env.reported tenant events d || env.reported tenant [data] d) := by
  rw [Env.reported, Env.reported, Env.reported, List.any_append, Bool.and_or_distrib_left]

theorem reported_self (h : env.macOf data = some m) (d : Device) :
    env.reported tenant [data] d = decide (deviceRule.key d = some (m, tenant)) := by
  have hKey : deviceRule.key d = d.tenantId.map fun tenant => (d.macAddress, tenant) := rfl
  rw [Env.reported, List.any_cons, List.any_nil, Bool.or_false, h, hKey, ← Bool.decide_and,
    decide_eq_decide]
  cases d.tenantId with
  | none => simp
  | some t => simp [and_comm, eq_comm]

theorem reported_none (h : env.macOf data = none) (d : Device) : env.reported tenant [data] d = false := by
  rw [Env.reported, List.any_cons, List.any_nil, Bool.or_false, h]
  exact Bool.and_false _

theorem macOf_ne {m' : String} (h : env.macOf data = some m) (hOther : m' ≠ m) : env.macOf data ≠ some m' :=
  fun hSame => hOther (Option.some.inj (hSame.symm.trans h))

theorem key_ne {m' : String} (hOther : m' ≠ m) : some (m, tenant) ≠ some (m', tenant) :=
  fun hSame => hOther (Prod.mk.inj (Option.some.inj hSame)).1.symm

theorem exists_row {tables : Tables} {d : Device} (h : tables.rows tenant m = [d]) :
    ∃ r, tables.row tenant m = some r := by
  have hRow : d ∈ tables.rows tenant m := by
    rw [h]
    exact List.mem_cons_self
  rw [Tables.rows, List.mem_filter] at hRow
  exact Rule.lookup_isSome_of_mem hRow.1 (of_decide_eq_true hRow.2)

end Events

/-! ## One event more -/

section Step

variable {env : Env} {tenant m : String} {data : Dict PyVal} {events : List (Dict PyVal)}
  {before mid after : Tables} {row : Device} {new : List Property}

theorem WellFormed.stored (h : WellFormed mid) (hStored : Stored env tenant m data mid row new after) :
    WellFormed after := by
  refine ⟨?_, ?_, ?_⟩
  · rw [hStored.devices]
    have hIds : ∀ excluded existing, (deviceRule.merge excluded existing).id = existing.id := fun _ _ => rfl
    rcases Rule.map_upsert hIds row mid.devices with hSame | ⟨-, hMore⟩
    · rw [hSame]
      exact h.ids
    · rw [hMore, ← List.concat_eq_append]
      exact List.Nodup.concat (fun hMem => hStored.fresh (List.mem_append_left _ hMem)) h.ids
  · rw [hStored.devices]
    exact h.devices.upsert row
  · rw [hStored.properties]
    exact h.properties.upsertAll new

namespace Stored

variable (h : Stored env tenant m data mid row new after)

include h

theorem row_self : after.row tenant m = some (deviceRule.upsert row mid.devices).1 := by
  rw [Tables.row, h.devices, Rule.lookup_upsert h.key]

theorem row_other {m' : String} (hOther : m' ≠ m) : after.row tenant m' = mid.row tenant m' := by
  have hKey : deviceRule.key row ≠ some (m', tenant) := by
    rw [h.key]
    exact key_ne hOther
  rw [Tables.row, h.devices, Rule.lookup_upsert_of_ne hKey, Tables.row]

theorem stored_of_some {old : Device} (hOld : mid.row tenant m = some old) :
    (deviceRule.upsert row mid.devices).1 = deviceRule.merge row old := by
  rw [Rule.upsert_fst h.key]
  rw [Tables.row] at hOld
  rw [hOld]
  rfl

theorem stored_of_none (hNone : mid.row tenant m = none) : (deviceRule.upsert row mid.devices).1 = row := by
  rw [Rule.upsert_fst h.key]
  rw [Tables.row] at hNone
  rw [hNone]
  rfl

theorem id_ne (hWell : WellFormed after) {d : Device} (hMem : d ∈ after.devices)
    (hKey : deviceRule.key d ≠ some (m, tenant)) : d.id ≠ (deviceRule.upsert row mid.devices).1.id := by
  intro hSame
  have hStored := h.row_self
  have hEq := List.inj_on_of_nodup_map hWell.ids hMem (Rule.mem_of_lookup hStored) hSame
  exact hKey (hEq ▸ Rule.key_of_lookup hStored)

theorem property_other {id key : String} (hId : id ≠ (deviceRule.upsert row mid.devices).1.id) :
    after.property id "services" key = mid.property id "services" key := by
  have hKeys : ∀ p ∈ new, propertyRule.key p ≠ some (id, "services", key) := by
    intro p hMem hKey
    exact hId ((Prod.mk.inj (Option.some.inj hKey)).1.symm.trans (h.device p hMem))
  rw [Tables.property, h.properties, Rule.lookup_upsertAll_of_ne hKeys, Tables.property]

theorem propertiesOf_other {id : String} (hId : id ≠ (deviceRule.upsert row mid.devices).1.id) :
    after.propertiesOf id = mid.propertiesOf id := by
  rw [Tables.propertiesOf, h.properties, Rule.filter_upsertAll, Tables.propertiesOf]
  intro p hMem r hKey
  have hDevice : r.deviceId = p.deviceId := (Prod.mk.inj (Option.some.inj hKey)).1
  refine decide_eq_false fun hSame => hId ?_
  rw [← hSame, hDevice, h.device p hMem]

theorem property_self (key : String) :
    after.property (deviceRule.upsert row mid.devices).1.id "services" key =
      ((lastGiven (valueAt key) (env.servicesGiven data)).map some).or
        (mid.property (deviceRule.upsert row mid.devices).1.id "services" key) := by
  have hValue : ∀ excluded existing, (propertyRule.merge excluded existing).value = excluded.value :=
    fun _ _ => rfl
  rw [Tables.property, h.properties, Rule.lookup_upsertAll hValue, h.service key]
  rfl

end Stored

theorem Recorded.nil (env : Env) (tenant : String) (before : Tables) :
    Recorded env tenant before [] before := by
  refine ⟨?_, ?_, ?_, ?_, rfl, fun d _ _ => rfl⟩
  · rintro m ⟨data, hMem, -⟩
    cases hMem
  · intro m d c hRow
    rw [hRow]
    rfl
  · intro m d key hRow
    rw [hRow]
    rfl
  · intro m old hOld
    exact ⟨old, hOld, rfl, rfl, rfl, rfl⟩

theorem Recorded.eventsOf_of_none (h : Recorded env tenant before events mid)
    (hNone : mid.row tenant m = none) : env.eventsOf m events = [] := by
  refine List.filter_eq_nil_iff.mpr fun data hMem hSame => ?_
  have hMac : env.macOf data = some m := of_decide_eq_true hSame
  obtain ⟨d, hRows⟩ := h.one_row m ⟨data, hMem, hMac⟩
  obtain ⟨r, hRow⟩ := exists_row hRows
  rw [hRow] at hNone
  cases hNone

theorem Recorded.before_of_none (h : Recorded env tenant before events mid)
    (hNone : mid.row tenant m = none) : before.row tenant m = none := by
  cases hBefore : before.row tenant m with
  | none => rfl
  | some old =>
    obtain ⟨d, hRow, -⟩ := h.kept m old hBefore
    rw [hNone] at hRow
    cases hRow

/-- An event that is stored gives each column and each port its last value. -/
theorem Recorded.step (h : Recorded env tenant before events mid) (hWell : WellFormed mid)
    (hMac : env.macOf data = some m) (hStored : Stored env tenant m data mid row new after) :
    Recorded env tenant before (events ++ [data]) after where
  one_row m' hEvents := by
    have hUnique : deviceRule.Unique after.devices := (hWell.stored hStored).devices
    rcases eq_or_ne m' m with rfl | hOther
    · exact ⟨_, hUnique.filter hStored.row_self⟩
    · obtain ⟨data', hMem, hMac'⟩ := hEvents
      rcases List.mem_append.mp hMem with hMem | hMem
      · obtain ⟨d, hRows⟩ := h.one_row m' ⟨data', hMem, hMac'⟩
        refine ⟨d, ?_⟩
        rw [← hRows, Tables.rows, Tables.rows, hStored.devices, Rule.filter_upsert_of_other]
        intro r hKey
        rw [hKey, hStored.key]
        exact decide_eq_false (key_ne hOther)
      · rw [List.mem_singleton.mp hMem, hMac] at hMac'
        exact absurd (Option.some.inj hMac').symm hOther
  column m' d c hRow := by
    rcases eq_or_ne m' m with rfl | hOther
    · rw [hStored.row_self] at hRow
      cases hRow
      rw [lastColumn_self hMac, Option.or_assoc]
      cases hMid : mid.row tenant m' with
      | some old =>
        rw [hStored.stored_of_some hMid, column_merge, hStored.column, h.column m' old c hMid]
      | none =>
        have hGiven : env.lastColumn c m' events = none := by
          rw [Env.lastColumn, h.eventsOf_of_none hMid]
          rfl
        rw [hStored.stored_of_none hMid, hStored.column, hGiven, h.before_of_none hMid]
        exact (Option.or_none).symm
    · rw [hStored.row_other hOther] at hRow
      rw [lastColumn_other (macOf_ne hMac hOther)]
      exact h.column m' d c hRow
  service m' d key hRow := by
    rcases eq_or_ne m' m with rfl | hOther
    · rw [hStored.row_self] at hRow
      cases hRow
      rw [hStored.property_self, lastService_self hMac, Option.map_or, Option.or_assoc]
      congr 1
      cases hMid : mid.row tenant m' with
      | some old =>
        have hId : (deviceRule.upsert row mid.devices).1.id = old.id := by
          rw [hStored.stored_of_some hMid]
          rfl
        rw [hId]
        exact h.service m' old key hMid
      | none =>
        have hFresh : mid.property row.id "services" key = none := by
          rw [Tables.property, lookup_none_of_fresh hStored.fresh]
          rfl
        have hGiven : env.lastService key m' events = none := by
          rw [Env.lastService, h.eventsOf_of_none hMid]
          rfl
        rw [hStored.stored_of_none hMid, hFresh, hGiven, h.before_of_none hMid]
        rfl
    · have hMem := Rule.mem_of_lookup hRow
      have hKey : deviceRule.key d ≠ some (m, tenant) := by
        rw [Rule.key_of_lookup hRow]
        exact key_ne hOther.symm
      rw [hStored.property_other (hStored.id_ne (hWell.stored hStored) hMem hKey)]
      rw [hStored.row_other hOther] at hRow
      rw [lastService_other (macOf_ne hMac hOther)]
      exact h.service m' d key hRow
  kept m' old hOld := by
    obtain ⟨d, hRow, hSame⟩ := h.kept m' old hOld
    rcases eq_or_ne m' m with rfl | hOther
    · refine ⟨_, hStored.row_self, ?_⟩
      rw [hStored.stored_of_some hRow]
      exact hSame
    · exact ⟨d, (hStored.row_other hOther).trans hRow, hSame⟩
  others := by
    have hBoth : (fun d => !env.reported tenant (events ++ [data]) d) =
        fun d => !env.reported tenant [data] d && !env.reported tenant events d := by
      funext d
      rw [reported_append, Bool.not_or, Bool.and_comm]
    rw [hBoth, ← List.filter_filter, ← List.filter_filter, ← h.others, List.filter_filter,
      List.filter_filter, hStored.devices]
    refine Rule.filter_upsert_of_other fun d hKey => ?_
    rw [reported_self hMac, hKey, hStored.key, decide_eq_true rfl]
    rfl
  otherProperties d hMem hOther := by
    rw [reported_append, Bool.or_eq_false_iff] at hOther
    obtain ⟨hEvents, hData⟩ := hOther
    rw [← h.otherProperties d hMem hEvents]
    have hMid : d ∈ mid.devices.filter fun d => !env.reported tenant events d := by
      rw [h.others]
      exact List.mem_filter.mpr ⟨hMem, by rw [hEvents]; rfl⟩
    have hKey : deviceRule.key d ≠ some (m, tenant) := by
      rw [reported_self hMac] at hData
      exact of_decide_eq_false hData
    have hAfter : d ∈ after.devices := by
      have hKept : d ∈ after.devices.filter fun d => !decide (deviceRule.key d = some (m, tenant)) := by
        rw [hStored.devices, Rule.filter_upsert_of_other]
        · exact List.mem_filter.mpr ⟨List.mem_of_mem_filter hMid, by rw [decide_eq_false hKey]; rfl⟩
        · intro r hSame
          rw [hSame, hStored.key, decide_eq_true rfl]
          rfl
      exact List.mem_of_mem_filter hKept
    exact hStored.propertiesOf_other (hStored.id_ne (hWell.stored hStored) hAfter hKey)

/-- An event without a MAC gives nothing. -/
theorem Recorded.ignored (h : Recorded env tenant before events after) (hMac : env.macOf data = none) :
    Recorded env tenant before (events ++ [data]) after := by
  have hMacs : ∀ m, env.macOf data ≠ some m := fun m hSame => by
    rw [hMac] at hSame
    cases hSame
  have hReported : ∀ d, env.reported tenant (events ++ [data]) d = env.reported tenant events d := by
    intro d
    rw [reported_append, reported_none hMac, Bool.or_false]
  refine ⟨?_, ?_, ?_, h.kept, ?_, ?_⟩
  · rintro m ⟨data', hMem, hMac'⟩
    rcases List.mem_append.mp hMem with hMem | hMem
    · exact h.one_row m ⟨data', hMem, hMac'⟩
    · rw [List.mem_singleton.mp hMem] at hMac'
      exact absurd hMac' (hMacs m)
  · intro m d c hRow
    rw [lastColumn_other (hMacs m)]
    exact h.column m d c hRow
  · intro m d key hRow
    rw [lastService_other (hMacs m)]
    exact h.service m d key hRow
  · simp only [hReported]
    exact h.others
  · intro d hMem hOther
    rw [hReported] at hOther
    exact h.otherProperties d hMem hOther

/-- An event that is given again gives nothing new. -/
theorem Recorded.again (h : Recorded env tenant before (events ++ [data] ++ [data]) after) :
    Recorded env tenant before (events ++ [data]) after := by
  have hReported : ∀ d, env.reported tenant (events ++ [data] ++ [data]) d =
      env.reported tenant (events ++ [data]) d := by
    intro d
    rw [reported_append, reported_append, Bool.or_assoc, Bool.or_self]
  refine ⟨?_, ?_, ?_, h.kept, ?_, ?_⟩
  · rintro m ⟨data', hMem, hMac⟩
    exact h.one_row m ⟨data', List.mem_append_left _ hMem, hMac⟩
  · intro m d c hRow
    rw [h.column m d c hRow]
    congr 1
    rw [Env.lastColumn, eventsOf_append, eventsOf_append, lastGiven_again, ← eventsOf_append]
    rfl
  · intro m d key hRow
    rw [h.service m d key hRow]
    congr 2
    rw [Env.lastService, eventsOf_append, eventsOf_append, List.flatMap_append, List.flatMap_append,
      lastGiven_again, ← List.flatMap_append, ← eventsOf_append]
    rfl
  · simp only [← hReported]
    exact h.others
  · intro d hMem hOther
    rw [← hReported] at hOther
    exact h.otherProperties d hMem hOther

end Step

/-! ## Every sequence of events -/

section Run

variable {env : Env} {tenant m : String} {data : Dict PyVal} {tables : Tables}

/-- A delivery of an accepted event leaves what its statements leave. -/
theorem wrapper_of_accepted (hMac : env.macOf data = some m) (h : Accepted env data) (attempt : Attempt)
    (tables : Tables) : ∃ mac r, env.macaddr mac = some m ∧
      record env attempt.now mac data tables = .ok r ∧ (wrapper env attempt data tables).2 = r.2 := by
  cases hData : data.getD "mac_address" .none with
  | str s =>
    rw [Env.macOf_str hData] at hMac
    obtain ⟨r, hRecord⟩ := (record_ok_iff hData hMac attempt.now tables).mpr h
    have hTruthy : (PyVal.str s).truthy ≠ false := by
      have hNotEmpty : s ≠ "" := by
        rintro rfl
        rw [env.macaddr_empty] at hMac
        cases hMac
      simpa [PyVal.truthy] using hNotEmpty
    refine ⟨env.builtins.lower s, r, (env.macaddr_lower s).trans hMac, hRecord, ?_⟩
    rw [wrapper, handleDeviceDiscovered, hData]
    simp only [if_neg hTruthy, lowerOf, hRecord]
    cases attempt.publish with
    | ok u => rfl
    | error e => rfl
  | _ =>
    rw [Env.macOf, hData] at hMac
    cases hMac

/-- A delivery whose statements do not succeed leaves the tables as they were. -/
theorem wrapper_of_not_ok (attempt : Attempt) (tables : Tables)
    (h : ∀ s, data.getD "mac_address" .none = .str s →
      ¬∃ r, record env attempt.now (env.builtins.lower s) data tables = .ok r) :
    (wrapper env attempt data tables).2 = tables := by
  have hHandler : (handleDeviceDiscovered env attempt data tables).2 = tables := by
    cases hData : data.getD "mac_address" .none with
    | str s =>
      cases hRecord : record env attempt.now (env.builtins.lower s) data tables with
      | error e =>
        rw [handleDeviceDiscovered, hData]
        simp only [lowerOf, hRecord]
        split
        · rfl
        · rfl
      | ok r => exact absurd ⟨r, hRecord⟩ (h s hData)
    | _ =>
      rw [handleDeviceDiscovered, hData]
      simp only [lowerOf]
      split
      · rfl
      · rfl
  rw [wrapper]
  rcases hRun : handleDeviceDiscovered env attempt data tables with ⟨e | u, after⟩
  · rw [hRun] at hHandler
    exact hHandler
  · rw [hRun] at hHandler
    exact hHandler

theorem wrapper_of_refused (hMac : env.macOf data = some m) (h : ¬Accepted env data) (attempt : Attempt)
    (tables : Tables) : (wrapper env attempt data tables).2 = tables := by
  refine wrapper_of_not_ok attempt tables fun s hData hRecord => h ?_
  rw [Env.macOf_str hData] at hMac
  exact (record_ok_iff hData hMac attempt.now tables).mp hRecord

theorem wrapper_of_no_mac (hMac : env.macOf data = none) (attempt : Attempt) (tables : Tables) :
    (wrapper env attempt data tables).2 = tables := by
  refine wrapper_of_not_ok attempt tables fun s hData => ?_
  rintro ⟨r, hRecord⟩
  rw [Env.macOf_str hData] at hMac
  obtain ⟨⟨id, stored⟩, hDevice, -⟩ := Except.ok_of_bind hRecord
  obtain ⟨-, row, hRow, -⟩ := upsertDevice_eq_ok.mp hDevice
  obtain ⟨hRowMac, -⟩ := deviceRow_eq_some hRow
  rw [deviceParams, env.macaddr_lower, hMac] at hRowMac
  cases hRowMac

/-- Tables that meet their constraints, with the default tenant. -/
structure Ready (tenant : String) (tables : Tables) : Prop where
  wellFormed : WellFormed tables
  default : tables.tenants.get? "default" = some tenant

variable {before mid : Tables} {events : List (Dict PyVal)}

theorem Recorded.delivered (h : Recorded env tenant before events mid) (hReady : Ready tenant mid)
    (hAccepted : ∀ m, env.macOf data = some m → Accepted env data) (attempt : Attempt) :
    Recorded env tenant before (events ++ [data]) (wrapper env attempt data mid).2 ∧
      Ready tenant (wrapper env attempt data mid).2 := by
  cases hMac : env.macOf data with
  | none =>
    rw [wrapper_of_no_mac hMac]
    exact ⟨h.ignored hMac, hReady⟩
  | some m =>
    obtain ⟨mac, r, hRead, hRecord, hAfter⟩ := wrapper_of_accepted hMac (hAccepted m hMac) attempt mid
    obtain ⟨row, new, hStored⟩ := stored_of_record hReady.default hRead hRecord
    rw [hAfter]
    refine ⟨h.step hReady.wellFormed hMac hStored, hReady.wellFormed.stored hStored, ?_⟩
    rw [hStored.tenants]
    exact hReady.default

theorem Recorded.redelivered (hAccepted : ∀ m, env.macOf data = some m → Accepted env data)
    (again : List Attempt) (h : Recorded env tenant before (events ++ [data]) mid)
    (hReady : Ready tenant mid) :
    Recorded env tenant before (events ++ [data]) (deliverAll env data again mid) ∧
      Ready tenant (deliverAll env data again mid) := by
  induction again generalizing mid with
  | nil => exact ⟨h, hReady⟩
  | cons attempt again ih =>
    obtain ⟨hNext, hReadyNext⟩ := h.delivered hReady hAccepted attempt
    exact ih hNext.again hReadyNext

/-- After a sequence of accepted events, each delivered any number of times, the tables have the last
values given. -/
theorem process_recorded {rest : List Event} (hAccepted : ∀ e ∈ rest, ∀ m, env.macOf e.data = some m →
    Accepted env e.data) (h : Recorded env tenant before events mid) (hReady : Ready tenant mid) :
    Recorded env tenant before (events ++ rest.map Event.data) (process env rest mid) := by
  induction rest generalizing events mid with
  | nil =>
    rw [List.map_nil, List.append_nil]
    exact h
  | cons e rest ih =>
    rw [List.forall_mem_cons] at hAccepted
    obtain ⟨hFirst, hReadyFirst⟩ := h.delivered hReady hAccepted.1 e.first
    obtain ⟨hNext, hReadyNext⟩ := hFirst.redelivered hAccepted.1 e.again hReadyFirst
    rw [List.map_cons, ← List.singleton_append, ← List.append_assoc]
    exact ih hAccepted.2 hNext hReadyNext

theorem deliverAll_of_refused (hMac : env.macOf data = some m) (h : ¬Accepted env data)
    (attempts : List Attempt) (tables : Tables) : deliverAll env data attempts tables = tables := by
  induction attempts generalizing tables with
  | nil => rfl
  | cons attempt attempts ih =>
    have hFirst := wrapper_of_refused hMac h attempt tables
    rw [deliverAll, List.foldl_cons, hFirst]
    exact ih tables

/-- An event of a new MAC that is refused is not recorded, however often it is delivered. -/
theorem not_recorded_of_refused {e : Event} (hMac : env.macOf e.data = some m)
    (hNew : before.row tenant m = none) (h : ¬Accepted env e.data) : ¬Recorded env tenant before [e.data] (process env [e] before) := by
  intro hRecorded
  have hSame : process env [e] before = before := deliverAll_of_refused hMac h _ before
  rw [hSame] at hRecorded
  obtain ⟨d, hRows⟩ := hRecorded.one_row m ⟨e.data, List.mem_cons_self, hMac⟩
  obtain ⟨r, hRow⟩ := exists_row hRows
  rw [hRow] at hNew
  cases hNew

/-- After every sequence of events that are accepted, each delivered any number of times, there is one
row for each MAC with the last values given, and the rest is as it was; and an event of a new MAC is
recorded exactly if it is accepted. -/
theorem inventory_recorded_iff (hReady : Ready tenant before) :
    (∀ events : List Event, (∀ e ∈ events, ∀ m, env.macOf e.data = some m → Accepted env e.data) →
      Recorded env tenant before (events.map Event.data) (process env events before)) ∧
    ∀ e m, env.macOf e.data = some m → before.row tenant m = none →
      (Recorded env tenant before [e.data] (process env [e] before) ↔ Accepted env e.data) := by
  constructor
  · intro events hAccepted
    exact process_recorded hAccepted (Recorded.nil env tenant before) hReady
  · intro e m hMac hNew
    constructor
    · intro hRecorded
      by_contra hRefused
      exact not_recorded_of_refused hMac hNew hRefused hRecorded
    · intro hAccepted
      have hEach : ∀ e' ∈ [e], ∀ m, env.macOf e'.data = some m → Accepted env e'.data := by
        intro e' hMem m' _
        rw [List.mem_singleton.mp hMem]
        exact hAccepted
      exact process_recorded hEach (Recorded.nil env tenant before) hReady

end Run

/-! ## On plain texts -/

theorem lowerAscii_lowerAscii (s : String) : lowerAscii (lowerAscii s) = lowerAscii s := by
  rw [lowerAscii, lowerAscii, String.toList_ofList, List.map_map]
  congr 1
  exact List.map_congr_left fun c _ => Policy.toLower_toLower c

/-- Six pairs of hexadecimal digits between colons. -/
def isColonForm (cs : List Char) : Bool :=
  cs.length == 17 && cs.zipIdx.all fun p =>
    if p.2 % 3 = 2 then p.1 == ':' else p.1.isDigit || ('a' ≤ p.1 && p.1 ≤ 'f')

/-- MACADDR of an address with colons. -/
def colonMac (s : String) : Option String :=
  if isColonForm (lowerAscii s).toList = true then some (lowerAscii s) else none

/-- A text longer than each of the ids. -/
def longId (ids : List String) : String :=
  String.ofList (List.replicate ((ids.map String.length).sum + 1) '0')

theorem longId_notMem (ids : List String) : longId ids ∉ ids := by
  intro hMem
  have hLe : (longId ids).length ≤ (ids.map String.length).sum :=
    List.single_le_sum (fun _ _ => Nat.zero_le _) _ (List.mem_map_of_mem hMem)
  have hLength : (longId ids).length = (ids.map String.length).sum + 1 := by
    rw [longId, String.length_ofList, List.length_replicate]
  omega

/-- Addresses with colons, any text as INET or JSONB, and a driver that prepares these statements. -/
def plainEnv (prepares : String → Bool) : Env where
  builtins := plainBuiltins
  prepares := prepares
  macaddr := colonMac
  inet := some
  jsonb := some
  genRandomUuid := longId
  macaddr_lower s := by
    have hLower : plainBuiltins.lower s = lowerAscii s := rfl
    rw [hLower, colonMac, colonMac, lowerAscii_lowerAscii]
  macaddr_empty := rfl
  genRandomUuid_notMem := longId_notMem

/-- The tables after the migrations. -/
def noDevices : Tables := ⟨[("default", "t1")], [], [], []⟩

theorem ready_noDevices : Ready "t1" noDevices := ⟨⟨List.nodup_nil, List.nodup_nil, List.nodup_nil⟩, rfl⟩

def foundByArp : Dict PyVal :=
  [("mac_address", .str "AA:BB:CC:DD:EE:FF"), ("ip_address", .str "10.0.0.5"), ("source", .str "arp_scan")]

def foundByNmap : Dict PyVal :=
  [("mac_address", .str "aa:bb:cc:dd:ee:ff"), ("ip_address", .none), ("hostname", .str "printer"),
    ("source", .str "nmap"),
    ("services", .list [.dict [("port", .int 22), ("service", .str "ssh"), ("version", .str "8.9")]])]

def onTime (now : Int) : Attempt := ⟨now, .ok ()⟩

theorem accepted_arp : Accepted (plainEnv fun _ => true) foundByArp where
  prepared := ⟨rfl, rfl, rfl⟩
  column c := by cases c <;> exact ⟨_, rfl⟩
  source := ⟨"arp_scan", rfl, by decide, by decide⟩
  services := ⟨[], rfl, List.forall_mem_nil _⟩
  logged s hData := by
    cases hData
    exact ⟨by decide, rfl⟩

theorem accepted_nmap : Accepted (plainEnv fun _ => true) foundByNmap where
  prepared := ⟨rfl, rfl, rfl⟩
  column c := by cases c <;> exact ⟨_, rfl⟩
  source := ⟨"nmap", rfl, by decide, by decide⟩
  services := by
    refine ⟨_, rfl, List.forall_mem_singleton.mpr ⟨rfl, "port_22", "ssh 8.9", ?_, by decide, by decide⟩⟩
    decide
  logged s hData := by
    cases hData
    exact ⟨by decide, rfl⟩

/-- A device is found twice, and the second event is delivered three times. -/
def printerEvents : List Event :=
  [⟨foundByArp, onTime 0, []⟩, ⟨foundByNmap, onTime 1, [onTime 2, onTime 3]⟩]

theorem inventory_recorded_printer :
    Recorded (plainEnv fun _ => true) "t1" noDevices (printerEvents.map Event.data)
      (process (plainEnv fun _ => true) printerEvents noDevices) := by
  refine (inventory_recorded_iff ready_noDevices).1 printerEvents ?_
  rw [printerEvents, List.forall_mem_cons, List.forall_mem_singleton]
  exact ⟨fun _ _ => accepted_arp, fun _ _ => accepted_nmap⟩

/-! ## The statements as they are -/

def isNameStart (c : Char) : Bool := c.isAlpha || c == '_'

def isNameChar (c : Char) : Bool := c.isAlphanum || c == '_'

/-- `_BAD_PATTERN`: a named parameter with a cast after it, which the driver does not bind. -/
def badPattern : List (Pattern.Item Char) := [
  .one (· == ':'), .one isNameStart, .many isNameChar, .one (· == ':'), .one (· == ':'), .one isNameStart]

def hasBadPattern (sql : String) : Bool :=
  sql.toList.tails.any fun cs => (Pattern.matchItems badPattern cs).isSome

theorem insertEvent_bad : hasBadPattern insertEventSql = true := by
  have hSuffix : ":details::jsonb)".toList <:+ insertEventSql.toList := ⟨_, String.toList_append.symm⟩
  have hMatch : (Pattern.matchItems badPattern ":details::jsonb)".toList).isSome = true := by decide
  exact List.any_eq_true.mpr ⟨_, (List.mem_tails _ _).mpr hSuffix, hMatch⟩

/-- The statements that the driver binds. -/
def castFree (sql : String) : Bool := !hasBadPattern sql

theorem castFree_insertEvent : castFree insertEventSql = false := congrArg not insertEvent_bad

theorem refused_of_castFree {env : Env} (h : ∀ sql, env.prepares sql = true → castFree sql = true)
    (data : Dict PyVal) : ¬Accepted env data := by
  intro hAccepted
  have hPrepares := h _ hAccepted.prepared.2.2
  rw [castFree_insertEvent] at hPrepares
  cases hPrepares

/-- With a driver that does not bind such parameters no event leaves anything. -/
theorem process_of_castFree {env : Env} (h : ∀ sql, env.prepares sql = true → castFree sql = true)
    (events : List Event) (tables : Tables) : process env events tables = tables := by
  have hDeliver : ∀ (data : Dict PyVal) attempts, deliverAll env data attempts tables = tables := by
    intro data attempts
    induction attempts with
    | nil => rfl
    | cons attempt attempts ih =>
      have hFirst : (wrapper env attempt data tables).2 = tables := by
        cases hMac : env.macOf data with
        | none => exact wrapper_of_no_mac hMac attempt tables
        | some m => exact wrapper_of_refused hMac (refused_of_castFree h data) attempt tables
      rw [deliverAll, List.foldl_cons, hFirst]
      exact ih
  induction events with
  | nil => rfl
  | cons e events ih =>
    rw [process, List.foldl_cons, hDeliver]
    exact ih

def onceByArp : Event := ⟨foundByArp, onTime 0, []⟩

/-- A device whose services are null. -/
def nullServices : Event :=
  ⟨[("mac_address", .str "aa:bb:cc:dd:ee:ff"), ("services", .none)], onTime 0, []⟩

/-- The driver does not bind the details of an event; and if it did, services that are null raise. -/
theorem device_not_stored :
    ¬Recorded (plainEnv castFree) "t1" noDevices [onceByArp.data]
      (process (plainEnv castFree) [onceByArp] noDevices) ∧
    ¬Recorded (plainEnv fun _ => true) "t1" noDevices [nullServices.data]
      (process (plainEnv fun _ => true) [nullServices] noDevices) := by
  have hUpper : (plainEnv castFree).macOf onceByArp.data = some "aa:bb:cc:dd:ee:ff" :=
    (by decide : colonMac "AA:BB:CC:DD:EE:FF" = some "aa:bb:cc:dd:ee:ff")
  have hLower : (plainEnv fun _ => true).macOf nullServices.data = some "aa:bb:cc:dd:ee:ff" :=
    (by decide : colonMac "aa:bb:cc:dd:ee:ff" = some "aa:bb:cc:dd:ee:ff")
  constructor
  · exact not_recorded_of_refused hUpper rfl (refused_of_castFree (fun sql hPrepares => hPrepares) _)
  · refine not_recorded_of_refused hLower rfl fun hAccepted => ?_
    obtain ⟨services, hIter, -⟩ := hAccepted.services
    cases hIter

end OpenRadiusWeb.Inventory
