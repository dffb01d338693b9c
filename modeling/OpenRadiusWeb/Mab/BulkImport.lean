import OpenRadiusWeb.Lib.Session
import OpenRadiusWeb.Mab.Records

/-! # Importing devices in bulk

`bulk_import` inserts one item after another in one transaction, each with ON CONFLICT DO
NOTHING. Duplicates are passed over; an item that a column refuses takes every other with it.
-/

namespace OpenRadiusWeb.Mab

open Effects (Eff)

/-- A row of `mab_devices`; the address is its text, and an expiry date an instant. -/
structure Device where
  macAddress : String
  name : Option String
  description : Option String
  deviceType : Option String
  assignedVlanId : Option Int
  enabled : Bool
  expiryDate : Option Int
  tenantId : String
  createdBy : String
  deriving DecidableEq

structure Actor where
  sub : String
  tenantId : String

inductive DbError
  /-- A value that its column does not take. -/
  | dataError
  | inFailedTransaction
  deriving DecidableEq

/-- A text column: no column takes a null character. -/
def textColumn : Option String → Option (Option String)
  | none => some none
  | some s => if '\x00' ∈ s.toList then none else some (some s)

/-- `VARCHAR(n)`: spaces in excess are cut off, any other excess is an error. -/
def varcharColumn (n : Nat) : Option String → Option (Option String)
  | none => some none
  | some s =>
    if '\x00' ∈ s.toList then none
    else if (s.toList.drop n).all fun c => c = ' ' then
      some (some (String.ofList (s.toList.take n)))
    else none

/-- `TIMESTAMPTZ`: the driver encodes an instant only. -/
def timestamptzColumn : Option DateTime → Option (Option Int)
  | none => some none
  | some (.aware instant) => some (some instant)
  | some (.naive _) => none

/-- The row of an INSERT, if its columns take the values. -/
def BulkItem.row? (item : BulkItem) (actor : Actor) : Option Device := do
  let name ← varcharColumn 255 item.name
  let description ← textColumn item.description
  let deviceType ← varcharColumn 100 item.deviceType
  let expiryDate ← timestamptzColumn item.expiryDate
  return ⟨item.macAddress, name, description, deviceType, item.assignedVlanId, true, expiryDate,
    actor.tenantId, actor.sub⟩

/-- `UNIQUE(mac_address, tenant_id)`. -/
def Device.conflicts (a b : Device) : Bool := a.macAddress = b.macAddress && a.tenantId = b.tenantId

/-- The statement of `bulk_insert_mab_device`. -/
def insertStatement (actor : Actor) (item : BulkItem) (table : List Device) :
    Except DbError (Bool × List Device) :=
  match item.row? actor with
  | none => .error .dataError
  | some row => .ok (if table.any row.conflicts then (false, table) else (true, table ++ [row]))

/-- `bulk_insert_mab_device`. -/
def bulkInsertMabDevice (actor : Actor) (item : BulkItem) : Eff (Session (List Device)) DbError Bool :=
  Session.execute .inFailedTransaction (insertStatement actor item)

/-- `log_audit`: a row in a table that nothing here reads. -/
def logAudit : Eff (Session (List Device)) DbError Unit :=
  Session.execute .inFailedTransaction fun table => .ok ((), table)

structure Summary where
  created : Nat
  skipped : Nat
  total : Nat
  deriving DecidableEq

/-- A turn of the loop over the counts of created and skipped rows. -/
def importTurn (actor : Actor) (counts : Nat × Nat) (item : BulkItem) :
    Eff (Session (List Device)) DbError (Nat × Nat) := do
  let inserted ← bulkInsertMabDevice actor item
  return if inserted then (counts.1 + 1, counts.2) else (counts.1, counts.2 + 1)

/-- `bulk_import`. -/
def bulkImport (actor : Actor) (devices : List BulkItem) :
    Eff (Session (List Device)) DbError Summary := do
  let counts ← devices.foldlM (importTurn actor) (0, 0)
  logAudit
  return ⟨counts.1, counts.2, devices.length⟩

inductive ImportError
  | parse (e : ParseError)
  | db (e : DbError)
  deriving DecidableEq

/-- `if items: ... else: ...`. -/
def importItems (actor : Actor) (items : List BulkItem) :
    Eff (Session (List Device)) DbError Summary :=
  if items ≠ [] then bulkImport actor items else pure ⟨0, 0, 0⟩

/-- `import_csv` after the parse. -/
def importParsed (actor : Actor) (parsed : Parsed) :
    Eff (Session (List Device)) DbError (Summary × List RowError) := do
  let summary ← importItems actor parsed.1
  return (summary, parsed.2)

/-- `import_csv`, with its session. -/
def importCsv (py : Python) (actor : Actor) (csvText : String) (table : List Device) :
    Except ImportError (Summary × List RowError) × List Device :=
  match py.parseCsvToBulkItems csvText with
  | .error e => (.error (.parse e), table)
  | .ok parsed =>
    match Session.transact (importParsed actor parsed) table with
    | (.error e, table) => (.error (.db e), table)
    | (.ok r, table) => (.ok r, table)

/-! ## What an import promises -/

/-- The columns take the values. -/
def BulkItem.Fits (item : BulkItem) (actor : Actor) : Prop := (item.row? actor).isSome

instance (item : BulkItem) (actor : Actor) : Decidable (item.Fits actor) :=
  inferInstanceAs (Decidable (_ = true))

/-- The addresses of the tenant's rows. -/
def storedMacs (actor : Actor) (table : List Device) : List String :=
  (table.filter fun d => d.tenantId = actor.tenantId).map Device.macAddress

/-- The items whose address neither is stored nor belongs to an item before them. -/
def firsts (stored : List String) : List BulkItem → List BulkItem → List BulkItem
  | _, [] => []
  | before, item :: rest =>
    (if item.macAddress ∉ stored ∧ item.macAddress ∉ before.map BulkItem.macAddress then [item]
      else []) ++ firsts stored (before ++ [item]) rest

/-- The rows of the valid items that are new. -/
def newRows (actor : Actor) (table : List Device) (items : List BulkItem) : List Device :=
  (firsts (storedMacs actor table) [] (items.filter fun item => item.Fits actor)).filterMap
    fun item => item.row? actor

/-- The import keeps the rows there are, adds the first valid item of each new address and
counts them; to run it again creates nothing. -/
structure Imports (actor : Actor) (items : List BulkItem) (table : List Device) : Prop where
  added : Session.transact (bulkImport actor items) table =
    (.ok ⟨(newRows actor table items).length, items.length - (newRows actor table items).length,
      items.length⟩, table ++ newRows actor table items)
  counted : (newRows actor table items).length ≤ items.length
  again : Session.transact (bulkImport actor items) (table ++ newRows actor table items) =
    (.ok ⟨0, items.length, items.length⟩, table ++ newRows actor table items)

/-- The valid rows of the items are in the table afterwards, whatever else is in the file. -/
def ImportsValid (actor : Actor) (parsed : Parsed) (table : List Device) : Prop :=
  (Session.transact (importParsed actor parsed) table).2 = table ++ newRows actor table parsed.1

/-! ## One item -/

section Insert

variable {actor : Actor} {item : BulkItem} {row : Device} {table : List Device}

theorem row_of_some (h : item.row? actor = some row) :
    row.macAddress = item.macAddress ∧ row.tenantId = actor.tenantId := by
  unfold BulkItem.row? at h
  simp only [Option.bind_eq_bind, Option.bind_eq_some_iff, Option.pure_def, Option.some.injEq] at h
  obtain ⟨name, -, description, -, deviceType, -, expiryDate, -, rfl⟩ := h
  exact ⟨rfl, rfl⟩

theorem any_conflicts (h : item.row? actor = some row) :
    table.any row.conflicts = true ↔ item.macAddress ∈ storedMacs actor table := by
  obtain ⟨hMac, hTenant⟩ := row_of_some h
  simp only [List.any_eq_true, Device.conflicts, Bool.and_eq_true, decide_eq_true_eq, storedMacs,
    List.mem_map, List.mem_filter, hMac, hTenant]
  constructor
  · rintro ⟨d, hd, hSame, hOwner⟩
    exact ⟨d, ⟨hd, hOwner.symm⟩, hSame.symm⟩
  · rintro ⟨d, ⟨hd, hOwner⟩, hSame⟩
    exact ⟨d, hd, hSame.symm, hOwner.symm⟩

theorem storedMacs_append (h : item.row? actor = some row) (mac : String) :
    mac ∈ storedMacs actor (table ++ [row]) ↔ mac ∈ storedMacs actor table ∨ mac = item.macAddress := by
  obtain ⟨hMac, hTenant⟩ := row_of_some h
  simp [storedMacs, hMac, hTenant]

theorem bulkInsert_fits {s : Session (List Device)} (hs : s.aborted = false)
    (h : item.row? actor = some row) :
    bulkInsertMabDevice actor item s =
      if item.macAddress ∈ storedMacs actor s.working then (.ok false, s)
      else (.ok true, { s with working := s.working ++ [row] }) := by
  unfold bulkInsertMabDevice
  by_cases hStored : item.macAddress ∈ storedMacs actor s.working
  · rw [if_pos hStored, @Session.execute_ok _ _ _ _ _ s hs false s.working]
    rw [insertStatement, h]
    simp [(any_conflicts h).mpr hStored]
  · rw [if_neg hStored, @Session.execute_ok _ _ _ _ _ s hs true (s.working ++ [row])]
    rw [insertStatement, h]
    simp only [mt (any_conflicts h).mp hStored, Bool.false_eq_true, if_false]

theorem importTurn_fits {s : Session (List Device)} {counts : Nat × Nat} (hs : s.aborted = false)
    (h : item.row? actor = some row) :
    importTurn actor counts item s =
      if item.macAddress ∈ storedMacs actor s.working then (.ok (counts.1, counts.2 + 1), s)
      else (.ok (counts.1 + 1, counts.2), { s with working := s.working ++ [row] }) := by
  rw [importTurn, Eff.bind_apply, bulkInsert_fits hs h]
  by_cases hStored : item.macAddress ∈ storedMacs actor s.working
  · simp only [if_pos hStored]
    rfl
  · simp only [if_neg hStored]
    rfl

theorem bulkInsert_refused {s : Session (List Device)} (hs : s.aborted = false)
    (h : ¬ item.Fits actor) :
    bulkInsertMabDevice actor item s = (.error .dataError, { s with aborted := true }) := by
  have hNone : item.row? actor = none := by simpa [BulkItem.Fits] using h
  unfold bulkInsertMabDevice
  rw [Session.execute_error hs]
  rw [insertStatement, hNone]

end Insert

/-! ## The loop -/

section Loop

variable {actor : Actor}

/-- The loop adds the first item of each address that is not stored. -/
theorem loop_fits (stored : List String) (items : List BulkItem) (hFits : ∀ item ∈ items, item.Fits actor) :
    ∀ (before : List BulkItem) (counts : Nat × Nat) (s : Session (List Device)), s.aborted = false →
      (∀ mac, mac ∈ storedMacs actor s.working ↔
        mac ∈ stored ∨ mac ∈ before.map BulkItem.macAddress) →
      ∃ skipped, (firsts stored before items).length + skipped = items.length ∧
        items.foldlM (importTurn actor) counts s =
          (.ok (counts.1 + (firsts stored before items).length, counts.2 + skipped),
            { s with working := s.working ++
              (firsts stored before items).filterMap fun item => item.row? actor }) ∧
        ∀ mac, mac ∈ storedMacs actor (s.working ++
            (firsts stored before items).filterMap fun item => item.row? actor) ↔
          mac ∈ stored ∨ mac ∈ (before ++ items).map BulkItem.macAddress := by
  induction items with
  | nil =>
    intro before counts s _ hStored
    refine ⟨0, rfl, ?_, fun mac => ?_⟩
    · simp [firsts]
    · simpa [firsts] using hStored mac
  | cons item items ih =>
    intro before counts s hs hStored
    rw [List.forall_mem_cons] at hFits
    obtain ⟨row, hRow⟩ := Option.isSome_iff_exists.mp hFits.1
    rw [List.foldlM_cons, firsts]
    have hWorking := hStored item.macAddress
    by_cases hNew : item.macAddress ∉ stored ∧ item.macAddress ∉ before.map BulkItem.macAddress
    · have hAbsent : item.macAddress ∉ storedMacs actor s.working := by
        rw [hWorking, not_or]
        exact hNew
      have hTurn := @importTurn_fits _ _ _ _ counts hs hRow
      rw [if_neg hAbsent] at hTurn
      obtain ⟨skipped, hLength, hLoop, hAfter⟩ := ih hFits.2 (before ++ [item]) (counts.1 + 1, counts.2)
        { s with working := s.working ++ [row] } hs fun mac => by
          rw [storedMacs_append hRow, hStored]
          simp [or_assoc]
      refine ⟨skipped, ?_, ?_, fun mac => ?_⟩
      · simp only [if_pos hNew, List.length_append, List.length_cons, List.length_nil]
        omega
      · rw [Eff.bind_of_ok hTurn, hLoop, if_pos hNew, List.length_append, List.filterMap_append]
        simp [hRow, Nat.add_assoc]
      · rw [if_pos hNew, List.filterMap_append]
        simpa [hRow] using hAfter mac
    · have hPresent : item.macAddress ∈ storedMacs actor s.working := by
        rw [hWorking]
        by_contra hNot
        rw [not_or] at hNot
        exact hNew hNot
      have hTurn := @importTurn_fits _ _ _ _ counts hs hRow
      rw [if_pos hPresent] at hTurn
      obtain ⟨skipped, hLength, hLoop, hAfter⟩ := ih hFits.2 (before ++ [item]) (counts.1, counts.2 + 1) s hs
        fun mac => by
          rw [hStored, List.map_append, List.mem_append, ← or_assoc]
          constructor
          · exact .inl
          · rintro (hMem | hMem)
            · exact hMem
            · rw [List.map_singleton, List.mem_singleton] at hMem
              rw [hMem]
              exact hWorking.mp hPresent
      refine ⟨skipped + 1, ?_, ?_, fun mac => ?_⟩
      · rw [if_neg hNew, List.nil_append, List.length_cons, ← hLength]
        omega
      · rw [Eff.bind_of_ok hTurn, hLoop, if_neg hNew, List.nil_append]
        simp [Nat.add_assoc, Nat.add_comm 1]
      · rw [if_neg hNew, List.nil_append]
        simpa using hAfter mac

/-- An item that is refused ends the loop. -/
theorem loop_refused {items : List BulkItem} (h : ∃ item ∈ items, ¬ item.Fits actor) :
    ∀ (counts : Nat × Nat) (s : Session (List Device)), s.aborted = false →
      ∃ e s', items.foldlM (importTurn actor) counts s = (.error e, s') := by
  induction items with
  | nil => simp at h
  | cons item items ih =>
    intro counts s hs
    rw [List.foldlM_cons]
    by_cases hFits : item.Fits actor
    · obtain ⟨row, hRow⟩ := Option.isSome_iff_exists.mp hFits
      have hRest : ∃ item ∈ items, ¬ item.Fits actor := by
        obtain ⟨item', hMem, hNot⟩ := h
        rcases List.mem_cons.mp hMem with rfl | hMem
        · exact absurd hFits hNot
        · exact ⟨item', hMem, hNot⟩
      have hTurn := @importTurn_fits _ _ _ _ counts hs hRow
      by_cases hStored : item.macAddress ∈ storedMacs actor s.working
      · rw [if_pos hStored] at hTurn
        rw [Eff.bind_of_ok hTurn]
        exact ih hRest _ s hs
      · rw [if_neg hStored] at hTurn
        rw [Eff.bind_of_ok hTurn]
        exact ih hRest _ _ hs
    · have hTurn : importTurn actor counts item s =
          (.error .dataError, { s with aborted := true }) := by
        rw [importTurn, Eff.bind_of_error (bulkInsert_refused hs hFits)]
      rw [Eff.bind_of_error hTurn]
      exact ⟨_, _, rfl⟩

end Loop

/-! ## The whole import -/

section Import

variable {actor : Actor} {items : List BulkItem} {table : List Device}

theorem filter_fits (hFits : ∀ item ∈ items, item.Fits actor) :
    (items.filter fun item => item.Fits actor) = items := by
  apply List.filter_eq_self.mpr
  simpa using hFits

theorem firsts_of_stored {stored : List String} (before : List BulkItem)
    (h : ∀ item ∈ items, item.macAddress ∈ stored) : firsts stored before items = [] := by
  induction items generalizing before with
  | nil => rfl
  | cons item items ih =>
    rw [List.forall_mem_cons] at h
    rw [firsts, if_neg fun hNew => hNew.1 h.1, ih _ h.2, List.nil_append]

theorem bulkImport_fits (hFits : ∀ item ∈ items, item.Fits actor) :
    ∃ skipped, (firsts (storedMacs actor table) [] items).length + skipped = items.length ∧
      Session.transact (bulkImport actor items) table =
        (.ok ⟨(firsts (storedMacs actor table) [] items).length, skipped, items.length⟩,
          table ++ newRows actor table items) ∧
      ∀ item ∈ items, item.macAddress ∈ storedMacs actor (table ++ newRows actor table items) := by
  obtain ⟨skipped, hLength, hLoop, hStored⟩ := loop_fits (storedMacs actor table) items hFits []
    (0, 0) (Session.start table) rfl (by simp [Session.start])
  rw [newRows, filter_fits hFits]
  refine ⟨skipped, hLength, ?_, fun item hItem => ?_⟩
  · rw [Session.transact, bulkImport, Eff.bind_of_ok hLoop, Nat.zero_add, Nat.zero_add]
    rfl
  · exact (hStored item.macAddress).mpr (.inr (List.mem_map_of_mem hItem))

theorem firsts_sublist (stored : List String) (before : List BulkItem) :
    (firsts stored before items).Sublist items := by
  induction items generalizing before with
  | nil => exact .slnil
  | cons item items ih =>
    rw [firsts]
    split
    · exact (ih _).cons_cons item
    · exact (ih _).cons item

theorem length_newRows (hFits : ∀ item ∈ items, item.Fits actor) :
    (newRows actor table items).length = (firsts (storedMacs actor table) [] items).length := by
  rw [newRows, filter_fits hFits, List.length_filterMap_eq_countP, List.countP_eq_length]
  intro item hItem
  exact hFits item ((firsts_sublist _ _).subset hItem)

theorem imports_fits (hFits : ∀ item ∈ items, item.Fits actor) : Imports actor items table := by
  obtain ⟨skipped, hLength, hRun, hStored⟩ := @bulkImport_fits _ _ table hFits
  obtain ⟨skipped', hLength', hRun', -⟩ :=
    @bulkImport_fits _ _ (table ++ newRows actor table items) hFits
  have hNone : firsts (storedMacs actor (table ++ newRows actor table items)) [] items = [] :=
    firsts_of_stored [] hStored
  have hSame : newRows actor (table ++ newRows actor table items) items = [] := by
    rw [newRows, filter_fits hFits, hNone]
    rfl
  have hSkipped : skipped = items.length - (newRows actor table items).length := by
    rw [length_newRows hFits]
    omega
  refine ⟨?_, ?_, ?_⟩
  · rw [hRun, length_newRows hFits, hSkipped, length_newRows hFits]
  · rw [length_newRows hFits]
    omega
  · rw [hNone, List.length_nil, Nat.zero_add] at hLength'
    rw [hRun', hNone, hSame, hLength', List.append_nil]
    rfl

theorem bulkImport_refused (h : ∃ item ∈ items, ¬ item.Fits actor) :
    ∃ e, Session.transact (bulkImport actor items) table = (.error e, table) := by
  obtain ⟨e, s', hLoop⟩ := loop_refused h (0, 0) (Session.start table) rfl
  refine ⟨e, ?_⟩
  rw [Session.transact, bulkImport, Eff.bind_of_error hLoop]

theorem imports_iff : Imports actor items table ↔ ∀ item ∈ items, item.Fits actor := by
  constructor
  · intro h
    by_contra hRefused
    simp only [not_forall] at hRefused
    obtain ⟨item, hItem, hNot⟩ := hRefused
    obtain ⟨e, hError⟩ := @bulkImport_refused _ _ table ⟨item, hItem, hNot⟩
    have hAdded := h.added
    rw [hError] at hAdded
    cases hAdded
  · exact imports_fits

theorem transact_importParsed (parsed : Parsed) :
    (Session.transact (importParsed actor parsed) table).2 =
      if parsed.1 = [] then table else (Session.transact (bulkImport actor parsed.1) table).2 := by
  unfold importParsed importItems
  by_cases hNone : parsed.1 = []
  · rw [if_neg (not_not_intro hNone), if_pos hNone]
    rfl
  · rw [if_pos hNone, if_neg hNone, Session.transact, Session.transact, Eff.bind_apply]
    rcases bulkImport actor parsed.1 (Session.start table) with ⟨e | summary, s'⟩
    · rfl
    · rfl

/-- The valid rows of a file get in exactly if no item is refused, or none of them is new. -/
theorem importsValid_iff (parsed : Parsed) :
    ImportsValid actor parsed table ↔
      (∀ item ∈ parsed.1, item.Fits actor) ∨ newRows actor table parsed.1 = [] := by
  rw [ImportsValid, transact_importParsed]
  by_cases hNone : parsed.1 = []
  · simp [hNone, newRows, firsts]
  · rw [if_neg hNone]
    by_cases hFits : ∀ item ∈ parsed.1, item.Fits actor
    · rw [(@imports_fits _ _ table hFits).added]
      exact iff_of_true rfl (.inl hFits)
    · have hRefused : ∃ item ∈ parsed.1, ¬ item.Fits actor := by simpa using hFits
      obtain ⟨e, hError⟩ := @bulkImport_refused _ _ table hRefused
      rw [hError]
      constructor
      · intro hSame
        refine .inr (@List.append_cancel_left _ table _ _ ?_)
        rw [List.append_nil]
        exact hSame.symm
      · rintro (h | hNew)
        · exact absurd h hFits
        · rw [hNew, List.append_nil]

theorem importCsv_table {py : Python} {csvText : String} {errors : List RowError}
    (hParse : py.parseCsvToBulkItems csvText = .ok (items, errors)) :
    (importCsv py actor csvText table).2 = table ++ newRows actor table items ↔
      ImportsValid actor (items, errors) table := by
  unfold importCsv ImportsValid
  rw [hParse]
  dsimp only
  rcases Session.transact (importParsed actor (items, errors)) table with ⟨e | r, t⟩
  · rfl
  · rfl

end Import

/-! ## A null character in a name -/

def admin : Actor := ⟨"admin", "T1"⟩

/-- A valid row, after one whose name no text column takes. -/
def nullNameFile : String := "mac_address,name\naabbccddeeff,a\x00b\n112233445566,lobby\n"

def nullNameItems : List BulkItem :=
  [⟨"aa:bb:cc:dd:ee:ff", some "a\x00b", none, none, none, none⟩,
    ⟨"11:22:33:44:55:66", some "lobby", none, none, none, none⟩]

end OpenRadiusWeb.Mab
