import OpenRadiusWeb.Lib.Sorting
import OpenRadiusWeb.Mab.BulkImport
import OpenRadiusWeb.Radius.Notation
import Mathlib.Data.String.Basic

/-! # Export and import

`export_csv` renders the devices of a tenant, with quotes where the dialect asks for them. What
comes back is stripped, read under the reader's limits and enabled: exactly when no text suffers
from this and no live device is disabled is the round trip one.
-/

namespace OpenRadiusWeb.Mab

/-- `ORDER BY mac_address`: addresses are ordered as their texts. -/
def listMabDevicesForExport (tenantId : String) (table : List Device) : List Device :=
  Sorting.sortBy Device.macAddress (table.filter fun d => d.tenantId = tenantId)

/-- `x or ""`. -/
def orEmpty (text : Option String) : String := text.getD ""

def vlanText : Option Int → String
  | some v => toString v
  | none => ""

/-- `datetime.isoformat` renders an instant. -/
def expiryText (isoformat : Int → String) : Option Int → String
  | some t => isoformat t
  | none => ""

def exportFields (isoformat : Int → String) (d : Device) : List String :=
  [d.macAddress, orEmpty d.name, orEmpty d.description, orEmpty d.deviceType,
    vlanText d.assignedVlanId, expiryText isoformat d.expiryDate]

/-- `export_csv`. -/
def exportCsv (isoformat : Int → String) (tenantId : String) (table : List Device) : String :=
  String.ofList ((csvKnownHeaders ::
    (listMabDevicesForExport tenantId table).map (exportFields isoformat)).flatMap Csv.writeRow)

/-! ## What a round trip promises -/

/-- An item has the fields of a row, null and the empty text being one. -/
structure SameFields (d : Device) (item : BulkItem) : Prop where
  macAddress : item.macAddress = d.macAddress
  name : orEmpty item.name = orEmpty d.name
  description : orEmpty item.description = orEmpty d.description
  deviceType : orEmpty item.deviceType = orEmpty d.deviceType
  assignedVlanId : item.assignedVlanId = d.assignedVlanId
  expiryDate : item.expiryDate = d.expiryDate.map DateTime.aware

def Device.Live (d : Device) (now : Int) : Prop := ∀ t, d.expiryDate = some t → now < t

/-- The tenant has an enabled and live row of the address. -/
def Authorised (now : Int) (tenantId : String) (table : List Device) (mac : String) : Prop :=
  ∃ d ∈ table, d.tenantId = tenantId ∧ d.macAddress = mac ∧ d.enabled = true ∧ d.Live now

def othersOf (tenantId : String) (table : List Device) : List Device :=
  table.filter fun d => d.tenantId ≠ tenantId

structure RoundTrips (py : Python) (isoformat : Int → String) (actor : Actor) (now : Int)
    (table : List Device) : Prop where
  parsed : ∃ items, py.parseCsvToBulkItems (exportCsv isoformat actor.tenantId table) =
      .ok (items, []) ∧
    List.Forall₂ SameFields (listMabDevicesForExport actor.tenantId table) items
  restored : ∀ mac, Authorised now actor.tenantId (importCsv py actor
      (exportCsv isoformat actor.tenantId table) (othersOf actor.tenantId table)).2 mac ↔
    Authorised now actor.tenantId table mac

/-! ## What a table holds -/

/-- The instants of a `datetime`: the years 1 to 9999, in microseconds from 1970 on. -/
def InRange (t : Int) : Prop := -62135596800000000 ≤ t ∧ t ≤ 253402300799999999

/-- A row that the API and the columns let in. -/
structure Stored (d : Device) : Prop where
  mac : ∃ raw, Radius.Accepted raw ∧ d.macAddress = Radius.normalForm raw
  name : varcharColumn 255 d.name = some d.name
  description : textColumn d.description = some d.description
  deviceType : varcharColumn 100 d.deviceType = some d.deviceType
  vlan : ∀ v, d.assignedVlanId = some v → 1 ≤ v ∧ v ≤ 4094
  expiry : ∀ t, d.expiryDate = some t → InRange t

structure StoredTable (table : List Device) : Prop where
  stored : ∀ d ∈ table, Stored d
  unique : table.Pairwise fun a b => a.conflicts b = false

/-- What the interpreter and pydantic are known for. -/
structure PythonLaws (py : Python) (isoformat : Int → String) : Prop where
  lowersMac : Radius.LowersMac py.lower
  lowersHeaders : ∀ h ∈ csvKnownHeaders, py.lower h = h
  parseInt : ∀ n : Int, py.parseInt (toString n) = some n
  parseDatetime : ∀ t, InRange t → py.parseDatetime (isoformat t) = some (.aware t)
  /-- `YYYY-MM-DDTHH:MM:SS.ffffff+HH:MM`. -/
  isoformat : ∀ t, InRange t → isoformat t ≠ "" ∧ (isoformat t).toList.length ≤ 32 ∧
    ∀ c ∈ (isoformat t).toList, c.isDigit ∨ c ∈ "-:+.T".toList

/-- A text that neither `strip` nor the reader changes. -/
def Steady (text : String) : Prop := Text.strip text = text ∧ Csv.Readable fieldSizeLimit text

def Exportable (d : Device) : Prop :=
  Steady (orEmpty d.name) ∧ Steady (orEmpty d.description) ∧ Steady (orEmpty d.deviceType)

/-- The rows of the tenant have steady texts, and the live ones are enabled. -/
structure Portable (now : Int) (tenantId : String) (table : List Device) : Prop where
  exportable : ∀ d ∈ table, d.tenantId = tenantId → Exportable d
  enabled : ∀ d ∈ table, d.tenantId = tenantId → d.Live now → d.enabled = true

/-! ## The texts of a row -/

section Texts

theorem strip_of_no_space {text : String} (h : ∀ c ∈ text.toList, Text.isSpace c = false) :
    Text.strip text = text := by
  have hDrop : ∀ cs : List Char, (∀ c ∈ cs, Text.isSpace c = false) → cs.dropWhile Text.isSpace = cs := by
    intro cs hcs
    cases cs with
    | nil => rfl
    | cons c cs => exact List.dropWhile_cons_of_neg (by simp [hcs c List.mem_cons_self])
  rw [Text.strip, hDrop _ h, hDrop _ (by simpa using h), List.reverse_reverse, String.ofList_toList]

theorem steady_empty : Steady "" := by
  unfold Steady
  decide

/-- The characters of addresses, numbers and dates. -/
def steadyChars : List Char := "0123456789abcdefABCDEF:-.+T".toList

theorem steady_of_chars {text : String} (hLength : text.toList.length ≤ 32)
    (h : ∀ c ∈ text.toList, c ∈ steadyChars) : Steady text := by
  have hSpace : ∀ c ∈ steadyChars, Text.isSpace c = false := by decide
  have hReturn : '\r' ∉ steadyChars := by decide
  refine ⟨strip_of_no_space fun c hc => hSpace c (h c hc), ?_, fun hMem => absurd (h _ hMem) hReturn⟩
  exact hLength.trans (by decide)

theorem mem_digits {c : Char} (h : c.isDigit = true) : c ∈ "0123456789".toList := by
  have hRange : 48 ≤ c.toNat ∧ c.toNat ≤ 57 := by
    simpa [Char.isDigit, Char.le_def, UInt32.le_iff_toNat_le] using h
  have hAll : ∀ n < 58, 48 ≤ n → Char.ofNat n ∈ "0123456789".toList := by decide +kernel
  rw [← Char.ofNat_toNat c]
  exact hAll _ (by omega) hRange.1

theorem steady_mac {d : Device} (h : Stored d) : Steady d.macAddress ∧ d.macAddress ≠ "" := by
  obtain ⟨raw, hRaw, hMac⟩ := h.mac
  have hLength := Radius.length_normalForm hRaw
  rw [hMac]
  constructor
  · have hSub : ∀ c ∈ "0123456789abcdefABCDEF:-.".toList, c ∈ steadyChars := by decide
    refine steady_of_chars (by omega) fun c hc => hSub c ?_
    exact Radius.mem_macChars (Radius.mac_normalForm raw c hc)
  · intro hEmpty
    rw [hEmpty] at hLength
    cases hLength

theorem steady_vlan {d : Device} (h : Stored d) : Steady (vlanText d.assignedVlanId) := by
  unfold vlanText
  cases hVlan : d.assignedVlanId with
  | none => exact steady_empty
  | some v =>
    obtain ⟨hLow, hHigh⟩ := h.vlan v hVlan
    obtain ⟨n, rfl⟩ := Int.eq_ofNat_of_zero_le (by omega : 0 ≤ v)
    have hText : (toString (Int.ofNat n)).toList = Nat.toDigits 10 n := Nat.toList_repr
    have hDigits : ∀ c ∈ "0123456789".toList, c ∈ steadyChars := by decide
    refine steady_of_chars ?_ fun c hc => hDigits c (mem_digits ?_)
    · rw [Int.ofNat_eq_natCast] at hText
      rw [hText, Nat.length_toDigits_le_iff (by decide) (by decide)]
      omega
    · rw [Int.ofNat_eq_natCast] at hText
      rw [hText] at hc
      exact Nat.isDigit_of_mem_toDigits (by decide) (by decide) hc

theorem steady_expiry {py : Python} {isoformat : Int → String} (hPy : PythonLaws py isoformat)
    {d : Device} (h : Stored d) : Steady (expiryText isoformat d.expiryDate) := by
  unfold expiryText
  cases hExpiry : d.expiryDate with
  | none => exact steady_empty
  | some t =>
    obtain ⟨-, hLength, hChars⟩ := hPy.isoformat t (h.expiry t hExpiry)
    refine steady_of_chars hLength fun c hc => ?_
    have hDigits : ∀ c ∈ "0123456789".toList, c ∈ steadyChars := by decide
    have hMarks : ∀ c ∈ "-:+.T".toList, c ∈ steadyChars := by decide
    rcases hChars c hc with hDigit | hMark
    · exact hDigits c (mem_digits hDigit)
    · exact hMarks c hMark

end Texts

/-! ## One row -/

section Row

variable {py : Python} {isoformat : Int → String} {d : Device}

/-- A text, or nothing if it is empty. -/
def nonEmpty (text : String) : Option String := if text = "" then none else some text

theorem orEmpty_nonEmpty (text : String) : orEmpty (nonEmpty text) = text := by
  unfold orEmpty nonEmpty
  split
  · rename_i h
    rw [h]
    rfl
  · rfl

/-- What comes back of a row. -/
def strippedItem (d : Device) : BulkItem :=
  ⟨d.macAddress, nonEmpty (Text.strip (orEmpty d.name)), nonEmpty (Text.strip (orEmpty d.description)),
    nonEmpty (Text.strip (orEmpty d.deviceType)), d.assignedVlanId, d.expiryDate.map .aware⟩

theorem columnNames (hPy : PythonLaws py isoformat) :
    csvKnownHeaders.map py.columnName = csvKnownHeaders := by
  have hStrip : ∀ h ∈ csvKnownHeaders, Text.strip h = h := by decide
  have hSame : ∀ h ∈ csvKnownHeaders, py.columnName h = id h := by
    intro h hMem
    rw [Python.columnName, hStrip h hMem]
    exact hPy.lowersHeaders h hMem
  rw [List.map_congr_left hSame, List.map_id]

theorem nodup_headers : csvKnownHeaders.Nodup := by decide

theorem rowOf_export (hPy : PythonLaws py isoformat) (fields : List String)
    (hLength : fields.length = csvKnownHeaders.length) :
    rowOf py csvKnownHeaders fields = csvKnownHeaders.zip (fields.map Text.strip) := by
  have hNames := columnNames hPy
  rw [rowOf_of_nodup (by rw [hNames]; exact nodup_headers), hLength, List.drop_length, List.map_nil,
    List.append_nil]
  conv_rhs => rw [← hNames]
  rw [List.zip_map]
  rfl

theorem get?_clean {values : List String} (hLength : values.length = csvKnownHeaders.length) {k : String}
    (hk : k ∈ csvKnownHeaders) :
    Dict.get? (clean (csvKnownHeaders.zip values)) k =
      (Dict.get? (csvKnownHeaders.zip values) k).bind nonEmpty := by
  have hKeys : Dict.keys (csvKnownHeaders.zip values) = csvKnownHeaders :=
    List.map_fst_zip (Nat.le_of_eq hLength.symm)
  rw [clean, Dict.get?_filter (by rw [hKeys]; exact nodup_headers)]
  cases Dict.get? (csvKnownHeaders.zip values) k with
  | none => rfl
  | some v =>
    by_cases hEmpty : v = "" <;> simp [hEmpty, nonEmpty, hk, Option.filter]

theorem get?_zip (mac name description deviceType vlan expiry : String) :
    let row : Dict String := csvKnownHeaders.zip [mac, name, description, deviceType, vlan, expiry]
    row.get? "mac_address" = some mac ∧ row.get? "name" = some name ∧
      row.get? "description" = some description ∧ row.get? "device_type" = some deviceType ∧
      row.get? "assigned_vlan_id" = some vlan ∧ row.get? "expiry_date" = some expiry := by
  simp [csvKnownHeaders, Dict.get?_cons]

theorem toString_ne_empty (v : Int) : toString v ≠ "" := by
  intro hEmpty
  have hDecimal := Text.decimal_toString v
  have hNone : Text.decimal "" = none := by decide
  rw [hEmpty, hNone] at hDecimal
  cases hDecimal

theorem macField_export (hPy : PythonLaws py isoformat) (hStored : Stored d) :
    py.macField (nonEmpty d.macAddress) = some d.macAddress := by
  obtain ⟨-, hSome⟩ := steady_mac hStored
  obtain ⟨raw, hRaw, hMac⟩ := hStored.mac
  rw [nonEmpty, if_neg hSome, Python.macField, Option.bind_some, hMac,
    Radius.gatewayNormalizeMac_eq hPy.lowersMac (Radius.accepted_normalForm hRaw),
    Radius.normalForm_normalForm hRaw]

theorem vlanField_export (hPy : PythonLaws py isoformat) (hStored : Stored d) :
    py.vlanField (nonEmpty (vlanText d.assignedVlanId)) = some d.assignedVlanId := by
  cases hVlan : d.assignedVlanId with
  | none => rfl
  | some v =>
    have hParsed : py.parseInt (toString v) = some v := hPy.parseInt v
    rw [vlanText, nonEmpty, if_neg (toString_ne_empty v), Python.vlanField, hParsed]
    exact if_pos (hStored.vlan v hVlan)

theorem expiryField_export (hPy : PythonLaws py isoformat) (hStored : Stored d) :
    py.expiryField (nonEmpty (expiryText isoformat d.expiryDate)) =
      some (d.expiryDate.map .aware) := by
  cases hExpiry : d.expiryDate with
  | none => rfl
  | some t =>
    have hRange := hStored.expiry t hExpiry
    rw [expiryText, nonEmpty, if_neg (hPy.isoformat t hRange).1, Python.expiryField,
      hPy.parseDatetime t hRange]
    rfl

/-- The values of an exported row after the reader's `strip`. -/
def strippedFields (isoformat : Int → String) (d : Device) : List String :=
  [d.macAddress, Text.strip (orEmpty d.name), Text.strip (orEmpty d.description),
    Text.strip (orEmpty d.deviceType), vlanText d.assignedVlanId, expiryText isoformat d.expiryDate]

theorem rowOf_stored (hPy : PythonLaws py isoformat) (hStored : Stored d) :
    rowOf py csvKnownHeaders (exportFields isoformat d) =
      csvKnownHeaders.zip (strippedFields isoformat d) := by
  have hLength : (exportFields isoformat d).length = csvKnownHeaders.length := by
    simp [exportFields, csvKnownHeaders]
  have hFields : (exportFields isoformat d).map Text.strip = strippedFields isoformat d := by
    simp only [exportFields, strippedFields, List.map_cons, List.map_nil, (steady_mac hStored).1.1,
      (steady_vlan hStored).1, (steady_expiry hPy hStored).1]
  rw [rowOf_export hPy _ hLength, hFields]

/-- What pydantic makes of the row is the item that comes back. -/
theorem bulkItem_export (hPy : PythonLaws py isoformat) (hStored : Stored d) :
    py.bulkItem (clean (rowOf py csvKnownHeaders (exportFields isoformat d))) =
      .ok (strippedItem d) := by
  have hLength : (strippedFields isoformat d).length = csvKnownHeaders.length := by
    simp [strippedFields, csvKnownHeaders]
  have hClean : ∀ k ∈ csvKnownHeaders, _ := fun k hk => get?_clean hLength hk
  obtain ⟨hGetMac, hGetName, hGetDescription, hGetType, hGetVlan, hGetExpiry⟩ :=
    get?_zip d.macAddress (Text.strip (orEmpty d.name)) (Text.strip (orEmpty d.description))
      (Text.strip (orEmpty d.deviceType)) (vlanText d.assignedVlanId)
      (expiryText isoformat d.expiryDate)
  rw [← strippedFields] at hGetMac hGetName hGetDescription hGetType hGetVlan hGetExpiry
  rw [rowOf_stored hPy hStored]
  unfold Python.bulkItem
  rw [hClean "mac_address" (by decide), hClean "name" (by decide), hClean "description" (by decide),
    hClean "device_type" (by decide), hClean "assigned_vlan_id" (by decide),
    hClean "expiry_date" (by decide), hGetMac, hGetName, hGetDescription, hGetType, hGetVlan,
    hGetExpiry]
  simp only [Option.bind_some, macField_export hPy hStored, vlanField_export hPy hStored,
    expiryField_export hPy hStored]
  rfl

end Row

/-! ## The exported text -/

section Exported

variable {py : Python} {isoformat : Int → String} {rows : List Device}

/-- The text of these rows under the header. -/
def csvOf (isoformat : Int → String) (rows : List Device) : String :=
  String.ofList ((csvKnownHeaders :: rows.map (exportFields isoformat)).flatMap Csv.writeRow)

theorem exportCsv_eq (tenantId : String) (table : List Device) :
    exportCsv isoformat tenantId table = csvOf isoformat (listMabDevicesForExport tenantId table) := rfl

theorem length_exportFields (isoformat : Int → String) (d : Device) :
    (exportFields isoformat d).length = csvKnownHeaders.length := by
  simp [exportFields, csvKnownHeaders]

theorem size_rows : ∀ fields ∈ csvKnownHeaders :: rows.map (exportFields isoformat),
    2 ≤ fields.length := by
  rw [List.forall_mem_cons, List.forall_mem_map]
  refine ⟨by decide, fun d _ => ?_⟩
  rw [length_exportFields]
  decide

theorem readable_headers : ∀ f ∈ csvKnownHeaders, Csv.Readable fieldSizeLimit f := by
  decide

theorem hasMac_headers (hPy : PythonLaws py isoformat) : py.HasMacColumn csvKnownHeaders := by
  rw [Python.HasMacColumn, columnNames hPy]
  decide

theorem outcome_export (hPy : PythonLaws py isoformat) {d : Device} (hStored : Stored d) :
    outcome py csvKnownHeaders (exportFields isoformat d) = .ok (strippedItem d) := by
  rw [outcome, bulkItem_export hPy hStored]

theorem not_blank_export (isoformat : Int → String) {d : Device} (hStored : Stored d) :
    ¬ Blank (exportFields isoformat d) := by
  intro hBlank
  obtain ⟨hSteady, hSome⟩ := steady_mac hStored
  exact hSome (hSteady.1.symm.trans (hBlank d.macAddress List.mem_cons_self))

theorem errorsFrom_nil {header : List String} {rest : List Record}
    (h : ∀ r ∈ rest, ∀ n, errorOf py header n r = none) :
    ∀ idx, errorsFrom py header idx rest = [] := by
  induction rest with
  | nil => exact fun _ => rfl
  | cons r rs ih =>
    intro idx
    rw [List.forall_mem_cons] at h
    rw [errorsFrom, h.1]
    simp [ih h.2]

/-- Rows with readable fields come back one by one. -/
theorem parse_readable (hPy : PythonLaws py isoformat) (hStored : ∀ d ∈ rows, Stored d)
    (hReadable : ∀ d ∈ rows, ∀ f ∈ exportFields isoformat d, Csv.Readable fieldSizeLimit f) :
    py.parseCsvToBulkItems (csvOf isoformat rows) = .ok (rows.map strippedItem, []) := by
  obtain ⟨records, hFields, hRead⟩ := @Csv.readFrom_rows fieldSizeLimit
    (csvKnownHeaders :: rows.map (exportFields isoformat)) size_rows
    (by
      rw [List.forall_mem_cons, List.forall_mem_map]
      exact ⟨readable_headers, hReadable⟩) 1
  have hReading : Csv.read fieldSizeLimit (csvOf isoformat rows) = ⟨records, none⟩ := by
    rw [Csv.read, csvOf, String.toList_ofList]
    exact hRead
  cases records with
  | nil => cases hFields
  | cons header rest =>
    obtain ⟨hHeader, hRest⟩ := List.cons.inj hFields
    have hRecord : ∀ r ∈ rest, ∃ d ∈ rows, r.fields = exportFields isoformat d := by
      intro r hr
      have hMem : r.fields ∈ rest.map Csv.Record.fields := List.mem_map_of_mem hr
      rw [hRest] at hMem
      obtain ⟨d, hd, hSame⟩ := List.mem_map.mp hMem
      exact ⟨d, hd, hSame.symm⟩
    have hLengths : ∀ r ∈ rest, r.fields.length = csvKnownHeaders.length := by
      intro r hr
      obtain ⟨d, -, hSame⟩ := hRecord r hr
      rw [hSame, length_exportFields]
    rw [parse_of_fits (by rw [hReading]) (by rw [hHeader]; exact hasMac_headers hPy)
      fun r hr => by rw [hHeader]; exact Nat.le_of_eq (hLengths r hr), hReading, hHeader]
    have hKept : (rest.filter fun r => Kept py csvKnownHeaders r.fields) = rest := by
      apply List.filter_eq_self.mpr
      intro r hr
      obtain ⟨d, hd, hSame⟩ := hRecord r hr
      rw [decide_eq_true_eq, hSame]
      apply kept_of_nodup
      · rw [columnNames hPy]
        exact nodup_headers
      · exact Nat.le_of_eq (length_exportFields isoformat d)
      · exact not_blank_export isoformat (hStored d hd)
    have hItems : rest.filterMap (itemOf py csvKnownHeaders) = rows.map strippedItem := by
      have hMap : rest.filterMap (itemOf py csvKnownHeaders) = (rest.map Csv.Record.fields).filterMap
          fun fields => (outcome py csvKnownHeaders fields).toOption := by
        rw [List.filterMap_map]
        rfl
      rw [hMap, hRest, List.filterMap_map, ← List.filterMap_eq_map]
      apply List.filterMap_congr
      intro d hd
      simp [outcome_export hPy (hStored d hd), Except.toOption]
    have hErrors : ∀ r ∈ rest, ∀ n, errorOf py csvKnownHeaders n r = none := by
      intro r hr n
      obtain ⟨d, hd, hSame⟩ := hRecord r hr
      rw [errorOf, hSame, outcome_export hPy (hStored d hd)]
    rw [hKept, hItems, errorsFrom_nil hErrors]

/-- A field that is not readable makes the import raise. -/
theorem parse_unreadable (hPy : PythonLaws py isoformat) (hStored : ∀ d ∈ rows, Stored d)
    (hBad : ∃ d ∈ rows, ∃ f ∈ exportFields isoformat d, ¬ Csv.Readable fieldSizeLimit f) :
    ∃ e, py.parseCsvToBulkItems (csvOf isoformat rows) = .error e := by
  obtain ⟨line, hHeader⟩ := @Csv.readFrom_writeFields fieldSizeLimit 1
    csvKnownHeaders readable_headers (by decide)
    ((rows.map (exportFields isoformat)).flatMap Csv.writeRow) .startRecord [] 1 false (.inl rfl)
    (.inr (by decide))
  obtain ⟨e, hFails⟩ := @Csv.readFrom_rows_fails fieldSizeLimit
    (rows.map (exportFields isoformat))
    (fun fields hFields => size_rows fields (List.mem_cons_of_mem _ hFields))
    (by
      obtain ⟨d, hd, hField⟩ := hBad
      exact ⟨_, List.mem_map_of_mem hd, hField⟩)
    (by
      intro fields hFields f hLast
      obtain ⟨d, hd, rfl⟩ := List.mem_map.mp hFields
      cases hLast
      exact (steady_expiry hPy (hStored d hd)).2) (line + 1)
  generalize hTail : Csv.readFrom fieldSizeLimit .start (line + 1) (line + 1) false
    ((rows.map (exportFields isoformat)).flatMap Csv.writeRow) = tail at hHeader hFails
  have hReading : Csv.read fieldSizeLimit (csvOf isoformat rows) =
      tail.cons ⟨csvKnownHeaders, 1, line⟩ := by
    rw [Csv.read, csvOf, String.toList_ofList, List.flatMap_cons, Csv.writeRow_eq (by decide)]
    exact hHeader
  have hRecords : (Csv.read fieldSizeLimit (csvOf isoformat rows)).records =
      ⟨csvKnownHeaders, 1, line⟩ :: tail.records := by
    rw [hReading]
    rfl
  have hFailure : (Csv.read fieldSizeLimit (csvOf isoformat rows)).failure = some e := by
    rw [hReading]
    exact hFails
  rw [parse_of_header hRecords, if_pos (hasMac_headers hPy), hFailure]
  cases py.parseRows csvKnownHeaders 2 (Python.dataRecords tail.records) ([], []) with
  | error e => exact ⟨e, rfl⟩
  | ok parsed => exact ⟨.csv e, rfl⟩

theorem readable_fields_iff (hPy : PythonLaws py isoformat) {d : Device} (hStored : Stored d) :
    (∀ f ∈ exportFields isoformat d, Csv.Readable fieldSizeLimit f) ↔
      Csv.Readable fieldSizeLimit (orEmpty d.name) ∧ Csv.Readable fieldSizeLimit (orEmpty d.description) ∧
      Csv.Readable fieldSizeLimit (orEmpty d.deviceType) := by
  have hMac := (steady_mac hStored).1.2
  have hVlan := (steady_vlan hStored).2
  have hExpiry := (steady_expiry hPy hStored).2
  simp only [exportFields, List.forall_mem_cons]
  constructor
  · rintro ⟨-, hName, hDescription, hType, -⟩
    exact ⟨hName, hDescription, hType⟩
  · rintro ⟨hName, hDescription, hType⟩
    exact ⟨hMac, hName, hDescription, hType, hVlan, hExpiry, List.forall_mem_nil _⟩

/-- The item has the fields of its row if `strip` keeps the texts. -/
theorem sameFields_iff (d : Device) : SameFields d (strippedItem d) ↔
    Text.strip (orEmpty d.name) = orEmpty d.name ∧
      Text.strip (orEmpty d.description) = orEmpty d.description ∧
      Text.strip (orEmpty d.deviceType) = orEmpty d.deviceType := by
  constructor
  · intro h
    have hName := h.name
    have hDescription := h.description
    have hType := h.deviceType
    simp only [strippedItem, orEmpty_nonEmpty] at hName hDescription hType
    exact ⟨hName, hDescription, hType⟩
  · rintro ⟨hName, hDescription, hType⟩
    refine ⟨rfl, ?_, ?_, ?_, rfl, rfl⟩
    · rw [strippedItem, orEmpty_nonEmpty, hName]
    · rw [strippedItem, orEmpty_nonEmpty, hDescription]
    · rw [strippedItem, orEmpty_nonEmpty, hType]

theorem exportable_iff (hPy : PythonLaws py isoformat) {d : Device} (hStored : Stored d) :
    Exportable d ↔ (∀ f ∈ exportFields isoformat d, Csv.Readable fieldSizeLimit f) ∧
      SameFields d (strippedItem d) := by
  rw [readable_fields_iff hPy hStored, sameFields_iff, Exportable, Steady, Steady, Steady]
  constructor
  · rintro ⟨⟨hName, hName'⟩, ⟨hDescription, hDescription'⟩, hType, hType'⟩
    exact ⟨⟨hName', hDescription', hType'⟩, hName, hDescription, hType⟩
  · rintro ⟨⟨hName', hDescription', hType'⟩, hName, hDescription, hType⟩
    exact ⟨⟨hName, hName'⟩, ⟨hDescription, hDescription'⟩, hType, hType'⟩

/-- The parse gives the rows back exactly if their texts are steady. -/
theorem parsed_iff (hPy : PythonLaws py isoformat) (hStored : ∀ d ∈ rows, Stored d) :
    (∃ items, py.parseCsvToBulkItems (csvOf isoformat rows) = .ok (items, []) ∧
      List.Forall₂ SameFields rows items) ↔ ∀ d ∈ rows, Exportable d := by
  by_cases hReadable : ∀ d ∈ rows, ∀ f ∈ exportFields isoformat d, Csv.Readable fieldSizeLimit f
  · rw [parse_readable hPy hStored hReadable]
    have hSame : List.Forall₂ SameFields rows (rows.map strippedItem) ↔
        ∀ d ∈ rows, SameFields d (strippedItem d) := by
      rw [List.forall₂_map_right_iff, List.forall₂_same]
    constructor
    · rintro ⟨items, hItems, hFields⟩
      cases hItems
      intro d hd
      exact (exportable_iff hPy (hStored d hd)).mpr ⟨hReadable d hd, hSame.mp hFields d hd⟩
    · intro h
      refine ⟨_, rfl, hSame.mpr fun d hd => ?_⟩
      exact ((exportable_iff hPy (hStored d hd)).mp (h d hd)).2
  · constructor
    · rintro ⟨items, hItems, -⟩
      have hBad : ∃ d ∈ rows, ∃ f ∈ exportFields isoformat d, ¬ Csv.Readable fieldSizeLimit f := by
        simpa using hReadable
      obtain ⟨e, hError⟩ := parse_unreadable hPy hStored hBad
      rw [hError] at hItems
      cases hItems
    · intro h
      exact absurd (fun d hd => ((exportable_iff hPy (hStored d hd)).mp (h d hd)).1) hReadable

end Exported

/-! ## What the import restores -/

section Restored

variable {py : Python} {isoformat : Int → String} {actor : Actor} {now : Int} {table : List Device}

/-- The row that an import makes of an exported one. -/
def importedRow (actor : Actor) (d : Device) : Device :=
  { d with
    name := nonEmpty (orEmpty d.name)
    description := nonEmpty (orEmpty d.description)
    deviceType := nonEmpty (orEmpty d.deviceType)
    enabled := true
    tenantId := actor.tenantId
    createdBy := actor.sub }

theorem nonEmpty_orEmpty {column : Option String → Option (Option String)} {text : Option String}
    (hNone : column none = some none) (h : column text = some text) :
    column (nonEmpty (orEmpty text)) = some (nonEmpty (orEmpty text)) := by
  unfold orEmpty nonEmpty
  split
  · exact hNone
  · cases text with
    | none => exact absurd rfl ‹_›
    | some t => exact h

theorem row_strippedItem {d : Device} (hStored : Stored d) (hSteady : Exportable d) :
    (strippedItem d).row? actor = some (importedRow actor d) := by
  obtain ⟨⟨hName, -⟩, ⟨hDescription, -⟩, hType, -⟩ := hSteady
  have hExpiry : timestamptzColumn (d.expiryDate.map .aware) = some d.expiryDate := by
    cases d.expiryDate <;> rfl
  unfold BulkItem.row? strippedItem
  simp only [hName, hDescription, hType, hExpiry,
    @nonEmpty_orEmpty (varcharColumn 255) _ rfl hStored.name,
    @nonEmpty_orEmpty textColumn _ rfl hStored.description,
    @nonEmpty_orEmpty (varcharColumn 100) _ rfl hStored.deviceType]
  rfl

theorem firsts_of_nodup {stored : List String} {items : List BulkItem} (before : List BulkItem)
    (hStored : ∀ item ∈ items, item.macAddress ∉ stored)
    (hNodup : ((before ++ items).map BulkItem.macAddress).Nodup) :
    firsts stored before items = items := by
  induction items generalizing before with
  | nil => rfl
  | cons item items ih =>
    rw [List.forall_mem_cons] at hStored
    have hNew : item.macAddress ∉ before.map BulkItem.macAddress := by
      rw [List.map_append, List.nodup_append] at hNodup
      exact fun hMem => hNodup.2.2 _ hMem _ List.mem_cons_self rfl
    rw [firsts, if_pos ⟨hStored.1, hNew⟩, ih (before ++ [item]) hStored.2 (by simpa using hNodup)]
    rfl

theorem mem_export {tenantId : String} {d : Device} :
    d ∈ listMabDevicesForExport tenantId table ↔ d ∈ table ∧ d.tenantId = tenantId := by
  rw [listMabDevicesForExport, Sorting.mem_sortBy, List.mem_filter, decide_eq_true_eq]

theorem nodup_macs (hTable : StoredTable table) (tenantId : String) :
    ((listMabDevicesForExport tenantId table).map Device.macAddress).Nodup := by
  have hPerm : ((listMabDevicesForExport tenantId table).map Device.macAddress).Perm
      ((table.filter fun d => d.tenantId = tenantId).map Device.macAddress) :=
    (Sorting.sortBy_perm _ _).map _
  rw [hPerm.nodup_iff]
  apply List.pairwise_map.mpr
  refine (hTable.unique.filter _).imp_of_mem fun {a b} ha hb hConflict hMac => ?_
  have hA := List.of_mem_filter ha
  have hB := List.of_mem_filter hb
  rw [decide_eq_true_eq] at hA hB
  simp [Device.conflicts, hMac, hA, hB] at hConflict

/-- The table after an import of steady rows. -/
theorem import_table (hPy : PythonLaws py isoformat) (hTable : StoredTable table)
    (hSteady : ∀ d ∈ listMabDevicesForExport actor.tenantId table, Exportable d) :
    (importCsv py actor (exportCsv isoformat actor.tenantId table) (othersOf actor.tenantId table)).2 =
      othersOf actor.tenantId table ++
        (listMabDevicesForExport actor.tenantId table).map (importedRow actor) := by
  generalize hRows : listMabDevicesForExport actor.tenantId table = rows at hSteady ⊢
  have hStored : ∀ d ∈ rows, Stored d := by
    intro d hd
    rw [← hRows, mem_export] at hd
    exact hTable.stored d hd.1
  have hParse : py.parseCsvToBulkItems (exportCsv isoformat actor.tenantId table) =
      .ok (rows.map strippedItem, []) := by
    rw [exportCsv_eq, hRows]
    exact parse_readable hPy hStored fun d hd =>
      ((exportable_iff hPy (hStored d hd)).mp (hSteady d hd)).1
  have hRow : ∀ d ∈ rows, (strippedItem d).row? actor = some (importedRow actor d) :=
    fun d hd => row_strippedItem (hStored d hd) (hSteady d hd)
  have hFits : ∀ item ∈ rows.map strippedItem, item.Fits actor := by
    rw [List.forall_mem_map]
    intro d hd
    rw [BulkItem.Fits, hRow d hd]
    rfl
  have hNone : storedMacs actor (othersOf actor.tenantId table) = [] := by
    rw [storedMacs, othersOf, List.filter_filter, List.map_eq_nil_iff, List.filter_eq_nil_iff]
    simp
  have hMacs : (rows.map strippedItem).map BulkItem.macAddress = rows.map Device.macAddress := by
    rw [List.map_map]
    rfl
  rw [(importCsv_table hParse).mpr ((importsValid_iff _).mpr (.inl hFits)), newRows, filter_fits hFits,
    hNone, firsts_of_nodup [] (fun _ _ => List.not_mem_nil), List.filterMap_map]
  · congr 1
    rw [← List.filterMap_eq_map]
    apply List.filterMap_congr
    intro d hd
    exact hRow d hd
  · rw [List.nil_append, hMacs, ← hRows]
    exact nodup_macs hTable actor.tenantId

theorem authorised_import (mac : String) :
    Authorised now actor.tenantId (othersOf actor.tenantId table ++
        (listMabDevicesForExport actor.tenantId table).map (importedRow actor)) mac ↔
      ∃ d ∈ listMabDevicesForExport actor.tenantId table, d.macAddress = mac ∧ d.Live now := by
  constructor
  · rintro ⟨d, hd, hTenant, hMac, -, hLive⟩
    rcases List.mem_append.mp hd with hd | hd
    · have hOther := List.of_mem_filter hd
      simp [hTenant] at hOther
    · obtain ⟨d', hd', rfl⟩ := List.mem_map.mp hd
      exact ⟨d', hd', hMac, hLive⟩
  · rintro ⟨d, hd, hMac, hLive⟩
    exact ⟨importedRow actor d, List.mem_append_right _ (List.mem_map_of_mem hd), rfl, hMac, rfl, hLive⟩

/-- The authorised addresses come back exactly if the live rows were enabled. -/
theorem restored_iff (hTable : StoredTable table) :
    (∀ mac, (∃ d ∈ listMabDevicesForExport actor.tenantId table, d.macAddress = mac ∧ d.Live now) ↔
        Authorised now actor.tenantId table mac) ↔
      ∀ d ∈ table, d.tenantId = actor.tenantId → d.Live now → d.enabled = true := by
  constructor
  · intro h d hd hTenant hLive
    have hMem := mem_export.mpr ⟨hd, hTenant⟩
    obtain ⟨d', hd', hTenant', hMac, hEnabled, -⟩ := (h d.macAddress).mp ⟨d, hMem, rfl, hLive⟩
    have hMem' := mem_export.mpr ⟨hd', hTenant'⟩
    have hSame : d' = d :=
      List.inj_on_of_nodup_map (nodup_macs hTable actor.tenantId) hMem' hMem hMac
    rwa [hSame] at hEnabled
  · intro h mac
    constructor
    · rintro ⟨d, hMem, hMac, hLive⟩
      obtain ⟨hd, hTenant⟩ := mem_export.mp hMem
      exact ⟨d, hd, hTenant, hMac, h d hd hTenant hLive, hLive⟩
    · rintro ⟨d, hd, hTenant, hMac, -, hLive⟩
      exact ⟨d, mem_export.mpr ⟨hd, hTenant⟩, hMac, hLive⟩

/-- The round trip is one exactly for tables with steady texts whose live rows are enabled. -/
theorem round_trips_iff (hPy : PythonLaws py isoformat) (hTable : StoredTable table) :
    RoundTrips py isoformat actor now table ↔ Portable now actor.tenantId table := by
  have hStored : ∀ d ∈ listMabDevicesForExport actor.tenantId table, Stored d := by
    intro d hd
    exact hTable.stored d (mem_export.mp hd).1
  have hSteady : (∀ d ∈ listMabDevicesForExport actor.tenantId table, Exportable d) ↔
      ∀ d ∈ table, d.tenantId = actor.tenantId → Exportable d :=
    ⟨fun h d hd hTenant => h d (mem_export.mpr ⟨hd, hTenant⟩), fun h d hd =>
      h d (mem_export.mp hd).1 (mem_export.mp hd).2⟩
  constructor
  · rintro ⟨hParsed, hRestored⟩
    have hExport := (parsed_iff hPy hStored).mp hParsed
    simp only [import_table hPy hTable hExport, authorised_import] at hRestored
    exact ⟨hSteady.mp hExport, (restored_iff hTable).mp hRestored⟩
  · rintro ⟨hExportable, hEnabled⟩
    have hExport := hSteady.mpr hExportable
    refine ⟨(parsed_iff hPy hStored).mpr hExport, ?_⟩
    simp only [import_table hPy hTable hExport, authorised_import]
    exact (restored_iff hTable).mpr hEnabled

end Restored

/-! ## A printer, a padded name, a disabled device -/

section Examples

/-- Lowering as in ASCII; dates are written as numbers. -/
def decimalPython : Python where
  lower := Policy.lowerAscii
  isdigit s := s ≠ "" && s.toList.all Char.isDigit
  int := Text.decimal
  parseInt := Text.decimal
  parseDatetime s := (Text.decimal s).map .aware
  validationText _ := ""

theorem digits_of_nat {n : Nat} (h : n < 10 ^ 18) :
    (Nat.toDigits 10 n).length ≤ 18 ∧ ∀ c ∈ Nat.toDigits 10 n, c.isDigit = true :=
  ⟨(Nat.length_toDigits_le_iff (by decide) (by decide)).mpr h,
    fun _ hc => Nat.isDigit_of_mem_toDigits (by decide) (by decide) hc⟩

theorem laws_decimalPython : PythonLaws decimalPython toString where
  lowersMac := Radius.lowersMac_lowerAscii
  lowersHeaders := by decide
  parseInt := Text.decimal_toString
  parseDatetime t _ := by
    change (Text.decimal (toString t)).map DateTime.aware = _
    rw [Text.decimal_toString]
    rfl
  isoformat t ht := by
    rw [InRange] at ht
    refine ⟨toString_ne_empty t, ?_⟩
    cases t with
    | ofNat n =>
      rw [Int.ofNat_eq_natCast] at ht
      have hText : (toString (Int.ofNat n)).toList = Nat.toDigits 10 n := Nat.toList_repr
      obtain ⟨hLength, hDigits⟩ := digits_of_nat (n := n) (by omega)
      rw [hText]
      exact ⟨by omega, fun c hc => .inl (hDigits c hc)⟩
    | negSucc n =>
      have hText : (toString (Int.negSucc n)).toList = '-' :: Nat.toDigits 10 (n + 1) := by
        change ("-" ++ (n + 1).repr).toList = _
        simp [Nat.toList_repr]
      obtain ⟨hLength, hDigits⟩ := digits_of_nat (n := n + 1) (by omega)
      rw [hText]
      refine ⟨by rw [List.length_cons]; omega, fun c hc => ?_⟩
      rcases List.mem_cons.mp hc with rfl | hc
      · exact .inr (by decide)
      · exact .inl (hDigits c hc)

/-- A row of the tenant with the given name. -/
def namedDevice (name : String) (enabled : Bool) : Device where
  macAddress := "aa:bb:cc:dd:ee:01"
  name := some name
  description := some "Brother, \"HL\"\nlobby"
  deviceType := none
  assignedVlanId := some 30
  enabled := enabled
  expiryDate := none
  tenantId := "T1"
  createdBy := "admin"

theorem storedTable_named {name : String} {enabled : Bool}
    (hName : varcharColumn 255 (some name) = some (some name)) :
    StoredTable [namedDevice name enabled] where
  stored d hd := by
    rw [List.mem_singleton] at hd
    subst hd
    have hMac : "aa:bb:cc:dd:ee:01" = Radius.normalForm "aabbccddee01" := by decide +kernel
    have hDescription : textColumn (some "Brother, \"HL\"\nlobby") =
        some (some "Brother, \"HL\"\nlobby") := by decide
    refine ⟨⟨"aabbccddee01", by decide, hMac⟩, hName, hDescription, rfl, ?_, nofun⟩
    intro v hv
    cases hv
    decide
  unique := List.pairwise_singleton _ _

theorem printer_round_trips :
    RoundTrips decimalPython toString admin 0 [namedDevice "Printer" true] := by
  refine (round_trips_iff laws_decimalPython (storedTable_named (by decide))).mpr ⟨?_, ?_⟩
  · intro d hd _
    rw [List.mem_singleton] at hd
    subst hd
    unfold Exportable Steady
    decide
  · intro d hd _ _
    rw [List.mem_singleton] at hd
    subst hd
    rfl

/-- A space before the name is lost, and a disabled device comes back enabled. -/
theorem padded_and_disabled :
    (StoredTable [namedDevice " Printer" true] ∧
      ¬ RoundTrips decimalPython toString admin 0 [namedDevice " Printer" true]) ∧
    (StoredTable [namedDevice "Printer" false] ∧
      ¬ RoundTrips decimalPython toString admin 0 [namedDevice "Printer" false]) := by
  have hPadded : StoredTable [namedDevice " Printer" true] := storedTable_named (by decide)
  have hDisabled : StoredTable [namedDevice "Printer" false] := storedTable_named (by decide)
  refine ⟨⟨hPadded, fun h => ?_⟩, hDisabled, fun h => ?_⟩
  · have hStored : ∀ d ∈ listMabDevicesForExport admin.tenantId [namedDevice " Printer" true],
        Stored d := fun d hd => hPadded.stored d (mem_export.mp hd).1
    have hSteady := (parsed_iff laws_decimalPython hStored).mp h.parsed _
      (mem_export.mpr ⟨List.mem_singleton_self _, rfl⟩)
    have hStrip := hSteady.1.1
    revert hStrip
    decide
  · have hStored : ∀ d ∈ listMabDevicesForExport admin.tenantId [namedDevice "Printer" false],
        Stored d := fun d hd => hDisabled.stored d (mem_export.mp hd).1
    have hSteady := (parsed_iff laws_decimalPython hStored).mp h.parsed
    have hRestored := h.restored
    simp only [import_table laws_decimalPython hDisabled hSteady, authorised_import] at hRestored
    have hEnabled := (restored_iff hDisabled).mp hRestored _ (List.mem_singleton_self _) rfl nofun
    cases hEnabled

end Examples

end OpenRadiusWeb.Mab
