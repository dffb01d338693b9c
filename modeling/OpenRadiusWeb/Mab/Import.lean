import OpenRadiusWeb.Lib.Csv
import OpenRadiusWeb.Radius.Request

/-! # Parsing a CSV import

`_parse_csv_to_bulk_items`: the first record names the columns, every later one becomes a bulk
item or an error with a row number.
-/

namespace OpenRadiusWeb.Mab

/-- A `datetime`: with a time zone it is an instant. -/
inductive DateTime
  | aware (instant : Int)
  | naive (wall : Int)
  deriving DecidableEq

/-- `MabDeviceBulkItem`. -/
structure BulkItem where
  macAddress : String
  name : Option String
  description : Option String
  deviceType : Option String
  assignedVlanId : Option Int
  expiryDate : Option DateTime
  deriving DecidableEq

/-- The interpreter, and what pydantic makes of texts. -/
structure Python extends Radius.Python where
  /-- A text for a field of type `int`. -/
  parseInt : String → Option Int
  /-- A text for a field of type `datetime`. -/
  parseDatetime : String → Option DateTime
  /-- `str(exc)` of the refusal of these keywords. -/
  validationText : Dict String → String

/-- What `DictReader` returns for a record: the values by column, and what is in excess. -/
structure RawRow where
  values : Dict (Option String)
  rest : List String

structure RowError where
  row : Nat
  raw : String
  error : String
  deriving DecidableEq

inductive ParseError
  | csv (e : Csv.ReadError)
  /-- `'list' object has no attribute 'strip'`. -/
  | attributeError
  deriving DecidableEq

/-- `csv.field_size_limit()`. -/
def fieldSizeLimit : Nat := 131072

def csvKnownHeaders : List String :=
  ["mac_address", "name", "description", "device_type", "assigned_vlan_id", "expiry_date"]

/-- `DictReader.__next__`. -/
def rawRow (fieldnames fields : List String) : RawRow where
  values := (fieldnames.drop fields.length).foldl (fun d k => d.set k none)
    ((fieldnames.zip fields).foldl (fun d kv => d.set kv.1 (some kv.2)) [])
  rest := fields.drop fieldnames.length

/-- Known columns that are not blank. -/
def clean (row : Dict String) : Dict String :=
  row.filter fun kv => kv.1 ∈ csvKnownHeaders ∧ kv.2 ≠ ""

namespace Python

variable (py : Python)

/-- `h.strip().lower()`. -/
def columnName (h : String) : String := py.lower (Text.strip h)

/-- The row with lowered names and stripped values. -/
def strippedRow (values : Dict (Option String)) : Dict String :=
  values.foldl (fun row kv => row.set (py.columnName kv.1) (Text.strip (kv.2.getD ""))) []

def macField (text : Option String) : Option String :=
  text.bind (Radius.gatewayNormalizeMac py.toPython)

/-- `Optional[int] = Field(None, ge=1, le=4094)`. -/
def vlanField : Option String → Option (Option Int)
  | none => some none
  | some text => do
    let n ← py.parseInt text
    if 1 ≤ n ∧ n ≤ 4094 then some (some n) else none

/-- `Optional[datetime] = None`. -/
def expiryField : Option String → Option (Option DateTime)
  | none => some none
  | some text => (py.parseDatetime text).map some

/-- `MabDeviceBulkItem(**clean)`. -/
def bulkItem (clean : Dict String) : Except String BulkItem :=
  match py.macField (clean.get? "mac_address"), py.vlanField (clean.get? "assigned_vlan_id"),
    py.expiryField (clean.get? "expiry_date") with
  | some mac, some vlan, some expiry =>
    .ok ⟨mac, clean.get? "name", clean.get? "description", clean.get? "device_type", vlan, expiry⟩
  | _, _, _ => .error (py.validationText clean)

end Python

/-- `str(v)` of a value. -/
def valueText : Option String → String
  | none => "None"
  | some v => v

def rawText (values : Dict (Option String)) : String :=
  ",".intercalate (values.map fun kv => valueText kv.2)

abbrev Parsed : Type := List BulkItem × List RowError

namespace Python

variable (py : Python)

/-- The body of the loop. -/
def parseRow (fieldnames : List String) (idx : Nat) (fields : List String) (parsed : Parsed) :
    Except ParseError Parsed :=
  let raw := rawRow fieldnames fields
  if raw.rest ≠ [] then .error .attributeError
  else
    let row := py.strippedRow raw.values
    if row.all fun kv => kv.2 = "" then .ok parsed
    else
      match py.bulkItem (clean row) with
      | .ok item => .ok (parsed.1 ++ [item], parsed.2)
      | .error text => .ok (parsed.1, parsed.2 ++ [⟨idx, rawText raw.values, text⟩])

/-- `for idx, raw_row in enumerate(reader, start)`. -/
def parseRows (fieldnames : List String) : Nat → List Csv.Record → Parsed → Except ParseError Parsed
  | _, [], parsed => .ok parsed
  | idx, r :: rs, parsed => do
    let parsed ← py.parseRow fieldnames idx r.fields parsed
    parseRows fieldnames (idx + 1) rs parsed

def noHeaderRow : RowError := ⟨0, "", "CSV has no header row"⟩

def missingColumn (fieldnames : List String) : RowError :=
  ⟨0, ",".intercalate fieldnames, "missing required column(s): ['mac_address']"⟩

def HasMacColumn (fieldnames : List String) : Prop := "mac_address" ∈ fieldnames.map py.columnName

instance (fieldnames : List String) : Decidable (py.HasMacColumn fieldnames) :=
  inferInstanceAs (Decidable (_ ∈ _))

/-- The records that `DictReader` returns: it passes over empty lines. -/
def dataRecords (rest : List Csv.Record) : List Csv.Record := rest.filter fun r => r.fields ≠ []

/-- `_parse_csv_to_bulk_items`. -/
def parseCsvToBulkItems (csvText : String) : Except ParseError Parsed :=
  let reading := Csv.read fieldSizeLimit csvText
  match reading.records, reading.failure with
  | [], some e => .error (.csv e)
  | [], none => .ok ([], [noHeaderRow])
  | header :: rest, failure =>
    if py.HasMacColumn header.fields then do
      let parsed ← py.parseRows header.fields 2 (dataRecords rest) ([], [])
      match failure with
      | some e => .error (.csv e)
      | none => .ok parsed
    else .ok ([], [missingColumn header.fields])

end Python

end OpenRadiusWeb.Mab
