import OpenRadiusWeb.Lib.Effects
import OpenRadiusWeb.Lib.Paths
import OpenRadiusWeb.ConfigManager.Rows
import Mathlib.Logic.Function.Basic

/-! # Files and the `freeradius_config` table

The two stores a run changes: the bytes on disk and the table that records what was
last applied, one row for each type and name under the default tenant. How each write,
upsert and lookup turns out is an input; file modes and timestamps are not kept.
-/

namespace OpenRadiusWeb.ConfigManager

open Effects Paths

/-- The statuses of `freeradius_config` and of a result entry. -/
inductive Status
  | applied | unchanged | error | ok | skipped
  deriving DecidableEq, Repr

/-- A row of `freeradius_config`. -/
structure ConfigRow where
  configContent : String
  configHash : String
  lastAppliedHash : Option String
  status : Status
  errorMessage : Option String

abbrev Disk : Type := Path → Option ByteArray

structure World where
  disk : Disk
  freeradiusConfig : String × String → Option ConfigRow

/-! ## Writing a file -/

/-- How one `_write_file` turns out. -/
inductive WriteOutcome
  | completes
  | openFails (e : Exc)
  | writeFails (kept : ByteArray) (e : Exc)
  | chmodFails (e : Exc)

namespace WriteOutcome

/-- What the file holds afterwards. -/
def leaves (o : WriteOutcome) (before : Option ByteArray) (content : ByteArray) :
    Option ByteArray :=
  match o with
  | .completes => some content
  | .openFails _ => before
  | .writeFails kept _ => some kept
  | .chmodFails _ => some content

def raised : WriteOutcome → Option Exc
  | .completes => none
  | .openFails e => some e
  | .writeFails _ e => some e
  | .chmodFails e => some e

theorem leaves_of_raised_none {o : WriteOutcome} (h : o.raised = none) (before : Option ByteArray)
    (content : ByteArray) : o.leaves before content = some content := by
  cases o <;> simp_all [raised, leaves]

end WriteOutcome

/-- The disk after a write of `path`. -/
def Disk.written (d : Disk) (path : String) (o : WriteOutcome) (content : String) : Disk :=
  Function.update d (resolve path) (o.leaves (d (resolve path)) content.toUTF8)

/-- What a statement that raises `e`, or nothing, returns. -/
def outcomeOf : Option Exc → Except Exc Unit
  | some e => .error e
  | none => .ok ()

def raiseIf (e : Option Exc) : Eff World Exc Unit := Eff.lift (outcomeOf e)

/-- `_write_file`. -/
def writeFile (o : WriteOutcome) (path content : String) : Eff World Exc Unit := do
  Eff.modify fun w => { w with disk := w.disk.written path o content }
  raiseIf o.raised

/-! ## The record of what was applied -/

/-- How one `_save_config_state` turns out: whether the upsert is committed, and what the
function raises; an error inside the transaction is printed and not raised. -/
structure SaveOutcome where
  commits : Bool
  raises : Option Exc

/-- How one `_get_stored_hash` turns out. -/
inductive ReadOutcome
  | answers
  | swallowed
  | raises (e : Exc)

def ReadOutcome.raised : ReadOutcome → Option Exc
  | .raises e => some e
  | _ => none

/-- `last_applied_hash` of a row. -/
def World.lastAppliedHash (w : World) (key : String × String) : Option String :=
  (w.freeradiusConfig key).bind ConfigRow.lastAppliedHash

/-- What `_get_stored_hash` returns. -/
def ReadOutcome.answer (o : ReadOutcome) (stored : Option String) : Option String :=
  match o with
  | .answers => stored
  | _ => none

theorem ReadOutcome.stored_of_answer {o : ReadOutcome} {stored : Option String} {h : String}
    (hAnswer : o.answer stored = some h) : stored = some h := by
  cases o with
  | answers => exact hAnswer
  | swallowed => cases hAnswer
  | raises => cases hAnswer

/-- `_get_stored_hash`. -/
def getStoredHash (o : ReadOutcome) (configType configName : String) :
    Eff World Exc (Option String) := do
  raiseIf o.raised
  let w ← Eff.get
  return o.answer (w.lastAppliedHash (configType, configName))

/-- The row an upsert leaves. -/
def appliedRow (content configHash : String) (status : Status) (error : Option String) : ConfigRow where
  configContent := content
  configHash := configHash
  lastAppliedHash := some configHash
  status := status
  errorMessage := error

/-- `_save_config_state`. -/
def saveConfigState (o : SaveOutcome) (configType configName content configHash : String)
    (status : Status) (error : Option String) : Eff World Exc Unit := do
  if o.commits then
    Eff.modify fun w => { w with
      freeradiusConfig := Function.update w.freeradiusConfig (configType, configName)
        (some (appliedRow content configHash status error)) }
  raiseIf o.raises

theorem writeFile_apply (o : WriteOutcome) (path content : String) (w : World) :
    writeFile o path content w =
      (outcomeOf o.raised, { w with disk := w.disk.written path o content }) := rfl

end OpenRadiusWeb.ConfigManager
