import OpenRadiusWeb.Mab.Import
import Mathlib.Data.List.Nodup

/-! # What an import makes of each record

A parse that returns has one item or one error for every record that is not blank, under the
line on which the record starts. Exactly when the records fit under the header, keep a value
under it, and no refused record comes after an empty line or a record over several lines does
the code do so.
-/

namespace OpenRadiusWeb.Mab

open Csv (Consecutive)

abbrev Record := Csv.Record

def Blank (fields : List String) : Prop := ∀ f ∈ fields, Text.strip f = ""

instance (fields : List String) : Decidable (Blank fields) := inferInstanceAs (Decidable (∀ _ ∈ _, _))

section Outcomes

variable (py : Python) (header : List String)

/-- The row that the columns make of a record. -/
def rowOf (fields : List String) : Dict String := py.strippedRow (rawRow header fields).values

/-- A value of the record remains in its row: of columns with one name the last counts. -/
def Kept (fields : List String) : Prop := ∃ kv ∈ rowOf py header fields, kv.2 ≠ ""

instance (fields : List String) : Decidable (Kept py header fields) :=
  inferInstanceAs (Decidable (∃ _ ∈ _, _))

/-- What a record amounts to: an item, or its raw text and a message. -/
def outcome (fields : List String) : Except (String × String) BulkItem :=
  match py.bulkItem (clean (rowOf py header fields)) with
  | .ok item => .ok item
  | .error text => .error (rawText (rawRow header fields).values, text)

def itemOf (r : Record) : Option BulkItem := (outcome py header r.fields).toOption

/-- The error of a record, under the given number. -/
def errorOf (row : Nat) (r : Record) : Option RowError :=
  match outcome py header r.fields with
  | .ok _ => none
  | .error (raw, text) => some ⟨row, raw, text⟩

/-- One item or one error for every record that is not blank, in the order of the file, the
errors under the lines on which their records start. -/
structure ByRecord (rest : List Record) (parsed : Parsed) : Prop where
  items : parsed.1 = (rest.filter fun r => ¬ Blank r.fields).filterMap (itemOf py header)
  errors : parsed.2 =
    (rest.filter fun r => ¬ Blank r.fields).filterMap fun r => errorOf py header r.first r

/-- A record that is not blank and that the model refuses. -/
def Refused (fields : List String) : Prop :=
  ¬ Blank fields ∧ ∃ e, py.bulkItem (clean (rowOf py header fields)) = .error e

end Outcomes

def Sound (py : Python) (csvText : String) : Prop :=
  ∃ parsed, py.parseCsvToBulkItems csvText = .ok parsed ∧
    ∀ header rest, (Csv.read fieldSizeLimit csvText).records = header :: rest →
      py.HasMacColumn header.fields → ByRecord py header.fields rest parsed

/-- A record is alone on its line. -/
def OneLine (r : Record) : Prop := r.fields ≠ [] ∧ r.first = r.last

structure Regular (py : Python) (header : Record) (rest : List Record) : Prop where
  fits : ∀ r ∈ rest, r.fields.length ≤ header.fields.length
  kept : ∀ r ∈ rest, ¬ Blank r.fields → Kept py header.fields r.fields
  numbered : ∀ before r after, rest = before ++ r :: after → Refused py header.fields r.fields →
    header.first = header.last ∧ ∀ b ∈ before, OneLine b

/-- The reader reads the text, and its records are regular if there is a MAC column. -/
def Parsable (py : Python) (csvText : String) : Prop :=
  match (Csv.read fieldSizeLimit csvText).records with
  | [] => (Csv.read fieldSizeLimit csvText).failure = none
  | header :: rest => py.HasMacColumn header.fields →
    Regular py header rest ∧ (Csv.read fieldSizeLimit csvText).failure = none

/-! ## One record -/

section Record

variable {py : Python} {header : List String} {fields : List String}

theorem strip_empty : Text.strip "" = "" := by decide

theorem rowOf_blank (h : Blank fields) : ∀ kv ∈ rowOf py header fields, kv.2 = "" := by
  let Stripped : Option String → Prop := fun v => Text.strip (v.getD "") = ""
  have hNone : Stripped none := strip_empty
  have hNil : ∀ kv ∈ ([] : Dict (Option String)), Stripped kv.2 :=
    fun _ hkv => absurd hkv List.not_mem_nil
  have hZip : ∀ kv ∈ (header.zip fields).foldl (fun d kv => Dict.set d kv.1 (some kv.2)) [],
      Stripped kv.2 := by
    refine Dict.forall_mem_foldl_set (p := Stripped) (fun kv hkv => ?_) hNil
    exact h _ (List.of_mem_zip hkv).2
  have hValues : ∀ kv ∈ (rawRow header fields).values, Stripped kv.2 :=
    Dict.forall_mem_foldl_set (p := Stripped) (fun _ _ => hNone) hZip
  exact Dict.forall_mem_foldl_set (p := (· = "")) hValues fun _ hkv => absurd hkv List.not_mem_nil

theorem Kept.not_blank (h : Kept py header fields) : ¬ Blank fields := by
  rintro hBlank
  obtain ⟨kv, hkv, hNe⟩ := h
  exact hNe (rowOf_blank hBlank kv hkv)

theorem zip_fst_append_drop (header fields : List String) :
    (header.zip fields).map Prod.fst ++ header.drop fields.length = header := by
  induction header generalizing fields with
  | nil => simp
  | cons name header ih =>
    cases fields with
    | nil => rfl
    | cons field fields => exact congrArg (List.cons name) (ih fields)

/-- With distinct names every column is in the row. -/
theorem rowOf_of_nodup (h : (header.map py.columnName).Nodup) :
    rowOf py header fields =
      (header.zip fields).map (fun kv => (py.columnName kv.1, Text.strip kv.2)) ++
        (header.drop fields.length).map fun k => (py.columnName k, "") := by
  have hKeys := zip_fst_append_drop header fields
  have hHeader : ((header.zip fields).map Prod.fst ++ header.drop fields.length).Nodup := by
    rw [hKeys]
    exact List.Nodup.of_map _ h
  have hValues : (rawRow header fields).values =
      (header.zip fields).map (fun kv => (kv.1, some kv.2)) ++
        (header.drop fields.length).map fun k => (k, none) := by
    rw [rawRow, @Dict.foldl_set_of_nodup _ _ _ Prod.fst,
      @Dict.foldl_set_of_nodup _ _ _ fun k => k]
    · rfl
    · simpa [Dict.keys, Function.comp_def] using hHeader
    · simpa [Dict.keys] using (List.nodup_append.mp hHeader).1
  rw [rowOf, Python.strippedRow, hValues, Dict.foldl_set_of_nodup]
  · simp [Function.comp_def, strip_empty]
  · rw [← hKeys] at h
    simpa [Dict.keys, Function.comp_def] using h

theorem kept_of_nodup (h : (header.map py.columnName).Nodup) (hFits : fields.length ≤ header.length)
    (hBlank : ¬ Blank fields) : Kept py header fields := by
  simp only [Blank, not_forall] at hBlank
  obtain ⟨f, hf, hNe⟩ := hBlank
  have hZip : f ∈ (header.zip fields).map Prod.snd := by
    rw [List.map_snd_zip hFits]
    exact hf
  obtain ⟨kv, hkv, rfl⟩ := List.mem_map.mp hZip
  rw [Kept, rowOf_of_nodup h]
  exact ⟨_, List.mem_append_left _ (List.mem_map_of_mem hkv), hNe⟩

theorem not_kept_iff : ¬ Kept py header fields ↔ (rowOf py header fields).all (fun kv => kv.2 = "") = true := by
  simp [Kept]

end Record

/-! ## The loop -/

section Loop

variable {py : Python} {header : List String} {rest : List Record}

/-- The errors of the loop: numbered from `idx` on, empty lines not counted. -/
def errorsFrom (py : Python) (header : List String) : Nat → List Record → List RowError
  | _, [] => []
  | idx, r :: rs =>
    if r.fields = [] then errorsFrom py header idx rs
    else
      (if Kept py header r.fields then (errorOf py header idx r).toList else []) ++
        errorsFrom py header (idx + 1) rs

theorem parseRow_fits {r : Record} (hFits : r.fields.length ≤ header.length) (idx : Nat)
    (parsed : Parsed) :
    py.parseRow header idx r.fields parsed =
      .ok (if Kept py header r.fields then
        (parsed.1 ++ (itemOf py header r).toList, parsed.2 ++ (errorOf py header idx r).toList)
      else parsed) := by
  have hRest : (rawRow header r.fields).rest = [] := List.drop_eq_nil_of_le hFits
  unfold Python.parseRow
  simp only [hRest, ne_eq, not_true_eq_false, if_false]
  by_cases hKept : Kept py header r.fields
  · have hSome : ¬ (rowOf py header r.fields).all (fun kv => kv.2 = "") = true :=
      fun hAll => not_kept_iff.mpr hAll hKept
    rw [rowOf] at hSome
    rw [if_neg hSome, if_pos hKept, itemOf, errorOf, outcome, rowOf]
    cases py.bulkItem (clean (py.strippedRow (rawRow header r.fields).values)) with
    | ok item => simp [Except.toOption]
    | error text => simp [Except.toOption]
  · have hAll := not_kept_iff.mp hKept
    rw [rowOf] at hAll
    rw [if_pos hAll, if_neg hKept]

theorem parseRow_overlong {fields : List String} (h : header.length < fields.length) (idx : Nat)
    (parsed : Parsed) : py.parseRow header idx fields parsed = .error .attributeError := by
  have hRest : (rawRow header fields).rest ≠ [] := by
    intro hNil
    have hLength := congrArg List.length hNil
    simp only [rawRow, List.length_drop, List.length_nil] at hLength
    omega
  unfold Python.parseRow
  simp only [if_pos hRest]

/-- The loop over records that all fit. -/
theorem parseRows_fits (hFits : ∀ r ∈ rest, r.fields.length ≤ header.length) (idx : Nat)
    (parsed : Parsed) :
    py.parseRows header idx (Python.dataRecords rest) parsed =
      .ok (parsed.1 ++ (rest.filter fun r => Kept py header r.fields).filterMap (itemOf py header),
        parsed.2 ++ errorsFrom py header idx rest) := by
  induction rest generalizing idx parsed with
  | nil => simp [Python.dataRecords, Python.parseRows, errorsFrom]
  | cons r rs ih =>
    rw [List.forall_mem_cons] at hFits
    by_cases hEmpty : r.fields = []
    · have hNot : ¬ Kept py header r.fields := fun hKept => hKept.not_blank (by simp [hEmpty, Blank])
      have hSame : Python.dataRecords (r :: rs) = Python.dataRecords rs := by
        simp [Python.dataRecords, hEmpty]
      rw [hSame, ih hFits.2, errorsFrom, if_pos hEmpty, List.filter_cons_of_neg (by simpa using hNot)]
    · have hCons : Python.dataRecords (r :: rs) = r :: Python.dataRecords rs := by
        simp [Python.dataRecords, hEmpty]
      rw [hCons, Python.parseRows, parseRow_fits hFits.1, errorsFrom, if_neg hEmpty]
      simp only [bind, Except.bind]
      rw [ih hFits.2]
      by_cases hKept : Kept py header r.fields
      · rw [if_pos hKept, if_pos hKept, List.filter_cons_of_pos (by simpa using hKept),
          List.filterMap_cons]
        cases itemOf py header r <;> simp
      · rw [if_neg hKept, if_neg hKept, List.filter_cons_of_neg (by simpa using hKept)]
        simp

/-- A record with too many fields ends the loop. -/
theorem parseRows_overlong (h : ∃ r ∈ rest, header.length < r.fields.length) (idx : Nat)
    (parsed : Parsed) :
    ∃ e, py.parseRows header idx (Python.dataRecords rest) parsed = .error e := by
  induction rest generalizing idx parsed with
  | nil => simp at h
  | cons r rs ih =>
    by_cases hEmpty : r.fields = []
    · have hSame : Python.dataRecords (r :: rs) = Python.dataRecords rs := by
        simp [Python.dataRecords, hEmpty]
      rw [hSame]
      apply ih
      obtain ⟨r', hr', hLong⟩ := h
      rcases List.mem_cons.mp hr' with rfl | hr'
      · simp [hEmpty] at hLong
      · exact ⟨r', hr', hLong⟩
    · have hCons : Python.dataRecords (r :: rs) = r :: Python.dataRecords rs := by
        simp [Python.dataRecords, hEmpty]
      rw [hCons, Python.parseRows]
      by_cases hLong : header.length < r.fields.length
      · rw [parseRow_overlong hLong]
        exact ⟨_, rfl⟩
      · rw [parseRow_fits (Nat.le_of_not_lt hLong)]
        apply ih
        obtain ⟨r', hr', hLong'⟩ := h
        rcases List.mem_cons.mp hr' with rfl | hr'
        · exact absurd hLong' hLong
        · exact ⟨r', hr', hLong'⟩

/-! ## Nothing is lost -/

theorem length_outcomes (number : Record → Nat) (rs : List Record) :
    (rs.filterMap (itemOf py header)).length +
      (rs.filterMap fun r => errorOf py header (number r) r).length = rs.length := by
  induction rs with
  | nil => rfl
  | cons r rs ih =>
    have hOne : (itemOf py header r).toList.length +
        (errorOf py header (number r) r).toList.length = 1 := by
      unfold itemOf errorOf
      cases outcome py header r.fields <;> rfl
    simp only [List.filterMap_cons, List.length_cons]
    cases hItem : itemOf py header r <;> cases hError : errorOf py header (number r) r <;>
      simp only [hItem, hError, Option.toList_none, Option.toList_some, List.length_nil,
        List.length_cons] at hOne ⊢ <;> omega

theorem length_errorsFrom (idx : Nat) (rs : List Record) :
    (errorsFrom py header idx rs).length =
      ((rs.filter fun r => Kept py header r.fields).filterMap
        fun r => errorOf py header 0 r).length := by
  induction rs generalizing idx with
  | nil => rfl
  | cons r rs ih =>
    have hNumber : (errorOf py header idx r).toList.length = (errorOf py header 0 r).toList.length := by
      unfold errorOf
      cases outcome py header r.fields <;> rfl
    rw [errorsFrom]
    by_cases hKept : Kept py header r.fields
    · have hNotEmpty : r.fields ≠ [] := by
        intro hEmpty
        exact hKept.not_blank (by simp [hEmpty, Blank])
      rw [if_neg hNotEmpty, if_pos hKept, List.filter_cons_of_pos (by simpa using hKept),
        List.length_append, ih, hNumber, List.filterMap_cons]
      cases errorOf py header 0 r <;> simp [Nat.add_comm]
    · rw [List.filter_cons_of_neg (by simpa using hKept), if_neg hKept, List.nil_append]
      split
      · exact ih idx
      · exact ih (idx + 1)

/-- The loop accounts for every record that is not blank only if each of them is kept. -/
theorem kept_of_length {parsed : Parsed} (hRows : parsed =
      ((rest.filter fun r => Kept py header r.fields).filterMap (itemOf py header),
        errorsFrom py header 2 rest))
    (h : ByRecord py header rest parsed) : ∀ r ∈ rest, ¬ Blank r.fields → Kept py header r.fields := by
  have hSub : (rest.filter fun r => Kept py header r.fields).Sublist
      (rest.filter fun r => ¬ Blank r.fields) := by
    apply List.monotone_filter_right
    intro r hKept
    have hKept : Kept py header r.fields := by simpa using hKept
    simpa using hKept.not_blank
  have hLength : (rest.filter fun r => Kept py header r.fields).length =
      (rest.filter fun r => ¬ Blank r.fields).length := by
    rw [← @length_outcomes py header (fun _ => 0),
      ← @length_outcomes py header Csv.Record.first, ← length_errorsFrom 2,
      ← h.items, ← h.errors, hRows]
  intro r hr hBlank
  have hMem : r ∈ rest.filter fun r => Kept py header r.fields := by
    rw [hSub.eq_of_length hLength]
    exact List.mem_filter.mpr ⟨hr, by simpa using hBlank⟩
  simpa using List.of_mem_filter hMem

/-! ## Row numbers -/

theorem forall_split_cons {α : Type} {x : α} {xs : List α} {P : List α → α → Prop} :
    (∀ before r after, x :: xs = before ++ r :: after → P before r) ↔
      P [] x ∧ ∀ before r after, xs = before ++ r :: after → P (x :: before) r := by
  constructor
  · intro h
    refine ⟨h [] x xs rfl, ?_⟩
    rintro before r after rfl
    exact h (x :: before) r after rfl
  · rintro ⟨hHead, hTail⟩ before r after hEq
    cases before with
    | nil =>
      obtain ⟨rfl, -⟩ := List.cons.inj hEq
      exact hHead
    | cons y before =>
      obtain ⟨rfl, hRest⟩ := List.cons.inj hEq
      exact hTail before r after hRest

theorem refused_iff (r : Record) (n : Nat) :
    Refused py header r.fields ↔ ¬ Blank r.fields ∧ errorOf py header n r ≠ none := by
  unfold Refused errorOf outcome
  cases py.bulkItem (clean (rowOf py header r.fields)) <;> simp

/-- The errors of the loop carry the lines of their records exactly when the count of the loop
is right at every refused record. -/
theorem errorsFrom_eq_iff (hKept : ∀ r ∈ rest, ¬ Blank r.fields → Kept py header r.fields) {idx a : Nat}
    (hLines : Consecutive a rest) (hBehind : idx ≤ a) :
    errorsFrom py header idx rest =
        ((rest.filter fun r => ¬ Blank r.fields).filterMap fun r => errorOf py header r.first r) ↔
      ∀ before r after, rest = before ++ r :: after → Refused py header r.fields →
        idx = a ∧ ∀ b ∈ before, OneLine b := by
  induction rest generalizing idx a with
  | nil => simp [errorsFrom]
  | cons r rs ih =>
    obtain ⟨rfl, hEnds, hLines⟩ := hLines
    rw [List.forall_mem_cons] at hKept
    rw [forall_split_cons, errorsFrom]
    by_cases hEmpty : r.fields = []
    · have hBlank : Blank r.fields := by simp [hEmpty, Blank]
      rw [if_pos hEmpty, List.filter_cons_of_neg (by simpa using hBlank),
        ih hKept.2 hLines (by omega)]
      constructor
      · intro h
        refine ⟨fun hRefused => absurd hBlank hRefused.1, fun before r' after hEq hRefused => ?_⟩
        obtain ⟨hIdx, -⟩ := h before r' after hEq hRefused
        omega
      · rintro ⟨-, h⟩ before r' after hEq hRefused
        obtain ⟨-, hAlone⟩ := h before r' after hEq hRefused
        exact absurd hEmpty (hAlone r List.mem_cons_self).1
    · have hShift : ∀ before : List Record, (idx + 1 = r.last + 1 ∧ ∀ b ∈ before, OneLine b) ↔
          (idx = r.first ∧ ∀ b ∈ r :: before, OneLine b) := by
        intro before
        rw [List.forall_mem_cons, OneLine]
        constructor
        · rintro ⟨hIdx, hAlone⟩
          exact ⟨by omega, ⟨hEmpty, by omega⟩, hAlone⟩
        · rintro ⟨hIdx, ⟨-, hOne⟩, hAlone⟩
          exact ⟨by omega, hAlone⟩
      have hTail := @ih hKept.2 (idx + 1) _ hLines (by omega)
      simp only [hShift] at hTail
      rw [if_neg hEmpty, ← hTail]
      by_cases hBlank : Blank r.fields
      · have hNot : ¬ Kept py header r.fields := fun h => h.not_blank hBlank
        rw [if_neg hNot, List.nil_append, List.filter_cons_of_neg (by simpa using hBlank)]
        exact (and_iff_right fun hRefused => absurd hBlank hRefused.1).symm
      · rw [if_pos (hKept.1 hBlank), List.filter_cons_of_pos (by simpa using hBlank),
          List.filterMap_cons, refused_iff r idx]
        simp only [List.not_mem_nil, false_implies, implies_true, and_true]
        unfold errorOf
        cases outcome py header r.fields with
        | ok item => simp
        | error e => simp [hBlank]

end Loop

/-! ## The whole text -/

section Text

variable {py : Python} {csvText : String} {header : Record} {rest : List Record}

theorem parse_of_header (hRecords : (Csv.read fieldSizeLimit csvText).records = header :: rest) :
    py.parseCsvToBulkItems csvText =
      if py.HasMacColumn header.fields then do
        let parsed ← py.parseRows header.fields 2 (Python.dataRecords rest) ([], [])
        match (Csv.read fieldSizeLimit csvText).failure with
        | some e => .error (.csv e)
        | none => .ok parsed
      else .ok ([], [Python.missingColumn header.fields]) := by
  unfold Python.parseCsvToBulkItems
  generalize Csv.read fieldSizeLimit csvText = reading at hRecords ⊢
  obtain ⟨records, failure⟩ := reading
  obtain rfl : records = header :: rest := hRecords
  rfl

theorem parse_of_fits (hRecords : (Csv.read fieldSizeLimit csvText).records = header :: rest)
    (hMac : py.HasMacColumn header.fields)
    (hFits : ∀ r ∈ rest, r.fields.length ≤ header.fields.length) :
    py.parseCsvToBulkItems csvText =
      match (Csv.read fieldSizeLimit csvText).failure with
      | some e => .error (.csv e)
      | none => .ok ((rest.filter fun r => Kept py header.fields r.fields).filterMap
          (itemOf py header.fields), errorsFrom py header.fields 2 rest) := by
  rw [parse_of_header hRecords, if_pos hMac, parseRows_fits hFits]
  rfl

theorem consecutive_rest (hRecords : (Csv.read fieldSizeLimit csvText).records = header :: rest) :
    header.first = 1 ∧ 1 ≤ header.last ∧ Consecutive (header.last + 1) rest := by
  have hLines := Csv.consecutive_read fieldSizeLimit csvText
  rwa [hRecords] at hLines

theorem numbered_iff (hRecords : (Csv.read fieldSizeLimit csvText).records = header :: rest)
    (hKept : ∀ r ∈ rest, ¬ Blank r.fields → Kept py header.fields r.fields) :
    errorsFrom py header.fields 2 rest =
        ((rest.filter fun r => ¬ Blank r.fields).filterMap fun r =>
          errorOf py header.fields r.first r) ↔
      ∀ before r after, rest = before ++ r :: after → Refused py header.fields r.fields →
        header.first = header.last ∧ ∀ b ∈ before, OneLine b := by
  obtain ⟨hFirst, hLast, hLines⟩ := consecutive_rest hRecords
  have hHeader : 2 = header.last + 1 ↔ header.first = header.last := by omega
  rw [errorsFrom_eq_iff hKept hLines (by omega)]
  simp only [hHeader]

theorem filter_kept (hKept : ∀ r ∈ rest, ¬ Blank r.fields → Kept py header.fields r.fields) :
    (rest.filter fun r => Kept py header.fields r.fields) = rest.filter fun r => ¬ Blank r.fields := by
  apply List.filter_congr
  intro r hr
  have hIff : Kept py header.fields r.fields ↔ ¬ Blank r.fields := ⟨Kept.not_blank, hKept r hr⟩
  simp [hIff]

theorem byRecord_iff (hRecords : (Csv.read fieldSizeLimit csvText).records = header :: rest) :
    ByRecord py header.fields rest ((rest.filter fun r => Kept py header.fields r.fields).filterMap
        (itemOf py header.fields), errorsFrom py header.fields 2 rest) ↔
      (∀ r ∈ rest, ¬ Blank r.fields → Kept py header.fields r.fields) ∧
      ∀ before r after, rest = before ++ r :: after → Refused py header.fields r.fields →
        header.first = header.last ∧ ∀ b ∈ before, OneLine b := by
  constructor
  · intro h
    have hKept := kept_of_length rfl h
    exact ⟨hKept, (numbered_iff hRecords hKept).mp h.errors⟩
  · rintro ⟨hKept, hNumbered⟩
    refine ⟨?_, (numbered_iff hRecords hKept).mpr hNumbered⟩
    rw [filter_kept hKept]

/-- The parse is as promised exactly for the texts that the reader reads and whose records,
under a MAC column, are regular. -/
theorem parse_sound_iff (py : Python) (csvText : String) : Sound py csvText ↔ Parsable py csvText := by
  unfold Parsable
  split
  · rename_i hRecords
    unfold Sound Python.parseCsvToBulkItems
    simp only [hRecords]
    cases (Csv.read fieldSizeLimit csvText).failure <;> simp
  · rename_i header rest hRecords
    have hHeader : Sound py csvText ↔ ∃ parsed, py.parseCsvToBulkItems csvText = .ok parsed ∧
        (py.HasMacColumn header.fields → ByRecord py header.fields rest parsed) := by
      unfold Sound
      rw [hRecords]
      simp
    rw [hHeader]
    by_cases hMac : py.HasMacColumn header.fields
    · by_cases hFits : ∀ r ∈ rest, r.fields.length ≤ header.fields.length
      · rw [parse_of_fits hRecords hMac hFits]
        cases (Csv.read fieldSizeLimit csvText).failure with
        | some e => simp [hMac]
        | none =>
          have hIff := @byRecord_iff py _ _ _ hRecords
          constructor
          · rintro ⟨parsed, hParsed, hRows⟩ -
            cases hParsed
            obtain ⟨hKept, hNumbered⟩ := hIff.mp (hRows hMac)
            exact ⟨⟨hFits, hKept, hNumbered⟩, rfl⟩
          · intro h
            obtain ⟨hRegular, -⟩ := h hMac
            exact ⟨_, rfl, fun _ => hIff.mpr ⟨hRegular.kept, hRegular.numbered⟩⟩
      · constructor
        · rintro ⟨parsed, hParsed, -⟩
          simp only [not_forall, not_le] at hFits
          obtain ⟨r, hr, hLong⟩ := hFits
          obtain ⟨e, hError⟩ := @parseRows_overlong py _ _ ⟨r, hr, hLong⟩ 2 ([], [])
          rw [parse_of_header hRecords, if_pos hMac, hError] at hParsed
          cases hParsed
        · intro h
          exact absurd (h hMac).1.fits hFits
    · rw [parse_of_header hRecords, if_neg hMac]
      simp [hMac]

end Text

/-! ## A field too many, and an empty line -/

/-- Lowering as in ASCII; no text is a date. -/
def asciiPython : Python where
  lower s := String.ofList (s.toList.map Char.toLower)
  isdigit s := s ≠ "" && s.toList.all Char.isDigit
  int := Text.decimal
  parseInt := Text.decimal
  parseDatetime _ := none
  validationText _ := "Invalid MAC"

/-- The second record has a field too many; and an empty line precedes the refused one. -/
theorem unsound_texts :
    ¬ Sound asciiPython "mac_address\naabbccddeeff,x\n" ∧
      ¬ Sound asciiPython "mac_address\n\nbad\n" := by
  constructor
  · rintro ⟨parsed, hParsed, -⟩
    have hRaises : asciiPython.parseCsvToBulkItems "mac_address\naabbccddeeff,x\n" =
        .error .attributeError := by decide +kernel
    rw [hRaises] at hParsed
    cases hParsed
  · rintro ⟨parsed, hParsed, hRows⟩
    have hErrors : asciiPython.parseCsvToBulkItems "mac_address\n\nbad\n" =
        .ok ([], [⟨2, "bad", "Invalid MAC"⟩]) := by decide +kernel
    have hRecords : (Csv.read fieldSizeLimit "mac_address\n\nbad\n").records =
        [⟨["mac_address"], 1, 1⟩, ⟨[], 2, 2⟩, ⟨["bad"], 3, 3⟩] := by decide +kernel
    rw [hErrors] at hParsed
    cases hParsed
    have hExpected := (hRows _ _ hRecords (by decide +kernel)).errors
    revert hExpected
    decide +kernel

end OpenRadiusWeb.Mab
