import Mathlib.Data.List.Basic

/-! # Comma-separated values

The reader and the writer of a `csv` module in its default dialect. The reader takes one line
after another and remembers where each record starts; it fails on a carriage return inside an
unquoted field and on a field that is too large. A written row is read back as it was, unless
one of its fields is of that kind.
-/

namespace Csv

/-- The states of the reader that the dialect can reach. -/
inductive Phase
  | startRecord
  | startField
  | inField
  | inQuotedField
  | quoteInQuotedField
  | eatCrnl
  deriving DecidableEq

inductive ReadError
  | newLineInUnquotedField
  | fieldLargerThanLimit
  deriving DecidableEq

structure Parser where
  phase : Phase
  fields : List String
  field : List Char
  deriving DecidableEq

/-- `parse_reset`. -/
def Parser.start : Parser := ⟨.startRecord, [], []⟩

/-- A record, with the lines on which it starts and ends. -/
structure Record where
  fields : List String
  first : Nat
  last : Nat
  deriving DecidableEq

/-- The records up to the end, or up to the failure. -/
structure Reading where
  records : List Record
  failure : Option ReadError
  deriving DecidableEq

def Reading.cons (r : Record) (reading : Reading) : Reading :=
  { reading with records := r :: reading.records }

def isNewline (c : Char) : Bool := c == '\n' || c == '\r'

namespace Parser

/-- `parse_save_field`. -/
def save (p : Parser) (phase : Phase) : Parser := ⟨phase, p.fields ++ [String.ofList p.field], []⟩

def enter (p : Parser) (phase : Phase) : Parser := { p with phase := phase }

/-- `parse_add_char`. -/
def add (limit : Nat) (p : Parser) (c : Char) (phase : Phase) : Except ReadError Parser :=
  if limit ≤ p.field.length then .error .fieldLargerThanLimit
  else .ok ⟨phase, p.fields, p.field ++ [c]⟩

def startField (limit : Nat) (p : Parser) (c : Char) : Except ReadError Parser :=
  if isNewline c then .ok (p.save .eatCrnl)
  else if c = '"' then .ok (p.enter .inQuotedField)
  else if c = ',' then .ok (p.save .startField)
  else p.add limit c .inField

/-- `parse_process_char` for a character of the line. -/
def char (limit : Nat) (p : Parser) (c : Char) : Except ReadError Parser :=
  match p.phase with
  | .startRecord => if isNewline c then .ok (p.enter .eatCrnl) else p.startField limit c
  | .startField => p.startField limit c
  | .inField =>
    if isNewline c then .ok (p.save .eatCrnl)
    else if c = ',' then .ok (p.save .startField)
    else p.add limit c .inField
  | .inQuotedField =>
    if c = '"' then .ok (p.enter .quoteInQuotedField) else p.add limit c .inQuotedField
  | .quoteInQuotedField =>
    if c = '"' then p.add limit c .inQuotedField
    else if c = ',' then .ok (p.save .startField)
    else if isNewline c then .ok (p.save .eatCrnl)
    else p.add limit c .inField
  | .eatCrnl => if isNewline c then .ok p else .error .newLineInUnquotedField

/-- `parse_process_char` at the end of the line. -/
def endLine (p : Parser) : Parser :=
  match p.phase with
  | .startRecord => p
  | .startField => p.save .startRecord
  | .inField => p.save .startRecord
  | .inQuotedField => p
  | .quoteInQuotedField => p.save .startRecord
  | .eatCrnl => p.enter .startRecord

end Parser

/-- The end of the text, where an open record is closed. -/
def finish (p : Parser) (first line : Nat) : Reading :=
  if p.field ≠ [] ∨ p.phase = .inQuotedField then
    ⟨[⟨(p.save .startRecord).fields, first, line⟩], none⟩
  else ⟨[], none⟩

/-- The records from within a line on; `line` is its number, and `mid` says that it has a
character already. -/
def readFrom (limit : Nat) (p : Parser) (first line : Nat) (mid : Bool) : List Char → Reading
  | [] =>
    if mid then
      if p.endLine.phase = .startRecord then ⟨[⟨p.endLine.fields, first, line⟩], none⟩
      else finish p.endLine first line
    else finish p first (line - 1)
  | c :: cs =>
    match p.char limit c with
    | .error e => ⟨[], some e⟩
    | .ok p =>
      if c = '\n' then
        if p.endLine.phase = .startRecord then
          (readFrom limit .start (line + 1) (line + 1) false cs).cons ⟨p.endLine.fields, first, line⟩
        else readFrom limit p.endLine first (line + 1) false cs
      else readFrom limit p first line true cs

/-- The records of a text. -/
def read (limit : Nat) (text : String) : Reading := readFrom limit .start 1 1 false text.toList

example : read 9 "a,b\n\n\"x\ny\",\"\"\"\"" =
    ⟨[⟨["a", "b"], 1, 1⟩, ⟨[], 2, 2⟩, ⟨["x\ny", "\""], 3, 4⟩], none⟩ := by decide

example : read 9 "a\rb" = ⟨[], some .newLineInUnquotedField⟩ := by decide

/-! ## Where records start -/

/-- Each record starts on the line after the one before it ended. -/
def Consecutive : Nat → List Record → Prop
  | _, [] => True
  | n, r :: rs => r.first = n ∧ n ≤ r.last ∧ Consecutive (r.last + 1) rs

theorem consecutive_finish {p : Parser} {first line : Nat}
    (h : first ≤ line ∨ (p.field = [] ∧ p.phase ≠ .inQuotedField)) :
    Consecutive first (finish p first line).records := by
  unfold finish
  split
  · rename_i hOpen
    rcases h with h | ⟨hField, hPhase⟩
    · exact ⟨rfl, h, trivial⟩
    · rcases hOpen with hOpen | hOpen
      · exact absurd hField hOpen
      · exact absurd hOpen hPhase
  · trivial

theorem consecutive_readFrom (limit : Nat) (cs : List Char) :
    ∀ (p : Parser) (first line : Nat) (mid : Bool), first ≤ line →
      (mid = false → first < line ∨ (p.field = [] ∧ p.phase ≠ .inQuotedField)) →
      Consecutive first (readFrom limit p first line mid cs).records := by
  induction cs with
  | nil =>
    intro p first line mid hLine hMid
    rw [readFrom]
    cases mid with
    | true =>
      rw [if_pos rfl]
      split
      · exact ⟨rfl, hLine, trivial⟩
      · exact consecutive_finish (.inl hLine)
    | false =>
      rw [if_neg Bool.false_ne_true]
      exact consecutive_finish ((hMid rfl).imp_left Nat.le_sub_one_of_lt)
  | cons c cs ih =>
    intro p first line mid hLine hMid
    rw [readFrom]
    cases p.char limit c with
    | error e => trivial
    | ok p =>
      dsimp only
      split
      · split
        · refine ⟨rfl, hLine, ih _ _ _ _ (Nat.le_refl _) fun _ => .inr ⟨rfl, nofun⟩⟩
        · exact ih _ _ _ _ (Nat.le_succ_of_le hLine) fun _ => .inl (Nat.lt_succ_of_le hLine)
      · exact ih _ _ _ _ hLine nofun

theorem consecutive_read (limit : Nat) (text : String) : Consecutive 1 (read limit text).records :=
  consecutive_readFrom _ _ _ _ _ _ (Nat.le_refl _) fun _ => .inr ⟨rfl, nofun⟩

/-! ## Writing -/

/-- A field of `QUOTE_MINIMAL` is quoted if it has a delimiter, a quote or the line terminator. -/
def needsQuotes (f : List Char) : Bool := f.any fun c => c = ',' || c = '"' || c = '\n'

/-- A quote is doubled. -/
def escape (f : List Char) : List Char := f.flatMap fun c => if c = '"' then ['"', '"'] else [c]

def writeField (f : String) : List Char :=
  if needsQuotes f.toList then '"' :: escape f.toList ++ ['"'] else f.toList

def writeFields : List String → List Char
  | [] => ['\n']
  | [f] => writeField f ++ ['\n']
  | f :: g :: fs => writeField f ++ ',' :: writeFields (g :: fs)

/-- `writerow` with `"\n"` as line terminator; an only field that is empty is quoted. -/
def writeRow (fields : List String) : List Char :=
  if fields = [""] then ['"', '"', '\n'] else writeFields fields

/-- The reader takes the written field for what it is. -/
def Readable (limit : Nat) (f : String) : Prop :=
  f.toList.length ≤ limit ∧ ('\r' ∈ f.toList → needsQuotes f.toList = true)

instance (limit : Nat) (f : String) : Decidable (Readable limit f) :=
  inferInstanceAs (Decidable (_ ∧ _))

/-! ## Reading what is written -/

section Written

variable {limit first : Nat} {fs : List String}

theorem escape_cons (c : Char) (f : List Char) :
    escape (c :: f) = (if c = '"' then ['"', '"'] else [c]) ++ escape f := rfl

theorem readFrom_char {p p' : Parser} {line : Nat} {mid : Bool} {c : Char} (cs : List Char)
    (h : p.char limit c = .ok p') (hc : c ≠ '\n') :
    readFrom limit p first line mid (c :: cs) = readFrom limit p' first line true cs := by
  rw [readFrom, h]
  exact if_neg hc

theorem readFrom_fails {p : Parser} {line : Nat} {mid : Bool} {c : Char} {e : ReadError}
    (cs : List Char) (h : p.char limit c = .error e) :
    readFrom limit p first line mid (c :: cs) = ⟨[], some e⟩ := by
  rw [readFrom, h]

theorem add_of_lt {p : Parser} {c : Char} {phase : Phase} (h : p.field.length < limit) :
    p.add limit c phase = .ok ⟨phase, p.fields, p.field ++ [c]⟩ := if_neg (Nat.not_le_of_lt h)

theorem add_of_le {p : Parser} {c : Char} {phase : Phase} (h : limit ≤ p.field.length) :
    p.add limit c phase = .error .fieldLargerThanLimit := if_pos h

/-- One character inside the quotes. -/
theorem readFrom_quoted_char {acc : List Char} (c : Char) (cs : List Char) (line : Nat) (mid : Bool) :
    (acc.length < limit → ∃ line' mid', readFrom limit ⟨.inQuotedField, fs, acc⟩ first line mid
        ((if c = '"' then ['"', '"'] else [c]) ++ cs) =
      readFrom limit ⟨.inQuotedField, fs, acc ++ [c]⟩ first line' mid' cs) ∧
    (limit ≤ acc.length → ∃ e, readFrom limit ⟨.inQuotedField, fs, acc⟩ first line mid
        ((if c = '"' then ['"', '"'] else [c]) ++ cs) = ⟨[], some e⟩) := by
  by_cases hQuote : c = '"'
  · subst hQuote
    have hFirst : Parser.char limit ⟨.inQuotedField, fs, acc⟩ '"' =
        .ok ⟨.quoteInQuotedField, fs, acc⟩ := rfl
    have hSecond : Parser.char limit ⟨.quoteInQuotedField, fs, acc⟩ '"' =
        Parser.add limit ⟨.quoteInQuotedField, fs, acc⟩ '"' .inQuotedField := rfl
    rw [if_pos rfl, List.cons_append, List.cons_append, List.nil_append,
      readFrom_char _ hFirst (by decide)]
    constructor
    · intro h
      exact ⟨line, true, readFrom_char _ (hSecond.trans (add_of_lt h)) (by decide)⟩
    · intro h
      exact ⟨_, readFrom_fails _ (hSecond.trans (add_of_le h))⟩
  · have hChar : Parser.char limit ⟨.inQuotedField, fs, acc⟩ c =
        Parser.add limit ⟨.inQuotedField, fs, acc⟩ c .inQuotedField := if_neg hQuote
    rw [if_neg hQuote, List.cons_append, List.nil_append]
    constructor
    · intro h
      have hAdded := hChar.trans (add_of_lt h)
      by_cases hLine : c = '\n'
      · refine ⟨line + 1, false, ?_⟩
        rw [readFrom, hAdded]
        exact if_pos hLine
      · exact ⟨line, true, readFrom_char _ hAdded hLine⟩
    · intro h
      exact ⟨_, readFrom_fails _ (hChar.trans (add_of_le h))⟩

/-- The inside of a quoted field and its closing quote. -/
theorem readFrom_quoted (f cs : List Char) :
    ∀ (acc : List Char) (line : Nat) (mid : Bool), acc.length ≤ limit →
      (acc.length + f.length ≤ limit → ∃ line', readFrom limit ⟨.inQuotedField, fs, acc⟩ first line mid
          (escape f ++ '"' :: cs) =
        readFrom limit ⟨.quoteInQuotedField, fs, acc ++ f⟩ first line' true cs) ∧
      (limit < acc.length + f.length → ∃ e, readFrom limit ⟨.inQuotedField, fs, acc⟩ first line mid
          (escape f ++ '"' :: cs) = ⟨[], some e⟩) := by
  induction f with
  | nil =>
    intro acc line mid hAcc
    refine ⟨fun _ => ⟨line, ?_⟩, fun h => absurd hAcc (Nat.not_le_of_lt h)⟩
    rw [List.append_nil]
    exact @readFrom_char _ _ _ ⟨.quoteInQuotedField, fs, acc⟩ _ _ _ cs rfl (by decide)
  | cons c f ih =>
    intro acc line mid hAcc
    rw [escape_cons, List.append_assoc, List.length_cons]
    obtain ⟨hReads, hFails⟩ := @readFrom_quoted_char limit first fs acc c
      (escape f ++ '"' :: cs) line mid
    by_cases hFull : limit ≤ acc.length
    · exact ⟨fun h => by omega, fun _ => hFails hFull⟩
    · obtain ⟨line', mid', hRead⟩ := hReads (Nat.lt_of_not_le hFull)
      have hLength : (acc ++ [c]).length = acc.length + 1 := by simp
      obtain ⟨hOk, hError⟩ := ih (acc ++ [c]) line' mid' (by omega)
      rw [hLength, Nat.add_assoc, Nat.add_comm 1] at hOk hError
      rw [hRead]
      simp only [List.append_assoc, List.cons_append, List.nil_append] at hOk
      exact ⟨hOk, hError⟩

/-- The phases in which an unquoted field begins or goes on. -/
def Unquoted (phase : Phase) : Prop := phase = .startRecord ∨ phase = .startField ∨ phase = .inField

/-- A character that neither ends a field nor is special in one. -/
def Plain (c : Char) : Prop := c ≠ ',' ∧ c ≠ '"' ∧ c ≠ '\n' ∧ c ≠ '\r'

theorem char_plain {p : Parser} {c : Char} (hPhase : Unquoted p.phase) (hPlain : Plain c) :
    p.char limit c = p.add limit c .inField := by
  obtain ⟨hComma, hQuote, hLine, hReturn⟩ := hPlain
  have hNewline : isNewline c = false := by simp [isNewline, hLine, hReturn]
  rcases hPhase with h | h | h <;>
    simp [Parser.char, Parser.startField, h, hNewline, hComma, hQuote]

/-- Plain characters are added to the field, as far as the limit allows. -/
theorem readFrom_plain (f cs : List Char) (hPlain : ∀ c ∈ f, Plain c) :
    ∀ (acc : List Char) (phase : Phase) (line : Nat) (mid : Bool), Unquoted phase → f ≠ [] →
      acc.length ≤ limit →
      (acc.length + f.length ≤ limit →
        readFrom limit ⟨phase, fs, acc⟩ first line mid (f ++ cs) =
          readFrom limit ⟨.inField, fs, acc ++ f⟩ first line true cs) ∧
      (limit < acc.length + f.length → ∃ e,
        readFrom limit ⟨phase, fs, acc⟩ first line mid (f ++ cs) = ⟨[], some e⟩) := by
  induction f with
  | nil => exact fun _ _ _ _ _ hNe => absurd rfl hNe
  | cons c f ih =>
    intro acc phase line mid hPhase _ hAcc
    rw [List.forall_mem_cons] at hPlain
    have hChar := @char_plain limit ⟨phase, fs, acc⟩ _ hPhase hPlain.1
    rw [List.cons_append, List.length_cons]
    by_cases hFull : limit ≤ acc.length
    · refine ⟨fun h => by omega, fun _ => ⟨_, readFrom_fails _ (hChar.trans (add_of_le hFull))⟩⟩
    · rw [readFrom_char _ (hChar.trans (add_of_lt (Nat.lt_of_not_le hFull))) hPlain.1.2.2.1]
      have hLength : (acc ++ [c]).length = acc.length + 1 := by simp
      cases hRest : f with
      | nil =>
        refine ⟨fun _ => by simp, fun h => ?_⟩
        simp only [List.length_nil] at h
        omega
      | cons c' f' =>
        rw [← hRest]
        obtain ⟨hOk, hError⟩ := ih hPlain.2 (acc ++ [c]) .inField line true (.inr (.inr rfl))
          (by simp [hRest]) (by omega)
        rw [hLength, Nat.add_assoc, Nat.add_comm 1] at hOk hError
        simp only [List.append_assoc, List.cons_append, List.nil_append] at hOk
        exact ⟨hOk, hError⟩

theorem exists_first_return {f : List Char} (h : '\r' ∈ f) :
    ∃ g g', f = g ++ '\r' :: g' ∧ '\r' ∉ g := List.eq_append_cons_of_mem h

/-- After a carriage return only line ends may follow. -/
theorem readFrom_eatCrnl (f cs : List Char) (hf : '\n' ∉ f) :
    ∀ (p : Parser) (line : Nat) (mid : Bool), p.phase = .eatCrnl →
      ∃ e, readFrom limit p first line mid (f ++ ',' :: cs) = ⟨[], some e⟩ := by
  induction f with
  | nil =>
    intro p line mid hPhase
    exact ⟨.newLineInUnquotedField, readFrom_fails _ (by simp [Parser.char, hPhase, isNewline])⟩
  | cons c f ih =>
    intro p line mid hPhase
    rw [List.mem_cons, not_or] at hf
    by_cases hReturn : c = '\r'
    · have hChar : p.char limit c = .ok p := by simp [Parser.char, hPhase, hReturn, isNewline]
      rw [List.cons_append, readFrom_char _ hChar (Ne.symm hf.1)]
      exact ih hf.2 p line true hPhase
    · refine ⟨.newLineInUnquotedField, readFrom_fails _ ?_⟩
      simp [Parser.char, hPhase, isNewline, hReturn, Ne.symm hf.1]

theorem char_return {p : Parser} (hPhase : Unquoted p.phase) :
    ∃ p', p.char limit '\r' = .ok p' ∧ p'.phase = .eatCrnl := by
  rcases hPhase with h | h | h <;>
    simp [Parser.char, Parser.startField, h, isNewline, Parser.enter, Parser.save]

theorem plain_of_not_needsQuotes {f : List Char} (h : needsQuotes f = false) {c : Char} (hc : c ∈ f)
    (hReturn : c ≠ '\r') : Plain c := by
  have hAll := List.any_eq_false.mp h c hc
  simp only [Bool.or_eq_true, decide_eq_true_eq, not_or] at hAll
  exact ⟨hAll.1.1, hAll.1.2, hAll.2, hReturn⟩

/-- The start of a field. -/
def Opening (phase : Phase) : Prop := phase = .startRecord ∨ phase = .startField

theorem Opening.unquoted {phase : Phase} (h : Opening phase) : Unquoted phase := h.imp_right .inl

/-- A readable field, up to what follows it. -/
theorem readFrom_writeField {phase : Phase} (hPhase : Opening phase) {f : String}
    (h : Readable limit f) (cs : List Char) (line : Nat) (mid : Bool) :
    ∃ phase' line' mid', (phase' = .quoteInQuotedField ∨ Unquoted phase') ∧
      (phase' = .startRecord → phase = .startRecord ∧ f = "") ∧
      readFrom limit ⟨phase, fs, []⟩ first line mid (writeField f ++ cs) =
        readFrom limit ⟨phase', fs, f.toList⟩ first line' mid' cs := by
  obtain ⟨hLength, hReturn⟩ := h
  rw [writeField]
  by_cases hQuotes : needsQuotes f.toList = true
  · have hOpen : Parser.char limit ⟨phase, fs, []⟩ '"' = .ok ⟨.inQuotedField, fs, []⟩ := by
      rcases hPhase with rfl | rfl <;> rfl
    obtain ⟨line', hRead⟩ := (@readFrom_quoted limit first fs f.toList cs [] line true
      (Nat.zero_le limit)).1 (by simpa using hLength)
    refine ⟨.quoteInQuotedField, line', true, .inl rfl, nofun, ?_⟩
    rw [if_pos hQuotes, List.cons_append, List.cons_append, readFrom_char _ hOpen (by decide),
      List.append_assoc]
    exact hRead
  · rw [if_neg hQuotes]
    by_cases hEmpty : f.toList = []
    · have hNone : f = "" := String.toList_inj.mp hEmpty
      refine ⟨phase, line, mid, .inr hPhase.unquoted, fun h => ⟨h, hNone⟩, ?_⟩
      rw [hEmpty, List.nil_append]
    · have hPlain : ∀ c ∈ f.toList, Plain c := by
        intro c hc
        refine plain_of_not_needsQuotes (eq_false_of_ne_true hQuotes) hc ?_
        rintro rfl
        exact hQuotes (hReturn hc)
      obtain ⟨hOk, -⟩ := @readFrom_plain limit first fs f.toList cs hPlain
        [] phase line mid hPhase.unquoted hEmpty (Nat.zero_le limit)
      exact ⟨.inField, line, true, .inr (.inr (.inr rfl)), nofun, hOk (by simpa using hLength)⟩

/-- A field that is not readable fails before the next one. -/
theorem readFrom_unreadable {phase : Phase} (hPhase : Opening phase) {f : String}
    (h : ¬ Readable limit f) (cs : List Char) (line : Nat) (mid : Bool) :
    ∃ e, readFrom limit ⟨phase, fs, []⟩ first line mid (writeField f ++ ',' :: cs) = ⟨[], some e⟩ := by
  rw [writeField]
  by_cases hQuotes : needsQuotes f.toList = true
  · have hOpen : Parser.char limit ⟨phase, fs, []⟩ '"' = .ok ⟨.inQuotedField, fs, []⟩ := by
      rcases hPhase with rfl | rfl <;> rfl
    have hLong : limit < f.toList.length := by
      rw [Readable, not_and_or, Nat.not_le] at h
      exact h.resolve_right fun hNot => hNot fun _ => hQuotes
    obtain ⟨e, hRead⟩ := (@readFrom_quoted limit first fs f.toList (',' :: cs) [] line true
      (Nat.zero_le limit)).2 (by simpa using hLong)
    refine ⟨e, ?_⟩
    rw [if_pos hQuotes, List.cons_append, List.cons_append, readFrom_char _ hOpen (by decide),
      List.append_assoc]
    exact hRead
  · rw [if_neg hQuotes]
    have hQuotes : needsQuotes f.toList = false := eq_false_of_ne_true hQuotes
    by_cases hReturn : '\r' ∈ f.toList
    · obtain ⟨g, g', hSplit, hNone⟩ := exists_first_return hReturn
      have hPlain : ∀ c ∈ g, Plain c := by
        intro c hc
        refine plain_of_not_needsQuotes hQuotes (by rw [hSplit]; exact List.mem_append_left _ hc) ?_
        rintro rfl
        exact hNone hc
      have hLine : '\n' ∉ g' := by
        intro hMem
        have hAll := List.any_eq_false.mp hQuotes '\n'
          (by rw [hSplit]; exact List.mem_append_right _ (List.mem_cons_of_mem _ hMem))
        simp at hAll
      -- what the reader is in when it comes to the carriage return
      have hAfter : ∀ (acc : List Char) (phase' : Phase) (mid' : Bool), Unquoted phase' →
          ∃ e, readFrom limit ⟨phase', fs, acc⟩ first line mid' ('\r' :: (g' ++ ',' :: cs)) =
            ⟨[], some e⟩ := by
        intro acc phase' mid' hPhase'
        obtain ⟨p', hChar, hEat⟩ := @char_return limit ⟨phase', fs, acc⟩ hPhase'
        rw [readFrom_char _ hChar (by decide)]
        exact readFrom_eatCrnl g' cs hLine p' line true hEat
      rw [hSplit, List.append_assoc, List.cons_append]
      by_cases hEmpty : g = []
      · rw [hEmpty, List.nil_append]
        exact hAfter [] phase mid hPhase.unquoted
      · obtain ⟨hOk, hError⟩ := @readFrom_plain limit first fs g
          ('\r' :: (g' ++ ',' :: cs)) hPlain [] phase line mid hPhase.unquoted hEmpty (Nat.zero_le limit)
        by_cases hLength : limit < g.length
        · exact hError (by simpa using hLength)
        · rw [hOk (by simpa using hLength)]
          exact hAfter _ .inField true (.inr (.inr rfl))
    · have hLong : limit < f.toList.length := by
        rw [Readable, not_and_or, Nat.not_le] at h
        exact h.resolve_right fun hNot => hNot fun hMem => absurd hMem hReturn
      have hPlain : ∀ c ∈ f.toList, Plain c := by
        intro c hc
        refine plain_of_not_needsQuotes hQuotes hc ?_
        rintro rfl
        exact hReturn hc
      have hNe : f.toList ≠ [] := by
        intro hEmpty
        rw [hEmpty] at hLong
        exact absurd hLong (Nat.not_lt_zero limit)
      exact (@readFrom_plain limit first fs f.toList (',' :: cs) hPlain []
        phase line mid hPhase.unquoted hNe (Nat.zero_le limit)).2 (by simpa using hLong)

theorem readFrom_field {phase : Phase} (hPhase : Opening phase) {f : String} (h : Readable limit f)
    (cs : List Char) (line : Nat) (mid : Bool) :
    ∃ line', readFrom limit ⟨phase, fs, []⟩ first line mid (writeField f ++ ',' :: cs) =
      readFrom limit ⟨.startField, fs ++ [f], []⟩ first line' true cs := by
  obtain ⟨phase', line', mid', hEnds, -, hRead⟩ :=
    @readFrom_writeField _ first fs _ hPhase _ h (',' :: cs) line mid
  have hComma : Parser.char limit ⟨phase', fs, f.toList⟩ ',' = .ok ⟨.startField, fs ++ [f], []⟩ := by
    rcases hEnds with rfl | rfl | rfl | rfl <;>
      simp [Parser.char, Parser.startField, Parser.save, isNewline]
  refine ⟨line', ?_⟩
  rw [hRead, readFrom_char _ hComma (by decide)]

/-- A readable field and the end of the row after it. -/
theorem readFrom_last {phase : Phase} (hPhase : Opening phase) {f : String} (h : Readable limit f)
    (hSome : phase = .startField ∨ f ≠ "") (cs : List Char) (line : Nat) (mid : Bool) :
    ∃ line', readFrom limit ⟨phase, fs, []⟩ first line mid (writeField f ++ '\n' :: cs) =
      (readFrom limit .start (line' + 1) (line' + 1) false cs).cons ⟨fs ++ [f], first, line'⟩ := by
  obtain ⟨phase', line', mid', hEnds, hStart, hRead⟩ :=
    @readFrom_writeField _ first fs _ hPhase _ h ('\n' :: cs) line mid
  have hLine : Parser.char limit ⟨phase', fs, f.toList⟩ '\n' = .ok ⟨.eatCrnl, fs ++ [f], []⟩ := by
    rcases hEnds with rfl | rfl | rfl | rfl
    · simp [Parser.char, Parser.save, isNewline]
    · obtain ⟨rfl, rfl⟩ := hStart rfl
      rcases hSome with hSome | hSome
      · cases hSome
      · exact absurd rfl hSome
    · simp [Parser.char, Parser.startField, Parser.save, isNewline]
    · simp [Parser.char, Parser.save, isNewline]
  refine ⟨line', ?_⟩
  rw [hRead, readFrom, hLine]
  rfl

/-- A row is read back if its fields are readable. -/
theorem readFrom_writeFields (fields : List String) (hFields : ∀ f ∈ fields, Readable limit f)
    (hSome : fields ≠ []) (cs : List Char) :
    ∀ (phase : Phase) (fs : List String) (line : Nat) (mid : Bool), Opening phase →
      (phase = .startField ∨ fields ≠ [""]) →
      ∃ line', readFrom limit ⟨phase, fs, []⟩ first line mid (writeFields fields ++ cs) =
        (readFrom limit .start (line' + 1) (line' + 1) false cs).cons ⟨fs ++ fields, first, line'⟩ := by
  induction fields with
  | nil => exact absurd rfl hSome
  | cons f fields ih =>
    intro phase fs line mid hPhase hStart
    rw [List.forall_mem_cons] at hFields
    cases fields with
    | nil =>
      rw [writeFields, List.append_assoc, List.cons_append, List.nil_append]
      exact readFrom_last hPhase hFields.1 (hStart.imp_right (mt (congrArg fun f => [f]))) cs line mid
    | cons g fields =>
      rw [writeFields, List.append_assoc, List.cons_append]
      obtain ⟨line', hRead⟩ := @readFrom_field _ first fs _ hPhase _ hFields.1
        (writeFields (g :: fields) ++ cs) line mid
      obtain ⟨line'', hRest⟩ := ih hFields.2 nofun .startField (fs ++ [f]) line' true (.inr rfl) (.inl rfl)
      refine ⟨line'', ?_⟩
      rw [hRead, hRest, List.append_assoc]
      rfl

/-- A row fails if a field before its last is not readable. -/
theorem readFrom_writeFields_fails (fields : List String) (hBad : ∃ f ∈ fields, ¬ Readable limit f)
    (hLast : ∀ f, fields.getLast? = some f → Readable limit f) (cs : List Char) :
    ∀ (phase : Phase) (fs : List String) (line : Nat) (mid : Bool), Opening phase →
      ∃ e, readFrom limit ⟨phase, fs, []⟩ first line mid (writeFields fields ++ cs) = ⟨[], some e⟩ := by
  induction fields with
  | nil => simp at hBad
  | cons f fields ih =>
    intro phase fs line mid hPhase
    cases fields with
    | nil =>
      obtain ⟨f', hMem, hNot⟩ := hBad
      rw [List.mem_singleton] at hMem
      exact absurd (hLast f' (by rw [hMem]; rfl)) hNot
    | cons g fields =>
      rw [writeFields, List.append_assoc, List.cons_append]
      by_cases hFirst : Readable limit f
      · obtain ⟨line', hRead⟩ := @readFrom_field _ first fs _ hPhase _ hFirst
          (writeFields (g :: fields) ++ cs) line mid
        rw [hRead]
        apply ih
        · obtain ⟨f', hMem, hNot⟩ := hBad
          rcases List.mem_cons.mp hMem with rfl | hMem
          · exact absurd hFirst hNot
          · exact ⟨f', hMem, hNot⟩
        · intro f' hGet
          exact hLast f' (by rw [List.getLast?_cons_cons]; exact hGet)
        · exact .inr rfl
      · exact readFrom_unreadable hPhase hFirst _ line mid

theorem writeRow_eq {fields : List String} (h : 2 ≤ fields.length) : writeRow fields = writeFields fields := by
  rw [writeRow, if_neg]
  rintro rfl
  simp at h

/-- The rows of a text are read back if all their fields are readable. -/
theorem readFrom_rows (rows : List (List String)) (hSize : ∀ fields ∈ rows, 2 ≤ fields.length)
    (hRows : ∀ fields ∈ rows, ∀ f ∈ fields, Readable limit f) :
    ∀ n, ∃ records, records.map Record.fields = rows ∧
      readFrom limit .start n n false (rows.flatMap writeRow) = ⟨records, none⟩ := by
  induction rows with
  | nil => exact fun n => ⟨[], rfl, rfl⟩
  | cons fields rows ih =>
    intro n
    rw [List.forall_mem_cons] at hSize hRows
    have hNe : fields ≠ [] ∧ fields ≠ [""] := by
      constructor <;> rintro rfl <;> simp at hSize
    obtain ⟨line, hRead⟩ := @readFrom_writeFields _ n fields hRows.1 hNe.1
      (rows.flatMap writeRow) .startRecord [] n false (.inl rfl) (.inr hNe.2)
    obtain ⟨records, hFields, hRest⟩ := ih hSize.2 hRows.2 (line + 1)
    refine ⟨⟨fields, n, line⟩ :: records, by rw [List.map_cons, hFields], ?_⟩
    rw [List.flatMap_cons, writeRow_eq hSize.1]
    exact hRead.trans (by rw [hRest]; rfl)

/-- They are not if a field before the last of a row is not. -/
theorem readFrom_rows_fails (rows : List (List String)) (hSize : ∀ fields ∈ rows, 2 ≤ fields.length)
    (hBad : ∃ fields ∈ rows, ∃ f ∈ fields, ¬ Readable limit f)
    (hLast : ∀ fields ∈ rows, ∀ f, fields.getLast? = some f → Readable limit f) :
    ∀ n, ∃ e, (readFrom limit .start n n false (rows.flatMap writeRow)).failure = some e := by
  induction rows with
  | nil => simp at hBad
  | cons fields rows ih =>
    intro n
    rw [List.forall_mem_cons] at hSize hLast
    rw [List.flatMap_cons, writeRow_eq hSize.1]
    by_cases hFields : ∀ f ∈ fields, Readable limit f
    · have hNe : fields ≠ [] ∧ fields ≠ [""] := by
        constructor <;> rintro rfl <;> simp at hSize
      obtain ⟨line, hRead⟩ := @readFrom_writeFields _ n fields hFields hNe.1
        (rows.flatMap writeRow) .startRecord [] n false (.inl rfl) (.inr hNe.2)
      have hRest : ∃ fields ∈ rows, ∃ f ∈ fields, ¬ Readable limit f := by
        obtain ⟨fields', hMem, f, hf, hNot⟩ := hBad
        rcases List.mem_cons.mp hMem with rfl | hMem
        · exact absurd (hFields f hf) hNot
        · exact ⟨fields', hMem, f, hf, hNot⟩
      obtain ⟨e, hFails⟩ := ih hSize.2 hRest hLast.2 (line + 1)
      refine ⟨e, ?_⟩
      have hStart : readFrom limit .start n n false (writeFields fields ++ rows.flatMap writeRow) = _ :=
        hRead
      rw [hStart]
      exact hFails
    · have hField : ∃ f ∈ fields, ¬ Readable limit f := by simpa using hFields
      obtain ⟨e, hFails⟩ := @readFrom_writeFields_fails _ n fields hField hLast.1
        (rows.flatMap writeRow) .startRecord [] n false (.inl rfl)
      refine ⟨e, ?_⟩
      have hStart : readFrom limit .start n n false (writeFields fields ++ rows.flatMap writeRow) = _ :=
        hFails
      rw [hStart]

end Written

end Csv
