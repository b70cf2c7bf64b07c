import TreeAudit.Csv.Record
import TreeAudit.Proofs.Text.Splitting

/-!
Reading comma-separated values. The reader goes over a text once, character by character
(`Reader.step`): a comma ends a field and a line break a record, except between quotation marks,
where a quotation mark is written twice. A quotation mark within a field that does not begin with
one, and anything but a comma or line break behind a closing one, is a fault. Lines that hold
nothing are passed over, so the two characters of a line break count once.

What is written for a field leads the reader through this field (`exists_readAll_field`), what is
written for a record through this record (`readAll_encode`), and records of more than one field are
read back one after the other (`read_lines`).
-/

set_option autoImplicit false
set_option relaxedAutoImplicit false

namespace TreeAudit.Csv

/-- Where a reader stands: before a record, before a field that is not the first, within a field,
between quotation marks, or after a quotation mark that ends the field unless another follows. -/
inductive Mode where
  | record
  | field
  | plain
  | quoted
  | mark
deriving DecidableEq

/-- What was read so far: the records, the fields of the record that has begun, and the characters
of the field that has begun. -/
structure Reader where
  records : List (List String)
  fields : List String
  chars : List Char
  mode : Mode

namespace Reader

def endField (reader : Reader) : Reader :=
  ⟨reader.records, reader.fields ++ [String.ofList reader.chars], [], .field⟩

def endRecord (reader : Reader) : Reader :=
  ⟨reader.records ++ [reader.endField.fields], [], [], .record⟩

def take (reader : Reader) (c : Char) (mode : Mode) : Reader :=
  { reader with chars := reader.chars ++ [c], mode := mode }

/-- A quotation mark outside of quotation marks. -/
def openQuotes? (reader : Reader) : Option Reader :=
  match reader.mode with
  | .record | .field => some { reader with mode := .quoted }
  | .mark => some (reader.take '"' .quoted)
  | .plain | .quoted => none

/-- Reads one character; nothing after a fault. -/
def step (reader : Reader) (c : Char) : Option Reader :=
  if reader.mode = .quoted then
    some (if c = '"' then { reader with mode := .mark } else reader.take c .quoted)
  else if c = ',' then some reader.endField
  else if c = '\n' ∨ c = '\r' then
    some (if reader.mode = .record then reader else reader.endRecord)
  else if c = '"' then reader.openQuotes?
  else if reader.mode = .mark then none
  else some (reader.take c .plain)

def readAll (reader : Reader) (text : List Char) : Option Reader := text.foldlM step reader

/-- The records, the last of which may have no line break behind it. -/
def finish (reader : Reader) : Option (List (List String)) :=
  if reader.mode = .record then some reader.records
  else if reader.mode = .quoted then none
  else some reader.endRecord.records

end Reader

/-- The records of a text, if it is free of faults. -/
def read (text : List Char) : Option (List (List String)) :=
  (Reader.readAll ⟨[], [], [], .record⟩ text).bind Reader.finish

namespace Reader

variable (records : List (List String)) (fields : List String) (chars : List Char)

theorem readAll_append (reader : Reader) (text rest : List Char) :
    reader.readAll (text ++ rest) = (reader.readAll text).bind fun next ↦ next.readAll rest :=
  List.foldlM_append

theorem readAll_cons (reader : Reader) (c : Char) (rest : List Char) :
    reader.readAll (c :: rest) = (reader.step c).bind fun next ↦ next.readAll rest :=
  List.foldlM_cons

/-! ### Fields -/

/-- Up to the closing quotation mark, of a field that is quoted. -/
theorem readAll_doubled (text : List Char) :
    readAll ⟨records, fields, chars, .quoted⟩
        (text.flatMap fun c ↦ if c = '"' then ['"', '"'] else [c]) =
      some ⟨records, fields, chars ++ text, .quoted⟩ := by
  induction text generalizing chars with
  | nil => rw [List.append_nil]; rfl
  | cons c rest ih =>
    have hchar : readAll ⟨records, fields, chars, .quoted⟩ (if c = '"' then ['"', '"'] else [c]) =
        some ⟨records, fields, chars ++ [c], .quoted⟩ := by
      by_cases hc : c = '"'
      · rw [if_pos hc, hc]
        rfl
      · rw [if_neg hc, readAll_cons, step, if_pos rfl, if_neg hc]
        rfl
    rw [List.flatMap_cons, readAll_append, hchar, Option.bind_some, ih, List.append_assoc,
      List.singleton_append]

theorem readAll_quoted (text : List Char) {mode : Mode} (hmode : mode = .record ∨ mode = .field) :
    readAll ⟨records, fields, [], mode⟩ (Record.quoted text) =
      some ⟨records, fields, text, .mark⟩ := by
  have hopen : step ⟨records, fields, [], mode⟩ '"' = some ⟨records, fields, [], .quoted⟩ := by
    obtain rfl | rfl := hmode <;> rfl
  rw [Record.quoted, List.cons_append, readAll_cons, hopen, Option.bind_some, readAll_append,
    readAll_doubled, Option.bind_some]
  rfl

/-- A character that needs no quotation marks around it. -/
theorem step_plain {c : Char} (hc : Record.needsQuotes [c] = false) {mode : Mode}
    (hquoted : mode ≠ .quoted) (hmark : mode ≠ .mark) :
    step ⟨records, fields, chars, mode⟩ c = some ⟨records, fields, chars ++ [c], .plain⟩ := by
  simp only [Record.needsQuotes, List.any_cons, List.any_nil, Bool.or_false, Bool.or_eq_false_iff,
    beq_eq_false_iff_ne] at hc
  obtain ⟨⟨⟨hcomma, hquote⟩, hreturn⟩, hfeed⟩ := hc
  rw [step, if_neg hquoted, if_neg hcomma, if_neg (by simp [hfeed, hreturn]), if_neg hquote,
    if_neg hmark]
  rfl

theorem needsQuotes_cons {c : Char} {rest : List Char}
    (h : Record.needsQuotes (c :: rest) = false) :
    Record.needsQuotes [c] = false ∧ Record.needsQuotes rest = false := by
  rw [Record.needsQuotes, List.any_cons, Bool.or_eq_false_iff] at h
  refine ⟨?_, h.2⟩
  rw [Record.needsQuotes, List.any_cons, h.1]
  rfl

theorem readAll_plain {text : List Char} (htext : Record.needsQuotes text = false) :
    readAll ⟨records, fields, chars, .plain⟩ text =
      some ⟨records, fields, chars ++ text, .plain⟩ := by
  induction text generalizing chars with
  | nil => rw [List.append_nil]; rfl
  | cons c rest ih =>
    obtain ⟨hc, hrest⟩ := needsQuotes_cons htext
    have hstep : step ⟨records, fields, chars, .plain⟩ c =
        some ⟨records, fields, chars ++ [c], .plain⟩ :=
      step_plain records fields chars hc (by decide) (by decide)
    rw [readAll_cons, hstep, Option.bind_some, ih _ hrest, List.append_assoc,
      List.singleton_append]

/-- After a field the reader stands within it or behind its closing quotation mark, or where it
stood before, if there is nothing in the field. -/
theorem exists_readAll_field (text : List Char) {mode : Mode}
    (hmode : mode = .record ∨ mode = .field) :
    ∃ mode', readAll ⟨records, fields, [], mode⟩ (Record.field text) =
        some ⟨records, fields, text, mode'⟩ ∧
      mode' ≠ .quoted ∧ (mode' = .record → mode = .record) := by
  have hquoted : mode ≠ .quoted := by obtain rfl | rfl := hmode <;> exact nofun
  have hmark : mode ≠ .mark := by obtain rfl | rfl := hmode <;> exact nofun
  unfold Record.field
  cases hneeds : Record.needsQuotes text with
  | true => exact ⟨.mark, readAll_quoted records fields text hmode, nofun, nofun⟩
  | false =>
    cases text with
    | nil => exact ⟨mode, rfl, hquoted, id⟩
    | cons c rest =>
      obtain ⟨hc, hrest⟩ := needsQuotes_cons hneeds
      refine ⟨.plain, ?_, nofun, nofun⟩
      show readAll _ (c :: rest) = _
      rw [readAll_cons, step_plain records fields [] hc hquoted hmark, Option.bind_some,
        readAll_plain _ _ _ hrest]
      rfl

/-! ### Records -/

theorem readAll_field_comma (text rest : List Char) {mode : Mode}
    (hmode : mode = .record ∨ mode = .field) :
    readAll ⟨records, fields, [], mode⟩ (Record.field text ++ ',' :: rest) =
      readAll ⟨records, fields ++ [String.ofList text], [], .field⟩ rest := by
  obtain ⟨mode', hfield, hquoted, -⟩ := exists_readAll_field records fields text hmode
  rw [readAll_append, hfield, Option.bind_some, readAll_cons, step, if_neg hquoted, if_pos rfl]
  rfl

/-- The last field of a record, which is not its first. -/
theorem readAll_field_lineFeed (text rest : List Char) :
    readAll ⟨records, fields, [], .field⟩ (Record.field text ++ '\n' :: rest) =
      readAll ⟨records ++ [fields ++ [String.ofList text]], [], [], .record⟩ rest := by
  obtain ⟨mode', hfield, hquoted, hrecord⟩ := exists_readAll_field records fields text (.inr rfl)
  have hmode' : mode' ≠ .record := fun h ↦ nomatch hrecord h
  rw [readAll_append, hfield, Option.bind_some, readAll_cons, step, if_neg hquoted,
    if_neg (by decide), if_pos (.inl rfl), if_neg hmode']
  rfl

/-- The fields of a record behind its first one. -/
theorem readAll_others (text : List Char) (others : List (List Char)) (rest : List Char) :
    readAll ⟨records, fields, [], .field⟩
        (Record.field text ++ ((others.map Record.field).flatMap (',' :: ·) ++ '\n' :: rest)) =
      readAll ⟨records ++ [fields ++ (text :: others).map String.ofList], [], [], .record⟩
        rest := by
  induction others generalizing fields text with
  | nil =>
    rw [List.map_nil, List.flatMap_nil, List.nil_append, readAll_field_lineFeed]
    rfl
  | cons other others ih =>
    rw [List.map_cons, List.flatMap_cons, List.append_assoc, List.cons_append,
      readAll_field_comma _ _ _ _ (.inr rfl), ih, List.append_assoc]
    rfl

theorem readAll_encode (first second : List Char) (others : List (List Char))
    (rest : List Char) :
    readAll ⟨records, [], [], .record⟩ (Record.encode (first :: second :: others) ++ rest) =
      readAll ⟨records ++ [(first :: second :: others).map String.ofList], [], [], .record⟩
        rest := by
  have htext : Record.encode (first :: second :: others) ++ rest = Record.field first ++
      ',' :: (Record.field second ++
        ((others.map Record.field).flatMap (',' :: ·) ++ '\n' :: rest)) := by
    rw [Record.encode, List.map_cons, Text.Split.intercalate_cons, List.map_cons,
      List.flatMap_cons]
    simp only [List.append_assoc, List.cons_append, List.nil_append]
  rw [htext, readAll_field_comma _ _ _ _ (.inl rfl), readAll_others]
  rfl

end Reader

/-- Records of more than one field are read back from their lines. -/
theorem read_lines {records : List (List String)} (h : ∀ record ∈ records, 1 < record.length) :
    read (records.flatMap fun record ↦ (Record.line record).toList) = some records := by
  have hall : ∀ done, Reader.readAll ⟨done, [], [], .record⟩
      (records.flatMap fun record ↦ (Record.line record).toList) =
        some ⟨done ++ records, [], [], .record⟩ := by
    induction records with
    | nil =>
      intro done
      rw [List.append_nil]
      rfl
    | cons record records ih =>
      intro done
      obtain ⟨hrecord, hrecords⟩ := List.forall_mem_cons.mp h
      obtain ⟨first, second, others, rfl⟩ : ∃ first second others,
          record = first :: second :: others := by
        match record, hrecord with
        | first :: second :: others, _ => exact ⟨first, second, others, rfl⟩
      rw [List.flatMap_cons, Record.line, String.toList_ofList, List.map_cons, List.map_cons,
        Reader.readAll_encode, ih hrecords, List.append_assoc]
      simp
  rw [read, hall, Option.bind_some]
  rfl

example : read "a,\"b\n\"\"c\"\"\"\r\n\r\n,d".toList = some [["a", "b\n\"c\""], ["", "d"]] := by rfl

example : read "a,b\"c\"\n".toList = none := by rfl

end TreeAudit.Csv
