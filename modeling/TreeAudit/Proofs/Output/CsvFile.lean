import TreeAudit.Proofs.Csv.Reading
import TreeAudit.Proofs.Numeric.Shortest
import TreeAudit.Proofs.Output.ReportFile
import TreeAudit.Report.Projection

/-!
Report files of comma-separated values. A file is the line of the header and then those of the
records of its entries, so reading it gives the header and these records back (`read_of_saved`).
What the record of an entry is to hold is told column by column (`IsRecordOf`): the texts of a
finding or a status as they are, and for a progress update texts that read as its numbers. They do
because all of these are numbers of the double format (`Duration.isDouble_toSeconds`,
`Report.Progress.isDouble_fraction_after`).
-/

set_option autoImplicit false
set_option relaxedAutoImplicit false

namespace TreeAudit

open Numeric.Decimal (ReadsAs readsAs_shortestText)

theorem Duration.isDouble_toSeconds (d : Duration) : d.toSeconds.IsDouble :=
  Binary64.isDouble_add _ _

namespace Report

/-- The share of the work that an update tells is a number of the double format. -/
theorem Progress.isDouble_fraction_after {processed : ℕ} {elapsed : Duration}
    {estimate : Option Estimate} {x : Binary64}
    (hx : (Progress.after processed elapsed estimate).fraction = some x) : x.IsDouble := by
  obtain ⟨e, -, hfraction⟩ := Option.bind_eq_some_iff.mp hx
  obtain ⟨total, -, rfl⟩ := Option.map_eq_some_iff.mp hfraction
  split_ifs
  · exact Binary64.isDouble_ofRatio 1 1
  · exact (Binary64.isDouble_div _ _).capAtOne

/-- The seconds that are left, if a time is told. -/
def Remaining.seconds? : Remaining → Option Binary64
  | known time => some time.toSeconds
  | unknown => none
  | untracked => none

/-- A column of numbers: it is empty without a number, else it reads as the number. -/
def Shows (column : String) : Option Binary64 → Prop
  | none => column = ""
  | some x => ReadsAs column x

/-- What the ten columns hold for an entry. -/
inductive IsRecordOf : Entry → List String → Prop
  | finding (f : Finding) :
    IsRecordOf (.finding f)
      ["finding", f.check, f.severity.label, (f.id.map DocumentId.text).getD "",
        (f.parent.map DocumentId.text).getD "", f.description, "", "", "", ""]
  | status (text : String) :
    IsRecordOf (.status text) ["status", "", "", "", "", text, "", "", "", ""]
  | progress (p : Progress) (fraction elapsed remaining : String)
    (hfraction : Shows fraction p.fraction) (helapsed : ReadsAs elapsed p.elapsed.toSeconds)
    (hremaining : Shows remaining p.remaining.seconds?) :
    IsRecordOf (.progress p)
      ["progress", "", "", "", "", "", toString p.processed, fraction, elapsed, remaining]

theorem readsAs_number {x : Binary64} (hdouble : x.IsDouble) : ReadsAs (Csv.number x) x :=
  readsAs_shortestText rfl rfl rfl hdouble

/-- The columns of an entry that is shown. -/
theorem exists_columns {entry : Entry} (hshown : entry ≠ .closing)
    (hdouble : ∀ p, entry = .progress p → ∀ x, p.fraction = some x → x.IsDouble) :
    ∃ record, entry.columns? = some record ∧ IsRecordOf entry record := by
  cases entry with
  | finding f => exact ⟨_, rfl, .finding f⟩
  | status text => exact ⟨_, rfl, .status text⟩
  | progress p =>
    refine ⟨_, rfl, .progress p _ _ _ ?_ (readsAs_number p.elapsed.isDouble_toSeconds) ?_⟩
    · cases hfraction : p.fraction with
      | none => rfl
      | some x => exact readsAs_number (hdouble p rfl x hfraction)
    · cases p.remaining with
      | known time => exact readsAs_number time.isDouble_toSeconds
      | unknown => rfl
      | untracked => rfl
  | closing => exact absurd rfl hshown

theorem forall₂_columns {entries : List Entry} (hentries : Entry.closing ∉ entries)
    (hdoubles : ∀ p, Entry.progress p ∈ entries → ∀ x, p.fraction = some x → x.IsDouble) :
    List.Forall₂ IsRecordOf entries (entries.filterMap Entry.columns?) := by
  induction entries with
  | nil => exact .nil
  | cons entry entries ih =>
    obtain ⟨hshown, hentries⟩ := List.ne_and_not_mem_of_not_mem_cons hentries
    obtain ⟨record, hcolumns, hrecord⟩ := exists_columns hshown.symm fun p hp ↦
      hdoubles p (hp ▸ List.mem_cons_self)
    rw [List.filterMap_cons_some hcolumns]
    exact .cons hrecord (ih hentries fun p hp ↦ hdoubles p (List.mem_cons_of_mem _ hp))

theorem IsRecordOf.length {entry : Entry} {record : List String} (h : IsRecordOf entry record) :
    record.length = 10 := by
  cases h <;> rfl

theorem length_columns {entry : Entry} {record : List String} (h : entry.columns? = some record) :
    record.length = 10 := by
  cases entry <;> cases h <;> rfl

end Report

namespace Output.ReportFile

open Report

variable {entries : List Entry} {text : String}

theorem flatMap_columns (entries : List Entry) :
    ((entries.filterMap Entry.columns?).flatMap fun record ↦ (Csv.Record.line record).toList) =
      entries.flatMap fun entry ↦ (Output.Format.line entry .csv).toList := by
  induction entries with
  | nil => rfl
  | cons entry entries ih =>
    rw [List.flatMap_cons, ← ih, Format.line]
    cases hcolumns : entry.columns? with
    | some record => rw [List.filterMap_cons_some hcolumns, List.flatMap_cons]; rfl
    | none => rw [List.filterMap_cons_none hcolumns]; rfl

/-- Reading a file gives the header and the columns of its entries. -/
theorem read_of_saved (h : Saved .csv entries text) :
    Csv.read text.toList = some (Csv.header :: entries.filterMap Entry.columns?) := by
  have htext : text.toList = (Csv.header :: entries.filterMap Entry.columns?).flatMap
      fun record ↦ (Csv.Record.line record).toList := by
    rw [saved_iff.mp h, List.flatMap_cons, flatMap_columns]
    rfl
  rw [htext]
  refine Csv.read_lines fun record hrecord ↦ ?_
  obtain rfl | hrecord := List.mem_cons.mp hrecord
  · decide
  · obtain ⟨entry, -, hcolumns⟩ := List.mem_filterMap.mp hrecord
    rw [length_columns hcolumns]
    decide

/-- Reading a file of comma-separated values that could be closed gives the header and one record
for each entry, in order, whose ten columns hold what the entry tells: texts as they are, and
numbers of the double format as texts that read as them. -/
theorem saved_csv (hentries : Entry.closing ∉ entries)
    (hdoubles : ∀ p, Entry.progress p ∈ entries → ∀ x, p.fraction = some x → x.IsDouble)
    (h : Saved .csv entries text) :
    ∃ records,
      Csv.read text.toList =
        some (["kind", "check", "severity", "id", "parent", "text", "processed", "fraction",
          "elapsed_secs", "eta_secs"] :: records) ∧
      List.Forall₂ (fun entry record ↦ record.length = 10 ∧ IsRecordOf entry record)
        entries records := by
  refine ⟨_, read_of_saved h, ?_⟩
  exact (forall₂_columns hentries hdoubles).imp fun _ _ hrecord ↦ ⟨hrecord.length, hrecord⟩

/-- A report of every kind of entry, with quotes, commas and line breaks in its texts. -/
def lineBreaks : List Entry :=
  [.finding ⟨"orphan", .corruption, some ⟨"1:/\"a\",\r\n"⟩, none, ",\n\""⟩,
    .status "",
    .progress ⟨2, some (.finite 0x10000000000000 (-53)), ⟨1500000000⟩, .known ⟨1500000000⟩⟩,
    .progress ⟨3, none, ⟨90000000000⟩, .unknown⟩]

theorem saved_csv_lineBreaks :
    ∃ text records, Saved .csv lineBreaks text ∧
      Csv.read text.toList =
        some (["kind", "check", "severity", "id", "parent", "text", "processed", "fraction",
          "elapsed_secs", "eta_secs"] :: records) ∧
      List.Forall₂ (fun entry record ↦ record.length = 10 ∧ IsRecordOf entry record)
        lineBreaks records ∧
      records =
        [["finding", "orphan", "corruption", "1:/\"a\",\r\n", "", ",\n\"", "", "", "", ""],
          ["status", "", "", "", "", "", "", "", "", ""],
          ["progress", "", "", "", "", "", "2", "0.5", "1.5", "1.5"],
          ["progress", "", "", "", "", "", "3", "", "90.0", ""]] := by
  obtain ⟨text, hsaved⟩ := exists_saved .csv lineBreaks
  have hdoubles : ∀ p, Entry.progress p ∈ lineBreaks → ∀ x, p.fraction = some x → x.IsDouble := by
    intro p hp x hx
    simp only [lineBreaks, List.mem_cons, reduceCtorEq, Entry.progress.injEq, false_or,
      List.not_mem_nil, or_false] at hp
    obtain rfl | rfl := hp <;> cases hx
    exact ⟨by decide, by decide, by decide, .inl le_rfl⟩
  obtain ⟨records, hread, hrecords⟩ := saved_csv (by decide) hdoubles hsaved
  refine ⟨text, records, hsaved, hread, hrecords, ?_⟩
  have hcolumns : some (_ :: records) = some (_ :: lineBreaks.filterMap Entry.columns?) :=
    hread.symm.trans (read_of_saved hsaved)
  rw [(List.cons.inj (Option.some.inj hcolumns)).2]
  decide +kernel

end Output.ReportFile

end TreeAudit
