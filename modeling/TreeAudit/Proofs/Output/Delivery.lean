import TreeAudit.Output.Writer
import Mathlib.Algebra.BigOperators.Group.List.Basic
import Mathlib.Algebra.GroupWithZero.Nat

/-!
What the writer gives to sinks that do not crash. Every sink is given the entries before the
first closing mark, in order, and is closed, and no sink sees what becomes of the others
(`write_closing`). The tally counts the entries, the findings among them and the failures of
all sinks. A writer that has a tally in the end met no crash (`survives_of_tally`).
-/

set_option autoImplicit false
set_option relaxedAutoImplicit false

namespace TreeAudit.Output

open Report

variable {σ : Type} (sink : Sink σ)

namespace Sink

/-- The sink may fail to write an entry, but it does not crash. -/
def NeverCrashes : Prop := ∀ entry state, (sink.write entry state).2 ≠ .crashed

/-- A sink that was given entries, in order. -/
def given (entries : List Entry) (state : σ) : σ :=
  entries.foldl (fun state entry ↦ (sink.write entry state).1) state

/-- How many of the entries it failed to write. -/
def failures : List Entry → σ → ℕ
  | [], _ => 0
  | entry :: rest, state =>
    (if (sink.write entry state).2 = .failed then 1 else 0) +
      failures rest (sink.write entry state).1

/-- Whether it failed to close, as a number. -/
def closeFailures (state : σ) : ℕ := if (sink.close state).2 then 0 else 1

/-- What becomes of a sink that is given entries and closed. -/
def served (entries : List Entry) (state : σ) : σ := (sink.close (sink.given entries state)).1

/-- How often it failed in all this. -/
def faults (entries : List Entry) (state : σ) : ℕ :=
  sink.failures entries state + sink.closeFailures (sink.given entries state)

theorem given_nil : sink.given [] = id := rfl

theorem given_concat (entries : List Entry) (entry : Entry) (state : σ) :
    sink.given (entries ++ [entry]) state = (sink.write entry (sink.given entries state)).1 := by
  rw [given, List.foldl_append]
  rfl

/-- The sink does not crash while it is given entries. -/
def Survives : List Entry → σ → Prop
  | [], _ => True
  | entry :: rest, state =>
    (sink.write entry state).2 ≠ .crashed ∧ Survives rest (sink.write entry state).1

theorem NeverCrashes.survives {sink : Sink σ} (hsink : sink.NeverCrashes) (entries : List Entry)
    (state : σ) : sink.Survives entries state := by
  induction entries generalizing state with
  | nil => trivial
  | cons entry rest ih => exact ⟨hsink entry state, ih _⟩

end Sink

/-- The tally after more entries, with so many failures. -/
def Tally.plus (tally : Tally) (entries : List Entry) (failures : ℕ) : Tally :=
  { tally with
    rendered := tally.rendered + entries.length
    findings := tally.findings + entries.countP Entry.isFinding
    sinkErrors := tally.sinkErrors + failures }

theorem Tally.plus_cons (tally : Tally) (entry : Entry) (rest : List Entry) (first second : ℕ) :
    tally.plus (entry :: rest) (first + second) =
      (Writer.count entry first tally).plus rest second := by
  simp only [plus, Writer.count, List.length_cons, List.countP_cons, Tally.mk.injEq, and_true]
  omega

namespace Writer

variable {sink}

theorem offer_eq {entry : Entry} {sinks : List σ}
    (hsinks : ∀ state ∈ sinks, (sink.write entry state).2 ≠ .crashed) :
    offer sink entry sinks =
      (sinks.map (sink.given [entry]), (sinks.map (sink.failures [entry])).sum, true) := by
  induction sinks with
  | nil => rfl
  | cons first rest ih =>
    obtain ⟨hcrash, hrest⟩ := List.forall_mem_cons.mp hsinks
    rw [offer]
    rcases hwrite : sink.write entry first with ⟨after, written⟩
    rw [hwrite] at hcrash
    cases written with
    | crashed => exact absurd rfl hcrash
    | done => simp [ih hrest, Sink.given, Sink.failures, hwrite]
    | failed => simp [ih hrest, Sink.given, Sink.failures, hwrite, Nat.add_comm]

/-- The writer goes on from an entry only if no sink crashes at it. -/
theorem not_crashed_of_offer {entry : Entry} {sinks : List σ}
    (hwhole : (offer sink entry sinks).2.2 = true) :
    ∀ state ∈ sinks, (sink.write entry state).2 ≠ .crashed := by
  induction sinks with
  | nil => exact nofun
  | cons first rest ih =>
    rw [offer] at hwhole
    rcases hwrite : sink.write entry first with ⟨after, written⟩
    rw [hwrite] at hwhole
    cases written with
    | crashed => cases hwhole
    | done =>
      refine List.forall_mem_cons.mpr ⟨?_, ih hwhole⟩
      rw [hwrite]
      exact nofun
    | failed =>
      refine List.forall_mem_cons.mpr ⟨?_, ih hwhole⟩
      rw [hwrite]
      exact nofun

theorem closeAll_eq (sinks : List σ) :
    closeAll sink sinks =
      (sinks.map fun state ↦ (sink.close state).1, (sinks.map sink.closeFailures).sum) := by
  induction sinks with
  | nil => rfl
  | cons first rest ih =>
    obtain ⟨hclosed, hfailed⟩ := Prod.mk.inj ih
    rw [closeAll, Prod.mk.injEq]
    constructor
    · rw [List.map_cons, List.map_cons, List.map_cons, ← hclosed]
    · rw [List.map_cons, List.map_cons, List.sum_cons, ← hfailed, Sink.closeFailures]
      cases hclose : (sink.close first).2 <;> simp [hclose, Nat.add_comm]

/-- One entry that does not close the report. -/
theorem writeFrom_cons {entry : Entry} (hentry : entry ≠ .closing) {sinks : List σ}
    (hsinks : ∀ state ∈ sinks, (sink.write entry state).2 ≠ .crashed) (rest : List Entry)
    (tally : Tally) :
    writeFrom sink tally sinks (entry :: rest) =
      writeFrom sink (count entry (sinks.map (sink.failures [entry])).sum tally)
        (sinks.map (sink.given [entry])) rest := by
  rw [writeFrom.eq_3 _ _ _ _ _ hentry, offer_eq hsinks]

/-- Entries that do not close the report are given to every sink. -/
theorem writeFrom_append {entries : List Entry} (hopen : .closing ∉ entries) {sinks : List σ}
    (hsinks : ∀ state ∈ sinks, sink.Survives entries state) (rest : List Entry)
    (tally : Tally) :
    writeFrom sink tally sinks (entries ++ rest) =
      writeFrom sink (tally.plus entries (sinks.map (sink.failures entries)).sum)
        (sinks.map (sink.given entries)) rest := by
  induction entries generalizing tally sinks with
  | nil =>
    have hnone : (sinks.map (sink.failures [])).sum = 0 := by simp [Sink.failures]
    rw [hnone, Sink.given_nil, List.map_id]
    rfl
  | cons entry others ih =>
    obtain ⟨hentry, hothers⟩ := not_or.mp (List.mem_cons.not.mp hopen)
    have hfirst : ∀ state ∈ sinks, (sink.write entry state).2 ≠ .crashed :=
      fun state hstate ↦ (hsinks state hstate).1
    have hnext : ∀ state ∈ sinks.map (sink.given [entry]), sink.Survives others state := by
      intro state hstate
      obtain ⟨before, hbefore, rfl⟩ := List.mem_map.mp hstate
      exact (hsinks before hbefore).2
    have hfailures : (sinks.map (sink.failures (entry :: others))).sum =
        (sinks.map (sink.failures [entry])).sum +
          ((sinks.map (sink.given [entry])).map (sink.failures others)).sum := by
      rw [List.map_map, ← List.sum_map_add]
      rfl
    have hgiven : sinks.map (sink.given (entry :: others)) =
        (sinks.map (sink.given [entry])).map (sink.given others) := by
      rw [List.map_map]
      rfl
    rw [List.cons_append, writeFrom_cons (Ne.symm hentry) hfirst, ih hothers hnext, hfailures,
      Tally.plus_cons, hgiven]

/-- A writer that has a tally in the end met no crash. -/
theorem survives_of_tally {entries : List Entry} (hopen : .closing ∉ entries) {sinks : List σ}
    {rest : List Entry} {tally : Tally}
    (htally : (writeFrom sink tally sinks (entries ++ rest)).tally ≠ none) :
    ∀ state ∈ sinks, sink.Survives entries state := by
  induction entries generalizing tally sinks with
  | nil => exact fun _ _ ↦ trivial
  | cons entry others ih =>
    obtain ⟨hentry, hothers⟩ := not_or.mp (List.mem_cons.not.mp hopen)
    -- a crash at the first entry leaves no tally, and without a crash the rest is written as before
    cases hwhole : (offer sink entry sinks).2.2 with
    | false =>
      rw [List.cons_append, writeFrom.eq_3 _ _ _ _ _ (Ne.symm hentry)] at htally
      rcases hoffer : offer sink entry sinks with ⟨after, failures, whole⟩
      rw [hoffer] at hwhole htally
      cases hwhole
      exact absurd rfl htally
    | true =>
      have hfirst := not_crashed_of_offer hwhole
      rw [List.cons_append, writeFrom_cons (Ne.symm hentry) hfirst] at htally
      exact fun state hstate ↦
        ⟨hfirst state hstate, ih hothers htally _ (List.mem_map_of_mem hstate)⟩

/-- Closing sinks that were given entries adds their failures to close to the tally. -/
theorem finish_given (entries : List Entry) (sinks : List σ) (sawEnd : Bool) :
    finish sink (sinks.map (sink.given entries))
        { Tally.plus {} entries (sinks.map (sink.failures entries)).sum with sawEnd := sawEnd } =
      ⟨sinks.map (sink.served entries),
        some ⟨entries.length, entries.countP Entry.isFinding,
          (sinks.map (sink.faults entries)).sum, sawEnd⟩⟩ := by
  have hfaults : (sinks.map (sink.faults entries)).sum =
      (sinks.map (sink.failures entries)).sum +
        ((sinks.map (sink.given entries)).map sink.closeFailures).sum := by
    rw [List.map_map, ← List.sum_map_add]
    rfl
  have hserved : ((sinks.map (sink.given entries)).map fun state ↦ (sink.close state).1) =
      sinks.map (sink.served entries) := by
    rw [List.map_map]
    rfl
  rw [finish, closeAll_eq, hserved, hfaults]
  simp [Tally.plus]

/-- The report ends where it is closed, and every sink is closed then. -/
theorem write_closing_of_survives {entries : List Entry} (hopen : .closing ∉ entries)
    {sinks : List σ} (hsinks : ∀ state ∈ sinks, sink.Survives entries state)
    (rest : List Entry) :
    write sink sinks (entries ++ .closing :: rest) =
      ⟨sinks.map (sink.served entries),
        some ⟨entries.length, entries.countP Entry.isFinding,
          (sinks.map (sink.faults entries)).sum, true⟩⟩ := by
  rw [write, writeFrom_append hopen hsinks, writeFrom, ← finish_given]

/-- Sinks that never crash survive every report. -/
theorem write_closing (hsink : sink.NeverCrashes) {entries : List Entry}
    (hopen : .closing ∉ entries) (rest : List Entry) (sinks : List σ) :
    write sink sinks (entries ++ .closing :: rest) =
      ⟨sinks.map (sink.served entries),
        some ⟨entries.length, entries.countP Entry.isFinding,
          (sinks.map (sink.faults entries)).sum, true⟩⟩ :=
  write_closing_of_survives hopen (fun state _ ↦ hsink.survives entries state) rest

/-- A report that nobody closes ends with its entries, and every sink is closed then. -/
theorem write_open_of_survives {entries : List Entry} (hopen : .closing ∉ entries)
    {sinks : List σ} (hsinks : ∀ state ∈ sinks, sink.Survives entries state) :
    write sink sinks entries =
      ⟨sinks.map (sink.served entries),
        some ⟨entries.length, entries.countP Entry.isFinding,
          (sinks.map (sink.faults entries)).sum, false⟩⟩ := by
  rw [write, ← List.append_nil entries, writeFrom_append hopen, writeFrom, List.append_nil,
    ← finish_given]
  · rfl
  · exact hsinks

end Writer

end TreeAudit.Output
