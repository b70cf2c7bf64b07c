import TreeAudit.Proofs.Output.Delivery
import Mathlib.Data.List.TakeWhile

/-!
Sinks do not affect one another. What is written may hold a closing mark anywhere, several or
none; what counts are the entries before the first (`upToClosing`). Sinks that do not crash are
given these, each sink all of them in order, and are then closed, so each ends as if it were the
only one, and the tally adds up what each does on its own (`write_eq`). That a sink gets no other
calls is seen from one that keeps a list of them (`Sink.recording`).
-/

set_option autoImplicit false
set_option relaxedAutoImplicit false

namespace TreeAudit.Output

open Report

variable {σ : Type} (sink : Sink σ)

namespace Sink

/-- What can be asked of a sink. -/
inductive Call where
  | write (entry : Entry)
  | close

/-- The sink, keeping a list of its calls. -/
def recording : Sink (σ × List Call) where
  name state := sink.name state.1
  write entry state :=
    (((sink.write entry state.1).1, state.2 ++ [.write entry]), (sink.write entry state.1).2)
  close state := (((sink.close state.1).1, state.2 ++ [.close]), (sink.close state.1).2)

variable {sink}

theorem NeverCrashes.recording (hsink : sink.NeverCrashes) : sink.recording.NeverCrashes :=
  fun entry state ↦ hsink entry state.1

variable (sink)

theorem given_recording (entries : List Entry) (state : σ) (calls : List Call) :
    sink.recording.given entries (state, calls) =
      (sink.given entries state, calls ++ entries.map .write) := by
  induction entries generalizing state calls with
  | nil => simp [given]
  | cons entry rest ih =>
    calc sink.recording.given (entry :: rest) (state, calls)
        = sink.recording.given rest ((sink.write entry state).1, calls ++ [.write entry]) := rfl
      _ = (sink.given (entry :: rest) state, calls ++ (entry :: rest).map .write) := by
          rw [ih, List.append_assoc]
          rfl

/-- A sink that is served is given the entries one after the other and is closed once. -/
theorem served_recording (entries : List Entry) (state : σ) :
    sink.recording.served entries (state, []) =
      (sink.served entries state, entries.map .write ++ [.close]) := by
  rw [served, given_recording]
  rfl

end Sink

namespace Writer

/-- The entries before the first closing mark. -/
def upToClosing (entries : List Entry) : List Entry := entries.takeWhile (· ≠ .closing)

variable {sink}

theorem forall_ne_closing {entries : List Entry} (hopen : .closing ∉ entries) :
    ∀ entry ∈ entries, decide (entry ≠ .closing) = true := by
  intro entry hentry
  rw [decide_eq_true_eq]
  rintro rfl
  exact hopen hentry

theorem upToClosing_append {entries : List Entry} (hopen : .closing ∉ entries)
    (rest : List Entry) : upToClosing (entries ++ .closing :: rest) = entries := by
  rw [upToClosing, List.takeWhile_append_of_pos (forall_ne_closing hopen)]
  simp

theorem upToClosing_eq_self {entries : List Entry} (hopen : .closing ∉ entries) :
    upToClosing entries = entries :=
  List.takeWhile_eq_self_iff.mpr (forall_ne_closing hopen)

/-- What the writer does with any entries, if no sink crashes at one before the mark. -/
theorem write_of_survives (sinks : List σ) (entries : List Entry)
    (hsinks : ∀ state ∈ sinks, sink.Survives (upToClosing entries) state) :
    write sink sinks entries =
      ⟨sinks.map (sink.served (upToClosing entries)),
        some ⟨(upToClosing entries).length, (upToClosing entries).countP Entry.isFinding,
          (sinks.map (sink.faults (upToClosing entries))).sum, decide (.closing ∈ entries)⟩⟩ := by
  by_cases hclosing : .closing ∈ entries
  · rw [decide_eq_true hclosing]
    obtain ⟨first, rest, rfl, hopen⟩ := List.eq_append_cons_of_mem hclosing
    rw [upToClosing_append hopen] at hsinks ⊢
    exact write_closing_of_survives hopen hsinks rest
  · rw [decide_eq_false hclosing]
    rw [upToClosing_eq_self hclosing] at hsinks ⊢
    exact write_open_of_survives hclosing hsinks

/-- What the writer does if no sink ever crashes. -/
theorem write_eq_served (hsink : sink.NeverCrashes) (sinks : List σ) (entries : List Entry) :
    write sink sinks entries =
      ⟨sinks.map (sink.served (upToClosing entries)),
        some ⟨(upToClosing entries).length, (upToClosing entries).countP Entry.isFinding,
          (sinks.map (sink.faults (upToClosing entries))).sum, decide (.closing ∈ entries)⟩⟩ :=
  write_of_survives sinks entries fun state _ ↦ hsink.survives _ state

/-- Sinks that do not crash are given the entries before the first closing mark, all of them if
there is none, in order and each once, and are then closed once, whatever fails. Each ends as it
would as the only sink, and the tally counts these entries, the findings among them, whether a
mark came, and the failures of every sink to write or to close. -/
theorem write_independent (hsink : sink.NeverCrashes) (sinks : List σ) (entries : List Entry) :
    let shown := upToClosing entries
    write sink sinks entries =
        ⟨sinks.map (sink.served shown),
          some ⟨shown.length, shown.countP Entry.isFinding, (sinks.map (sink.faults shown)).sum,
            decide (.closing ∈ entries)⟩⟩ ∧
      (write sink sinks entries).sinks =
        sinks.flatMap (fun state ↦ (write sink [state] entries).sinks) ∧
      (write sink.recording (sinks.map fun state ↦ (state, [])) entries).sinks =
        sinks.map fun state ↦ (sink.served shown state, shown.map .write ++ [.close]) := by
  refine ⟨write_eq_served hsink sinks entries, ?_, ?_⟩
  · simp only [write_eq_served hsink, List.map_cons, List.map_nil]
    exact List.map_eq_flatMap
  · rw [write_eq_served hsink.recording, List.map_map]
    exact List.map_congr_left fun state _ ↦ sink.served_recording (upToClosing entries) state

/-- A sink that counts what it is given, fails at every other entry, and fails to close after an
odd number of them. -/
def flaky : Sink ℕ where
  name _ := "flaky"
  write _ given := (given + 1, if given % 2 = 0 then .done else .failed)
  close given := (given, given % 2 = 0)

theorem write_independent_flaky :
    let finding : Entry := .finding ⟨"orphan", .error, none, none, "lost"⟩
    flaky.NeverCrashes ∧
      write flaky [0, 1] [.status "a", finding, .status "b", .closing, finding, .closing] =
        ⟨[3, 4], some ⟨3, 1, 4, true⟩⟩ := by
  intro finding
  have hflaky : flaky.NeverCrashes := by
    intro entry given
    dsimp only [flaky]
    split_ifs <;> exact nofun
  refine ⟨hflaky, ?_⟩
  have hshown : upToClosing [.status "a", finding, .status "b", .closing, finding, .closing] =
      [.status "a", finding, .status "b"] := by
    decide
  rw [(write_independent hflaky _ _).1, hshown, Finished.mk.injEq]
  decide

end Writer

end TreeAudit.Output
