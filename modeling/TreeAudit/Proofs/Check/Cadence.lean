import TreeAudit.Proofs.Check.Builtins
import Mathlib.Data.List.Range

/-!
When progress updates are sent. A call may find the clock at other times when it asks whether an
update is due, when it makes the update and once that has been sent (`Readings`); a check that is
told one time goes by that for all three (`machine_process`).

Which documents are followed by an update is decided one by one: those on count, and those on time
since the last one that was (`updated`). While the receiver stays, the check has sent an update for
each of them after any number of documents, and nothing else (`answerAfter_eq`). So an update that
is sent because time has passed puts no later one off that is due by count, and leaves none out
(`updates_cadence`).
-/

set_option autoImplicit false
set_option relaxedAutoImplicit false

namespace TreeAudit.Check.Progress

open Report

/-- What the clock shows in a call: when it is asked whether an update is due, when the update is
made, and once it has been sent. -/
structure Readings where
  asked : Duration
  made : Duration
  sent : Duration

/-- A clock that is read once. -/
def Readings.once (now : Duration) : Readings := ⟨now, now, now⟩

/-- A document by a clock that goes on during the call. -/
def processBy (readings : Readings) (progress : Progress) (outlet : Outlet) : Answer Progress :=
  if progress.isDue readings.asked then
    let sent := outlet.send (.progress (progress.counted.update readings.made))
    if sent.2 then ⟨{ progress.counted with lastUpdate := readings.sent }, sent.1, none⟩
    else ⟨progress.counted, sent.1, some .receiverGone⟩
  else ⟨progress.counted, outlet, none⟩

theorem machine_process (now : Duration) (document : Document) :
    machine.process now document = processBy (.once now) := by
  funext progress outlet
  change process now progress outlet = _
  unfold process processBy
  by_cases hdue : progress.isDue now = true
  · refine (if_pos hdue).trans (Eq.trans ?_ (if_pos hdue).symm)
    rcases hsend : outlet.send (.progress (progress.counted.update now)) with ⟨next, accepted⟩
    dsimp only [counted, Readings.once] at hsend ⊢
    rw [hsend]
    cases accepted <;> rfl
  · exact (if_neg hdue).trans (if_neg hdue).symm

theorem processBy_of_open (readings : Readings) (progress : Progress) (sent : Array Entry) :
    processBy readings progress ⟨sent, none⟩ =
      if progress.isDue readings.asked then
        ⟨{ progress.counted with lastUpdate := readings.sent },
          ⟨sent.push (.progress (progress.counted.update readings.made)), none⟩, none⟩
      else ⟨progress.counted, ⟨sent, none⟩, none⟩ := rfl

/-- The answer after so many documents; at the first the clock shows `clock 1`. -/
def answerAfter (clock : ℕ → Readings) (progress : Progress) (outlet : Outlet) :
    ℕ → Answer Progress
  | 0 => ⟨progress, outlet, none⟩
  | n + 1 => (answerAfter clock progress outlet n).andThen (processBy (clock (n + 1)))

section Numbers

variable (every : ℕ) (interval started : Duration) (clock : ℕ → Readings)

/-- One of every so many documents. -/
def OnCount (number : ℕ) : Prop := 0 < every ∧ every ∣ number

/-- When the last update was sent if these documents were followed by one, or else the start. -/
def lastSent (numbers : List ℕ) : Duration :=
  numbers.getLast?.elim started fun number ↦ (clock number).sent

/-- The interval, if there is one, has passed since the last update. -/
def OnTime (earlier : List ℕ) (number : ℕ) : Prop :=
  interval ≠ .zero ∧
    interval.nanoseconds ≤
      ((clock number).asked.since (lastSent started clock earlier)).nanoseconds

instance (number : ℕ) : Decidable (OnCount every number) := inferInstanceAs (Decidable (_ ∧ _))

instance (earlier : List ℕ) (number : ℕ) :
    Decidable (OnTime interval started clock earlier number) :=
  inferInstanceAs (Decidable (_ ∧ _))

/-- The first documents that are followed by an update, by their numbers. -/
def updated : ℕ → List ℕ
  | 0 => []
  | n + 1 =>
    updated n ++
      if OnCount every (n + 1) ∨ OnTime interval started clock (updated n) (n + 1) then [n + 1]
      else []

variable {every interval started clock} {n number : ℕ}

theorem mem_updated_succ : number ∈ updated every interval started clock (n + 1) ↔
    number ∈ updated every interval started clock n ∨ number = n + 1 ∧
      (OnCount every (n + 1) ∨
        OnTime interval started clock (updated every interval started clock n) (n + 1)) := by
  rw [updated, List.mem_append]
  refine or_congr_right ?_
  split_ifs with hdue
  · rw [List.mem_singleton, and_iff_left hdue]
  · exact iff_of_false List.not_mem_nil fun h ↦ hdue h.2

theorem bounds_of_mem_updated (h : number ∈ updated every interval started clock n) :
    0 < number ∧ number ≤ n := by
  induction n with
  | zero => exact absurd h List.not_mem_nil
  | succ n ih =>
    rcases mem_updated_succ.mp h with hearlier | ⟨rfl, -⟩
    · exact ⟨(ih hearlier).1, Nat.le_succ_of_le (ih hearlier).2⟩
    · exact ⟨Nat.succ_pos n, le_rfl⟩

theorem pairwise_updated : (updated every interval started clock n).Pairwise (· < ·) := by
  induction n with
  | zero => exact .nil
  | succ n ih =>
    rw [updated]
    split_ifs
    · refine List.pairwise_append.mpr ⟨ih, List.pairwise_singleton _ _, ?_⟩
      intro earlier hearlier last hlast
      rw [List.mem_singleton.mp hlast]
      exact Nat.lt_succ_of_le (bounds_of_mem_updated hearlier).2
    · rwa [List.append_nil]

theorem succ_mem_updated_iff {m : ℕ} : m + 1 ∈ updated every interval started clock n ↔
    m < n ∧ (OnCount every (m + 1) ∨
      OnTime interval started clock (updated every interval started clock m) (m + 1)) := by
  induction n with
  | zero => exact iff_of_false List.not_mem_nil fun h ↦ absurd h.1 (Nat.not_lt_zero m)
  | succ n ih =>
    rw [mem_updated_succ, ih, Nat.lt_succ_iff_lt_or_eq, or_and_right]
    refine or_congr_right ?_
    rw [Nat.succ_inj]
    refine and_congr_right ?_
    rintro rfl
    exact Iff.rfl

/-- Later documents do not change which of the first are followed by an update. -/
theorem filter_updated {m : ℕ} (hle : m ≤ n) :
    (updated every interval started clock n).filter (· < m + 1) =
      updated every interval started clock m := by
  induction n, hle using Nat.le_induction with
  | base =>
    refine List.filter_eq_self.mpr fun number hnumber ↦ decide_eq_true ?_
    exact Nat.lt_succ_of_le (bounds_of_mem_updated hnumber).2
  | succ n hle ih =>
    have hlast : ¬ n + 1 < m + 1 := by omega
    rw [updated, List.filter_append, ih]
    split_ifs
    · rw [List.filter_singleton, decide_eq_false hlast]
      exact List.append_nil _
    · exact List.append_nil _

/-- Followed by an update are the documents on count, and those on time since the last one before
them that was. -/
theorem mem_updated_iff : number ∈ updated every interval started clock n ↔
    (0 < number ∧ number ≤ n) ∧ (OnCount every number ∨
      OnTime interval started clock
        ((updated every interval started clock n).filter (· < number)) number) := by
  cases number with
  | zero =>
    refine iff_of_false (fun h ↦ ?_) fun h ↦ absurd h.1.1 (lt_irrefl 0)
    exact absurd (bounds_of_mem_updated h).1 (lt_irrefl 0)
  | succ m =>
    rw [succ_mem_updated_iff, and_iff_right (Nat.succ_pos m)]
    refine and_congr_right fun hlt ↦ ?_
    rw [filter_updated hlt.le]

/-- The second and the fifth are on time, and neither puts off the one after it. -/
example : updated 3 ⟨2⟩ .zero (fun number ↦ .once ⟨number⟩) 6 = [2, 3, 5, 6] := by decide

/-- Without an interval only the count decides. -/
theorem updated_of_interval_zero :
    updated every .zero started clock n =
      (List.range' 1 n).filter fun number ↦ OnCount every number := by
  induction n with
  | zero => rfl
  | succ n ih =>
    have hcount : (OnCount every (n + 1) ∨ OnTime .zero started clock
        (updated every .zero started clock n) (n + 1)) ↔ OnCount every (n + 1) :=
      or_iff_left fun h ↦ h.1 rfl
    rw [updated, List.range'_1_concat, List.filter_append, ← ih, Nat.add_comm 1 n,
      List.filter_singleton]
    simp only [hcount, Bool.cond_decide]

end Numbers

section Run

variable (every : ℕ) (interval started : Duration) (clock : ℕ → Readings)
  (estimate : Option Estimate) (sent : Array Entry)

/-- The update that tells the number of a document. -/
def updateAt (number : ℕ) : Report.Progress :=
  .after number ((clock number).made.since started) estimate

/-- What the check holds after so many documents. -/
def stateAfter (n : ℕ) : Progress :=
  ⟨n, every, interval, started, lastSent started clock (updated every interval started clock n),
    estimate⟩

theorem isDue_stateAfter (n : ℕ) :
    (stateAfter every interval started clock estimate n).isDue (clock (n + 1)).asked = true ↔
      OnCount every (n + 1) ∨
        OnTime interval started clock (updated every interval started clock n) (n + 1) := by
  have hcount : (stateAfter every interval started clock estimate n).counted.dueByCount = true ↔
      OnCount every (n + 1) := by
    unfold dueByCount OnCount
    rw [Bool.and_eq_true, decide_eq_true_iff, decide_eq_true_iff, Nat.pos_iff_ne_zero,
      Nat.dvd_iff_mod_eq_zero]
    exact Iff.rfl
  have htime : (stateAfter every interval started clock estimate n).counted.dueByTime
      (clock (n + 1)).asked = true ↔
        OnTime interval started clock (updated every interval started clock n) (n + 1) := by
    unfold dueByTime OnTime
    rw [Bool.and_eq_true, decide_eq_true_iff, decide_eq_true_iff]
    exact Iff.rfl
  rw [isDue, Bool.or_eq_true, hcount, htime]

/-- After any documents the check has sent their updates. -/
theorem answerAfter_eq (n : ℕ) :
    answerAfter clock (.start started every interval estimate) ⟨sent, none⟩ n =
      ⟨stateAfter every interval started clock estimate n,
        ⟨sent ++ ((updated every interval started clock n).map fun number ↦
          .progress (updateAt started clock estimate number)).toArray, none⟩, none⟩ := by
  induction n with
  | zero => simp [answerAfter, stateAfter, updated, lastSent, start]
  | succ n ih =>
    -- The state after `n` documents decides on the next one as the schedule does.
    rw [answerAfter, ih]
    change processBy (clock (n + 1)) _ _ = _
    rw [processBy_of_open]
    by_cases hdue : OnCount every (n + 1) ∨
        OnTime interval started clock (updated every interval started clock n) (n + 1)
    · have hnext : updated every interval started clock (n + 1) =
          updated every interval started clock n ++ [n + 1] := by
        rw [updated, if_pos hdue]
      rw [if_pos ((isDue_stateAfter every interval started clock estimate n).mpr hdue), hnext,
        stateAfter, stateAfter, hnext, lastSent, lastSent, List.getLast?_concat]
      simp [counted, update, updateAt]
    · have hnext : updated every interval started clock (n + 1) =
          updated every interval started clock n := by
        rw [updated, if_neg hdue, List.append_nil]
      rw [if_neg (mt (isDue_stateAfter every interval started clock estimate n).mp hdue), hnext,
        stateAfter, stateAfter, hnext]
      rfl

theorem sent_answerAfter_succ (n : ℕ) :
    (answerAfter clock (.start started every interval estimate) ⟨sent, none⟩ (n + 1)).outlet.sent =
      (answerAfter clock (.start started every interval estimate) ⟨sent, none⟩ n).outlet.sent ++
        if OnCount every (n + 1) ∨
            OnTime interval started clock (updated every interval started clock n) (n + 1) then
          #[.progress (updateAt started clock estimate (n + 1))]
        else #[] := by
  rw [answerAfter_eq, answerAfter_eq, updated]
  split_ifs <;> simp

/-- The numbers of the documents that are followed by an update, among the first `n`: they grow,
and are all those on count, with those on time since the last of them before. -/
structure Schedule (n : ℕ) (numbers : List ℕ) : Prop where
  increasing : numbers.Pairwise (· < ·)
  mem_iff : ∀ number, number ∈ numbers ↔ (0 < number ∧ number ≤ n) ∧
    (OnCount every number ∨
      OnTime interval started clock (numbers.filter (· < number)) number)

theorem schedule_updated (n : ℕ) :
    Schedule every interval started clock n (updated every interval started clock n) :=
  ⟨pairwise_updated, fun _ ↦ mem_updated_iff⟩

/-- While the receiver stays no document fails, and the updates sent for the first `n` are those of
the documents on schedule, each sent at its document; the end sends one more, with all the
documents. Without an interval the schedule is the count. -/
theorem updates_cadence (n : ℕ) :
    let run := answerAfter clock (.start started every interval estimate) ⟨sent, none⟩
    ∃ numbers : List ℕ, Schedule every interval started clock n numbers ∧
      (interval = .zero →
        numbers = (List.range' 1 n).filter fun number ↦ OnCount every number) ∧
      (run n).failure = none ∧
      (run n).outlet = ⟨sent ++ (numbers.map fun number ↦
        .progress (updateAt started clock estimate number)).toArray, none⟩ ∧
      (∀ number, (updateAt started clock estimate number).processed = number) ∧
      (∀ m < n, (run (m + 1)).outlet.sent = (run m).outlet.sent ++
        if m + 1 ∈ numbers then #[.progress (updateAt started clock estimate (m + 1))] else #[]) ∧
      (∀ now, ∃ last : Report.Progress, last.processed = n ∧
        machine.finish now (run n).state (run n).outlet =
          ⟨(run n).state, ⟨(run n).outlet.sent.push (.progress last), none⟩, none⟩) ∧
      ∀ now document, machine.process now document = processBy (.once now) := by
  intro run
  have hrun : run n = _ := answerAfter_eq every interval started clock estimate sent n
  refine ⟨updated every interval started clock n, schedule_updated every interval started clock n,
    ?_, by rw [hrun], by rw [hrun], fun _ ↦ rfl, ?_, ?_, machine_process⟩
  · rintro rfl
    exact updated_of_interval_zero
  · intro m hm
    have hmem : m + 1 ∈ updated every interval started clock n ↔
        OnCount every (m + 1) ∨
          OnTime interval started clock (updated every interval started clock m) (m + 1) :=
      succ_mem_updated_iff.trans (and_iff_right hm)
    simp only [hmem]
    exact sent_answerAfter_succ every interval started clock estimate sent m
  · intro now
    refine ⟨(run n).state.update now, ?_, ?_⟩
    · rw [hrun]
      rfl
    · rw [hrun]
      rfl

end Run

end TreeAudit.Check.Progress
