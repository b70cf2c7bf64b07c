import TreeAudit.Proofs.Output.Independence
import TreeAudit.Proofs.Run.Accounts
import TreeAudit.Proofs.Run.Timing

/-!
Progress updates are advice. Two runs over the same documents that differ in whether and when they
report progress, in their clocks and in what the store estimates, say the same apart from updates
and elapsed times (`forall₂_plain_stream`): no other check looks at what the updates are made from,
as the parts that are left of the stream show (`plain_told`, `plain_conclusions`). The turns that
the workers of the orphan check take are no part of this, and must be the same or not show. So sinks
that do not fail leave the runs the same result (`run_advisory`). The estimate alone does not decide
whether an update is sent either (`reached_estimating`), only what is projected in it
(`forall₂_stream_estimate`).
-/

set_option autoImplicit false
set_option relaxedAutoImplicit false

namespace TreeAudit

open Report Check

namespace Report.Entry

def isProgress : Entry → Bool
  | .progress _ => true
  | _ => false

/-- Entries that differ at most in the elapsed time that a status line tells. -/
inductive SameButElapsed : Entry → Entry → Prop
  | same (entry : Entry) : SameButElapsed entry entry
  | total (documents : ℕ) (first second : Duration) :
      SameButElapsed
        (.status ("summary total documents=" ++ toString documents ++ " elapsed=" ++ first.text))
        (.status ("summary total documents=" ++ toString documents ++ " elapsed=" ++ second.text))
  | outcome (outcome : Run.Outcome) (documents : ℕ) (first second : Duration) :
      SameButElapsed (.status (Run.lastLine outcome documents first))
        (.status (Run.lastLine outcome documents second))

/-- Entries that differ at most in the share done and the remaining time of an update. -/
inductive SameButProjection : Entry → Entry → Prop
  | same (entry : Entry) : SameButProjection entry entry
  | update {first second : Report.Progress} (hprocessed : first.processed = second.processed)
      (helapsed : first.elapsed = second.elapsed)
      (htracked : first.remaining = .untracked ↔ second.remaining = .untracked) :
      SameButProjection (.progress first) (.progress second)

theorem SameButElapsed.countP_isFinding_eq {first second : List Entry}
    (h : List.Forall₂ SameButElapsed first second) :
    first.countP isFinding = second.countP isFinding :=
  countP_isFinding_of_forall₂ (fun halike ↦ by cases halike <;> rfl) h

end Report.Entry

open Report.Entry (SameButElapsed SameButProjection)

/-- A progress check with another estimate. -/
def Check.Progress.estimating (estimate : Option Estimate) (progress : Check.Progress) :
    Check.Progress :=
  { progress with estimate := estimate }

namespace Check.Progress

variable (estimate : Option Estimate) (progress : Check.Progress)

theorem advance_estimating (now : Duration) :
    (progress.estimating estimate).advance now = (progress.advance now).estimating estimate := by
  have hdue : (progress.estimating estimate).isDue now = progress.isDue now := rfl
  rw [advance, advance, hdue]
  split_ifs <;> rfl

/-- When updates are sent does not hang on the estimate. -/
theorem reached_estimating (now : ℕ → Duration) (n : ℕ) :
    (progress.estimating estimate).reached now n =
      (progress.reached now n).estimating estimate := by
  induction n with
  | zero => rfl
  | succ n ih => rw [reached, reached, ih, advance_estimating]

/-- Another estimate changes what is projected, but not whether it is told. -/
theorem sameButProjection_update (now : Duration)
    (hestimate : estimate = none ↔ progress.estimate = none) :
    SameButProjection (.progress (progress.update now))
      (.progress ((progress.estimating estimate).update now)) := by
  refine .update rfl rfl ?_
  rw [update, update, Report.Progress.remaining_after_eq_untracked_iff,
    Report.Progress.remaining_after_eq_untracked_iff]
  exact hestimate.symm

end Check.Progress

/-- The sink takes entries without a failure, and closes without one. -/
def Output.Sink.Faultless {σ : Type} (sink : Output.Sink σ) (entries : List Entry) (state : σ) :
    Prop :=
  sink.Survives entries state ∧ sink.faults entries state = 0

/-- A sink that never fails takes any entries. -/
theorem Output.Sink.faultless_of_done {σ : Type} {sink : Output.Sink σ}
    (hwrite : ∀ entry state, (sink.write entry state).2 = .done)
    (hclose : ∀ state, (sink.close state).2 = true) (entries : List Entry) (state : σ) :
    sink.Faultless entries state := by
  induction entries generalizing state with
  | nil => exact ⟨trivial, by simp [faults, failures, closeFailures, hclose]⟩
  | cons entry rest ih =>
    obtain ⟨hsurvives, hfaults⟩ := ih (sink.write entry state).1
    refine ⟨⟨by rw [hwrite]; decide, hsurvives⟩, ?_⟩
    rw [faults, failures, hwrite, if_neg (by decide), Nat.zero_add]
    exact hfaults

namespace Run

/-- A request for the same, with progress reported or not, and projected or not, after other
numbers of documents and seconds. -/
def Request.paced (request : Request) (progress eta : Bool) (everyDocuments seconds : ℕ) : Request
    where
  config := { request.config with
    progressEveryDocuments := everyDocuments
    progressIntervalSeconds := seconds }
  selection := { request.selection with progress := progress, eta := eta }

/-- The entries without progress updates. -/
def plain (entries : List Entry) : List Entry := entries.filter fun entry ↦ !entry.isProgress

theorem plain_append (first second : List Entry) :
    plain (first ++ second) = plain first ++ plain second :=
  List.filter_append first second

theorem plain_eq_self {entries : List Entry} (h : ∀ entry ∈ entries, entry.isProgress = false) :
    plain entries = entries :=
  List.filter_eq_self.mpr fun entry hentry ↦ by rw [h entry hentry]; rfl

/-- An update is no finding. -/
theorem countP_isFinding_plain (entries : List Entry) :
    (plain entries).countP Entry.isFinding = entries.countP Entry.isFinding := by
  refine Entry.countP_isFinding_filter (fun entry hfinding ↦ ?_) entries
  cases entry <;> first | rfl | cases hfinding

/-- What the checks selected say without updates, the progress check saying nothing else. -/
theorem plain_flatMap_kinds (selection : Selection) {say : Builtin.Kind → List Entry}
    (hsay : plain (say .progress) = []) :
    plain (selection.kinds.flatMap say) =
      (if selection.summary then plain (say .summary) else []) ++
        if selection.orphan then plain (say .orphan) else [] := by
  have hnone : plain [] = [] := rfl
  unfold Selection.kinds
  split_ifs <;> simp [plain_append, hsay, hnone]

section Stream

variable (clock : Clock) (request : Request) (total : Option ℕ)

/-- As documents come in, only nodes without a parent are told of otherwise. -/
theorem plain_told (met documents : List Document) :
    plain ((course clock request total).told met documents) =
      if request.selection.orphan then Orphan.notices request.config.root documents else [] := by
  induction documents generalizing met with
  | nil => exact (ite_self _).symm
  | cons document rest ih =>
    have hprogress : plain (remarks clock request total met document .progress) = [] := by
      rw [remarks, Progress.remark]
      split_ifs <;> rfl
    have horphan : plain (remarks clock request total met document .orphan) =
        Orphan.notices request.config.root [document] :=
      plain_eq_self fun _ hentry ↦ by
        obtain ⟨_, -, rfl⟩ := List.mem_map.mp hentry
        rfl
    rw [Course.told, plain_append, ih]
    dsimp only [course]
    rw [plain_flatMap_kinds _ hprogress, horphan, Orphan.notices_cons _ document rest]
    split_ifs <;> rfl

/-- The other conclusions are those of the other checks. -/
theorem plain_conclusions (documents : List Document) :
    plain ((course clock request total).conclusions documents) =
      (if request.selection.summary then
        (Summary.account documents (clock.scanned.since clock.start)).map .status
      else []) ++
        if request.selection.orphan then (orphanAfter clock request documents).verdict else [] := by
  have hsummary : plain (conclusions clock request total documents .summary) =
      conclusions clock request total documents .summary :=
    plain_eq_self fun _ hentry ↦ by
      obtain ⟨_, -, rfl⟩ := List.mem_map.mp hentry
      rfl
  have horphan : plain (conclusions clock request total documents .orphan) =
      conclusions clock request total documents .orphan :=
    plain_eq_self fun entry hentry ↦ by
      cases entry <;> simp [conclusions, Orphan.verdict, Entry.isProgress] at hentry ⊢
  dsimp only [course]
  rw [plain_flatMap_kinds _ rfl, hsummary, horphan]
  rfl

end Stream

section Advice

variable (clock clock' : Clock) (request : Request) (total total' : Option ℕ) (store : Store)
  (documents : List Document)

/-- The lines of the summary differ in the time that the last of them tells. -/
theorem forall₂_account (elapsed elapsed' : Duration) :
    List.Forall₂ SameButElapsed ((Summary.account documents elapsed).map .status)
      ((Summary.account documents elapsed').map .status) := by
  simp only [Summary.account, List.map_append]
  refine List.rel_append (List.forall₂_same.mpr fun entry _ ↦ .same entry) ?_
  exact .cons (.total _ _ _) .nil

/-- Without updates, all that differs in the streams of two runs are elapsed times. -/
theorem forall₂_plain_stream (hturns : TurnsIndifferent request documents clock clock')
    (progress eta : Bool) (everyDocuments seconds : ℕ) (ended : Except Error Outcome) :
    let request' := request.paced progress eta everyDocuments seconds
    List.Forall₂ SameButElapsed
      (plain ((course clock request total).stream request.config store documents ended))
      (plain ((course clock' request' total').stream request'.config store documents ended)) := by
  intro request'
  have hsame (entries : List Entry) : List.Forall₂ SameButElapsed entries entries :=
    List.forall₂_same.mpr fun entry _ ↦ .same entry
  have htold : plain ((course clock request total).told [] documents) =
      plain ((course clock' request' total').told [] documents) := by
    rw [plain_told, plain_told]
    rfl
  have hstream {entries entries' : List Entry}
      (h : List.Forall₂ SameButElapsed (plain entries) (plain entries')) :
      List.Forall₂ SameButElapsed
        (plain (.status (firstLine request.config store.name) ::
          ((course clock request total).told [] documents ++ entries)))
        (plain (.status (firstLine request'.config store.name) ::
          ((course clock' request' total').told [] documents ++ entries'))) := by
    refine .cons (.same _) ?_
    rw [← plain, ← plain, plain_append, plain_append, htold]
    exact List.rel_append (hsame _) h
  cases ended with
  | error error => exact hstream (hsame _)
  | ok outcome =>
    apply hstream
    have horphan : (if request.selection.orphan then (orphanAfter clock request documents).verdict
          else []) =
        if request'.selection.orphan then (orphanAfter clock' request' documents).verdict
          else [] := by
      change _ = if request.selection.orphan then (orphanAfter clock' request documents).verdict
        else []
      split_ifs with hselected
      · exact hturns.verdict_eq hselected
      · rfl
    simp only [Course.ending, plain_append, plain_conclusions, ← horphan]
    refine List.rel_append (List.rel_append ?_ (hsame _)) (.cons (.outcome _ _ _ _) .nil)
    change List.Forall₂ SameButElapsed (if request.selection.summary then _ else _)
      (if request.selection.summary then _ else _)
    split_ifs
    · exact forall₂_account documents _ _
    · exact .nil

theorem progressAfter_estimate (n : ℕ) :
    progressAfter clock request total' n =
      (progressAfter clock request total n).estimating (request.selection.estimate total') :=
  Progress.reached_estimating (request.selection.estimate total')
    (.start clock.start request.config.progressEveryDocuments request.config.progressInterval
      (request.selection.estimate total)) clock.document n

theorem estimate_eq_none_iff (n : ℕ) : request.selection.estimate total' = none ↔
    (progressAfter clock request total n).estimate = none := by
  obtain ⟨_, hafter⟩ := exists_progressAfter_eq clock request total n
  rw [hafter]
  unfold Selection.estimate
  split_ifs <;> simp

/-- By one clock, all that differs for another estimate is what is projected from it. -/
theorem forall₂_stream_estimate (ended : Except Error Outcome) :
    List.Forall₂ SameButProjection
      ((course clock request total).stream request.config store documents ended)
      ((course clock request total').stream request.config store documents ended) := by
  have hsame (entries : List Entry) : List.Forall₂ SameButProjection entries entries :=
    List.forall₂_same.mpr fun entry _ ↦ .same entry
  have htold (met : List Document) : List.Forall₂ SameButProjection
      ((course clock request total).told met documents)
      ((course clock request total').told met documents) := by
    induction documents generalizing met with
    | nil => exact .nil
    | cons document rest ih =>
      refine List.rel_append (forall₂_flatMap fun kind _ ↦ ?_) (ih (met ++ [document]))
      cases kind with
      | summary => exact .nil
      | orphan => exact hsame _
      | progress =>
        have hestimate := estimate_eq_none_iff clock request total total' met.length
        rw [remarks, remarks, progressAfter_estimate clock request total total', Progress.remark]
        change List.Forall₂ _ _ (if (progressAfter clock request total met.length).isDue
          (clock.document met.length) then _ else _)
        split_ifs
        · exact .cons (Progress.sameButProjection_update _ _ _ hestimate) .nil
        · exact .nil
  have hconclusions : List.Forall₂ SameButProjection
      ((course clock request total).conclusions documents)
      ((course clock request total').conclusions documents) := by
    refine forall₂_flatMap fun kind _ ↦ ?_
    cases kind with
    | summary => exact hsame _
    | orphan => exact hsame _
    | progress =>
      have hestimate := estimate_eq_none_iff clock request total total' documents.length
      rw [conclusions, conclusions, progressAfter_estimate clock request total total']
      exact .cons (Progress.sameButProjection_update _ _ _ hestimate) .nil
  refine .cons (.same _) (List.rel_append (htold []) ?_)
  cases ended with
  | error error => exact hsame _
  | ok outcome => exact List.rel_append hconclusions (hsame _)

end Advice

/-- A scan does not look at what the store estimates. -/
theorem Ends.estimating {store : Store} {stopped : ℕ → Bool} {documents : List Document}
    {ended : Except Error Outcome} (h : Ends store stopped documents ended)
    (estimate : Option ℕ) :
    Ends { store with estimate := estimate } stopped documents ended := by
  cases h with
  | notStarted hscan => exact .notStarted hscan
  | completed hscan hgoes => exact .completed hscan hgoes
  | cancelled hscan hgoes hstops => exact .cancelled hscan hgoes hstops
  | interrupted hscan hgoes => exact .interrupted hscan hgoes

/-- What a run has for its sinks. -/
def delivered (clock : Clock) (stopped : ℕ → Bool) (request : Request) (store : Store) :
    List Entry :=
  Output.Writer.upToClosing (entries clock stopped request store).1

section Results

variable {clock : Clock} {stopped : ℕ → Bool} {request : Request} {store : Store}
  {documents : List Document} {ended : Except Error Outcome}
  (hends : Ends store stopped documents ended)
include hends

theorem delivered_eq :
    delivered clock stopped request store =
      (course clock request store.estimate).stream request.config store documents ended := by
  obtain ⟨documents, ended, hends', hentries⟩ := entries_eq clock request stopped store
  obtain ⟨rfl, rfl⟩ := hends.unique hends'
  rw [delivered, hentries]
  exact Output.Writer.upToClosing_append
    (closing_notMem_stream clock request store.estimate store _ _) []

/-- Sinks without a failure are given the whole stream, and the result tells what the scan came
to. -/
theorem run_of_faultless (hvalid : request.selection.fault? = none) {τ : Type}
    {sink : Output.Sink τ} {sinks : List τ}
    (hsinks : ∀ state ∈ sinks, sink.Faultless (delivered clock stopped request store) state) :
    run sink clock stopped request store sinks =
      ⟨sinks.map (sink.served (delivered clock stopped request store)),
        ended.map fun outcome ↦ ⟨outcome, documents.length,
          (delivered clock stopped request store).countP Entry.isFinding, 0⟩⟩ := by
  obtain ⟨documents, ended, hends', hentries⟩ := entries_eq clock request stopped store
  obtain ⟨rfl, rfl⟩ := hends.unique hends'
  have hfaults : (sinks.map (sink.faults (delivered clock stopped request store))).sum = 0 := by
    refine List.sum_eq_zero fun count hcount ↦ ?_
    obtain ⟨state, hstate, rfl⟩ := List.mem_map.mp hcount
    exact (hsinks state hstate).2
  have hwrite := Output.Writer.write_of_survives sinks (entries clock stopped request store).1
    fun state hstate ↦ (hsinks state hstate).1
  rw [← delivered, hfaults] at hwrite
  rw [run, hvalid]
  dsimp only
  rw [hwrite, hentries]
  cases ended <;> rfl

end Results

end Run

end TreeAudit
