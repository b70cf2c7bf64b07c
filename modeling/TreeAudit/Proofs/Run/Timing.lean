import TreeAudit.Proofs.Check.TrustedFlags
import TreeAudit.Proofs.Run.Stream
import Mathlib.Data.List.Forall2

/-!
What the clock changes in a report. Two runs of one request over the same documents, each with
its own clock, say the same as documents come in but for the times in their updates and for the
updates that are sent because time has passed (`forall₂_untimed_told`).

What they say at the end differs in times alone (`forall₂_conclusions`), unless the workers of the
orphan check take other turns and these show (`TurnsIndifferent`). Turns can show only where several
workers forget ids that are named as parents, by flags that are trusted and wrong, as they do in
`Orphan.verdict_hiddenLeaf`. Where they do not, the number of findings does not depend on the clock:
an update is none (`countP_isFinding_untimed`), and entries that differ in times are findings alike
(`Report.Entry.SameButTimes.countP_isFinding_eq`).
-/

set_option autoImplicit false
set_option relaxedAutoImplicit false

namespace TreeAudit

open Report Check

/-- The remaining time is told if it was asked for, if only as unknown. -/
theorem Report.Progress.remaining_after_eq_untracked_iff (processed : ℕ) (elapsed : Duration)
    (estimate : Option Estimate) :
    (Report.Progress.after processed elapsed estimate).remaining = .untracked ↔
      estimate = none := by
  have htold (projection : Estimate) : projection.remaining processed elapsed ≠ .untracked := by
    unfold Estimate.remaining
    split
    · split_ifs
      · exact nofun
      · split <;> exact nofun
    · exact nofun
  cases estimate with
  | none => exact ⟨fun _ ↦ rfl, fun _ ↦ rfl⟩
  | some projection => simp [after, htold]

namespace Report.Entry

/-- Entries that are alike, findings only with findings, hold as many findings. -/
theorem countP_isFinding_of_forall₂ {alike : Entry → Entry → Prop}
    (halike : ∀ {first second}, alike first second → first.isFinding = second.isFinding)
    {first second : List Entry} (h : List.Forall₂ alike first second) :
    first.countP isFinding = second.countP isFinding := by
  induction h with
  | nil => rfl
  | cons hentry _ ih => rw [List.countP_cons, List.countP_cons, ih, halike hentry]

/-- To leave out what is no finding does not change how many there are. -/
theorem countP_isFinding_filter {keeps : Entry → Bool}
    (hkeeps : ∀ entry, entry.isFinding = true → keeps entry = true) (entries : List Entry) :
    (entries.filter keeps).countP isFinding = entries.countP isFinding := by
  rw [List.countP_filter]
  refine List.countP_congr fun entry _ ↦ ?_
  rw [Bool.and_eq_true]
  exact ⟨And.left, fun hfinding ↦ ⟨hfinding, hkeeps entry hfinding⟩⟩

end Report.Entry

/-- Entries that differ at most in the times they tell. -/
inductive Report.Entry.SameButTimes : Entry → Entry → Prop
  | same (entry : Entry) : SameButTimes entry entry
  | update {first second : Report.Progress} (hprocessed : first.processed = second.processed)
      (hfraction : first.fraction = second.fraction)
      (htracked : first.remaining = .untracked ↔ second.remaining = .untracked) :
      SameButTimes (.progress first) (.progress second)
  | total (documents : ℕ) (first second : Duration) :
      SameButTimes
        (.status ("summary total documents=" ++ toString documents ++ " elapsed=" ++ first.text))
        (.status ("summary total documents=" ++ toString documents ++ " elapsed=" ++ second.text))

namespace Report.Entry.SameButTimes

theorem countP_isFinding_eq {first second : List Entry}
    (h : List.Forall₂ SameButTimes first second) :
    first.countP isFinding = second.countP isFinding :=
  countP_isFinding_of_forall₂ (fun halike ↦ by cases halike <;> rfl) h

theorem after (processed : ℕ) (first second : Duration) (estimate : Option Estimate) :
    SameButTimes (.progress (.after processed first estimate))
      (.progress (.after processed second estimate)) := by
  refine .update rfl rfl ?_
  rw [Report.Progress.remaining_after_eq_untracked_iff,
    Report.Progress.remaining_after_eq_untracked_iff]

end Report.Entry.SameButTimes

open Report.Entry (SameButTimes)

/-- After so many documents a progress check differs from what it was in their number and in when
it last sent an update. -/
theorem Check.Progress.exists_reached_eq (now : ℕ → Duration) (progress : Check.Progress) (n : ℕ) :
    ∃ lastUpdate, progress.reached now n =
      { progress with processed := progress.processed + n, lastUpdate := lastUpdate } := by
  induction n with
  | zero => exact ⟨progress.lastUpdate, rfl⟩
  | succ n ih =>
    obtain ⟨lastUpdate, hreached⟩ := ih
    rw [reached, hreached, advance]
    split_ifs
    · exact ⟨now n, rfl⟩
    · exact ⟨lastUpdate, rfl⟩

namespace Run

/-- An update that is sent because time has passed, and not due by the count of documents. -/
def isTimed (config : Config) : Entry → Bool
  | .progress update =>
    config.progressInterval ≠ .zero &&
      !(config.progressEveryDocuments ≠ 0 &&
        update.processed % config.progressEveryDocuments = 0)
  | _ => false

/-- The entries without the updates that are sent because time has passed. -/
def untimed (config : Config) (entries : List Entry) : List Entry :=
  entries.filter fun entry ↦ !isTimed config entry

theorem untimed_append (config : Config) (first second : List Entry) :
    untimed config (first ++ second) = untimed config first ++ untimed config second :=
  List.filter_append first second

/-- An update counts as no finding, so leaving some out does not change how many there are. -/
theorem countP_isFinding_untimed (config : Config) (entries : List Entry) :
    (untimed config entries).countP Entry.isFinding = entries.countP Entry.isFinding := by
  refine Entry.countP_isFinding_filter (fun entry hfinding ↦ ?_) entries
  cases entry <;> first | rfl | cases hfinding

/-- What is left of what a progress check says is what is due by the count. -/
theorem untimed_remark {config : Config} {progress : Check.Progress}
    (hevery : progress.everyDocuments = config.progressEveryDocuments)
    (hinterval : progress.interval = config.progressInterval) (now : Duration) :
    untimed config (progress.remark now) =
      if progress.counted.dueByCount then [.progress (progress.counted.update now)] else [] := by
  have htimed : isTimed config (.progress (progress.counted.update now)) =
      (decide (progress.interval ≠ .zero) && !progress.counted.dueByCount) := by
    rw [hinterval]
    unfold isTimed Progress.dueByCount
    rw [← hevery]
    rfl
  unfold Progress.remark Progress.isDue
  -- an update due by the count is kept whatever the time, and any other is due by the time alone
  cases hcount : progress.counted.dueByCount with
  | true => simp [untimed, htimed, hcount]
  | false =>
    cases htime : progress.counted.dueByTime now with
    | false => simp [untimed]
    | true =>
      have hon : progress.interval ≠ .zero := by
        intro hoff
        simp [Progress.dueByTime, Progress.counted, hoff] at htime
      simp [untimed, htimed, hcount, hon]

/-- Parts that are alike one by one are alike together. -/
theorem forall₂_flatMap {ι : Type} {alike : Entry → Entry → Prop} {first second : ι → List Entry}
    {items : List ι} (h : ∀ item ∈ items, List.Forall₂ alike (first item) (second item)) :
    List.Forall₂ alike (items.flatMap first) (items.flatMap second) := by
  have hitems : List.Forall₂ (fun item item' ↦ item = item' ∧ item ∈ items) items items :=
    List.forall₂_same.mpr fun _ hitem ↦ ⟨rfl, hitem⟩
  refine List.rel_flatMap hitems ?_
  rintro item _ ⟨rfl, hitem⟩
  exact h item hitem

theorem orphan_mem_kinds {selection : Selection} (h : .orphan ∈ selection.kinds) :
    selection.orphan = true := by
  unfold Selection.kinds at h
  split_ifs at h <;> simp_all

/-- How the workers of the orphan check take turns by the two clocks does not show: there is no
such check, their turns are the same, there is one worker at most, the flags are not trusted, or no
node that is said to have no children is named as a parent. -/
def TurnsIndifferent (request : Request) (documents : List Document) (clock clock' : Clock) :
    Prop :=
  request.selection.orphan = false ∨ clock'.chance.turn = clock.chance.turn ∨
    request.selection.workers ≤ 1 ∨ request.config.trustChildrenFlag = false ∨
    Orphan.FlagsAccurate request.config.root documents

theorem TurnsIndifferent.verdict_eq {request : Request} {documents : List Document}
    {clock clock' : Clock} (h : TurnsIndifferent request documents clock clock')
    (horphan : request.selection.orphan = true) :
    (orphanAfter clock request documents).verdict =
      (orphanAfter clock' request documents).verdict := by
  refine Orphan.verdict_eq_of_interchangeable ?_
  rcases h with hnone | hturn | halone | htrust | haccurate
  · exact absurd (horphan.symm.trans hnone) nofun
  · exact .inl (congrArg (fun turn ↦ (⟨request.selection.workers,
      request.config.orphanQueueCapacity, ⟨clock'.chance.hash, turn⟩⟩ : Reachability.Staff)) hturn)
  · exact .inr (.inl ⟨halone, halone⟩)
  · rw [htrust]
    exact .inr (.inr Orphan.accurate_edges_of_not_trust)
  · exact .inr (.inr haccurate.accurate_edges)

section Clocks

variable (clock clock' : Clock) (request : Request) (total : Option ℕ)

/-- The count of documents says, up to times, the same by every clock. -/
theorem exists_progressAfter_eq (n : ℕ) :
    ∃ lastUpdate, progressAfter clock request total n =
      ⟨n, request.config.progressEveryDocuments, request.config.progressInterval, clock.start,
        lastUpdate, request.selection.estimate total⟩ := by
  obtain ⟨lastUpdate, hreached⟩ := Progress.exists_reached_eq clock.document
    (.start clock.start request.config.progressEveryDocuments request.config.progressInterval
      (request.selection.estimate total)) n
  rw [progressAfter, hreached]
  exact ⟨lastUpdate, by simp [Progress.start]⟩

theorem forall₂_untimed_remarks (met : List Document) (document : Document)
    (kind : Builtin.Kind) :
    List.Forall₂ SameButTimes
      (untimed request.config (remarks clock request total met document kind))
      (untimed request.config (remarks clock' request total met document kind)) := by
  cases kind with
  | summary => exact .nil
  | orphan => exact List.forall₂_same.mpr fun entry _ ↦ .same entry
  | progress =>
    obtain ⟨last, hafter⟩ := exists_progressAfter_eq clock request total met.length
    obtain ⟨last', hafter'⟩ := exists_progressAfter_eq clock' request total met.length
    have hdue : (progressAfter clock request total met.length).counted.dueByCount =
        (progressAfter clock' request total met.length).counted.dueByCount := by
      rw [hafter, hafter']
      rfl
    have hupdate : SameButTimes
        (.progress ((progressAfter clock request total met.length).counted.update
          (clock.document met.length)))
        (.progress ((progressAfter clock' request total met.length).counted.update
          (clock'.document met.length))) := by
      rw [hafter, hafter']
      exact .after _ _ _ _
    rw [remarks, remarks, untimed_remark (by rw [hafter]) (by rw [hafter]),
      untimed_remark (by rw [hafter']) (by rw [hafter']), hdue]
    split_ifs
    · exact .cons hupdate .nil
    · exact .nil

/-- What is said as documents come in does not hang on the clock, but for times and for updates
sent because time has passed. -/
theorem forall₂_untimed_told (met documents : List Document) :
    List.Forall₂ SameButTimes
      (untimed request.config ((course clock request total).told met documents))
      (untimed request.config ((course clock' request total).told met documents)) := by
  induction documents generalizing met with
  | nil => exact .nil
  | cons document rest ih =>
    rw [Course.told, Course.told, untimed_append, untimed_append]
    refine List.rel_append ?_ (ih (met ++ [document]))
    dsimp only [course]
    rw [untimed, untimed, List.filter_flatMap, List.filter_flatMap]
    exact forall₂_flatMap fun kind _ ↦
      forall₂_untimed_remarks clock clock' request total met document kind

variable {clock clock' request}

/-- What is said at the end does not hang on the clock, but for times. -/
theorem forall₂_conclusions {documents : List Document}
    (hturns : TurnsIndifferent request documents clock clock') :
    List.Forall₂ SameButTimes ((course clock request total).conclusions documents)
      ((course clock' request total).conclusions documents) := by
  refine forall₂_flatMap fun kind hkind ↦ ?_
  cases kind with
  | summary =>
    simp only [conclusions, Summary.account, List.map_append]
    refine List.rel_append (List.forall₂_same.mpr fun entry _ ↦ .same entry) ?_
    exact .cons (.total _ _ _) .nil
  | progress =>
    obtain ⟨last, hafter⟩ := exists_progressAfter_eq clock request total documents.length
    obtain ⟨last', hafter'⟩ := exists_progressAfter_eq clock' request total documents.length
    rw [conclusions, conclusions, hafter, hafter']
    exact .cons (.after _ _ _ _) .nil
  | orphan =>
    rw [conclusions, conclusions, hturns.verdict_eq (orphan_mem_kinds hkind)]
    exact List.forall₂_same.mpr fun entry _ ↦ .same entry

end Clocks

end Run

end TreeAudit
