import TreeAudit.Proofs.Check.Builtins
import TreeAudit.Proofs.Check.OrphanReport
import TreeAudit.Proofs.Output.Delivery
import TreeAudit.Proofs.Run.Course

/-!
What a run reports. The checks selected say something about each document and come to
conclusions at the end (`course`), and every sink that does not crash is given the same
entries: the header, what was said about the documents that were taken, and then the
conclusions and the outcome, or if the scan failed the reason for that and no conclusions
(`run_eq`). As long as documents come in nothing is said but how far the scan is and which
nodes have no parent.
-/

set_option autoImplicit false
set_option relaxedAutoImplicit false

namespace TreeAudit

open Report Check

/-- The checks a run can be asked for. -/
inductive Check.Builtin.Kind where
  | summary
  | progress
  | orphan

/-- The checks selected, in their order. -/
def Check.Selection.kinds (selection : Selection) : List Builtin.Kind :=
  (if selection.summary then [.summary] else []) ++
    (if selection.progress then [.progress] else []) ++
    if selection.orphan then [.orphan] else []

namespace Run

section Checks

variable (clock : Clock) (request : Request) (total : Option ℕ)

/-- The count of documents after so many. -/
def progressAfter : ℕ → Check.Progress :=
  Progress.reached clock.document (.start clock.start request.config.progressEveryDocuments
    request.config.progressInterval (request.selection.estimate total))

/-- What the orphan check holds after documents. -/
def orphanAfter (documents : List Document) : Orphan :=
  .entered request.config.root request.config.trustChildrenFlag
    (request.selection.staff request.config clock.chance) documents

/-- What a check holds after documents. -/
def held (documents : List Document) : Builtin.Kind → Builtin
  | .summary => .summary (.ofDocuments clock.start documents)
  | .progress => .progress (progressAfter clock request total documents.length)
  | .orphan => .orphan (orphanAfter clock request documents)

/-- What a check says about a document that comes after others. -/
def remarks (met : List Document) (document : Document) : Builtin.Kind → List Entry
  | .summary => []
  | .progress =>
    (progressAfter clock request total met.length).remark (clock.document met.length)
  | .orphan => Orphan.notices request.config.root [document]

/-- What a check says at the end. -/
def conclusions (documents : List Document) : Builtin.Kind → List Entry
  | .summary => (Summary.account documents (clock.scanned.since clock.start)).map .status
  | .progress =>
    [.progress ((progressAfter clock request total documents.length).update clock.scanned)]
  | .orphan => (orphanAfter clock request documents).verdict

/-- What a check holds when it has said that. -/
def closed (documents : List Document) : Builtin.Kind → Builtin
  | .summary => held clock request total documents .summary
  | .progress => held clock request total documents .progress
  | .orphan => .orphan (orphanAfter clock request documents).closed

theorem offers_process (met : List Document) (document : Document) (kind : Builtin.Kind) :
    Offers (Builtin.machine.process (clock.document met.length) document
        (held clock request total met kind))
      (held clock request total (met ++ [document]) kind)
      (remarks clock request total met document kind) := by
  cases kind with
  | summary =>
    rw [held, held, Summary.ofDocuments_concat]
    exact (Summary.offers_process _ document _).map Builtin.summary
  | progress =>
    rw [held, held, List.length_append, List.length_singleton]
    exact (Progress.offers_process _ document _).map Builtin.progress
  | orphan => exact (Orphan.offers_process _ _ _ _ met document).map Builtin.orphan

theorem offers_finish (documents : List Document) (kind : Builtin.Kind) :
    Offers (Builtin.machine.finish clock.scanned (held clock request total documents kind))
      (closed clock request total documents kind)
      (conclusions clock request total documents kind) := by
  cases kind with
  | summary => exact (Summary.offers_finish _ _ documents).map Builtin.summary
  | progress => exact (Progress.offers_finish _ _).map Builtin.progress
  | orphan => exact (Orphan.offers_finish _ _).map Builtin.orphan

theorem tells_process (met : List Document) (document : Document) (kind : Builtin.Kind) :
    Tells (Builtin.machine.process (clock.document met.length) document
        (held clock request total met kind))
      (held clock request total (met ++ [document]) kind)
      (remarks clock request total met document kind) none :=
  (offers_process clock request total met document kind).tells

theorem tells_finish (documents : List Document) (kind : Builtin.Kind) :
    Tells (Builtin.machine.finish clock.scanned (held clock request total documents kind))
      (closed clock request total documents kind)
      (conclusions clock request total documents kind) none :=
  (offers_finish clock request total documents kind).tells

/-- The checks selected, run as one. -/
def course : Course (Composite.machineOf Builtin.machine) clock where
  held documents := .group (request.selection.kinds.map fun kind ↦
    .single (held clock request total documents kind))
  remarks met document :=
    request.selection.kinds.flatMap fun kind ↦ remarks clock request total met document kind
  process_tells met document := by
    have hgroup := Composite.tells_process_group
      (fun kind (_ : kind ∈ request.selection.kinds) ↦ Composite.tells_process_single
        (tells_process clock request total met document kind)) fun _ _ ↦ nofun
    simp only [reported_none] at hgroup
    exact hgroup
  closed documents := .group (request.selection.kinds.map fun kind ↦
    .single (closed clock request total documents kind))
  conclusions documents :=
    request.selection.kinds.flatMap fun kind ↦ conclusions clock request total documents kind
  finish_tells documents := by
    have hgroup := Composite.tells_finish_group
      (fun kind (_ : kind ∈ request.selection.kinds) ↦ Composite.tells_finish_single
        (tells_finish clock request total documents kind)) fun _ _ ↦ nofun
    simp only [reported_none] at hgroup
    exact hgroup

theorem builtins_eq_held :
    request.selection.builtins request.config total clock.start clock.chance =
      request.selection.kinds.map (held clock request total []) := by
  simp only [Selection.builtins, Selection.kinds, List.map_append, apply_ite (List.map _)]
  rfl

theorem composite_eq_held :
    request.selection.composite request.config total clock.start clock.chance =
      (course clock request total).held [] := by
  rw [Selection.composite, builtins_eq_held, List.map_map]
  rfl

end Checks

/-- What is said while documents come in: how far the scan is, or that a node has no parent. -/
def IsRemark (entry : Entry) : Prop :=
  (∃ update, entry = .progress update) ∨ ∃ id, entry = .finding (Orphan.notice id)

variable (clock : Clock) (request : Request) (total : Option ℕ)

theorem isRemark_of_mem_remarks {met : List Document} {document : Document} {kind : Builtin.Kind}
    {entry : Entry} (h : entry ∈ remarks clock request total met document kind) :
    IsRemark entry := by
  cases kind with
  | summary => exact absurd h List.not_mem_nil
  | progress =>
    rw [remarks, Progress.remark] at h
    split_ifs at h
    · exact .inl ⟨_, List.mem_singleton.mp h⟩
    · exact absurd h List.not_mem_nil
  | orphan =>
    obtain ⟨id, -, rfl⟩ := List.mem_map.mp h
    exact .inr ⟨id, rfl⟩

theorem isRemark_of_mem_told {met documents : List Document} {entry : Entry}
    (h : entry ∈ (course clock request total).told met documents) : IsRemark entry := by
  induction documents generalizing met with
  | nil => exact absurd h List.not_mem_nil
  | cons document rest ih =>
    rcases List.mem_append.mp h with hremark | hrest
    · obtain ⟨kind, -, hkind⟩ := List.mem_flatMap.mp hremark
      exact isRemark_of_mem_remarks clock request total hkind
    · exact ih hrest

theorem closing_notMem_conclusions (documents : List Document) (kind : Builtin.Kind) :
    .closing ∉ conclusions clock request total documents kind := by
  cases kind <;> simp [conclusions, Orphan.verdict]

theorem closing_notMem_stream (store : Store) (documents : List Document)
    (ended : Except Error Outcome) :
    .closing ∉ (course clock request total).stream request.config store documents ended := by
  have htold : .closing ∉ (course clock request total).told [] documents := by
    intro h
    rcases isRemark_of_mem_told clock request total h with ⟨_, heq⟩ | ⟨_, heq⟩ <;> cases heq
  have hconclusions : .closing ∉ (course clock request total).conclusions documents := by
    intro h
    obtain ⟨kind, -, hkind⟩ := List.mem_flatMap.mp h
    exact closing_notMem_conclusions clock request total documents kind hkind
  cases ended <;> simp [Course.stream, Course.ending, htold, hconclusions]

/-- What a run has for its writer, and how it ends. -/
theorem entries_eq (stopped : ℕ → Bool) (store : Store) :
    ∃ documents ended, Ends store stopped documents ended ∧
      entries clock stopped request store =
        ((course clock request store.estimate).stream request.config store documents ended ++
          [.closing], ended.map fun outcome ↦ (outcome, documents.length)) := by
  obtain ⟨documents, ended, hends, hconduct⟩ :=
    (course clock request store.estimate).conduct_eq stopped request.config store
  refine ⟨documents, ended, hends, ?_⟩
  rw [entries, composite_eq_held, hconduct]

/-- What a run hands to its sinks through the writer, whatever they make of it, and how it ends
after so many documents if the writer does not crash. -/
def Delivers (clock : Clock) (stopped : ℕ → Bool) (request : Request) (store : Store)
    (stream : List Entry) (ended : Except Error Outcome) (taken : ℕ) : Prop :=
  ∀ (τ : Type) (sink : Output.Sink τ) (sinks : List τ),
    let written := Output.Writer.write sink sinks (stream ++ [.closing])
    run sink clock stopped request store sinks =
      ⟨written.sinks, settle (ended.map fun outcome ↦ (outcome, taken)) written.tally⟩

/-- A run of a selection that makes sense delivers what its checks make of the documents taken. -/
theorem exists_delivers (clock : Clock) (stopped : ℕ → Bool) {request : Request}
    (hvalid : request.selection.fault? = none) (store : Store) :
    ∃ documents ended, Ends store stopped documents ended ∧
      Delivers clock stopped request store
        ((course clock request store.estimate).stream request.config store documents ended)
        ended documents.length := by
  obtain ⟨documents, ended, hends, hentries⟩ := entries_eq clock request stopped store
  refine ⟨documents, ended, hends, fun τ sink sinks ↦ ?_⟩
  rw [run, hvalid, hentries]

/-- Sinks that do not crash leave the run its result. -/
theorem Delivers.exists_result_eq {clock : Clock} {stopped : ℕ → Bool} {request : Request}
    {store : Store} {stream : List Entry} {ended : Except Error Outcome} {taken : ℕ}
    (h : Delivers clock stopped request store stream ended taken) (hopen : .closing ∉ stream)
    {τ : Type} {sink : Output.Sink τ} (hsink : sink.NeverCrashes) (sinks : List τ) :
    ∃ faults, (run sink clock stopped request store sinks).result = ended.map fun outcome ↦
      ⟨outcome, taken, stream.countP Entry.isFinding, faults⟩ := by
  refine ⟨(sinks.map (sink.faults stream)).sum, ?_⟩
  rw [h τ sink sinks, Output.Writer.write_closing hsink hopen]
  cases ended <;> rfl

/-- A run of a selection that makes sense gives every sink the same entries, none of them the
closing mark, and then closes it. It fails if and only if the scan did; otherwise it tells how
many documents were taken and how many findings there are among the entries. Before the
conclusions, which a failed scan does not have, nothing is said but remarks. -/
theorem run_eq {τ : Type} {sink : Output.Sink τ} (hsink : sink.NeverCrashes) (clock : Clock)
    (stopped : ℕ → Bool) {request : Request} (hvalid : request.selection.fault? = none)
    (store : Store) (sinks : List τ) :
    ∃ documents ended, Ends store stopped documents ended ∧
      let course := course clock request store.estimate
      let stream := course.stream request.config store documents ended
      (run sink clock stopped request store sinks).sinks = sinks.map (sink.served stream) ∧
        (run sink clock stopped request store sinks).result = ended.map (fun outcome ↦
          ⟨outcome, documents.length, stream.countP Entry.isFinding,
            (sinks.map (sink.faults stream)).sum⟩) ∧
        .closing ∉ stream ∧ ∀ entry ∈ course.told [] documents, IsRemark entry := by
  obtain ⟨documents, ended, hends, hconduct⟩ :=
    (course clock request store.estimate).conduct_eq stopped request.config store
  have hopen := closing_notMem_stream clock request store.estimate store documents ended
  have hentries : entries clock stopped request store =
      ((course clock request store.estimate).stream request.config store documents ended ++
        [.closing], ended.map fun outcome ↦ (outcome, documents.length)) := by
    rw [entries, composite_eq_held, hconduct]
  refine ⟨documents, ended, hends, ?_⟩
  dsimp only
  rw [run, hvalid, hentries]
  dsimp only
  rw [Output.Writer.write_closing hsink hopen]
  refine ⟨rfl, ?_, hopen, fun entry ↦ isRemark_of_mem_told clock request store.estimate⟩
  cases ended <;> rfl

/-- A node whose parent has not come when the scan breaks off. -/
def early : Document := ⟨⟨"2:/a/x"⟩, some ⟨"1:/a"⟩, .node, true⟩

def brokenOff : Store where
  name := "memory"
  estimate := none
  scan := .ok [.ok early, .error (.protocol (.reported "gone"))]

def child : Document := ⟨⟨"1:/a"⟩, some ⟨"0:/"⟩, .node, true⟩

/-- A child of the root, and nothing else. -/
def onlyChild : Store where
  name := "memory"
  estimate := none
  scan := .ok [.ok child]

theorem verdict_child (staff : Reachability.Staff) :
    Orphan.verdict (.entered ⟨"0:/"⟩ false staff [child]) =
      [.status "orphan check orphans=0 examined=1"] := by
  refine Orphan.verdict_of_inTree (fun reference hmem ↦ ?_) rfl
    Orphan.accurate_edges_of_not_trust
  obtain rfl : reference = ⟨⟨"1:/a"⟩, ⟨"0:/"⟩⟩ := by
    revert reference
    decide
  exact .root

/-- A run that fails after a document, and one that comes to an end after one document or is stopped
there. -/
theorem run_eq_brokenOff :
    let sink := Output.Collector.sink
    let clock : Clock := ⟨.zero, fun _ ↦ .zero, .zero, .zero, .prompt⟩
    let request : Request :=
      ⟨{ runId := "r" }, { summary := true, progress := true, orphan := true, workers := 2 }⟩
    let broken := run sink clock (fun _ ↦ false) request brokenOff [.empty]
    let whole := run sink clock (fun _ ↦ false) request onlyChild [.empty]
    let stopped := run sink clock (fun taken ↦ 1 ≤ taken) request onlyChild [.empty]
    let header : Entry := .status "check run_id=r store=memory root=0:/"
    let verdicts : List Entry := [.status "summary kind=node documents=1",
      .status "summary total documents=1 elapsed=0.0s", .progress ⟨1, none, .zero, .untracked⟩,
      .status "orphan check orphans=0 examined=1"]
    sink.NeverCrashes ∧ request.selection.fault? = none ∧
      broken.result = .error (.interrupted "memory" 1 (.protocol (.reported "gone"))) ∧
      broken.sinks.map (fun collector ↦ collector.entries.toList) = [[header,
        .status "run failed: memory scan failed after 1 documents: protocol error: gone"]] ∧
      whole.result = .ok ⟨.completed, 1, 0, 0⟩ ∧
      whole.sinks.map (fun collector ↦ collector.entries.toList) =
        [header :: (verdicts ++ [.status "run completed documents=1 elapsed=0.0s"])] ∧
      stopped.result = .ok ⟨.cancelled, 1, 0, 0⟩ ∧
      stopped.sinks.map (fun collector ↦ collector.entries.toList) =
        [header :: (verdicts ++ [.status "run cancelled documents=1 elapsed=0.0s"])] := by
  intro sink clock request broken whole stopped header verdicts
  have hsink : sink.NeverCrashes := fun _ _ ↦ nofun
  have hvalid : request.selection.fault? = none := by decide
  have hbroken : Ends brokenOff (fun _ ↦ false) [early]
      (.error (.interrupted "memory" 1 (.protocol (.reported "gone")))) :=
    .interrupted rfl fun _ _ ↦ rfl
  have hwhole : Ends onlyChild (fun _ ↦ false) [child] (.ok .completed) :=
    .completed rfl fun _ _ ↦ rfl
  have hstopped : Ends onlyChild (fun taken ↦ 1 ≤ taken) [child] (.ok .cancelled) :=
    .cancelled rfl (by decide) (by decide)
  have hverdicts : (course clock request none).conclusions [child] = verdicts := by
    have hsummary : conclusions clock request none [child] .summary =
        [.status "summary kind=node documents=1",
          .status ("summary total documents=1 elapsed=" ++ Duration.zero.text)] := rfl
    have hprogress : conclusions clock request none [child] .progress =
        [.progress ⟨1, none, .zero, .untracked⟩] := rfl
    have horphan : conclusions clock request none [child] .orphan =
        [.status "orphan check orphans=0 examined=1"] := verdict_child _
    change [Builtin.Kind.summary, .progress, .orphan].flatMap _ = _
    simp only [List.flatMap_cons, List.flatMap_nil, hsummary, hprogress, horphan,
      Duration.text_zero]
    rfl
  have htold : (course clock request none).told [] [child] = [] := by decide
  have hstream (outcome : Outcome) :
      (course clock request onlyChild.estimate).stream request.config onlyChild [child]
        (.ok outcome) = header :: (verdicts ++ [.status (lastLine outcome 1 .zero)]) := by
    have hheader : .status (firstLine request.config onlyChild.name) = header := by decide
    change _ :: ((course clock request none).told [] [child] ++
      ((course clock request none).conclusions [child] ++ _)) = _
    rw [htold, hverdicts, hheader]
    rfl
  have hcompleted : lastLine .completed 1 .zero = "run completed documents=1 elapsed=0.0s" :=
    congrArg ("run completed documents=1 elapsed=" ++ ·) Duration.text_zero
  have hcancelled : lastLine .cancelled 1 .zero = "run cancelled documents=1 elapsed=0.0s" :=
    congrArg ("run cancelled documents=1 elapsed=" ++ ·) Duration.text_zero
  refine ⟨hsink, hvalid, ?_⟩
  obtain ⟨documents, ended, hends, hsinks, hresult, -⟩ :=
    run_eq hsink clock (fun _ ↦ false) hvalid brokenOff [.empty]
  obtain ⟨rfl, rfl⟩ := hends.unique hbroken
  obtain ⟨documents, ended, hends, hsinks', hresult', -⟩ :=
    run_eq hsink clock (fun _ ↦ false) hvalid onlyChild [.empty]
  obtain ⟨rfl, rfl⟩ := hends.unique hwhole
  obtain ⟨documents, ended, hends, hsinks'', hresult'', -⟩ :=
    run_eq hsink clock (fun taken ↦ 1 ≤ taken) hvalid onlyChild [.empty]
  obtain ⟨rfl, rfl⟩ := hends.unique hstopped
  rw [hstream] at hsinks' hresult' hsinks'' hresult''
  refine ⟨hresult, ?_, hresult', ?_, hresult'', ?_⟩
  · rw [hsinks]
    decide
  · rw [hsinks', hcompleted]
    rfl
  · rw [hsinks'', hcancelled]
    rfl

end Run

end TreeAudit
