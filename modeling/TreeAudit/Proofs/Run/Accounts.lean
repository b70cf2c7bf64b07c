import TreeAudit.Proofs.Run.Stream

/-!
What a run that did not fail accounts for. The documents that were taken are counted by the scan,
by kind in the summary, and as nodes by the orphan check, and the findings by the writer and, as
far as they are corruption, by the orphan check. All these numbers agree (`run_accounts`), wherever
the run was stopped and whatever became of the index of the orphan check: the status line of the
check counts what it has just reported.
-/

set_option autoImplicit false
set_option relaxedAutoImplicit false

namespace TreeAudit

open Report Check

namespace Report.Entry

/-- The text of a status line. -/
def status? : Entry → Option String
  | .status text => some text
  | _ => none

def isCorruption : Entry → Bool
  | .finding found => found.severity = .corruption
  | _ => false

end Report.Entry

open Report.Entry (status? isFinding isCorruption)

theorem Report.filterMap_status_map_status (texts : List String) :
    (texts.map Entry.status).filterMap status? = texts := by
  rw [List.filterMap_map]
  exact List.filterMap_some

namespace Check.Orphan

/-- Findings of corruption count as findings and as corruption, and hold no status line. -/
theorem counts_map_corruption {ι : Type} (report : ι → Finding)
    (hreport : ∀ item, (report item).severity = .corruption) (items : List ι) :
    (items.map fun item ↦ Entry.finding (report item)).filterMap status? = [] ∧
      (items.map fun item ↦ Entry.finding (report item)).countP isFinding = items.length ∧
      (items.map fun item ↦ Entry.finding (report item)).countP isCorruption = items.length := by
  refine ⟨?_, ?_, ?_⟩
  · rw [List.filterMap_map, List.filterMap_eq_nil_iff]
    exact fun _ _ ↦ rfl
  · rw [List.countP_map, List.countP_eq_length]
    exact fun _ _ ↦ rfl
  · rw [List.countP_map, List.countP_eq_length]
    exact fun item _ ↦ decide_eq_true (hreport item)

/-- The verdict ends with a status line that counts the findings in it, all of them corruption. -/
theorem counts_verdict (orphan : Orphan) :
    (verdict orphan).filterMap status? =
        [tally ((verdict orphan).countP isCorruption) orphan.examined] ∧
      (verdict orphan).countP isFinding = (verdict orphan).countP isCorruption := by
  dsimp only [verdict]
  generalize orphan.settled.drain.1 = unresolved
  generalize orphan.malformed.mergeSort byText = malformed
  generalize (Std.HashSet.ofList _ : Std.HashSet DocumentId) = orphans
  obtain ⟨hstatus, hfinding, hcorruption⟩ :=
    counts_map_corruption (fun reference ↦ diagnosis (reference.parent ∈ orphans) reference)
      (fun _ ↦ rfl) unresolved
  obtain ⟨hstatus', hfinding', hcorruption'⟩ :=
    counts_map_corruption bareDiagnosis (fun _ ↦ rfl) malformed
  simp only [List.filterMap_append, List.countP_append, hstatus, hstatus', hfinding, hfinding',
    hcorruption, hcorruption']
  exact ⟨rfl, rfl⟩

/-- As many findings of corruption as there are dangling references and nodes without a parent. -/
theorem countP_isCorruption_verdict {root : DocumentId} {trustFlags : Bool}
    {documents : List Document}
    (haccurate : Reachability.Accurate (edges root trustFlags documents))
    (staff : Reachability.Staff) :
    (verdict (entered root trustFlags staff documents)).countP isCorruption =
      (dangling root documents).length + (parentless root documents).length := by
  obtain ⟨-, -, hlisted⟩ := counts_map_corruption
    (fun reference ↦ diagnosis
      (∃ document ∈ live root documents, document.id = reference.parent) reference)
    (fun _ ↦ rfl) (report root documents).listed
  obtain ⟨-, -, hbare⟩ :=
    counts_map_corruption bareDiagnosis (fun _ ↦ rfl) (report root documents).bare
  rw [verdict_entered haccurate, OrphanReport.entries, List.countP_append, List.countP_append,
    hlisted, hbare, ← (report root documents).listed_perm.length_eq,
    ← (report root documents).bare_perm.length_eq]
  rfl

theorem isFinding_of_mem_notices {root : DocumentId} {documents : List Document} {entry : Entry}
    (h : entry ∈ notices root documents) : isFinding entry = true := by
  obtain ⟨id, -, rfl⟩ := List.mem_map.mp h
  rfl

/-- There is a notice for each node without a parent, the root aside. -/
theorem countP_isFinding_notices (root : DocumentId) (documents : List Document) :
    (notices root documents).countP isFinding =
      documents.countP fun document ↦
        document.kind = .node ∧ document.parent = none ∧ document.id ≠ root := by
  have hall : (notices root documents).countP isFinding = (notices root documents).length :=
    List.countP_eq_length.mpr fun _ ↦ isFinding_of_mem_notices
  rw [hall, notices, List.length_map, parentless, List.length_map, live, List.filter_filter,
    ← List.countP_eq_length_filter]
  refine List.countP_congr fun document _ ↦ ?_
  simp only [Bool.and_eq_true, decide_eq_true_eq]
  tauto

end Check.Orphan

namespace Run

/-- No remark is a status line or tells of corruption. -/
theorem IsRemark.silent {entry : Entry} (h : IsRemark entry) :
    status? entry = none ∧ ¬ isCorruption entry = true := by
  rcases h with ⟨update, rfl⟩ | ⟨id, rfl⟩
  · exact ⟨rfl, nofun⟩
  · exact ⟨rfl, nofun⟩

/-- The status lines of a run with a summary and an orphan check that takes the documents and is to
report so many orphans, in their order: a line for each kind of document that occurs, the total, and
the line of the orphan check, between the first line and the one that tells the outcome. -/
def accounts (clock : Clock) (request : Request) (store : Store) (outcome : Outcome)
    (documents : List Document) (orphans : ℕ) : List String :=
  [firstLine request.config store.name] ++
    Summary.account documents (clock.scanned.since clock.start) ++
    [Orphan.tally orphans (Summary.ofKind documents .node),
      lastLine outcome documents.length (clock.finish.since clock.start)]

section Checks

variable (clock : Clock) {request : Request} (total : Option ℕ)

theorem filterMap_status_told (documents : List Document) :
    ((course clock request total).told [] documents).filterMap status? = [] :=
  List.filterMap_eq_nil_iff.mpr fun _ hentry ↦
    (isRemark_of_mem_told clock request total hentry).silent.1

theorem countP_isCorruption_told (documents : List Document) :
    ((course clock request total).told [] documents).countP isCorruption = 0 :=
  List.countP_eq_zero.mpr fun _ hentry ↦
    (isRemark_of_mem_told clock request total hentry).silent.2

/-- The checks that keep accounts stand first and last. -/
theorem flatMap_kinds (hsummary : request.selection.summary = true)
    (horphan : request.selection.orphan = true) (say : Builtin.Kind → List Entry) :
    request.selection.kinds.flatMap say =
      say .summary ++ (if request.selection.progress then say .progress else []) ++
        say .orphan := by
  rw [Selection.kinds, if_pos hsummary, if_pos horphan]
  split_ifs <;> simp

variable (hsummary : request.selection.summary = true)
  (horphan : request.selection.orphan = true)
include hsummary horphan

/-- What is found while documents come in are the nodes without a parent. -/
theorem filter_isFinding_told (met documents : List Document) :
    ((course clock request total).told met documents).filter isFinding =
      Orphan.notices request.config.root documents := by
  induction documents generalizing met with
  | nil => rfl
  | cons document rest ih =>
    -- of the checks only the last one finds anything as a document comes in
    have hremarks : ((course clock request total).remarks met document).filter isFinding =
        Orphan.notices request.config.root [document] := by
      have hnotices : (Orphan.notices request.config.root [document]).filter isFinding =
          Orphan.notices request.config.root [document] :=
        List.filter_eq_self.mpr fun _ ↦ Orphan.isFinding_of_mem_notices
      dsimp only [course]
      rw [flatMap_kinds hsummary horphan]
      simp only [remarks, Progress.remark, List.filter_append, hnotices]
      split_ifs <;> simp [isFinding]
    rw [Course.told, List.filter_append, hremarks, ih, ← Orphan.notices_cons _ document rest]

theorem countP_isFinding_told (met documents : List Document) :
    ((course clock request total).told met documents).countP isFinding =
      (Orphan.notices request.config.root documents).countP isFinding := by
  have hfilter := filter_isFinding_told clock total hsummary horphan met documents
  rw [List.countP_eq_length_filter, hfilter, eq_comm, List.countP_eq_length]
  exact fun _ ↦ Orphan.isFinding_of_mem_notices

/-- At the end there are status lines from the summary and one from the orphan check, and the
findings are those of the orphan check. -/
theorem counts_conclusions (documents : List Document) :
    let verdict := (orphanAfter clock request documents).verdict
    ((course clock request total).conclusions documents).filterMap status? =
        Summary.account documents (clock.scanned.since clock.start) ++
          verdict.filterMap status? ∧
      ((course clock request total).conclusions documents).countP isFinding =
        verdict.countP isFinding ∧
      ((course clock request total).conclusions documents).countP isCorruption =
        verdict.countP isCorruption := by
  dsimp only [course]
  rw [flatMap_kinds hsummary horphan]
  simp only [conclusions, List.filterMap_append, List.countP_append, filterMap_status_map_status]
  split_ifs <;> simp [status?, isFinding, isCorruption]

/-- What a scan that did not fail finds to be corruption is what the orphan check finds to be. -/
theorem countP_isCorruption_stream (store : Store) (documents : List Document) (outcome : Outcome) :
    ((course clock request total).stream request.config store documents (.ok outcome)).countP
        isCorruption = (orphanAfter clock request documents).verdict.countP isCorruption := by
  obtain ⟨-, -, hcorruption⟩ := counts_conclusions clock total hsummary horphan documents
  rw [← hcorruption]
  simp [Course.stream, Course.ending, countP_isCorruption_told, isCorruption]

/-- What a scan that did not fail has the checks say agrees with the documents it took. -/
theorem counts_stream (store : Store) (documents : List Document) (outcome : Outcome) :
    let stream :=
      (course clock request total).stream request.config store documents (.ok outcome)
    stream.filterMap status? =
        accounts clock request store outcome documents (stream.countP isCorruption) ∧
      stream.countP isFinding = stream.countP isCorruption +
        documents.countP fun document ↦ document.kind = .node ∧ document.parent = none ∧
          document.id ≠ request.config.root := by
  intro stream
  obtain ⟨hstatus, hfinding, -⟩ := counts_conclusions clock total hsummary horphan documents
  obtain ⟨hline, hsame⟩ := Orphan.counts_verdict (orphanAfter clock request documents)
  have hlost : stream.countP isCorruption =
      (orphanAfter clock request documents).verdict.countP isCorruption :=
    countP_isCorruption_stream clock total hsummary horphan store documents outcome
  have hfound : stream.countP isFinding =
      ((course clock request total).told [] documents).countP isFinding +
        ((course clock request total).conclusions documents).countP isFinding := by
    simp [stream, Course.stream, Course.ending, isFinding]
  have hlines : stream.filterMap status? =
      firstLine request.config store.name ::
        (((course clock request total).conclusions documents).filterMap status? ++
          [lastLine outcome documents.length (clock.finish.since clock.start)]) := by
    simp [stream, Course.stream, Course.ending, filterMap_status_told, status?]
  constructor
  · rw [hlines, hstatus, hline, hlost]
    simp [accounts, orphanAfter, Orphan.entered, Orphan.nodes, Summary.ofKind]
  · rw [hfound, countP_isFinding_told clock total hsummary horphan, hfinding, hsame, hlost,
      Orphan.countP_isFinding_notices, Nat.add_comm]

end Checks

/-- A run that did not fail had a writer that met no crash. What it wrote are the entries of a scan
that did not fail, and the report tells how many documents and findings there are. -/
theorem run_eq_of_ok {τ : Type} {sink : Output.Sink τ} {clock : Clock} {stopped : ℕ → Bool}
    {request : Request} {store : Store} {sinks : List τ} {report : Report}
    (hok : (run sink clock stopped request store sinks).result = .ok report) :
    ∃ documents, Ends store stopped documents (.ok report.outcome) ∧
      let stream := (course clock request store.estimate).stream request.config store documents
        (.ok report.outcome)
      (entries clock stopped request store).1 = stream ++ [.closing] ∧
        (run sink clock stopped request store sinks).sinks = sinks.map (sink.served stream) ∧
        report.documents = documents.length ∧ report.findings = stream.countP isFinding := by
  cases hfault : request.selection.fault? with
  | some fault =>
    rw [run, hfault] at hok
    cases hok
  | none =>
    obtain ⟨documents, ended, hends, hentries⟩ := entries_eq clock request stopped store
    have hopen := closing_notMem_stream clock request store.estimate store documents ended
    rw [run, hfault, hentries] at hok ⊢
    dsimp only at hok ⊢
    -- a crash would have hidden how the scan ended, so the writer came through with a tally
    have htally : (Output.Writer.write sink sinks
        ((course clock request store.estimate).stream request.config store documents ended ++
          [.closing])).tally ≠ none := by
      intro hnone
      rw [hnone] at hok
      cases hok
    have hsinks := Output.Writer.survives_of_tally hopen htally
    rw [Output.Writer.write_closing_of_survives hopen hsinks] at hok ⊢
    cases ended with
    | error error => cases hok
    | ok outcome =>
      obtain rfl := Except.ok.inj hok
      exact ⟨documents, hends, rfl, rfl, rfl, rfl⟩

/-- A run whose selection makes sense fails only with its scan, as long as no sink crashes. -/
theorem exists_report {τ : Type} {sink : Output.Sink τ} (hsink : sink.NeverCrashes) (clock : Clock)
    {stopped : ℕ → Bool} {request : Request} (hvalid : request.selection.fault? = none)
    {store : Store} {documents : List Document} {outcome : Outcome}
    (hends : Ends store stopped documents (.ok outcome)) (sinks : List τ) :
    ∃ report, (run sink clock stopped request store sinks).result = .ok report ∧
      report.outcome = outcome := by
  obtain ⟨documents, ended, hends', hdelivers⟩ := exists_delivers clock stopped hvalid store
  obtain ⟨rfl, rfl⟩ := hends.unique hends'
  have hopen := closing_notMem_stream clock request store.estimate store documents (.ok outcome)
  obtain ⟨faults, hresult⟩ := hdelivers.exists_result_eq hopen hsink sinks
  exact ⟨_, hresult, rfl⟩

/-- In a run that did not fail all accounts agree. The summary has a line for each kind of document
that was taken, with the number of these, and the sum is what the report tells. The orphan check
has examined as many nodes, and claims as many orphans as there are findings of corruption. The
report tells of these findings and of one for each node without a parent but the root. -/
theorem run_accounts {τ : Type} {sink : Output.Sink τ} {clock : Clock} {stopped : ℕ → Bool}
    {request : Request} (hsummary : request.selection.summary = true)
    (horphan : request.selection.orphan = true) {store : Store} {sinks : List τ} {report : Report}
    (hok : (run sink clock stopped request store sinks).result = .ok report) :
    ∃ documents stream, Ends store stopped documents (.ok report.outcome) ∧
      (entries clock stopped request store).1 = stream ++ [.closing] ∧
      (run sink clock stopped request store sinks).sinks = sinks.map (sink.served stream) ∧
      stream.filterMap status? =
        accounts clock request store report.outcome documents (stream.countP isCorruption) ∧
      report.documents = documents.length ∧
      report.documents = (Document.Kind.all.map (Summary.ofKind documents)).sum ∧
      report.findings = stream.countP isCorruption +
        documents.countP fun document ↦ document.kind = .node ∧ document.parent = none ∧
          document.id ≠ request.config.root := by
  obtain ⟨documents, hends, hentries, hsinks, hdocuments, hfindings⟩ := run_eq_of_ok hok
  obtain ⟨hstatus, hfinding⟩ :=
    counts_stream clock store.estimate hsummary horphan store documents report.outcome
  refine ⟨documents, _, hends, hentries, hsinks, hstatus, hdocuments, ?_, ?_⟩
  · rw [hdocuments, Summary.sum_ofKind]
  · rw [hfindings, hfinding]

/-- A node below the root, one whose parent is deleted, one without a parent, and the deleted
document. -/
def mixed : List Document :=
  [⟨⟨"1:/b"⟩, some ⟨"0:/"⟩, .node, true⟩, early, ⟨⟨"bare"⟩, none, .node, false⟩,
    ⟨⟨"1:/a"⟩, some ⟨"0:/"⟩, .deleted, true⟩]

/-- The documents above, and then the root. -/
def rootLast : Store where
  name := "memory"
  estimate := none
  scan := .ok (mixed.map .ok ++ [.ok ⟨⟨"0:/"⟩, none, .node, true⟩])

theorem dangling_mixed :
    Orphan.dangling ⟨"0:/"⟩ mixed = [⟨⟨"2:/a/x"⟩, ⟨"1:/a"⟩⟩] := by
  have hin : Orphan.InTree ⟨"0:/"⟩ mixed ⟨"0:/"⟩ := .root
  have hout : ¬ Orphan.InTree ⟨"0:/"⟩ mixed ⟨"1:/a"⟩ := Orphan.not_inTree (by decide) (by decide)
  have hreferences : Orphan.references ⟨"0:/"⟩ mixed =
      [⟨⟨"1:/b"⟩, ⟨"0:/"⟩⟩, ⟨⟨"2:/a/x"⟩, ⟨"1:/a"⟩⟩] := by decide
  rw [Orphan.dangling, hreferences, List.filter_cons_of_neg (by simpa using hin),
    List.filter_cons_of_pos (by simpa using hout), List.filter_nil]

/-- Of the five documents four are taken. -/
theorem run_accounts_rootLast :
    let sink := Output.Collector.sink
    let clock : Clock := ⟨.zero, fun _ ↦ .zero, .zero, .zero, .prompt⟩
    let stopped : ℕ → Bool := fun taken ↦ 4 ≤ taken
    let request : Request :=
      ⟨{ runId := "r" }, { summary := true, orphan := true, workers := 2 }⟩
    request.selection.summary = true ∧ request.selection.orphan = true ∧
      ∃ report stream, (run sink clock stopped request rootLast [.empty]).result = .ok report ∧
        (entries clock stopped request rootLast).1 = stream ++ [.closing] ∧
        report.outcome = .cancelled ∧ report.documents = 4 ∧ report.findings = 3 ∧
        stream.countP isCorruption = 2 ∧
        stream.filterMap status? = ["check run_id=r store=memory root=0:/",
          "summary kind=node documents=3", "summary kind=deleted documents=1",
          "summary total documents=4 elapsed=0.0s", "orphan check orphans=2 examined=3",
          "run cancelled documents=4 elapsed=0.0s"] := by
  intro sink clock stopped request
  have hsummary : request.selection.summary = true := rfl
  have horphan : request.selection.orphan = true := rfl
  have hvalid : request.selection.fault? = none := by decide
  have hsink : sink.NeverCrashes := fun _ _ ↦ nofun
  have hends : Ends rootLast stopped mixed (.ok .cancelled) := .cancelled rfl (by decide) rfl
  obtain ⟨report, hok, houtcome⟩ := exists_report hsink clock hvalid hends [.empty]
  obtain ⟨documents, stream, hends', hentries, -, hstatus, hdocuments, -, hfindings⟩ :=
    run_accounts hsummary horphan hok
  rw [houtcome] at hends' hstatus
  obtain ⟨rfl, -⟩ := hends'.unique hends
  have hcorruption : stream.countP isCorruption = 2 := by
    obtain ⟨documents, hends'', hentries', -⟩ := run_eq_of_ok hok
    rw [houtcome] at hends'' hentries'
    obtain ⟨rfl, -⟩ := hends''.unique hends
    rw [List.append_cancel_right (hentries.symm.trans hentries'),
      countP_isCorruption_stream clock _ hsummary horphan, orphanAfter,
      Orphan.countP_isCorruption_verdict Orphan.accurate_edges_of_not_trust]
    have hdangling : Orphan.dangling request.config.root mixed = [⟨⟨"2:/a/x"⟩, ⟨"1:/a"⟩⟩] :=
      dangling_mixed
    rw [hdangling]
    rfl
  rw [hcorruption] at hstatus hfindings
  refine ⟨hsummary, horphan, report, stream, hok, hentries, houtcome, hdocuments, hfindings,
    hcorruption, ?_⟩
  have helapsed : clock.finish.since clock.start = .zero := rfl
  have hlast : lastLine .cancelled mixed.length .zero = "run cancelled documents=4 elapsed=0.0s" :=
    congrArg ("run cancelled documents=4 elapsed=" ++ ·) Duration.text_zero
  have haccount : Summary.account mixed .zero = ["summary kind=node documents=3",
      "summary kind=deleted documents=1", "summary total documents=4 elapsed=0.0s"] := by
    rw [Summary.account, Duration.text_zero]
    decide
  rw [hstatus, accounts, helapsed, hlast]
  change _ ++ Summary.account mixed .zero ++ _ = _
  rw [haccount]
  decide

end Run

end TreeAudit
