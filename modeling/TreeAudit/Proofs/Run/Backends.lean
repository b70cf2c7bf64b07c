import TreeAudit.Proofs.Run.Accounts
import TreeAudit.Proofs.Store.Portable

/-!
Runs over the same documents in different stores. A completed run with a summary and an orphan check
that trusts no flags tells the same of its documents in whatever order they come (`Recount`): how
many there are of each kind, the report of the orphan check, and which nodes have no parent, these
in the order in which they come. What else it sends are the lines that name the store and the times,
and how far the scan is. A dump and a table with the same payloads yield the same documents, so runs
over them agree in this (`dump_table_agree`).
-/

set_option autoImplicit false
set_option relaxedAutoImplicit false

namespace TreeAudit

open Report Check

namespace Run

open Store (Portable IsDumpOf IsTableOf)
open Report.Entry (isFinding)

/-- What a completed run tells of its documents. As they come in it tells how far the scan is and
which nodes have no parent, and at the end once more how far it has come. -/
structure Recount (request : Request) (documents : List Document)
    (report : Orphan.OrphanReport request.config.root documents) where
  remarks : List Entry
  isRemark : ∀ entry ∈ remarks, IsRemark entry
  findings_perm :
    (remarks.filter isFinding).Perm (Orphan.notices request.config.root documents)
  updates : List Report.Progress

/-- The stream of a completed run over the store of this name. -/
def Recount.stream {request : Request} {documents : List Document}
    {report : Orphan.OrphanReport request.config.root documents}
    (recount : Recount request documents report) (clock : Clock) (store : String) : List Entry :=
  .status (firstLine request.config store) :: (recount.remarks ++
    ((Summary.account documents (clock.scanned.since clock.start)).map .status ++
      (recount.updates.map .progress ++ (report.entries ++
        [.status (lastLine .completed documents.length (clock.finish.since clock.start))]))))

section Documents

variable {request : Request} {order documents : List Document}

theorem account_perm (horder : order.Perm documents) (elapsed : Duration) :
    Summary.account order elapsed = Summary.account documents elapsed := by
  have hkinds : Summary.ofKind order = Summary.ofKind documents := by
    funext kind
    exact horder.countP_eq _
  rw [Summary.account, hkinds, horder.length_eq, Summary.account]

variable (hsummary : request.selection.summary = true) (horphan : request.selection.orphan = true)
  (htrust : request.config.trustChildrenFlag = false)
  (report : Orphan.OrphanReport request.config.root documents)
include hsummary horphan htrust

/-- What the checks say at the end does not tell the order in which the documents came. -/
theorem conclusions_eq (horder : order.Perm documents) (clock : Clock) (total : Option ℕ) :
    ∃ updates : List Report.Progress,
      (course clock request total).conclusions order =
        (Summary.account documents (clock.scanned.since clock.start)).map .status ++
          (updates.map .progress ++ report.entries) := by
  have hverdict : (orphanAfter clock request order).verdict = report.entries := by
    rw [orphanAfter, htrust, Orphan.verdict_entered Orphan.accurate_edges_of_not_trust]
    exact Orphan.OrphanReport.entries_eq_of_perm horder _ report
  refine ⟨if request.selection.progress then
    [(progressAfter clock request total order.length).update clock.scanned] else [], ?_⟩
  dsimp only [course]
  rw [flatMap_kinds hsummary horphan]
  simp only [conclusions, account_perm horder, hverdict]
  split_ifs <;> simp

/-- A store that yields the documents in some order lets a run be completed that tells of them. -/
theorem exists_recount (horder : order.Perm documents) {store : Store}
    (hscan : store.scan = .ok (order.map .ok)) (hvalid : request.selection.fault? = none)
    (clock : Clock) {stopped : ℕ → Bool} (hgoes : ∀ n ≤ documents.length, stopped n = false) :
    ∃ recount : Recount request documents report,
      Delivers clock stopped request store (recount.stream clock store.name) (.ok .completed)
        documents.length := by
  obtain ⟨met, ended, hends, hdelivers⟩ := exists_delivers clock stopped hvalid store
  have hcompleted : Ends store stopped order (.ok .completed) :=
    .completed hscan (horder.length_eq ▸ hgoes)
  obtain ⟨rfl, rfl⟩ := hends.unique hcompleted
  obtain ⟨updates, hconclusions⟩ :=
    conclusions_eq hsummary horphan htrust report horder clock store.estimate
  let recount : Recount request documents report :=
    { remarks := (course clock request store.estimate).told [] met
      isRemark := fun _ ↦ isRemark_of_mem_told clock request store.estimate
      findings_perm := by
        rw [filter_isFinding_told clock store.estimate hsummary horphan]
        exact (Orphan.parentless_perm horder).map _
      updates := updates }
  have hstream : (course clock request store.estimate).stream request.config store met
      (.ok .completed) = recount.stream clock store.name := by
    unfold Course.stream Course.ending Recount.stream
    dsimp only [recount]
    rw [hconclusions, horder.length_eq]
    simp only [List.append_assoc]
  refine ⟨recount, ?_⟩
  rw [← hstream, ← horder.length_eq]
  exact hdelivers

end Documents

/-- Runs over a dump and over a table with the same payloads agree, whatever the order of the lines,
the blank lines among them and the size of a page. Both are completed, and but for the times and the
name of the store they tell of the same documents. -/
theorem dump_table_agree {payloads : List Portable}
    (hids : (payloads.map fun payload ↦ payload.document.id).Nodup)
    {text : String} (hdump : IsDumpOf payloads text)
    {tables : Store.Tables} {table : Store.Table} (hnodes : tables.nodes? = some table)
    (htable : IsTableOf payloads table) (batch : ℕ)
    {request : Request} (hvalid : request.selection.fault? = none)
    (hsummary : request.selection.summary = true) (horphan : request.selection.orphan = true)
    (htrust : request.config.trustChildrenFlag = false)
    (clock clock' : Clock) {stopped stopped' : ℕ → Bool}
    (hgoes : ∀ n ≤ payloads.length, stopped n = false)
    (hgoes' : ∀ n ≤ payloads.length, stopped' n = false) :
    ∃ (report : Orphan.OrphanReport request.config.root (payloads.map Portable.document))
      (first second : Recount request (payloads.map Portable.document) report),
      Delivers clock stopped request (Store.Dump.store (.ok (Text.Utf8.encode text.toList)))
          (first.stream clock "jsonl") (.ok .completed) payloads.length ∧
        Delivers clock' stopped' request (Store.Contents.store (.ok (.ok (.tables tables))) batch)
          (second.stream clock' "sqlite") (.ok .completed) payloads.length := by
  let report := Orphan.report request.config.root (payloads.map Portable.document)
  have hlength : (payloads.map Portable.document).length = payloads.length := List.length_map _
  have hdumped : ∃ first : Recount request (payloads.map Portable.document) report,
      Delivers clock stopped request (Store.Dump.store (.ok (Text.Utf8.encode text.toList)))
        (first.stream clock "jsonl") (.ok .completed) payloads.length := by
    obtain ⟨order, horder, hitems⟩ := Store.Dump.exists_items_eq hdump
    have hscan : (Store.Dump.store (.ok (Text.Utf8.encode text.toList))).scan =
        .ok (order.map .ok) := congrArg Except.ok hitems
    rw [← hlength] at hgoes ⊢
    exact exists_recount hsummary horphan htrust report horder hscan hvalid clock hgoes
  have htabled : ∃ second : Recount request (payloads.map Portable.document) report,
      Delivers clock' stopped' request (Store.Contents.store (.ok (.ok (.tables tables))) batch)
        (second.stream clock' "sqlite") (.ok .completed) payloads.length := by
    obtain ⟨order, horder, hitems⟩ := Store.Table.exists_items_eq htable hids batch
    have hscan : (Store.Contents.store (.ok (.ok (.tables tables))) batch).scan =
        .ok (order.map .ok) := by
      show Except.ok (tables.items batch) = _
      rw [Store.Tables.items, hnodes]
      exact congrArg Except.ok hitems
    rw [← hlength] at hgoes' ⊢
    exact exists_recount hsummary horphan htrust report horder hscan hvalid clock' hgoes'
  obtain ⟨first, hfirst⟩ := hdumped
  obtain ⟨second, hsecond⟩ := htabled
  exact ⟨report, first, second, hfirst, hsecond⟩

theorem Recount.account_mem_stream {request : Request} {documents : List Document}
    {report : Orphan.OrphanReport request.config.root documents}
    (recount : Recount request documents report) (clock : Clock) (store : String) {line : String}
    (h : line ∈ Summary.account documents (clock.scanned.since clock.start)) :
    .status line ∈ recount.stream clock store := by
  unfold Recount.stream
  refine List.mem_cons_of_mem _ (List.mem_append_right _ (List.mem_append_left _ ?_))
  exact List.mem_map_of_mem h

/-- The root. -/
def rootPayload : Portable :=
  ⟨"\x7b\"_id\":\"0:/\"\x7d", ⟨⟨"0:/"⟩, none, .node, false⟩, by decide +kernel, by decide,
    by decide⟩

/-- A node whose parent is nowhere. -/
def lostPayload : Portable :=
  ⟨"\x7b\"_id\":\"kid\",\"_parent\":\"gone\"\x7d", ⟨⟨"kid"⟩, some ⟨"gone"⟩, .node, false⟩,
    by decide +kernel, by decide, by decide⟩

/-- A node that has no parent. -/
def barePayload : Portable :=
  ⟨"\x7b\"_id\":\"bare\"\x7d", ⟨⟨"bare"⟩, none, .node, false⟩, by decide +kernel, by decide,
    by decide⟩

def scattered : List Portable := [rootPayload, lostPayload, barePayload]

/-- Their lines the other way round, with two lines of white space. -/
def scatteredDump : String :=
  barePayload.text ++ "\n\n" ++ lostPayload.text ++ "\n \t\n" ++ rootPayload.text

def scatteredTable : Store.Table where
  name := Store.Paging.nodes
  hasRowids := true
  columns := ["id", "data"]
  rows := [⟨1, .text "kid", .text lostPayload.text⟩, ⟨2, .text "0:/", .text rootPayload.text⟩,
    ⟨3, .text "bare", .text barePayload.text⟩]

theorem dump_table_agree_scattered :
    let request : Request := ⟨{ runId := "r" }, { summary := true, orphan := true }⟩
    let clock : Clock := ⟨.zero, fun _ ↦ .zero, .zero, .zero, .prompt⟩
    let dump := Store.Dump.store (.ok (Text.Utf8.encode scatteredDump.toList))
    let database := Store.Contents.store (.ok (.ok (.tables ⟨[scatteredTable]⟩))) 2
    (scattered.map fun payload ↦ payload.document.id).Nodup ∧
      IsDumpOf scattered scatteredDump ∧ IsTableOf scattered scatteredTable ∧
      ∃ stream stream', Delivers clock (fun _ ↦ false) request dump stream (.ok .completed) 3 ∧
        Delivers clock (fun _ ↦ false) request database stream' (.ok .completed) 3 ∧
        .status "summary kind=node documents=3" ∈ stream ∧
        .status "summary kind=node documents=3" ∈ stream' := by
  intro request clock dump database
  have hids : (scattered.map fun payload ↦ payload.document.id).Nodup := by decide
  have hdump : IsDumpOf scattered scatteredDump :=
    ⟨scattered.reverse, List.reverse_perm _, by decide⟩
  have htable : IsTableOf scattered scatteredTable := ⟨by decide, by decide⟩
  have hnodes : Store.Tables.nodes? ⟨[scatteredTable]⟩ = some scatteredTable := rfl
  have hvalid : request.selection.fault? = none := by decide
  have hsummary : request.selection.summary = true := rfl
  obtain ⟨report, first, second, hfirst, hsecond⟩ :=
    dump_table_agree hids hdump hnodes htable 2 hvalid hsummary rfl rfl clock clock
      (fun _ _ ↦ rfl) fun _ _ ↦ rfl
  have hline : "summary kind=node documents=3" ∈
      Summary.account (scattered.map Portable.document) .zero :=
    List.mem_append_left _ (by decide)
  exact ⟨hids, hdump, htable, _, _, hfirst, hsecond, first.account_mem_stream _ _ hline,
    second.account_mem_stream _ _ hline⟩

end Run

end TreeAudit
