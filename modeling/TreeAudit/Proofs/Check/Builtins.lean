import TreeAudit.Check.Builtin
import TreeAudit.Proofs.Check.Offers
import TreeAudit.Proofs.Check.OrphanRun

/-!
The checks a run can be asked for, call by call. Counting says nothing before the end.
Progress is told when an update is due, and orphans when a node without a parent is met. The calls
fail for nothing but the loss of the receiver, since an orphan check that is still given documents
has not finished.
-/

set_option autoImplicit false
set_option relaxedAutoImplicit false

namespace TreeAudit.Check

open Report

namespace Summary

/-- The counts after documents. -/
def ofDocuments (now : Duration) (documents : List Document) : Summary :=
  documents.foldl (fun summary document ↦ summary.add document.kind) (.start now)

theorem ofDocuments_concat (now : Duration) (documents : List Document) (document : Document) :
    ofDocuments now (documents ++ [document]) = (ofDocuments now documents).add document.kind := by
  rw [ofDocuments, List.foldl_append]
  rfl

/-- How many of the documents are of a kind. -/
def ofKind (documents : List Document) (kind : Document.Kind) : ℕ :=
  documents.countP fun document ↦ document.kind = kind

theorem ofDocuments_eq (now : Duration) (documents : List Document) :
    ofDocuments now documents = ⟨now, documents.length, ofKind documents .node,
      ofKind documents .deleted, ofKind documents .split⟩ := by
  induction documents using List.reverseRecOn with
  | nil => rfl
  | append_singleton met document ih =>
    rw [ofDocuments_concat, ih]
    cases hkind : document.kind <;> simp [add, ofKind, hkind]

theorem count_ofDocuments (now : Duration) (documents : List Document) (kind : Document.Kind) :
    (ofDocuments now documents).count kind = ofKind documents kind := by
  rw [ofDocuments_eq]
  cases kind <;> rfl

theorem total_ofDocuments (now : Duration) (documents : List Document) :
    (ofDocuments now documents).total = documents.length := by
  rw [ofDocuments_eq]

/-- Every document is of one kind. -/
theorem sum_ofKind (documents : List Document) :
    (Document.Kind.all.map (ofKind documents)).sum = documents.length := by
  induction documents with
  | nil => rfl
  | cons document rest ih =>
    rw [List.length_cons, ← ih]
    cases hkind : document.kind <;>
      simp only [Document.Kind.all, ofKind, List.countP_cons, hkind, List.map_cons, List.map_nil,
        List.sum_cons, List.sum_nil] <;> simp <;> omega

/-- The total is counted apart from the kinds, and is their sum. -/
theorem total_eq_sum (now : Duration) (documents : List Document) :
    (ofDocuments now documents).total =
      (Document.Kind.all.map (ofDocuments now documents).count).sum := by
  have hcount : (ofDocuments now documents).count = ofKind documents :=
    funext (count_ofDocuments now documents)
  rw [total_ofDocuments, hcount, sum_ofKind]

/-- The lines about so many documents: one for each kind that occurs, and the total. -/
def account (documents : List Document) (elapsed : Duration) : List String :=
  let occurring := [("node", Document.Kind.node), ("deleted", .deleted), ("split", .split)].filter
    fun (_, kind) ↦ ofKind documents kind ≠ 0
  (occurring.map fun (name, kind) ↦
      "summary kind=" ++ name ++ " documents=" ++ toString (ofKind documents kind)) ++
    ["summary total documents=" ++ toString documents.length ++ " elapsed=" ++ elapsed.text]

theorem lines_ofDocuments (started now : Duration) (documents : List Document) :
    (ofDocuments started documents).lines now = account documents (now.since started) := by
  have hnamed : [("node", Document.Kind.node), ("deleted", .deleted), ("split", .split)] =
      Document.Kind.all.map fun kind ↦ (kind.label, kind) := rfl
  have hstarted : (ofDocuments started documents).started = started := by rw [ofDocuments_eq]
  simp only [lines, account, hnamed, List.filter_map, List.map_map, count_ofDocuments,
    total_ofDocuments, hstarted]
  rfl

theorem offers_process (now : Duration) (document : Document) (summary : Summary) :
    Offers (machine.process now document summary) (summary.add document.kind) [] :=
  .silent _

theorem offers_finish (started now : Duration) (documents : List Document) :
    Offers (machine.finish now (ofDocuments started documents)) (ofDocuments started documents)
      ((account documents (now.since started)).map .status) := by
  rw [← lines_ofDocuments]
  exact .sending _ _

end Summary

namespace Progress

/-- One document more. -/
def counted (progress : Progress) : Progress :=
  { progress with processed := progress.processed + 1 }

/-- An update is due with the next document. -/
def isDue (now : Duration) (progress : Progress) : Bool :=
  progress.counted.dueByCount || progress.counted.dueByTime now

def advance (now : Duration) (progress : Progress) : Progress :=
  if progress.isDue now then { progress.counted with lastUpdate := now } else progress.counted

/-- What is said about a document. -/
def remark (now : Duration) (progress : Progress) : List Entry :=
  if progress.isDue now then [.progress (progress.counted.update now)] else []

/-- After so many documents, each at its time. -/
def reached (now : ℕ → Duration) (progress : Progress) : ℕ → Progress
  | 0 => progress
  | n + 1 => (progress.reached now n).advance (now n)

theorem offers_process (now : Duration) (document : Document) (progress : Progress) :
    Offers (machine.process now document progress) (progress.advance now)
      (progress.remark now) := by
  intro outlet
  refine ⟨progress.counted, ?_⟩
  change process now progress outlet = _
  unfold process advance remark
  by_cases hdue : progress.isDue now = true
  · rw [if_pos hdue, if_pos hdue, Outlet.sendAll_singleton]
    refine (if_pos hdue).trans ?_
    rcases hsend : outlet.send (.progress (progress.counted.update now)) with ⟨next, accepted⟩
    dsimp only [counted] at hsend ⊢
    rw [hsend]
    cases accepted <;> rfl
  · rw [if_neg hdue, if_neg hdue]
    exact if_neg hdue

theorem offers_finish (now : Duration) (progress : Progress) :
    Offers (machine.finish now progress) progress [.progress (progress.update now)] :=
  .sending progress [.progress (progress.update now)]

end Progress

namespace Orphan

/-- The check once its verdict has been sent. -/
def closed (orphan : Orphan) : Orphan :=
  { orphan with
    crew := { orphan.crew.join orphan.staff with index := orphan.settled.drain.2 }
    malformed := []
    retained := orphan.settled.kept
    finished := true }

theorem offers_process (now : Duration) (root : DocumentId) (trustFlags : Bool)
    (staff : Reachability.Staff) (met : List Document) (document : Document) :
    Offers (machine.process now document (entered root trustFlags staff met))
      (entered root trustFlags staff (met ++ [document])) (notices root [document]) := by
  intro outlet
  change ∃ left, process document (entered root trustFlags staff met) outlet = _
  rw [process_entered]
  exact Offers.sending _ _ outlet

theorem offers_finish (now : Duration) (orphan : Orphan) :
    Offers (machine.finish now orphan) orphan.closed (verdict orphan) := by
  intro outlet
  change ∃ left, finish orphan outlet = _
  simp only [verdict_eq, settled, Outlet.sendAll_append outlet]
  unfold finish
  dsimp only
  split
  · next sent hsent =>
    rw [hsent]
    exact ⟨_, rfl⟩
  · next sent hsent =>
    rw [hsent]
    exact Offers.sending _ _ sent

end Orphan

end TreeAudit.Check
