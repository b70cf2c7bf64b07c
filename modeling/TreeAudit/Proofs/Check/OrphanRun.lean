import TreeAudit.Check.Orphan
import TreeAudit.Proofs.Check.Outlet
import TreeAudit.Proofs.Reachability.Crew

/-!
A run of the orphan check over a list of documents. Only live nodes other than the root
count (`live`); those with a parent are sent to the workers as edges, those without are
noted and reported at once. After any number of documents the state of the check is a
function of them and of the turns of its workers (`entered`, `process_entered`), and what
it has sent are the notices about the nodes without a parent. The end of the check sends
its verdict on that state (`finish_eq`), in which workers that can stand in for each other
do not show (`verdict_eq_of_interchangeable`).
-/

set_option autoImplicit false
set_option relaxedAutoImplicit false

namespace TreeAudit.Check.Orphan

open Report Reachability

/-- The live nodes other than the root. -/
def live (root : DocumentId) (documents : List Document) : List Document :=
  documents.filter fun document ↦ document.kind = .node ∧ document.id ≠ root

/-- The edges by which live nodes hang off their parents. -/
def edges (root : DocumentId) (trustFlags : Bool) (documents : List Document) : List Edge :=
  (live root documents).filterMap fun document ↦
    document.parent.map fun parent ↦ ⟨document.id, parent, !trustFlags || document.hasChildren⟩

/-- The ids of the live nodes that refer to no parent. -/
def parentless (root : DocumentId) (documents : List Document) : List DocumentId :=
  ((live root documents).filter fun document ↦ document.parent = none).map Document.id

/-- How many nodes there are, the root included. -/
def nodes (documents : List Document) : Nat :=
  documents.countP fun document ↦ document.kind = .node

/-- What the check holds after the documents. -/
def entered (root : DocumentId) (trustFlags : Bool) (staff : Staff) (documents : List Document) :
    Orphan where
  root := root
  trustFlags := trustFlags
  staff := staff
  crew := .sent staff root (edges root trustFlags documents)
  malformed := (parentless root documents).reverse
  examined := nodes documents
  retained := 0
  finished := false

/-- What is found when a node without a parent is met. -/
def notice (id : DocumentId) : Finding :=
  ⟨"orphan", .error, some id, none, "malformed document: missing parent reference"⟩

/-- What the check sends while it is given the documents. -/
def notices (root : DocumentId) (documents : List Document) : List Entry :=
  (parentless root documents).map fun id ↦ .finding (notice id)

/-- The index once all workers are at rest. -/
def settled (orphan : Orphan) : Sharded := (orphan.crew.join orphan.staff).index

/-- What is found of a reference to a parent out of reach, which is met or is not. -/
def diagnosis (met : Prop) [Decidable met] (reference : Unresolved) : Finding where
  check := "orphan"
  severity := .corruption
  id := some reference.id
  parent := some reference.parent
  description :=
    if met then "orphaned node: ancestor " ++ reference.parent.text ++ " is not reachable"
    else "orphaned node: missing parent " ++ reference.parent.text

/-- What is found at the end of a node without a parent. -/
def bareDiagnosis (id : DocumentId) : Finding :=
  ⟨"orphan", .corruption, some id, none, "orphaned node: no parent reference"⟩

/-- How many orphans there are among the nodes. -/
def tally (orphans examined : Nat) : String :=
  "orphan check orphans=" ++ toString orphans ++ " examined=" ++ toString examined

/-- What the check sends at the end. -/
def verdict (orphan : Orphan) : List Entry :=
  let unresolved := orphan.settled.drain.1
  let malformed := orphan.malformed.mergeSort byText
  let orphans := Std.HashSet.ofList (unresolved.map Unresolved.id ++ malformed)
  (unresolved.map fun reference ↦ .finding (diagnosis (reference.parent ∈ orphans) reference)) ++
    ((malformed.map fun id ↦ .finding (bareDiagnosis id)) ++
      [.status (tally (unresolved.length + malformed.length) orphan.examined)])

theorem verdict_eq (orphan : Orphan) :
    verdict orphan =
      (orphan.settled.drain.1.map fun reference ↦ .finding (orphanFinding (Std.HashSet.ofList
          (orphan.settled.drain.1.map Unresolved.id ++ orphan.malformed.mergeSort byText))
        reference)) ++
        ((orphan.malformed.mergeSort byText).map (fun id ↦ .finding (parentlessFinding id)) ++
          [.status (statusLine
            (orphan.settled.drain.1.length + (orphan.malformed.mergeSort byText).length)
            orphan.examined)]) := rfl

theorem diagnosis_congr {first second : Prop} [Decidable first] [Decidable second]
    (h : first ↔ second) (reference : Unresolved) :
    diagnosis first reference = diagnosis second reference := by
  simp only [diagnosis, h]

/-- Processes documents in order, up to the first failure. -/
def processAll : List Document → Orphan → Outlet → Answer Orphan
  | [], orphan, outlet => ⟨orphan, outlet, none⟩
  | document :: rest, orphan, outlet => (process document orphan outlet).andThen (processAll rest)

/-- Processes documents and then finishes, unless there was a failure. -/
def examine (root : DocumentId) (trustFlags : Bool) (staff : Staff) (documents : List Document)
    (outlet : Outlet) : Answer Orphan :=
  (processAll documents (start root trustFlags staff) outlet).andThen finish

section Membership

variable {root : DocumentId} {trustFlags : Bool} {documents : List Document}

theorem mem_live {document : Document} :
    document ∈ live root documents ↔
      document ∈ documents ∧ document.kind = .node ∧ document.id ≠ root := by
  simp only [live, List.mem_filter, decide_eq_true_eq]

theorem mem_edges {edge : Edge} :
    edge ∈ edges root trustFlags documents ↔
      ∃ document ∈ live root documents, document.id = edge.id ∧
        document.parent = some edge.parent ∧
          edge.retain = (!trustFlags || document.hasChildren) := by
  simp only [edges, List.mem_filterMap, Option.map_eq_some_iff]
  constructor
  · rintro ⟨document, hmem, parent, hparent, rfl⟩
    exact ⟨document, hmem, rfl, hparent, rfl⟩
  · rintro ⟨document, hmem, hid, hparent, hretain⟩
    exact ⟨document, hmem, edge.parent, hparent, by rw [hid, ← hretain]⟩

theorem mem_parentless {id : DocumentId} :
    id ∈ parentless root documents ↔
      ∃ document ∈ live root documents, document.id = id ∧ document.parent = none := by
  simp only [parentless, List.mem_map, List.mem_filter, decide_eq_true_eq]
  exact exists_congr fun document ↦ by tauto

end Membership

theorem start_eq_entered (root : DocumentId) (trustFlags : Bool) (staff : Staff) :
    start root trustFlags staff = entered root trustFlags staff [] := rfl

/-- One more document. -/
theorem process_entered (root : DocumentId) (trustFlags : Bool) (staff : Staff)
    (met : List Document) (document : Document) (outlet : Outlet) :
    process document (entered root trustFlags staff met) outlet =
      .sending (entered root trustFlags staff (met ++ [document])) outlet
        (notices root [document]) := by
  by_cases hkind : document.kind = .node
  · by_cases hid : document.id = root
    · simp [process, entered, notices, parentless, edges, live, nodes, hkind, hid]
    · cases hparent : document.parent with
      | none =>
        simp [process, entered, note, notices, notice, malformedFinding, checkName, parentless,
          edges, live, nodes, hkind, hid, hparent]
      | some parent =>
        simp [process, entered, send, edgeOf, notices, parentless, edges, live, nodes, hkind, hid,
          hparent, Crew.sent, Crew.sendAll, List.foldl_append]
  · simp [process, entered, notices, parentless, edges, live, nodes, hkind]

theorem notices_cons (root : DocumentId) (document : Document) (rest : List Document) :
    notices root (document :: rest) = notices root [document] ++ notices root rest := by
  simp only [notices, parentless, live, ← List.map_append, ← List.filter_append,
    List.singleton_append]

/-- After a list of documents the notices have been sent, and if they were all accepted the
state is that of all documents. -/
theorem processAll_entered (root : DocumentId) (trustFlags : Bool) (staff : Staff)
    (met rest : List Document) (outlet : Outlet) :
    ∃ state, processAll rest (entered root trustFlags staff met) outlet =
        .sending state outlet (notices root rest) ∧
      ((outlet.sendAll (notices root rest)).2 = true →
        state = entered root trustFlags staff (met ++ rest)) := by
  induction rest generalizing met outlet with
  | nil => exact ⟨_, rfl, fun _ ↦ by rw [List.append_nil]⟩
  | cons document rest ih =>
    obtain ⟨state, hrest, hstate⟩ :=
      ih (met ++ [document]) (outlet.sendAll (notices root [document])).1
    rw [processAll, process_entered, Answer.sending_andThen fun _ ↦ hrest,
      notices_cons root document rest]
    refine ⟨_, rfl, fun hall ↦ ?_⟩
    rw [Outlet.sendAll_append] at hall
    split_ifs at hall ⊢ with haccepted
    · rw [hstate hall, List.append_assoc, List.singleton_append]
    · exact absurd hall haccepted

/-- While the receiver stays, every document is processed. -/
theorem processAll_of_open (root : DocumentId) (trustFlags : Bool) (staff : Staff)
    (documents : List Document) {outlet : Outlet} (hopen : outlet.room = none) :
    processAll documents (start root trustFlags staff) outlet =
      ⟨entered root trustFlags staff documents,
        ⟨outlet.sent ++ (notices root documents).toArray, none⟩, none⟩ := by
  obtain ⟨state, hprocess, hstate⟩ := processAll_entered root trustFlags staff [] documents outlet
  have haccepted : (outlet.sendAll (notices root documents)).2 = true := by
    rw [Outlet.sendAll_of_open hopen]
  rw [start_eq_entered, hprocess, hstate haccepted, Answer.sending_of_open _ hopen,
    List.nil_append]

/-- The end sends the verdict, and takes down how many ids the index holds. -/
theorem finish_eq (orphan : Orphan) (outlet : Outlet) :
    ∃ state, finish orphan outlet = .sending state outlet (verdict orphan) ∧
      state.retained = orphan.settled.kept := by
  simp only [Answer.sending_eq, verdict_eq, settled, Outlet.sendAll_append outlet]
  unfold finish
  dsimp only
  split
  · next sent hsent =>
    rw [hsent]
    exact ⟨_, rfl, rfl⟩
  · next sent hsent =>
    rw [hsent]
    exact ⟨_, rfl, rfl⟩

/-- A run sends the notices and the verdict on all documents. -/
theorem examine_eq (root : DocumentId) (trustFlags : Bool) (staff : Staff)
    (documents : List Document) (outlet : Outlet) :
    ∃ state, examine root trustFlags staff documents outlet =
        .sending state outlet
          (notices root documents ++ verdict (entered root trustFlags staff documents)) ∧
      ((outlet.sendAll (notices root documents)).2 = true →
        state.retained = (entered root trustFlags staff documents).settled.kept) := by
  obtain ⟨state, hprocess, hstate⟩ := processAll_entered root trustFlags staff [] documents outlet
  obtain ⟨final, hfinish, hretained⟩ := finish_eq (entered root trustFlags staff documents)
    (outlet.sendAll (notices root documents)).1
  have hnext (haccepted : (outlet.sendAll (notices root documents)).2 = true) :
      finish state (outlet.sendAll (notices root documents)).1 =
        .sending final (outlet.sendAll (notices root documents)).1
          (verdict (entered root trustFlags staff documents)) := by
    rw [hstate haccepted, List.nil_append, hfinish]
  rw [examine, start_eq_entered, hprocess, Answer.sending_andThen hnext]
  exact ⟨_, rfl, fun haccepted ↦ by rw [if_pos haccepted, hretained]⟩

/-- While the receiver stays, a run does not fail and all it has to send is accepted. -/
theorem examine_of_open (root : DocumentId) (trustFlags : Bool) (staff : Staff)
    (documents : List Document) {outlet : Outlet} (hopen : outlet.room = none) :
    (examine root trustFlags staff documents outlet).failure = none ∧
      (examine root trustFlags staff documents outlet).outlet =
        ⟨outlet.sent ++ (notices root documents ++
          verdict (entered root trustFlags staff documents)).toArray, none⟩ := by
  obtain ⟨state, hexamine, -⟩ := examine_eq root trustFlags staff documents outlet
  rw [hexamine, Answer.sending_of_open _ hopen]
  exact ⟨rfl, rfl⟩

/-- Who enters the edges does not show in the verdict, as long as the one can stand in for the
other. -/
theorem verdict_eq_of_interchangeable {root : DocumentId} {trustFlags : Bool}
    {documents : List Document} {staff staff' : Staff}
    (h : Staff.Interchangeable (edges root trustFlags documents) staff staff') :
    verdict (entered root trustFlags staff documents) =
      verdict (entered root trustFlags staff' documents) := by
  have hdrain : (entered root trustFlags staff documents).settled.drain.1 =
      (entered root trustFlags staff' documents).settled.drain.1 :=
    (Crew.join_eq_of_interchangeable h root).1
  rw [verdict, verdict, hdrain]
  rfl

end TreeAudit.Check.Orphan
