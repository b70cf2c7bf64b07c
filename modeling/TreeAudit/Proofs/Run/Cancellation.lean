import TreeAudit.Proofs.Run.Timing

/-!
Runs that are stopped. A run that is stopped while an item comes, or before the first, takes the
documents that a run takes which is left to itself and finds no further items
(`Ends.upTo`). So it reports the same, by another clock up to times, and tells of the same number of
documents and findings; only where it found documents all the way it says in its last line that
it was stopped (`run_stopAfter`). If an item before that is an error both fail, for that reason.
-/

set_option autoImplicit false
set_option relaxedAutoImplicit false

namespace TreeAudit

open Report Check

/-- The store that ends after its first items. -/
def Store.upTo (count : ℕ) (store : Store) : Store :=
  { store with scan := store.scan.map (·.take count) }

theorem Store.scan_upTo {store : Store} {items : List Store.Item} (hscan : store.scan = .ok items)
    (count : ℕ) : (store.upTo count).scan = .ok (items.take count) := by
  rw [upTo, hscan]
  rfl

/-- The store has so many items at least, and the first ones are documents. -/
def Store.Gives (store : Store) (count : ℕ) : Prop :=
  ∃ (documents : List Document) (rest : List Store.Item), documents.length = count ∧
    store.scan = .ok (documents.map .ok ++ rest)

namespace Run

/-- Asked to stop while that item comes, the first being item one, or at once. -/
def stopAfter (count : ℕ) : ℕ → Bool := fun taken ↦ count ≤ taken

/-- How a scan would have ended that was left to itself. -/
def unstopped (ended : Except Error Outcome) : Except Error Outcome :=
  ended.map fun _ ↦ .completed

namespace Ends

variable {store : Store} {count : ℕ} {documents : List Document} {ended : Except Error Outcome}

/-- Being stopped while an item comes is the same as finding no more. -/
theorem upTo (h : Ends store (stopAfter count) documents ended) :
    Ends (store.upTo count) (fun _ ↦ false) documents (unstopped ended) := by
  cases h with
  | @notStarted cause hscan =>
    have hnone : (store.upTo count).scan = .error cause := by
      rw [Store.upTo, hscan]
      rfl
    exact .notStarted hnone
  | completed hscan hgoes =>
    have hshort : documents.length < count := by simpa [stopAfter] using hgoes _ (Nat.le_refl _)
    refine .completed ?_ fun _ _ ↦ rfl
    rw [Store.scan_upTo hscan, List.take_of_length_le (by simp [hshort.le])]
  | @cancelled _ rest hscan hgoes hstops =>
    have hlong : count ≤ documents.length := by simpa [stopAfter] using hstops
    -- the scan went on after each of fewer documents, so it took no more than it was to take
    have hshort : documents.length ≤ count := by
      by_contra hlt
      exact absurd (hgoes count (Nat.lt_of_not_le hlt)) (by simp [stopAfter])
    obtain rfl := Nat.le_antisymm hlong hshort
    refine .completed ?_ fun _ _ ↦ rfl
    rw [Store.scan_upTo hscan, List.take_left' (List.length_map _)]
  | @interrupted _ cause rest hscan hgoes =>
    have hshort : documents.length < count := by simpa [stopAfter] using hgoes _ (Nat.le_refl _)
    obtain ⟨more, rfl⟩ : ∃ more, count = documents.length + (more + 1) :=
      ⟨count - documents.length - 1, by omega⟩
    have htaken : (store.upTo (documents.length + (more + 1))).scan =
        .ok (documents.map .ok ++ .error cause :: rest.take more) := by
      have hlength : documents.length = (documents.map Except.ok : List Store.Item).length :=
        (List.length_map _).symm
      rw [Store.scan_upTo hscan, hlength, List.take_length_add_append, List.take_succ_cons]
    exact .interrupted htaken fun _ _ ↦ rfl

theorem eq_cancelled (h : Ends store (stopAfter count) documents ended)
    (hgives : store.Gives count) : ended = .ok .cancelled ∧ documents.length = count := by
  obtain ⟨given, rest, rfl, hscan⟩ := hgives
  have hgoes : ∀ n < given.length, stopAfter given.length n = false := by simp [stopAfter]
  have hstops : stopAfter given.length given.length = true := by simp [stopAfter]
  obtain ⟨rfl, rfl⟩ := h.unique (.cancelled hscan hgoes hstops)
  exact ⟨rfl, rfl⟩

theorem unstopped_eq (h : Ends store (stopAfter count) documents ended)
    (hgives : ¬ store.Gives count) : unstopped ended = ended := by
  cases h with
  | notStarted => rfl
  | completed => rfl
  | interrupted => rfl
  | @cancelled _ rest hscan hgoes hstops =>
    have hlong : count ≤ documents.length := by simpa [stopAfter] using hstops
    refine absurd ⟨documents.take count, (documents.drop count).map .ok ++ rest, ?_, ?_⟩ hgives
    · rw [List.length_take, Nat.min_eq_left hlong]
    · rw [hscan, ← List.append_assoc, ← List.map_append, List.take_append_drop]

/-- An error among the items that come before the run is stopped makes it fail. -/
theorem exists_error (h : Ends store (stopAfter count) documents ended)
    {items : List Store.Item} (hscan : store.scan = .ok items) {cause : Store.Error}
    (hmem : .error cause ∈ items.take count) : ∃ error, ended = .error error := by
  cases ended with
  | error error => exact ⟨error, rfl⟩
  | ok outcome =>
    cases h.upTo with
    | completed hall =>
      rw [Except.ok.inj ((Store.scan_upTo hscan count).symm.trans hall)] at hmem
      obtain ⟨_, -, hok⟩ := List.mem_map.mp hmem
      cases hok

end Ends

section Streams

variable (clock clock' : Clock) (request : Request) (total : Option ℕ) (store : Store)
  (documents : List Document) (ended : Except Error Outcome)

/-- That a scan was stopped shows in the last line of the report. -/
theorem dropLast_stream_unstopped :
    ((course clock request total).stream request.config store documents
        (unstopped ended)).dropLast =
      ((course clock request total).stream request.config store documents ended).dropLast := by
  cases ended with
  | error error => rfl
  | ok outcome =>
    simp only [unstopped, Except.map, Course.stream, Course.ending, ← List.append_assoc,
      ← List.cons_append, List.dropLast_concat]

/-- The last line tells whether the scan was stopped. -/
theorem getLast?_stream (outcome : Outcome) :
    ((course clock request total).stream request.config store documents (.ok outcome)).getLast? =
      some (.status (lastLine outcome documents.length (clock.finish.since clock.start))) := by
  rw [Course.stream, Course.ending, ← List.append_assoc, ← List.cons_append,
    List.getLast?_concat]

variable {clock clock' request documents}

theorem countP_isFinding_stream_unstopped
    (hturns : TurnsIndifferent request documents clock clock') :
    ((course clock' request total).stream request.config store documents
        (unstopped ended)).countP Entry.isFinding =
      ((course clock request total).stream request.config store documents ended).countP
        Entry.isFinding := by
  have htold := Entry.SameButTimes.countP_isFinding_eq
    (forall₂_untimed_told clock clock' request total [] documents)
  have hconclusions := Entry.SameButTimes.countP_isFinding_eq (forall₂_conclusions total hturns)
  rw [countP_isFinding_untimed, countP_isFinding_untimed] at htold
  have hline (text : String) (entries : List Entry) :
      (.status text :: entries).countP Entry.isFinding = entries.countP Entry.isFinding := rfl
  cases ended with
  | error error =>
    rw [unstopped, Except.map, Course.stream, Course.stream, Course.ending, Course.ending, hline,
      hline, List.countP_append, List.countP_append, htold]
  | ok outcome =>
    rw [unstopped, Except.map, Course.stream, Course.stream, Course.ending, Course.ending, hline,
      hline, List.countP_append, List.countP_append, List.countP_append, List.countP_append,
      hline, hline, htold, hconclusions]

end Streams

end Run

end TreeAudit
