import TreeAudit.Proofs.Check.Tells
import TreeAudit.Run

/-!
The course of a run. A scan takes documents until it cannot start, is stopped, meets an error
or has no more (`Ends`). If it is known what the checks hold after any documents, what they
say about one more and what they say at the end (`Course`), then it is known what a run
sends: its header, what is said about the documents taken, and either what the checks have to
say at the end with the outcome, or the reason of the failure alone (`conduct_eq`).
-/

set_option autoImplicit false
set_option relaxedAutoImplicit false

namespace TreeAudit

open Report Check

namespace Run

/-- How a scan ends, and after which documents. Whether to stop is looked at before each item
and before the end, so many documents having been taken. -/
inductive Ends (store : Store) (stopped : ℕ → Bool) : List Document → Except Error Outcome → Prop
  | notStarted {cause : Store.Error} (hscan : store.scan = .error cause) :
      Ends store stopped [] (.error (.notStarted store.name cause))
  | completed {documents : List Document} (hscan : store.scan = .ok (documents.map .ok))
      (hgoes : ∀ n ≤ documents.length, stopped n = false) :
      Ends store stopped documents (.ok .completed)
  | cancelled {documents : List Document} {rest : List Store.Item}
      (hscan : store.scan = .ok (documents.map .ok ++ rest))
      (hgoes : ∀ n < documents.length, stopped n = false)
      (hstops : stopped documents.length = true) :
      Ends store stopped documents (.ok .cancelled)
  | interrupted {documents : List Document} {cause : Store.Error} {rest : List Store.Item}
      (hscan : store.scan = .ok (documents.map .ok ++ .error cause :: rest))
      (hgoes : ∀ n ≤ documents.length, stopped n = false) :
      Ends store stopped documents (.error (.interrupted store.name documents.length cause))

namespace Ends

variable {store : Store} {stopped : ℕ → Bool} {documents documents' : List Document}
  {ended ended' : Except Error Outcome}

/-- How a scan ends that has taken so many documents and has the rest before it. -/
def before (store : String) (stopped : ℕ → Bool) (count : ℕ) (rest : List Store.Item) :
    Except Error Outcome :=
  if stopped count then .ok .cancelled
  else
    match rest with
    | .error cause :: _ => .error (.interrupted store count cause)
    | _ => .ok .completed

theorem eq_notStarted (h : Ends store stopped documents ended) {cause : Store.Error}
    (hscan : store.scan = .error cause) :
    documents = [] ∧ ended = .error (.notStarted store.name cause) := by
  cases h with
  | notStarted hnone =>
    obtain rfl := Except.error.inj (hscan.symm.trans hnone)
    exact ⟨rfl, rfl⟩
  | completed hall => cases hscan.symm.trans hall
  | cancelled hall => cases hscan.symm.trans hall
  | interrupted hall => cases hscan.symm.trans hall

/-- A scan that is not stopped ends before the next document only if there is none. -/
theorem exists_rest (h : Ends store stopped documents ended) {items : List Store.Item}
    (hscan : store.scan = .ok items) :
    ∃ rest, items = documents.map .ok ++ rest ∧ (∀ n < documents.length, stopped n = false) ∧
      (stopped documents.length = false → ∀ document tail, rest ≠ .ok document :: tail) ∧
      ended = before store.name stopped documents.length rest := by
  cases h with
  | notStarted hnone => cases hnone.symm.trans hscan
  | completed hall hgoes =>
    refine ⟨[], ?_, fun n hn ↦ hgoes n (Nat.le_of_lt hn), fun _ _ _ ↦ nofun, ?_⟩
    · rw [List.append_nil]
      exact Except.ok.inj (hscan.symm.trans hall)
    · unfold before
      rw [hgoes _ (Nat.le_refl _)]
      rfl
  | cancelled hall hgoes hstops =>
    refine ⟨_, Except.ok.inj (hscan.symm.trans hall), hgoes, ?_, ?_⟩
    · exact fun hgoes ↦ absurd (hgoes.symm.trans hstops) Bool.false_ne_true
    · unfold before
      rw [if_pos hstops]
  | interrupted hall hgoes =>
    refine ⟨_, Except.ok.inj (hscan.symm.trans hall), fun n hn ↦ hgoes n (Nat.le_of_lt hn),
      fun _ _ _ ↦ nofun, ?_⟩
    unfold before
    rw [hgoes _ (Nat.le_refl _)]
    rfl

theorem append_cases {rest rest' : List Store.Item}
    (h : documents.map .ok ++ rest = documents'.map .ok ++ rest') :
    (documents = documents' ∧ rest = rest') ∨
      (documents.length < documents'.length ∧ ∃ document tail, rest = .ok document :: tail) ∨
      (documents'.length < documents.length ∧ ∃ document tail, rest' = .ok document :: tail) := by
  induction documents generalizing documents' with
  | nil =>
    cases documents' with
    | nil => exact .inl ⟨rfl, h⟩
    | cons document tail => exact .inr (.inl ⟨by simp, document, _, h⟩)
  | cons first others ih =>
    cases documents' with
    | nil => exact .inr (.inr ⟨by simp, first, _, h.symm⟩)
    | cons first' others' =>
      obtain ⟨hfirst, hothers⟩ := List.cons.inj h
      obtain rfl := Except.ok.inj hfirst
      rw [List.length_cons, List.length_cons, Nat.succ_lt_succ_iff, Nat.succ_lt_succ_iff]
      refine (ih hothers).imp_left fun ⟨hsame, hrest⟩ ↦ ⟨?_, hrest⟩
      rw [hsame]

/-- A scan ends in one way only. -/
theorem unique (h : Ends store stopped documents ended)
    (h' : Ends store stopped documents' ended') : documents = documents' ∧ ended = ended' := by
  cases hscan : store.scan with
  | error cause =>
    obtain ⟨rfl, rfl⟩ := h.eq_notStarted hscan
    obtain ⟨rfl, rfl⟩ := h'.eq_notStarted hscan
    exact ⟨rfl, rfl⟩
  | ok items =>
    obtain ⟨rest, hitems, hgoes, hmore, rfl⟩ := h.exists_rest hscan
    obtain ⟨rest', hitems', hgoes', hmore', rfl⟩ := h'.exists_rest hscan
    rcases append_cases (hitems.symm.trans hitems') with
      ⟨rfl, rfl⟩ | ⟨hlt, document, tail, hrest⟩ | ⟨hlt, document, tail, hrest⟩
    · exact ⟨rfl, rfl⟩
    · exact absurd hrest (hmore (hgoes' _ hlt) document tail)
    · exact absurd hrest (hmore' (hgoes _ hlt) document tail)

end Ends

/-- The first line of a report. -/
def firstLine (config : Config) (store : String) : String :=
  "check run_id=" ++ config.runId ++ " store=" ++ store ++ " root=" ++ config.root.text

theorem headerLine_eq (config : Config) (store : String) :
    headerLine config store = firstLine config store := rfl

/-- The last line of a report, unless the scan failed. -/
def lastLine (outcome : Outcome) (documents : ℕ) (elapsed : Duration) : String :=
  match outcome with
  | .completed => "run completed documents=" ++ toString documents ++ " elapsed=" ++ elapsed.text
  | .cancelled => "run cancelled documents=" ++ toString documents ++ " elapsed=" ++ elapsed.text

theorem outcomeLine_eq (outcome : Outcome) (documents : ℕ) (elapsed : Duration) :
    outcomeLine outcome documents elapsed = lastLine outcome documents elapsed := by
  cases outcome <;> rfl

/-- What checks hold and say while documents are given to them, and at the end, their
receiver staying. -/
structure Course {σ : Type} (machine : Machine σ) (clock : Clock) where
  held : List Document → σ
  remarks : List Document → Document → List Entry
  process_tells : ∀ met document,
    Tells (machine.process (clock.document met.length) document (held met))
      (held (met ++ [document])) (remarks met document) none
  closed : List Document → σ
  conclusions : List Document → List Entry
  finish_tells : ∀ documents,
    Tells (machine.finish clock.scanned (held documents)) (closed documents)
      (conclusions documents) none

namespace Course

variable {σ : Type} {machine : Machine σ} {clock : Clock} (course : Course machine clock)

/-- What is said about documents that come after others. -/
def told (met : List Document) : List Document → List Entry
  | [] => []
  | document :: rest => course.remarks met document ++ told (met ++ [document]) rest

/-- What is said after the last document: conclusions only if the scan did not fail. -/
def ending (documents : List Document) : Except Error Outcome → List Entry
  | .error error => [.status ("run failed: " ++ error.message)]
  | .ok outcome => course.conclusions documents ++
      [.status (lastLine outcome documents.length (clock.finish.since clock.start))]

/-- Everything a run sends before the closing mark. -/
def stream (config : Config) (store : Store) (documents : List Document)
    (ended : Except Error Outcome) : List Entry :=
  .status (firstLine config store.name) ::
    (course.told [] documents ++ course.ending documents ended)

theorem told_concat (met documents : List Document) (document : Document) :
    course.told met (documents ++ [document]) =
      course.told met documents ++ course.remarks (met ++ documents) document := by
  induction documents generalizing met with
  | nil => simp [told]
  | cons first rest ih =>
    rw [List.cons_append, told, told, ih, List.append_assoc, List.append_assoc,
      List.singleton_append]

theorem goes_on {stopped : ℕ → Bool} {count : ℕ} (hgoes : ∀ n < count, stopped n = false)
    (hstop : stopped count = false) : ∀ n ≤ count, stopped n = false := by
  intro n hn
  rcases Nat.lt_or_eq_of_le hn with hlt | rfl
  · exact hgoes n hlt
  · exact hstop

/-- The scan from some documents on. -/
theorem run_scan {store : Store} {stopped : ℕ → Bool} {met : List Document}
    {items : List Store.Item} (hscan : store.scan = .ok (met.map .ok ++ items))
    (hgoes : ∀ n < met.length, stopped n = false) (sent : List Entry) :
    ∃ documents ended, Ends store stopped documents ended ∧
      Scan.run machine clock.document stopped store.name
          ⟨course.held met, ⟨(sent ++ course.told [] met).toArray, none⟩, met.length⟩ items =
        ⟨⟨course.held documents, ⟨(sent ++ course.told [] documents).toArray, none⟩,
          documents.length⟩, ended⟩ := by
  induction items generalizing met with
  | nil =>
    cases hstop : stopped met.length with
    | true =>
      refine ⟨met, _, .cancelled hscan hgoes hstop, ?_⟩
      simp only [Scan.run, hstop, if_true]
    | false =>
      rw [List.append_nil] at hscan
      refine ⟨met, _, .completed hscan (goes_on hgoes hstop), ?_⟩
      simp only [Scan.run, hstop, Bool.false_eq_true, if_false]
  | cons item rest ih =>
    cases hstop : stopped met.length with
    | true =>
      refine ⟨met, _, .cancelled hscan hgoes hstop, ?_⟩
      simp only [Scan.run, hstop, if_true]
    | false =>
      cases item with
      | error cause =>
        refine ⟨met, _, .interrupted hscan (goes_on hgoes hstop), ?_⟩
        simp only [Scan.run, Scan.take, hstop, Bool.false_eq_true, if_false]
      | ok document =>
        have hscan' : store.scan = .ok ((met ++ [document]).map .ok ++ rest) := by
          rw [hscan, List.map_append, List.append_assoc]
          rfl
        have hgoes' : ∀ n < (met ++ [document]).length, stopped n = false := by
          intro n hn
          rw [List.length_append, List.length_singleton] at hn
          exact goes_on hgoes hstop n (Nat.le_of_lt_succ hn)
        have htold : (sent ++ course.told [] (met ++ [document])).toArray =
            (sent ++ course.told [] met).toArray ++ (course.remarks met document).toArray := by
          rw [told_concat, List.nil_append, List.append_toArray, List.append_assoc]
        have hprocess := course.process_tells met document
          ⟨(sent ++ course.told [] met).toArray, none⟩ rfl
        obtain ⟨documents, ended, hends, hrun⟩ := ih hscan' hgoes'
        refine ⟨documents, ended, hends, ?_⟩
        rw [← hrun, htold, List.length_append, List.length_singleton]
        simp only [Scan.run, Scan.take, hstop, Bool.false_eq_true, if_false, hprocess,
          Option.map_none]

/-- What is left to do after the scan. -/
theorem settleScan_eq (sent : List Entry) (documents : List Document)
    (ended : Except Error Outcome) :
    settleScan machine clock
        ⟨⟨course.held documents, ⟨sent.toArray, none⟩, documents.length⟩, ended⟩ =
      ⟨⟨(sent ++ course.ending documents ended).toArray, none⟩,
        ended.map fun outcome ↦ (outcome, documents.length)⟩ := by
  cases ended with
  | error error => simp [settleScan, fail, failureLine, Outlet.send, ending, Except.map]
  | ok outcome =>
    have hfinish := course.finish_tells documents ⟨sent.toArray, none⟩ rfl
    simp [settleScan, conclude, outcomeLine_eq, hfinish, Outlet.send, ending, Except.map]

/-- What a run sends, and how it ends. -/
theorem conduct_eq (stopped : ℕ → Bool) (config : Config) (store : Store) :
    ∃ documents ended, Ends store stopped documents ended ∧
      conduct machine clock stopped config store (course.held []) .unbounded =
        ⟨⟨(course.stream config store documents ended).toArray, none⟩,
          ended.map fun outcome ↦ (outcome, documents.length)⟩ := by
  let header : List Entry := [.status (firstLine config store.name)]
  have hsend : Outlet.unbounded.send (.status (firstLine config store.name)) =
      (⟨header.toArray, none⟩, true) := rfl
  rw [conduct, headerLine_eq, hsend]
  cases hscan : store.scan with
  | error cause => exact ⟨[], _, .notStarted hscan, rfl⟩
  | ok items =>
    have hnone : ∀ n < ([] : List Document).length, stopped n = false := nofun
    obtain ⟨documents, ended, hends, hrun⟩ := course.run_scan hscan hnone header
    rw [told, List.append_nil, List.length_nil] at hrun
    refine ⟨documents, ended, hends, ?_⟩
    dsimp only
    rw [hrun, settleScan_eq, List.append_assoc]
    rfl

end Course

end Run

end TreeAudit
