import TreeAudit.Proofs.Output.Crash
import TreeAudit.Proofs.Run.Stream

/-!
Runs whose receiver leaves. However many entries the receiver takes before it goes, what it has
taken are the first entries of what the run has to say (`conduct_outlet`, `runUntil_eq`): the
checks end their call at the first entry that is refused, the scan breaks off there, and nothing is
sent after that. So a writer that crashes makes the run fail for this reason wherever the scan is
by then, and each sink is closed once, whether it has crashed, has been given the entry of the
crash or has not (`run_closes_once`).
-/

set_option autoImplicit false
set_option relaxedAutoImplicit false

namespace TreeAudit

open Report Check

namespace Check.Outlet

/-- An outlet that has refused an entry has no room left. -/
theorem room_of_refused {outlet : Outlet} {entries : List Entry}
    (h : (outlet.sendAll entries).2 = false) : (outlet.sendAll entries).1.room = some 0 := by
  induction entries generalizing outlet with
  | nil => cases h
  | cons entry rest ih =>
    rw [sendAll_cons] at h ⊢
    split_ifs at h ⊢ with haccepted
    · exact ih h
    · unfold send at haccepted ⊢
      cases hroom : outlet.room with
      | none => simp [hroom] at haccepted
      | some room =>
        cases room with
        | zero => simp [hroom]
        | succ room => simp [hroom] at haccepted

/-- Once an entry has been refused, any other is. -/
theorem send_of_refused {outlet : Outlet} {entries : List Entry}
    (h : (outlet.sendAll entries).2 = false) (entry : Entry) :
    (outlet.sendAll entries).1.send entry = ((outlet.sendAll entries).1, false) := by
  rw [send, room_of_refused h]

/-- An outlet takes as many entries as it has room for. -/
theorem sent_sendAll {outlet : Outlet} {room : ℕ} (hroom : outlet.room = some room)
    (entries : List Entry) :
    (outlet.sendAll entries).1.sent = outlet.sent ++ (entries.take room).toArray := by
  induction entries generalizing outlet room with
  | nil => simp
  | cons entry rest ih =>
    obtain ⟨sent, room'⟩ := outlet
    obtain rfl : room' = some room := hroom
    rw [sendAll_cons]
    cases room with
    | zero => simp [send]
    | succ room =>
      have hrest := @ih ⟨sent.push entry, some room⟩ room rfl
      simp [send, hrest]

end Check.Outlet

namespace Run

namespace Course

variable {σ : Type} {machine : Machine σ} {clock : Clock} (course : Course machine clock)

/-- The checks of a course say what they have to say up to the first entry that is refused. -/
structure Offering : Prop where
  process : ∀ met document,
    Offers (machine.process (clock.document met.length) document (course.held met))
      (course.held (met ++ [document])) (course.remarks met document)
  finish : ∀ documents,
    Offers (machine.finish clock.scanned (course.held documents)) (course.closed documents)
      (course.conclusions documents)

variable {course}

theorem fail_outlet (error : Error) (outlet : Outlet) :
    (fail error outlet).outlet =
      (outlet.sendAll [.status ("run failed: " ++ error.message)]).1 := by
  rw [Outlet.sendAll_singleton]
  rfl

/-- Nothing is said about a failure to a receiver that has gone. -/
theorem fail_outlet_of_refused {outlet : Outlet} {entries : List Entry}
    (h : (outlet.sendAll entries).2 = false) (error : Error) :
    (fail error (outlet.sendAll entries).1).outlet = (outlet.sendAll entries).1 := by
  rw [fail, Outlet.send_of_refused h]

/-- After the scan. -/
theorem settleScan_outlet (hoffering : course.Offering) (documents : List Document)
    (ended : Except Error Outcome) (outlet : Outlet) :
    (settleScan machine clock
        ⟨⟨course.held documents, outlet, documents.length⟩, ended⟩).outlet =
      (outlet.sendAll (course.ending documents ended)).1 := by
  cases ended with
  | error error => exact fail_outlet error outlet
  | ok outcome =>
    obtain ⟨left, hfinish⟩ := hoffering.finish documents outlet
    rw [ending, Outlet.sendAll_append]
    cases haccepted : (outlet.sendAll (course.conclusions documents)).2 with
    | false => simp [settleScan, conclude, hfinish, haccepted]
    | true =>
      simp only [settleScan, conclude, outcomeLine_eq, hfinish, haccepted, if_true,
        Outlet.sendAll_singleton]
      split <;> simp [*]

/-- From some documents on. -/
theorem run_scan_outlet (hoffering : course.Offering) {store : Store} {stopped : ℕ → Bool}
    {met : List Document} {items : List Store.Item}
    (hscan : store.scan = .ok (met.map .ok ++ items))
    (hgoes : ∀ n < met.length, stopped n = false) :
    ∃ more ended, Ends store stopped (met ++ more) ended ∧ ∀ outlet,
      (settleScan machine clock (Scan.run machine clock.document stopped store.name
          ⟨course.held met, outlet, met.length⟩ items)).outlet =
        (outlet.sendAll (course.told met more ++ course.ending (met ++ more) ended)).1 := by
  induction items generalizing met with
  | nil =>
    refine ⟨[], if stopped met.length then .ok .cancelled else .ok .completed, ?_, fun outlet ↦ ?_⟩
    · rw [List.append_nil] at hscan ⊢
      cases hstop : stopped met.length with
      | true => exact .cancelled (hscan.trans (by rw [List.append_nil])) hgoes hstop
      | false => exact .completed hscan (goes_on hgoes hstop)
    · rw [told, List.nil_append, List.append_nil, ← settleScan_outlet hoffering, Scan.run]
      cases stopped met.length <;> rfl
  | cons item rest ih =>
    cases hstop : stopped met.length with
    | true =>
      refine ⟨[], .ok .cancelled, ?_, fun outlet ↦ ?_⟩
      · rw [List.append_nil]
        exact .cancelled hscan hgoes hstop
      · rw [told, List.nil_append, List.append_nil, ← settleScan_outlet hoffering, Scan.run,
          if_pos hstop]
    | false =>
      have hgoes' := goes_on hgoes hstop
      cases item with
      | error cause =>
        refine ⟨[], .error (.interrupted store.name met.length cause), ?_, fun outlet ↦ ?_⟩
        · rw [List.append_nil]
          exact .interrupted hscan hgoes'
        · rw [told, List.nil_append, List.append_nil, ← settleScan_outlet hoffering]
          simp only [Scan.run, Scan.take, hstop, Bool.false_eq_true, if_false]
      | ok document =>
        have hscan' : store.scan = .ok ((met ++ [document]).map .ok ++ rest) := by
          rw [hscan, List.map_append, List.append_assoc]
          rfl
        obtain ⟨more, ended, hends, hmore⟩ := ih hscan' fun n hn ↦
          hgoes' n (by rw [List.length_append, List.length_singleton] at hn; omega)
        refine ⟨document :: more, ended, ?_, fun outlet ↦ ?_⟩
        · rwa [← List.singleton_append, ← List.append_assoc]
        obtain ⟨left, hprocess⟩ := hoffering.process met document outlet
        rw [told, List.append_assoc, Outlet.sendAll_append]
        cases haccepted : (outlet.sendAll (course.remarks met document)).2 with
        | true =>
          have hrest := hmore (outlet.sendAll (course.remarks met document)).1
          rw [List.length_append, List.length_singleton, List.append_assoc,
            List.singleton_append] at hrest
          simp only [Scan.run, Scan.take, hstop, Bool.false_eq_true, if_false, hprocess, haccepted,
            if_true, Option.map_none]
          exact hrest
        | false =>
          simp only [Scan.run, Scan.take, hstop, Bool.false_eq_true, if_false, hprocess, haccepted,
            Option.map_some, settleScan, fail_outlet_of_refused haccepted]

/-- What a receiver takes of a run before it goes is what it takes of the stream. -/
theorem conduct_outlet (hoffering : course.Offering) {stopped : ℕ → Bool} (config : Config)
    {store : Store} {documents : List Document} {ended : Except Error Outcome}
    (hends : Ends store stopped documents ended) (outlet : Outlet) :
    (conduct machine clock stopped config store (course.held []) outlet).outlet =
      (outlet.sendAll (course.stream config store documents ended)).1 := by
  rcases hsend : outlet.send (.status (firstLine config store.name)) with ⟨next, accepted⟩
  rw [conduct, headerLine_eq, stream, Outlet.sendAll_cons, hsend]
  cases accepted with
  | false =>
    rw [← Outlet.sendAll_singleton] at hsend
    have hrefused := fail_outlet_of_refused (congrArg Prod.snd hsend)
    rw [hsend] at hrefused
    exact hrefused _
  | true =>
    cases hscan : store.scan with
    | error cause =>
      obtain ⟨rfl, rfl⟩ := hends.eq_notStarted hscan
      exact fail_outlet _ next
    | ok items =>
      obtain ⟨more, ended', hends', hrun⟩ :=
        @run_scan_outlet _ _ _ _ hoffering _ _ [] _ hscan fun n hn ↦ absurd hn (Nat.not_lt_zero n)
      obtain ⟨rfl, rfl⟩ := hends.unique hends'
      exact hrun next

end Course

variable (clock : Clock) (stopped : ℕ → Bool) (request : Request) (store : Store)

theorem offering_course (total : Option ℕ) : (course clock request total).Offering where
  process met document := Composite.offers_process_group fun kind _ ↦
    Composite.offers_process_single (offers_process clock request total met document kind)
  finish documents := Composite.offers_finish_group fun kind _ ↦
    Composite.offers_finish_single (offers_finish clock request total documents kind)

/-- What a run sends whose receiver takes so many entries and then goes, and how it ends. -/
def conductUntil (room : ℕ) : Conducted :=
  conduct (Composite.machineOf Builtin.machine) clock stopped request.config store
    (request.selection.composite request.config store.estimate clock.start clock.chance)
    ⟨#[], some room⟩

/-- A run whose writer goes when it has taken so many entries, the closing mark not among them. -/
def runUntil {τ : Type} (sink : Output.Sink τ) (room : ℕ) (sinks : List τ) : Finished τ :=
  let conducted := conductUntil clock stopped request store room
  let written := Output.Writer.write sink sinks conducted.outlet.sent.toList
  ⟨written.sinks, settle conducted.ended written.tally⟩

/-- The entries taken are the first of those sent to a receiver that stays. -/
theorem sent_conductUntil (room : ℕ) {stream : List Entry}
    (hstream : (entries clock stopped request store).1 = stream ++ [.closing]) :
    (conductUntil clock stopped request store room).outlet.sent.toList = stream.take room := by
  obtain ⟨documents, ended, hends, hentries⟩ := entries_eq clock request stopped store
  rw [hentries, List.append_cancel_right_eq] at hstream
  rw [conductUntil, composite_eq_held,
    Course.conduct_outlet (offering_course clock request store.estimate) request.config hends,
    Outlet.sent_sendAll rfl, hstream]
  simp

variable {τ : Type} {sink : Output.Sink τ} {sinks : List τ}

/-- A crash of the writer is what becomes of the run. -/
theorem run_of_crash (hvalid : request.selection.fault? = none)
    (crash : sink.FirstCrash sinks
      (Output.Writer.upToClosing (entries clock stopped request store).1)) :
    run sink clock stopped request store sinks =
      ⟨(crash.before ++ [crash.crasher]).map (sink.served crash.met) ++
        crash.after.map (sink.served crash.given), .error .writerCrashed⟩ := by
  have hwrite := Output.Writer.write_crash
    (crash.ofPrefix List.takeWhile_append_dropWhile) (Output.Writer.closing_notMem_met crash)
  rw [run, hvalid]
  dsimp only
  rw [hwrite]
  rfl

/-- Whether the scan notices that the writer has crashed makes no difference to a run. -/
theorem runUntil_eq (hvalid : request.selection.fault? = none)
    (crash : sink.FirstCrash sinks
      (Output.Writer.upToClosing (entries clock stopped request store).1))
    {room : ℕ} (hroom : crash.given.length < room) :
    runUntil clock stopped request store sink room sinks =
      run sink clock stopped request store sinks := by
  obtain ⟨documents, ended, hends, hentries⟩ := entries_eq clock request stopped store
  have hstream := congrArg Prod.fst hentries
  have hshown : Output.Writer.upToClosing (entries clock stopped request store).1 =
      (course clock request store.estimate).stream request.config store documents ended := by
    rw [hstream, Output.Writer.upToClosing_append
      (closing_notMem_stream clock request store.estimate store documents ended)]
  have hopen := Output.Writer.closing_notMem_met crash
  rw [run_of_crash clock stopped request store hvalid crash, runUntil,
    sent_conductUntil clock stopped request store room hstream, ← hshown,
    Output.Writer.write_crash (crash.ofTake hroom) hopen]
  rfl

/-- Every sink is closed once, whatever becomes of the writing. Sinks that survive are given every
entry before the closing mark. If a sink crashes, those before it have been given the entry and
those behind it have not, none is given anything more, and the run fails because of the crash,
whatever the scan came to and wherever it is when it notices. -/
theorem run_closes_once (sink : Output.Sink τ) (sinks : List τ) :
    (∀ entries : List Entry,
      let shown := Output.Writer.upToClosing entries
      ((∀ state ∈ sinks, sink.Survives shown state) ∨ Nonempty (sink.FirstCrash sinks shown)) ∧
        ((∀ state ∈ sinks, sink.Survives shown state) →
          (∃ tally, (Output.Writer.write sink sinks entries).tally = some tally) ∧
            Output.Writer.calls sink sinks entries =
              sinks.map fun _ ↦ shown.map .write ++ [.close]) ∧
        ∀ crash : sink.FirstCrash sinks shown,
          (Output.Writer.write sink sinks entries).tally = none ∧
            Output.Writer.calls sink sinks entries =
              (crash.before ++ [crash.crasher]).map (fun _ ↦ crash.met.map .write ++ [.close]) ++
                crash.after.map fun _ ↦ crash.given.map .write ++ [.close]) ∧
    ∀ (clock : Clock) (stopped : ℕ → Bool) (request : Request) (store : Store),
      request.selection.fault? = none →
        let stream := (entries clock stopped request store).1
        ((run sink.recording clock stopped request store (sinks.map (·, []))).sinks.map Prod.snd =
          Output.Writer.calls sink sinks stream) ∧
        ∀ crash : sink.FirstCrash sinks (Output.Writer.upToClosing stream),
          (run sink clock stopped request store sinks).result = .error .writerCrashed ∧
            Error.message .writerCrashed = "result writer panicked" ∧
            ∀ room, crash.given.length < room →
              runUntil clock stopped request store sink room sinks =
                run sink clock stopped request store sinks := by
  refine ⟨fun entries ↦ ?_, fun clock stopped request store hvalid ↦ ?_⟩
  · intro shown
    refine ⟨Output.Writer.survives_or_crash sinks shown, fun hsinks ↦ ⟨?_, ?_⟩,
      fun crash ↦ ⟨?_, ?_⟩⟩
    · rw [Output.Writer.write_of_survives sinks entries hsinks]
      exact ⟨_, rfl⟩
    · exact Output.Writer.calls_of_survives hsinks
    · rw [Output.Writer.write_crash (crash.ofPrefix List.takeWhile_append_dropWhile)
        (Output.Writer.closing_notMem_met crash)]
    · exact Output.Writer.calls_of_crash (crash.ofPrefix List.takeWhile_append_dropWhile)
        (Output.Writer.closing_notMem_met crash)
  · intro stream
    refine ⟨?_, fun crash ↦ ?_⟩
    · rw [run, hvalid]
      rfl
    · have hrun := run_of_crash clock stopped request store hvalid crash
      exact ⟨congrArg Finished.result hrun, rfl,
        fun _ hroom ↦ runUntil_eq clock stopped request store hvalid crash hroom⟩

theorem run_closes_once_brokenOff :
    let clock : Clock := ⟨.zero, fun _ ↦ .zero, .zero, .zero, .prompt⟩
    let request : Request := ⟨{ runId := "r" }, { summary := true, orphan := true }⟩
    let finished := run Output.brittle clock (fun _ ↦ false) request brokenOff [0, 1, 0]
    request.selection.fault? = none ∧ finished.sinks = [12, 13, 11] ∧
      finished.result = .error .writerCrashed ∧
      runUntil clock (fun _ ↦ false) request brokenOff Output.brittle 2 [0, 1, 0] = finished := by
  intro clock request finished
  have hvalid : request.selection.fault? = none := by decide
  let header : Entry := .status "check run_id=r store=memory root=0:/"
  have hstream : Output.Writer.upToClosing (entries clock (fun _ ↦ false) request brokenOff).1 =
      [header, .status
        "run failed: memory scan failed after 1 documents: protocol error: gone"] := by
    decide
  have hheader : ∀ given ∈ [0, 1, 0], (Output.brittle.write header given).2 ≠ .crashed := by decide
  -- the sink in the middle has been given an entry before
  let crash : Output.brittle.FirstCrash [0, 1, 0]
      (Output.Writer.upToClosing (entries clock (fun _ ↦ false) request brokenOff).1) :=
    { before := [0], crasher := 1, after := [0], given := [header], entry := _, rest := []
      sinks_eq := rfl
      entries_eq := hstream
      survives := fun given hgiven ↦ ⟨hheader given hgiven, trivial⟩
      passes := by decide
      crashes := rfl }
  obtain ⟨hresult, -, huntil⟩ :=
    ((run_closes_once Output.brittle [0, 1, 0]).2 clock (fun _ ↦ false) request brokenOff
      hvalid).2 crash
  exact ⟨hvalid, by decide, hresult, huntil 2 Nat.one_lt_two⟩

end Run

end TreeAudit
