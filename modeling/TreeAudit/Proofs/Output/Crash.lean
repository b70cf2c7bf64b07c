import TreeAudit.Proofs.Output.Independence

/-!
Sinks that crash. The first sink to crash at an entry ends the writing (`FirstCrash`): those before
it have been given the entry, those behind it have not, and none is given anything more. All of them
are closed once even so (`write_crash`). Sinks that are given entries either come to such a
crash or survive them all (`survives_or_crash`).
-/

set_option autoImplicit false
set_option relaxedAutoImplicit false

namespace TreeAudit.Output

open Report

variable {σ : Type} (sink : Sink σ)

namespace Sink

/-- The first crash of sinks that are given entries: a sink crashes at an entry that those before
it have passed, and none has crashed earlier. -/
structure FirstCrash (sinks : List σ) (entries : List Entry) where
  before : List σ
  crasher : σ
  after : List σ
  given : List Entry
  entry : Entry
  rest : List Entry
  sinks_eq : sinks = before ++ crasher :: after
  entries_eq : entries = given ++ entry :: rest
  survives : ∀ state ∈ sinks, sink.Survives given state
  passes : ∀ state ∈ before, (sink.write entry (sink.given given state)).2 ≠ .crashed
  crashes : (sink.write entry (sink.given given crasher)).2 = .crashed

theorem survives_recording (entries : List Entry) (state : σ × List Call) :
    sink.recording.Survives entries state ↔ sink.Survives entries state.1 := by
  induction entries generalizing state with
  | nil => rfl
  | cons entry rest ih => exact and_congr_right fun _ ↦ ih _

namespace FirstCrash

variable {sink} {sinks : List σ} {entries : List Entry} (crash : sink.FirstCrash sinks entries)

/-- The entries up to the one at which the sink crashes. -/
def met : List Entry := crash.given ++ [crash.entry]

/-- A sink that keeps a list of its calls crashes where it would without. -/
def recording : sink.recording.FirstCrash (sinks.map (·, [])) entries where
  before := crash.before.map (·, [])
  crasher := (crash.crasher, [])
  after := crash.after.map (·, [])
  given := crash.given
  entry := crash.entry
  rest := crash.rest
  sinks_eq := (congrArg (List.map (·, [])) crash.sinks_eq).trans List.map_append
  entries_eq := crash.entries_eq
  survives state hstate := by
    obtain ⟨base, hbase, rfl⟩ := List.mem_map.mp hstate
    exact (sink.survives_recording crash.given _).mpr (crash.survives base hbase)
  passes state hstate := by
    obtain ⟨base, hbase, rfl⟩ := List.mem_map.mp hstate
    rw [given_recording]
    exact crash.passes base hbase
  crashes := by
    rw [given_recording]
    exact crash.crashes

/-- The crash is met as well if more entries follow. -/
def ofPrefix {more all : List Entry} (hall : entries ++ more = all) : sink.FirstCrash sinks all :=
  { crash with
    rest := crash.rest ++ more
    entries_eq := by
      rw [← hall, ← List.cons_append, ← List.append_assoc]
      exact congrArg (· ++ more) crash.entries_eq }

/-- The crash is met as well if the entries end soon after it. -/
def ofTake {count : ℕ} (hcount : crash.given.length < count) :
    sink.FirstCrash sinks (entries.take count) :=
  { crash with
    rest := crash.rest.take (count - crash.given.length - 1)
    entries_eq := by
      obtain ⟨left, rfl⟩ := Nat.exists_eq_add_of_lt hcount
      rw [congrArg (List.take _) crash.entries_eq]
      simp [List.take_append, Nat.add_assoc] }

end FirstCrash

end Sink

namespace Writer

variable {sink}

/-- The sinks before the one that crashes are given the entry, and those behind it are not. -/
theorem offer_crash {before after : List σ} {crasher : σ} {entry : Entry}
    (hpasses : ∀ state ∈ before, (sink.write entry state).2 ≠ .crashed)
    (hcrashes : (sink.write entry crasher).2 = .crashed) :
    (offer sink entry (before ++ crasher :: after)).1 =
        before.map (sink.given [entry]) ++ sink.given [entry] crasher :: after ∧
      (offer sink entry (before ++ crasher :: after)).2.2 = false := by
  induction before with
  | nil =>
    rw [List.nil_append, offer]
    rcases hwrite : sink.write entry crasher with ⟨next, written⟩
    rw [hwrite] at hcrashes
    cases hcrashes
    exact ⟨by simp [Sink.given, hwrite], rfl⟩
  | cons first rest ih =>
    obtain ⟨hfirst, hrest⟩ := List.forall_mem_cons.mp hpasses
    obtain ⟨hsinks, hwhole⟩ := ih hrest
    rw [List.cons_append, offer]
    rcases hwrite : sink.write entry first with ⟨next, written⟩
    rw [hwrite] at hfirst
    cases written with
    | crashed => exact absurd rfl hfirst
    | done => exact ⟨by simp [hsinks, Sink.given, hwrite], hwhole⟩
    | failed => exact ⟨by simp [hsinks, Sink.given, hwrite], hwhole⟩

theorem writeFrom_of_not_whole {sinks : List σ} {entry : Entry} (hentry : entry ≠ .closing)
    (hwhole : (offer sink entry sinks).2.2 = false) (rest : List Entry) (tally : Tally) :
    writeFrom sink tally sinks (entry :: rest) = abandon sink (offer sink entry sinks).1 := by
  rw [writeFrom.eq_3 _ _ _ _ _ hentry]
  rcases hoffer : offer sink entry sinks with ⟨next, failures, whole⟩
  rw [hoffer] at hwhole
  cases hwhole
  rfl

variable {sinks : List σ} {entries : List Entry}

/-- The writing ends at the first crash, and every sink is closed. -/
theorem write_crash (crash : sink.FirstCrash sinks entries) (hopen : .closing ∉ crash.met) :
    write sink sinks entries =
      ⟨(crash.before ++ [crash.crasher]).map (sink.served crash.met) ++
        crash.after.map (sink.served crash.given), none⟩ := by
  obtain ⟨hgiven, hentry⟩ := not_or.mp (List.mem_append.not.mp hopen)
  have hne : crash.entry ≠ .closing := fun heq ↦ hentry (List.mem_singleton.mpr heq.symm)
  have hpasses : ∀ state ∈ crash.before.map (sink.given crash.given),
      (sink.write crash.entry state).2 ≠ .crashed := by
    intro state hstate
    obtain ⟨base, hbase, rfl⟩ := List.mem_map.mp hstate
    exact crash.passes base hbase
  obtain ⟨hsinks, hwhole⟩ :=
    @offer_crash _ _ _ (crash.after.map (sink.given crash.given)) _ _ hpasses crash.crashes
  rw [← List.map_cons, ← List.map_append, ← crash.sinks_eq] at hsinks hwhole
  have hstep (state : σ) : sink.given [crash.entry] (sink.given crash.given state) =
      sink.given crash.met state := (sink.given_concat crash.given crash.entry state).symm
  have hentries : write sink sinks entries =
      write sink sinks (crash.given ++ crash.entry :: crash.rest) :=
    congrArg _ crash.entries_eq
  rw [hentries, write, writeFrom_append hgiven crash.survives,
    writeFrom_of_not_whole hne hwhole, hsinks, abandon, closeAll_eq]
  simp only [List.map_append, List.map_cons, List.map_nil, List.map_map, Function.comp_def, hstep,
    List.append_assoc, List.singleton_append]
  rfl

/-- The calls that the writer makes of each sink. -/
def calls (sink : Sink σ) (sinks : List σ) (entries : List Entry) : List (List Sink.Call) :=
  (write sink.recording (sinks.map (·, [])) entries).sinks.map Prod.snd

/-- Sinks that survive are given every entry before the closing mark, and closed once. -/
theorem calls_of_survives (hsinks : ∀ state ∈ sinks, sink.Survives (upToClosing entries) state) :
    calls sink sinks entries = sinks.map fun _ ↦ (upToClosing entries).map .write ++ [.close] := by
  have hrecording : ∀ state ∈ sinks.map (·, ([] : List Sink.Call)),
      sink.recording.Survives (upToClosing entries) state := by
    intro state hstate
    obtain ⟨base, hbase, rfl⟩ := List.mem_map.mp hstate
    exact (sink.survives_recording _ _).mpr (hsinks base hbase)
  rw [calls, write_of_survives _ _ hrecording, List.map_map, List.map_map]
  exact List.map_congr_left fun state _ ↦ congrArg Prod.snd (sink.served_recording _ state)

/-- A crash does not keep any sink from being closed once. -/
theorem calls_of_crash (crash : sink.FirstCrash sinks entries) (hopen : .closing ∉ crash.met) :
    calls sink sinks entries =
      (crash.before ++ [crash.crasher]).map (fun _ ↦ crash.met.map .write ++ [.close]) ++
        crash.after.map fun _ ↦ crash.given.map .write ++ [.close] := by
  have hcalls (entries : List Entry) (states : List σ) :
      ((states.map (·, [])).map (sink.recording.served entries)).map Prod.snd =
        states.map fun _ ↦ entries.map .write ++ [.close] := by
    rw [List.map_map, List.map_map]
    exact List.map_congr_left fun state _ ↦ congrArg Prod.snd (sink.served_recording entries state)
  rw [calls, write_crash crash.recording hopen, List.map_append, ← hcalls, ← hcalls,
    List.map_append (f := (·, ([] : List Sink.Call)))]
  rfl

theorem closing_notMem_upToClosing (entries : List Entry) : .closing ∉ upToClosing entries :=
  fun hmem ↦ by simpa using List.mem_takeWhile_imp hmem

/-- A crash before the closing mark is met. -/
theorem closing_notMem_met (crash : sink.FirstCrash sinks (upToClosing entries)) :
    .closing ∉ crash.met := by
  intro hmem
  apply closing_notMem_upToClosing entries
  rw [congrArg (Entry.closing ∈ ·) crash.entries_eq, ← List.singleton_append, ← List.append_assoc]
  exact List.mem_append_left _ hmem

/-- Sinks that are given entries come to a first crash, or none of them crashes. -/
theorem survives_or_crash (sinks : List σ) (entries : List Entry) :
    (∀ state ∈ sinks, sink.Survives entries state) ∨
      Nonempty (sink.FirstCrash sinks entries) := by
  induction entries generalizing sinks with
  | nil => exact .inl fun _ _ ↦ trivial
  | cons first others ih =>
    cases hfind : sinks.find? fun state ↦ (sink.write first state).2 = .crashed with
    | some crasher =>
      obtain ⟨hcrashes, before, after, hsinks, hpasses⟩ :=
        List.find?_eq_some_iff_append.mp hfind
      refine .inr ⟨⟨before, crasher, after, [], first, others, hsinks, rfl, fun _ _ ↦ trivial,
        fun state hstate ↦ ?_, of_decide_eq_true hcrashes⟩⟩
      simpa [Sink.given] using hpasses state hstate
    | none =>
      have hfirst : ∀ state ∈ sinks, (sink.write first state).2 ≠ .crashed :=
        fun state hstate ↦ by simpa using List.find?_eq_none.mp hfind state hstate
      rcases ih (sinks.map (sink.given [first])) with hsurvive | ⟨⟨crash⟩⟩
      · exact .inl fun state hstate ↦
          ⟨hfirst state hstate, hsurvive _ (List.mem_map_of_mem hstate)⟩
      -- the crash comes later, at a sink that has passed the first entry
      · obtain ⟨before, _, rfl, hbefore, hrest⟩ := List.map_eq_append_iff.mp crash.sinks_eq
        obtain ⟨crasher, after, rfl, hcrasher, -⟩ := List.map_eq_cons_iff.mp hrest
        refine .inr ⟨⟨before, crasher, after, first :: crash.given, crash.entry, crash.rest, rfl,
          congrArg (first :: ·) crash.entries_eq, fun state hstate ↦ ?_, fun state hstate ↦ ?_,
          ?_⟩⟩
        · exact ⟨hfirst state hstate, crash.survives _ (List.mem_map_of_mem hstate)⟩
        · exact crash.passes _ (hbefore ▸ List.mem_map_of_mem hstate)
        · have hcrashes := crash.crashes
          rw [← hcrasher] at hcrashes
          exact hcrashes

end Writer

/-- A sink that counts what it is given and crashes at the third entry. Closing adds ten. -/
def brittle : Sink ℕ where
  name _ := "brittle"
  write _ given := (given + 1, if given = 2 then .crashed else .done)
  close given := (given + 10, true)

end TreeAudit.Output
