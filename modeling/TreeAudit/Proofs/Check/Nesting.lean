import TreeAudit.Proofs.Check.Isolation

/-!
Composites inside composites. A composite calls its parts in turn, each guarded: a failure of the
part becomes a finding in its name. An inner composite has done this for its own parts already and
fails for nothing but the loss of the receiver, which the outer one passes on, so that guarding it
changes nothing (`guarded_group`). Calls made in turn for the checks of one part and then for those
of the next are calls made in turn for all of them (`inTurn_append`). By these two a call of a tree
of composites does to its checks, from left to right, what it does to them in one composite
(`leavesOf_inTurn`, by induction over the tree), and so do calls made one after the other, whatever
the checks do and wherever the receiver goes away (`answer_after_flat`).
-/

set_option autoImplicit false
set_option relaxedAutoImplicit false

namespace TreeAudit.Check

open Report

variable {σ τ : Type}

/-! ### Calls in turn -/

/-- Calls for more parts follow, unless one has failed. -/
theorem inTurn_append (call : σ → Outlet → Answer σ) (first second : List σ) (outlet : Outlet) :
    inTurn call (first ++ second) outlet =
      (inTurn call first outlet).failure.elim
        ((inTurn call second (inTurn call first outlet).outlet).map
          ((inTurn call first outlet).state ++ ·))
        fun _ ↦ (inTurn call first outlet).map (· ++ second) := by
  induction first generalizing outlet with
  | nil => rfl
  | cons part rest ih =>
    rw [List.cons_append, inTurn, inTurn]
    cases hpart : (call part outlet).failure with
    | some failure => rfl
    | none =>
      dsimp only
      rw [ih]
      cases hrest : (inTurn call rest (call part outlet).outlet).failure <;>
        simp [Answer.map, hrest]

/-- Calls for parts that stand for others. -/
theorem inTurn_map {call : σ → Outlet → Answer σ} {own : τ → Outlet → Answer τ} {part : τ → σ}
    (h : ∀ item outlet, call (part item) outlet = (own item outlet).map part) (items : List τ)
    (outlet : Outlet) :
    inTurn call (items.map part) outlet = (inTurn own items outlet).map (List.map part) := by
  induction items generalizing outlet with
  | nil => rfl
  | cons item rest ih =>
    rw [List.map_cons, inTurn, inTurn, h]
    cases hitem : (own item outlet).failure with
    | some failure => simp [Answer.map, hitem]
    | none => simp [Answer.map, hitem, ih]

/-! ### Guarded calls -/

theorem absorb_eq_self {report : Failure → Finding} {answer : Answer σ}
    (h : ∀ failure, answer.failure = some failure → failure = .receiverGone) :
    absorb report answer = answer := by
  obtain ⟨state, outlet, failure⟩ := answer
  cases failure with
  | none => rfl
  | some failure =>
    obtain rfl := h failure rfl
    rfl

theorem absorb_map (report : Failure → Finding) (f : σ → τ) (answer : Answer σ) :
    absorb report (answer.map f) = (absorb report answer).map f := by
  obtain ⟨state, outlet, failure⟩ := answer
  rcases failure with _ | (_ | _ | _) <;> rfl

/-- A call as a composite makes it of a part: a failure becomes a finding in the name of the
part. -/
def Machine.guarded (machine : Machine σ) (call : Call) (state : σ) (outlet : Outlet) : Answer σ :=
  absorb (call.blame (machine.name (machine.answer call state outlet).state))
    (machine.answer call state outlet)

namespace Composite

variable {machine : Machine σ} {call : Call}

theorem answer_group_eq (parts : List (Composite σ)) (outlet : Outlet) :
    (machineOf machine).answer call (.group parts) outlet =
      (inTurn ((machineOf machine).guarded call) parts outlet).map group :=
  answer_group call parts outlet

theorem guarded_single (check : σ) (outlet : Outlet) :
    (machineOf machine).guarded call (.single check) outlet =
      (machine.guarded call check outlet).map single := by
  have hanswer : (machineOf machine).answer call (.single check) outlet =
      (machine.answer call check outlet).map single := by
    cases call with
    | document now document =>
      show process machine now document (.single check) outlet = _
      rw [process]
      rfl
    | finish now =>
      show finish machine now (.single check) outlet = _
      rw [finish]
      rfl
  have hname : (machineOf machine).name ((machine.answer call check outlet).map single).state =
      machine.name (machine.answer call check outlet).state := by
    show name machine (.single _) = _
    rw [name]
  rw [Machine.guarded, hanswer, hname, absorb_map]
  rfl

/-- An inner composite leaves its outer one nothing to report. -/
theorem guarded_group (parts : List (Composite σ)) (outlet : Outlet) :
    (machineOf machine).guarded call (.group parts) outlet =
      (machineOf machine).answer call (.group parts) outlet :=
  absorb_eq_self fun _ ↦ failure_answer_group

/-! ### The checks of a tree -/

mutual

/-- The checks of a tree of composites, from left to right. -/
def leaves : Composite σ → List σ
  | single check => [check]
  | group parts => leavesOf parts

def leavesOf : List (Composite σ) → List σ
  | [] => []
  | part :: rest => part.leaves ++ leavesOf rest

end

mutual

/-- The checks of a part are called in turn. -/
theorem leaves_guarded (part : Composite σ) (outlet : Outlet) :
    ((machineOf machine).guarded call part outlet).map leaves =
      inTurn (machine.guarded call) part.leaves outlet := by
  cases part with
  | single check =>
    rw [guarded_single, leaves, inTurn]
    cases hcheck : (machine.guarded call check outlet).failure <;>
      simp [Answer.map, hcheck, leaves, inTurn]
  | group parts =>
    rw [guarded_group, answer_group_eq, leaves, ← leavesOf_inTurn parts outlet]
    simp [Answer.map, leaves]

theorem leavesOf_inTurn (parts : List (Composite σ)) (outlet : Outlet) :
    (inTurn ((machineOf machine).guarded call) parts outlet).map leavesOf =
      inTurn (machine.guarded call) (leavesOf parts) outlet := by
  cases parts with
  | nil => simp [inTurn, leavesOf, Answer.map]
  | cons part rest =>
    rw [leavesOf, inTurn_append, ← leaves_guarded part outlet, inTurn]
    cases hpart : ((machineOf machine).guarded call part outlet).failure with
    | some failure => simp [Answer.map, hpart, leavesOf]
    | none =>
      simp only [Answer.map, hpart, Option.elim_none, leavesOf]
      rw [← leavesOf_inTurn rest]
      rfl

end

/-- The checks of a tree in one composite. -/
def flat (tree : Composite σ) : Composite σ := ofChecks tree.leaves

theorem answer_ofChecks (checks : List σ) (outlet : Outlet) :
    (machineOf machine).answer call (ofChecks checks) outlet =
      (inTurn (machine.guarded call) checks outlet).map ofChecks := by
  rw [ofChecks, answer_group_eq, inTurn_map guarded_single]
  rfl

theorem ofChecks_injective : Function.Injective (ofChecks : List σ → Composite σ) := by
  intro first second h
  have hsingle : Function.Injective (single : σ → Composite σ) := fun _ _ ↦ single.inj
  exact hsingle.list_map (group.inj h)

/-- A call does the same to a tree and to its checks in one composite. -/
theorem answer_flat (call : Call) (parts : List (Composite σ)) (outlet : Outlet) :
    (machineOf machine).answer call (flat (.group parts)) outlet =
      ((machineOf machine).answer call (.group parts) outlet).map flat := by
  rw [flat, leaves, answer_ofChecks, ← leavesOf_inTurn, answer_group_eq]
  simp only [Answer.map, flat, leaves]

/-- So do calls made one after the other. -/
theorem after_flat (machine : Machine σ) (calls : List Call) (parts : List (Composite σ))
    (outlet : Outlet) :
    (machineOf machine).after calls (flat (.group parts)) outlet =
      (flat ((machineOf machine).after calls (.group parts) outlet).1,
        ((machineOf machine).after calls (.group parts) outlet).2) := by
  induction calls using List.reverseRecOn with
  | nil => rfl
  | append_singleton calls call ih =>
    obtain ⟨reached, hreached⟩ := after_group machine calls parts outlet
    rw [Machine.after_concat, Machine.after_concat, ih, hreached, answer_flat]
    rfl

/-! ### The calls of each check -/

mutual

/-- The tree with something put in the place of each check. -/
def map (f : σ → τ) : Composite σ → Composite τ
  | single check => single (f check)
  | group parts => group (mapParts f parts)

def mapParts (f : σ → τ) : List (Composite σ) → List (Composite τ)
  | [] => []
  | part :: rest => part.map f :: mapParts f rest

end

mutual

theorem leaves_map (f : σ → τ) (tree : Composite σ) : (tree.map f).leaves = tree.leaves.map f := by
  cases tree with
  | single check => rw [map, leaves, leaves, List.map_singleton]
  | group parts => rw [map, leaves, leaves, leavesOf_mapParts]

theorem leavesOf_mapParts (f : σ → τ) (parts : List (Composite σ)) :
    leavesOf (mapParts f parts) = (leavesOf parts).map f := by
  cases parts with
  | nil => rw [mapParts, leavesOf, leavesOf, List.map_nil]
  | cons part rest =>
    rw [mapParts, leavesOf, leavesOf, List.map_append, leaves_map, leavesOf_mapParts]

end

theorem guarded_recording (call : Call) (state : σ × List Call) (outlet : Outlet) :
    machine.guarded call state.1 outlet =
      (machine.recording.guarded call state outlet).map Prod.fst := by
  rw [Machine.guarded, Machine.guarded, Machine.answer_recording, absorb_map]
  rfl

/-- Checks that keep a list of their calls do what they do without it. -/
theorem after_recording (machine : Machine σ) (calls : List Call) (checks : List (σ × List Call))
    (outlet : Outlet) :
    ∃ met left, (machineOf machine.recording).after calls (ofChecks checks) outlet =
        (ofChecks met, left) ∧
      (machineOf machine).after calls (ofChecks (checks.map Prod.fst)) outlet =
        (ofChecks (met.map Prod.fst), left) := by
  induction calls using List.reverseRecOn with
  | nil => exact ⟨checks, outlet, rfl, rfl⟩
  | append_singleton calls call ih =>
    obtain ⟨met, left, hrecording, hplain⟩ := ih
    have hlast : inTurn (machine.guarded call) (met.map Prod.fst) left =
        (inTurn (machine.recording.guarded call) met left).map (List.map Prod.fst) :=
      inTurn_map (guarded_recording call) met left
    let answer := inTurn (machine.recording.guarded call) met left
    refine ⟨answer.state, answer.outlet, ?_, ?_⟩
    · rw [Machine.after_concat, hrecording, answer_ofChecks]
      rfl
    · rw [Machine.after_concat, hplain, answer_ofChecks, hlast]
      rfl

/-- The checks of a tree have the calls that they have in one composite. -/
theorem after_recording_flat (machine : Machine σ) (calls : List Call) (parts : List (Composite σ))
    (outlet : Outlet) :
    ∃ met : List (σ × List Call),
      met.map Prod.fst = ((machineOf machine).after calls (.group parts) outlet).1.leaves ∧
      ((machineOf machine.recording).after calls ((group parts).map (·, [])) outlet).1.leaves =
        met ∧
      ((machineOf machine.recording).after calls (ofChecks ((group parts).leaves.map (·, [])))
        outlet).1 = ofChecks met := by
  obtain ⟨met, left, hmet, hplain⟩ :=
    after_recording machine calls ((group parts).leaves.map (·, [])) outlet
  have hown : ((group parts).leaves.map (·, ([] : List Call))).map Prod.fst =
      (group parts).leaves := by
    rw [List.map_map]
    exact List.map_id _
  have hmapped : flat ((group parts).map (·, [])) =
      ofChecks ((group parts).leaves.map (·, ([] : List Call))) := by
    rw [flat, leaves_map]
  have hrecording := after_flat machine.recording calls (mapParts (·, []) parts) outlet
  have hflat := after_flat machine calls parts outlet
  rw [← map, hmapped, hmet] at hrecording
  rw [flat, ← hown, hplain] at hflat
  refine ⟨met, ?_, ?_, congrArg Prod.fst hmet⟩
  · apply ofChecks_injective
    exact congrArg Prod.fst hflat
  · apply ofChecks_injective
    exact (congrArg Prod.fst hrecording).symm

/-- However composites are put into one another and whatever their checks do, the tree goes the way
of the one composite of its checks from left to right: after any calls its checks are in the same
states and as much has been sent, the next call sends the same and succeeds or fails as it does
there, for nothing but the loss of the receiver, wherever that happens, and up to then each check
has had the same calls. -/
theorem answer_after_flat (machine : Machine σ) (parts : List (Composite σ)) (calls : List Call)
    (call : Call) (outlet : Outlet) :
    let tree := Composite.group parts
    let checks := ofChecks tree.leaves
    let nested := (machineOf machine).after calls tree outlet
    let single := (machineOf machine).after calls checks outlet
    let answer := (machineOf machine).answer call nested.1 nested.2
    single = (ofChecks nested.1.leaves, nested.2) ∧
      (machineOf machine).answer call single.1 single.2 =
        ⟨ofChecks answer.state.leaves, answer.outlet, answer.failure⟩ ∧
      (∀ failure, answer.failure = some failure → failure = .receiverGone) ∧
      ∃ met : List (σ × List Call), met.map Prod.fst = nested.1.leaves ∧
        ((machineOf machine.recording).after calls (tree.map (·, [])) outlet).1.leaves = met ∧
        ((machineOf machine.recording).after calls (ofChecks (tree.leaves.map (·, []))) outlet).1 =
          ofChecks met := by
  intro tree checks nested single answer
  have hsingle : single = (ofChecks nested.1.leaves, nested.2) :=
    after_flat machine calls parts outlet
  obtain ⟨reached, hreached⟩ := after_group machine calls parts outlet
  have hnested : nested.1 = .group reached := hreached
  refine ⟨hsingle, ?_, ?_, after_recording_flat machine calls parts outlet⟩
  · show (machineOf machine).answer call single.1 single.2 =
      ((machineOf machine).answer call nested.1 nested.2).map flat
    rw [hsingle, hnested]
    exact answer_flat call reached nested.2
  · intro failure hfailure
    change ((machineOf machine).answer call nested.1 nested.2).failure = some failure at hfailure
    rw [hnested] at hfailure
    exact failure_answer_group hfailure

/-- The receiver leaves after three entries, which is in the middle of the document. -/
theorem answer_after_flat_fitful :
    let met : Document := ⟨⟨"1:/a"⟩, some ⟨"0:/"⟩, .node, true⟩
    let tree : Composite (String × ℕ) :=
      .group [.group [.single ("a", 0), .single ("b", 1)], .group [], .single ("c", 1)]
    let nested := (machineOf fitful).after [.document .zero met] tree ⟨#[], some 3⟩
    let single :=
      (machineOf fitful).after [.document .zero met] (ofChecks tree.leaves) ⟨#[], some 3⟩
    let failure := some Failure.receiverGone
    nested.1.leaves = [("a", 1), ("b", 2), ("c", 2)] ∧ single.1 = ofChecks nested.1.leaves ∧
      single.2.sent.toList = [.status "1:/a", .status "1:/a",
        .finding ⟨"b", .error, some ⟨"1:/a"⟩, some ⟨"0:/"⟩, "check failed: weary"⟩] ∧
      ((machineOf fitful).answer (.finish .zero) nested.1 nested.2).failure = failure ∧
      ((machineOf fitful).answer (.finish .zero) single.1 single.2).failure = failure := by
  intro met tree nested single failure
  obtain ⟨hsingle, hanswer, -⟩ := answer_after_flat fitful
    [.group [.single ("a", 0), .single ("b", 1)], .group [], .single ("c", 1)]
    [.document .zero met] (.finish .zero) ⟨#[], some 3⟩
  have hgone : ((machineOf fitful).answer (.finish .zero) nested.1 nested.2).failure = failure := by
    decide
  refine ⟨by decide, congrArg Prod.fst hsingle, by decide, hgone, ?_⟩
  exact (congrArg Answer.failure hanswer).trans hgone

end Composite

end TreeAudit.Check
