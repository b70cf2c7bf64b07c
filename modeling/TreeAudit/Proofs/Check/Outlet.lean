import TreeAudit.Check.Machine
import Mathlib.Data.List.Basic

/-!
What an outlet has taken after several entries were offered to it. Entries offered in two
parts are taken as if they had been offered at once (`Outlet.sendAll_append`), and an
outlet whose receiver stays takes them all (`Outlet.sendAll_of_open`). So two calls of a check that
each end by sending are one call that sends both lists (`Answer.sending_andThen`).
-/

set_option autoImplicit false
set_option relaxedAutoImplicit false

namespace TreeAudit.Check

open Report

namespace Outlet

@[simp] theorem sendAll_nil (outlet : Outlet) : outlet.sendAll [] = (outlet, true) := rfl

theorem sendAll_cons (outlet : Outlet) (entry : Entry) (rest : List Entry) :
    outlet.sendAll (entry :: rest) =
      if (outlet.send entry).2 then (outlet.send entry).1.sendAll rest else outlet.send entry := by
  rw [sendAll]
  rcases outlet.send entry with ⟨next, accepted⟩
  cases accepted <;> rfl

theorem sendAll_singleton (outlet : Outlet) (entry : Entry) :
    outlet.sendAll [entry] = outlet.send entry := by
  rw [sendAll_cons, sendAll_nil]
  rcases outlet.send entry with ⟨next, accepted⟩
  cases accepted <;> rfl

theorem sendAll_append (outlet : Outlet) (first second : List Entry) :
    outlet.sendAll (first ++ second) =
      if (outlet.sendAll first).2 then (outlet.sendAll first).1.sendAll second
      else outlet.sendAll first := by
  induction first generalizing outlet with
  | nil => rfl
  | cons entry rest ih =>
    rw [List.cons_append, sendAll_cons, sendAll_cons]
    split_ifs with haccepted
    · rw [ih, if_pos ‹_›]
    · rw [ih, if_neg ‹_›]
    · rfl

/-- While the receiver stays, every entry is accepted. -/
theorem sendAll_of_open {outlet : Outlet} (hopen : outlet.room = none) (entries : List Entry) :
    outlet.sendAll entries = (⟨outlet.sent ++ entries.toArray, none⟩, true) := by
  induction entries generalizing outlet with
  | nil =>
    obtain ⟨sent, room⟩ := outlet
    cases hopen
    simp
  | cons entry rest ih =>
    have hsend : outlet.send entry = (⟨outlet.sent.push entry, none⟩, true) := by
      simp only [send, hopen]
    rw [sendAll_cons, hsend, if_pos rfl, ih rfl]
    simp

end Outlet

namespace Answer

variable {σ : Type}

theorem sending_eq (state : σ) (outlet : Outlet) (entries : List Entry) :
    sending state outlet entries =
      ⟨state, (outlet.sendAll entries).1,
        if (outlet.sendAll entries).2 then none else some .receiverGone⟩ := rfl

@[simp] theorem sending_nil (state : σ) (outlet : Outlet) :
    sending state outlet [] = ⟨state, outlet, none⟩ := rfl

theorem sending_of_open (state : σ) {outlet : Outlet} (hopen : outlet.room = none)
    (entries : List Entry) :
    sending state outlet entries = ⟨state, ⟨outlet.sent ++ entries.toArray, none⟩, none⟩ := by
  rw [sending_eq, Outlet.sendAll_of_open hopen, if_pos rfl]

/-- Goes on from an answer, unless it is a failure. -/
def andThen (answer : Answer σ) (next : σ → Outlet → Answer σ) : Answer σ :=
  match answer.failure with
  | none => next answer.state answer.outlet
  | some _ => answer

/-- What is sent in two calls is sent as if in one. -/
theorem sending_andThen {state final : σ} {outlet : Outlet} {first second : List Entry}
    {next : σ → Outlet → Answer σ}
    (hnext : (outlet.sendAll first).2 = true →
      next state (outlet.sendAll first).1 = sending final (outlet.sendAll first).1 second) :
    (sending state outlet first).andThen next =
      sending (if (outlet.sendAll first).2 then final else state) outlet (first ++ second) := by
  by_cases haccepted : (outlet.sendAll first).2 = true
  · simp only [sending_eq state, andThen, haccepted, if_true]
    rw [hnext haccepted, sending_eq, sending_eq, Outlet.sendAll_append, if_pos haccepted]
  · simp only [sending_eq, andThen, Outlet.sendAll_append, haccepted, Bool.false_eq_true, if_false]

end Answer

end TreeAudit.Check
