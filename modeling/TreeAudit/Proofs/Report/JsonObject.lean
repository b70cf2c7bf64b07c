import TreeAudit.Proofs.Json.Quoting
import TreeAudit.Proofs.Text.Splitting
import TreeAudit.Report.Json
import Mathlib.Data.List.Forall2

/-!
Entries as JSON objects. A text tells of a value if it is a way to write this value
(`Json.Tells`), and then it is read as this value (`Json.Tells.read`). Strings and absent ids tell
of what they were made from, and an object tells of its members (`Json.Tells.object`). So what is
written for a finding or a status line tells of all it says (`Statement.tells_json`), and nothing is
lost by that (`Statement.object_injective`).
-/

set_option autoImplicit false
set_option relaxedAutoImplicit false

namespace TreeAudit.Report

open TreeAudit.Json

namespace Json

/-- The text is a way to write this value, with so many lists and objects around the innermost one
at most, and without control characters. -/
structure Tells (nesting : ℕ) (text : String) (value : Value) : Prop where
  exists_written : ∃ written : Written, written.text = text.toList ∧ written.nesting ≤ nesting ∧
    written.value? = some value
  not_control : ∀ c ∈ text.toList, NotControl c

theorem Tells.read {nesting : ℕ} {text : String} {value : Value} (h : Tells nesting text value)
    {depth : ℕ} (hdepth : nesting < depth) :
    unplaced (Value.read depth (.ofText text.toList)) = some (value, []) := by
  obtain ⟨written, htext, hnesting, hvalue⟩ := h.exists_written
  have hend : Delimited [] := fun c hc ↦ nomatch hc
  have hread := Value.unplaced_read written [] hend (Nat.zero_lt_of_lt hdepth) .start
  rw [List.append_nil, htext, hvalue, Value.within_of_lt (Nat.lt_of_le_of_lt hnesting hdepth),
    Option.map_some] at hread
  exact hread

theorem tells_quote (text : String) : Tells 0 (Quoted.quote text) (.string text) := by
  obtain ⟨spelling, hquoted, hchars⟩ := Quoted.exists_spelling text.toList
  refine ⟨⟨.string spelling, ?_, Nat.le_refl 0, ?_⟩, fun c hc ↦ ?_⟩
  · rw [Written.text, hquoted, Quoted.toList_quote]
  · rw [Written.value?, Spelling.string?, hchars, Option.map_some, String.ofList_toList,
      Option.map_some]
  · rw [Quoted.toList_quote] at hc
    exact Quoted.not_control_encode hc

theorem tells_null : Tells 0 "null" .null := by
  have hletters : ("null".toList.all fun c ↦ decide (NotControl c)) = true := by decide
  refine ⟨⟨.null, rfl, Nat.le_refl 0, rfl⟩, fun c hc ↦ ?_⟩
  exact of_decide_eq_true (List.all_eq_true.mp hletters c hc)

/-- An id, or null where there is none. -/
def idValue (id : Option DocumentId) : Value := id.elim .null fun id ↦ .string id.text

theorem tells_id (id : Option DocumentId) : Tells 0 (Json.id id) (idValue id) := by
  cases id with
  | none => exact tells_null
  | some id => exact tells_quote id.text

theorem idValue_injective : Function.Injective idValue := by
  intro id id' h
  cases id with
  | none =>
    cases id' with
    | none => rfl
    | some id' => cases h
  | some id =>
    cases id' with
    | none => cases h
    | some id' =>
      obtain ⟨text⟩ := id
      obtain ⟨text'⟩ := id'
      obtain rfl := Value.string.inj h
      rfl

/-! ### Objects -/

/-- A member as an object shows it. -/
def memberText (member : String × String) : List Char :=
  Quoted.encode member.1.toList ++ ':' :: member.2.toList

theorem toList_object (members : List (String × String)) :
    (object members).toList =
      '\x7b' :: ([','].intercalate (members.map memberText) ++ ['\x7d']) := by
  have hmember : ∀ member : String × String,
      (Quoted.quote member.1 ++ ":" ++ member.2).toList = memberText member := by
    intro member
    rw [String.toList_append, String.toList_append, Quoted.toList_quote, List.append_assoc]
    rfl
  have hmembers : (members.map fun member ↦
      (Quoted.quote member.1 ++ ":" ++ member.2).toList) = members.map memberText :=
    List.map_congr_left fun member _ ↦ hmember member
  rw [object, String.toList_append, String.toList_append, String.toList_intercalate, List.map_map]
  exact congrArg (fun texts ↦ '\x7b' :: ([','].intercalate texts ++ ['\x7d'])) hmembers

section Members

variable {nesting : ℕ} {members : List (String × String)} {values : List (String × Value)}

/-- Members by the same names whose texts tell of the values. -/
def MembersTell (nesting : ℕ) : List (String × String) → List (String × Value) → Prop :=
  List.Forall₂ fun member value ↦ member.1 = value.1 ∧ Tells nesting member.2 value.2

/-- A member with what stands in front of it. -/
theorem exists_label (name : String) :
    ∃ label : Label, label.text = Quoted.encode name.toList ++ [':'] ∧
      label.name.string? = some name := by
  obtain ⟨spelling, hquoted, hchars⟩ := Quoted.exists_spelling name.toList
  refine ⟨⟨[], spelling, [], []⟩, ?_, ?_⟩
  · rw [Label.text, hquoted]
    rfl
  · rw [Spelling.string?, hchars, Option.map_some, String.ofList_toList]

/-- One more member in front of others. -/
theorem exists_cons {member : String × String} {value : String × Value}
    (hname : member.1 = value.1) (hvalue : Tells nesting member.2 value.2) {rest : WrittenMembers}
    (hnesting : rest.nesting ≤ nesting) (hrest : rest.values? = some values) :
    ∃ written : WrittenMembers,
      (∀ first, written.text first = comma first ++ (memberText member ++ rest.text false)) ∧
        written.nesting ≤ nesting ∧ written.values? = some (value :: values) := by
  obtain ⟨label, hlabel, hstring⟩ := exists_label member.1
  obtain ⟨own, htext, hown, hmeant⟩ := hvalue.exists_written
  refine ⟨.cons label own [] rest, fun first ↦ ?_, Nat.max_le.mpr ⟨hown, hnesting⟩, ?_⟩
  · rw [WrittenMembers.text, hlabel, htext, memberText]
    simp [Gap.text]
  · rw [WrittenMembers.values?, hstring, hmeant, hrest, hname]
    rfl

/-- The members behind the first, up to the closing bracket. -/
theorem exists_others (h : MembersTell nesting members values) :
    ∃ written : WrittenMembers,
      written.text false = (members.map memberText).flatMap (',' :: ·) ++ ['\x7d'] ∧
        written.nesting ≤ nesting ∧ written.values? = some values := by
  induction h with
  | nil => exact ⟨.nil [], rfl, Nat.zero_le nesting, rfl⟩
  | cons hmember _ ih =>
    obtain ⟨rest, htext, hnesting, hvalues⟩ := ih
    obtain ⟨written, hwritten, hbound, hmeant⟩ :=
      exists_cons hmember.1 hmember.2 hnesting hvalues
    refine ⟨written, ?_, hbound, hmeant⟩
    rw [hwritten, htext, List.map_cons, List.flatMap_cons, comma_false]
    simp

theorem not_control_memberText {member : String × String} {value : Value}
    (h : Tells nesting member.2 value) : ∀ c ∈ memberText member, NotControl c := by
  intro c hc
  rw [memberText, List.mem_append, List.mem_cons] at hc
  obtain hname | rfl | hvalue := hc
  · exact Quoted.not_control_encode hname
  · decide
  · exact h.not_control c hvalue

theorem not_control_object (h : MembersTell nesting members values) :
    ∀ c ∈ (object members).toList, NotControl c := by
  have hmembers : ∀ member ∈ members, ∀ c ∈ memberText member, NotControl c :=
    ((List.forall₂_and_left _ _).mp
      (h.imp fun member value hmember ↦ ⟨not_control_memberText hmember.2, hmember⟩)).1
  intro c hc
  rw [toList_object, List.mem_cons, List.mem_append, List.mem_singleton] at hc
  obtain rfl | htexts | rfl := hc
  · decide
  · cases members with
    | nil => simp at htexts
    | cons first others =>
      rw [List.map_cons, Text.Split.intercalate_cons, List.mem_append, List.mem_flatMap] at htexts
      obtain hfirst | ⟨text, htext, hc⟩ := htexts
      · exact hmembers first List.mem_cons_self c hfirst
      · obtain ⟨other, hother, rfl⟩ := List.mem_map.mp htext
        obtain rfl | hc := List.mem_cons.mp hc
        · decide
        · exact hmembers other (List.mem_cons_of_mem first hother) c hc
  · decide

/-- An object tells of what its members tell of. -/
theorem Tells.object (h : MembersTell nesting members values) :
    Tells (nesting + 1) (Json.object members) (.object values) := by
  refine ⟨?_, not_control_object h⟩
  rw [toList_object]
  cases h with
  | nil => exact ⟨.object (.nil []), rfl, Nat.le_add_left 1 nesting, rfl⟩
  | cons hmember hothers =>
    obtain ⟨rest, htext, hnesting, hvalues⟩ := exists_others hothers
    obtain ⟨written, hwritten, hbound, hmeant⟩ :=
      exists_cons hmember.1 hmember.2 hnesting hvalues
    refine ⟨.object written, ?_, Nat.succ_le_succ hbound, ?_⟩
    · rw [Written.text, hwritten, htext, comma_true, List.nil_append, List.map_cons,
        Text.Split.intercalate_cons, List.append_assoc]
    · rw [Written.value?, hmeant, Option.map_some]

end Members

end Json

/-! ### Findings and status lines -/

theorem Severity.label_injective : Function.Injective label := by
  intro severity severity' h
  cases severity <;> cases severity' <;> first | rfl | exact absurd h (by decide)

/-- What a report states about a store, beside how far it has come. -/
inductive Statement where
  | finding (finding : Finding)
  | status (text : String)

namespace Statement

def entry : Statement → Entry
  | finding f => .finding f
  | status text => .status text

/-- All that a statement says, under the name of its kind. -/
def object : Statement → Value
  | finding f =>
    .object
      [("type", .string "finding"), ("check", .string f.check),
        ("severity", .string f.severity.label), ("id", Json.idValue f.id),
        ("parent", Json.idValue f.parent), ("description", .string f.description)]
  | status text => .object [("type", .string "status"), ("text", .string text)]

theorem tells_json (statement : Statement) :
    Json.Tells 1 statement.entry.json statement.object := by
  cases statement with
  | finding f =>
    refine Json.Tells.object ?_
    refine .cons ⟨rfl, Json.tells_quote _⟩ (.cons ⟨rfl, Json.tells_quote _⟩ ?_)
    refine .cons ⟨rfl, Json.tells_quote _⟩ (.cons ⟨rfl, Json.tells_id _⟩ ?_)
    exact .cons ⟨rfl, Json.tells_id _⟩ (.cons ⟨rfl, Json.tells_quote _⟩ .nil)
  | status text =>
    refine Json.Tells.object ?_
    exact .cons ⟨rfl, Json.tells_quote _⟩ (.cons ⟨rfl, Json.tells_quote _⟩ .nil)

theorem object_injective : Function.Injective object := by
  intro statement statement' h
  cases statement with
  | finding f =>
    cases statement' with
    | finding f' =>
      obtain ⟨check, severity, id, parent, description⟩ := f
      obtain ⟨check', severity', id', parent', description'⟩ := f'
      simp only [object, Value.object.injEq, List.cons.injEq, Prod.mk.injEq, true_and, and_true,
        Value.string.injEq] at h
      obtain ⟨rfl, hseverity, hid, hparent, rfl⟩ := h
      obtain rfl := Severity.label_injective hseverity
      obtain rfl := Json.idValue_injective hid
      obtain rfl := Json.idValue_injective hparent
      rfl
    | status text => simp [object] at h
  | status text =>
    cases statement' with
    | finding f' => simp [object] at h
    | status text' =>
      simp only [object, Value.object.injEq, List.cons.injEq, Prod.mk.injEq, true_and, and_true,
        Value.string.injEq] at h
      rw [h]

end Statement

end TreeAudit.Report
