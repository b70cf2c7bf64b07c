import TreeAudit.Proofs.Json.Skipping
import TreeAudit.Store.Payload

/-!
Reading a payload. Its members are read one after the other into what it says so far
(`Payload.extend?`, `unplaced_readMembers`): an unknown member changes nothing, and a recognised one
that has been met before ends the reading. Where no recognised name occurs twice, their order does
not matter, and what the payload says of a field is what the member of its name says (`extend?_eq`).
-/

set_option autoImplicit false
set_option relaxedAutoImplicit false

namespace TreeAudit.Store

open Json

/-! ### The value of a field -/

/-- An id is null or a string. -/
def idOf? : Written → Option (Option String)
  | .null => some none
  | .string spelling => spelling.string?.map some
  | .bool _ | .number _ | .list _ | .object _ => none

/-- The value of any other field. -/
def valueOf? (value : Written) : Option Value :=
  Value.within Payload.depth value.nesting value.value?

namespace Payload

def set? (payload : Payload) (value : Written) : Field → Option Payload
  | .id => (idOf? value).map fun id ↦ { payload with id := some id }
  | .path => (valueOf? value).map fun path ↦ { payload with path := some path }
  | .parent => (valueOf? value).map fun parent ↦ { payload with parent := some parent }
  | .deleted => (valueOf? value).map fun deleted ↦ { payload with deleted := some deleted }
  | .children => (valueOf? value).map fun children ↦ { payload with children := some children }

section Reading

variable (value : Written) (gap : Gap) {rest : List Char} (place : Place)

theorem unplaced_readId :
    unplaced (readId ⟨gap.text ++ (value.text ++ rest), place⟩) = (idOf? value).map (·, rest) := by
  obtain ⟨c, text, htext, hc⟩ := value.exists_text
  obtain ⟨place', hblanks⟩ := Cursor.exists_skipBlanks gap hc.not_blank (text ++ rest) place
  rw [htext, List.cons_append, readId, hblanks]
  dsimp only
  cases value with
  | null =>
    obtain ⟨rfl, rfl⟩ := List.cons.inj htext
    exact unplaced_bind_left (Cursor.left?_word _ rest _) fun _ ↦ rfl
  | bool b => cases b <;> obtain ⟨rfl, rfl⟩ := List.cons.inj htext <;> rfl
  | number literal =>
    obtain ⟨hnull, -, -, hstart⟩ := Value.starts_number htext
    have hquote : c ≠ '"' := by
      rintro rfl
      simp [Numeral.isDigit] at hstart
    split
    · rename_i heq
      exact absurd (List.cons.inj heq).1 hnull
    · rename_i heq
      exact absurd (List.cons.inj heq).1 hquote
    · rfl
    · rfl
  | string spelling =>
    obtain ⟨rfl, rfl⟩ := List.cons.inj htext
    have hread := Chars.unplaced_read_string spelling rest (place'.after '"')
    simp only [List.append_assoc, List.singleton_append, Cursor.next]
    exact unplaced_bind_map hread some fun _ _ ↦ rfl
  | list items => obtain ⟨rfl, rfl⟩ := List.cons.inj htext; rfl
  | object members => obtain ⟨rfl, rfl⟩ := List.cons.inj htext; rfl

theorem unplaced_readField (payload : Payload) (field : Field) (hrest : Delimited rest) :
    unplaced (payload.readField field ⟨gap.text ++ (value.text ++ rest), place⟩) =
      (payload.set? value field).map (·, rest) := by
  have hid : unplaced (readId ⟨gap.text ++ (value.text ++ rest), place⟩) =
      (idOf? value).map (·, rest) := unplaced_readId value gap place
  have hvalue : unplaced (Value.read depth ⟨gap.text ++ (value.text ++ rest), place⟩) =
      (valueOf? value).map (·, rest) :=
    Value.unplaced_read value gap hrest (by decide) place
  cases field with
  | id => exact unplaced_bind_map hid _ fun _ _ ↦ rfl
  | path => exact unplaced_bind_map hvalue _ fun _ _ ↦ rfl
  | parent => exact unplaced_bind_map hvalue _ fun _ _ ↦ rfl
  | deleted => exact unplaced_bind_map hvalue _ fun _ _ ↦ rfl
  | children => exact unplaced_bind_map hvalue _ fun _ _ ↦ rfl

end Reading

/-! ### The members -/

/-- What a payload says after some more members. -/
def extend? (payload : Payload) : WrittenMembers → Option Payload
  | .nil _ => some payload
  | .cons label value _ rest =>
    label.name.string?.bind fun name ↦
      (Field.ofName? name).elim (payload.extend? rest) fun field ↦
        if payload.has field then none
        else (payload.set? value field).bind fun payload ↦ payload.extend? rest

theorem unplaced_readMembers (members : WrittenMembers) (payload : Payload) (gap : Gap)
    (first : Bool) (rest : List Char) (steps : ℕ) (hsteps : (members.text first).length ≤ steps)
    (place : Place) :
    unplaced (readMembers steps payload first ⟨gap.text ++ (members.text first ++ rest), place⟩) =
      (payload.extend? members).map (·, rest) := by
  have hlength := Value.members_length_pos members first
  obtain ⟨steps, rfl⟩ : ∃ n, steps = n + 1 := ⟨steps - 1, by omega⟩
  cases members with
  | nil gap' =>
    obtain ⟨place', hclose⟩ := Value.exists_nextName_close (gap ++ gap') rest place first
    rw [readMembers, WrittenMembers.text, List.append_assoc, Gap.text_append,
      List.singleton_append, hclose]
    rfl
  | cons label value after others =>
    have hafter := delimited_gap after (delimited_members others rest)
    obtain ⟨place', hpart⟩ := Value.exists_label gap
      (value.text ++ (after.text ++ (others.text false ++ rest))) place label first
    have hothers := fun payload ↦ unplaced_readMembers others payload after false rest steps
      (by simp [WrittenMembers.text, Label.text] at hsteps; omega)
    rw [readMembers, WrittenMembers.text]
    simp only [List.append_assoc]
    rw [hpart, extend?, Option.map_bind]
    refine unplaced_bind (Chars.unplaced_read_string label.name _ place') _ fun name place₁ _ ↦ ?_
    dsimp only [Function.comp]
    cases hfield : Field.ofName? name with
    | none =>
      rw [Option.elim_none]
      refine unplaced_bind_left (Value.left?_colon label.beforeColon _ place₁) fun place₂ ↦ ?_
      refine unplaced_bind_left (Skip.left?_skip value label.afterColon hafter place₂)
        fun place₃ ↦ ?_
      exact hothers payload place₃
    | some field =>
      rw [Option.elim_some]
      dsimp only
      cases hhas : payload.has field with
      | true => rfl
      | false =>
        rw [if_neg Bool.false_ne_true, if_neg Bool.false_ne_true, Option.map_bind]
        refine unplaced_bind_left (Value.left?_colon label.beforeColon _ place₁) fun place₂ ↦ ?_
        refine unplaced_bind (unplaced_readField value label.afterColon place₂ payload field hafter)
          _ fun payload place₃ _ ↦ ?_
        exact hothers payload place₃

/-- A whole text is read as the members of the object in it. -/
theorem toOption_ofText (before : Gap) (members : WrittenMembers) (after : Gap) :
    (ofText (before.text ++ ((Written.object members).text ++ after.text))).toOption =
      empty.extend? members := by
  obtain ⟨place₁, hopen⟩ := Cursor.exists_skipBlanks before (c := '\x7b') (by decide)
    (members.text true ++ after.text) .start
  let inside : Cursor := ⟨members.text true ++ after.text, place₁.after '\x7b'⟩
  let steps := ('\x7b' :: (members.text true ++ after.text)).length + 1
  have hmembers : unplaced (readMembers steps empty true inside) =
      (empty.extend? members).map (·, after.text) :=
    unplaced_readMembers members empty [] true after.text steps
      (by simp only [steps, List.length_cons, List.length_append]; omega) (place₁.after '\x7b')
  have htext : ofText (before.text ++ ((Written.object members).text ++ after.text)) =
      readMembers steps empty true inside >>= fun read ↦
        if read.2.skipBlanks.rest.isEmpty then .ok read.1
        else .error (read.2.skipBlanks.ahead .trailingCharacters) := by
    rw [ofText, Cursor.ofText, Written.text, List.cons_append, hopen]
    rfl
  rw [htext]
  cases hpayload : empty.extend? members with
  | none =>
    rw [hpayload, Option.map_none, unplaced_eq_none_iff] at hmembers
    obtain ⟨error, herror⟩ := hmembers
    rw [herror]
    rfl
  | some payload =>
    rw [hpayload, Option.map_some, unplaced_eq_some_iff] at hmembers
    obtain ⟨place₂, hread⟩ := hmembers
    obtain ⟨place₃, hend⟩ := Cursor.exists_skipBlanks_end after place₂
    rw [hread]
    simp only [bind, Except.bind, hend]
    rfl

/-! ### What the members say -/

theorem ofName?_eq_some_iff {name : String} {field : Field} :
    Field.ofName? name = some field ↔ name = field.name := by
  constructor
  · intro h
    rw [Field.ofName?] at h
    have hname := List.find?_some h
    exact (of_decide_eq_true hname).symm
  · rintro rfl
    cases field <;> decide

def reads (value : Written) : Field → Bool
  | .id => (idOf? value).isSome
  | .path | .parent | .deleted | .children => (valueOf? value).isSome

/-- What members with these names and values say, the first of each name. -/
def ofNamed (named : List (String × Written)) : Payload where
  id := (named.lookup Field.id.name).bind idOf?
  path := (named.lookup Field.path.name).bind valueOf?
  parent := (named.lookup Field.parent.name).bind valueOf?
  deleted := (named.lookup Field.deleted.name).bind valueOf?
  children := (named.lookup Field.children.name).bind valueOf?

/-- What a payload says, and of the fields that it says nothing of, what another says. -/
def or (payload other : Payload) : Payload where
  id := payload.id.or other.id
  path := payload.path.or other.path
  parent := payload.parent.or other.parent
  deleted := payload.deleted.or other.deleted
  children := payload.children.or other.children

theorem or_assoc (payload other third : Payload) :
    (payload.or other).or third = payload.or (other.or third) := by
  simp [or, Option.or_assoc]

section Named

variable {payload : Payload} {value : Written} {field : Field} {named : List (String × Written)}

theorem ofNamed_unknown {name : String} (h : Field.ofName? name = none) :
    ofNamed ((name, value) :: named) = ofNamed named := by
  have hname (field : Field) : (field.name == name) = false := by
    rw [beq_eq_false_iff_ne]
    intro hname
    rw [ofName?_eq_some_iff.mpr hname.symm] at h
    cases h
  simp [ofNamed, List.lookup_cons, hname]

theorem ofNamed_cons (hreads : reads value field = true) (named : List (String × Written)) :
    ofNamed ((field.name, value) :: named) =
      (ofNamed [(field.name, value)]).or (ofNamed named) := by
  cases field <;>
    (obtain ⟨read, hread⟩ := Option.isSome_iff_exists.mp hreads
     simp [ofNamed, or, Field.name, List.lookup_cons, hread])

theorem reads_of_set? {payload' : Payload} (h : payload.set? value field = some payload') :
    reads value field = true := by
  cases field <;>
    (rw [set?, Option.map_eq_some_iff] at h
     obtain ⟨read, hread, -⟩ := h
     simp [reads, hread])

theorem set?_eq (hhas : payload.has field = false) (hreads : reads value field = true) :
    payload.set? value field = some (payload.or (ofNamed [(field.name, value)])) := by
  cases field <;>
    (obtain ⟨read, hread⟩ := Option.isSome_iff_exists.mp hreads
     simp only [has, Option.isSome_eq_false_iff, Option.isNone_iff_eq_none] at hhas
     simp [ofNamed, or, set?, Field.name, List.lookup_cons, hread, hhas])

theorem has_or_single (hreads : reads value field = true) (other : Field) :
    (payload.or (ofNamed [(field.name, value)])).has other =
      (payload.has other || decide (other = field)) := by
  cases field <;>
    (obtain ⟨read, hread⟩ := Option.isSome_iff_exists.mp hreads
     cases other <;> simp [ofNamed, or, has, Field.name, List.lookup_cons, hread])

-- A field that has been met counts along with the members still to come, so that the induction can
-- go on from any payload.
/-- Members that say each field once, and say it right, say it in any order. -/
theorem extend?_eq (members : WrittenMembers) (payload : Payload)
    {named : List (String × Written)} (hnamed : members.named? = some named)
    (honce : ∀ field : Field,
      (payload.has field).toNat + named.countP (fun member ↦ member.1 = field.name) ≤ 1)
    (hreads : ∀ field value, (Field.name field, value) ∈ named → reads value field = true) :
    payload.extend? members = some (payload.or (ofNamed named)) := by
  cases members with
  | nil gap =>
    obtain rfl := Option.some.inj hnamed
    simp [extend?, or, ofNamed]
  | cons label value after others =>
    rw [WrittenMembers.named?, Option.bind_eq_some_iff] at hnamed
    obtain ⟨name, hname, hnamed⟩ := hnamed
    obtain ⟨rest, hrest, rfl⟩ := Option.map_eq_some_iff.mp hnamed
    rw [extend?, hname, Option.bind_some]
    cases hfield : Field.ofName? name with
    | none =>
      rw [Option.elim_none, ofNamed_unknown hfield]
      refine extend?_eq others payload hrest (fun field ↦ ?_) fun field value hmem ↦
        hreads field value (List.mem_cons_of_mem _ hmem)
      have honce := honce field
      rw [List.countP_cons] at honce
      omega
    | some field =>
      obtain rfl := ofName?_eq_some_iff.mp hfield
      have hread := hreads field value List.mem_cons_self
      have hhas : payload.has field = false := by
        have honce := honce field
        rw [List.countP_cons, if_pos (decide_eq_true rfl)] at honce
        exact Bool.toNat_eq_zero.mp (by omega)
      rw [Option.elim_some, hhas, if_neg Bool.false_ne_true, set?_eq hhas hread, Option.bind_some,
        ofNamed_cons hread rest, ← or_assoc]
      refine extend?_eq others _ hrest (fun other ↦ ?_) fun field value hmem ↦
        hreads field value (List.mem_cons_of_mem _ hmem)
      have honce := honce other
      rw [List.countP_cons] at honce
      rw [has_or_single hread]
      by_cases hother : other = field
      · subst hother
        simp only [hhas, decide_true, if_true, Bool.false_or, Bool.toNat_true,
          Bool.toNat_false] at honce ⊢
        omega
      · simp only [hother, decide_false, Bool.or_false]
        omega

/-- Conversely, where the members say something, each field of theirs is said right. -/
theorem reads_of_extend? (members : WrittenMembers) (payload : Payload)
    {named : List (String × Written)} (hnamed : members.named? = some named) {payload' : Payload}
    (h : payload.extend? members = some payload') (hmem : (field.name, value) ∈ named) :
    reads value field = true := by
  cases members with
  | nil gap =>
    obtain rfl := Option.some.inj hnamed
    cases hmem
  | cons label written after others =>
    rw [WrittenMembers.named?, Option.bind_eq_some_iff] at hnamed
    obtain ⟨name, hname, hnamed⟩ := hnamed
    obtain ⟨rest, hrest, rfl⟩ := Option.map_eq_some_iff.mp hnamed
    rw [extend?, hname, Option.bind_some] at h
    cases hfield : Field.ofName? name with
    | none =>
      rw [hfield, Option.elim_none] at h
      rcases List.mem_cons.mp hmem with heq | hmem
      · obtain ⟨rfl, rfl⟩ := Prod.mk.inj heq
        rw [ofName?_eq_some_iff.mpr rfl] at hfield
        cases hfield
      · exact reads_of_extend? others payload hrest h hmem
    | some own =>
      rw [hfield, Option.elim_some] at h
      split at h
      · cases h
      · obtain ⟨between, hset, h⟩ := Option.bind_eq_some_iff.mp h
        rcases List.mem_cons.mp hmem with heq | hmem
        · obtain ⟨rfl, rfl⟩ := Prod.mk.inj heq
          obtain rfl := Option.some.inj (hfield.symm.trans (ofName?_eq_some_iff.mpr rfl))
          exact reads_of_set? hset
        · exact reads_of_extend? others between hrest h hmem

end Named

end Payload

end TreeAudit.Store
