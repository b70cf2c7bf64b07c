import TreeAudit.Proofs.Store.Decoding

/-!
Payloads of documents whose id is kept outside. What such a payload says of the id itself is read
like any other member, and forgotten (`Payload.forget`). Reading the members that say other things
does not look at it (`extend?_forget`), so the payload gives the document that it gives without the
member, wherever that stands among the others, if the member can be read (`extend?_withMember`).

It is read strictly, though. A string and null are read; a value of another type fails the payload,
whose id would not be taken from it anyway (`decode_withId`).
-/

set_option autoImplicit false
set_option relaxedAutoImplicit false

namespace TreeAudit

namespace Json

/-- No member has the name. -/
def WrittenMembers.Lacks (name : String) : WrittenMembers → Prop
  | .nil _ => True
  | .cons label _ _ rest => label.name.string? ≠ some name ∧ rest.Lacks name

/-- The members are the others and one more, in some place among them. -/
inductive WithMember (label : Label) (value : Written) (gap : Gap) :
    (others members : WrittenMembers) → Prop
  | here (others : WrittenMembers) :
      WithMember label value gap others (.cons label value gap others)
  | behind (own : Label) (first : Written) (after : Gap) {others members : WrittenMembers}
      (h : WithMember label value gap others members) :
      WithMember label value gap (.cons own first after others) (.cons own first after members)

/-- An object as a text of its own. -/
def objectText (before : Gap) (members : WrittenMembers) (after : Gap) : String :=
  String.ofList (before.text ++ ((Written.object members).text ++ after.text))

end Json

namespace Store

open Json

theorem idOf?_isSome_iff {value : Written} : (idOf? value).isSome = true ↔
    value.value? = some .null ∨ ∃ id, value.value? = some (.string id) := by
  constructor
  · intro h
    obtain ⟨id, hid⟩ := Option.isSome_iff_exists.mp h
    cases value with
    | null => exact .inl rfl
    | string spelling =>
      obtain ⟨text, htext, -⟩ := Option.map_eq_some_iff.mp hid
      exact .inr ⟨text, congrArg (Option.map Value.string) htext⟩
    | bool b | number literal | list items | object members => cases hid
  · rintro (hnull | ⟨id, hid⟩)
    · rw [WrittenPayload.idOf?_of_null hnull]
      rfl
    · rw [WrittenPayload.idOf?_of_string hid]
      rfl

namespace Payload

/-- The payload without what it says of the id. -/
def forget (payload : Payload) : Payload := { payload with id := none }

variable {payload : Payload} {field : Field} {value : Written}

theorem has_forget (h : field ≠ .id) : payload.forget.has field = payload.has field := by
  cases field with
  | id => exact absurd rfl h
  | path | parent | deleted | children => rfl

theorem set?_forget (h : field ≠ .id) :
    payload.forget.set? value field = (payload.set? value field).map forget := by
  cases field with
  | id => exact absurd rfl h
  | path | parent | deleted | children =>
    rw [set?, set?, Option.map_map]
    rfl

theorem id_of_set? {payload' : Payload} (h : field ≠ .id)
    (hset : payload.set? value field = some payload') : payload'.id = payload.id := by
  cases field with
  | id => exact absurd rfl h
  | path | parent | deleted | children =>
    obtain ⟨read, -, rfl⟩ := Option.map_eq_some_iff.mp hset
    rfl

/-- A name that is recognised and is not that of the id is that of another field. -/
theorem ne_id_of_ofName? {label : Label} {name : String}
    (hlabel : label.name.string? ≠ some Field.id.name) (hname : label.name.string? = some name)
    (hfield : Field.ofName? name = some field) : field ≠ .id := by
  rintro rfl
  rw [ofName?_eq_some_iff.mp hfield] at hname
  exact hlabel hname

/-- Members that do not give the id are read in the same way whatever the id is. -/
theorem extend?_forget (members : WrittenMembers) (payload : Payload)
    (h : members.Lacks Field.id.name) :
    payload.forget.extend? members = (payload.extend? members).map forget := by
  cases members with
  | nil gap => rfl
  | cons label value after rest =>
    obtain ⟨hlabel, hrest⟩ := h
    rw [extend?, extend?]
    cases hname : label.name.string? with
    | none => rfl
    | some name =>
      rw [Option.bind_some, Option.bind_some]
      cases hfield : Field.ofName? name with
      | none => exact extend?_forget rest payload hrest
      | some field =>
        have hne := ne_id_of_ofName? hlabel hname hfield
        rw [Option.elim_some, Option.elim_some, has_forget hne, set?_forget hne]
        by_cases hhas : payload.has field = true
        · rw [if_pos hhas, if_pos hhas]
          rfl
        · rw [if_neg hhas, if_neg hhas]
          cases payload.set? value field with
          | none => rfl
          | some next => exact extend?_forget rest next hrest

/-- One more member that gives the id, among others that do not, is read and forgotten. -/
theorem extend?_withMember {label : Label} {gap : Gap} {others members : WrittenMembers}
    (h : WithMember label value gap others members)
    (hlabel : label.name.string? = some Field.id.name) (hothers : others.Lacks Field.id.name)
    {payload : Payload} (hid : payload.id = none) :
    (payload.extend? members).map forget =
      (idOf? value).bind fun _ ↦ (payload.extend? others).map forget := by
  induction h generalizing payload with
  | here others =>
    have hhas : ¬ payload.has .id = true := by
      rw [has, hid]
      exact Bool.false_ne_true
    rw [extend?, hlabel, Option.bind_some, ofName?_eq_some_iff.mpr rfl, Option.elim_some,
      if_neg hhas, set?]
    cases idOf? value with
    | none => rfl
    | some id =>
      -- With the id or without it, the other members are read as they are without any id.
      rw [Option.map_some, Option.bind_some, Option.bind_some, ← extend?_forget others _ hothers,
        ← extend?_forget others payload hothers]
      rfl
  | @behind own first after others members h ih =>
    obtain ⟨hown, hrest⟩ := hothers
    rw [extend?, extend?]
    cases hname : own.name.string? with
    | none => cases idOf? value <;> rfl
    | some name =>
      rw [Option.bind_some, Option.bind_some]
      cases hfield : Field.ofName? name with
      | none => exact ih hrest hid
      | some field =>
        have hne := ne_id_of_ofName? hown hname hfield
        rw [Option.elim_some, Option.elim_some]
        by_cases hhas : payload.has field = true
        · rw [if_pos hhas, if_pos hhas]
          cases idOf? value <;> rfl
        · rw [if_neg hhas, if_neg hhas]
          cases hset : payload.set? first field with
          | none => cases idOf? value <;> rfl
          | some next => exact ih hrest ((id_of_set? hne hset).trans hid)

end Payload

/-- Under a key an object gives the document of what its members say. -/
theorem toOption_decode_objectText (key : DocumentId) (before : Gap) (members : WrittenMembers)
    (after : Gap) : (decode (some key) (objectText before members after)).toOption =
      (Payload.empty.extend? members).map fun payload ↦ payload.document key := by
  rw [← Payload.toOption_ofText before members after, decode, objectText, String.toList_ofList]
  cases Payload.ofText (before.text ++ ((Written.object members).text ++ after.text)) with
  | error error => rfl
  | ok payload => rfl

/-- Under a key a payload fails only for what is wrong with its text. -/
theorem exists_json_of_decode_key {key : DocumentId} {payload : String}
    (h : (decode (some key) payload).toOption = none) :
    ∃ error, decode (some key) payload = .error (.json error) := by
  rw [decode] at h ⊢
  cases hread : Payload.ofText payload.toList with
  | error error => exact ⟨error, rfl⟩
  | ok read =>
    rw [hread] at h
    cases h

/-- Two payloads give one document, or neither gives any and each tells what is wrong with its own
text, at the place where that stands. -/
inductive Agree : Except PayloadError Document → Except PayloadError Document → Prop
  | given (document : Document) : Agree (.ok document) (.ok document)
  | failed (error error' : Json.Error) : Agree (.error (.json error)) (.error (.json error'))

theorem Agree.eq_ok {given : Except PayloadError Document} {document : Document}
    (h : Agree given (.ok document)) : given = .ok document := by
  cases h
  rfl

theorem agree_decode_key {key : DocumentId} {payload payload' : String}
    (h : (decode (some key) payload).toOption = (decode (some key) payload').toOption) :
    Agree (decode (some key) payload) (decode (some key) payload') := by
  cases hdecode : decode (some key) payload with
  | ok document =>
    rw [hdecode] at h
    cases hdecode' : decode (some key) payload' with
    | ok document' =>
      rw [hdecode'] at h
      obtain rfl := Option.some.inj h
      exact .given document
    | error error' =>
      rw [hdecode'] at h
      cases h
  | error error =>
    have hnone : (decode (some key) payload).toOption = none := by
      rw [hdecode]
      rfl
    obtain ⟨own, hown⟩ := exists_json_of_decode_key hnone
    obtain ⟨other, hother⟩ := exists_json_of_decode_key (h.symm.trans hnone)
    rw [← hdecode, hown, hother]
    exact .failed own other

section WithId

variable {label : Label} {value : Written} {gap : Gap} {others members : WrittenMembers}

/-- One more member that gives the id leaves the document as it is if it can be read, and leaves
none if it cannot. -/
theorem toOption_decode_withMember (h : WithMember label value gap others members)
    (hlabel : label.name.string? = some Field.id.name) (hothers : others.Lacks Field.id.name)
    (key : DocumentId) (before after : Gap) :
    (decode (some key) (objectText before members after)).toOption =
      (idOf? value).bind fun _ ↦
        (decode (some key) (objectText before others after)).toOption := by
  have hdocument : (fun payload : Payload ↦ payload.document key) =
      (fun payload ↦ payload.document key) ∘ Payload.forget := rfl
  rw [toOption_decode_objectText, toOption_decode_objectText, hdocument, ← Option.map_map,
    ← Option.map_map, Payload.extend?_withMember h hlabel hothers rfl, Option.map_bind]
  rfl

/-- What a payload says of the id does not matter under a key, as long as it says a string or null.
A value of another type fails the payload, whatever else that says. -/
theorem decode_withId (h : WithMember label value gap others members)
    (hlabel : label.name.string? = some Field.id.name) (hothers : others.Lacks Field.id.name)
    (key : DocumentId) (before after : Gap) :
    ((value.value? = some .null ∨ ∃ id, value.value? = some (.string id)) →
      Agree (decode (some key) (objectText before members after))
        (decode (some key) (objectText before others after))) ∧
    (¬ (value.value? = some .null ∨ ∃ id, value.value? = some (.string id)) →
      ∃ error, decode (some key) (objectText before members after) = .error (.json error)) ∧
    ∀ document, decode (some key) (objectText before members after) = .ok document →
      document.id = key := by
  have hdecode := toOption_decode_withMember h hlabel hothers key before after
  refine ⟨fun hread ↦ ?_, fun hread ↦ ?_, fun document hgiven ↦ ?_⟩
  · obtain ⟨id, hid⟩ := Option.isSome_iff_exists.mp (idOf?_isSome_iff.mpr hread)
    rw [hid, Option.bind_some] at hdecode
    exact agree_decode_key hdecode
  · have hid : idOf? value = none := by
      by_contra hsome
      exact hread (idOf?_isSome_iff.mp (Option.isSome_iff_ne_none.mpr hsome))
    rw [hid, Option.bind_none] at hdecode
    exact exists_json_of_decode_key hdecode
  · have hdocument := toOption_decode_objectText key before members after
    rw [hgiven] at hdocument
    obtain ⟨payload, -, rfl⟩ := Option.map_eq_some_iff.mp hdocument.symm
    rfl

end WithId

theorem isPlain_name (field : Field) :
    (field.name.toList.all fun c ↦ decide (IsPlain c)) = true := by
  cases field <;> rfl

/-- The name of a field, written as it is. -/
def Field.label (field : Field) : Label :=
  WrittenPayload.label field.name.toList (isPlain_name field)

/-- A deleted document. -/
def deletedAlone : WrittenMembers := .cons Field.deleted.label (.bool true) [] (.nil [])

/-- The id of the root, with an escape in it. -/
def rootId : Written := .string (Spelling.plain ['0', ':'] rfl ++ [.letter .slash])

/-- A deleted document that says it is the root. -/
def impostor : WrittenMembers :=
  .cons Field.deleted.label (.bool true) [] (.cons Field.id.label rootId [] (.nil []))

theorem decode_withId_impostor :
    objectText [] impostor [] = "\x7b\"_deleted\":true,\"_id\":\"0:\\/\"\x7d" ∧
      decode (some ⟨"1:/a"⟩) (objectText [] impostor []) =
        .ok ⟨⟨"1:/a"⟩, some ⟨"0:/"⟩, .deleted, false⟩ := by
  have hmember : WithMember Field.id.label rootId [] deletedAlone impostor :=
    .behind _ _ _ (.here _)
  have hlacks : deletedAlone.Lacks Field.id.name := ⟨by decide, trivial⟩
  have hid : rootId.value? = some (.string "0:/") := by rfl
  have hagree := (decode_withId hmember rfl hlacks ⟨"1:/a"⟩ [] []).1 (.inr ⟨"0:/", hid⟩)
  have hplain : decode (some ⟨"1:/a"⟩) (objectText [] deletedAlone []) =
      .ok ⟨⟨"1:/a"⟩, some ⟨"0:/"⟩, .deleted, false⟩ := by decide +kernel
  rw [hplain] at hagree
  exact ⟨by decide +kernel, hagree.eq_ok⟩

/-- An id of the wrong type fails a payload that without it is a document. -/
theorem decode_mistypedId :
    objectText [] (.cons Field.id.label (.bool true) [] (.nil [])) [] = "\x7b\"_id\":true\x7d" ∧
      objectText [] (.nil []) [] = "\x7b\x7d" ∧ IsReadable (.bool true) ∧
      decode (some ⟨"1:/a"⟩) "\x7b\"_id\":true\x7d" =
        .error (.json ⟨.invalidType (.bool true) "a string", ⟨1, 11⟩⟩) ∧
      decode (some ⟨"1:/a"⟩) "\x7b\x7d" = .ok ⟨⟨"1:/a"⟩, some ⟨"0:/"⟩, .node, false⟩ := by
  exact ⟨by decide +kernel, by decide +kernel, ⟨by decide, rfl⟩, by decide +kernel,
    by decide +kernel⟩

end Store

end TreeAudit
