import TreeAudit.Proofs.Store.Payload

/-!
What a payload says decides the document it holds. A payload is an object, written with whatever
blanks, escapes and further members (`WrittenPayload`). If it says its fields within the limits of
the reader (`IsReadable`), the document is told by the values of these fields and by nothing else
(`decode_text`): id, parent, kind and children each follow from one or two of them (`Tells`).

A field of the wrong type does no harm as such. Yet a value has to be read to be found wrong, and it
can be too large a numeral, nest too deep or hold half a surrogate pair. Then the whole payload
fails (`decode_mistyped`), as one does whose parent is too large a numeral (`decode_hugeParent`).
-/

set_option autoImplicit false
set_option relaxedAutoImplicit false

namespace TreeAudit.Store

open Json

/-- A value that the reader of a payload takes: its numerals are not too large, its escapes tell of
characters, and it does not nest too deep. -/
structure IsReadable (value : Written) : Prop where
  nesting_lt : value.nesting < Payload.depth
  meant : value.value?.isSome = true

theorem valueOf?_eq {value : Written} (h : IsReadable value) : valueOf? value = value.value? :=
  Value.within_of_lt h.nesting_lt _

theorem isReadable_iff {value : Written} : IsReadable value ↔ (valueOf? value).isSome = true := by
  constructor
  · intro h
    rw [valueOf?_eq h]
    exact h.meant
  · intro h
    by_cases hnesting : value.nesting < Payload.depth
    · exact ⟨hnesting, by rwa [valueOf?, Value.within_of_lt hnesting] at h⟩
    · rw [valueOf?, Value.within_of_le (Nat.not_lt.mp hnesting)] at h
      cases h

theorem Payload.isDeleted_iff {payload : Payload} :
    payload.isDeleted = true ↔ payload.deleted = some (.bool true) := by
  rw [isDeleted]
  split <;> simp_all

/-- A payload as it is written: an object with blanks around it, in which every name tells of one
and no recognised name occurs twice. -/
structure WrittenPayload where
  before : Gap
  members : WrittenMembers
  after : Gap
  named : List (String × Written)
  named?_eq : members.named? = some named
  once : ∀ field : Field, named.countP (fun member ↦ member.1 = field.name) ≤ 1

namespace WrittenPayload

def text (payload : WrittenPayload) : String :=
  String.ofList (payload.before.text ++
    ((Written.object payload.members).text ++ payload.after.text))

/-- What is written for a field. -/
def written? (payload : WrittenPayload) (field : Field) : Option Written :=
  payload.named.lookup field.name

/-- The value that is written for a field. -/
def value? (payload : WrittenPayload) (field : Field) : Option Value :=
  (payload.written? field).bind Written.value?

/-- A field that is null counts as missing. -/
def Lacks (payload : WrittenPayload) (field : Field) : Prop :=
  payload.value? field = none ∨ payload.value? field = some .null

/-- What is written for the fields can be read. -/
def FieldsReadable (payload : WrittenPayload) : Prop :=
  ∀ field value, payload.written? field = some value → IsReadable value

/-- The document under `id` that a payload tells of. -/
structure Tells (payload : WrittenPayload) (id : DocumentId) (document : Document) : Prop where
  id_eq : document.id = id
  parent_of_string : ∀ parent, payload.value? .parent = some (.string parent) →
    document.parent = some ⟨parent⟩
  parent_of_mistyped : ∀ value, payload.value? .parent = some value → value ≠ .null →
    (∀ parent, value ≠ .string parent) → document.parent = none
  parent_of_id : payload.Lacks .parent → ∀ parent, id.derivedParent? = some parent →
    document.parent = some parent
  parent_of_path : payload.Lacks .parent → id.derivedParent? = none →
    ∀ path, payload.value? .path = some (.string path) →
      document.parent = (DocumentId.ofPath path.toList).derivedParent?
  parent_of_nothing : payload.Lacks .parent → id.derivedParent? = none →
    (∀ path, payload.value? .path ≠ some (.string path)) → document.parent = none
  kind_of_split : id.isSplit = true → document.kind = .split
  kind_of_deleted : id.isSplit = false → payload.value? .deleted = some (.bool true) →
    document.kind = .deleted
  kind_of_live : id.isSplit = false → payload.value? .deleted ≠ some (.bool true) →
    document.kind = .node
  hasChildren_of_bool : ∀ children, payload.value? .children = some (.bool children) →
    document.hasChildren = children
  hasChildren_of_lack : payload.Lacks .children → document.hasChildren = false
  hasChildren_of_mistyped : ∀ value, payload.value? .children = some value → value ≠ .null →
    (∀ children, value ≠ .bool children) → document.hasChildren = true

variable {payload : WrittenPayload} {value : Written} {field : Field}

theorem written?_eq_some_iff : payload.written? field = some value ↔
    (field.name, value) ∈ payload.named := by
  have honce := payload.once field
  rw [written?]
  generalize payload.named = named at honce ⊢
  induction named with
  | nil => simp
  | cons member rest ih =>
    obtain ⟨name, own⟩ := member
    rw [List.countP_cons] at honce
    by_cases hname : field.name = name
    · subst hname
      have hrest : (field.name, value) ∉ rest := by
        rw [if_pos (decide_eq_true rfl)] at honce
        intro hmem
        have hpos : 0 < rest.countP fun member ↦ member.1 = field.name :=
          List.countP_pos_iff.mpr ⟨_, hmem, decide_eq_true rfl⟩
        omega
      simp [hrest, eq_comm]
    · have hbeq : (field.name == name) = false := beq_eq_false_iff_ne.mpr hname
      rw [List.lookup_cons, hbeq]
      simp only [List.mem_cons, Prod.mk.injEq, hname, false_and, false_or]
      exact ih (by omega)

/-! ### Reading what is written -/

theorem idOf?_of_null (h : value.value? = some .null) : idOf? value = some none := by
  cases value <;> simp_all [Written.value?, idOf?]

theorem idOf?_of_string {id : String} (h : value.value? = some (.string id)) :
    idOf? value = some (some id) := by
  cases value <;> simp_all [Written.value?, idOf?]

theorem ofText_text (hreads : ∀ field value, payload.written? field = some value →
      Payload.reads value field = true) :
    Payload.ofText payload.text.toList = .ok (Payload.ofNamed payload.named) := by
  have hextend := Payload.extend?_eq payload.members .empty payload.named?_eq
    (fun field ↦ by cases field <;> simpa [Payload.has, Payload.empty] using payload.once _)
    fun field value hmem ↦ hreads field value (written?_eq_some_iff.mpr hmem)
  have htext := Payload.toOption_ofText payload.before payload.members payload.after
  rw [text, String.toList_ofList]
  rw [hextend] at htext
  cases hread : Payload.ofText (payload.before.text ++
      ((Written.object payload.members).text ++ payload.after.text)) with
  | error error =>
    rw [hread] at htext
    cases htext
  | ok read =>
    rw [hread] at htext
    obtain rfl := Option.some.inj htext
    rfl

theorem reads_of_ofText {read : Payload} (h : Payload.ofText payload.text.toList = .ok read)
    (hvalue : payload.written? field = some value) : Payload.reads value field = true := by
  have htext := Payload.toOption_ofText payload.before payload.members payload.after
  rw [text, String.toList_ofList] at h
  rw [h] at htext
  exact Payload.reads_of_extend? payload.members .empty payload.named?_eq htext.symm
    (written?_eq_some_iff.mp hvalue)

theorem bind_valueOf?
    (hreadable : ∀ value, payload.written? field = some value → IsReadable value) :
    (payload.written? field).bind valueOf? = payload.value? field := by
  rw [value?]
  cases hvalue : payload.written? field with
  | none => rfl
  | some value => exact valueOf?_eq (hreadable value hvalue)

/-- What a payload is read as tells what the payload tells. -/
theorem tells_document (hreadable : payload.FieldsReadable) (id : DocumentId) :
    payload.Tells id ((Payload.ofNamed payload.named).document id) := by
  have hpath : (Payload.ofNamed payload.named).path = payload.value? .path :=
    bind_valueOf? (hreadable .path)
  have hparent : (Payload.ofNamed payload.named).parent = payload.value? .parent :=
    bind_valueOf? (hreadable .parent)
  have hdeleted : (Payload.ofNamed payload.named).deleted = payload.value? .deleted :=
    bind_valueOf? (hreadable .deleted)
  have hchildren : (Payload.ofNamed payload.named).children = payload.value? .children :=
    bind_valueOf? (hreadable .children)
  -- From here on what was read matters only by these four values.
  generalize Payload.ofNamed payload.named = read at hpath hparent hdeleted hchildren
  exact
    { id_eq := rfl
      parent_of_string := fun parent h ↦ by
        simp [Payload.document, Payload.parentOf, hparent, h]
      parent_of_mistyped := fun value h hnull hstring ↦ by
        cases value <;> simp_all [Payload.document, Payload.parentOf]
      parent_of_id := fun h parent hderived ↦ by
        rcases h with h | h <;> simp [Payload.document, Payload.parentOf, hparent, h, hderived]
      parent_of_path := fun h hderived path hpath' ↦ by
        rcases h with h | h <;>
          simp [Payload.document, Payload.parentOf, hparent, h, hderived, hpath, hpath']
      parent_of_nothing := fun h hderived hno ↦ by
        have hpathless : ∀ path, read.path ≠ some (.string path) := hpath ▸ hno
        rcases h with h | h <;> simp only [Payload.document, Payload.parentOf, hparent, h, hderived]
      kind_of_split := fun h ↦ by simp [Payload.document, h]
      kind_of_deleted := fun h hdeleted' ↦ by
        simp [Payload.document, h, Payload.isDeleted_iff.mpr (hdeleted.trans hdeleted')]
      kind_of_live := fun h hlive ↦ by
        have hnot : ¬ read.isDeleted = true := fun hdeleted' ↦
          hlive (hdeleted.symm.trans (Payload.isDeleted_iff.mp hdeleted'))
        simp [Payload.document, h, hnot]
      hasChildren_of_bool := fun children h ↦ by
        simp [Payload.document, Payload.mayHaveChildren, hchildren, h]
      hasChildren_of_lack := fun h ↦ by
        rcases h with h | h <;> simp [Payload.document, Payload.mayHaveChildren, hchildren, h]
      hasChildren_of_mistyped := fun value h hnull hbool ↦ by
        cases value <;> simp_all [Payload.document, Payload.mayHaveChildren] }

/-! ### The id -/

theorem id_ofNamed_of_string {id : String} (hid : payload.value? .id = some (.string id)) :
    (Payload.ofNamed payload.named).id = some (some id) := by
  obtain ⟨value, hwritten, hvalue⟩ := Option.bind_eq_some_iff.mp hid
  exact Option.bind_eq_some_iff.mpr ⟨value, hwritten, idOf?_of_string hvalue⟩

theorem id_ofNamed_of_lacks (hreadable : payload.FieldsReadable) (hid : payload.Lacks .id) :
    (Payload.ofNamed payload.named).id = none ∨ (Payload.ofNamed payload.named).id = some none := by
  have hnamed : (Payload.ofNamed payload.named).id = (payload.written? .id).bind idOf? := rfl
  rw [hnamed]
  cases hwritten : payload.written? .id with
  | none => exact .inl rfl
  | some value =>
    have hmeant := (hreadable .id value hwritten).meant
    rw [Lacks, value?, hwritten, Option.bind_some] at hid
    rcases hid with hnone | hnull
    · rw [hnone] at hmeant
      cases hmeant
    · exact .inr (idOf?_of_null hnull)

theorem reads_of_isReadable
    (hid : payload.Lacks .id ∨ ∃ id, payload.value? .id = some (.string id))
    (hreadable : payload.FieldsReadable)
    (hwritten : payload.written? field = some value) : Payload.reads value field = true := by
  have hvalue := hreadable field value hwritten
  cases field with
  | id =>
    rw [Lacks, value?, hwritten, Option.bind_some] at hid
    rcases hid with (hnone | hnull) | ⟨id, hstring⟩
    · have hmeant := hvalue.meant
      rw [hnone] at hmeant
      cases hmeant
    · exact Option.isSome_iff_exists.mpr ⟨_, idOf?_of_null hnull⟩
    · exact Option.isSome_iff_exists.mpr ⟨_, idOf?_of_string hstring⟩
  | path | parent | deleted | children => exact isReadable_iff.mp hvalue

theorem isReadable_of_reads (hreads : Payload.reads value field = true) : IsReadable value := by
  cases field with
  | id =>
    obtain ⟨id, hid⟩ := Option.isSome_iff_exists.mp hreads
    cases value with
    | null => exact ⟨(by decide : 0 < Payload.depth), rfl⟩
    | string spelling =>
      obtain ⟨text, htext, -⟩ := Option.map_eq_some_iff.mp hid
      exact ⟨(by decide : 0 < Payload.depth), by simp [Written.value?, htext]⟩
    | bool b | number literal | list items | object members => cases hid
  | path | parent | deleted | children => exact isReadable_iff.mpr hreads

/-! ### The document -/

theorem decode_without_id (hid : payload.Lacks .id) (hreadable : payload.FieldsReadable) :
    decode none payload.text = .error .noId := by
  have hread : Payload.ofText payload.text.toList = .ok (Payload.ofNamed payload.named) :=
    ofText_text fun _ _ hwritten ↦ reads_of_isReadable (.inl hid) hreadable hwritten
  rw [decode, hread]
  rcases id_ofNamed_of_lacks hreadable hid with h | h <;> simp only [h]

theorem exists_decode (hid : payload.Lacks .id ∨ ∃ id, payload.value? .id = some (.string id))
    (hreadable : payload.FieldsReadable) {key : Option DocumentId} {id : DocumentId}
    (h : key = some id ∨ key = none ∧ payload.value? .id = some (.string id.text)) :
    ∃ document, decode key payload.text = .ok document ∧ payload.Tells id document := by
  have hread : Payload.ofText payload.text.toList = .ok (Payload.ofNamed payload.named) :=
    ofText_text fun _ _ hwritten ↦ reads_of_isReadable hid hreadable hwritten
  refine ⟨_, ?_, tells_document hreadable id⟩
  rw [decode, hread]
  rcases h with rfl | ⟨rfl, hstring⟩
  · rfl
  · simp only [id_ofNamed_of_string hstring]

/-- Whatever else a payload holds and however it is written, the document is the one that its
fields tell of. Without an id there is none. -/
theorem decode_text
    (hid : payload.Lacks .id ∨ ∃ id, payload.value? .id = some (.string id))
    (hreadable : payload.FieldsReadable) (key : Option DocumentId) :
    (key = none → payload.Lacks .id → decode key payload.text = .error .noId) ∧
      ∀ id : DocumentId,
        (key = some id ∨ key = none ∧ payload.value? .id = some (.string id.text)) →
          ∃ document, decode key payload.text = .ok document ∧ payload.Tells id document := by
  refine ⟨?_, fun id h ↦ exists_decode hid hreadable h⟩
  rintro rfl hlacks
  exact decode_without_id hlacks hreadable

/-- A name between quotation marks and its colon. -/
def label (name : List Char) (h : (name.all fun c ↦ decide (IsPlain c)) = true) : Label :=
  ⟨[], .plain name h, [], []⟩

/-- A numeral that is too large, `1e999`. -/
def tooLarge : Written :=
  .number ⟨false, ⟨1, []⟩, none, some ⟨false, none, ⟨9, [9, 9]⟩⟩, fun _ ↦ rfl⟩

/-- A list with a numeral that is too large under an unknown name, the id with an escape in it, and
a flag, with some blanks. -/
def strangerFirst : WrittenPayload where
  before := [.space]
  members :=
    .cons (label ['x'] rfl) (.list (.cons [] tooLarge [.tab] (.nil []))) [.space] <|
    .cons ⟨[.lineFeed], .plain ['_', 'i', 'd'] rfl, [], [.space]⟩
      (.string (Spelling.plain ['1', ':'] rfl ++ .letter .slash :: Spelling.plain ['a'] rfl)) [] <|
    .cons (label ['_', 'd', 'e', 'l', 'e', 't', 'e', 'd'] rfl) (.bool true) [] (.nil [])
  after := []
  named := [("x", .list (.cons [] tooLarge [.tab] (.nil []))),
    ("_id", .string (Spelling.plain ['1', ':'] rfl ++ .letter .slash :: Spelling.plain ['a'] rfl)),
    ("_deleted", .bool true)]
  named?_eq := by rfl
  once := by rintro (_ | _ | _ | _ | _) <;> decide

theorem decode_text_strangerFirst :
    strangerFirst.text =
        " \x7b\"x\":[1e999\t] ,\n\"_id\": \"1:\\/a\",\"_deleted\":true\x7d" ∧
      strangerFirst.value? .id = some (.string "1:/a") ∧
      strangerFirst.FieldsReadable ∧
      ∃ document, decode none strangerFirst.text = .ok document ∧
        document = ⟨⟨"1:/a"⟩, some ⟨"0:/"⟩, .deleted, false⟩ := by
  have hid : strangerFirst.value? .id = some (.string "1:/a") := by rfl
  have hreadable : strangerFirst.FieldsReadable := by
    intro field value h
    cases field with
    | id | deleted =>
      obtain rfl := Option.some.inj h
      exact ⟨by decide, rfl⟩
    | path | parent | children => cases h
  obtain ⟨document, hdecode, htells⟩ :=
    (decode_text (.inr ⟨"1:/a", hid⟩) hreadable none).2 ⟨"1:/a"⟩ (.inr ⟨rfl, hid⟩)
  have hparent := htells.parent_of_id (.inl rfl) ⟨"0:/"⟩ (by decide +kernel)
  have hkind := htells.kind_of_deleted (by decide +kernel) rfl
  have hchildren := htells.hasChildren_of_lack (.inl rfl)
  refine ⟨by decide +kernel, hid, hreadable, document, hdecode, ?_⟩
  rw [← hparent, ← hkind, ← hchildren, ← htells.id_eq]

/-- A field of the wrong type does no harm to the document, but one that cannot be read does. -/
theorem decode_mistyped {id : String} (hid : payload.value? .id = some (.string id))
    (key : Option DocumentId) :
    (payload.FieldsReadable →
      ∃ document, decode key payload.text = .ok document ∧ document.id = key.getD ⟨id⟩ ∧
        ((∀ parent, payload.value? .parent ≠ some (.string parent)) → ¬ payload.Lacks .parent →
          document.parent = none) ∧
        ((∀ deleted, payload.value? .deleted ≠ some (.bool deleted)) → document.kind ≠ .deleted) ∧
        ((∀ children, payload.value? .children ≠ some (.bool children)) →
          ¬ payload.Lacks .children → document.hasChildren = true)) ∧
    ∀ field value, payload.written? field = some value → ¬ IsReadable value →
      ∃ error, decode key payload.text = .error (.json error) := by
  constructor
  · intro hreadable
    have hkey : key = some (key.getD ⟨id⟩) ∨
        key = none ∧ payload.value? .id = some (.string (key.getD ⟨id⟩).text) := by
      cases key with
      | none => exact .inr ⟨rfl, hid⟩
      | some key => exact .inl rfl
    obtain ⟨document, hdecode, htells⟩ := exists_decode (.inr ⟨id, hid⟩) hreadable hkey
    refine ⟨document, hdecode, htells.id_eq, fun hmistyped hgiven ↦ ?_, fun hmistyped ↦ ?_,
      fun hmistyped hgiven ↦ ?_⟩
    · cases hparent : payload.value? .parent with
      | none => exact absurd (.inl hparent) hgiven
      | some value =>
        exact htells.parent_of_mistyped value hparent
          (fun hnull ↦ hgiven (.inr (hnull ▸ hparent)))
          fun parent hstring ↦ hmistyped parent (hstring ▸ hparent)
    · cases hsplit : (key.getD ⟨id⟩).isSplit with
      | true => rw [htells.kind_of_split hsplit]; exact nofun
      | false => rw [htells.kind_of_live hsplit (hmistyped true)]; exact nofun
    · cases hchildren : payload.value? .children with
      | none => exact absurd (.inl hchildren) hgiven
      | some value =>
        exact htells.hasChildren_of_mistyped value hchildren
          (fun hnull ↦ hgiven (.inr (hnull ▸ hchildren)))
          fun children hbool ↦ hmistyped children (hbool ▸ hchildren)
  -- Had the payload been read, so had each of its fields.
  · intro field value hwritten hunreadable
    cases hread : Payload.ofText payload.text.toList with
    | error error => exact ⟨error, by rw [decode, hread]⟩
    | ok read => exact absurd (isReadable_of_reads (reads_of_ofText hread hwritten)) hunreadable

/-- A document whose parent is given as a numeral that is too large. -/
def hugeParent : WrittenPayload where
  before := []
  members :=
    .cons (label ['_', 'i', 'd'] rfl) (.string (.plain ['1', ':', '/', 'a'] rfl)) [] <|
    .cons (label ['_', 'p', 'a', 'r', 'e', 'n', 't'] rfl) tooLarge [] (.nil [])
  after := []
  named := [("_id", .string (.plain ['1', ':', '/', 'a'] rfl)), ("_parent", tooLarge)]
  named?_eq := by rfl
  once := by rintro (_ | _ | _ | _ | _) <;> decide

theorem decode_mistyped_hugeParent :
    hugeParent.value? .id = some (.string "1:/a") ∧ ¬ IsReadable tooLarge ∧
      ∃ error, decode none hugeParent.text = .error (.json error) := by
  have hid : hugeParent.value? .id = some (.string "1:/a") := by rfl
  have hunreadable : ¬ IsReadable tooLarge := fun h ↦ absurd h.meant (by decide)
  exact ⟨hid, hunreadable, (decode_mistyped hid none).2 .parent tooLarge rfl hunreadable⟩

/-- An object with a string as its id and one more field, which is no document. -/
theorem decode_hugeParent :
    hugeParent.text = "\x7b\"_id\":\"1:/a\",\"_parent\":1e999\x7d" ∧
      hugeParent.value? .id = some (.string "1:/a") ∧
      (hugeParent.named.map Prod.fst = [Field.id.name, Field.parent.name]) ∧
      decode none hugeParent.text = .error (.json ⟨.numberOutOfRange, ⟨1, 29⟩⟩) := by
  exact ⟨by decide +kernel, by rfl, by rfl, by decide +kernel⟩

end WrittenPayload

end TreeAudit.Store
