import TreeAudit.Proofs.Document.TreePath
import TreeAudit.Store.Payload

/-!
Nodes of a path tree as a store keeps them. A node is stored under the id of its path, or,
where the path is long, under an id made from a hash of it, which is the id of no path
(`id_eq_iff`). Whichever it is, the payload of the node decodes to a live node that refers
to its parent by the id of the parent's path (`decode_of_records`).
-/

set_option autoImplicit false
set_option relaxedAutoImplicit false

namespace TreeAudit

open Text

/-- A node and the form of its id. The path of the root is never long. -/
inductive StoredNode where
  | plain (path : TreePath)
  | hashed (path : TreePath) (hash : String) (ne_bot : path ≠ ⊥)
deriving DecidableEq

namespace StoredNode

def path : StoredNode → TreePath
  | plain path => path
  | hashed path _ _ => path

def id : StoredNode → DocumentId
  | plain path => path.id
  | hashed path hash _ => ⟨toString path.names.length ++ ":h" ++ hash⟩

/-- A live node under the id of the node, child of the parent path. -/
structure Holds (node : StoredNode) (document : Document) : Prop where
  id : document.id = node.id
  kind : document.kind = .node
  parent : node.path ≠ ⊥ → document.parent = some node.path.parent.id

/-- What is stored for the node. It names no parent, and carries the path where the id does
not tell it. -/
structure Records (node : StoredNode) (payload : Store.Payload) : Prop where
  id : payload.id = some (some node.id.text)
  parent : payload.parent = none
  deleted : payload.isDeleted = false
  path : node.id.path? = none → payload.path = some (.string (String.ofList node.path.text))

/-- The text by which a store tells of the node. -/
def WrittenAs (node : StoredNode) (text : String) : Prop :=
  ∃ payload, Store.Payload.ofText text.toList = .ok payload ∧ node.Records payload

section Deciding

instance (field : Option Json.Value) (text : String) :
    Decidable (field = some (.string text)) :=
  match field with
  | some (.string other) => decidable_of_iff (other = text) (by simp)
  | none | some .null | some (.bool _) | some (.number _) | some (.list _) | some (.object _) =>
    isFalse (by simp)

instance (node : StoredNode) (payload : Store.Payload) : Decidable (node.Records payload) :=
  decidable_of_iff
    (payload.id = some (some node.id.text) ∧ payload.parent.isNone = true ∧
      payload.isDeleted = false ∧
      (node.id.path?.isNone = true → payload.path = some (.string (String.ofList node.path.text))))
    ⟨fun ⟨hid, hparent, hdeleted, hpath⟩ ↦
      ⟨hid, Option.isNone_iff_eq_none.mp hparent, hdeleted,
        fun hnone ↦ hpath (Option.isNone_iff_eq_none.mpr hnone)⟩,
      fun h ↦ ⟨h.id, Option.isNone_iff_eq_none.mpr h.parent, h.deleted,
        fun hnone ↦ h.path (Option.isNone_iff_eq_none.mp hnone)⟩⟩

instance : DecidableRel WrittenAs := fun node text ↦
  match h : Store.Payload.ofText text.toList with
  | .ok payload => decidable_of_iff (node.Records payload) (by simp [WrittenAs, h])
  | .error _ => isFalse (by simp [WrittenAs, h])

end Deciding

variable {node : StoredNode} {path : TreePath} {hash : String} {h : path ≠ ⊥}

/-- A hashed id, cut at its first colon. -/
theorem atFirst?_hashed : Split.atFirst? ':' (hashed path hash h).id.text.toList =
    some ((toString path.names.length).toList, 'h' :: hash.toList) := by
  have htext : (hashed path hash h).id.text.toList =
      (toString path.names.length).toList ++ ':' :: 'h' :: hash.toList := by
    simp [id]
  rw [htext, Split.atFirst?_append]
  intro hcolon
  exact absurd (Unsigned.isDigit_of_mem_toString hcolon) (by decide)

/-- A hashed id does not tell the path. -/
theorem path?_hashed : (hashed path hash h).id.path? = none := by
  rw [DocumentId.path?, atFirst?_hashed]
  dsimp only
  rw [if_neg]
  simp

/-- Only the node at a path can be stored under the id of the path. -/
theorem id_eq_iff : node.id = path.id ↔ node = plain path := by
  constructor
  · intro heq
    cases node with
    | plain own => rw [TreePath.id_injective heq]
    | hashed own hash hown =>
      have hpath := @path?_hashed own hash hown
      rw [heq, TreePath.path?_id] at hpath
      exact absurd hpath (Option.some_ne_none _)
  · rintro rfl
    rfl

theorem id_eq_treeRoot_iff : node.id = .treeRoot ↔ node.path = ⊥ := by
  rw [← TreePath.id_bot, id_eq_iff]
  cases node with
  | plain path => rw [plain.injEq, StoredNode.path]
  | hashed path hash hpath => exact iff_of_false nofun hpath

theorem isSplit_id (node : StoredNode) : node.id.isSplit = false := by
  cases node with
  | plain path => exact path.isSplit_id
  | hashed path hash h =>
    rw [DocumentId.isSplit, atFirst?_hashed]
    rfl

theorem holds_ofId (path : TreePath) : (plain path).Holds (.ofId path.id) where
  id := rfl
  kind := rfl
  parent := TreePath.derivedParent?_id

namespace Records

variable {payload : Store.Payload}

/-- The parent is the one the id tells, or else the one the stored path tells. -/
theorem parentOf (hrecords : node.Records payload) (hpath : node.path ≠ ⊥) :
    payload.parentOf node.id = some node.path.parent.id := by
  rw [Store.Payload.parentOf, hrecords.parent]
  dsimp only
  cases node with
  | plain path =>
    have hderived : (plain path).id.derivedParent? = some path.parent.id :=
      TreePath.derivedParent?_id hpath
    rw [hderived]
    rfl
  | hashed path hash hne =>
    have hderived : (hashed path hash hne).id.derivedParent? = none := by
      rw [DocumentId.derivedParent?, path?_hashed, Option.bind_none, Option.map_none]
    rw [hderived, hrecords.path path?_hashed]
    dsimp only
    rw [String.toList_ofList]
    exact TreePath.derivedParent?_id hpath

theorem holds (hrecords : node.Records payload) : node.Holds (payload.document node.id) where
  id := rfl
  kind := by simp [Store.Payload.document, isSplit_id, hrecords.deleted]
  parent := hrecords.parentOf

end Records

/-- A text that says what is stored for a node decodes to the document of the node. -/
theorem WrittenAs.exists_decode {text : String} (htext : node.WrittenAs text) :
    ∃ document, Store.decode none text = .ok document ∧ node.Holds document := by
  obtain ⟨payload, hpayload, hrecords⟩ := htext
  refine ⟨payload.document node.id, ?_, hrecords.holds⟩
  rw [Store.decode, hpayload]
  dsimp only
  rw [hrecords.id]

theorem exists_mapM_decode {stored : List StoredNode} {texts : List String}
    (htexts : List.Forall₂ WrittenAs stored texts) :
    ∃ documents, texts.mapM (Store.decode none) = .ok documents ∧
      List.Forall₂ Holds stored documents := by
  induction htexts with
  | nil => exact ⟨[], rfl, .nil⟩
  | cons htext _ ih =>
    obtain ⟨document, hdecode, hholds⟩ := htext.exists_decode
    obtain ⟨documents, hdecodes, hall⟩ := ih
    refine ⟨document :: documents, ?_, .cons hholds hall⟩
    rw [List.mapM_cons, hdecode, hdecodes]
    rfl

end StoredNode

end TreeAudit
