import TreeAudit.Document.Id
import TreeAudit.Proofs.Text.Splitting
import Mathlib.Order.BoundedOrder.Basic
import Mathlib.Order.Defs.Unbundled
import Mathlib.Data.List.Infix

/-!
Normalized absolute paths: names from the root down, none of them empty and none with a
slash in it. Ordered by prefix they form a tree, in which the ancestors of a path other
than the root are the path itself and the ancestors of its parent (`le_iff`). The id under
which the node at a path is stored tells the path (`path?_id`), so different paths have
different ids (`id_injective`), and it tells the id of the parent (`derivedParent?_id`).
-/

set_option autoImplicit false
set_option relaxedAutoImplicit false

namespace TreeAudit

open Text

namespace DocumentId

variable {path : List Char}

theorem toList_ofPath (path : List Char) :
    (ofPath path).text.toList = (toString (Document.Path.depth path)).toList ++ ':' :: path := by
  simp [ofPath]

/-- The id made from a path, cut at its first colon: no colon stands in the number. -/
theorem atFirst?_ofPath (path : List Char) : Split.atFirst? ':' (ofPath path).text.toList =
    some ((toString (Document.Path.depth path)).toList, path) := by
  rw [toList_ofPath, Split.atFirst?_append]
  intro hcolon
  exact absurd (Unsigned.isDigit_of_mem_toString hcolon) (by decide)

/-- The id made from a path tells the path. -/
theorem path?_ofPath (hhead : path.head? = some '/')
    (hdepth : Document.Path.depth path < Unsigned.wordBound) :
    (ofPath path).path? = some path := by
  rw [path?, atFirst?_ofPath]
  dsimp only
  rw [Unsigned.unsigned?_toString hdepth, hhead]
  rfl

end DocumentId

/-- A normalized absolute path, no deeper than a machine word can tell. -/
@[ext]
structure TreePath where
  names : List (List Char)
  ne_nil : ∀ name ∈ names, name ≠ []
  slash_notMem : ∀ name ∈ names, '/' ∉ name
  length_lt : names.length < Unsigned.wordBound
deriving DecidableEq

namespace TreePath

variable {path ancestor : TreePath}

/-- An ancestor of a path, or the path itself. -/
instance : PartialOrder TreePath where
  le ancestor path := ancestor.names <+: path.names
  le_refl _ := List.prefix_rfl
  le_trans _ _ _ := List.IsPrefix.trans
  le_antisymm _ _ h h' := TreePath.ext (h.eq_of_length (h.length_le.antisymm h'.length_le))

theorem le_def : ancestor ≤ path ↔ ancestor.names <+: path.names := Iff.rfl

instance : DecidableLE TreePath := fun _ _ ↦ decidable_of_iff _ le_def.symm

instance : DecidableLT TreePath := fun _ _ ↦ decidable_of_iff _ lt_iff_le_not_ge.symm

/-- The root has no names. -/
instance : OrderBot TreePath where
  bot := ⟨[], by simp, by simp, by decide⟩
  bot_le _ := List.nil_prefix

@[simp] theorem names_bot : (⊥ : TreePath).names = [] := rfl

theorem names_eq_nil_iff : path.names = [] ↔ path = ⊥ := by
  rw [TreePath.ext_iff, names_bot]

/-- The path one name up; the root is its own parent. -/
def parent (path : TreePath) : TreePath where
  names := path.names.dropLast
  ne_nil := fun name hname ↦ path.ne_nil name (List.mem_of_mem_dropLast hname)
  slash_notMem := fun name hname ↦ path.slash_notMem name (List.mem_of_mem_dropLast hname)
  length_lt := by
    rw [List.length_dropLast]
    exact lt_of_le_of_lt (Nat.sub_le _ _) path.length_lt

/-- The last name of a path other than the root, behind those of the parent. -/
theorem exists_names_eq (h : path ≠ ⊥) :
    ∃ name ∈ path.names, path.names = path.parent.names ++ [name] := by
  have hnames : path.names ≠ [] := names_eq_nil_iff.not.mpr h
  exact ⟨path.names.getLast hnames, List.getLast_mem hnames,
    (List.dropLast_append_getLast hnames).symm⟩

/-- The ancestors of a path other than the root are itself and those of its parent. -/
theorem le_iff (h : path ≠ ⊥) : ancestor ≤ path ↔ ancestor = path ∨ ancestor ≤ path.parent := by
  obtain ⟨name, -, hname⟩ := exists_names_eq h
  rw [le_def, hname, List.prefix_concat_iff, ← hname, ← TreePath.ext_iff]
  rfl

theorem parent_lt (h : path ≠ ⊥) : path.parent < path := by
  refine lt_of_le_of_ne ((le_iff h).mpr (.inr le_rfl)) fun heq ↦ ?_
  obtain ⟨name, -, hname⟩ := exists_names_eq h
  have hlength := congrArg List.length hname
  rw [heq, List.length_append, List.length_singleton] at hlength
  omega

theorem lt_iff (h : path ≠ ⊥) : ancestor < path ↔ ancestor ≤ path.parent := by
  refine ⟨fun hlt ↦ ((le_iff h).mp hlt.le).resolve_left hlt.ne, fun hle ↦ ?_⟩
  exact lt_of_le_of_lt hle (parent_lt h)

/-- What holds of the root and of every path if it holds of the parent holds of all paths. -/
theorem parent_induction {motive : TreePath → Prop} (root : motive ⊥)
    (child : ∀ path, path ≠ ⊥ → motive path.parent → motive path) (path : TreePath) :
    motive path := by
  induction hlength : path.names.length generalizing path with
  | zero =>
    rw [names_eq_nil_iff.mp (List.eq_nil_of_length_eq_zero hlength)]
    exact root
  | succ length ih =>
    have hpath : path ≠ ⊥ := by
      rintro rfl
      simp at hlength
    refine child path hpath (ih path.parent ?_)
    rw [parent, List.length_dropLast, hlength, Nat.add_sub_cancel]

/-- Paths are closed under ancestors if they are closed under parents. -/
theorem isLowerSet_of_parent {paths : List TreePath} (h : ∀ path ∈ paths, path.parent ∈ paths) :
    IsLowerSet {path | path ∈ paths} := by
  intro path ancestor hle hpath
  induction path using parent_induction with
  | root => rwa [le_bot_iff.mp hle]
  | child path hne ih =>
    rcases (le_iff hne).mp hle with rfl | hparent
    · exact hpath
    · exact ih hparent (h path hpath)

/-- The path as it is written. -/
def text (path : TreePath) : List Char := Document.Path.ofSegments path.names

/-- The id under which the node at the path is stored. -/
def id (path : TreePath) : DocumentId := .ofPath path.text

@[simp] theorem text_bot : (⊥ : TreePath).text = Document.Path.rootPath := rfl

theorem text_of_ne_bot (h : path ≠ ⊥) :
    path.text = path.names.flatMap fun name ↦ '/' :: name := by
  have hnames : path.names ≠ [] := names_eq_nil_iff.not.mpr h
  unfold text Document.Path.ofSegments
  split
  · next hnil => exact absurd hnil hnames
  · rfl

theorem head?_text (path : TreePath) : path.text.head? = some '/' := by
  by_cases h : path = ⊥
  · rw [h, text_bot]
    rfl
  · obtain ⟨name, others, hnames⟩ := List.exists_cons_of_ne_nil (names_eq_nil_iff.not.mpr h)
    rw [text_of_ne_bot h, hnames, List.flatMap_cons]
    rfl

/-- The names are read off the written path. -/
theorem filter_pieces_text (path : TreePath) :
    (Split.pieces '/' path.text).filter (fun piece ↦ !piece.isEmpty) = path.names := by
  by_cases h : path = ⊥
  · rw [h, text_bot]
    rfl
  · have hpieces := Split.pieces_append_flatMap List.not_mem_nil path.slash_notMem
    rw [List.nil_append] at hpieces
    rw [text_of_ne_bot h, hpieces, List.filter_cons_of_neg (by simp), List.filter_eq_self]
    intro name hname
    simpa using path.ne_nil name hname

theorem text_injective : Function.Injective text := by
  intro first second h
  refine TreePath.ext ?_
  rw [← filter_pieces_text first, h, filter_pieces_text]

theorem depth_text (path : TreePath) : Document.Path.depth path.text = path.names.length := by
  rw [Document.Path.depth, filter_pieces_text]

theorem text_eq_parent (h : path ≠ ⊥) : ∃ name ∈ path.names,
    path.text = (path.parent.names.flatMap fun name ↦ '/' :: name) ++ '/' :: name := by
  obtain ⟨name, hmem, hname⟩ := exists_names_eq h
  refine ⟨name, hmem, ?_⟩
  rw [text_of_ne_bot h, hname, List.flatMap_append, List.flatMap_singleton]

/-- Cutting a written path at its last slash gives the written parent. -/
theorem parent?_text (h : path ≠ ⊥) :
    Document.Path.parent? path.text = some path.parent.text := by
  have hroot : path.text ≠ Document.Path.rootPath := fun heq ↦ h (text_injective heq)
  obtain ⟨name, hmem, htext⟩ := text_eq_parent h
  have hslash : '/' ∉ name := path.slash_notMem name hmem
  have hcut : Split.beforeLast? '/' (Split.dropTrailing '/' path.text) =
      some (path.parent.names.flatMap fun name ↦ '/' :: name) := by
    obtain ⟨c, rest, hname⟩ := List.exists_cons_of_ne_nil (path.ne_nil name hmem)
    have hends : path.text =
        ((path.parent.names.flatMap fun name ↦ '/' :: name) ++ ['/']) ++ name := by
      rw [htext, List.append_assoc, List.singleton_append]
    rw [hends, Split.dropTrailing_append _ (path.ne_nil name hmem) hslash, ← hends, htext,
      Split.beforeLast?_append _ hslash]
  rw [Document.Path.parent?, if_neg hroot, hcut]
  by_cases hparent : path.parent = ⊥
  · rw [hparent]
    rfl
  · obtain ⟨first, others, hnames⟩ :=
      List.exists_cons_of_ne_nil (names_eq_nil_iff.not.mpr hparent)
    rw [text_of_ne_bot hparent, hnames, List.flatMap_cons, List.cons_append]

theorem toList_id (path : TreePath) :
    path.id.text.toList = (toString path.names.length).toList ++ ':' :: path.text := by
  rw [id, DocumentId.toList_ofPath, depth_text]

/-- The id of a path, cut at its first colon. -/
theorem atFirst?_id (path : TreePath) : Split.atFirst? ':' path.id.text.toList =
    some ((toString path.names.length).toList, path.text) := by
  rw [id, DocumentId.atFirst?_ofPath, depth_text]

/-- The id of a path tells the path. -/
theorem path?_id (path : TreePath) : path.id.path? = some path.text := by
  refine DocumentId.path?_ofPath (head?_text path) ?_
  rw [depth_text]
  exact path.length_lt

theorem id_injective : Function.Injective id := by
  intro first second h
  have htext : some first.text = some second.text := by rw [← path?_id, h, path?_id]
  exact text_injective (Option.some.inj htext)

/-- The id of a path is not that of a revisions document. -/
theorem isSplit_id (path : TreePath) : path.id.isSplit = false := by
  rw [DocumentId.isSplit, atFirst?_id]
  have hhead := head?_text path
  split
  · next heq =>
    rw [(Prod.mk.inj (Option.some.inj heq)).2] at hhead
    simp at hhead
  · rfl

/-- The id of a path tells the id of the parent. -/
theorem derivedParent?_id (h : path ≠ ⊥) : path.id.derivedParent? = some path.parent.id := by
  rw [DocumentId.derivedParent?, path?_id, Option.bind_some, parent?_text h]
  rfl

theorem id_bot : (⊥ : TreePath).id = .treeRoot := by decide

theorem id_eq_treeRoot_iff : path.id = .treeRoot ↔ path = ⊥ := by
  rw [← id_bot, id_injective.eq_iff]

end TreePath

end TreeAudit
