import TreeAudit.Proofs.Document.TreePath
import Mathlib.Data.List.Range

/-!
Going from an id to the parent it tells, again and again, until it tells none (`Lineage`). There is
at most one such list of ids, and as soon as there are steps enough for it, it is the list that is
computed (`Lineage.ancestorsWithin_eq`).

From the id of a path each step takes one name off the path (`lineage_id`), so the list has the ids
of all the paths on the way to the root, the longest first. No slash, colon or digit inside a name
is mistaken for one of those around it, and the numbers in front of the ids count down
(`id_enumerates`).
-/

set_option autoImplicit false
set_option relaxedAutoImplicit false

namespace TreeAudit

open Text

namespace DocumentId

/-- The parents that are told one after the other, up to an id that tells none. -/
inductive Lineage : DocumentId → List DocumentId → Prop
  | top {id : DocumentId} (h : id.derivedParent? = none) : Lineage id []
  | child {id parent : DocumentId} {ids : List DocumentId}
      (h : id.derivedParent? = some parent) (above : Lineage parent ids) :
      Lineage id (parent :: ids)

theorem Lineage.ancestorsWithin_eq {id : DocumentId} {ids : List DocumentId}
    (h : id.Lineage ids) {steps : ℕ} (hsteps : ids.length ≤ steps) :
    id.ancestorsWithin steps = ids := by
  induction h generalizing steps with
  | top h =>
    cases steps with
    | zero => rfl
    | succ steps => simp only [ancestorsWithin, h]
  | child h above ih =>
    obtain ⟨steps, rfl⟩ : ∃ fewer, steps = fewer + 1 := ⟨steps - 1, by simp at hsteps; omega⟩
    simp only [ancestorsWithin, h]
    rw [ih (Nat.le_of_succ_le_succ hsteps)]

/-- The number in front of the first colon. -/
def depthNumber? (id : DocumentId) : Option ℕ :=
  (Split.atFirst? ':' id.text.toList).bind fun cut ↦ Unsigned.unsigned? cut.1

theorem derivedParent?_treeRoot : treeRoot.derivedParent? = none := by decide

end DocumentId

namespace TreePath

variable {path : TreePath}

/-- The first names of a path. -/
def take (path : TreePath) (count : ℕ) : TreePath where
  names := path.names.take count
  ne_nil := fun name hname ↦ path.ne_nil name (List.mem_of_mem_take hname)
  slash_notMem := fun name hname ↦ path.slash_notMem name (List.mem_of_mem_take hname)
  length_lt := lt_of_le_of_lt (List.length_take_le' count path.names) path.length_lt

theorem length_names_eq (h : path ≠ ⊥) :
    path.names.length = path.parent.names.length + 1 := by
  obtain ⟨name, -, hnames⟩ := exists_names_eq h
  rw [hnames, List.length_append, List.length_singleton]

/-- The shorter paths of a path other than the root are its parent and those of the parent. -/
theorem map_take_range (h : path ≠ ⊥) :
    (List.range path.names.length).reverse.map path.take =
      path.parent :: (List.range path.parent.names.length).reverse.map path.parent.take := by
  obtain ⟨name, -, hnames⟩ := exists_names_eq h
  have htake : ∀ count ≤ path.parent.names.length,
      path.take count = path.parent.take count := by
    intro count hcount
    refine TreePath.ext ?_
    show path.names.take count = path.parent.names.take count
    rw [hnames, List.take_append_of_le_length hcount]
  rw [length_names_eq h, List.range_succ, List.reverse_concat, List.map_cons]
  congr 1
  · rw [htake _ le_rfl]
    exact TreePath.ext (List.take_length)
  · refine List.map_congr_left fun count hcount ↦ htake count ?_
    exact (List.mem_range.mp (List.mem_reverse.mp hcount)).le

/-- The parents that the id of a path tells one after the other. -/
theorem lineage_id (path : TreePath) :
    path.id.Lineage (((List.range path.names.length).reverse.map path.take).map id) := by
  induction path using parent_induction with
  | root =>
    rw [id_bot]
    exact .top DocumentId.derivedParent?_treeRoot
  | child path hne ih =>
    rw [map_take_range hne, List.map_cons]
    exact .child (derivedParent?_id hne) ih

theorem length_names_le (path : TreePath) : path.names.length ≤ path.text.length + 1 := by
  calc path.names.length = Document.Path.depth path.text := (depth_text path).symm
    _ ≤ (Split.pieces '/' path.text).length := List.length_filter_le _ _
    _ = path.text.count '/' + 1 := Split.length_pieces path.text
    _ ≤ path.text.length + 1 := Nat.succ_le_succ List.count_le_length

theorem ancestors_id (path : TreePath) :
    path.id.ancestors = ((List.range path.names.length).reverse.map path.take).map id := by
  refine (lineage_id path).ancestorsWithin_eq ?_
  have htext : path.id.text.length =
      (toString path.names.length).length + (path.text.length + 1) := by
    rw [← String.length_toList, toList_id, List.length_append, String.length_toList]
    rfl
  have hnames := length_names_le path
  simp only [List.length_map, List.length_reverse, List.length_range, htext]
  omega

/-- The way up from any path ends at the root. -/
theorem getLast?_ancestors (path : TreePath) :
    (path.id :: path.id.ancestors).getLast? = some .treeRoot := by
  induction path using parent_induction with
  | root =>
    rw [ancestors_id, id_bot]
    rfl
  | child path hne ih =>
    rw [ancestors_id, map_take_range hne, List.map_cons, ← ancestors_id, List.getLast?_cons_cons]
    exact ih

theorem text_eq (path : TreePath) : path.text = '/' :: ['/'].intercalate path.names := by
  by_cases h : path = ⊥
  · subst h
    rfl
  · obtain ⟨name, others, hnames⟩ := List.exists_cons_of_ne_nil (names_eq_nil_iff.not.mpr h)
    rw [text_of_ne_bot h, hnames, Split.intercalate_cons, List.flatMap_cons, List.cons_append]

theorem depthNumber?_id (path : TreePath) : path.id.depthNumber? = some path.names.length := by
  rw [DocumentId.depthNumber?, atFirst?_id, Option.bind_some]
  exact Unsigned.unsigned?_toString path.length_lt

/-- The id of a path is the number of its names and the path, which it tells; it is not that of a
revisions document, and no other path has it. The parents told from it on are the ids of the paths
with fewer of its names, the longest first, down to the root, where they end; each has a number one
less than the id before it. -/
theorem id_enumerates (path : TreePath) :
    path.text = '/' :: ['/'].intercalate path.names ∧ path.id = .ofPath path.text ∧
      path.id.text = toString path.names.length ++ ":" ++ String.ofList path.text ∧
      path.id.path? = some path.text ∧ path.id.isSplit = false ∧
      (∀ other : TreePath, other.id = path.id → other = path) ∧
      path.id.Lineage
        ((List.range path.names.length).reverse.map fun count ↦ (path.take count).id) ∧
      path.id.ancestors =
        (List.range path.names.length).reverse.map (fun count ↦ (path.take count).id) ∧
      (path.id :: path.id.ancestors).getLast? = some ⟨"0:/"⟩ ∧
      (⟨"0:/"⟩ : DocumentId).derivedParent? = none ∧
      path.id.depthNumber? = some path.names.length ∧
      ∀ parent, path.id.derivedParent? = some parent →
        ∃ depth, path.id.depthNumber? = some (depth + 1) ∧ parent.depthNumber? = some depth := by
  have hlineage := lineage_id path
  have hancestors := ancestors_id path
  rw [List.map_map] at hlineage hancestors
  refine ⟨text_eq path, rfl, ?_, path?_id path, isSplit_id path, fun other h ↦ id_injective h,
    hlineage, hancestors, getLast?_ancestors path, DocumentId.derivedParent?_treeRoot,
    depthNumber?_id path, ?_⟩
  · rw [id, DocumentId.ofPath, depth_text]
  · intro parent hparent
    have h : path ≠ ⊥ := by
      rintro rfl
      rw [id_bot, DocumentId.derivedParent?_treeRoot] at hparent
      cases hparent
    rw [derivedParent?_id h] at hparent
    obtain rfl := Option.some.inj hparent
    refine ⟨path.parent.names.length, ?_, depthNumber?_id path.parent⟩
    rw [depthNumber?_id, length_names_eq h]

/-- A path whose names look like the parts of ids. -/
def lookalike : TreePath where
  names := [['1', ':'], ['p'], ['0', ':', 'h']]
  ne_nil := by decide
  slash_notMem := by decide
  length_lt := by decide

theorem id_enumerates_lookalike :
    lookalike.id = ⟨"3:/1:/p/0:h"⟩ ∧ lookalike.id.isSplit = false ∧
      lookalike.id.derivedParent? = some ⟨"2:/1:/p"⟩ ∧
      lookalike.id.ancestors = [⟨"2:/1:/p"⟩, ⟨"1:/1:"⟩, ⟨"0:/"⟩] ∧
      ∃ depth, lookalike.id.depthNumber? = some (depth + 1) ∧
        (⟨"2:/1:/p"⟩ : DocumentId).depthNumber? = some depth := by
  obtain ⟨-, -, -, -, hsplit, -, -, hancestors, -, -, -, hnumber⟩ := id_enumerates lookalike
  have hparent : lookalike.id.derivedParent? = some ⟨"2:/1:/p"⟩ :=
    (derivedParent?_id (by decide)).trans (by decide)
  exact ⟨by decide, hsplit, hparent, hancestors.trans (by decide), hnumber _ hparent⟩

end TreePath

end TreeAudit
