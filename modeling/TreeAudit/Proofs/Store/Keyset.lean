import TreeAudit.Proofs.Reachability.Listing
import TreeAudit.Proofs.Store.Paging
import TreeAudit.Store.Table

/-!
Scans of a table whose ids are keys. A query sorts by the kind of an id and then by its bytes
(`Cell.rank`), so the rows after the last id of a page are just those that were not on this page or
one before it (`rowsAfter_last`), and the pages of a scan join to the table in order of the ids.
-/

set_option autoImplicit false
set_option relaxedAutoImplicit false

namespace TreeAudit.Store

open Paging Paging.Scan

namespace Cell

theorem bytesLe_iff {a b : List UInt8} :
    bytesLe a b = true ↔ a.map UInt8.toNat ≤ b.map UInt8.toNat := by
  rw [← not_lt]
  induction a generalizing b with
  | nil => exact iff_of_true (by simp [bytesLe]) (List.not_lt_nil _)
  | cons x a ih =>
    cases b with
    | nil => exact iff_of_false (by simp [bytesLe]) (not_not_intro (List.nil_lt_cons _ _))
    | cons y b =>
      simp only [bytesLe, List.map_cons, List.cons_lt_cons_iff, Bool.or_eq_true, Bool.and_eq_true,
        decide_eq_true_eq, ih, UInt8.lt_iff_toNat_lt, ← UInt8.toNat_inj]
      rcases lt_trichotomy x.toNat y.toNat with h | h | h
      · simp [h, h.not_gt, h.ne']
      · simp [h]
      · simp [h, h.not_gt, h.ne']

/-- Missing ids come first, texts next and binary values last. -/
def rank : Cell → ℕ ×ₗ String ×ₗ List ℕ
  | null => toLex (0, toLex ("", []))
  | text t => toLex (1, toLex (t, []))
  | blob bytes => toLex (2, toLex ("", bytes.map UInt8.toNat))

theorem rank_injective : Function.Injective rank := by
  intro a b h
  cases a <;> cases b <;> simp [rank] at h ⊢
  case text.text => exact h
  case blob.blob => exact List.map_injective_iff.mpr (fun _ _ ↦ UInt8.toNat_inj.mp) h

theorem le_iff_rank_le (a b : Cell) : a.le b = true ↔ a.rank ≤ b.rank := by
  cases a <;> cases b <;>
    simp only [le, rank, Prod.Lex.toLex_le_toLex, bytesLe_iff, decide_eq_true_eq,
      lt_self_iff_false, true_and, false_or, le_refl, and_true, ← le_iff_lt_or_eq] <;>
    simp

/-- A query for greater ids finds the ids of higher rank. -/
theorem isAfter_iff_rank_lt {key : String} {cell : Cell} :
    cell.isAfter key = true ↔ (text key).rank < cell.rank := by
  cases cell <;>
    simp only [isAfter, rank, Prod.Lex.toLex_lt_toLex, decide_eq_true_eq, lt_self_iff_false,
      true_and, false_or, and_false, or_false] <;>
    simp

end Cell

namespace Table

/-- No two rows have the same id, except that of several rows it may be missing. -/
def Keyed (rows : List Row) : Prop := rows.Pairwise fun a b ↦ a.id = b.id → a.id = .null

variable {rows : List Row} {key id : String}

theorem mem_rowsAfter {row : Row} :
    row ∈ rowsAfter key rows ↔ row ∈ rows ∧ (Cell.text key).rank < row.id.rank := by
  rw [rowsAfter, List.mem_filter, Cell.isAfter_iff_rank_lt]

theorem ne_null_of_mem_rowsAfter {row : Row} (h : row ∈ rowsAfter key rows) : row.id ≠ .null := by
  intro hnull
  have hafter := (List.mem_filter.mp h).2
  rw [hnull] at hafter
  exact Bool.noConfusion hafter

theorem inOrder_perm (rows : List Row) : (inOrder rows).Perm rows := List.mergeSort_perm _ _

theorem pairwise_inOrder (rows : List Row) :
    (inOrder rows).Pairwise fun a b ↦ a.id.rank ≤ b.id.rank :=
  Reachability.pairwise_mergeSort_of_key (fun a b ↦ Cell.le_iff_rank_le a.id b.id) rows

/-- Rows with different ids are sorted strictly. -/
theorem pairwise_inOrder_lt (hkeys : rows.Pairwise fun a b ↦ a.id ≠ b.id) :
    (inOrder rows).Pairwise fun a b ↦ a.id.rank < b.id.rank := by
  have hne : (inOrder rows).Pairwise fun a b ↦ a.id ≠ b.id :=
    (inOrder_perm rows).symm.pairwise hkeys Ne.symm
  exact ((pairwise_inOrder rows).and hne).imp fun ⟨hle, hdiffer⟩ ↦
    lt_of_le_of_ne hle fun heq ↦ hdiffer (Cell.rank_injective heq)

/-- Rows with different ids have one order only. -/
theorem inOrder_eq_of_perm {sorted : List Row} (hkeys : rows.Pairwise fun a b ↦ a.id ≠ b.id)
    (hperm : rows.Perm sorted) (hsorted : sorted.Pairwise fun a b ↦ a.id.le b.id = true) :
    inOrder rows = sorted := by
  have hstrict := pairwise_inOrder_lt (hperm.pairwise hkeys Ne.symm)
  rw [inOrder, List.mergeSort_of_pairwise hsorted] at hstrict
  exact ((inOrder_perm rows).trans hperm).eq_of_pairwise
    (fun _ _ _ _ hlt hgt ↦ absurd (hlt.trans hgt) (lt_irrefl _)) (pairwise_inOrder_lt hkeys) hstrict

theorem pairwise_rowsAfter (hkeyed : Keyed rows) :
    (rowsAfter key rows).Pairwise fun a b ↦ a.id ≠ b.id := by
  have hfound : (rowsAfter key rows).Pairwise fun a b ↦ a.id = b.id → a.id = .null :=
    hkeyed.filter _
  exact hfound.imp_of_mem fun hrow _ himp heq ↦ ne_null_of_mem_rowsAfter hrow (himp heq)

/-- After the last id of a page come the rows that come after the page. -/
theorem rowsAfter_last (hkeyed : Keyed rows) {page rest : List Row} {last : Row}
    (hrows : inOrder (rowsAfter key rows) = page ++ last :: rest) (hlast : last.id = .text id) :
    inOrder (rowsAfter id rows) = rest := by
  have hdiffer : (rowsAfter key rows).Pairwise fun a b ↦ a.id ≠ b.id := pairwise_rowsAfter hkeyed
  have hsorted := pairwise_inOrder_lt hdiffer
  have hperm := inOrder_perm (rowsAfter key rows)
  rw [hrows] at hsorted hperm
  obtain ⟨-, hrest, hpage⟩ := List.pairwise_append.mp hsorted
  obtain ⟨hbelow, hsortedRest⟩ := List.pairwise_cons.mp hrest
  -- the key of the page is below its last id, so rows after the last id are after the key
  have hkey : (Cell.text key).rank < (Cell.text id).rank := by
    rw [← hlast]
    exact (mem_rowsAfter.mp (hperm.subset (by simp))).2
  have htwice : rowsAfter id rows = rowsAfter id (rowsAfter key rows) := by
    rw [rowsAfter, rowsAfter, rowsAfter, List.filter_filter]
    refine List.filter_congr fun row _ ↦ ?_
    rw [Bool.eq_iff_iff, Bool.and_eq_true, Cell.isAfter_iff_rank_lt, Cell.isAfter_iff_rank_lt]
    exact ⟨fun h ↦ ⟨h, hkey.trans h⟩, And.left⟩
  have hfilter : rowsAfter id (page ++ last :: rest) = rest := by
    have hnot : ∀ row ∈ page ++ [last], ¬ row.id.isAfter id = true := by
      intro row hrow
      rw [Cell.isAfter_iff_rank_lt, ← hlast, not_lt]
      rcases List.mem_append.mp hrow with hrow | hrow
      · exact (hpage row hrow last List.mem_cons_self).le
      · rw [List.mem_singleton.mp hrow]
    have hall : ∀ row ∈ rest, row.id.isAfter id = true := by
      intro row hrow
      rw [Cell.isAfter_iff_rank_lt, ← hlast]
      exact hbelow row hrow
    rw [List.append_cons, rowsAfter, List.filter_append, List.filter_eq_nil_iff.mpr hnot,
      List.filter_eq_self.mpr hall, List.nil_append]
  have hsame : (inOrder (rowsAfter id rows)).Perm rest := by
    refine (inOrder_perm _).trans ?_
    rw [htwice]
    exact (hperm.symm.filter _).trans (.of_eq hfilter)
  exact hsame.eq_of_pairwise (fun _ _ _ _ hab hba ↦ absurd hab hba.not_gt)
    (pairwise_inOrder_lt (pairwise_rowsAfter hkeyed)) hsortedRest

end Table

end TreeAudit.Store
