import TreeAudit.Proofs.Text.ByteOrder
import TreeAudit.Reachability.Index
import Mathlib.Data.List.Sort
import Mathlib.Data.Prod.Lex

/-!
The order in which unresolved edges are listed: by the bytes of the id, and by the bytes
of the parent where ids agree (`Unresolved.Before`). A sort by an injective key has one
result only, so a listing does not show the order in which the edges were found
(`Unresolved.listing_eq_of_perm`).
-/

set_option autoImplicit false
set_option relaxedAutoImplicit false

namespace TreeAudit

/-- The text of an id in UTF-8. -/
def DocumentId.bytes (id : DocumentId) : List UInt8 := Text.Utf8.encode id.text.toList

theorem DocumentId.bytes_lt_iff {a b : DocumentId} : a.bytes < b.bytes ↔ a.text < b.text :=
  Text.Utf8.encode_lt_encode_iff

theorem DocumentId.bytes_le_iff {a b : DocumentId} : a.bytes ≤ b.bytes ↔ a.text ≤ b.text :=
  Text.Utf8.encode_le_encode_iff

theorem DocumentId.text_injective : Function.Injective DocumentId.text := by
  rintro ⟨a⟩ ⟨b⟩ h
  exact congrArg DocumentId.mk h

theorem DocumentId.eq_of_bytes_le {a b : DocumentId} (hab : a.bytes ≤ b.bytes)
    (hba : b.bytes ≤ a.bytes) : a = b :=
  text_injective (le_antisymm (bytes_le_iff.mp hab) (bytes_le_iff.mp hba))

namespace Reachability

section SortByKey

variable {α β : Type*} [LinearOrder β] {le : α → α → Bool} {key : α → β}
  (hle : ∀ a b, le a b = true ↔ key a ≤ key b)

include hle

theorem pairwise_mergeSort_of_key (items : List α) :
    (items.mergeSort le).Pairwise fun a b ↦ key a ≤ key b := by
  refine (List.pairwise_mergeSort ?_ ?_ items).imp fun {a b} h ↦ (hle a b).mp h
  · intro a b c hab hbc
    exact (hle a c).mpr (((hle a b).mp hab).trans ((hle b c).mp hbc))
  · intro a b
    rw [Bool.or_eq_true, hle, hle]
    exact le_total _ _

theorem mergeSort_eq_of_perm (hkey : Function.Injective key) {first second : List α}
    (h : first.Perm second) : first.mergeSort le = second.mergeSort le := by
  have hperm : (first.mergeSort le).Perm (second.mergeSort le) :=
    (List.mergeSort_perm first le).trans (h.trans (List.mergeSort_perm second le).symm)
  refine hperm.eq_of_pairwise (fun a b _ _ hab hba ↦ hkey (le_antisymm hab hba))
    (pairwise_mergeSort_of_key hle first) (pairwise_mergeSort_of_key hle second)

end SortByKey

namespace Unresolved

/-- The id and then the parent, as texts. -/
def key (edge : Unresolved) : String ×ₗ String := toLex (edge.id.text, edge.parent.text)

theorem key_injective : Function.Injective key := by
  rintro ⟨id, parent⟩ ⟨id', parent'⟩ h
  obtain ⟨hid, hparent⟩ := Prod.mk.inj (toLex.injective h)
  obtain rfl : id = id' := DocumentId.text_injective hid
  obtain rfl : parent = parent' := DocumentId.text_injective hparent
  rfl

/-- Earlier in a listing, or equal: by the bytes of the id and then of the parent. -/
def Before (a b : Unresolved) : Prop :=
  a.id.bytes < b.id.bytes ∨ a.id = b.id ∧ a.parent.bytes ≤ b.parent.bytes

theorem before_iff_key_le {a b : Unresolved} : a.Before b ↔ a.key ≤ b.key := by
  rw [Prod.Lex.le_iff, Before, DocumentId.bytes_lt_iff, DocumentId.bytes_le_iff,
    ← DocumentId.text_injective.eq_iff]
  rfl

theorem le_iff_key_le (a b : Unresolved) : Unresolved.le a b = true ↔ a.key ≤ b.key := by
  rw [Prod.Lex.le_iff, Unresolved.le]
  change _ ↔ a.id.text < b.id.text ∨ a.id.text = b.id.text ∧ a.parent.text ≤ b.parent.text
  split_ifs with h
  · simp [h]
  · simp only [decide_eq_true_eq, h, false_and, or_false]
    exact ⟨fun hle ↦ lt_of_le_of_ne hle h, le_of_lt⟩

theorem pairwise_listing (edges : List Unresolved) :
    (edges.mergeSort Unresolved.le).Pairwise Before :=
  (pairwise_mergeSort_of_key le_iff_key_le edges).imp before_iff_key_le.mpr

theorem Before.antisymm {a b : Unresolved} (hab : a.Before b) (hba : b.Before a) : a = b :=
  key_injective (le_antisymm (before_iff_key_le.mp hab) (before_iff_key_le.mp hba))

theorem listing_eq_of_perm {first second : List Unresolved} (h : first.Perm second) :
    first.mergeSort Unresolved.le = second.mergeSort Unresolved.le :=
  mergeSort_eq_of_perm le_iff_key_le key_injective h

end Unresolved

end Reachability

end TreeAudit
