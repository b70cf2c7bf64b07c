import TreeAudit.Proofs.Store.TableScan
import TreeAudit.Proofs.Text.ByteLines
import TreeAudit.Store.Contents
import TreeAudit.Store.Dump
import Mathlib.Data.List.Infix
import Mathlib.Data.List.Perm.Basic

/-!
Payloads that either kind of store can keep. A payload with its id in it is a line of a dump, or the
data of a row under this id (`Portable`), and gives the same document from both
(`decode_of_decode_none`). A dump may hold lines of white space beside its payloads, in any place;
they are passed over, and so its scan yields the documents in the order of the lines
(`Dump.exists_items_eq`). The scan of a table yields them in the order of their ids
(`Table.exists_items_eq`). Either way they are the documents of the payloads in some order.
-/

set_option autoImplicit false
set_option relaxedAutoImplicit false

namespace TreeAudit.Store

open Text (Blank.isBlank)
open Text.Utf8 (encode)

/-- A payload that holds its id and can be written in a line: at the end of a line a carriage return
would be lost. -/
structure Portable where
  text : String
  document : Document
  decode_eq : decode none text = .ok document
  id_ne_empty : document.id.text ≠ ""
  getLast?_ne : text.toList.getLast? ≠ some '\r'

/-! ### Payloads -/

/-- The id in a payload may as well be given from outside. -/
theorem decode_of_decode_none {text : String} {document : Document}
    (h : decode none text = .ok document) : decode (some document.id) text = .ok document := by
  unfold decode at h ⊢
  cases hread : Payload.ofText text.toList with
  | error error =>
    rw [hread] at h
    cases h
  | ok payload =>
    rw [hread] at h
    dsimp only at h ⊢
    split at h
    · next hkey => cases hkey
    · obtain rfl := Except.ok.inj h
      rfl
    · cases h

theorem skipBlanks_suffix (cursor : Json.Cursor) : cursor.skipBlanks.rest <:+ cursor.rest := by
  obtain ⟨rest, place⟩ := cursor
  unfold Json.Cursor.skipBlanks
  induction rest generalizing place with
  | nil => exact List.suffix_refl _
  | cons c rest ih =>
    unfold Json.Cursor.skipBlanks.go
    split_ifs
    · exact (ih _).trans (List.suffix_cons c rest)
    · exact List.suffix_refl _

/-- White space is no payload, as it does not hold an opening bracket. -/
theorem exists_ofText_eq_error {text : List Char} (h : Blank.isBlank text = true) :
    ∃ error, Payload.ofText text = .error error := by
  have hspace : ∀ c ∈ (Json.Cursor.ofText text).skipBlanks.rest, Text.Blank.isSpace c = true := by
    intro c hc
    exact List.all_eq_true.mp h c ((skipBlanks_suffix _).subset hc)
  unfold Payload.ofText
  generalize (Json.Cursor.ofText text).skipBlanks = cursor at hspace
  obtain ⟨rest, place⟩ := cursor
  dsimp only
  split
  · exact ⟨_, rfl⟩
  · exact absurd (hspace _ List.mem_cons_self) (by decide)
  · exact absurd (hspace _ List.mem_cons_self) (by decide)
  · exact ⟨_, rfl⟩

theorem Portable.isBlank_eq_false (payload : Portable) :
    Blank.isBlank payload.text.toList = false := by
  refine Bool.eq_false_iff.mpr fun hblank ↦ ?_
  obtain ⟨error, herror⟩ := exists_ofText_eq_error hblank
  have hdecode := payload.decode_eq
  rw [decode, herror] at hdecode
  cases hdecode

/-! ### Dumps -/

/-- The lines that hold more than white space. -/
def Dump.filled (lines : List (List Char)) : List (List Char) :=
  lines.filter fun line ↦ !Blank.isBlank line

/-- The text is a dump of the payloads in some order: cut at its line feeds it gives the payloads,
among lines of white space. -/
def IsDumpOf (payloads : List Portable) (text : String) : Prop :=
  ∃ order : List Portable, order.Perm payloads ∧
    Dump.filled (Text.Split.pieces '\n' text.toList) = order.map fun payload ↦ payload.text.toList

namespace Dump

theorem filled_cons_of_isBlank {line : List Char} (h : Blank.isBlank line = true)
    (rest : List (List Char)) : filled (line :: rest) = filled rest :=
  List.filter_cons_of_neg (by simp [h])

theorem filled_cons_of_not_isBlank {line : List Char} (h : Blank.isBlank line = false)
    (rest : List (List Char)) : filled (line :: rest) = line :: filled rest :=
  List.filter_cons_of_pos (by simp [h])

theorem isBlank_dropTrailing {line : List Char} (h : Blank.isBlank line = true) :
    Blank.isBlank (Text.Split.dropTrailing '\r' line) = true := by
  unfold Text.Split.dropTrailing
  split_ifs
  · exact List.all_eq_true.mpr fun c hc ↦
      List.all_eq_true.mp h c (List.mem_of_mem_dropLast hc)
  · exact h

/-- As far as they hold more than white space, the lines of a dump are the lines of its text. -/
theorem exists_lines_eq {parts : List (List Char)} (hparts : ∀ part ∈ parts, '\n' ∉ part)
    (hreturn : ∀ part ∈ parts, Blank.isBlank part = false → part.getLast? ≠ some '\r') :
    ∃ cut : List (List Char), filled cut = filled parts ∧
      Text.Lines.lines (encode (['\n'].intercalate parts)) = cut.map encode := by
  induction parts with
  | nil =>
    refine ⟨[], rfl, ?_⟩
    rw [List.intercalate_nil, Text.Lines.lines_encode_of_notMem List.not_mem_nil]
    rfl
  | cons part others ih =>
    obtain ⟨hpart, hothers⟩ := List.forall_mem_cons.mp hparts
    obtain ⟨hkept, hrest⟩ := List.forall_mem_cons.mp hreturn
    cases others with
    | nil =>
      rw [List.intercalate_singleton, Text.Lines.lines_encode_of_notMem hpart]
      by_cases hempty : part = []
      · exact ⟨[], by rw [hempty]; rfl, by rw [if_pos hempty]; rfl⟩
      · exact ⟨[part], rfl, by rw [if_neg hempty]; rfl⟩
    | cons other rest =>
      obtain ⟨cut, hfilled, hcut⟩ := ih hothers hrest
      refine ⟨Text.Split.dropTrailing '\r' part :: cut, ?_, ?_⟩
      · cases hblank : Blank.isBlank part with
        | true =>
          rw [filled_cons_of_isBlank (isBlank_dropTrailing hblank), hfilled,
            filled_cons_of_isBlank hblank]
        | false =>
          have hsame : Text.Split.dropTrailing '\r' part = part := if_neg (hkept hblank)
          rw [hsame, filled_cons_of_not_isBlank hblank, hfilled, filled_cons_of_not_isBlank hblank]
      · rw [List.intercalate_cons_cons, List.append_assoc, List.singleton_append,
          Text.Lines.lines_encode_append hpart, hcut, List.map_cons]

theorem item?_eq_none {line : List Char} (h : Blank.isBlank line = true) (number : ℕ) :
    item? number (encode line) = none := by
  rw [item?, Text.Lines.decode?_encode]
  dsimp only
  rw [String.toList_ofList, if_pos h]

theorem item?_portable (payload : Portable) (number : ℕ) :
    item? number (encode payload.text.toList) = some (.ok payload.document) := by
  rw [item?, Text.Lines.decode?_encode, String.ofList_toList]
  dsimp only
  rw [payload.isBlank_eq_false, payload.decode_eq]
  rfl

/-- The scan goes over lines of white space and takes each payload for its document. -/
theorem itemsFrom_eq {lines : List (List Char)} {order : List Portable}
    (h : filled lines = order.map fun payload ↦ payload.text.toList) (number : ℕ) :
    itemsFrom number (lines.map encode) = order.map fun payload ↦ .ok payload.document := by
  induction lines generalizing order number with
  | nil =>
    obtain rfl := List.map_eq_nil_iff.mp h.symm
    rfl
  | cons line rest ih =>
    cases hblank : Blank.isBlank line with
    | true =>
      rw [filled_cons_of_isBlank hblank] at h
      rw [List.map_cons, itemsFrom, item?_eq_none hblank]
      exact ih h (number + 1)
    | false =>
      rw [filled_cons_of_not_isBlank hblank] at h
      obtain ⟨payload, others, rfl, hline, hrest⟩ := List.map_eq_cons_iff.mp h.symm
      rw [List.map_cons, ← hline, itemsFrom, item?_portable, List.map_cons]
      exact congrArg _ (ih hrest.symm (number + 1))

/-- The scan of a dump yields the documents of its payloads in the order of the lines. -/
theorem exists_items_eq {payloads : List Portable} {text : String} (h : IsDumpOf payloads text) :
    ∃ order : List Document, order.Perm (payloads.map Portable.document) ∧
      items (encode text.toList) = order.map .ok := by
  obtain ⟨order, hperm, hlines⟩ := h
  have hreturn : ∀ line ∈ Text.Split.pieces '\n' text.toList,
      Blank.isBlank line = false → line.getLast? ≠ some '\r' := by
    intro line hline hblank
    have hkept : line ∈ filled (Text.Split.pieces '\n' text.toList) :=
      List.mem_filter.mpr ⟨hline, by simp [hblank]⟩
    rw [hlines, List.mem_map] at hkept
    obtain ⟨payload, -, rfl⟩ := hkept
    exact payload.getLast?_ne
  obtain ⟨cut, hfilled, hcut⟩ :=
    exists_lines_eq (fun _ hline ↦ Text.Split.notMem_of_mem_pieces hline) hreturn
  rw [Text.Split.intercalate_pieces] at hcut
  refine ⟨order.map Portable.document, hperm.map _, ?_⟩
  rw [items, hcut, itemsFrom_eq (hfilled.trans hlines), List.map_map]
  rfl

end Dump

/-! ### Tables -/

/-- The table holds the payloads, each under the id that is in it. -/
structure IsTableOf (payloads : List Portable) (table : Table) : Prop where
  columns : ∀ column ∈ Paging.queried, column.1 ∈ table.columns
  rows_perm : (table.rows.map fun row ↦ (row.id, row.data)).Perm
    (payloads.map fun payload ↦ (.text payload.document.id.text, .text payload.text))

namespace Table

variable {payloads : List Portable} {table : Table}

theorem hasTextKeys (h : IsTableOf payloads table)
    (hids : (payloads.map fun payload ↦ payload.document.id).Nodup) : HasTextKeys table.rows := by
  have hperm : (table.rows.map Row.id).Perm
      (payloads.map fun payload ↦ Cell.text payload.document.id.text) := by
    have hfirst := h.rows_perm.map Prod.fst
    rw [List.map_map, List.map_map] at hfirst
    exact hfirst
  refine ⟨hperm.nodup_iff.mpr ?_, fun row hrow ↦ ?_⟩
  · have hinjective : Function.Injective fun id : DocumentId ↦ Cell.text id.text := by
      intro id id' hsame
      exact DocumentId.text_injective (Cell.text.inj hsame)
    have hnodup := hids.map hinjective
    rw [List.map_map] at hnodup
    exact hnodup
  · obtain ⟨payload, -, hid⟩ := List.mem_map.mp (hperm.subset (List.mem_map_of_mem hrow))
    exact ⟨_, hid.symm, payload.id_ne_empty⟩

/-- The scan of a table yields the documents of its payloads, in pages of any size. -/
theorem exists_items_eq (h : IsTableOf payloads table)
    (hids : (payloads.map fun payload ↦ payload.document.id).Nodup) (batch : ℕ) :
    ∃ order : List Document, order.Perm (payloads.map Portable.document) ∧
      table.items batch = order.map .ok := by
  have hkeys := hasTextKeys h hids
  -- sorted by their ids the rows hold the payloads in some order, one each
  have hcells : ((inOrder table.rows).map fun row ↦ (row.id, row.data)).Perm
      (payloads.map fun payload ↦ (.text payload.document.id.text, .text payload.text)) :=
    ((inOrder_perm table.rows).map _).trans h.rows_perm
  have hsame : List.Forall₂ (fun cells payload ↦ cells =
      (Cell.text payload.document.id.text, Cell.text payload.text))
        (payloads.map fun payload ↦ (.text payload.document.id.text, .text payload.text))
        payloads :=
    List.forall₂_map_left_iff.mpr (List.forall₂_same.mpr fun _ _ ↦ rfl)
  obtain ⟨order, hrows, hperm⟩ := List.perm_comp_forall₂ hcells hsame
  have hfound : List.Forall₂ Reads (inOrder (rowsAfter "" table.rows))
      (order.map fun payload ↦ (payload.document.id.text, payload.document)) := by
    rw [hkeys.rowsAfter_start, List.forall₂_map_right_iff]
    refine (List.forall₂_map_left_iff.mp hrows).imp fun row payload hcells ↦ ?_
    obtain ⟨hid, hdata⟩ := Prod.mk.inj hcells
    exact reads_iff.mpr ⟨hid, _, hdata, decode_of_decode_none payload.decode_eq⟩
  refine ⟨order.map Portable.document, hperm.map _, ?_⟩
  rw [(scan_all batch h.columns hkeys.keyed hfound).2, Paging.yielded, List.map_map, List.map_map]
  rfl

end Table

end TreeAudit.Store
