import TreeAudit.Proofs.Text.ByteOrder
import TreeAudit.Proofs.Text.Splitting
import TreeAudit.Text.Lines

/-!
Lines of bytes and lines of text. A byte below 128 is a character of its own wherever it occurs, so
a line feed or a carriage return among the bytes of a text is one of the text (`notMem_encode`). The
lines of the bytes are therefore those of the text, each without a carriage return at its end
(`lines_encode_append`, `lines_encode_of_notMem`), and each is read as the text it is
(`decode?_encode`). Other bytes than those of a text are not read (`decode?_eq_none_iff`), but they
are cut into lines all the same: at every line feed (`lines_eq_physical`), with what follows one cut
on its own (`lines_append`).
-/

set_option autoImplicit false
set_option relaxedAutoImplicit false

namespace TreeAudit.Text

namespace Utf8

theorem encode_append (s t : List Char) : encode (s ++ t) = encode s ++ encode t := by
  rw [encode_eq_flatMap, encode_eq_flatMap, encode_eq_flatMap, List.flatMap_append]

theorem encode_singleton {c : Char} (h : c.toNat < 128) : encode [c] = [UInt8.ofNat c.toNat] := by
  have hval : c.val.toNat ≤ 127 := Nat.le_of_lt_succ h
  rw [encode_eq_flatMap, List.flatMap_singleton, String.utf8EncodeChar, if_pos hval]
  rfl

/-- A byte below 128 is all there is of its character. -/
theorem toNat_eq_of_mem_utf8EncodeChar {c : Char} {byte : UInt8}
    (h : byte ∈ String.utf8EncodeChar c) (hbyte : byte.toNat < 128) : c.toNat = byte.toNat := by
  have hval : c.toNat = c.val.toNat := rfl
  unfold String.utf8EncodeChar at h
  dsimp only at h
  rw [hval]
  split_ifs at h with hone
  · obtain rfl := List.mem_singleton.mp h
    rw [UInt8.toNat_ofNat', Nat.mod_eq_of_lt (by omega)]
  all_goals
    simp only [List.mem_cons, List.not_mem_nil, or_false, ← UInt8.toNat_inj,
      UInt8.toNat_ofNat'] at h
    omega

theorem notMem_encode {c : Char} (hc : c.toNat < 128) {text : List Char} (h : c ∉ text) :
    UInt8.ofNat c.toNat ∉ encode text := by
  intro hbyte
  rw [encode_eq_flatMap, List.mem_flatMap] at hbyte
  obtain ⟨own, hown, hmem⟩ := hbyte
  have hsame : (UInt8.ofNat c.toNat).toNat = c.toNat := by
    rw [UInt8.toNat_ofNat', Nat.mod_eq_of_lt (by omega)]
  have htoNat : own.toNat = c.toNat := by
    rw [toNat_eq_of_mem_utf8EncodeChar hmem (by omega), hsame]
  obtain rfl : own = c := Char.toNat_inj.mp htoNat
  exact h hown

end Utf8

namespace Lines

open Utf8 (encode)

theorem decode?_encode (text : List Char) : decode? (encode text) = some (String.ofList text) := by
  have hbytes : (⟨(encode text).toArray⟩ : ByteArray) = (String.ofList text).toByteArray := by
    rw [String.toByteArray_ofList, List.utf8Encode, Utf8.encode_eq_flatMap]
    refine ByteArray.ext (Array.toList_inj.mp ?_)
    rw [List.toList_data_toByteArray]
  have hvalid : (String.ofList text).toByteArray.IsValidUTF8 := String.isValidUTF8 _
  rw [decode?, hbytes, String.fromUTF8?, dif_pos hvalid]
  rfl

theorem decode?_eq_some_iff {bytes : List UInt8} {text : String} :
    decode? bytes = some text ↔ text.toUTF8.toList = bytes := by
  constructor
  · intro h
    rw [decode?, String.fromUTF8?] at h
    split_ifs at h with hvalid
    obtain rfl := Option.some.inj h
    exact Utf8.toList_eq _
  · rintro rfl
    have hencode := decode?_encode text.toList
    rwa [encode, String.ofList_toList] at hencode

/-- Texts with the same bytes are the same. -/
theorem toUTF8_toList_injective : Function.Injective fun text : String ↦ text.toUTF8.toList := by
  intro first second hsame
  have hfirst : decode? second.toUTF8.toList = some first := decode?_eq_some_iff.mpr hsame
  have hsecond : decode? second.toUTF8.toList = some second := decode?_eq_some_iff.mpr rfl
  exact Option.some.inj (hfirst.symm.trans hsecond)

theorem decode?_eq_none_iff {bytes : List UInt8} :
    decode? bytes = none ↔ ∀ text : String, text.toUTF8.toList ≠ bytes := by
  rw [Option.eq_none_iff_forall_not_mem]
  exact forall_congr' fun text ↦ not_congr decode?_eq_some_iff

/-! ### Cutting at line feeds -/

/-- A line without the carriage return at its end. -/
def dropReturn (line : List UInt8) : List UInt8 :=
  if line.getLast? = some carriageReturn then line.dropLast else line

/-- The lines of some bytes: what stands in front of each line feed, without a carriage return at
its end, and what stands behind the last, if anything does. -/
def physical (bytes : List UInt8) : List (List UInt8) :=
  (bytes.splitOn lineFeed).dropLast.map dropReturn ++
    ((bytes.splitOn lineFeed).getLast?.toList.filter fun last ↦ !last.isEmpty)

theorem linesFrom_append {line : List UInt8} (h : lineFeed ∉ line) (started rest : List UInt8) :
    linesFrom started (line ++ lineFeed :: rest) =
      closed (line.reverse ++ started) :: lines rest := by
  induction line generalizing started with
  | nil => exact if_pos rfl
  | cons byte line ih =>
    obtain ⟨hbyte, hline⟩ := not_or.mp (List.mem_cons.not.mp h)
    rw [List.cons_append, linesFrom, if_neg (Ne.symm hbyte), ih hline, List.reverse_cons,
      List.append_assoc, List.singleton_append]

theorem linesFrom_of_notMem {line : List UInt8} (h : lineFeed ∉ line) (started : List UInt8) :
    linesFrom started line =
      if (line.reverse ++ started).isEmpty then [] else [(line.reverse ++ started).reverse] := by
  induction line generalizing started with
  | nil => rfl
  | cons byte line ih =>
    obtain ⟨hbyte, hline⟩ := not_or.mp (List.mem_cons.not.mp h)
    rw [linesFrom, if_neg (Ne.symm hbyte), ih hline, List.reverse_cons, List.append_assoc,
      List.singleton_append]

/-- What follows a line feed is cut on its own. -/
theorem linesFrom_concat_append (started front rest : List UInt8) :
    linesFrom started (front ++ lineFeed :: rest) =
      linesFrom started (front ++ [lineFeed]) ++ lines rest := by
  induction front generalizing started with
  | nil => rfl
  | cons byte front ih =>
    rw [List.cons_append, List.cons_append, linesFrom, linesFrom]
    split_ifs
    · rw [ih, List.cons_append]
    · exact ih _

/-- Bytes behind a line feed, or behind nothing, are cut on their own. -/
theorem lines_append {front : List UInt8} (h : front = [] ∨ front.getLast? = some lineFeed)
    (rest : List UInt8) : lines (front ++ rest) = lines front ++ lines rest := by
  obtain rfl | ⟨first, last, rfl⟩ := List.eq_nil_or_concat' front
  · rfl
  · have hlast : last = lineFeed := by simpa using h
    rw [hlast, List.append_assoc, List.singleton_append]
    exact linesFrom_concat_append [] first rest

theorem closed_reverse_concat (bytes : List UInt8) (last : UInt8) :
    closed (bytes ++ [last]).reverse =
      if last = carriageReturn then bytes else bytes ++ [last] := by
  rw [List.reverse_append, List.reverse_singleton, List.singleton_append, closed,
    List.reverse_reverse, List.reverse_cons, List.reverse_reverse]

theorem closed_reverse (line : List UInt8) : closed line.reverse = dropReturn line := by
  obtain rfl | ⟨front, last, rfl⟩ := List.eq_nil_or_concat' line
  · rfl
  · rw [closed_reverse_concat, dropReturn, List.getLast?_concat, List.dropLast_concat]
    simp only [Option.some.injEq]

/-- The lines found in one pass over the bytes are those between the line feeds. -/
theorem lines_eq_physical (bytes : List UInt8) : lines bytes = physical bytes := by
  by_cases h : lineFeed ∈ bytes
  · obtain ⟨line, rest, rfl, hline⟩ := List.eq_append_cons_of_mem h
    have hcut : lines (line ++ lineFeed :: rest) = dropReturn line :: lines rest := by
      rw [lines, linesFrom_append hline, List.append_nil, closed_reverse]
    obtain ⟨piece, others, hpieces⟩ :=
      List.exists_cons_of_ne_nil (List.splitOn_ne_nil lineFeed rest)
    rw [hcut, lines_eq_physical rest, physical, physical,
      List.splitOn_append_cons_self_of_not_mem hline, hpieces, List.dropLast_cons_cons,
      List.getLast?_cons_cons, List.map_cons, List.cons_append]
  · rw [lines, linesFrom_of_notMem h, physical, List.splitOn_eq_singleton h]
    cases bytes <;> simp
termination_by bytes.length
decreasing_by
  subst_vars
  simp
  omega

/-- A terminated line is read as the text in front of the line feed, without a carriage return. -/
theorem closed_reverse_encode (text : List Char) :
    closed (encode text).reverse = encode (Split.dropTrailing '\r' text) := by
  obtain rfl | ⟨front, c, rfl⟩ := List.eq_nil_or_concat' text
  · rw [Utf8.encode_eq_flatMap, Utf8.encode_eq_flatMap]
    rfl
  rw [Split.dropTrailing, List.getLast?_concat, Utf8.encode_append]
  by_cases hc : c = '\r'
  · rw [hc, if_pos rfl, List.dropLast_concat, Utf8.encode_singleton (by decide),
      closed_reverse_concat]
    exact if_pos rfl
  · obtain ⟨bytes, last, hbytes⟩ : ∃ bytes last, encode [c] = bytes ++ [last] := by
      refine (List.eq_nil_or_concat' (encode [c])).resolve_left fun hnil ↦ ?_
      rw [Utf8.encode_eq_flatMap, List.flatMap_singleton] at hnil
      exact String.utf8EncodeChar_ne_nil hnil
    have hlast : last ≠ carriageReturn := by
      intro hreturn
      have hnone : '\r' ∉ [c] := by simpa using Ne.symm hc
      have hmem : last ∈ encode [c] := by rw [hbytes]; exact List.mem_concat_self
      rw [hreturn] at hmem
      exact Utf8.notMem_encode (by decide) hnone hmem
    rw [if_neg (by simpa using hc), Utf8.encode_append, hbytes, ← List.append_assoc,
      closed_reverse_concat, if_neg hlast]

theorem lineFeed_notMem_encode {text : List Char} (h : '\n' ∉ text) : lineFeed ∉ encode text :=
  Utf8.notMem_encode (by decide) h

/-- The first line of a text that has a line feed. -/
theorem lines_encode_append {line : List Char} (h : '\n' ∉ line) (rest : List Char) :
    lines (encode (line ++ '\n' :: rest)) =
      encode (Split.dropTrailing '\r' line) :: lines (encode rest) := by
  have hfeed : encode ('\n' :: rest) = lineFeed :: encode rest := by
    rw [← List.singleton_append, Utf8.encode_append, Utf8.encode_singleton (by decide)]
    rfl
  rw [Utf8.encode_append, hfeed, lines, linesFrom_append (lineFeed_notMem_encode h),
    List.append_nil, closed_reverse_encode]

/-- A text without a line feed is a line, if there is anything in it. -/
theorem lines_encode_of_notMem {text : List Char} (h : '\n' ∉ text) :
    lines (encode text) = if text = [] then [] else [encode text] := by
  rw [lines, linesFrom_of_notMem (lineFeed_notMem_encode h), List.append_nil, List.reverse_reverse,
    List.isEmpty_reverse, Utf8.encode_eq_flatMap]
  cases text with
  | nil => rfl
  | cons c rest => simp [String.utf8EncodeChar_ne_nil]

end Lines

end TreeAudit.Text
