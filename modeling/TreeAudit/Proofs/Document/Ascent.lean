import TreeAudit.Proofs.Document.Lineage
import TreeAudit.Proofs.Text.ByteOrder
import Mathlib.Data.List.Chain

/-!
Going up from an id of any form. Ids come as they are stored, with doubled or trailing slashes in
the path, or with a number in front of it that is not its depth. A path starts with a slash all the
same, so there is one to cut it at unless it is the root, and what is left starts with a slash
again and is shorter (`Path.exists_parent?`). The id made from that has the right number in front
and tells what it was made from.

So the way up from any id ends (`exists_lineage`). It has fewer steps than the path has bytes, and
ends at the root if there is a path to cut (`ancestors_reach_root`).
-/

set_option autoImplicit false
set_option relaxedAutoImplicit false

namespace TreeAudit

open Text

namespace Document.Path

/-- What a path can be cut down to: a part from its start, and less than all of it. -/
structure Above (path above : List Char) : Prop where
  head? : above.head? = some '/'
  isPrefix : above <+: path
  ne : above ≠ path

namespace Above

variable {path above : List Char}

theorem length_lt (h : Above path above) : above.length < path.length :=
  lt_of_le_of_ne h.isPrefix.length_le fun heq ↦ h.ne (h.isPrefix.eq_of_length heq)

theorem trans {higher : List Char} (h : Above path above) (h' : Above above higher) :
    Above path higher where
  head? := h'.head?
  isPrefix := h'.isPrefix.trans h.isPrefix
  ne := fun heq ↦ by
    have hlt := h'.length_lt.trans h.length_lt
    rw [heq] at hlt
    exact lt_irrefl _ hlt

instance : Trans Above Above Above := ⟨trans⟩

end Above

/-- Cut again and again, a path is used up. -/
theorem length_lt_of_isChain {path : List Char} {paths : List (List Char)} (hpath : path ≠ [])
    (h : List.IsChain Above (path :: paths)) : paths.length < path.length := by
  induction paths generalizing path with
  | nil => exact List.length_pos_of_ne_nil hpath
  | cons above higher ih =>
    obtain ⟨habove, hhigher⟩ := List.isChain_cons_cons.mp h
    have hne : above ≠ [] := by
      rintro rfl
      exact Option.some_ne_none _ habove.head?.symm
    have hlength := ih hne hhigher
    have hlt := habove.length_lt
    rw [List.length_cons]
    omega

variable {path : List Char}

/-- Where a slash at the end of a path is dropped, the one in front stays. -/
theorem slash_mem_dropTrailing (hhead : path.head? = some '/') (hroot : path ≠ rootPath) :
    '/' ∈ Split.dropTrailing '/' path := by
  obtain ⟨rest, rfl⟩ := List.head?_eq_some_iff.mp hhead
  have hrest : rest ≠ [] := fun hnil ↦ hroot (by rw [hnil, rootPath])
  unfold Split.dropTrailing
  split_ifs
  · rw [List.dropLast_cons_of_ne_nil hrest]
    exact List.mem_cons_self
  · exact List.mem_cons_self

/-- Any path that starts with a slash can be cut, but for the root. -/
theorem exists_parent? (hhead : path.head? = some '/') (hroot : path ≠ rootPath) :
    ∃ above, parent? path = some above ∧ Above path above := by
  obtain ⟨before, after, hcut, htrimmed⟩ :=
    Split.exists_beforeLast? (slash_mem_dropTrailing hhead hroot)
  have hprefix : before ++ '/' :: after <+: path :=
    htrimmed ▸ Split.dropTrailing_prefix '/' path
  rw [parent?, if_neg hroot, hcut]
  -- Cut at its first slash, the path would have nothing left: the root stands for that.
  cases before with
  | nil =>
    have habove : rootPath <+: path := (List.prefix_append rootPath after).trans hprefix
    exact ⟨rootPath, rfl, rfl, habove, hroot.symm⟩
  | cons first inner =>
    have habove : first :: inner <+: path := (List.prefix_append _ _).trans hprefix
    refine ⟨first :: inner, rfl, ?_, habove, ?_⟩
    · obtain ⟨rest, rfl⟩ := List.head?_eq_some_iff.mp hhead
      rw [List.head?_cons, (List.cons_prefix_cons.mp habove).1]
    · rintro rfl
      have hlength := hprefix.length_le
      rw [List.length_append, List.length_cons (a := '/')] at hlength
      omega

theorem parent?_eq_none_iff (hhead : path.head? = some '/') :
    parent? path = none ↔ path = rootPath := by
  constructor
  · intro hnone
    by_contra hroot
    obtain ⟨above, hparent, -⟩ := exists_parent? hhead hroot
    rw [hnone] at hparent
    exact Option.some_ne_none _ hparent.symm
  · rintro rfl
    rfl

/-- No text before the first slash counts as a segment. -/
theorem depth_le_length (hhead : path.head? = some '/') : depth path ≤ path.length := by
  obtain ⟨rest, rfl⟩ := List.head?_eq_some_iff.mp hhead
  calc depth ('/' :: rest)
      = ((Split.pieces '/' rest).filter fun segment ↦ !segment.isEmpty).length := by
        rw [depth, Split.pieces, if_pos rfl, List.filter_cons_of_neg (by simp)]
    _ ≤ (Split.pieces '/' rest).length := List.length_filter_le _ _
    _ = rest.count '/' + 1 := Split.length_pieces rest
    _ ≤ rest.length + 1 := Nat.succ_le_succ List.count_le_length

end Document.Path

open Document.Path (Above rootPath)

namespace DocumentId

variable {id : DocumentId} {path : List Char}

/-- An id that tells a path is made of a number, a colon and the path. -/
theorem exists_number_of_path? (h : id.path? = some path) :
    path.head? = some '/' ∧ ∃ number, id.text.toList = number ++ ':' :: path := by
  rw [path?] at h
  split at h
  · next number told hcut =>
    split_ifs at h with hcond
    obtain rfl := Option.some.inj h
    rw [Bool.and_eq_true, decide_eq_true_eq] at hcond
    exact ⟨hcond.2, number, Split.eq_of_atFirst? hcut⟩
  · exact absurd h (Option.some_ne_none _).symm

/-- An id made from a path tells no other path. -/
theorem eq_of_path?_ofPath {told : List Char} (h : (ofPath path).path? = some told) :
    told = path := by
  rw [path?, atFirst?_ofPath] at h
  dsimp only at h
  split_ifs at h
  exact (Option.some.inj h).symm

/-- Only where there is nothing to cut is no parent told. -/
theorem derivedParent?_eq_none_iff :
    id.derivedParent? = none ↔ id.path? = none ∨ id.path? = some rootPath := by
  rw [derivedParent?, Option.map_eq_none_iff]
  cases hpath : id.path? with
  | none => exact iff_of_true rfl (.inl rfl)
  | some path =>
    rw [Option.bind_some, Document.Path.parent?_eq_none_iff (exists_number_of_path? hpath).1,
      Option.some.injEq]
    exact ⟨.inr, fun h ↦ h.resolve_left (Option.some_ne_none _)⟩

/-- The way up from an id with a path is made from shorter and shorter parts of the path. -/
theorem exists_lineage (h : id.path? = some path) :
    ∃ paths, id.Lineage (paths.map ofPath) ∧ List.IsChain Above (path :: paths) := by
  induction hlength : path.length using Nat.strong_induction_on generalizing id path with
  | _ length ih =>
    by_cases hroot : path = rootPath
    · exact ⟨[], .top (derivedParent?_eq_none_iff.mpr (.inr (hroot ▸ h))), .singleton _⟩
    · obtain ⟨above, hparent, habove⟩ :=
        Document.Path.exists_parent? (exists_number_of_path? h).1 hroot
      have hderived : id.derivedParent? = some (ofPath above) := by
        rw [derivedParent?, h, Option.bind_some, hparent, Option.map_some]
      -- The number in front of a part may be too long to be read; the way ends there.
      cases htold : (ofPath above).path? with
      | none =>
        have htop := derivedParent?_eq_none_iff.mpr (.inl htold)
        exact ⟨[above], .child hderived (.top htop), List.isChain_pair.mpr habove⟩
      | some told =>
        obtain rfl := eq_of_path?_ofPath htold
        obtain ⟨paths, hlineage, hchain⟩ := ih _ (hlength ▸ habove.length_lt) htold rfl
        exact ⟨told :: paths, .child hderived hlineage, List.isChain_cons_cons.mpr ⟨habove, hchain⟩⟩

/-- The last id on the way up tells no parent. -/
theorem Lineage.derivedParent?_last {ids : List DocumentId} (h : id.Lineage ids) :
    (ids.getLast?.getD id).derivedParent? = none := by
  induction h with
  | top hnone => exact hnone
  | child hparent above ih =>
    rw [List.getLast?_cons]
    exact ih

theorem length_lt_of_path? (h : id.path? = some path) : path.length < id.text.length := by
  obtain ⟨-, number, htext⟩ := exists_number_of_path? h
  rw [← String.length_toList, htext, List.length_append, List.length_cons]
  omega

/-- The way up from an id with a path, as it is computed. -/
theorem exists_ancestors_eq (h : id.path? = some path) :
    ∃ paths, id.ancestors = paths.map ofPath ∧ id.Lineage id.ancestors ∧
      List.IsChain Above (path :: paths) ∧ paths.length < path.length := by
  obtain ⟨paths, hlineage, hchain⟩ := exists_lineage h
  have hne : path ≠ [] := by
    rintro rfl
    exact Option.some_ne_none _ (exists_number_of_path? h).1.symm
  have hlength := Document.Path.length_lt_of_isChain hne hchain
  have hancestors : id.ancestors = paths.map ofPath := by
    refine hlineage.ancestorsWithin_eq ?_
    rw [List.length_map]
    exact (hlength.trans (length_lt_of_path? h)).le
  exact ⟨paths, hancestors, hancestors ▸ hlineage, hchain, hlength⟩

theorem lineage_ancestors (id : DocumentId) : id.Lineage id.ancestors := by
  cases hpath : id.path? with
  | none =>
    have htop := Lineage.top (derivedParent?_eq_none_iff.mpr (.inl hpath))
    have hancestors : id.ancestors = [] := htop.ancestorsWithin_eq (Nat.zero_le _)
    rw [hancestors]
    exact htop
  | some path =>
    obtain ⟨paths, -, hlineage, -⟩ := exists_ancestors_eq hpath
    exact hlineage

/-- The way up from any id ends. No parent is told if there is no path or if it is that of the
root. Otherwise each id on the way is made from a part of the path before it, there are fewer of
them than the path has bytes, and the last is that of the root; the depths in front of the ids can
be read as long as the number of bytes is a machine word, as it is for every text in memory. -/
theorem ancestors_reach_root (id : DocumentId) :
    id.Lineage id.ancestors ∧
      (id.derivedParent? = none ↔ id.path? = none ∨ id.path? = some rootPath) ∧
      ∀ path, id.path? = some path →
        ∃ paths, id.ancestors = paths.map ofPath ∧ List.IsChain Above (path :: paths) ∧
          id.ancestors.length < (Utf8.encode path).length ∧
          ((Utf8.encode path).length < Unsigned.wordBound →
            (∀ above ∈ paths, (ofPath above).path? = some above) ∧
              (path ≠ rootPath → id.ancestors.getLast? = some ⟨"0:/"⟩)) := by
  refine ⟨lineage_ancestors id, derivedParent?_eq_none_iff, fun path h ↦ ?_⟩
  obtain ⟨paths, hancestors, hlineage, hchain, hlength⟩ := exists_ancestors_eq h
  have hbytes := Utf8.length_le_length_encode path
  refine ⟨paths, hancestors, hchain, ?_, fun hword ↦ ?_⟩
  · rw [hancestors, List.length_map]
    omega
  have htold (above : List Char) (hmem : above ∈ paths) :
      (ofPath above).path? = some above := by
    have habove : Above path above := hchain.rel_cons hmem
    refine path?_ofPath habove.head? ?_
    have hdepth := Document.Path.depth_le_length habove.head?
    have hlt := habove.length_lt
    omega
  refine ⟨htold, fun hroot ↦ ?_⟩
  have hlast := hlineage.derivedParent?_last
  rw [hancestors, List.getLast?_map] at hlast ⊢
  cases hpaths : paths.getLast? with
  | none =>
    rw [hpaths, Option.map_none, Option.getD_none, derivedParent?_eq_none_iff, h,
      Option.some.injEq] at hlast
    exact absurd (hlast.resolve_left (Option.some_ne_none _)) hroot
  | some last =>
    rw [hpaths, Option.map_some, Option.getD_some, derivedParent?_eq_none_iff,
      htold last (List.mem_of_getLast? hpaths), Option.some.injEq] at hlast
    rw [Option.map_some, hlast.resolve_left (Option.some_ne_none _)]
    decide

/-- A way up past doubled slashes, from an id with a sign and zeros before its number. -/
def untidy : DocumentId := ⟨"+007:/a//b:é//"⟩

theorem ancestors_reach_root_untidy :
    untidy.path? = some "/a//b:é//".toList ∧
      (Utf8.encode "/a//b:é//".toList).length < Unsigned.wordBound ∧
      untidy.Lineage [⟨"2:/a//b:é"⟩, ⟨"1:/a/"⟩, ⟨"0:/"⟩] ∧
      untidy.ancestors.getLast? = some ⟨"0:/"⟩ := by
  have hpath : untidy.path? = some "/a//b:é//".toList := by decide
  have hbytes : (Utf8.encode "/a//b:é//".toList).length < Unsigned.wordBound := by
    rw [Utf8.encode_eq_flatMap]
    decide
  obtain ⟨hlineage, -, hup⟩ := ancestors_reach_root untidy
  obtain ⟨_, -, -, -, hreadable⟩ := hup _ hpath
  exact ⟨hpath, hbytes, hlineage, (hreadable hbytes).2 (by decide)⟩

end DocumentId

end TreeAudit
