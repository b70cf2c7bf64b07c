import TreeAudit.FileSystem
import Mathlib.Tactic.SplitIfs

/-!
What making a file and writing to it change. A file is made at the place that its path leads to,
where nothing was, or a file, which is emptied, or a device, which stays as it is (`create_eq`).
Every other place keeps what it has (`node?_put_of_ne`), and what is written replaces a file
as a whole (`write_eq`).
-/

set_option autoImplicit false
set_option relaxedAutoImplicit false

namespace TreeAudit

/-- What is done after something else succeeds only if that does. -/
theorem exists_of_bind_eq_ok {ε α β : Type} {first : Except ε α} {second : α → Except ε β}
    {result : β} (h : first >>= second = .ok result) :
    ∃ value, first = .ok value ∧ second value = .ok result := by
  cases first with
  | error error => cases h
  | ok value => exact ⟨value, rfl, h⟩

namespace FileSystem

open Text

variable {files next : FileSystem} {path : String} {place : Place}

theorem node?_put_self (files : FileSystem) (place : Place) (node : Node) :
    (files.put place node).node? place = some node := by
  rw [node?, put, List.find?_cons_of_pos (by simp)]

theorem node?_put_of_ne {other : Place} (hother : other ≠ place) (files : FileSystem)
    (node : Node) : (files.put place node).node? other = files.node? other := by
  have hfind : (files.nodes.filter fun entry ↦ entry.1 ≠ place).find?
        (fun entry ↦ entry.1 = other) =
      files.nodes.find? fun entry ↦ entry.1 = other := by
    rw [List.find?_filter]
    congr 1
    funext entry
    by_cases hentry : entry.1 = other
    · simp [hentry, hother]
    · simp [hentry]
  rw [node?, node?, put, List.find?_cons_of_neg (by simpa using Ne.symm hother), hfind]

/-- The path leads to the place, through directories. -/
def LeadsTo (files : FileSystem) (path : String) (place : Place) : Prop :=
  files.follow (files.start path) (PathName.steps path) = .ok place

theorem follow_append (files : FileSystem) (place : Place) (first second : List String) :
    files.follow place (first ++ second) =
      (files.follow place first).bind fun reached ↦ files.follow reached second := by
  induction first generalizing place with
  | nil => rfl
  | cons name rest ih =>
    rw [List.cons_append, follow, follow]
    cases files.obstacle? place with
    | some error => rfl
    | none =>
      dsimp only
      split_ifs
      · exact ih _
      · rfl
      · exact ih _

/-- A path that ends in a dot asks for a directory. -/
theorem asksDirectory_of_endsInDot (h : endsInDot path = true) : asksDirectory path = true := by
  unfold endsInDot at h
  unfold asksDirectory
  rcases List.eq_nil_or_concat (PathName.names path) with hnone | ⟨names, last, hnames⟩
  · simp [hnone] at h
  · rw [hnames] at h ⊢
    rw [List.concat_eq_append] at h ⊢
    by_cases hlast : last = ""
    · simp [hlast, PathName.isIdle]
    · simp only [List.filter_append, List.filter_cons, hlast, ne_eq, not_false_eq_true,
        decide_true, if_true, List.filter_nil, List.getLast?_concat, decide_eq_true_eq,
        Option.some.injEq] at h
      simp [h, PathName.isIdle]

/-- The last step to a place goes from the directory the others lead to. -/
theorem leadsTo_of_follow {directory : Place}
    (hdirectory : files.follow (files.start path) (PathName.steps path).dropLast = .ok directory)
    (hlast : files.follow directory
      ((PathName.steps path).drop ((PathName.steps path).length - 1)) = .ok place) :
    files.LeadsTo path place := by
  rw [List.dropLast_eq_take] at hdirectory
  rw [LeadsTo, ← List.take_append_drop ((PathName.steps path).length - 1) (PathName.steps path),
    follow_append, hdirectory]
  exact hlast

/-- A file is made where its path leads to: it is empty then, unless it is a device. -/
theorem create_eq (h : files.create path = .ok (next, place)) :
    files.LeadsTo path place ∧
      (((∃ hasRoom, files.node? place = some (.device hasRoom)) ∧ next = files) ∨
        ((files.node? place = none ∨ ∃ content, files.node? place = some (.file content)) ∧
          next = files.put place (.file (.bytes [])))) := by
  unfold create at h
  split at h
  · cases h
  obtain ⟨directory, hdirectory, h⟩ := exists_of_bind_eq_ok h
  split at h
  · cases h
  split_ifs at h with hasks
  obtain ⟨reached, hlast, h⟩ := exists_of_bind_eq_ok h
  rw [if_neg fun hdot ↦ hasks (asksDirectory_of_endsInDot hdot)] at hdirectory
  have hleads := leadsTo_of_follow hdirectory hlast
  cases hnode : files.node? reached with
  | some node =>
    cases node with
    | directory writable => simp [hnode] at h
    | device hasRoom =>
      simp only [hnode, Except.ok.injEq, Prod.mk.injEq] at h
      obtain ⟨rfl, rfl⟩ := h
      exact ⟨hleads, .inl ⟨⟨hasRoom, hnode⟩, rfl⟩⟩
    | file content =>
      simp only [hnode, Except.ok.injEq, Prod.mk.injEq] at h
      obtain ⟨rfl, rfl⟩ := h
      exact ⟨hleads, .inr ⟨.inr ⟨content, hnode⟩, rfl⟩⟩
  | none =>
    simp only [hnode] at h
    split at h
    · cases h
    · obtain ⟨rfl, rfl⟩ := Prod.mk.inj (Except.ok.inj h)
      exact ⟨hleads, .inr ⟨.inl hnode, rfl⟩⟩

/-- A file that is made and then written to holds what was written, unless it is a device, and
every other place has what it had. -/
theorem write_of_create (h : files.create path = .ok (next, place)) (bytes : List UInt8) :
    (∀ other ≠ place, (next.write place bytes).node? other = files.node? other) ∧
      (((∃ hasRoom, files.node? place = some (.device hasRoom)) ∧ next.write place bytes = files) ∨
        (next.write place bytes).node? place = some (.file (.bytes bytes))) := by
  obtain ⟨-, ⟨⟨hasRoom, hnode⟩, rfl⟩ | ⟨-, rfl⟩⟩ := create_eq h
  · have hwrite : next.write place bytes = next := by rw [write, hnode]
    exact ⟨fun _ _ ↦ by rw [hwrite], .inl ⟨⟨hasRoom, hnode⟩, hwrite⟩⟩
  · have hwrite : (files.put place (.file (.bytes []))).write place bytes =
        (files.put place (.file (.bytes []))).put place (.file (.bytes bytes)) := by
      rw [write, node?_put_self]
    rw [hwrite]
    refine ⟨fun other hother ↦ ?_, .inr (node?_put_self _ _ _)⟩
    rw [node?_put_of_ne hother, node?_put_of_ne hother]

end FileSystem

end TreeAudit
