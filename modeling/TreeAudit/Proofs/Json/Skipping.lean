import TreeAudit.Proofs.Json.Values

/-!
Passing over a value. Nothing is asked of it but its grammar: its numerals may be of any size, its
escapes may tell of nothing and its lists and objects may nest to any depth. After a value the
reader goes on as the open brackets say, so the lemmas are about what is left in the end: if enough
steps lead to the end from behind a value, then three more for each of its characters lead there
from in front of it (`left?_value`). No bracket is open around the whole value, so it is passed over
(`left?_skip`).
-/

set_option autoImplicit false
set_option relaxedAutoImplicit false

namespace TreeAudit.Json.Skip

/-! ### One step between the parts -/

section Steps

variable (bracket : Bracket) (opened : List Bracket) (gap : Gap) (rest : List Char) (steps : ℕ)
  (place : Place)

theorem not_blank_closing : Cursor.isBlank bracket.closing = false ∧ bracket.closing ≠ ',' := by
  cases bracket <;> decide

theorem exists_afterPart_close :
    ∃ place', afterPart (steps + 1) (bracket :: opened)
      ⟨gap.text ++ bracket.closing :: rest, place⟩ = afterPart steps opened ⟨rest, place'⟩ := by
  obtain ⟨hblank, hcomma⟩ := not_blank_closing bracket
  obtain ⟨place', hblanks⟩ := Cursor.exists_skipBlanks gap hblank rest place
  refine ⟨place'.after bracket.closing, ?_⟩
  rw [afterPart, hblanks]
  exact (if_neg hcomma).trans (if_pos rfl)

theorem exists_afterPart_comma :
    ∃ place', afterPart (steps + 1) (bracket :: opened) ⟨gap.text ++ ',' :: rest, place⟩ =
      part bracket ⟨rest, place'⟩ >>= value steps (bracket :: opened) := by
  obtain ⟨place', hblanks⟩ := Cursor.exists_skipBlanks gap (c := ',') (by decide) rest place
  refine ⟨place'.after ',', ?_⟩
  rw [afterPart, hblanks]
  rfl

theorem exists_firstPart_close :
    ∃ place', firstPart (steps + 1) bracket opened
      ⟨gap.text ++ bracket.closing :: rest, place⟩ = afterPart steps opened ⟨rest, place'⟩ := by
  obtain ⟨hblank, -⟩ := not_blank_closing bracket
  obtain ⟨place', hblanks⟩ := Cursor.exists_skipBlanks gap hblank rest place
  refine ⟨place'.after bracket.closing, ?_⟩
  rw [firstPart, hblanks]
  exact if_pos rfl

theorem exists_firstPart_part {c : Char} (hblank : Cursor.isBlank c = false)
    (hclosing : c ≠ bracket.closing) :
    ∃ place', firstPart (steps + 1) bracket opened ⟨gap.text ++ c :: rest, place⟩ =
      part bracket ⟨c :: rest, place'⟩ >>= value steps (bracket :: opened) := by
  obtain ⟨place', hblanks⟩ := Cursor.exists_skipBlanks gap hblank rest place
  refine ⟨place', ?_⟩
  rw [firstPart, hblanks]
  exact if_neg hclosing

/-- The name of a member and its colon are passed over. -/
theorem left?_name (label : Label) :
    left? (name ⟨gap.text ++ '"' :: (label.name.text ++ '"' ::
      (label.beforeColon.text ++ ':' :: (label.afterColon.text ++ rest))), place⟩) =
        some (label.afterColon.text ++ rest) := by
  obtain ⟨place', hblanks⟩ := Cursor.exists_skipBlanks gap (c := '"') (by decide)
    (label.name.text ++ '"' ::
      (label.beforeColon.text ++ ':' :: (label.afterColon.text ++ rest))) place
  rw [name, hblanks]
  refine left?_bind (Chars.left?_skip_string label.name _ (place'.after '"')) fun place₁ ↦ ?_
  exact Value.left?_colon label.beforeColon _ place₁

end Steps

/-! ### Past a value -/

/-- However many steps are left after a value, as long as they are not fewer than `steps`, they lead
to the end. -/
def Ends (steps : ℕ) (opened : List Bracket) (rest remaining : List Char) : Prop :=
  ∀ steps' place, steps ≤ steps' → left? (afterPart steps' opened ⟨rest, place⟩) = some remaining

-- The recursion is over what is written. What follows a part is the rest of its list or object, so
-- the steps that suffice behind the part are those for the rest together with `enough`.
mutual

theorem left?_value (written : Written) (gap : Gap) {rest remaining : List Char}
    {opened : List Bracket} {enough : ℕ} (hrest : Delimited rest)
    (hends : Ends enough opened rest remaining) (steps : ℕ)
    (hsteps : 3 * written.text.length + enough ≤ steps) (place : Place) :
    left? (value steps opened ⟨gap.text ++ (written.text ++ rest), place⟩) = some remaining := by
  obtain ⟨c, text, htext, hc⟩ := written.exists_text
  obtain ⟨place', hblanks⟩ := Cursor.exists_skipBlanks gap hc.not_blank (text ++ rest) place
  obtain ⟨steps, rfl⟩ : ∃ n, steps = n + 1 := ⟨steps - 1, by simp [htext] at hsteps; omega⟩
  have hsteps' : enough ≤ steps := by
    rw [htext, List.length_cons] at hsteps
    omega
  have hend : ∀ place, left? (afterPart steps opened ⟨rest, place⟩) = some remaining :=
    fun place ↦ hends steps place hsteps'
  rw [htext, List.cons_append, value, hblanks]
  dsimp only
  cases written with
  | null =>
    obtain ⟨rfl, rfl⟩ := List.cons.inj htext
    exact left?_bind (Cursor.left?_word _ rest _) hend
  | bool b =>
    cases b <;> obtain ⟨rfl, rfl⟩ := List.cons.inj htext <;>
      exact left?_bind (Cursor.left?_word _ rest _) hend
  | number literal =>
    obtain ⟨hnull, htrue, hfalse, hstart⟩ := Value.starts_number htext
    have hskip := Numeral.left?_skip_literal literal hrest place'
    have hliteral : literal.text = c :: text := htext
    rw [hliteral, List.cons_append] at hskip
    rw [if_neg hnull, if_neg htrue, if_neg hfalse, if_pos hstart]
    exact left?_bind hskip hend
  | string spelling =>
    obtain ⟨rfl, rfl⟩ := List.cons.inj htext
    have hskip := Chars.left?_skip_string spelling rest (place'.after '"')
    simp only [Char.reduceEq, if_true, if_false, List.append_assoc, List.singleton_append,
      Cursor.next]
    exact left?_bind hskip hend
  | list items =>
    obtain ⟨rfl, rfl⟩ := List.cons.inj htext
    simp only [Written.text, List.length_cons] at hsteps
    exact left?_firstItem items hends steps (by omega) _
  | object members =>
    obtain ⟨rfl, rfl⟩ := List.cons.inj htext
    simp only [Written.text, List.length_cons] at hsteps
    exact left?_firstMember members hends steps (by omega) _

theorem left?_firstItem (items : WrittenItems) {rest remaining : List Char}
    {opened : List Bracket} {enough : ℕ} (hends : Ends enough opened rest remaining) (steps : ℕ)
    (hsteps : 3 * (items.text true).length + 1 + enough ≤ steps) (place : Place) :
    left? (firstPart steps .list opened ⟨items.text true ++ rest, place⟩) = some remaining := by
  have hlength := Value.items_length_pos items true
  obtain ⟨steps, rfl⟩ : ∃ n, steps = n + 1 := ⟨steps - 1, by omega⟩
  cases items with
  | nil gap =>
    obtain ⟨place', hclose⟩ := exists_firstPart_close .list opened gap rest steps place
    rw [WrittenItems.text, List.append_assoc]
    exact (congrArg left? hclose).trans (hends steps place' (by omega))
  | cons before written after others =>
    obtain ⟨c, text, htext, hc⟩ := written.exists_text
    obtain ⟨place', hpart⟩ := exists_firstPart_part .list opened before
      (text ++ (after.text ++ (others.text false ++ rest))) steps place hc.not_blank hc.not_bracket
    have hothers : Ends (3 * (others.text false).length + enough) (.list :: opened)
        (after.text ++ (others.text false ++ rest)) remaining :=
      fun steps place hsteps ↦ left?_afterItem others after hends steps hsteps place
    have hvalue := left?_value written [] (delimited_gap after (delimited_items others rest))
      hothers steps (by simp [WrittenItems.text] at hsteps; omega)
    rw [htext] at hvalue
    rw [WrittenItems.text, htext]
    simp only [comma_true, List.nil_append, List.append_assoc, List.cons_append]
    rw [hpart]
    exact left?_bind rfl hvalue

theorem left?_afterItem (items : WrittenItems) (gap : Gap) {rest remaining : List Char}
    {opened : List Bracket} {enough : ℕ} (hends : Ends enough opened rest remaining) (steps : ℕ)
    (hsteps : 3 * (items.text false).length + enough ≤ steps) (place : Place) :
    left? (afterPart steps (.list :: opened) ⟨gap.text ++ (items.text false ++ rest), place⟩) =
      some remaining := by
  have hlength := Value.items_length_pos items false
  obtain ⟨steps, rfl⟩ : ∃ n, steps = n + 1 := ⟨steps - 1, by omega⟩
  cases items with
  | nil gap' =>
    obtain ⟨place', hclose⟩ := exists_afterPart_close .list opened (gap ++ gap') rest steps place
    rw [WrittenItems.text, List.append_assoc, Gap.text_append]
    exact (congrArg left? hclose).trans (hends steps place' (by omega))
  | cons before written after others =>
    obtain ⟨place', hcomma⟩ := exists_afterPart_comma .list opened gap
      (before.text ++ (written.text ++ (after.text ++ (others.text false ++ rest)))) steps place
    have hothers : Ends (3 * (others.text false).length + enough) (.list :: opened)
        (after.text ++ (others.text false ++ rest)) remaining :=
      fun steps place hsteps ↦ left?_afterItem others after hends steps hsteps place
    have hvalue := left?_value written before (delimited_gap after (delimited_items others rest))
      hothers steps (by simp [WrittenItems.text] at hsteps; omega)
    rw [WrittenItems.text]
    simp only [comma_false, List.nil_append, List.append_assoc, List.cons_append]
    rw [hcomma]
    exact left?_bind rfl hvalue

theorem left?_firstMember (members : WrittenMembers) {rest remaining : List Char}
    {opened : List Bracket} {enough : ℕ} (hends : Ends enough opened rest remaining) (steps : ℕ)
    (hsteps : 3 * (members.text true).length + 1 + enough ≤ steps) (place : Place) :
    left? (firstPart steps .object opened ⟨members.text true ++ rest, place⟩) =
      some remaining := by
  have hlength := Value.members_length_pos members true
  obtain ⟨steps, rfl⟩ : ∃ n, steps = n + 1 := ⟨steps - 1, by omega⟩
  cases members with
  | nil gap =>
    obtain ⟨place', hclose⟩ := exists_firstPart_close .object opened gap rest steps place
    rw [WrittenMembers.text, List.append_assoc]
    exact (congrArg left? hclose).trans (hends steps place' (by omega))
  | cons label written after others =>
    obtain ⟨place', hpart⟩ := exists_firstPart_part .object opened label.before
      (label.name.text ++ '"' :: (label.beforeColon.text ++ ':' :: (label.afterColon.text ++
        (written.text ++ (after.text ++ (others.text false ++ rest)))))) steps place
      (c := '"') (by decide) (by decide)
    have hothers : Ends (3 * (others.text false).length + enough) (.object :: opened)
        (after.text ++ (others.text false ++ rest)) remaining :=
      fun steps place hsteps ↦ left?_afterMember others after hends steps hsteps place
    have hvalue := left?_value written label.afterColon
      (delimited_gap after (delimited_members others rest)) hothers steps
      (by simp [WrittenMembers.text] at hsteps; omega)
    rw [WrittenMembers.text]
    simp only [comma_true, List.nil_append, List.append_assoc]
    rw [Label.text_append, hpart]
    exact left?_bind (left?_name [] _ place' label) hvalue

theorem left?_afterMember (members : WrittenMembers) (gap : Gap) {rest remaining : List Char}
    {opened : List Bracket} {enough : ℕ} (hends : Ends enough opened rest remaining) (steps : ℕ)
    (hsteps : 3 * (members.text false).length + enough ≤ steps) (place : Place) :
    left? (afterPart steps (.object :: opened) ⟨gap.text ++ (members.text false ++ rest), place⟩) =
      some remaining := by
  have hlength := Value.members_length_pos members false
  obtain ⟨steps, rfl⟩ : ∃ n, steps = n + 1 := ⟨steps - 1, by omega⟩
  cases members with
  | nil gap' =>
    obtain ⟨place', hclose⟩ := exists_afterPart_close .object opened (gap ++ gap') rest steps place
    rw [WrittenMembers.text, List.append_assoc, Gap.text_append]
    exact (congrArg left? hclose).trans (hends steps place' (by omega))
  | cons label written after others =>
    obtain ⟨place', hcomma⟩ := exists_afterPart_comma .object opened gap
      (label.text ++ (written.text ++ (after.text ++ (others.text false ++ rest)))) steps place
    have hothers : Ends (3 * (others.text false).length + enough) (.object :: opened)
        (after.text ++ (others.text false ++ rest)) remaining :=
      fun steps place hsteps ↦ left?_afterMember others after hends steps hsteps place
    have hvalue := left?_value written label.afterColon
      (delimited_gap after (delimited_members others rest)) hothers steps
      (by simp [WrittenMembers.text] at hsteps; omega)
    rw [WrittenMembers.text]
    simp only [comma_false, List.nil_append, List.append_assoc, List.cons_append]
    rw [hcomma, Label.text_append]
    exact left?_bind (left?_name label.before _ place' label) hvalue

end

/-- A value is passed over, whatever it tells of and however deep it nests. -/
theorem left?_skip (written : Written) (gap : Gap) {rest : List Char} (hrest : Delimited rest)
    (place : Place) :
    left? (skip ⟨gap.text ++ (written.text ++ rest), place⟩) = some rest := by
  have hends : Ends 1 [] rest rest := fun steps place hsteps ↦ by
    obtain ⟨steps, rfl⟩ : ∃ n, steps = n + 1 := ⟨steps - 1, by omega⟩
    rfl
  refine left?_value written gap hrest hends _ ?_ place
  simp only [List.length_append]
  omega

end TreeAudit.Json.Skip
