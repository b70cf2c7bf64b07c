import TreeAudit.Proofs.Json.Numerals

/-!
Reading a value. In front of each part of a list or object stands a gap, and after it something that
ends a numeral (`delimited_items`, `delimited_members`), so the parts are read one after the other:
up to an item (`exists_nextItem_part`), a name and its colon (`exists_label`, `left?_colon`) or the
closing bracket. By induction on what is written, a value is read exactly if it tells of one and
does not nest too deep (`unplaced_read`). Each character takes two steps at most, so the steps never
run out.
-/

set_option autoImplicit false
set_option relaxedAutoImplicit false

namespace TreeAudit.Json

/-! ### What stands between the parts -/

theorem Gap.text_append (gap gap' : Gap) (rest : List Char) :
    gap.text ++ (gap'.text ++ rest) = Gap.text (gap ++ gap') ++ rest := by
  simp [Gap.text]

theorem Label.text_append (label : Label) (rest : List Char) :
    label.text ++ rest = label.before.text ++ '"' :: (label.name.text ++ '"' ::
      (label.beforeColon.text ++ ':' :: (label.afterColon.text ++ rest))) := by
  simp [Label.text, Spelling.quoted]

theorem Label.length_text_pos (label : Label) : 0 < label.text.length := by
  simp only [Label.text, List.length_append, List.length_cons]
  omega

theorem delimited_cons {c : Char} (h : c ∈ delimiters) (rest : List Char) :
    Delimited (c :: rest) := by
  intro c' hc'
  obtain rfl := Option.some.inj hc'
  exact h

theorem delimited_gap (gap : Gap) {rest : List Char} (h : Delimited rest) :
    Delimited (gap.text ++ rest) := by
  cases gap with
  | nil => exact h
  | cons blank gap => exact delimited_cons (by cases blank <;> decide) _

theorem delimited_items (items : WrittenItems) (rest : List Char) :
    Delimited (items.text false ++ rest) := by
  cases items with
  | nil gap =>
    rw [WrittenItems.text, List.append_assoc]
    exact delimited_gap gap (delimited_cons (by decide) _)
  | cons before value after others =>
    rw [WrittenItems.text, List.append_assoc]
    exact delimited_cons (by decide) _

theorem delimited_members (members : WrittenMembers) (rest : List Char) :
    Delimited (members.text false ++ rest) := by
  cases members with
  | nil gap =>
    rw [WrittenMembers.text, List.append_assoc]
    exact delimited_gap gap (delimited_cons (by decide) _)
  | cons label value after others =>
    rw [WrittenMembers.text, List.append_assoc]
    exact delimited_cons (by decide) _

/-- What a value can start with. -/
structure Starts (c : Char) : Prop where
  not_blank : Cursor.isBlank c = false
  not_bracket : c ≠ ']'

theorem exists_number_text (literal : Literal) :
    ∃ c text, literal.text = c :: text ∧ (c = '-' ∨ ∃ digit, c = Digits.char digit) := by
  obtain ⟨isNegative, whole, fraction, exponent, hzero⟩ := literal
  cases isNegative with
  | true => exact ⟨_, _, rfl, .inl rfl⟩
  | false => exact ⟨_, _, rfl, .inr ⟨whole.first, rfl⟩⟩

theorem starts_char (digit : Fin 10) : Starts (Digits.char digit) := by
  have hdigits : ∀ digit, Cursor.isBlank (Digits.char digit) = false ∧
      Digits.char digit ≠ ']' := by decide
  obtain ⟨hblank, hbracket⟩ := hdigits digit
  exact ⟨hblank, hbracket⟩

theorem Written.exists_text (value : Written) : ∃ c text, value.text = c :: text ∧ Starts c := by
  cases value with
  | null => exact ⟨_, _, rfl, by decide, by decide⟩
  | bool b => cases b <;> exact ⟨_, _, rfl, by decide, by decide⟩
  | number literal =>
    obtain ⟨c, text, htext, rfl | ⟨digit, rfl⟩⟩ := exists_number_text literal
    · exact ⟨_, _, htext, by decide, by decide⟩
    · exact ⟨_, _, htext, starts_char digit⟩
  | string spelling => exact ⟨_, _, rfl, by decide, by decide⟩
  | list items => exact ⟨_, _, rfl, by decide, by decide⟩
  | object members => exact ⟨_, _, rfl, by decide, by decide⟩

namespace Value

section Parts

variable (gap : Gap) (rest : List Char) (place : Place)

theorem exists_nextItem_close (first : Bool) :
    ∃ place', nextItem first ⟨gap.text ++ ']' :: rest, place⟩ = .close ⟨']' :: rest, place'⟩ := by
  obtain ⟨place', hblanks⟩ := Cursor.exists_skipBlanks gap (c := ']') (by decide) rest place
  refine ⟨place', ?_⟩
  rw [nextItem, hblanks]
  rfl

theorem exists_nextItem_part (first : Bool) (before : Gap) {c : Char} (hc : Starts c) :
    ∃ place', nextItem first ⟨gap.text ++ (comma first ++ (before.text ++ c :: rest)), place⟩ =
      .part ⟨c :: rest, place'⟩ := by
  cases first with
  | true =>
    obtain ⟨place', hblanks⟩ :=
      Cursor.exists_skipBlanks (gap ++ before) hc.not_blank rest place
    refine ⟨place', ?_⟩
    rw [nextItem, comma_true, List.nil_append, Gap.text_append, hblanks]
    simp [hc.not_bracket]
  | false =>
    obtain ⟨place₁, hcomma⟩ :=
      Cursor.exists_skipBlanks gap (c := ',') (by decide) (before.text ++ c :: rest) place
    obtain ⟨place₂, hblanks⟩ :=
      Cursor.exists_skipBlanks before hc.not_blank rest (place₁.after ',')
    refine ⟨place₂, ?_⟩
    rw [nextItem, comma_false, List.singleton_append, hcomma]
    simp [Cursor.next, hblanks, hc.not_bracket]

theorem exists_nextName_close (first : Bool) :
    ∃ place', nextName first ⟨gap.text ++ '\x7d' :: rest, place⟩ =
      .close ⟨'\x7d' :: rest, place'⟩ := by
  obtain ⟨place', hblanks⟩ := Cursor.exists_skipBlanks gap (c := '\x7d') (by decide) rest place
  refine ⟨place', ?_⟩
  rw [nextName, hblanks]
  rfl

/-- Up to the opening quotation mark of the next name and past it. -/
theorem exists_nextName_part (first : Bool) (before : Gap) :
    ∃ place', nextName first ⟨gap.text ++ (comma first ++ (before.text ++ '"' :: rest)), place⟩ =
      .part ⟨rest, place'⟩ := by
  cases first with
  | true =>
    obtain ⟨place', hblanks⟩ :=
      Cursor.exists_skipBlanks (gap ++ before) (c := '"') (by decide) rest place
    refine ⟨place'.after '"', ?_⟩
    rw [nextName, comma_true, List.nil_append, Gap.text_append, hblanks]
    rfl
  | false =>
    obtain ⟨place₁, hcomma⟩ :=
      Cursor.exists_skipBlanks gap (c := ',') (by decide) (before.text ++ '"' :: rest) place
    obtain ⟨place₂, hblanks⟩ :=
      Cursor.exists_skipBlanks before (c := '"') (by decide) rest (place₁.after ',')
    refine ⟨place₂.after '"', ?_⟩
    rw [nextName, comma_false, List.singleton_append, hcomma]
    simp [Cursor.next, hblanks]

/-- What is left of a label after its opening quotation mark. -/
theorem exists_label (label : Label) (first : Bool) :
    ∃ place', nextName first ⟨gap.text ++ (comma first ++ (label.text ++ rest)), place⟩ =
      .part ⟨label.name.text ++ '"' ::
        (label.beforeColon.text ++ ':' :: (label.afterColon.text ++ rest)), place'⟩ := by
  obtain ⟨place', hpart⟩ := exists_nextName_part gap (label.name.text ++ '"' ::
    (label.beforeColon.text ++ ':' :: (label.afterColon.text ++ rest))) place first label.before
  exact ⟨place', by rw [Label.text_append, hpart]⟩

theorem left?_colon : left? (colon ⟨gap.text ++ ':' :: rest, place⟩) = some rest := by
  obtain ⟨place', hblanks⟩ := Cursor.exists_skipBlanks gap (c := ':') (by decide) rest place
  rw [colon, hblanks]
  rfl

end Parts

/-! ### Limits to the nesting -/

/-- What is asked for, unless it nests too deep. -/
def within {α : Type} (depth nesting : ℕ) (a? : Option α) : Option α :=
  if nesting < depth then a? else none

section Within

variable {α β γ : Type} {depth : ℕ}

theorem within_of_lt {nesting : ℕ} (h : nesting < depth) (a? : Option α) :
    within depth nesting a? = a? :=
  if_pos h

theorem within_of_le {nesting : ℕ} (h : depth ≤ nesting) (a? : Option α) :
    within depth nesting a? = none :=
  if_neg (Nat.not_lt.mpr h)

theorem within_succ (nesting : ℕ) (h : ¬ depth ≤ 1) (a? : Option α) (f : α → β) :
    within depth (nesting + 1) (a?.map f) = (within (depth - 1) nesting a?).map f := by
  by_cases hlt : nesting + 1 < depth
  · rw [within_of_lt hlt, within_of_lt (by omega)]
  · rw [within_of_le (by omega), within_of_le (by omega), Option.map_none]

theorem within_max (m n : ℕ) (a? : Option α) (b? : Option β) (f : α → β → γ) :
    within depth (max m n) (a?.bind fun a ↦ b?.map (f a)) =
      (within depth m a?).bind fun a ↦ (within depth n b?).map (f a) := by
  by_cases hm : m < depth
  · rw [within_of_lt hm a?]
    by_cases hn : n < depth
    · rw [within_of_lt hn b?, within_of_lt (Nat.max_lt.mpr ⟨hm, hn⟩)]
    · rw [within_of_le (by omega) b?, within_of_le (by omega)]
      cases a? <;> rfl
  · rw [within_of_le (by omega) a?, within_of_le (by omega), Option.bind_none]

theorem within_bind (n : ℕ) (a? : Option α) (f : α → Option β) :
    within depth n (a?.bind f) = a?.bind fun a ↦ within depth n (f a) := by
  cases a? with
  | none => simp [within]
  | some a => rfl

end Within

/-! ### Values -/

theorem starts_number {literal : Literal} {c : Char} {text : List Char}
    (h : literal.text = c :: text) :
    c ≠ 'n' ∧ c ≠ 't' ∧ c ≠ 'f' ∧ (c = '-' ∨ Numeral.isDigit c = true) := by
  obtain ⟨c', text', htext, hc⟩ := exists_number_text literal
  obtain ⟨rfl, -⟩ := List.cons.inj (h.symm.trans htext)
  obtain rfl | ⟨digit, rfl⟩ := hc
  · exact ⟨by decide, by decide, by decide, .inl rfl⟩
  · have hdigits : ∀ digit, Digits.char digit ≠ 'n' ∧ Digits.char digit ≠ 't' ∧
        Digits.char digit ≠ 'f' := by decide
    obtain ⟨hnull, htrue, hfalse⟩ := hdigits digit
    exact ⟨hnull, htrue, hfalse, .inr (Numeral.isDigit_char digit)⟩

theorem items_length_pos (items : WrittenItems) (first : Bool) :
    0 < (items.text first).length := by
  cases items with
  | nil gap => simp [WrittenItems.text]
  | cons before value after others =>
    obtain ⟨c, text, htext, -⟩ := value.exists_text
    simp only [WrittenItems.text, htext, List.length_append, List.length_cons]
    omega

theorem members_length_pos (members : WrittenMembers) (first : Bool) :
    0 < (members.text first).length := by
  cases members with
  | nil gap => simp [WrittenMembers.text]
  | cons label value after others =>
    obtain ⟨c, text, htext, -⟩ := value.exists_text
    simp only [WrittenMembers.text, htext, List.length_append, List.length_cons]
    omega

-- The recursion is over what is written. Of the two steps that a character is worth, one is spent
-- on the value that starts with it and one on the part of a list or object that this value is in.
mutual

/-- A value is read if it tells of one and does not nest too deep. -/
theorem unplaced_readWithin (value : Written) (gap : Gap) {rest : List Char}
    (hrest : Delimited rest) (steps depth : ℕ) (hsteps : 2 * value.text.length ≤ steps)
    (hdepth : 0 < depth) (place : Place) :
    unplaced (readWithin steps depth ⟨gap.text ++ (value.text ++ rest), place⟩) =
      (within depth value.nesting value.value?).map (·, rest) := by
  obtain ⟨c, text, htext, hc⟩ := value.exists_text
  obtain ⟨place', hblanks⟩ := Cursor.exists_skipBlanks gap hc.not_blank (text ++ rest) place
  obtain ⟨steps, rfl⟩ : ∃ n, steps = n + 1 := ⟨steps - 1, by simp [htext] at hsteps; omega⟩
  rw [htext, List.cons_append, readWithin, hblanks]
  dsimp only
  cases value with
  | null =>
    obtain ⟨rfl, rfl⟩ := List.cons.inj htext
    rw [if_pos rfl, Written.nesting, within_of_lt hdepth, Written.value?, Option.map_some]
    exact unplaced_bind_left (Cursor.left?_word _ rest _) fun _ ↦ rfl
  | bool b =>
    cases b with
    | true =>
      obtain ⟨rfl, rfl⟩ := List.cons.inj htext
      simp only [Char.reduceEq, if_true, if_false]
      rw [Written.nesting, within_of_lt hdepth, Written.value?, Option.map_some]
      exact unplaced_bind_left (Cursor.left?_word _ rest _) fun _ ↦ rfl
    | false =>
      obtain ⟨rfl, rfl⟩ := List.cons.inj htext
      simp only [Char.reduceEq, if_true, if_false]
      rw [Written.nesting, within_of_lt hdepth, Written.value?, Option.map_some]
      exact unplaced_bind_left (Cursor.left?_word _ rest _) fun _ ↦ rfl
  | number literal =>
    obtain ⟨hnull, htrue, hfalse, hstart⟩ := starts_number htext
    have hread := Numeral.unplaced_read_literal literal hrest place'
    have hliteral : literal.text = c :: text := htext
    rw [hliteral, List.cons_append] at hread
    rw [if_neg hnull, if_neg htrue, if_neg hfalse, if_pos hstart, Written.nesting,
      within_of_lt hdepth, Written.value?]
    exact unplaced_bind_map hread number fun _ _ ↦ rfl
  | string spelling =>
    obtain ⟨rfl, rfl⟩ := List.cons.inj htext
    have hread := Chars.unplaced_read_string spelling rest (place'.after '"')
    simp only [Char.reduceEq, if_true, if_false, List.append_assoc, List.singleton_append,
      Cursor.next]
    rw [Written.nesting, within_of_lt hdepth, Written.value?]
    exact unplaced_bind_map hread string fun _ _ ↦ rfl
  | list items =>
    obtain ⟨rfl, rfl⟩ := List.cons.inj htext
    simp only [Written.text, List.length_cons] at hsteps
    simp only [Char.reduceEq, if_true, if_false, false_or, Cursor.next]
    rw [Written.nesting, Written.value?]
    -- The bracket alone decides whether it may be opened, whatever stands in it.
    by_cases hopen : depth ≤ 1
    · rw [if_pos hopen, within_of_le (by omega)]
      rfl
    · have hitems := unplaced_readItems items [] true rest steps (depth - 1) (by omega)
        (by omega) (place'.after '[')
      rw [if_neg hopen, within_succ items.nesting hopen]
      exact unplaced_bind_map hitems list fun _ _ ↦ rfl
  | object members =>
    obtain ⟨rfl, rfl⟩ := List.cons.inj htext
    simp only [Written.text, List.length_cons] at hsteps
    simp only [Char.reduceEq, if_true, if_false, false_or, Cursor.next]
    rw [Written.nesting, Written.value?]
    by_cases hopen : depth ≤ 1
    · rw [if_pos hopen, within_of_le (by omega)]
      rfl
    · have hmembers := unplaced_readMembers members [] true rest steps (depth - 1)
        (by omega) (by omega) (place'.after '\x7b')
      rw [if_neg hopen, within_succ members.nesting hopen]
      exact unplaced_bind_map hmembers object fun _ _ ↦ rfl

/-- The items of a list. -/
theorem unplaced_readItems (items : WrittenItems) (gap : Gap) (first : Bool) (rest : List Char)
    (steps depth : ℕ) (hsteps : 2 * (items.text first).length ≤ steps) (hdepth : 0 < depth)
    (place : Place) :
    unplaced (readItems steps depth first ⟨gap.text ++ (items.text first ++ rest), place⟩) =
      (within depth items.nesting items.values?).map (·, rest) := by
  cases items with
  | nil gap' =>
    obtain ⟨steps, rfl⟩ : ∃ n, steps = n + 1 :=
      ⟨steps - 1, by simp [WrittenItems.text] at hsteps; omega⟩
    obtain ⟨place', hclose⟩ := exists_nextItem_close (gap ++ gap') rest place first
    rw [readItems, WrittenItems.text, List.append_assoc, Gap.text_append, List.singleton_append,
      hclose, WrittenItems.nesting, within_of_lt hdepth]
    rfl
  | cons before value after others =>
    obtain ⟨c, text, htext, hc⟩ := value.exists_text
    obtain ⟨steps, rfl⟩ : ∃ n, steps = n + 1 :=
      ⟨steps - 1, by simp [WrittenItems.text, htext] at hsteps; omega⟩
    have hlength := items_length_pos others false
    have hvalue_length : value.text.length = text.length + 1 := by rw [htext, List.length_cons]
    simp only [WrittenItems.text, List.length_append] at hsteps
    obtain ⟨place', hpart⟩ := exists_nextItem_part gap
      (text ++ (after.text ++ (others.text false ++ rest))) place first before hc
    have hvalue := unplaced_readWithin value []
      (delimited_gap after (delimited_items others rest)) steps depth
      (by omega) hdepth place'
    have hothers := unplaced_readItems others after false rest steps depth
      (by omega) hdepth
    rw [htext] at hvalue
    rw [readItems, WrittenItems.text, htext]
    simp only [List.append_assoc, List.cons_append]
    rw [hpart, WrittenItems.nesting, WrittenItems.values?, within_max, Option.map_bind]
    refine unplaced_bind hvalue _ fun v place₁ _ ↦ ?_
    exact unplaced_bind_map (hothers place₁) (v :: ·) fun _ _ ↦ rfl

theorem unplaced_readMembers (members : WrittenMembers) (gap : Gap) (first : Bool)
    (rest : List Char) (steps depth : ℕ) (hsteps : 2 * (members.text first).length ≤ steps)
    (hdepth : 0 < depth) (place : Place) :
    unplaced (readMembers steps depth first ⟨gap.text ++ (members.text first ++ rest), place⟩) =
      (within depth members.nesting members.values?).map (·, rest) := by
  cases members with
  | nil gap' =>
    obtain ⟨steps, rfl⟩ : ∃ n, steps = n + 1 :=
      ⟨steps - 1, by simp [WrittenMembers.text] at hsteps; omega⟩
    obtain ⟨place', hclose⟩ := exists_nextName_close (gap ++ gap') rest place first
    rw [readMembers, WrittenMembers.text, List.append_assoc, Gap.text_append,
      List.singleton_append, hclose, WrittenMembers.nesting, within_of_lt hdepth]
    rfl
  | cons label value after others =>
    obtain ⟨steps, rfl⟩ : ∃ n, steps = n + 1 :=
      ⟨steps - 1, by have := members_length_pos (.cons label value after others) first; omega⟩
    have hlength := members_length_pos others false
    have hlabel := label.length_text_pos
    simp only [WrittenMembers.text, List.length_append] at hsteps
    have hvalue := unplaced_readWithin value label.afterColon
      (delimited_gap after (delimited_members others rest)) steps depth
      (by omega) hdepth
    have hothers := unplaced_readMembers others after false rest steps depth
      (by omega) hdepth
    obtain ⟨place', hpart⟩ := exists_label gap
      (value.text ++ (after.text ++ (others.text false ++ rest))) place label first
    rw [readMembers, WrittenMembers.text]
    simp only [List.append_assoc]
    rw [hpart, WrittenMembers.nesting, WrittenMembers.values?, within_bind, Option.map_bind]
    refine unplaced_bind (Chars.unplaced_read_string label.name _ place') _ fun name place₁ _ ↦ ?_
    refine unplaced_bind_left (left?_colon label.beforeColon _ place₁) fun place₂ ↦ ?_
    rw [Function.comp, within_max, Option.map_bind]
    refine unplaced_bind (hvalue place₂) _ fun v place₃ _ ↦ ?_
    exact unplaced_bind_map (hothers place₃) ((name, v) :: ·) fun _ _ ↦ rfl

end

/-- The steps that reading has suffice for any value. -/
theorem unplaced_read (value : Written) (gap : Gap) {rest : List Char} (hrest : Delimited rest)
    {depth : ℕ} (hdepth : 0 < depth) (place : Place) :
    unplaced (read depth ⟨gap.text ++ (value.text ++ rest), place⟩) =
      (within depth value.nesting value.value?).map (·, rest) := by
  refine unplaced_readWithin value gap hrest _ depth ?_ hdepth place
  simp only [stepsFor, List.length_append]
  omega

end Value

end TreeAudit.Json
