/-!
# Blanks

The characters with the Unicode `White_Space` property, and the removal of blanks around a text.
-/

set_option autoImplicit false

namespace Netblock.Text

/-- The code points of the Unicode property `White_Space`. -/
def isBlank (c : Char) : Bool :=
  let point := c.toNat
  (0x09 ≤ point && point ≤ 0x0D) || point == 0x20 || point == 0x85 || point == 0xA0 ||
    point == 0x1680 || (0x2000 ≤ point && point ≤ 0x200A) || point == 0x2028 ||
    point == 0x2029 || point == 0x202F || point == 0x205F || point == 0x3000

/-- A text without the blanks at its two ends. Blanks between other characters stay. -/
def trim (text : List Char) : List Char :=
  ((text.dropWhile isBlank).reverse.dropWhile isBlank).reverse

private theorem dropWhile_isBlank_eq_iff {text rest : List Char} :
    text.dropWhile isBlank = rest ↔
      (∃ before, text = before ++ rest ∧ ∀ c ∈ before, isBlank c = true) ∧
        ∀ c ∈ rest.head?, isBlank c = false := by
  constructor
  · rintro rfl
    refine ⟨⟨text.takeWhile isBlank, List.takeWhile_append_dropWhile.symm, ?_⟩, ?_⟩
    · exact fun c member => List.all_eq_true.mp List.all_takeWhile c member
    · intro c first
      have stopped := List.head?_dropWhile_not isBlank text
      rw [Option.mem_def.mp first] at stopped
      exact stopped
  · rintro ⟨⟨before, rfl, blank⟩, head⟩
    rw [List.dropWhile_append_of_pos blank]
    cases rest with
    | nil => rfl
    | cons c rest => simp [head c (by simp)]

/-- What is left of a text stands between blanks, and neither starts nor ends with one. -/
theorem trim_eq_iff {text core : List Char} :
    trim text = core ↔
      (∃ before after, text = before ++ core ++ after ∧
        (∀ c ∈ before, isBlank c = true) ∧ ∀ c ∈ after, isBlank c = true) ∧
      (∀ c ∈ core.head?, isBlank c = false) ∧ ∀ c ∈ core.getLast?, isBlank c = false := by
  constructor
  · rintro rfl
    obtain ⟨⟨before, text_eq, beforeBlank⟩, head⟩ :=
      dropWhile_isBlank_eq_iff.mp (rfl : text.dropWhile isBlank = _)
    obtain ⟨⟨after, reverse_eq, afterBlank⟩, last⟩ :=
      dropWhile_isBlank_eq_iff.mp (rfl : (text.dropWhile isBlank).reverse.dropWhile isBlank = _)
    have rest_eq : text.dropWhile isBlank = trim text ++ after.reverse := by
      rw [← List.reverse_reverse (text.dropWhile isBlank), reverse_eq, List.reverse_append, trim]
    refine ⟨⟨before, after.reverse, ?_, beforeBlank, by simpa using afterBlank⟩, ?_, ?_⟩
    · rw [List.append_assoc, ← rest_eq]
      exact text_eq
    · intro c first
      apply head c
      rw [rest_eq, List.head?_append, Option.mem_def.mp first]
      rfl
    · simpa [trim] using last
  · rintro ⟨⟨before, after, rfl, beforeBlank, afterBlank⟩, head, last⟩
    cases core with
    | nil =>
        have nothing : (before ++ [] ++ after).dropWhile isBlank = [] := by
          rw [List.append_nil, List.dropWhile_append_of_pos beforeBlank]
          exact dropWhile_isBlank_eq_iff.mpr
            ⟨⟨after, (List.append_nil after).symm, afterBlank⟩, nofun⟩
        rw [trim, nothing]
        rfl
    | cons c core =>
        have front : (before ++ (c :: core) ++ after).dropWhile isBlank = c :: core ++ after :=
          dropWhile_isBlank_eq_iff.mpr ⟨⟨before, List.append_assoc _ _ _, beforeBlank⟩, head⟩
        have back : (c :: core ++ after).reverse.dropWhile isBlank = (c :: core).reverse := by
          refine dropWhile_isBlank_eq_iff.mpr
            ⟨⟨after.reverse, List.reverse_append, by simpa using afterBlank⟩, ?_⟩
          rw [List.head?_reverse]
          exact last
        rw [trim, front, back, List.reverse_reverse]

/-- A text with no blank at either end is left alone. -/
theorem trim_eq_self {text : List Char} (head : ∀ c ∈ text.head?, isBlank c = false)
    (last : ∀ c ∈ text.getLast?, isBlank c = false) : trim text = text :=
  trim_eq_iff.mpr ⟨⟨[], [], by simp, nofun, nofun⟩, head, last⟩

end Netblock.Text
