import ResourceAudit.Text.Blank

/-!
# Text without blanks at its ends

`Text.trim` is the only function that takes blanks from both ends of a text and leaves none there
(`trims_iff`).
-/

namespace ResourceAudit.Text

/-- `text` stands in `s` with only blanks around, and neither begins nor ends with a blank. -/
structure Trims (s text : List Char) : Prop where
  between : ∃ front back, s = front ++ text ++ back ∧ front.all isBlank ∧ back.all isBlank
  head : ∀ c ∈ text.head?, isBlank c = false
  last : ∀ c ∈ text.getLast?, isBlank c = false

/-! ## Blanks in front -/

theorem dropWhile_isBlank_append {front text : List Char} (hfront : front.all isBlank)
    (hhead : ∀ c ∈ text.head?, isBlank c = false) : (front ++ text).dropWhile isBlank = text := by
  rw [List.dropWhile_append_of_pos (List.all_eq_true.1 hfront)]
  cases text with
  | nil => rfl
  | cons c rest => simp [hhead c rfl]

theorem head_dropWhile_isBlank (s : List Char) :
    ∀ c ∈ (s.dropWhile isBlank).head?, isBlank c = false := by
  intro c hc
  have hnot := List.head?_dropWhile_not isBlank s
  rw [Option.mem_def.1 hc] at hnot
  simpa using hnot

theorem exists_blanks_append (s : List Char) :
    ∃ front, s = front ++ s.dropWhile isBlank ∧ front.all isBlank :=
  ⟨s.takeWhile isBlank, List.takeWhile_append_dropWhile.symm, List.all_takeWhile⟩

/-! ## Blanks at both ends -/

theorem Trims.trim_eq {s text : List Char} (h : Trims s text) : trim s = text := by
  obtain ⟨⟨front, back, rfl, hfront, hback⟩, hhead, hlast⟩ := h
  cases text with
  | nil => exact trim_of_all_isBlank (by simp [hfront, hback])
  | cons c rest =>
      have hbehind : ∀ d ∈ (c :: rest ++ back).head?, isBlank d = false := hhead
      have hend : ∀ d ∈ (c :: rest).reverse.head?, isBlank d = false := by
        rw [List.head?_reverse]
        exact hlast
      rw [trim, List.append_assoc, dropWhile_isBlank_append hfront hbehind, List.reverse_append,
        dropWhile_isBlank_append (by simpa using hback) hend, List.reverse_reverse]

theorem trims_trim (s : List Char) : Trims s (trim s) := by
  obtain ⟨front, hs, hfront⟩ := exists_blanks_append s
  obtain ⟨back, hrest, hback⟩ := exists_blanks_append (s.dropWhile isBlank).reverse
  have hbetween : s.dropWhile isBlank = trim s ++ back.reverse := by
    rw [← List.reverse_reverse (s.dropWhile isBlank), hrest, List.reverse_append]
    rfl
  have hlast : ∀ c ∈ (trim s).getLast?, isBlank c = false := by
    rw [trim, List.getLast?_reverse]
    exact head_dropWhile_isBlank _
  refine ⟨⟨front, back.reverse, ?_, hfront, by simpa using hback⟩, ?_, hlast⟩
  · rw [List.append_assoc, ← hbetween]
    exact hs
  · intro c hc
    refine head_dropWhile_isBlank s c ?_
    rw [hbetween, Option.mem_def, List.head?_append, Option.mem_def.1 hc]
    rfl

theorem trims_iff {s text : List Char} : Trims s text ↔ trim s = text :=
  ⟨Trims.trim_eq, fun h => h ▸ trims_trim s⟩

end ResourceAudit.Text
