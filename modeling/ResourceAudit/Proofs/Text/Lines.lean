import Mathlib.Data.List.Basic

/-!
# Lines

A line break ends a line; what stands behind the last one is a line if there is anything. Texts
that are put together from lines have just these lines if none of them holds a break
(`lines_terminated_iff`), and one more for each break (`length_lines_terminated`).
-/

namespace ResourceAudit.Text

/-- The lines of a text, without the breaks that end them. -/
def lines : List Char → List (List Char)
  | [] => []
  | c :: rest =>
    if c = '\n' then [] :: lines rest
    else
      match lines rest with
      | [] => [[c]]
      | line :: others => (c :: line) :: others

/-- A text of lines, each with a break behind it. -/
def terminated (ls : List String) : List Char := ls.flatMap fun l => l.toList ++ ['\n']

/-- The line breaks in some texts. -/
def breaks (texts : List String) : Nat := (texts.flatMap String.toList).count '\n'

@[simp] theorem terminated_cons (l : String) (ls : List String) :
    terminated (l :: ls) = l.toList ++ '\n' :: terminated ls := by
  simp [terminated]

@[simp] theorem terminated_append (ls ls' : List String) :
    terminated (ls ++ ls') = terminated ls ++ terminated ls' :=
  List.flatMap_append

theorem breaks_cons (text : String) (texts : List String) :
    breaks (text :: texts) = text.toList.count '\n' + breaks texts := by
  simp [breaks]

theorem breaks_append (texts texts' : List String) :
    breaks (texts ++ texts') = breaks texts + breaks texts' := by
  simp [breaks]

theorem breaks_eq_zero_iff {texts : List String} :
    breaks texts = 0 ↔ ∀ text ∈ texts, '\n' ∉ text.toList := by
  induction texts with
  | nil => simp [breaks]
  | cons text texts ih =>
      rw [breaks_cons, Nat.add_eq_zero_iff, ih, List.count_eq_zero, List.forall_mem_cons]

theorem breaks_flatMap_congr {α : Type} {f g : α → List String}
    (h : ∀ a, breaks (f a) = breaks (g a)) (as : List α) :
    breaks (as.flatMap f) = breaks (as.flatMap g) := by
  induction as with
  | nil => rfl
  | cons a as ih => rw [List.flatMap_cons, List.flatMap_cons, breaks_append, breaks_append, h, ih]

theorem breaks_flatMap_eq_zero_iff {α : Type} {f : α → List String} {as : List α} :
    breaks (as.flatMap f) = 0 ↔ ∀ a ∈ as, ∀ text ∈ f a, '\n' ∉ text.toList := by
  rw [breaks_eq_zero_iff]
  simp only [List.mem_flatMap, forall_exists_index, and_imp]
  exact ⟨fun h a ha text htext => h text a ha htext, fun h text a ha htext => h a ha text htext⟩

theorem toList_join_map {α : Type} {write : α → String} {f : α → List String}
    (h : ∀ a, (write a).toList = terminated (f a)) (as : List α) :
    (String.join (as.map write)).toList = terminated (as.flatMap f) := by
  induction as with
  | nil => rfl
  | cons a as ih =>
      rw [List.map_cons, List.flatMap_cons, terminated_append, ← h, ← ih]
      simp

/-! ## Lines of texts that are put together -/

theorem lines_append_break {line : List Char} (h : '\n' ∉ line) (rest : List Char) :
    lines (line ++ '\n' :: rest) = line :: lines rest := by
  induction line with
  | nil => rfl
  | cons c line ih =>
      rw [List.mem_cons, not_or] at h
      rw [List.cons_append, lines, if_neg (Ne.symm h.1), ih h.2]

theorem length_lines_append_break (s rest : List Char) :
    (lines (s ++ '\n' :: rest)).length = s.count '\n' + 1 + (lines rest).length := by
  induction s with
  | nil => simp [lines, Nat.add_comm]
  | cons c s ih =>
      rw [List.cons_append, lines]
      split
      · rename_i hc
        rw [List.length_cons, ih, hc, List.count_cons_self]
        omega
      · rename_i hc
        have hlines : lines (s ++ '\n' :: rest) ≠ [] := by
          rw [← List.length_pos_iff_ne_nil]
          omega
        obtain ⟨line, others, heq⟩ := List.exists_cons_of_ne_nil hlines
        rw [heq, List.length_cons] at ih
        rw [heq, List.length_cons, ih, List.count_cons_of_ne hc]

theorem length_lines_terminated (ls : List String) :
    (lines (terminated ls)).length = ls.length + breaks ls := by
  induction ls with
  | nil => rfl
  | cons l ls ih =>
      rw [terminated_cons, length_lines_append_break, ih, breaks_cons, List.length_cons]
      omega

theorem lines_terminated_iff {ls : List String} :
    lines (terminated ls) = ls.map String.toList ↔ breaks ls = 0 := by
  constructor
  · intro h
    have hlength := length_lines_terminated ls
    rw [h, List.length_map] at hlength
    omega
  · intro h
    rw [breaks_eq_zero_iff] at h
    induction ls with
    | nil => rfl
    | cons l ls ih =>
        obtain ⟨hl, hls⟩ := List.forall_mem_cons.1 h
        rw [terminated_cons, lines_append_break hl, ih hls, List.map_cons]

end ResourceAudit.Text
