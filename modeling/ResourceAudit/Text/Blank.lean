/-!
# Blank characters

The characters of the Unicode property `White_Space`, and text without the blanks at its ends.
-/

namespace ResourceAudit.Text

/-- The property `White_Space` of the Unicode character database. -/
def isBlank (c : Char) : Bool :=
  let n := c.toNat
  (9 ≤ n && n ≤ 13) || n == 0x20 || n == 0x85 || n == 0xA0 || n == 0x1680 ||
    (0x2000 ≤ n && n ≤ 0x200A) || n == 0x2028 || n == 0x2029 || n == 0x202F ||
    n == 0x205F || n == 0x3000

/-- The text between the first and the last character that is not blank. -/
def trim (s : List Char) : List Char :=
  ((s.dropWhile isBlank).reverse.dropWhile isBlank).reverse

def isBlankText (s : String) : Bool := s.toList.all isBlank

theorem dropWhile_isBlank_of_all {s : List Char} (h : s.all isBlank = true) :
    s.dropWhile isBlank = [] := by
  induction s with
  | nil => rfl
  | cons c r ih =>
    simp only [List.all_cons, Bool.and_eq_true] at h
    simp [h.1, ih h.2]

theorem trim_of_all_isBlank {s : List Char} (h : s.all isBlank = true) : trim s = [] := by
  simp [trim, dropWhile_isBlank_of_all h]

end ResourceAudit.Text
