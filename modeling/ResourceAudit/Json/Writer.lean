import ResourceAudit.Decimal.Layout
import ResourceAudit.Json.Basic

/-!
# Writing JSON

`Json.compact` writes a tree without blanks, `Json.pretty` with one item or member on each line,
indented by two spaces for each level.
-/

namespace ResourceAudit.Json

/-! ## Scalars -/

/-- The hexadecimal digit of a number below sixteen, in lower case. -/
def hexDigit (n : Nat) : Char := Nat.digitChar n

/-- A character inside a string. Only the quote, the backslash and control characters are
escaped. -/
def writeChar (c : Char) : List Char :=
  match c with
  | '"' => ['\\', '"']
  | '\\' => ['\\', '\\']
  | '\x08' => ['\\', 'b']
  | '\x0c' => ['\\', 'f']
  | '\n' => ['\\', 'n']
  | '\r' => ['\\', 'r']
  | '\t' => ['\\', 't']
  | c =>
    if c.toNat < 0x20 then ['\\', 'u', '0', '0', hexDigit (c.toNat / 16), hexDigit (c.toNat % 16)]
    else [c]

def writeString (s : String) : List Char := '"' :: s.toList.flatMap writeChar ++ ['"']

/-- A number. Only finite doubles have a text; another one is written as `null`. -/
def writeNumber : Number → List Char
  | .int n => (if n < 0 then ['-'] else []) ++ Nat.toDigits 10 n.natAbs
  | .float f =>
    if f.isFinite then Decimal.Layout.json.double f else ['n', 'u', 'l', 'l']

def writeBool : Bool → List Char
  | true => ['t', 'r', 'u', 'e']
  | false => ['f', 'a', 'l', 's', 'e']

/-! ## Trees -/

/-- Where a writer puts blanks: in front of an item, a member or a closing bracket, at a level of
indentation, and behind a colon. -/
structure Spacing where
  line : Nat → List Char
  gap : List Char
  line_isSpace : ∀ level, (line level).all isSpace
  gap_isSpace : gap.all isSpace

namespace Spacing

def none : Spacing where
  line _ := []
  gap := []
  line_isSpace _ := rfl
  gap_isSpace := rfl

/-- Every item and member on a line of its own, two blanks for each level in front. -/
def lines : Spacing where
  line level := '\n' :: List.replicate (2 * level) ' '
  gap := [' ']
  line_isSpace level := by simp [isSpace]
  gap_isSpace := rfl

end Spacing

mutual
/-- The text of a tree that stands at a level of indentation. -/
def write (sp : Spacing) (level : Nat) : Json → List Char
  | null => ['n', 'u', 'l', 'l']
  | bool b => writeBool b
  | number n => writeNumber n
  | string s => writeString s
  | list [] => ['[', ']']
  | list (j :: rest) =>
    '[' :: sp.line (level + 1) ++ write sp (level + 1) j ++ writeItems sp level rest
  | object [] => ['{', '}']
  | object ((k, j) :: rest) =>
    '{' :: sp.line (level + 1) ++ writeString k ++ ':' :: sp.gap ++ write sp (level + 1) j ++
      writeMembers sp level rest
/-- The items behind the first, and the closing bracket. -/
def writeItems (sp : Spacing) (level : Nat) : List Json → List Char
  | [] => sp.line level ++ [']']
  | j :: rest => ',' :: sp.line (level + 1) ++ write sp (level + 1) j ++ writeItems sp level rest
/-- The members behind the first, and the closing brace. -/
def writeMembers (sp : Spacing) (level : Nat) : List (String × Json) → List Char
  | [] => sp.line level ++ ['}']
  | (k, j) :: rest =>
    ',' :: sp.line (level + 1) ++ writeString k ++ ':' :: sp.gap ++ write sp (level + 1) j ++
      writeMembers sp level rest
end

def compact (j : Json) : String := String.ofList (j.write .none 0)

def pretty (j : Json) : String := String.ofList (j.write .lines 0)

end ResourceAudit.Json
