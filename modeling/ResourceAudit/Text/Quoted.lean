import ResourceAudit.Text.Glyph

/-!
# Quoted text

A text between double quotes in which every character can be told apart by eye: quotes,
backslashes and characters without a glyph of their own are escaped.
-/

namespace ResourceAudit.Text

/-- A character inside quotes. Line breaks, tabs and the null character have letters of their
own; other characters without a glyph are given by number. -/
def quoteChar (c : Char) : List Char :=
  match c with
  | '"' => ['\\', '"']
  | '\\' => ['\\', '\\']
  | '\n' => ['\\', 'n']
  | '\r' => ['\\', 'r']
  | '\t' => ['\\', 't']
  | '\x00' => ['\\', '0']
  | c =>
    if isGlyphless c || isExtending c then
      ['\\', 'u', '{'] ++ Nat.toDigits 16 c.toNat ++ ['}']
    else [c]

def quote (s : String) : String :=
  String.ofList ('"' :: s.toList.flatMap quoteChar ++ ['"'])

end ResourceAudit.Text
