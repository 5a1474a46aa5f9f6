import ResourceAudit.Timestamp
import ResourceAudit.Toml.Basic

/-!
# TOML scalars

Strings in their four forms, and the words that stand for booleans, numbers, dates and times.
Readers give what they read and what follows it, or nothing where the text breaks the grammar.
-/

namespace ResourceAudit.Toml

/-! ## Characters -/

/-- A character that may stand in strings and comments: a tab, or one that is no control. -/
def isText (c : Char) : Bool := c == '\t' || (0x20 ≤ c.toNat && c.toNat != 0x7F)

def isSpace (c : Char) : Bool := c == ' ' || c == '\t'

def skipSpace (s : List Char) : List Char := s.dropWhile isSpace

def afterNewline? : List Char → Option (List Char)
  | '\n' :: rest => some rest
  | '\r' :: '\n' :: rest => some rest
  | _ => none

/-- What follows the blanks and line breaks in front. -/
def skipLines : List Char → List Char
  | '\r' :: '\n' :: rest => skipLines rest
  | '\n' :: rest => skipLines rest
  | c :: rest => if isSpace c then skipLines rest else c :: rest
  | [] => []

/-! ## Escapes -/

/-- Reads a character given by so many hexadecimal digits. -/
def numberedChar (width : Nat) (s : List Char) : Option (Char × List Char) :=
  let ds := s.take width
  let n := Text.numberIn 16 ds
  if ds.length = width ∧ ds.all (Text.isDigitIn 16) ∧ n.isValidChar then
    some (Char.ofNat n, s.drop width)
  else none

/-- Reads an escaped character, from behind its backslash. -/
def escape : List Char → Option (Char × List Char)
  | 'b' :: s => some ('\x08', s)
  | 't' :: s => some ('\t', s)
  | 'n' :: s => some ('\n', s)
  | 'f' :: s => some ('\x0c', s)
  | 'r' :: s => some ('\r', s)
  | 'e' :: s => some ('\x1b', s)
  | '"' :: s => some ('"', s)
  | '\\' :: s => some ('\\', s)
  | 'x' :: s => numberedChar 2 s
  | 'u' :: s => numberedChar 4 s
  | 'U' :: s => numberedChar 8 s
  | _ => none

/-! ## Strings -/

/-- Reads a string on one line, behind its opening quote. -/
def basicString (done s : List Char) : Option (String × List Char) :=
  match s with
  | [] => none
  | '"' :: rest => some (String.ofList done.reverse, rest)
  | '\\' :: t =>
    match escape t with
    | none => none
    | some (c, rest) =>
      if _h : rest.length ≤ t.length then basicString (c :: done) rest else none
  | c :: t => if isText c then basicString (c :: done) t else none
termination_by s.length
decreasing_by all_goals simp; try omega

/-- Reads a string without escapes on one line, behind its opening quote. -/
def literalString (s : List Char) : Option (String × List Char) :=
  match s.span fun c => isText c && c != '\'' with
  | (text, '\'' :: rest) => some (String.ofList text, rest)
  | _ => none

/-- The quotes in front of a text inside a string on several lines: how many belong to the
string, and whether it ends with them. Three end it, after up to two of its own. -/
def quoteRun (quote : Char) (s : List Char) : Nat × Bool :=
  let n := (s.takeWhile (· == quote)).length
  if n < 3 then (n, false) else (min n 5 - 3, true)

/-- Reads a string on several lines, behind its opening quotes. A backslash at the end of a line
takes the line break and the blanks behind it out. -/
def basicLines (done s : List Char) : Option (String × List Char) :=
  match s with
  | [] => none
  | '"' :: t =>
    let (kept, ends) := quoteRun '"' ('"' :: t)
    let done := List.replicate kept '"' ++ done
    if ends then some (String.ofList done.reverse, t.drop (kept + 2))
    else basicLines done (t.drop (kept - 1))
  | '\\' :: t =>
    match afterNewline? (skipSpace t) with
    | some u =>
      if _h : (skipLines u).length ≤ t.length then basicLines done (skipLines u) else none
    | none =>
      match escape t with
      | none => none
      | some (c, rest) =>
        if _h : rest.length ≤ t.length then basicLines (c :: done) rest else none
  | '\n' :: t => basicLines ('\n' :: done) t
  | '\r' :: '\n' :: t => basicLines ('\n' :: '\r' :: done) t
  | c :: t => if isText c then basicLines (c :: done) t else none
termination_by s.length
decreasing_by all_goals simp; try omega

/-- Reads a string without escapes on several lines, behind its opening quotes. -/
def literalLines (done s : List Char) : Option (String × List Char) :=
  match s with
  | [] => none
  | '\'' :: t =>
    let (kept, ends) := quoteRun '\'' ('\'' :: t)
    let done := List.replicate kept '\'' ++ done
    if ends then some (String.ofList done.reverse, t.drop (kept + 2))
    else literalLines done (t.drop (kept - 1))
  | '\n' :: t => literalLines ('\n' :: done) t
  | '\r' :: '\n' :: t => literalLines ('\n' :: '\r' :: done) t
  | c :: t => if isText c then literalLines (c :: done) t else none
termination_by s.length
decreasing_by all_goals simp; try omega

def dropNewline (s : List Char) : List Char := (afterNewline? s).getD s

def readString : List Char → Option (String × List Char)
  | '"' :: '"' :: '"' :: s => basicLines [] (dropNewline s)
  | '\'' :: '\'' :: '\'' :: s => literalLines [] (dropNewline s)
  | '"' :: s => basicString [] s
  | '\'' :: s => literalString s
  | _ => none

/-! ## Numbers -/

/-- Digits without the underscores that may stand singly between them. -/
def ungroup (isDigit : Char → Bool) : List Char → Option (List Char)
  | [] => none
  | [d] => if isDigit d then some [d] else none
  | d :: '_' :: rest => if isDigit d then (ungroup isDigit rest).map (d :: ·) else none
  | d :: rest => if isDigit d then (ungroup isDigit rest).map (d :: ·) else none

/-- The digits of the whole part of a decimal number, without leading zeros. -/
def wholeDigits (s : List Char) : Option (List Char) := do
  let ds ← ungroup Char.isDigit s
  match ds with
  | '0' :: _ :: _ => none
  | _ => some ds

/-- A sign in front, and whether it is a minus. -/
def splitSign : List Char → Bool × List Char
  | '+' :: s => (false, s)
  | '-' :: s => (true, s)
  | s => (false, s)

/-- The exponent of a number, of which there may be none. -/
def exponentOf : List Char → Option Int
  | [] => some 0
  | _ :: s =>
    let (negative, t) := splitSign s
    (ungroup Char.isDigit t).map fun ds =>
      let n : Int := Text.decimal ds
      if negative then -n else n

/-- The double nearest to `digits * 10 ^ exponent`, unless it is beyond all of them. Exponents far
out of range decide at once. -/
def nearestDouble (digits : List Char) (exponent : Int) : Option Float :=
  let m := Text.decimal digits
  let magnitude := exponent + digits.length
  if m = 0 || magnitude < -400 then some 0.0
  else if magnitude > 400 + digits.length then none
  else
    let f := Float.ofScientific m (exponent < 0) exponent.natAbs
    if f.isInf then none else some f

def signedFloat (negative : Bool) (ds : List Char) (exponent : Int) : Toml :=
  .float ((nearestDouble ds exponent).map fun f => if negative then -f else f)

/-- A decimal number: an integer, or a float if it has a fraction or an exponent. -/
def decimalNumber (word : List Char) : Option Toml := do
  let (negative, s) := splitSign word
  let (mantissa, exponent) := s.span fun c => c != 'e' && c != 'E'
  let (whole, fraction) := mantissa.span (· != '.')
  let ds ← wholeDigits whole
  match fraction, exponent with
  | [], [] =>
    let n : Int := Text.decimal ds
    return .integer (if negative then -n else n)
  | [], _ => return signedFloat negative ds (← exponentOf exponent)
  | _ :: places, _ =>
    let fs ← ungroup Char.isDigit places
    return signedFloat negative (ds ++ fs) ((← exponentOf exponent) - fs.length)

def basedInteger (base : Nat) (word : List Char) : Option Toml :=
  (ungroup (Text.isDigitIn base) word).map fun ds => .integer (Text.numberIn base ds)

/-! ## Dates and times -/

def twoDigits (least greatest : Nat) : List Char → Option (Nat × List Char)
  | a :: b :: rest =>
    let n := Text.decimal [a, b]
    if a.isDigit && b.isDigit && least ≤ n && n ≤ greatest then some (n, rest) else none
  | _ => none

def readDate (s : List Char) : Option (List Char × List Char) := do
  let ds := s.take 4
  if ds.length = 4 ∧ ds.all Char.isDigit then
    match s.drop 4 with
    | '-' :: s =>
      let (month, s) ← twoDigits 1 12 s
      match s with
      | '-' :: s =>
        let (day, s) ← twoDigits 1 (daysInMonth (Text.decimal ds) month) s
        some (ds ++ '-' :: Timestamp.padded 2 month ++ '-' :: Timestamp.padded 2 day, s)
      | _ => none
    | _ => none
  else none

/-- The digits of a fraction of a second: up to nine, and no zeros at their end, but one digit at
least. -/
def shownPlaces (ds : List Char) : List Char :=
  match ((ds.take 9).reverse.dropWhile (· == '0')).reverse with
  | [] => ['0']
  | shown => shown

/-- Reads the fraction of a second, if there is one. -/
def readPlaces : List Char → Option (List Char × List Char)
  | '.' :: s =>
    match s.span Char.isDigit with
    | ([], _) => none
    | (ds, rest) => some ('.' :: shownPlaces ds, rest)
  | s => some ([], s)

/-- Reads a time of day. The seconds may be left out. -/
def readTime (s : List Char) : Option (List Char × List Char) := do
  let (hour, s) ← twoDigits 0 23 s
  match s with
  | ':' :: s =>
    let (minute, s) ← twoDigits 0 59 s
    let start := Timestamp.padded 2 hour ++ ':' :: Timestamp.padded 2 minute
    match s with
    | ':' :: s =>
      let (second, s) ← twoDigits 0 60 s
      let (places, s) ← readPlaces s
      some (start ++ ':' :: Timestamp.padded 2 second ++ places, s)
    | _ => some (start, s)
  | _ => none

/-- Reads the offset of a time, if there is one. An offset of nothing has a plus. -/
def readZone : List Char → Option (List Char)
  | [] => some []
  | ['Z'] => some ['Z']
  | ['z'] => some ['Z']
  | sign :: s => do
    if sign = '+' ∨ sign = '-' then
      let (hours, s) ← twoDigits 0 23 s
      match s with
      | ':' :: s =>
        let (minutes, s) ← twoDigits 0 59 s
        let shownSign := if hours = 0 ∧ minutes = 0 then '+' else sign
        if s.isEmpty then
          some (shownSign :: Timestamp.padded 2 hours ++ ':' :: Timestamp.padded 2 minutes)
        else none
      | _ => none
    else none

def timeOnly (word : List Char) : Option (List Char) :=
  match readTime word with
  | some (time, []) => some time
  | _ => none

/-- A date, and a time behind it if there is one. -/
def dateAndTime (word : List Char) : Option (List Char) := do
  let (date, s) ← readDate word
  match s with
  | [] => some date
  | c :: s =>
    if c = 'T' ∨ c = 't' ∨ c = ' ' then
      let (time, s) ← readTime s
      some (date ++ 'T' :: time ++ (← readZone s))
    else none

/-! ## Words -/

/-- A character of the words that stand for booleans, numbers, dates and times. -/
def isWordChar (c : Char) : Bool :=
  c.isAlphanum || c == '_' || c == '+' || c == '-' || c == '.' || c == ':'

def ofWord (word : List Char) : Option Toml :=
  match String.ofList word with
  | "true" => some (.boolean true)
  | "false" => some (.boolean false)
  | "inf" => some (.float (some (1.0 / 0.0)))
  | "+inf" => some (.float (some (1.0 / 0.0)))
  | "-inf" => some (.float (some (-1.0 / 0.0)))
  | "nan" => some (.float (some (0.0 / 0.0)))
  | "+nan" => some (.float (some (0.0 / 0.0)))
  | "-nan" => some (.float (some (0.0 / 0.0)))
  | _ =>
    match word with
    | '0' :: 'x' :: ds => basedInteger 16 ds
    | '0' :: 'o' :: ds => basedInteger 8 ds
    | '0' :: 'b' :: ds => basedInteger 2 ds
    | _ =>
      match timeOnly word <|> dateAndTime word with
      | some text => some (.moment (String.ofList text))
      | none => decimalNumber word

/-- Splits the word off that stands in front. A blank may join a date and a time. -/
def splitWord (s : List Char) : List Char × List Char :=
  let (word, rest) := s.span isWordChar
  match readDate word, rest with
  | some (_, []), ' ' :: t =>
    match t with
    | d :: _ =>
      if d.isDigit then (word ++ ' ' :: t.takeWhile isWordChar, t.dropWhile isWordChar)
      else (word, rest)
    | [] => (word, rest)
  | _, _ => (word, rest)

def readWord (s : List Char) : Option (Toml × List Char) :=
  let (word, rest) := splitWord s
  (ofWord word).map (·, rest)

end ResourceAudit.Toml
