import ResourceAudit.Toml.Scalar
import ResourceAudit.Toml.Section

/-!
# Reading TOML

A document is a sequence of lines: keys with values, headers, comments and blank lines. Lists and
inline tables may run over several lines. Any breach of the grammar or of the rules for tables
leaves no document.
-/

namespace ResourceAudit.Toml

/-! ## Blanks and comments -/

/-- What follows a comment, if one stands in front. -/
def skipComment : List Char → List Char
  | '#' :: s => s.dropWhile isText
  | s => s

/-- What follows the line break, if nothing but blanks and a comment stands before it. At the end
of the text none is needed. -/
def endLine? (s : List Char) : Option (List Char) :=
  match skipComment (skipSpace s) with
  | [] => some []
  | t => afterNewline? t

/-- What follows blanks, comments and line breaks. -/
def skipGap (s : List Char) : List Char :=
  let t := skipLines s
  match t with
  | '#' :: _ =>
    match endLine? t with
    | some u => if _h : u.length < s.length then skipGap u else t
    | none => t
  | _ => t
termination_by s.length

/-! ## Keys -/

/-- How many parts a key may have, and how many levels lists and inline tables may nest. -/
def deepest : Nat := 80

def isBareChar (c : Char) : Bool := c.isAlphanum || c == '_' || c == '-'

def readSimpleKey (s : List Char) : Option (String × List Char) :=
  match s with
  | '"' :: t => basicString [] t
  | '\'' :: t => literalString t
  | _ =>
    match s.span isBareChar with
    | ([], _) => none
    | (key, rest) => some (String.ofList key, rest)

/-- Reads a key, as the keys on the way and the last one. -/
def readKey (path : List String) (s : List Char) : Option ((List String × String) × List Char) :=
  match readSimpleKey s with
  | none => none
  | some (key, t) =>
    match skipSpace t with
    | '.' :: u =>
      let rest := skipSpace u
      if _h : rest.length < s.length then readKey (key :: path) rest else none
    | rest => if path.length < deepest then some ((path.reverse, key), rest) else none
termination_by s.length

/-! ## Values -/

abbrev ValueReader := List Char → Option (Toml × List Char)

/-- Reads the items of a list up to its closing bracket. -/
def readItems (value : ValueReader) (done : List Toml) (s : List Char) :
    Option (Toml × List Char) :=
  match skipGap s with
  | ']' :: rest => some (.list done.reverse, rest)
  | t =>
    match value t with
    | none => none
    | some (v, u) =>
      match skipGap u with
      | ']' :: rest => some (.list (v :: done).reverse, rest)
      | ',' :: rest =>
        if _h : rest.length < s.length then readItems value (v :: done) rest else none
      | _ => none
termination_by s.length

/-- Reads a key with its value into a table. `skip` passes what may stand around the equals
sign. -/
def readPair (skip : List Char → List Char) (value : ValueReader)
    (add : List String → String → Toml → Option Sections) (s : List Char) :
    Option (Sections × List Char) := do
  let ((path, key), t) ← readKey [] s
  match skip t with
  | '=' :: u =>
    let (v, rest) ← value (skip u)
    return (← add path key v, rest)
  | _ => none

/-- Reads the pairs of an inline table up to its closing brace. -/
def readPairs (value : ValueReader) (entries : Sections) (s : List Char) :
    Option (Toml × List Char) :=
  match skipGap s with
  | '}' :: rest => some (.table (closeEntries entries), rest)
  | t =>
    match readPair skipGap value (fun path key v => addDotted path key v .header entries) t with
    | none => none
    | some (entries, u) =>
      match skipGap u with
      | '}' :: rest => some (.table (closeEntries entries), rest)
      | ',' :: rest =>
        if _h : rest.length < s.length then readPairs value entries rest else none
      | _ => none
termination_by s.length

/-- Reads a value whose lists and inline tables nest at most so many levels. -/
def readValue : Nat → ValueReader
  | depth, s =>
    match s, depth with
    | '[' :: t, depth + 1 => readItems (readValue depth) [] t
    | '{' :: t, depth + 1 => readPairs (readValue depth) [] t
    | '"' :: _, _ => (readString s).map fun (text, rest) => (.string text, rest)
    | '\'' :: _, _ => (readString s).map fun (text, rest) => (.string text, rest)
    | _, _ => readWord s

/-! ## Documents -/

/-- The header under which keys are set, and all tables so far. -/
structure State where
  header : List String
  entries : Sections

/-- Reads a header, behind its opening brackets. -/
def readHeader (close : List Char) (enter : List String → String → Option Sections)
    (s : List Char) : Option (State × List Char) := do
  let ((path, key), t) ← readKey [] (skipSpace s)
  if close.isPrefixOf t then
    return (⟨path ++ [key], ← enter path key⟩, t.drop close.length)
  else none

def readLine (state : State) (s : List Char) : Option (State × List Char) :=
  match s with
  | '[' :: '[' :: t => readHeader [']', ']'] (openItem · · state.entries) t
  | '[' :: t => readHeader [']'] (openTable · · state.entries) t
  | _ => do
    let add := fun path key v => addUnder state.header path key v state.entries
    let (entries, rest) ← readPair skipSpace (readValue deepest) add s
    return ({ state with entries }, rest)

def readLines (state : State) (s : List Char) : Option State :=
  let t := skipSpace s
  match endLine? t with
  | some [] => some state
  | some rest => if _h : rest.length < s.length then readLines state rest else none
  | none =>
    match readLine state t with
    | none => none
    | some (state, u) =>
      match endLine? u with
      | none => none
      | some [] => some state
      | some rest => if _h : rest.length < s.length then readLines state rest else none
termination_by s.length

/-- A text without the byte order mark in front of it. -/
def withoutMark : List Char → List Char
  | '\ufeff' :: s => s
  | s => s

def parse (text : String) : Option (List (String × Toml)) :=
  (readLines ⟨[], []⟩ (withoutMark text.toList)).map fun state => closeEntries state.entries

end ResourceAudit.Toml
