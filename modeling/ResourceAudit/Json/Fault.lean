/-!
# Why a text is no JSON document

A reader stops at the first place that rules the text out. `Fault` names the cause and the place
by what is left to read; `Refusal` names the place by line and column. A column counts bytes of
UTF-8 from the start of its line.
-/

namespace ResourceAudit.Json

/-- What rules a text out. -/
inductive Cause where
  | valueUnfinished
  | listUnfinished
  | objectUnfinished
  | stringUnfinished
  | valueExpected
  | wordExpected
  | colonExpected
  | listEndExpected
  | objectEndExpected
  | keyExpected
  | trailingComma
  | trailingCharacters
  | controlCharacter
  | invalidEscape
  | loneSurrogate
  | surrogateUnfinished
  | invalidNumber
  | numberOutOfRange
  | tooDeep
deriving DecidableEq, Repr

def Cause.message : Cause → String
  | valueUnfinished => "EOF while parsing a value"
  | listUnfinished => "EOF while parsing a list"
  | objectUnfinished => "EOF while parsing an object"
  | stringUnfinished => "EOF while parsing a string"
  | valueExpected => "expected value"
  | wordExpected => "expected ident"
  | colonExpected => "expected `:`"
  | listEndExpected => "expected `,` or `]`"
  | objectEndExpected => "expected `,` or `\x7d`"
  | keyExpected => "key must be a string"
  | trailingComma => "trailing comma"
  | trailingCharacters => "trailing characters"
  | controlCharacter => "control character (\\u0000-\\u001F) found while parsing a string"
  | invalidEscape => "invalid escape"
  | loneSurrogate => "lone leading surrogate in hex escape"
  | surrogateUnfinished => "unexpected end of hex escape"
  | invalidNumber => "invalid number"
  | numberOutOfRange => "number out of range"
  | tooDeep => "recursion limit exceeded"

/-- A cause, what was left to read when it arose, and how many bytes of that it takes in. -/
structure Fault where
  cause : Cause
  rest : List Char
  ahead : Nat
deriving DecidableEq, Repr

def Fault.before (cause : Cause) (rest : List Char) : Fault := ⟨cause, rest, 0⟩

/-- The fault lies behind the first byte of the rest, or at the end. -/
def Fault.behind (cause : Cause) (rest : List Char) : Fault := ⟨cause, rest, 1⟩

/-- A cause and its place: lines count from one, columns in bytes from the start of the line. -/
structure Refusal where
  cause : Cause
  line : Nat
  column : Nat
deriving DecidableEq, Repr

def Refusal.message (r : Refusal) : String :=
  s!"{r.cause.message} at line {r.line} column {r.column}"

def byteCount : List Char → Nat
  | [] => 0
  | c :: rest => c.utf8Size + byteCount rest

/-- The place of a fault in the text that was read: the bytes before it fix line and column. -/
def Fault.locate (f : Fault) (text : String) : Refusal :=
  let offset := text.utf8ByteSize - byteCount f.rest + f.ahead
  let bytes := text.toUTF8.toList.take offset
  { cause := f.cause
    line := bytes.count 10 + 1
    column := (bytes.reverse.takeWhile (· != 10)).length }

end ResourceAudit.Json
