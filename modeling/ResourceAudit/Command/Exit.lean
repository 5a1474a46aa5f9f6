/-!
# How commands end

A command ends with an exit code and what it wrote to its two outputs. An error is a chain of
causes, the outermost first.
-/

namespace ResourceAudit

/-- The end of a command. -/
structure Exit where
  code : Nat
  output : String
  errors : String
deriving DecidableEq, Repr

/-- The chain of causes of an error, on one line. -/
def causesInLine (chain : List String) : String := ": ".intercalate chain

namespace Exit

def success (output : String) : Exit := ⟨0, output, ""⟩

/-! ## Accounts of errors -/

/-- A character of an indented text: a line break takes the indentation of the next line along. -/
def indentChar (width : Nat) (c : Char) : List Char :=
  if c = '\n' then '\n' :: List.replicate width ' ' else [c]

/-- A text behind a lead, its further lines indented as far. -/
def hanging (lead text : String) : String :=
  lead ++ String.ofList (text.toList.flatMap (indentChar lead.length))

def numberLead (n : Nat) : String :=
  let digits := toString n
  String.ofList (List.replicate (5 - digits.length) ' ') ++ digits ++ ": "

/-- The causes below an error, each on a line of its own; several are numbered. -/
def causeLines : List String → List String
  | [cause] => [hanging "    " cause]
  | causes => causes.zipIdx.map fun (cause, n) => hanging (numberLead n) cause

def account : List String → String
  | [] => "Error: \n"
  | [error] => "Error: " ++ error ++ "\n"
  | error :: causes =>
    "Error: " ++ error ++ "\n\nCaused by:\n" ++ "\n".intercalate (causeLines causes) ++ "\n"

/-- The end of a command that an error stopped, after it had written something. -/
def failure (output errors : String) (chain : List String) : Exit :=
  ⟨1, output, errors ++ account chain⟩

end Exit

end ResourceAudit
