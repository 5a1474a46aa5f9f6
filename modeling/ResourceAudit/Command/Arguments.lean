/-!
# Reading arguments

A form says which options and operands a command line may hold. An option is written
`--name value` or `--name=value`, one with a letter also `-x value`, `-xvalue` or `-x=value`, and
none may be given twice. A value of its own word does not start with a dash, unless it is a dash.
Behind `--` every word is an operand. Words are judged in their order, so a fault in front of a
call for help counts and one behind it does not.
-/

namespace ResourceAudit

/-! ## Errors -/

/-- Why arguments are refused. -/
inductive ArgumentError where
  | unknownOption (word : String)
  | valueMissing (option : String)
  | valueNotTaken (option : String)
  | repeated (option : String)
  | unexpected (word : String)
  | required (what : String)
  | invalid (what value : String)
  | noCommand
  | unknownCommand (word : String)
deriving DecidableEq, Repr

def ArgumentError.message : ArgumentError → String
  | unknownOption word => s!"unexpected argument '{word}' found"
  | valueMissing option => s!"a value is required for '--{option}' but none was supplied"
  | valueNotTaken option => s!"unexpected value for '--{option}' found; no more were expected"
  | repeated option => s!"the argument '--{option}' cannot be used multiple times"
  | unexpected word => s!"unexpected argument '{word}' found"
  | required what => s!"the required argument {what} was not provided"
  | invalid what value => s!"invalid value '{value}' for '{what}'"
  | noCommand => "a subcommand is required but none was provided"
  | unknownCommand word => s!"unrecognized subcommand '{word}'"

/-- Why reading arguments ends before a command is known: they are refused, or they ask for help
or for the version. -/
inductive Halt where
  | refused (error : ArgumentError)
  | help
  | version
deriving DecidableEq, Repr

namespace Arguments

/-! ## Forms -/

/-- An option that a form knows. -/
structure OptionForm where
  name : String
  letter : Option Char
  takesValue : Bool
deriving DecidableEq, Repr

/-- An operand that a form knows, and the words it may be if not every word will do. -/
structure OperandForm where
  name : String
  choices : Option (List String)
deriving DecidableEq, Repr

def OperandForm.admits (o : OperandForm) (word : String) : Bool :=
  match o.choices with
  | none => true
  | some words => words.contains word

/-- What words may stand in a command line. A form of commands ends in front of the first
operand. -/
structure Form where
  options : List OptionForm
  operands : List OperandForm
  leadsToCommand : Bool
deriving DecidableEq, Repr

/-- The options read so far, with their values, and the operands. -/
structure Given where
  options : List (String × String)
  operands : List String
deriving DecidableEq, Repr

namespace Given

def none : Given := ⟨[], []⟩

/-- The value of an option, if it was given. -/
def value? (g : Given) (name : String) : Option String := g.options.lookup name

def has (g : Given) (name : String) : Bool := (g.value? name).isSome

/-- Adds an option, which must be new. -/
def withOption (g : Given) (name value : String) : Except Halt Given :=
  if g.has name then .error (.refused (.repeated name))
  else .ok { g with options := g.options ++ [(name, value)] }

/-- Adds an operand, if the form has room for it and admits it. -/
def withOperand (f : Form) (g : Given) (word : String) : Except Halt Given :=
  match f.operands[g.operands.length]? with
  | .none => .error (.refused (.unexpected word))
  | some o =>
    if o.admits word then .ok { g with operands := g.operands ++ [word] }
    else .error (.refused (.invalid o.name word))

end Given

/-! ## Words -/

/-- What a word is by its spelling. -/
inductive Word where
  | terminator
  | long (name : String) (value? : Option String)
  | short (letter : Char) (value? : Option String)
  | plain
deriving DecidableEq, Repr

/-- The value glued to a letter; an equals sign in front of it does not belong to it. -/
def gluedValue : List Char → Option String
  | [] => none
  | '=' :: value => some (String.ofList value)
  | value => some (String.ofList value)

/-- A name, and the value behind the first equals sign if there is one. -/
def splitLong (s : List Char) : Word :=
  let name := String.ofList (s.takeWhile (· ≠ '='))
  match s.dropWhile (· ≠ '=') with
  | [] => .long name none
  | _ :: value => .long name (some (String.ofList value))

def classify (word : String) : Word :=
  match word.toList with
  | ['-', '-'] => .terminator
  | '-' :: '-' :: rest => splitLong rest
  | '-' :: letter :: rest => .short letter (gluedValue rest)
  | _ => .plain

/-- Whether a word can be the value of the option in front of it. -/
def isValue (word : String) : Bool := classify word = .plain

/-! ## Reading -/

def readOperands (f : Form) (g : Given) (words : List String) : Except Halt Given :=
  words.foldlM (Given.withOperand f) g

/-- The value of an option and the words behind it: its own value, or else the next word. -/
def takeValue (name : String) (own : Option String) (words : List String) :
    Except Halt (String × { rest : List String // rest.length ≤ words.length }) :=
  match own, words with
  | some value, words => .ok (value, ⟨words, Nat.le_refl _⟩)
  | none, word :: rest =>
    if isValue word then .ok (word, ⟨rest, Nat.le_succ _⟩)
    else .error (.refused (.valueMissing name))
  | none, [] => .error (.refused (.valueMissing name))

/-- Reads words; gives also those that a command takes up. -/
def read (f : Form) (g : Given) : List String → Except Halt (Given × List String)
  | [] => .ok (g, [])
  | word :: rest =>
    let option (known : Option OptionForm) (own : Option String) :
        Except Halt (Given × List String) :=
      match known with
      | none => .error (.refused (.unknownOption word))
      | some o =>
        if o.takesValue then
          match takeValue o.name own rest with
          | .error e => .error e
          | .ok (value, ⟨behind, _⟩) =>
            match g.withOption o.name value with
            | .error e => .error e
            | .ok g => read f g behind
        else if own.isSome then .error (.refused (.valueNotTaken o.name))
        else
          match g.withOption o.name "" with
          | .error e => .error e
          | .ok g => read f g rest
    match classify word with
    | .terminator => (readOperands f g rest).map (·, [])
    | .long name own =>
      if name = "help" && own.isNone then .error .help
      else if f.leadsToCommand && name = "version" && own.isNone then .error .version
      else option (f.options.find? fun o => o.name = name) own
    | .short letter own =>
      if letter = 'h' then .error .help
      else if f.leadsToCommand && letter = 'V' then .error .version
      else option (f.options.find? fun o => o.letter = some letter) own
    | .plain =>
      if f.leadsToCommand then .ok (g, word :: rest)
      else
        match g.withOperand f word with
        | .error e => .error e
        | .ok g => read f g rest
termination_by words => words.length
decreasing_by all_goals simp_wf <;> omega

end Arguments

end ResourceAudit
