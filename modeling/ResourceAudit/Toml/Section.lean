import ResourceAudit.Dictionary
import ResourceAudit.Json.Basic
import ResourceAudit.Toml.Basic

/-!
# Sections of a TOML document

The tables of a document while it is read. Headers and dotted keys open tables on their way. A
table that was only passed belongs to the first header that names it or the first dotted key that
enters it; from then on keys are only added in the same way. Every key is set once.
-/

namespace ResourceAudit.Toml

/-- How a table came to be: on the way to the table of a header, on the way to a dotted key, or
by its own header. -/
inductive Origin where
  | passed
  | dotted
  | header
deriving DecidableEq, Repr

/-- What stands under a key: a value, which is closed, a table, or a list of tables of which the
last is open. -/
inductive Section where
  | value (value : Toml)
  | table (origin : Origin) (entries : List (String × Section))
  | tables (items : List (List (String × Section)))
deriving Repr

abbrev Sections := List (String × Section)

/-! ## Descending -/

/-- What a table becomes when a key or header enters it on its way. A dotted key may not enter a
table with a header of its own, and takes over one that was only passed. -/
def Origin.enter? (way : Origin) : Origin → Option Origin
  | header => if way = dotted then none else some header
  | passed => some way
  | dotted => some dotted

/-- Changes the table at the end of a path, opening tables on the way. -/
def within (way : Origin) (f : Origin → Sections → Option Sections) :
    List String → Origin → Sections → Option Sections
  | [], origin, entries => f origin entries
  | key :: path, _, entries =>
    match Json.find? key entries with
    | none => do
      let inner ← within way f path way []
      some (Json.put key (.table way inner) entries)
    | some (.table origin inner) => do
      let origin ← way.enter? origin
      let inner ← within way f path origin inner
      some (Json.put key (.table origin inner) entries)
    | some (.tables items) =>
      match items.reverse with
      | [] => none
      | last :: earlier => do
        let last ← within way f path .header last
        some (Json.put key (.tables (last :: earlier).reverse) entries)
    | some (.value _) => none

/-! ## Definitions -/

def addKey (key : String) (value : Toml) (isDotted : Bool) (origin : Origin)
    (entries : Sections) : Option Sections :=
  if (origin == .dotted) != isDotted then none
  else
    match Json.find? key entries with
    | some _ => none
    | none => some (Json.put key (.value value) entries)

def addDotted (path : List String) (key : String) (value : Toml) (origin : Origin)
    (entries : Sections) : Option Sections :=
  within .dotted (addKey key value !path.isEmpty) path origin entries

def addUnder (header path : List String) (key : String) (value : Toml) (entries : Sections) :
    Option Sections :=
  within .passed (addDotted path key value) header .header entries

/-- Opens the table of a header. One that was only passed becomes its table. -/
def openTable (path : List String) (key : String) (entries : Sections) : Option Sections :=
  within .passed (fun _ inner =>
    match Json.find? key inner with
    | none => some (Json.put key (.table .header []) inner)
    | some (.table .passed known) => some (Json.put key (.table .header known) inner)
    | some _ => none) path .header entries

def openItem (path : List String) (key : String) (entries : Sections) : Option Sections :=
  within .passed (fun _ inner =>
    match Json.find? key inner with
    | none => some (Json.put key (.tables [[]]) inner)
    | some (.tables items) => some (Json.put key (.tables (items ++ [[]])) inner)
    | some _ => none) path .header entries

/-! ## Closing -/

mutual
def Section.close : Section → Toml
  | .value v => v
  | .table _ entries => .table (closeEntries entries)
  | .tables items => .list (closeItems items)
/-- The entries of a table, closed, in the order of their keys. -/
def closeEntries : List (String × Section) → List (String × Toml)
  | [] => []
  | (key, s) :: rest => Dictionary.insertEntry key s.close (closeEntries rest)
/-- The tables of a list, closed. -/
def closeItems : List (List (String × Section)) → List Toml
  | [] => []
  | entries :: rest => .table (closeEntries entries) :: closeItems rest
end

end ResourceAudit.Toml
