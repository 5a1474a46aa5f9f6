/-!
# JSON trees

A tree keeps the members of an object in document order, repeated keys included. `Json.plain`
is the tree in which every key occurs once: at the place of its first member, with the value of
its last.
-/

namespace ResourceAudit

/-- A JSON number: exact where the text spells an integer of 64 bits, else a double. -/
inductive Number where
  | int (value : Int)
  | float (value : Float)
deriving DecidableEq, Repr

/-- A JSON document. -/
inductive Json where
  | null
  | bool (value : Bool)
  | number (value : Number)
  | string (value : String)
  | list (items : List Json)
  | object (members : List (String × Json))
deriving Repr, BEq, Inhabited

namespace Json

/-! ## Kinds -/

/-- What a value is, its content aside. -/
inductive Kind where
  | null
  | boolean
  | number
  | string
  | list
  | object
deriving DecidableEq, Repr

def kind : Json → Kind
  | null => .null
  | bool _ => .boolean
  | number _ => .number
  | string _ => .string
  | list _ => .list
  | object _ => .object

def Kind.phrase : Kind → String
  | .null => "null"
  | .boolean => "a boolean"
  | .number => "a number"
  | .string => "a string"
  | .list => "a list"
  | .object => "an object"

/-- The characters that may stand between the parts of a text. -/
def isSpace (c : Char) : Bool := c == ' ' || c == '\t' || c == '\n' || c == '\r'

/-! ## Members -/

def find? {α : Type} (key : String) : List (String × α) → Option α
  | [] => none
  | (k, v) :: rest => if k = key then some v else find? key rest

/-- Sets the value of a key: in place where the key occurs, else behind the last member. -/
def put {α : Type} (key : String) (value : α) : List (String × α) → List (String × α)
  | [] => [(key, value)]
  | (k, v) :: rest => if k = key then (k, value) :: rest else (k, v) :: put key value rest

def putAll {α : Type} (members : List (String × α)) : List (String × α) :=
  members.foldl (fun acc m => put m.1 m.2 acc) []

/-- The value under a key, for an object. -/
def field? (key : String) : Json → Option Json
  | object members => find? key members
  | _ => none

/-- The member of a value, left out where there is none. -/
def optionalMember {α : Type} (key : String) (encode : α → Json) : Option α → List (String × Json)
  | some a => [(key, encode a)]
  | none => []

/-! ## One member for each key -/

mutual
/-- The tree in which every key of an object occurs once, with its last value. -/
def plain : Json → Json
  | list items => list (plainItems items)
  | object members => object (putAll (plainMembers members))
  | other => other
/-- `plain` on each item. -/
def plainItems : List Json → List Json
  | [] => []
  | j :: rest => j.plain :: plainItems rest
/-- `plain` on the value of each member. -/
def plainMembers : List (String × Json) → List (String × Json)
  | [] => []
  | (k, j) :: rest => (k, j.plain) :: plainMembers rest
end

theorem plainItems_eq_map (items : List Json) : plainItems items = items.map plain := by
  induction items with
  | nil => rfl
  | cons j rest ih => simp [plainItems, ih]

theorem plainMembers_eq_map (members : List (String × Json)) :
    plainMembers members = members.map fun m => (m.1, m.2.plain) := by
  induction members with
  | nil => rfl
  | cons m rest ih => simp [plainMembers, ih]

end Json

end ResourceAudit
