/-!
# TOML values

The values that a TOML document can hold. A date or time is kept as its text; a float that no
double comes near is kept as none. The entries of a table stand in the order of their keys.
-/

namespace ResourceAudit

/-- A value of a TOML document. -/
inductive Toml where
  | string (value : String)
  | integer (value : Int)
  | float (value : Option Float)
  | boolean (value : Bool)
  | moment (text : String)
  | list (items : List Toml)
  | table (entries : List (String × Toml))
deriving Repr, BEq

namespace Toml

mutual
/-- Whether all in a value, lists and tables aside, has a property. -/
def all (p : Toml → Bool) : Toml → Bool
  | list items => allItems p items
  | table entries => allEntries p entries
  | value => p value
/-- Whether all in the items of a list has a property. -/
def allItems (p : Toml → Bool) : List Toml → Bool
  | [] => true
  | v :: rest => v.all p && allItems p rest
/-- Whether all in the entries of a table has a property. -/
def allEntries (p : Toml → Bool) : List (String × Toml) → Bool
  | [] => true
  | (_, v) :: rest => v.all p && allEntries p rest
end

end Toml

end ResourceAudit
