/-!
# Paths

A path is a text of names between slashes. It is followed step by step, from the root or from
where its reader stands; a slash at its end asks for a directory.
-/

namespace ResourceAudit

/-! ## Segments -/

namespace Path

def segments : List Char → List (List Char)
  | [] => [[]]
  | c :: rest =>
    if c = '/' then [] :: segments rest
    else
      match segments rest with
      | [] => [[c]]
      | s :: others => (c :: s) :: others

def joinSegments : List (List Char) → List Char
  | [] => []
  | [s] => s
  | s :: others => s ++ '/' :: joinSegments others

theorem segments_ne_nil (s : List Char) : segments s ≠ [] := by
  unfold segments
  split
  · simp
  · split
    · simp
    · split <;> simp

theorem joinSegments_cons {s : List Char} {others : List (List Char)} (h : others ≠ []) :
    joinSegments (s :: others) = s ++ '/' :: joinSegments others := by
  cases others with
  | nil => exact absurd rfl h
  | cons _ _ => rfl

/-! ## Steps -/

/-- A step on the way of a path. -/
inductive Step where
  | stay
  | up
  | down (name : String)
deriving DecidableEq, Repr

/-- The step of a segment; an empty segment is none. -/
def Step.ofSegment? : List Char → Option Step
  | [] => none
  | ['.'] => some .stay
  | ['.', '.'] => some .up
  | name => some (.down (String.ofList name))

end Path

/-- A path as it is followed. -/
structure Path where
  fromRoot : Bool
  steps : List Path.Step
  asksDirectory : Bool
deriving DecidableEq, Repr

namespace Path

/-- The path of a text; an empty text is none. -/
def ofText? (text : String) : Option Path :=
  match text.toList with
  | [] => none
  | c :: rest =>
    some
      { fromRoot := c = '/'
        steps := (segments (c :: rest)).filterMap Step.ofSegment?
        asksDirectory := (c :: rest).getLast? = some '/' }

/-! ## Neighbours of a path -/

/-- Whether a segment behind the first leads nowhere. -/
def isIdle (segment : List Char) : Bool := segment.isEmpty || segment == ['.']

/-- The path without its last name: empty for a single name, and none for the root and for the
empty path. -/
def parent? (text : String) : Option String :=
  match segments text.toList with
  | [] => none
  | first :: others =>
    match others.reverse.dropWhile isIdle with
    | _ :: before =>
      match (before.dropWhile isIdle).reverse with
      | [] => some (if first.isEmpty then "/" else String.ofList first)
      | kept => some (String.ofList (joinSegments (first :: kept)))
    | [] => if first.isEmpty then none else some ""

/-- The path and the paths above it, the nearest first, up to the root or the empty path. The
number bounds how many. -/
def chainUp : Nat → String → List String
  | 0, _ => []
  | n + 1, text =>
    if text.isEmpty then []
    else
      match parent? text with
      | none => [text]
      | some above => text :: chainUp n above

/-- The path and the paths above it, the nearest first. There is one for each segment at most. -/
def withAncestors (text : String) : List String := chainUp (segments text.toList).length text

def join (directory name : String) : String :=
  if directory.isEmpty || directory.toList.getLast? = some '/' then directory ++ name
  else directory ++ "/" ++ name

/-- The last segment that leads anywhere, or else the first. -/
def lastName (text : String) : String :=
  match segments text.toList with
  | [] => ""
  | first :: others => String.ofList ((others.reverse.dropWhile isIdle).headD first)

end Path

end ResourceAudit
