import ResourceAudit.Files.Error
import ResourceAudit.Files.Path

/-!
# File trees

A tree holds directories and files of text, each at its place: the list of names that leads to it
from the root. The root is always there. A path is followed through directories only.
-/

namespace ResourceAudit

/-- The names that lead to a file or directory from the root. -/
abbrev Place := List String

/-- What stands at a place. -/
inductive Node where
  | directory
  | file (text : String)
deriving DecidableEq, Repr

/-- Files and directories by place. -/
structure FileTree where
  nodes : List (Place × Node)
deriving DecidableEq, Repr

namespace FileTree

def empty : FileTree := ⟨[]⟩

def nodeIn (p : Place) : List (Place × Node) → Option Node
  | [] => none
  | (q, n) :: rest => if q = p then some n else nodeIn p rest

def node? (t : FileTree) (p : Place) : Option Node :=
  if p = [] then some .directory else nodeIn p t.nodes

def without (p : Place) : List (Place × Node) → List (Place × Node)
  | [] => []
  | e :: rest => if e.1 = p then without p rest else e :: without p rest

/-- Sets what stands at a place, the root apart. -/
def set (t : FileTree) (p : Place) (n : Node) : FileTree := ⟨(p, n) :: without p t.nodes⟩

theorem nodeIn_without {p q : Place} (h : q ≠ p) (es : List (Place × Node)) :
    nodeIn q (without p es) = nodeIn q es := by
  induction es with
  | nil => rfl
  | cons e rest ih =>
    by_cases hk : e.1 = p
    · have hq : e.1 ≠ q := fun he => h (he ▸ hk)
      simp [without, nodeIn, hk, hk ▸ hq, ih]
    · simp [without, nodeIn, hk, ih]

/-- The tree after a change differs from the one before at the changed place only. -/
theorem node?_set (t : FileTree) (p q : Place) (n : Node) :
    (t.set p n).node? q =
      if q = [] then some .directory else if q = p then some n else t.node? q := by
  unfold node?
  split
  · rfl
  · split
    · rename_i h
      simp [set, nodeIn, h]
    · rename_i h
      simp [set, nodeIn, Ne.symm h, nodeIn_without h]

/-! ## Following paths -/

/-- The place where steps lead from a place. Only a directory can be left. -/
def follow (t : FileTree) (p : Place) : List Path.Step → Except FileError Place
  | [] => .ok p
  | step :: rest =>
    if t.node? p ≠ some .directory then .error .notDirectory
    else
      match step with
      | .stay => t.follow p rest
      | .up => t.follow p.dropLast rest
      | .down name =>
        if (t.node? (p ++ [name])).isSome then t.follow (p ++ [name]) rest
        else .error .missing

def followToDirectory (t : FileTree) (p : Place) (steps : List Path.Step) :
    Except FileError Place := do
  let q ← t.follow p steps
  if t.node? q = some .directory then return q else throw .notDirectory

/-- Where something can be made: a name in a directory, or a place that is a directory
already. -/
inductive Site where
  | directory
  | name (place : Place)
deriving DecidableEq, Repr

def site (t : FileTree) (p : Place) (steps : List Path.Step) : Except FileError Site :=
  match steps.getLast? with
  | none => .ok .directory
  | some (.down name) =>
    (t.followToDirectory p steps.dropLast).map fun q => .name (q ++ [name])
  | some _ => (t.followToDirectory p steps.dropLast).map fun _ => .directory

/-! ## Operations -/

def start (standing : Place) (path : Path) : Place := if path.fromRoot then [] else standing

/-- What stands at the end of a path. A file does not if the path asks for a directory. -/
def look (t : FileTree) (standing : Place) (text : String) : Except FileError Node :=
  match Path.ofText? text with
  | none => .error .missing
  | some path =>
    match t.follow (start standing path) path.steps with
    | .error e => .error e
    | .ok p =>
      match t.node? p with
      | none => .error .missing
      | some .directory => .ok .directory
      | some (.file content) =>
        if path.asksDirectory then .error .notDirectory else .ok (.file content)

def read (t : FileTree) (standing : Place) (text : String) : Except FileError String :=
  match t.look standing text with
  | .error e => .error e
  | .ok .directory => .error .isDirectory
  | .ok (.file content) => .ok content

def target (t : FileTree) (standing : Place) (text : String) : Except FileError Place :=
  match Path.ofText? text with
  | none => .error .missing
  | some path =>
    match t.site (start standing path) path.steps with
    | .error e => .error e
    | .ok .directory => .error .isDirectory
    | .ok (.name p) =>
      if path.asksDirectory || t.node? p = some .directory then .error .isDirectory else .ok p

/-- Writes a file, a new one or over an old one. -/
def write (t : FileTree) (standing : Place) (text content : String) :
    Except FileError FileTree :=
  (t.target standing text).map fun p => t.set p (.file content)

def makeDirectory (t : FileTree) (standing : Place) (text : String) :
    Except FileError FileTree :=
  match Path.ofText? text with
  | none => .error .missing
  | some path =>
    match t.site (start standing path) path.steps with
    | .error e => .error e
    | .ok .directory => .error .alreadyThere
    | .ok (.name p) =>
      if (t.node? p).isSome then .error .alreadyThere else .ok (t.set p .directory)

def isDirectory (t : FileTree) (standing : Place) (text : String) : Bool :=
  match t.look standing text with
  | .ok .directory => true
  | _ => false

def isPresent (t : FileTree) (standing : Place) (text : String) : Bool :=
  (t.look standing text).isOk

end FileTree

end ResourceAudit
