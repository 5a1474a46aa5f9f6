import ResourceAudit.Files.Host
import ResourceAudit.Files.Tree

/-!
# Worlds

A world is a host that is a value: a tree of files, the place where commands stand in it, what
their environment says, and what its clock shows each time it is read. All its files hold texts and
are open to everyone, and there are no links between them.
-/

namespace ResourceAudit

structure World where
  files : FileTree
  standing : Place
  environment : String → Option String := fun _ => none
  clock : Nat → Timestamp
  readings : Nat

namespace World

def withFiles (w : World) (t : FileTree) : World := { w with files := t }

/-- Keeps a change of the files, or refuses it and leaves the world as it is. -/
def change (f : World → Except FileError FileTree) : StateM World (Except FileError Unit) :=
  fun w =>
    match f w with
    | .ok t => (.ok (), w.withFiles t)
    | .error e => (.error e, w)

def ask {α : Type} (f : World → α) : StateM World α := fun w => (f w, w)

def pathOf (p : Place) : String := "/" ++ "/".intercalate p

/-- The path of the directory where commands stand, as long as it is there. -/
def here (w : World) : Except FileError String :=
  if w.files.node? w.standing = some .directory then .ok (pathOf w.standing) else .error .missing

end World

open World in
instance : Host (StateM World) where
  readText path := ask fun w => w.files.read w.standing path
  writeText path text := change fun w => w.files.write w.standing path text
  makeDirectory path := change fun w => w.files.makeDirectory w.standing path
  isDirectory path := ask fun w => w.files.isDirectory w.standing path
  isPresent path := ask fun w => w.files.isPresent w.standing path
  standing := ask here
  environment name := ask fun w => w.environment name
  now := fun w => (w.clock w.readings, { w with readings := w.readings + 1 })

end ResourceAudit
