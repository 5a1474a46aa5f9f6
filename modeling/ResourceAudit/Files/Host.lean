import ResourceAudit.Files.Error
import ResourceAudit.Files.Path
import ResourceAudit.Timestamp

/-!
# Hosts

What commands ask of the system they run on: files, a place to stand, an environment and a clock.
-/

namespace ResourceAudit

/-- A system with files, an environment and a clock. -/
class Host (m : Type → Type) where
  /-- The text of a file. -/
  readText : String → m (Except FileError String)
  /-- Writes a file, a new one or over an old one. -/
  writeText : String → String → m (Except FileError Unit)
  /-- Makes a directory in one that is there. -/
  makeDirectory : String → m (Except FileError Unit)
  /-- Whether a path leads to a directory. -/
  isDirectory : String → m Bool
  /-- Whether a path leads anywhere. -/
  isPresent : String → m Bool
  /-- The directory from which paths are followed. -/
  standing : m (Except FileError String)
  /-- What the environment says under a name. -/
  environment : String → m (Option String)
  /-- The time. -/
  now : m Timestamp

namespace Host

variable {m : Type → Type} [Monad m] [Host m]

/-- Makes a directory, unless there is one already. -/
def settle (path : String) : m (Except FileError Unit) := do
  match ← makeDirectory path with
  | .ok () => return .ok ()
  | .error e => if ← isDirectory path then return .ok () else return .error e

/-- Makes the first of some directories, each inside the next: the ones further up only if one
is missing. -/
def makeChain : List String → m (Except FileError Unit)
  | [] => return .ok ()
  | path :: above => do
    match ← settle path with
    | .error .missing =>
      match ← makeChain above with
      | .ok () => settle path
      | .error e => return .error e
    | other => return other

/-- Makes a directory and those above it, as far as they are missing. -/
def makeDirectories (path : String) : m (Except FileError Unit) :=
  makeChain (Path.withAncestors path)

end Host

end ResourceAudit
