/-!
# Errors of a file system
-/

namespace ResourceAudit

/-- Why an operation on files was refused. -/
inductive FileError where
  | missing
  | alreadyThere
  | notDirectory
  | isDirectory
  | notText
  | other (code : Nat) (text : String)
deriving DecidableEq, Repr

namespace FileError

/-- What the system says, with its number for the error. -/
def systemText (text : String) (code : Nat) : String := s!"{text} (os error {code})"

def message : FileError → String
  | missing => systemText "No such file or directory" 2
  | alreadyThere => systemText "File exists" 17
  | notDirectory => systemText "Not a directory" 20
  | isDirectory => systemText "Is a directory" 21
  | notText => "stream did not contain valid UTF-8"
  | other code text => systemText text code

end FileError

end ResourceAudit
