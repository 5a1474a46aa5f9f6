import ResourceAudit.Command.Run
import ResourceAudit.Command.Upkeep
import Std.Time.DateTime

/-!
# The programs

The system as a host, and the two programs on it: the audit, and the tasks for maintainers under
their own name.
-/

namespace ResourceAudit

/-! ## The system as a host -/

/-- The number of an error, which some calls give with its sign turned. -/
def errorNumber (code : UInt32) : Nat :=
  if code.toNat < UInt32.size / 2 then code.toNat else UInt32.size - code.toNat

/-- The error that the system reports. A text that cannot be decoded has no number of its own. -/
def FileError.ofSystem (e : IO.Error) : FileError :=
  let coded (code : UInt32) (text : String) : FileError :=
    match errorNumber code with
    | 2 => .missing
    | 17 => .alreadyThere
    | 20 => .notDirectory
    | 21 => .isDirectory
    | n => .other n text.capitalize
  match e with
  | .alreadyExists _ code text | .otherError code text | .resourceBusy code text
  | .resourceVanished code text | .unsupportedOperation code text | .hardwareFault code text
  | .unsatisfiedConstraints code text | .illegalOperation code text | .protocolError code text
  | .timeExpired code text | .interrupted _ code text | .noFileOrDirectory _ code text
  | .invalidArgument _ code text | .permissionDenied _ code text
  | .resourceExhausted _ code text | .inappropriateType _ code text
  | .noSuchThing _ code text => coded code text
  | .unexpectedEof | .userError _ => .notText

namespace Console

def attempt {α : Type} (action : IO α) : IO (Except FileError α) :=
  try return .ok (← action)
  catch e => return .error (.ofSystem e)

def succeeds {α : Type} (action : IO α) : IO Bool := do return (← attempt action).isOk

/-- What the clock of the system shows, in UTC. -/
def clock : IO Timestamp := do
  let instant ← Std.Time.Timestamp.now
  let t := Std.Time.PlainDateTime.ofWallTime (.ofDuration instant.val)
  let spelled : Timestamp.Spelled :=
    { year := t.year.toInt.toNat
      month := t.month.val.toNat
      day := t.day.val.toNat
      hour := t.hour.val.toNat
      minute := t.minute.val.toNat
      second := t.second.val.toNat
      nanosecond := t.nanosecond.val.toNat
      offset := 0 }
  return (Timestamp.ofSpelled spelled).toOption.getD .epoch

end Console

open Console in
instance : Host IO where
  readText path := attempt (IO.FS.readFile path)
  writeText path text := attempt (IO.FS.writeFile path text)
  makeDirectory path := attempt (IO.FS.createDir path)
  isDirectory path := if path.isEmpty then return false else succeeds (IO.FS.realPath (path ++ "/."))
  isPresent path := succeeds (IO.FS.realPath path)
  standing := attempt do return toString (← IO.currentDir)
  environment name := IO.getEnv name
  now := clock

/-- Writes what a command had to say, and gives its exit code. -/
def Exit.deliver (e : Exit) : IO UInt32 := do
  IO.print e.output
  IO.eprint e.errors
  return e.code.toUInt32

end ResourceAudit

open ResourceAudit in
/-- Runs the audit, or the tasks where the program goes by their name. -/
def main (words : List String) : IO UInt32 := do
  if Path.lastName (toString (← IO.appPath)) = "xtask" then (← Upkeep.runWords words).deliver
  else (← Command.runWords .full words).deliver
