import Std.Time.DateTime.Timestamp
import ShellStyle.Command
import ShellStyle.Timestamp

/-! The program: it looks at the paths that the run asks about, lets the run answer from these observations
and prints what it gives. The run asks for more as it learns more, first the settings, then the folders,
then the files. -/
namespace ShellStyle

def codeAndText : IO.Error → UInt32 × String
  | .alreadyExists _ code text | .invalidArgument _ code text | .permissionDenied _ code text
  | .resourceExhausted _ code text | .inappropriateType _ code text | .noSuchThing _ code text
  | .interrupted _ code text | .noFileOrDirectory _ code text | .otherError code text
  | .resourceBusy code text | .resourceVanished code text | .unsupportedOperation code text
  | .hardwareFault code text | .unsatisfiedConstraints code text | .illegalOperation code text
  | .protocolError code text | .timeExpired code text => (code, text)
  | .unexpectedEof => (0, "unexpected end of file")
  | .userError text => (0, text)

/- Error numbers come with either sign. -/
def causeOf (e : IO.Error) : Cause :=
  let (code, text) := codeAndText e
  match if code < 0x80000000 then code.toNat else 0x100000000 - code.toNat with
  | 0 => .other text
  | 2 => .notFound
  | 13 => .permissionDenied
  | 20 => .notDirectory
  | 21 => .isDirectory
  | 36 => .nameTooLong
  | 40 => .tooManyLinks
  | number => .other (text ++ " (os error " ++ toString number ++ ")")

def attempt {α : Type} (act : IO α) : IO (Except Cause α) := do
  match ← act.toBaseIO with
  | .ok value => return .ok value
  | .error e => return .error (causeOf e)

/- A name that is no text is listed with U+FFFD in it, and keeps there a byte that belongs to no text. -/
def rawName (listed : String) : Name :=
  listed.toList.flatMap fun c => if c = '\uFFFD' then [0xFF] else String.utf8EncodeChar c

def unnameable : Cause := .other "file name is not text"

/- A path that is no text is refused here and not looked up under the name that it is shown by. -/
def observe (p : Path) : IO Observation := do
  if Path.ofString p.display ≠ p then
    return ⟨.error unnameable, .error unnameable, .error unnameable⟩
  let file := System.mkFilePath [p.display]
  let kind : Except Cause Kind ← attempt do
    match (← file.metadata).type with
    | .file => return .file
    | .dir => return .directory
    | _ => return .special
  let bytes ← match kind with
    | .ok .file => attempt (return (← IO.FS.readBinFile file).toList)
    | .ok _ => pure (.error .isDirectory)
    | .error cause => pure (.error cause)
  let entries ← attempt do
    return (← file.readDir).toList.map fun entry => Entry.name (rawName entry.fileName)
  return ⟨kind, bytes, entries⟩

def learn (current : Except Cause Path) (a : Arguments) (known : Snapshot) : IO Snapshot := do
  let mut known := known
  for p in Command.asked (known.disk current) a do
    if (known.lookup p).isNone then
      known := (p, ← observe p) :: known
  return known

def environment : IO Environment := do
  let mut values : List (String × String) := []
  for name in Environment.names do
    if let some value ← IO.getEnv name then
      values := (name, value) :: values
  let terminal ← (← IO.getStdout).isTty
  let errorTerminal ← (← IO.getStderr).isTty
  return { get? := fun name => values.lookup name, terminal := terminal, errorTerminal := errorTerminal }

def now : IO String := do
  let moment ← Std.Time.Timestamp.now
  return Timestamp.text (moment.toNanosecondsSinceUnixEpoch.val.toNat / 1000)

def report (env : Environment) (e : Exit) : IO UInt32 := do
  let mut moments : Array String := #[]
  for _ in e.log do
    moments := moments.push (← now)
  (← IO.getStderr).putStr (e.written fun n => Event.stamped env.coloursLog (moments.getD n ""))
  (← IO.getStdout).putStr e.out
  return e.code.toUInt32

def program (arguments : List String) : IO UInt32 := do
  let env ← environment
  match Arguments.parse arguments with
  | .error _ => report env (Command.run (Snapshot.disk (.error .notFound) []) env arguments)
  | .ok a =>
    let current ← attempt do return Path.ofString (← IO.currentDir).toString
    let settings ← learn current a []
    let folders ← learn current a settings
    let files ← learn current a folders
    report env (Command.run (files.disk current) env arguments)

end ShellStyle

def main (arguments : List String) : IO UInt32 := ShellStyle.program arguments
