import ShellStyle.Arguments
import ShellStyle.Environment
import ShellStyle.Lint
import ShellStyle.Report.Document
import ShellStyle.Report.Text

/-! The whole program as a function of its arguments, its environment and the disk. It ends with 0 if every
rule holds for every file, with 1 if one is broken and with 2 if there is no report. -/
namespace ShellStyle

structure Exit where
  code : Nat
  out : String
  log : List String
  complaint : String
  deriving DecidableEq, Repr

/- Standard error, where `stamp` says what stands for the n-th line of the log. -/
def Exit.written (e : Exit) (stamp : Nat → String → String) : String :=
  String.join (e.log.mapIdx fun n line => stamp n line ++ "\n") ++ e.complaint

def Exit.err (e : Exit) : String := e.written fun _ line => line

namespace Command

def resolve (disk : Disk) (a : Arguments) : Except Failure Settings :=
  let found := match a.rootDir with
    | some root => Settings.load disk root
    | none => Settings.discover disk
  match found with
  | .error failure => .error failure
  | .ok settings => .ok (if a.folders = [] then settings else settings.withFolders a.folders)

def examine (disk : Disk) (a : Arguments) : List Event × Except Failure Report :=
  match resolve disk a with
  | .error failure => ([], .error failure)
  | .ok settings =>
    let run := settings.lint disk
    (.resolved settings.root settings.folders :: run.1, run.2)

def output (colour : Bool) (a : Arguments) (r : Report) : String × Bool :=
  if a.json then (r.document ++ "\n", r.passed)
  else (Text.Styled.render colour r.text, r.closing.2)

def stop (env : Environment) : Arguments.Stop → Exit
  | .help => ⟨0, Arguments.shown (env.coloursMessage env.terminal) Arguments.help, [], ""⟩
  | .version => ⟨0, Arguments.versionText, [], ""⟩
  | .refused refusal =>
    ⟨2, "", [], Arguments.shown (env.coloursMessage env.errorTerminal) refusal.complaint⟩

def finish (env : Environment) (a : Arguments) (events : List Event) :
    Except Failure Report → Exit
  | .error failure => ⟨2, "", lines, "Error: " ++ failure.message ++ "\n"⟩
  | .ok report =>
    let shown := output env.colours a report
    ⟨if shown.2 then 0 else 1, shown.1, lines, ""⟩
where
  lines := (events.filter (env.logFilter a.verbose)).map (Event.line env.coloursLog)

def run (disk : Disk) (env : Environment) (arguments : List String) : Exit :=
  match Arguments.parse arguments with
  | .error reason => stop env reason
  | .ok a => finish env a (examine disk a).1 (examine disk a).2

def asked (disk : Disk) (a : Arguments) : List Path :=
  let roots := match a.rootDir, disk.current with
    | some root, _ => [root]
    | none, .ok start => start.chain
    | none, .error _ => []
  let markers := roots.flatMap fun dir => [dir.join Settings.fileName, dir.join Settings.repository]
  match resolve disk a with
  | .error _ => markers
  | .ok settings =>
    let folders := settings.folders.map fun folder => settings.root.join (Path.ofString folder)
    let files := folders.flatMap fun path =>
      match disk.entries path with
      | .error _ => []
      | .ok entries =>
        ((entries.filterMap Entry.name?).filter fun raw =>
          Script.isCandidate (Text.Utf8.decodeLossy raw)).map fun raw => path.join ⟨raw⟩
    markers ++ folders ++ files

theorem outputVerdict (colour : Bool) (a : Arguments) (r : Report) :
    (output colour a r).2 = r.passed := by
  unfold output
  cases a.json with
  | false => exact r.closingVerdict
  | true => rfl

end Command

end ShellStyle
