import ShellStyle.Report
import ShellStyle.Scan
import ShellStyle.Settings

/-! One run over all folders: every file found is judged by every rule, and the first failure of the scan
ends the run without a report. The events tell what was done in its order. -/
namespace ShellStyle

def Script.failed (s : Script) : Nat := (s.verdicts.filter (!·.passed)).length

namespace Report

def finished (r : Report) : Event := .finished r.files r.failures.length

def gather : List Turn → Report → List Event × Except Failure Report
  | [], r => ([r.finished], .ok r)
  | turn :: rest, r =>
    match turn.found with
    | none => (turn.events ++ [r.finished], .ok r)
    | some (.error failure) => (turn.events, .error failure)
    | some (.ok s) =>
      let later := gather rest (r.add s)
      (turn.events ++ .checked s.folder s.name s.failed :: later.1, later.2)

end Report

def Settings.lint (disk : Disk) (s : Settings) : List Event × Except Failure Report :=
  Report.gather ((Scan.start s.root s.folders).turns disk) Report.empty

end ShellStyle
