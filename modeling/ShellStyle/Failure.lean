import ShellStyle.Disk

/-! What ends a run before its report: a folder that cannot be listed, a file that cannot be read, settings
that cannot be used, a project root that is not found. A broken rule is no failure. -/
namespace ShellStyle

inductive Failure where
  | folder (folder : String) (path : Path) (cause : Cause)
  | file (folder file : String) (cause : Cause)
  | settings (path : Path) (reason : String)
  | rootNotFound (start : Path)
  deriving DecidableEq, Repr

namespace Failure

def message : Failure → String
  | .folder name path cause =>
    "cannot list folder `" ++ name ++ "` (" ++ path.display ++ "): " ++ cause.message
  | .file holder name cause =>
    "cannot read " ++ holder ++ "/" ++ name ++ " as text: " ++ cause.message
  | .settings path reason => "cannot load config " ++ path.display ++ ": " ++ reason
  | .rootNotFound start =>
    "could not find project root (no fn-lint.toml or .git above " ++ start.display
      ++ "); pass --root-dir"

def cause? : Failure → Option Cause
  | .folder _ _ cause | .file _ _ cause => some cause
  | .settings .. | .rootNotFound _ => none

end Failure

end ShellStyle
