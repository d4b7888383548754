import ShellStyle.Report
import ShellStyle.Text.Styled

/-! The report as text: a header, one section for every rule in order, a closing summary. A section says
that its rule is clean or counts the violations and lists their messages. -/
namespace ShellStyle.Report
open Text Text.Styled

def newline : Styled := plain "\n"

def header : Styled := styled .bold "\n=== Function Conventions ===\n" ++ newline

def violations (r : Report) (check : String) : List String :=
  ((r.verdictsFor check).filter (!·.passed)).map (·.message)

def headline (style : Style) (mark check state : String) : Styled :=
  styled style mark ++ plain (" " ++ check ++ ": ") ++ styled style state ++ newline

def ruleSection (check : String) : List String → Styled
  | [] => headline .green "✓" check "clean"
  | messages =>
    headline .red "✗" check (toString messages.length ++ " violation(s)") ++ newline
      ++ messages.flatMap (fun m => plain "  " ++ styled .dimmed m ++ newline) ++ newline

def checkText (r : Report) (check : String) : Styled := ruleSection check (r.violations check)

def closing (r : Report) : Styled × Bool :=
  if r.passed then
    (styled .green ("\nAll " ++ toString r.files ++ " file(s) passed "
      ++ toString Rule.titles.length ++ " check(s).\n"), true)
  else
    (styled .red ("\n" ++ toString r.failingFiles ++ "/" ++ toString r.files
      ++ " file(s) failed with " ++ toString r.failures.length ++ " total violation(s).\n"), false)

def summary (r : Report) : Styled :=
  styled .bold "\n--- Summary ---" ++ newline ++ r.closing.1 ++ newline

def text (r : Report) : Styled := header ++ Rule.titles.flatMap r.checkText ++ r.summary

theorem closingVerdict (r : Report) : r.closing.2 = r.passed := by
  unfold closing
  cases r.passed <;> rfl

end ShellStyle.Report
