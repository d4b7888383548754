import ShellStyle.Rule

/-! Every verdict of one run and the number of files seen. `outcomes` gathers the verdicts by folder and
file into a list that is sorted by the bytes of these two. -/
namespace ShellStyle
open Text

structure Outcome where
  passed : Nat
  failed : List String
  deriving DecidableEq, Repr

namespace Outcome

def empty : Outcome := ⟨0, []⟩

def add (o : Outcome) (v : Verdict) : Outcome :=
  if v.passed then { o with passed := o.passed + 1 } else { o with failed := o.failed ++ [v.check] }

def clean (o : Outcome) : Bool := o.failed.isEmpty

end Outcome

structure Owner where
  folder : String
  file : String
  deriving DecidableEq, Repr

namespace Owner

def before (a b : Owner) : Bool :=
  if a.folder = b.folder then Utf8.encode a.file < Utf8.encode b.file
  else Utf8.encode a.folder < Utf8.encode b.folder

end Owner

def Verdict.owner (v : Verdict) : Owner := ⟨v.folder, v.file⟩

structure Report where
  verdicts : List Verdict
  files : Nat
  deriving DecidableEq, Repr

namespace Report

def empty : Report := ⟨[], 0⟩

def add (r : Report) (s : Script) : Report := ⟨r.verdicts ++ s.verdicts, r.files + 1⟩

def passed (r : Report) : Bool := r.verdicts.all (·.passed)

def failures (r : Report) : List Verdict := r.verdicts.filter (!·.passed)

def verdictsFor (r : Report) (check : String) : List Verdict :=
  r.verdicts.filter (·.check == check)

def record (v : Verdict) : List (Owner × Outcome) → List (Owner × Outcome)
  | [] => [(v.owner, Outcome.empty.add v)]
  | (k, o) :: rest =>
    if v.owner = k then (k, o.add v) :: rest
    else if v.owner.before k then (v.owner, Outcome.empty.add v) :: (k, o) :: rest
    else (k, o) :: record v rest

def outcomes (r : Report) : List (Owner × Outcome) := r.verdicts.foldl (fun m v => record v m) []

def cleanFiles (r : Report) : Nat := (r.outcomes.filter (·.2.clean)).length

def failingFiles (r : Report) : Nat := (r.outcomes.filter (!·.2.clean)).length

theorem passedIff {r : Report} : r.passed = true ↔ r.failures = [] := by
  simp [passed, failures, List.filter_eq_nil_iff]

end Report

end ShellStyle
