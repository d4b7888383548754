import ShellStyle.Path

/-! A file under test, loaded when it was found. Its name alone decides whether it is tested: a dot anywhere
or an underscore in front sets a file aside. -/
namespace ShellStyle

structure Script where
  folder : String
  name : String
  path : Path
  text : String
  deriving DecidableEq, Repr

namespace Script

def isCandidate (name : String) : Bool :=
  !name.toList.contains '.' && name.toList.head? != some '_'

theorem isCandidateIff {name : String} :
    isCandidate name = true ↔ '.' ∉ name.toList ∧ name.toList.head? ≠ some '_' := by
  simp [isCandidate]

def title (s : Script) : String := s.folder ++ "/" ++ s.name

end Script

end ShellStyle
