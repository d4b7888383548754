import ShellStyle.Script
import ShellStyle.Text.Search

/-! The three conventions and the verdict on one file. Every rule is judged, whatever the others say, and
a broken rule's message names the rule and the way to mend the file. -/
namespace ShellStyle

structure Verdict where
  folder : String
  file : String
  check : String
  passed : Bool
  message : String
  deriving DecidableEq, Repr

inductive Rule where
  | shebang | helpFlag | hyphens
  deriving DecidableEq, Repr

namespace Rule

def all : List Rule := [shebang, helpFlag, hyphens]

def title : Rule → String
  | shebang => "Shebang line"
  | helpFlag => "Help parameter"
  | hyphens => "Filename hyphens"

def titles : List String := all.map title

def hasShebang (text : String) : Bool := ['#', '!'].isPrefixOf text.toList

def mentionsHelp (text : String) : Bool :=
  Text.occurs ['-', 'h'] text.toList || Text.occurs ['-', '-', 'h', 'e', 'l', 'p'] text.toList

def isHyphenated (name : String) : Bool := !name.toList.contains '_'

def hyphenated (name : String) : String :=
  String.ofList (name.toList.map fun c => if c = '_' then '-' else c)

def holds (rule : Rule) (s : Script) : Bool :=
  match rule with
  | shebang => hasShebang s.text
  | helpFlag => mentionsHelp s.text
  | hyphens => isHyphenated s.name

def praise (rule : Rule) (s : Script) : String :=
  match rule with
  | shebang => s.title ++ " has a shebang line."
  | helpFlag => s.title ++ " has a help parameter."
  | hyphens => s.title ++ " uses no underscores."

def advice (rule : Rule) (s : Script) : String :=
  match rule with
  | shebang =>
    s.title ++ " is missing a shebang line."
      ++ "\n    Rule: Every function file must start with an interpreter line such as #!/usr/bin/env bash."
      ++ "\n    Fix: Add the shebang as the very first line, with nothing before it."
  | helpFlag =>
    s.title ++ " is missing help parameter."
      ++ "\n    Rule: Every function must handle -h or --help."
      ++ "\n    Fix: Add a usage branch, e.g. [[ \"$1\" == \"-h\" || \"$1\" == \"--help\" ]] && usage."
  | hyphens =>
    s.title ++ " contains underscore(s) instead of hyphen(s)."
      ++ "\n    Rule: Function file names separate words with hyphens."
      ++ "\n    Fix: Rename the file to " ++ s.folder ++ "/" ++ hyphenated s.name ++ "."

def judge (rule : Rule) (s : Script) : Verdict where
  folder := s.folder
  file := s.name
  check := rule.title
  passed := rule.holds s
  message := if rule.holds s then rule.praise s else rule.advice s

theorem titleInjective {a b : Rule} (h : a.title = b.title) : a = b := by
  cases a <;> cases b <;> simp_all [title]

theorem hyphenatedHolds (name : String) : isHyphenated (hyphenated name) = true := by
  simp only [isHyphenated, hyphenated, String.toList_ofList, Bool.not_eq_true', ← Bool.not_eq_true,
    List.contains_iff_mem, List.mem_map, not_exists, not_and]
  intro c _
  split <;> simp_all

end Rule

def Script.verdicts (s : Script) : List Verdict := Rule.all.map (·.judge s)

theorem Script.verdictsLength (s : Script) : s.verdicts.length = 3 := rfl

end ShellStyle
