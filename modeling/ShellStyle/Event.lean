import ShellStyle.Path
import ShellStyle.Text.Quoted

/-! The log of a run: one event for the settings, one for every folder that is opened, file that is read
and file that is checked, and one for the end. An event is written on one line behind its level, with
its fields after its name. -/
namespace ShellStyle
open Text

inductive Level where
  | error | warn | info | debug | trace
  deriving DecidableEq, Repr

namespace Level

def rank : Level → Nat
  | error => 1
  | warn => 2
  | info => 3
  | debug => 4
  | trace => 5

def label : Level → String
  | error => "ERROR"
  | warn => " WARN"
  | info => " INFO"
  | debug => "DEBUG"
  | trace => "TRACE"

def colour : Level → String
  | error => "\x1b[31m"
  | warn => "\x1b[33m"
  | info => "\x1b[32m"
  | debug => "\x1b[34m"
  | trace => "\x1b[35m"

end Level

inductive Event where
  | resolved (root : Path) (folders : List String)
  | scanning (folder : String) (path : Path)
  | reading (folder file : String)
  | checked (folder file : String) (failed : Nat)
  | finished (files failures : Nat)
  deriving DecidableEq, Repr

namespace Event

def level : Event → Level
  | finished .. => .info
  | _ => .debug

def target : Event → String
  | scanning .. | reading .. => "fn_lint::walker"
  | _ => "fn_lint"

def name : Event → String
  | resolved .. => "resolved config"
  | scanning .. => "scanning folder"
  | reading .. => "reading candidate"
  | checked .. => "checked"
  | finished .. => "lint run finished"

def fields : Event → List (String × String)
  | resolved root folders => [("root", root.display), ("folders", quotedList folders)]
  | scanning folder path => [("folder", folder), ("path", path.display)]
  | reading folder file => [("folder", folder), ("file", file)]
  | checked folder file failed =>
    [("folder", folder), ("file", file), ("failed", toString failed)]
  | finished files failures => [("files", toString files), ("failures", toString failures)]

def line (colour : Bool) (e : Event) : String :=
  if colour then
    e.level.colour ++ e.level.label ++ "\x1b[0m " ++ e.name
      ++ String.join (e.fields.map fun f => " \x1b[3m" ++ f.1 ++ "\x1b[0m\x1b[2m=\x1b[0m" ++ f.2)
  else
    e.level.label ++ " " ++ e.name ++ String.join (e.fields.map fun f => " " ++ f.1 ++ "=" ++ f.2)

def stamped (colour : Bool) (time line : String) : String :=
  (if colour then "\x1b[2m" ++ time ++ "\x1b[0m" else time) ++ " " ++ line

end Event

end ShellStyle
