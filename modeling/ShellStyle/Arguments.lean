import ShellStyle.Path
import ShellStyle.Text.Styled
import ShellStyle.Text.Terminal

/-! The command line. Two options take a value, given behind an equals sign or as the next argument; two
are flags and may stand once. An option that waits for its value is settled as soon as another option
begins or the arguments end, and an argument that is unknown is reported before that. -/
namespace ShellStyle
open Text Text.Styled

structure Arguments where
  rootDir : Option Path
  folders : List String
  json : Bool
  verbose : Bool
  deriving DecidableEq, Repr

namespace Arguments

inductive Named where
  | rootDir | folder
  deriving DecidableEq, Repr

inductive Switch where
  | json | verbose | help | version
  deriving DecidableEq, Repr

inductive Refusal where
  | unexpected (argument : String)
  | missingValue (option : Named)
  | unneededValue (switch : Switch) (value : String)
  | repeatedOption (option : Named)
  | repeatedSwitch (switch : Switch)
  deriving DecidableEq, Repr

inductive Stop where
  | help
  | version
  | refused (refusal : Refusal)
  deriving DecidableEq, Repr

def blank : Arguments := ⟨none, [], false, false⟩

def Named.usage : Named → String
  | rootDir => "--root-dir <ROOT_DIR>"
  | folder => "--folder <NAME>"

def Switch.usage : Switch → String
  | json => "--json"
  | verbose => "--verbose"
  | help => "--help"
  | version => "--version"

/- Without colours every piece is stripped on its own, so a sequence in an argument ends with it. -/
def shown (colour : Bool) (text : Styled) : String :=
  if colour then render true text
  else render false (text.map fun span => { span with text := Terminal.strip span.text })

def usage : Styled := styled .heading "Usage:" ++ plain " " ++ styled .bold "fn-lint" ++ plain " [OPTIONS]"

def Refusal.headline (refusal : Refusal) : Styled :=
  styled .alarm "error:" ++ plain " " ++ (match refusal with
    | unexpected argument =>
      plain "unexpected argument '" ++ styled .yellow argument ++ plain "' found"
    | missingValue option =>
      plain "a value is required for '" ++ styled .yellow option.usage
        ++ plain "' but none was supplied"
    | unneededValue switch value =>
      plain "unexpected value '" ++ styled .yellow value ++ plain "' for '"
        ++ styled .bold switch.usage ++ plain "' found; no more were expected"
    | repeatedOption option =>
      plain "the argument '" ++ styled .yellow option.usage
        ++ plain "' cannot be used multiple times"
    | repeatedSwitch switch =>
      plain "the argument '" ++ styled .yellow switch.usage
        ++ plain "' cannot be used multiple times")

def Refusal.complaint (refusal : Refusal) : Styled :=
  refusal.headline
    ++ (match refusal with
      | missingValue _ => []
      | _ => plain "\n\n" ++ usage)
    ++ plain "\n\nFor more information, try '" ++ styled .bold "--help" ++ plain "'.\n"

def Refusal.message (refusal : Refusal) : String := shown false refusal.headline

def optionHelp (long about : String) : Styled := styled .bold long ++ plain (about ++ "\n")

def switchHelp (short long about : String) : Styled :=
  plain "  " ++ styled .bold short ++ plain ", " ++ optionHelp long about

def help : Styled :=
  plain "Check shell function files for a shebang, a help flag, and hyphenated names\n\n"
  ++ usage ++ plain "\n\n" ++ styled .heading "Options:" ++ plain "\n      "
  ++ optionHelp "--root-dir" (" <ROOT_DIR>  Project root holding the folders to scan "
    ++ "(default: nearest ancestor with fn-lint.toml or .git)")
  ++ plain "      "
  ++ optionHelp "--folder"
    " <NAME>        Folder to scan, relative to the root. Repeat to scan several"
  ++ plain "      " ++ optionHelp "--json" "                 Print the report as JSON"
  ++ switchHelp "-v" "--verbose" "              Enable debug logging on stderr"
  ++ switchHelp "-h" "--help" "                 Print help"
  ++ switchHelp "-V" "--version" "              Print version"
  ++ plain "\nFolder precedence: --folder > fn-lint.toml `folders` > functions, bin.\n"
  ++ plain "\nExamples:\n"
  ++ plain "  fn-lint\n"
  ++ plain "  fn-lint --root-dir ~/dotfiles --folder functions\n"
  ++ plain "  fn-lint --json\n"

def helpText : String := shown false help

def versionText : String := "fn-lint 0.1.0\n"

abbrev Waiting := Option (Named × Option String)

def refuse {α : Type} (refusal : Refusal) : Except Stop α := .error (.refused refusal)

def give (a : Arguments) : Named → String → Except Stop Arguments
  | .folder, value => .ok { a with folders := a.folders ++ [value] }
  | .rootDir, value =>
    if a.rootDir.isSome then refuse (.repeatedOption .rootDir)
    else if value = "" then refuse (.missingValue .rootDir)
    else .ok { a with rootDir := some (Path.ofString value) }

def settle (a : Arguments) : Waiting → Except Stop Arguments
  | none => .ok a
  | some (option, none) => refuse (.missingValue option)
  | some (option, some value) => a.give option value

def turnOn (a : Arguments) : Switch → Except Stop Arguments
  | .help => .error .help
  | .version => .error .version
  | .json =>
    if a.json then refuse (.repeatedSwitch .json) else .ok { a with json := true }
  | .verbose =>
    if a.verbose then refuse (.repeatedSwitch .verbose) else .ok { a with verbose := true }

def shortSwitch : Char → Option Switch
  | 'v' => some .verbose
  | 'h' => some .help
  | 'V' => some .version
  | _ => none

def cluster (a : Arguments) (waiting : Waiting) : List Char → Except Stop Arguments
  | [] => .ok a
  | c :: rest =>
    match shortSwitch c with
    | none => refuse (.unexpected (String.ofList ['-', c]))
    | some switch => do
      let a ← a.settle waiting
      let a ← a.turnOn switch
      cluster a none rest

inductive Word where
  | option (option : Named) (value : Option String)
  | switch (switch : Switch) (value : Option String)
  | unknown (shown : String)
  | cluster (letters : List Char)
  | endOfOptions
  | bare
  deriving DecidableEq, Repr

def longWord (body : List Char) : Word :=
  let name := String.ofList (body.takeWhile (· ≠ '='))
  let value := match body.dropWhile (· ≠ '=') with
    | [] => none
    | _ :: text => some (String.ofList text)
  if name = "root-dir" then .option .rootDir value
  else if name = "folder" then .option .folder value
  else if name = "json" then .switch .json value
  else if name = "verbose" then .switch .verbose value
  else if name = "help" then .switch .help value
  else if name = "version" then .switch .version value
  else .unknown ("--" ++ name)

def word (argument : String) : Word :=
  match argument.toList with
  | ['-', '-'] => .endOfOptions
  | '-' :: '-' :: body => longWord body
  | '-' :: c :: letters => .cluster (c :: letters)
  | _ => .bare

def parseFrom (a : Arguments) (waiting : Waiting) : List String → Except Stop Arguments
  | [] => a.settle waiting
  | argument :: rest =>
    match word argument with
    | .endOfOptions =>
      match rest with
      | [] => a.settle waiting
      | next :: _ => refuse (.unexpected next)
    | .unknown shown => refuse (.unexpected shown)
    | .option option none => do
      let a ← a.settle waiting
      parseFrom a (some (option, none)) rest
    | .option option (some value) => do
      let a ← a.settle waiting
      let a ← a.give option value
      parseFrom a none rest
    | .switch switch (some value) => refuse (.unneededValue switch value)
    | .switch switch none => do
      let a ← a.settle waiting
      let a ← a.turnOn switch
      parseFrom a none rest
    | .cluster letters => do
      let a ← cluster a waiting letters
      parseFrom a none rest
    | .bare =>
      match waiting with
      | some (option, none) => parseFrom a (some (option, some argument)) rest
      | _ => refuse (.unexpected argument)

def parse (arguments : List String) : Except Stop Arguments := parseFrom blank none arguments

end Arguments

end ShellStyle
