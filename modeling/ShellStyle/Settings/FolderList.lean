import ShellStyle.Text.Quoted
import ShellStyle.Text.Utf8
import ShellStyle.Toml.Document

/-! The settings file's one key, `folders`, a list of texts. Keys are looked at in the byte order of their
names, and the first thing that does not fit is reported with its place. -/
namespace ShellStyle.Settings
open Text Toml

inductive Mismatch where
  | unknownField (name : String)
  | wrongType (found expected : String)
  | integerTooLarge
  | floatTooLarge
  deriving DecidableEq, Repr

def Mismatch.message : Mismatch → String
  | unknownField name => "unknown field `" ++ name ++ "`, expected `folders`"
  | wrongType found expected => "invalid type: " ++ found ++ ", expected " ++ expected
  | integerTooLarge => "integer number overflowed"
  | floatTooLarge => "floating-point number overflowed"

/- Integers of 64 bits are shown plainly, longer ones with their width. -/
def describeInteger (n : Int) : Except Mismatch String :=
  let shown := "integer `" ++ toString n ++ "`"
  if -Int.pow 2 63 ≤ n ∧ n < Int.pow 2 64 then .ok shown
  else if -Int.pow 2 127 ≤ n ∧ n < Int.pow 2 127 then .ok (shown ++ " as i128")
  else if 0 ≤ n ∧ n < Int.pow 2 128 then .ok (shown ++ " as u128")
  else .error .integerTooLarge

def describeFloat (x : FloatLiteral) : Except Mismatch String :=
  match x, x.value with
  | .decimal .., .infinite _ => .error .floatTooLarge
  | _, value => .ok ("floating point `" ++ value.text ++ "`")

def describe : Value → Except Mismatch String
  | .string text => .ok ("string " ++ quoted text)
  | .integer n => describeInteger n
  | .float x => describeFloat x
  | .boolean b => .ok (if b then "boolean `true`" else "boolean `false`")
  | .array _ | .tables _ => .ok "sequence"
  | .table .. | .moment => .ok "map"

def unfit (value : Value) (expected : String) : Mismatch :=
  match describe value with
  | .ok found => .wrongType found expected
  | .error mismatch => mismatch

abbrev Checked (α : Type) := Except (Placed Mismatch) α

def texts : List (Placed Value) → Checked (List String)
  | [] => .ok []
  | ⟨_, .string text⟩ :: rest => (texts rest).map (text :: ·)
  | ⟨left, other⟩ :: _ => .error ⟨left, unfit other "a string"⟩

def folderList (left : Nat) : Value → Checked (List String)
  | .array items => texts items
  | .tables (first :: _) => .error ⟨first.left, unfit (.table .headed first.value) "a string"⟩
  | .tables [] => .ok []
  | other => .error ⟨left, unfit other "a sequence"⟩

def keyBefore (a b : Toml.Field Value) : Bool := Utf8.encode a.key.name ≤ Utf8.encode b.key.name

def inOrder : Fields → Checked (Option (List String))
  | [] => .ok none
  | field :: rest =>
    if field.key.name ≠ "folders" then .error ⟨field.key.left, .unknownField field.key.name⟩
    else match folderList field.left field.value with
      | .error e => .error e
      | .ok folders => (inOrder rest).map fun later => some (later.getD folders)

def folders? (document : Fields) : Checked (Option (List String)) :=
  inOrder (document.mergeSort keyBefore)

end ShellStyle.Settings
