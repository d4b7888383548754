import ShellStyle.Event

/-! Which events of a log are written. A filter is a text of directives between commas. A directive names a
target, a span, a field or none of them, and its level holds for the events that have what it names; the
most particular directive about an event decides it. -/
namespace ShellStyle

abbrev Filter := Event → Bool

structure Directive where
  target : Option String
  span : Option String
  field : Option String
  level : Option Level
  deriving DecidableEq, Repr

namespace Directive

def everything : Directive := ⟨none, none, none, some .trace⟩

def number? (text : String) : Option Nat :=
  let digits := match text.toList with
    | '+' :: r => r
    | cs => cs
  if digits.isEmpty || !digits.all Char.isDigit then none
  else some (digits.foldl (fun n c => n * 10 + (c.toNat - '0'.toNat)) 0)

def lower (s : String) : String := String.ofList (s.toList.map Char.toLower)

/- The name of a level, or of none at all. -/
def level? (name : String) : Option (Option Level) :=
  match number? name, lower name with
  | some 0, _ | none, "off" => some none
  | some 1, _ | none, "error" | none, "" => some (some .error)
  | some 2, _ | none, "warn" => some (some .warn)
  | some 3, _ | none, "info" => some (some .info)
  | some 4, _ | none, "debug" => some (some .debug)
  | some 5, _ | none, "trace" => some (some .trace)
  | _, _ => none

def startsTarget (c : Char) : Bool :=
  c.isAlphanum || c == '-' || c == ':' || c == '_' || 0x80 ≤ c.toNat

def ending (d : Directive) : List Char → Option Directive
  | [] | ['='] => some d
  | '=' :: name => (level? (String.ofList name)).map fun level => { d with level := level }
  | _ => none

def bracketed (d : Directive) (text : List Char) : Option Directive :=
  let inName := fun c : Char => c != ']' && c != '\x7b'
  let name := String.ofList (text.takeWhile inName)
  match text.dropWhile inName with
  | ']' :: rest => ending { d with span := some name } rest
  | '\x7b' :: rest =>
    let field := String.ofList (rest.takeWhile (· != '\x7d'))
    match rest.dropWhile (· != '\x7d') with
    | '\x7d' :: ']' :: rest =>
      if field = "" then none
      else ending { d with span := if name = "" then none else some name, field := some field } rest
    | _ => none
  | _ => none

def ofText (text : String) : Option Directive :=
  let inTarget := fun c : Char => c != '=' && c != '['
  let target := String.ofList (text.toList.takeWhile inTarget)
  match target.toList.head?, text.toList.dropWhile inTarget with
  | none, '[' :: rest => bracketed everything rest
  | none, _ => none
  | some c, rest =>
    if !startsTarget c then none
    else match rest, level? target with
      | [], some level => some { everything with level := level }
      | '[' :: rest, _ => bracketed { everything with target := some target } rest
      | rest, _ => ending { everything with target := some target } rest

/- No event stands in a span, and a field is asked for by its name alone. -/
def about (d : Directive) (e : Event) : Bool :=
  d.span.isNone
    && (match d.target with
      | some target => target.toList.isPrefixOf e.target.toList
      | none => true)
    && (match d.field with
      | some field => field == "message" || (e.fields.map (·.1)).contains field
      | none => true)

def reach (d : Directive) : Nat :=
  match d.target with
  | some target => target.length + 1
  | none => 0

/- A longer target counts before a shorter one, then a field before none, and of equals the later. -/
def yields (d later : Directive) : Bool :=
  d.reach < later.reach
    || (d.reach == later.reach
      && (match d.field, later.field with
        | some one, some two => one ≤ two
        | some _, none => false
        | none, _ => true))

def prefer (best : Option Directive) (d : Directive) : Option Directive :=
  match best with
  | some b => if b.yields d then some d else some b
  | none => some d

def deciding (directives : List Directive) (e : Event) : Option Directive :=
  (directives.filter (·.about e)).foldl prefer none

end Directive

namespace Filter

def upTo (level : Level) : Filter := fun e => e.level.rank ≤ level.rank

def ofDirectives (directives : List Directive) : Filter := fun e =>
  match (Directive.deciding directives e).bind (·.level) with
  | some level => upTo level e
  | none => false

def read (text : String) : Option Filter :=
  match (text.toList.splitOn ',').filter (· ≠ []) with
  | [] => some (upTo .error)
  | pieces => (pieces.mapM fun piece => Directive.ofText (String.ofList piece)).map ofDirectives

end Filter

end ShellStyle
