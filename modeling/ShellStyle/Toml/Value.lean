import ShellStyle.Decimal.Double

/-! TOML values and the tables that a document builds. Keys and values remember where they start, as the
number of characters from there to the end of the document. A table knows what made it, because that
decides what may still be added to it. -/
namespace ShellStyle.Toml

structure Key where
  name : String
  left : Nat
  deriving DecidableEq, Repr

inductive FloatLiteral where
  | decimal (negative : Bool) (digits : Nat) (exponent : Int)
  | infinite (negative : Bool)
  | nan
  deriving DecidableEq, Repr

def FloatLiteral.value : FloatLiteral → Decimal.Double
  | decimal negative digits exponent => Decimal.nearest negative digits exponent
  | infinite negative => .infinite negative
  | nan => .nan

inductive Origin where
  | inline | dotted | implied | headed
  deriving DecidableEq, Repr

inductive Flaw where
  | malformed
  | tooDeep
  deriving DecidableEq, Repr

structure Placed (α : Type) where
  left : Nat
  value : α

structure Field (α : Type) where
  key : Key
  left : Nat
  value : α

inductive Value where
  | string (text : String)
  | integer (value : Int)
  | float (value : FloatLiteral)
  | boolean (value : Bool)
  | moment
  | array (items : List (Placed Value))
  | tables (items : List (Placed (List (Field Value))))
  | table (origin : Origin) (fields : List (Field Value))

abbrev Fields := List (Field Value)

namespace Fields

def find? (name : String) : Fields → Option Value
  | [] => none
  | field :: rest => if field.key.name = name then some field.value else find? name rest

def replace (name : String) (value : Value) : Fields → Fields
  | [] => []
  | field :: rest =>
    if field.key.name = name then { field with value := value } :: rest
    else field :: replace name value rest

def erase (name : String) (fields : Fields) : Fields := fields.filter (·.key.name != name)

/- Changes the table at the end of a path. Tables that are missing on the way are made, dotted ones for
a dotted key and implied ones for a header; an array of tables is entered at its last table. A dotted key
may only pass through tables without a header of their own. -/
def within (byDots : Bool) (change : Origin → Fields → Except Flaw Fields) :
    List Key → Origin → Fields → Except Flaw Fields
  | [], origin, fields => change origin fields
  | key :: path, _, fields =>
    match find? key.name fields with
    | none => do
      let made := if byDots then Origin.dotted else Origin.implied
      let inner ← within byDots change path made []
      .ok (fields ++ [⟨key, key.left, .table made inner⟩])
    | some (.tables items) =>
      match items.getLast? with
      | none => .error .malformed
      | some last => do
        let inner ← within byDots change path .headed last.value
        .ok (replace key.name (.tables (items.dropLast ++ [⟨last.left, inner⟩])) fields)
    | some (.table origin inner) =>
      if origin = .inline ∨ (byDots ∧ origin = .headed) then .error .malformed
      else do
        let inner ← within byDots change path origin inner
        .ok (replace key.name (.table origin inner) fields)
    | some _ => .error .malformed

def add (path : List Key) (field : Field Value) (fields : Fields) : Except Flaw Fields :=
  within (!path.isEmpty) (fun origin inner =>
    if (origin == .dotted) == path.isEmpty then .error .malformed
    else if (find? field.key.name inner).isSome then .error .malformed
    else .ok (inner ++ [field])) path .headed fields

theorem findAppend (name : String) (a b : Fields) :
    find? name (a ++ b) = (find? name a).or (find? name b) := by
  induction a with
  | nil => simp [find?]
  | cons e rest ih =>
    by_cases h : e.key.name = name
    · simp [find?, h]
    · simp [find?, h, ih]

theorem findReplace {name : String} {value : Value} {fields : Fields}
    (h : (find? name fields).isSome) : find? name (replace name value fields) = some value := by
  induction fields with
  | nil => simp [find?] at h
  | cons e rest ih =>
    by_cases hn : e.key.name = name
    · simp [find?, replace, hn]
    · simp only [find?, hn, if_false] at h
      simp [find?, replace, hn, ih h]

theorem addNil {field : Field Value} {fields : Fields} :
    add [] field fields =
      if (find? field.key.name fields).isSome then .error .malformed
      else .ok (fields ++ [field]) := by
  simp [add, within]

end Fields

end ShellStyle.Toml
