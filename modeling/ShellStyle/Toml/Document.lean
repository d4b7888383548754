import ShellStyle.Toml.Draft

/-! TOML 1.1 documents. The text is read into statements, keys with values and headers, and these build the
top-level table in their order. A reader takes characters and gives back what it read with the characters
after it; loops are bounded by the length of the text and brackets by `deepest`. A text whose structure is
broken is refused before anything is built, wherever the break is. -/
namespace ShellStyle.Toml

structure Header where
  array : Bool
  left : Nat
  parts : List Part

inductive Statement where
  | entry (entry : Entry)
  | header (header : Header)

namespace Document

open Quoted (isBlank isText)

def dropBlanks (cs : List Char) : List Char := cs.dropWhile isBlank

def lineBreak : List Char → Option (List Char)
  | [] => some []
  | '\n' :: r => some r
  | '\r' :: '\n' :: r => some r
  | _ => none

def restOfLine (cs : List Char) : Option (List Char) :=
  match dropBlanks cs with
  | '#' :: r => lineBreak (r.dropWhile isText)
  | r => lineBreak r

def dropTrivia : Bool → List Char → Option (List Char)
  | _, [] => some []
  | true, '\n' :: r => dropTrivia false r
  | true, '\r' :: '\n' :: r => dropTrivia false r
  | true, c :: r => if isText c then dropTrivia true r else none
  | false, ' ' :: r => dropTrivia false r
  | false, '\t' :: r => dropTrivia false r
  | false, '\n' :: r => dropTrivia false r
  | false, '\r' :: '\n' :: r => dropTrivia false r
  | false, '#' :: r => dropTrivia true r
  | false, c :: r => some (c :: r)

def endsWord (c : Char) : Bool :=
  isBlank c || c = '\n' || c = '\r' || c = ',' || c = '#' || c = '='
    || c = '[' || c = ']' || c = '\x7b' || c = '\x7d'

def isBareKeyChar (c : Char) : Bool := c.isAlphanum || c = '-' || c = '_'

def isBareKey (cs : List Char) : Bool := !cs.isEmpty && cs.all isBareKeyChar

def isPartChar (c : Char) : Bool := !endsWord c && c ≠ '.'

def part (cs : List Char) : Part × List Char :=
  match cs with
  | '"' :: '"' :: '"' :: r => (⟨cs.length, none⟩, (Quoted.longBasic r).2)
  | '"' :: r => (⟨cs.length, (Quoted.basic r).1⟩, (Quoted.basic r).2)
  | '\'' :: '\'' :: '\'' :: r => (⟨cs.length, none⟩, (Quoted.longPlainText r).2)
  | '\'' :: r => (⟨cs.length, (Quoted.plainText r).1⟩, (Quoted.plainText r).2)
  | _ =>
    let name := cs.takeWhile isPartChar
    (⟨cs.length, if isBareKey name then some (String.ofList name) else none⟩,
      cs.dropWhile isPartChar)

def parts : Nat → List Char → List Part × List Char
  | 0, cs => ([], cs)
  | fuel + 1, cs =>
    let first := part cs
    match dropBlanks first.2 with
    | '.' :: r =>
      let others := parts fuel (dropBlanks r)
      (first.1 :: others.1, others.2)
    | r => ([first.1], r)

abbrev Reader := List Char → Option (Draft × List Char)

def keyValue (skip : List Char → Option (List Char)) (read : Reader) (cs : List Char) :
    Option (Entry × List Char) := do
  let key := parts (cs.length + 1) cs
  match ← skip key.2 with
  | '=' :: r =>
    let start ← skip r
    let (draft, rest) ← read start
    some ((key.1, ⟨start.length, draft⟩), rest)
  | _ => none

def items {α : Type} (close : Char) (read : List Char → Option (α × List Char)) :
    Nat → List Char → Option (List (Placed α) × List Char)
  | 0, _ => none
  | fuel + 1, cs => do
    match ← dropTrivia false cs with
    | [] => none
    | c :: r =>
      if c = close then some ([], r)
      else
        let (item, rest) ← read (c :: r)
        match ← dropTrivia false rest with
        | ',' :: more => do
          let (others, rest) ← items close read fuel more
          some (⟨(c :: r).length, item⟩ :: others, rest)
        | d :: more => if d = close then some ([⟨(c :: r).length, item⟩], more) else none
        | [] => none

def word (cs : List Char) : List Char × List Char :=
  let first := cs.takeWhile (!endsWord ·)
  match cs.dropWhile (!endsWord ·) with
  | ' ' :: c :: rest =>
    if Scalar.date? first = some [] ∧ Scalar.isDigit c then
      (first ++ ' ' :: (c :: rest).takeWhile (!endsWord ·), (c :: rest).dropWhile (!endsWord ·))
    else (first, ' ' :: c :: rest)
  | rest => (first, rest)

def asString (read : Option String × List Char) : Draft × List Char :=
  (.scalar (read.1.map .string), read.2)

/- A scalar that is no string. At the end of a line there may be nothing, which is a scalar without a
value; a bracket, a comma or an equals sign breaks the structure. -/
def wordScalar (cs : List Char) : Option (Draft × List Char) :=
  match cs with
  | [] | '\n' :: _ | '\r' :: _ | '#' :: _ => some (.scalar none, cs)
  | c :: _ => if endsWord c then none else some (.scalar (Scalar.scalar? (word cs).1), (word cs).2)

def leaf : Reader
  | '"' :: '"' :: '"' :: r => some (asString (Quoted.longBasic r))
  | '"' :: r => some (asString (Quoted.basic r))
  | '\'' :: '\'' :: '\'' :: r => some (asString (Quoted.longPlainText r))
  | '\'' :: r => some (asString (Quoted.plainText r))
  | cs => wordScalar cs

def value : Nat → Reader
  | 0, cs => leaf cs
  | depth + 1, cs =>
    match cs with
    | '[' :: r => do
      let (read, rest) ← items ']' (value depth) (r.length + 1) r
      some (.array read, rest)
    | '\x7b' :: r => do
      let (read, rest) ← items '\x7d' (keyValue (dropTrivia false) (value depth)) (r.length + 1) r
      some (.table (read.map (·.value)), rest)
    | _ => leaf cs

def closeHeader (array : Bool) (rest : List Char) : Option (List Char) :=
  match array, rest with
  | true, ']' :: ']' :: r => some r
  | false, ']' :: r => some r
  | _, _ => none

def header (array : Bool) (left : Nat) (cs : List Char) : Option (Statement × List Char) := do
  let key := parts (cs.length + 1) (dropBlanks cs)
  let rest ← closeHeader array key.2
  some (.header ⟨array, left, key.1⟩, rest)

def statement (cs : List Char) : Option (Statement × List Char) :=
  match cs with
  | '[' :: '[' :: r => header true cs.length r
  | '[' :: r => header false cs.length r
  | _ => do
    let (entry, rest) ← keyValue (fun cs => some (dropBlanks cs)) (value deepest) cs
    some (.entry entry, rest)

def startsStatement (cs : List Char) : Bool :=
  match cs with
  | [] | '#' :: _ | '\n' :: _ | '\r' :: _ => false
  | _ => true

def statements : Nat → List Char → Option (List Statement)
  | _, [] => some []
  | 0, _ => none
  | fuel + 1, cs =>
    let line := dropBlanks cs
    if startsStatement line then do
      let (first, rest) ← statement line
      let rest ← restOfLine rest
      let others ← statements fuel rest
      some (first :: others)
    else do
      let rest ← restOfLine line
      statements fuel rest

def sections : List Statement → List Entry × List (Header × List Entry)
  | [] => ([], [])
  | .entry entry :: rest =>
    let (entries, later) := sections rest
    (entry :: entries, later)
  | .header h :: rest =>
    let (entries, later) := sections rest
    ([], (h, entries) :: later)

def attachToArray (root : Fields) (left : Nat) (path : List Key) (key : Key) (made : Fields) :
    Except Flaw Fields :=
  Fields.within false (fun _ fields =>
    match Fields.find? key.name fields with
    | none => .ok (fields ++ [⟨key, left, .tables [⟨left, made⟩]⟩])
    | some (.tables before) =>
      .ok (fields.replace key.name (.tables (before ++ [⟨left, made⟩])))
    | some _ => .error .malformed) path .headed root

/- Puts the table of a header into its place, which may be taken only by a table that was implied; its
key then takes over the place of the implied one. -/
def attachTable (root : Fields) (left : Nat) (path : List Key) (key : Key) (entries : List Entry) :
    Except Flaw Fields :=
  Fields.within false (fun _ fields =>
    match Fields.find? key.name fields with
    | none => do
      let made ← addAll entries []
      .ok (fields ++ [⟨key, left, .table .headed made⟩])
    | some (.table .implied before) => do
      let made ← addAll entries before
      .ok (fields.erase key.name ++ [⟨key, left, .table .headed made⟩])
    | some _ => .error .malformed) path .headed root

def attach (root : Fields) : Header × List Entry → Except Flaw Fields
  | (h, entries) => do
    let (path, key) ← keyOf h.parts
    if h.array then do
      let made ← addAll entries []
      attachToArray root h.left path key made
    else attachTable root h.left path key entries

def build (read : List Statement) : Except Flaw Fields := do
  let (entries, later) := sections read
  let root ← addAll entries []
  later.foldlM attach root

def dropByteOrderMark : List Char → List Char
  | '\uFEFF' :: r => r
  | cs => cs

def read (text : String) : Except Flaw Fields :=
  let cs := dropByteOrderMark text.toList
  match statements (cs.length + 1) cs with
  | none => .error .malformed
  | some found => build found

def position (text : String) (left : Nat) : Nat × Nat :=
  let before := text.toList.take (text.toList.length - left)
  (before.count '\n' + 1, (before.reverse.takeWhile (· ≠ '\n')).length + 1)

end Document

end ShellStyle.Toml
