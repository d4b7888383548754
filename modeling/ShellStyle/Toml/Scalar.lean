import ShellStyle.Toml.Value

/-! Booleans, numbers, dates and times from the characters of one word. Underscores stand only between two
digits, a decimal integer has no leading zero, a day exists in its month. -/
namespace ShellStyle.Toml.Scalar

def isDigit (c : Char) : Bool := '0' ≤ c && c ≤ '9'

def digitValue (c : Char) : Nat :=
  if c ≤ '9' then c.toNat - '0'.toNat
  else if c ≤ 'F' then c.toNat - 'A'.toNat + 10
  else c.toNat - 'a'.toNat + 10

def natural (base : Nat) (digits : List Char) : Nat :=
  digits.foldl (fun n c => n * base + digitValue c) 0

def digitRun (isDigit : Char → Bool) : List Char → Option (List Char)
  | [] => none
  | [c] => if isDigit c then some [c] else none
  | c :: '_' :: r => if isDigit c then (digitRun isDigit r).map (c :: ·) else none
  | c :: r => if isDigit c then (digitRun isDigit r).map (c :: ·) else none

def unsigned : List Char → Bool × List Char
  | '-' :: r => (true, r)
  | '+' :: r => (false, r)
  | cs => (false, cs)

def wholeDigits (cs : List Char) : Option (List Char) := do
  let digits ← digitRun isDigit cs
  if digits.head? = some '0' ∧ digits.length ≠ 1 then none else some digits

def integer? (cs : List Char) : Option Int :=
  match cs with
  | '0' :: 'x' :: r =>
    (digitRun (fun c => isDigit c || ('a' ≤ c && c ≤ 'f') || ('A' ≤ c && c ≤ 'F')) r).map
      fun ds => (natural 16 ds : Int)
  | '0' :: 'o' :: r =>
    (digitRun (fun c => '0' ≤ c && c ≤ '7') r).map fun ds => (natural 8 ds : Int)
  | '0' :: 'b' :: r =>
    (digitRun (fun c => c = '0' || c = '1') r).map fun ds => (natural 2 ds : Int)
  | _ => do
    let (negative, r) := unsigned cs
    let digits ← wholeDigits r
    some (if negative then -(natural 10 digits : Int) else natural 10 digits)

def exponent? (cs : List Char) : Option Int := do
  let (negative, r) := unsigned cs
  let digits ← digitRun isDigit r
  some (if negative then -(natural 10 digits : Int) else natural 10 digits)

def isExponentMark (c : Char) : Bool := c = 'e' || c = 'E'

def float? (cs : List Char) : Option FloatLiteral :=
  let (negative, r) := unsigned cs
  if r = ['i', 'n', 'f'] then some (.infinite negative)
  else if r = ['n', 'a', 'n'] then some .nan
  else
    let mantissa := r.takeWhile (!isExponentMark ·)
    let tail := r.dropWhile (!isExponentMark ·)
    let wholePart := mantissa.takeWhile (· ≠ '.')
    let fractionPart := mantissa.dropWhile (· ≠ '.')
    if tail = [] ∧ fractionPart = [] then none
    else do
      let whole ← wholeDigits wholePart
      let fraction ← if fractionPart = [] then some [] else digitRun isDigit (fractionPart.drop 1)
      let power ← if tail = [] then some 0 else exponent? (tail.drop 1)
      some (.decimal negative (natural 10 (whole ++ fraction)) (power - fraction.length))

def isLeap (year : Nat) : Bool := year % 4 = 0 && (year % 100 ≠ 0 || year % 400 = 0)

def daysIn (year month : Nat) : Nat :=
  if month = 2 then (if isLeap year then 29 else 28)
  else if month = 4 ∨ month = 6 ∨ month = 9 ∨ month = 11 then 30
  else 31

def number? (cs : List Char) : Option Nat := if cs.all isDigit then some (natural 10 cs) else none

def date? : List Char → Option (List Char)
  | a :: b :: c :: d :: '-' :: e :: f :: '-' :: g :: h :: rest => do
    let year ← number? [a, b, c, d]
    let month ← number? [e, f]
    let day ← number? [g, h]
    if 1 ≤ month ∧ month ≤ 12 ∧ 1 ≤ day ∧ day ≤ daysIn year month then some rest else none
  | _ => none

def clock? : List Char → Option (List Char)
  | a :: b :: ':' :: c :: d :: rest => do
    let hour ← number? [a, b]
    let minute ← number? [c, d]
    if hour ≤ 23 ∧ minute ≤ 59 then some rest else none
  | _ => none

def time? (cs : List Char) : Option (List Char) := do
  let rest ← clock? cs
  match rest with
  | ':' :: a :: b :: rest =>
    let second ← number? [a, b]
    if 60 < second then none
    else match rest with
      | '.' :: c :: rest => if isDigit c then some (rest.dropWhile isDigit) else none
      | _ => some rest
  | _ => some rest

def isOffset : List Char → Bool
  | [] | ['Z'] | ['z'] => true
  | '+' :: r | '-' :: r => clock? r = some []
  | _ => false

def isMoment (cs : List Char) : Bool :=
  match date? cs with
  | some [] => true
  | some (c :: r) =>
    (c = 'T' || c = 't' || c = ' ')
      && (match time? r with | some rest => isOffset rest | none => false)
  | none => time? cs = some []

def scalar? (cs : List Char) : Option Value :=
  if cs = ['t', 'r', 'u', 'e'] then some (.boolean true)
  else if cs = ['f', 'a', 'l', 's', 'e'] then some (.boolean false)
  else if isMoment cs then some .moment
  else match integer? cs with
    | some n => some (.integer n)
    | none => (float? cs).map .float

end ShellStyle.Toml.Scalar
