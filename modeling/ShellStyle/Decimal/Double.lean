/-! Decimal fractions and the binary numbers with 53-bit mantissas nearest to them, in exact integer
arithmetic. `shortest` gives the fewest decimal digits that read back as the same binary number and,
of those, the ones nearest to it. -/
namespace ShellStyle.Decimal

inductive Double where
  | finite (negative : Bool) (mantissa : Nat) (exponent : Int)
  | infinite (negative : Bool)
  | nan
  deriving DecidableEq, Repr

def leastExponent : Int := -1074

def greatestExponent : Int := 971

def hidden : Nat := Nat.pow 2 52

def power (base : Nat) (e : Int) : Nat × Nat :=
  if 0 ≤ e then (base.pow e.toNat, 1) else (1, base.pow (-e).toNat)

def roundEven (num den : Nat) : Nat :=
  if den < 2 * (num % den) ∨ (2 * (num % den) = den ∧ num / den % 2 = 1) then num / den + 1
  else num / den

def digitCount (n : Nat) : Nat := (Nat.toDigits 10 n).length

def inUnits (num den : Nat) (q : Int) : Nat × Nat :=
  let unit := power 2 q
  (num * unit.2, den * unit.1)

def nearest (negative : Bool) (digits : Nat) (e : Int) : Double :=
  let size := (digitCount digits : Int) + e
  if digits = 0 ∨ size < -330 then .finite negative 0 leastExponent
  else if 310 < size then .infinite negative
  else
    let scale := power 10 e
    let num := digits * scale.1
    let den := scale.2
    let low := max ((num.log2 : Int) - den.log2 - 53) leastExponent
    let wide := inUnits num den low
    let q := if 2 * hidden ≤ wide.1 / wide.2 then low + 1 else low
    let exact := inUnits num den q
    let m := roundEven exact.1 exact.2
    let carried := m = 2 * hidden
    let q := if carried then q + 1 else q
    if greatestExponent < q then .infinite negative
    else .finite negative (if carried then hidden else m) q

/- The reals that round to `m * 2 ^ q`, in units of `2 ^ (q - 2)`: a least and a greatest one. -/
def bounds (m : Nat) (q : Int) : Nat × Nat :=
  (if m = hidden ∧ leastExponent < q then 4 * m - 1 else 4 * m - 2, 4 * m + 2)

def readsBack (m : Nat) (q : Int) (c : Nat) (g : Int) : Bool :=
  let unit := power 2 (q - 2)
  let grid := power 10 g
  let point := c * grid.1 * unit.2
  let low := (bounds m q).1 * unit.1 * grid.2
  let high := (bounds m q).2 * unit.1 * grid.2
  (low < point && point < high) || (m % 2 == 0 && (point == low || point == high))

/- The neighbour of the number on the grid of `10 ^ g` that reads back, the nearer one if both do and
the greater one on a tie. -/
def onGrid (m : Nat) (q g : Int) : Option Nat :=
  let unit := power 2 q
  let grid := power 10 g
  let num := m * unit.1 * grid.2
  let den := unit.2 * grid.1
  let c := num / den
  match readsBack m q c g, readsBack m q (c + 1) g with
  | true, true => some (if 2 * (num % den) < den then c else c + 1)
  | true, false => some c
  | false, true => some (c + 1)
  | false, false => none

def leadingPower (m : Nat) (q : Int) : Int :=
  let unit := power 2 q
  (digitCount (m * unit.1 * Nat.pow 10 400 / unit.2) : Int) - 401

def shortest (m : Nat) (q : Int) : Nat × Int :=
  let first := leadingPower m q
  let found := (List.range 17).findSome? fun n =>
    (onGrid m q (first - (n : Nat))).map (·, first - (n : Nat))
  match found with
  | some (10, g) => (1, g + 1)
  | some digits => digits
  | none => (m, q)

def positional (digits : List Char) (g : Int) : List Char :=
  if 0 ≤ g then digits ++ List.replicate g.toNat '0' ++ ['.', '0']
  else
    let places := (-g).toNat
    let padded := List.replicate (places + 1 - digits.length) '0' ++ digits
    padded.take (padded.length - places) ++ '.' :: padded.drop (padded.length - places)

def Double.text : Double → String
  | nan => "NaN"
  | infinite negative => if negative then "-inf" else "inf"
  | finite negative m q =>
    let sign := if negative then ['-'] else []
    if m = 0 then String.ofList (sign ++ ['0', '.', '0'])
    else
      let found := shortest m q
      String.ofList (sign ++ positional (Nat.toDigits 10 found.1) found.2)

end ShellStyle.Decimal
