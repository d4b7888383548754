/-! UTF-8 read from and written to lists of bytes. `scan` cuts the bytes into well-formed scalar values
and maximal ill-formed sequences (Unicode, table 3-7), so strict and lossy decoding differ only in
what they make of an ill-formed one. -/
namespace ShellStyle.Text.Utf8

def isTail (b : UInt8) : Bool := 0x80 ≤ b && b ≤ 0xBF

/- The second byte may not make an overlong form, a surrogate or a value above U+10FFFF. -/
def isSecond (lead b : UInt8) : Bool :=
  if lead = 0xE0 then 0xA0 ≤ b && b ≤ 0xBF
  else if lead = 0xED then 0x80 ≤ b && b ≤ 0x9F
  else if lead = 0xF0 then 0x90 ≤ b && b ≤ 0xBF
  else if lead = 0xF4 then 0x80 ≤ b && b ≤ 0x8F
  else isTail b

def scalar2 (a b : UInt8) : Char := Char.ofNat (a.toNat % 32 * 64 + b.toNat % 64)

def scalar3 (a b c : UInt8) : Char :=
  Char.ofNat ((a.toNat % 16 * 64 + b.toNat % 64) * 64 + c.toNat % 64)

def scalar4 (a b c d : UInt8) : Char :=
  Char.ofNat (((a.toNat % 8 * 64 + b.toNat % 64) * 64 + c.toNat % 64) * 64 + d.toNat % 64)

def scan : List UInt8 → List (Option Char)
  | [] => []
  | a :: r =>
    if a < 0x80 then some (Char.ofNat a.toNat) :: scan r
    else if 0xC2 ≤ a && a ≤ 0xDF then
      match r with
      | b :: r₂ => if isTail b then some (scalar2 a b) :: scan r₂ else none :: scan (b :: r₂)
      | [] => [none]
    else if 0xE0 ≤ a && a ≤ 0xEF then
      match r with
      | b :: r₂ =>
        if isSecond a b then
          match r₂ with
          | c :: r₃ => if isTail c then some (scalar3 a b c) :: scan r₃ else none :: scan (c :: r₃)
          | [] => [none]
        else none :: scan (b :: r₂)
      | [] => [none]
    else if 0xF0 ≤ a && a ≤ 0xF4 then
      match r with
      | b :: r₂ =>
        if isSecond a b then
          match r₂ with
          | c :: r₃ =>
            if isTail c then
              match r₃ with
              | d :: r₄ =>
                if isTail d then some (scalar4 a b c d) :: scan r₄ else none :: scan (d :: r₄)
              | [] => [none]
            else none :: scan (c :: r₃)
          | [] => [none]
        else none :: scan (b :: r₂)
      | [] => [none]
    else none :: scan r

def encode (s : String) : List UInt8 := s.toList.flatMap String.utf8EncodeChar

def wellFormed : List (Option Char) → Option (List Char)
  | [] => some []
  | none :: _ => none
  | some c :: r => (wellFormed r).map (c :: ·)

def decode? (bytes : List UInt8) : Option String := (wellFormed (scan bytes)).map String.ofList

def decodeLossy (bytes : List UInt8) : String :=
  String.ofList ((scan bytes).map (·.getD '\uFFFD'))

theorem encodeAppend (s t : String) : encode (s ++ t) = encode s ++ encode t := by
  simp [encode]

theorem scanAscii {a : UInt8} (h : a < 0x80) (r : List UInt8) :
    scan (a :: r) = some (Char.ofNat a.toNat) :: scan r := by
  rw [scan.eq_def]
  simp [h]

theorem wellFormedIff {xs : List (Option Char)} {cs : List Char} :
    wellFormed xs = some cs ↔ xs = cs.map some := by
  induction xs generalizing cs with
  | nil => cases cs <;> simp [wellFormed]
  | cons x xs ih =>
    cases x with
    | none => cases cs <;> simp [wellFormed]
    | some c =>
      cases cs with
      | nil => simp [wellFormed]
      | cons d ds =>
        simp only [wellFormed, Option.map_eq_some_iff, ih, List.map_cons, List.cons.injEq]
        refine ⟨?_, ?_⟩
        · intro holds
          obtain ⟨_, rfl, rfl, rfl⟩ := holds
          exact ⟨rfl, rfl⟩
        · intro holds
          obtain ⟨hc, rfl⟩ := holds
          exact ⟨ds, rfl, Option.some.inj hc, rfl⟩

theorem decodeLossyOfDecode {bytes : List UInt8} {s : String}
    (h : decode? bytes = some s) : decodeLossy bytes = s := by
  obtain ⟨cs, hcs, rfl⟩ := Option.map_eq_some_iff.mp h
  simp [decodeLossy, wellFormedIff.mp hcs, Function.comp_def]

end ShellStyle.Text.Utf8
