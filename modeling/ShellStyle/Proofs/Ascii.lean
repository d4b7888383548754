import Mathlib
import ShellStyle.Text.Utf8

/-! Decoding and ASCII. The decoder takes an ASCII byte by itself and no ASCII byte into any other piece, and
what it makes of another piece is no ASCII character. So the ASCII characters of a decoded text are the ASCII
bytes it was decoded from, in their order, however the bytes between them are broken. -/
namespace ShellStyle.Text.Utf8

theorem tailBounds {b : UInt8} (h : isTail b = true) : 0x80 ≤ b.toNat ∧ b.toNat ≤ 0xBF := by
  simpa [isTail, UInt8.le_iff_toNat_le] using h

theorem secondBounds {a b : UInt8} (h : isSecond a b = true) : 0x80 ≤ b.toNat ∧ b.toNat ≤ 0xBF ∧
    (a.toNat = 0xE0 → 0xA0 ≤ b.toNat) ∧ (a.toNat = 0xED → b.toNat ≤ 0x9F) ∧
    (a.toNat = 0xF0 → 0x90 ≤ b.toNat) ∧ (a.toNat = 0xF4 → b.toNat ≤ 0x8F) := by
  simp only [isSecond, isTail, UInt8.le_iff_toNat_le, ← UInt8.toNat_inj, UInt8.reduceToNat] at h
  grind

/- A scalar value of two bytes or more. The bounds of the second byte keep it off the short forms and the
surrogates, which `Char.ofNat` would turn into the null character. -/
theorem scalar2Wide {a b : UInt8} (low : 0xC2 ≤ a.toNat) (high : a.toNat ≤ 0xDF) :
    0x80 ≤ (scalar2 a b).toNat := by
  have valid : (a.toNat % 32 * 64 + b.toNat % 64).isValidChar := .inl (by omega)
  rw [scalar2, Char.toNat_ofNat, if_pos valid]
  omega

theorem scalar3Wide {a b c : UInt8} (low : 0xE0 ≤ a.toNat) (high : a.toNat ≤ 0xEF)
    (second : isSecond a b = true) : 0x80 ≤ (scalar3 a b c).toNat := by
  obtain ⟨least, most, short, surrogate, _⟩ := secondBounds second
  have valid : ((a.toNat % 16 * 64 + b.toNat % 64) * 64 + c.toNat % 64).isValidChar := by
    unfold Nat.isValidChar
    omega
  rw [scalar3, Char.toNat_ofNat, if_pos valid]
  omega

theorem scalar4Wide {a b c d : UInt8} (low : 0xF0 ≤ a.toNat) (high : a.toNat ≤ 0xF4)
    (second : isSecond a b = true) : 0x80 ≤ (scalar4 a b c d).toNat := by
  obtain ⟨least, most, _, _, short, large⟩ := secondBounds second
  have valid : (((a.toNat % 8 * 64 + b.toNat % 64) * 64 + c.toNat % 64) * 64 + d.toNat % 64).isValidChar := by
    unfold Nat.isValidChar
    omega
  rw [scalar4, Char.toNat_ofNat, if_pos valid]
  omega

def Wide (bytes : List UInt8) (item : Option Char) : Prop :=
  (∀ b ∈ bytes, 0x80 ≤ b.toNat) ∧ ∀ c, item = some c → 0x80 ≤ c.toNat

inductive Cut : List UInt8 → List (Option Char) → Prop where
  | done : Cut [] []
  | ascii {a : UInt8} {bytes : List UInt8} {items : List (Option Char)} (small : a < 0x80)
      (later : Cut bytes items) : Cut (a :: bytes) (some (Char.ofNat a.toNat) :: items)
  | wide (piece : List UInt8) {bytes : List UInt8} {item : Option Char} {items : List (Option Char)}
      (holds : Wide piece item) (later : Cut bytes items) : Cut (piece ++ bytes) (item :: items)

theorem leadHigh {a : UInt8} (h : ¬ a < 0x80) : 0x80 ≤ a.toNat := by
  simpa [UInt8.lt_iff_toNat_lt] using h

theorem rangeBounds {a low high : UInt8} (h : (decide (low ≤ a) && decide (a ≤ high)) = true) :
    low.toNat ≤ a.toNat ∧ a.toNat ≤ high.toNat := by
  simpa [UInt8.le_iff_toNat_le] using h

theorem brokenOne {a : UInt8} (high : ¬ a < 0x80) : Wide [a] none := by
  simp [Wide, leadHigh high]

theorem brokenTwo {a b : UInt8} (high : ¬ a < 0x80) (second : isSecond a b = true) :
    Wide [a, b] none := by
  simp [Wide, leadHigh high, (secondBounds second).1]

theorem brokenThree {a b c : UInt8} (high : ¬ a < 0x80) (second : isSecond a b = true)
    (third : isTail c = true) : Wide [a, b, c] none := by
  simp [Wide, leadHigh high, (secondBounds second).1, (tailBounds third).1]

theorem wholeTwo {a b : UInt8} (two : (decide (0xC2 ≤ a) && decide (a ≤ 0xDF)) = true)
    (second : isTail b = true) : Wide [a, b] (some (scalar2 a b)) := by
  obtain ⟨low, top⟩ := rangeBounds two
  have high : 0x80 ≤ a.toNat := le_trans (by decide) low
  simp [Wide, high, (tailBounds second).1, scalar2Wide low top]

theorem wholeThree {a b c : UInt8} (three : (decide (0xE0 ≤ a) && decide (a ≤ 0xEF)) = true)
    (second : isSecond a b = true) (third : isTail c = true) :
    Wide [a, b, c] (some (scalar3 a b c)) := by
  obtain ⟨low, top⟩ := rangeBounds three
  have high : 0x80 ≤ a.toNat := le_trans (by decide) low
  simp [Wide, high, (secondBounds second).1, (tailBounds third).1, scalar3Wide low top second]

theorem wholeFour {a b c d : UInt8} (four : (decide (0xF0 ≤ a) && decide (a ≤ 0xF4)) = true)
    (second : isSecond a b = true) (third : isTail c = true) (fourth : isTail d = true) :
    Wide [a, b, c, d] (some (scalar4 a b c d)) := by
  obtain ⟨low, top⟩ := rangeBounds four
  have high : 0x80 ≤ a.toNat := le_trans (by decide) low
  simp [Wide, high, (secondBounds second).1, (tailBounds third).1, (tailBounds fourth).1,
    scalar4Wide low top second]

theorem scanCut (bytes : List UInt8) : Cut bytes (scan bytes) := by
  fun_induction scan bytes with
  | case1 => exact .done
  | case2 a r small ih => exact .ascii small ih
  | case3 a _ two b r second ih => exact .wide [a, b] (wholeTwo two second) ih
  | case4 a high _ b r _ ih => exact .wide [a] (brokenOne high) ih
  | case5 a high => exact .wide [a] (brokenOne high) .done
  | case6 a _ _ three b second c r third ih => exact .wide [a, b, c] (wholeThree three second third) ih
  | case7 a high _ _ b second c r _ ih => exact .wide [a, b] (brokenTwo high second) ih
  | case8 a high _ _ b second => exact .wide [a, b] (brokenTwo high second) .done
  | case9 a high _ _ b r _ ih => exact .wide [a] (brokenOne high) ih
  | case10 a high => exact .wide [a] (brokenOne high) .done
  | case11 a _ _ _ four b second c third d r fourth ih =>
    exact .wide [a, b, c, d] (wholeFour four second third fourth) ih
  | case12 a high _ _ _ b second c third d r _ ih =>
    exact .wide [a, b, c] (brokenThree high second third) ih
  | case13 a high _ _ _ b second c third => exact .wide [a, b, c] (brokenThree high second third) .done
  | case14 a high _ _ _ b second c r _ ih => exact .wide [a, b] (brokenTwo high second) ih
  | case15 a high _ _ _ b second => exact .wide [a, b] (brokenTwo high second) .done
  | case16 a high _ _ _ b r _ ih => exact .wide [a] (brokenOne high) ih
  | case17 a high => exact .wide [a] (brokenOne high) .done
  | case18 a r high _ _ _ ih => exact .wide [a] (brokenOne high) ih

theorem asciiValue {a : UInt8} (small : a < 0x80) : (Char.ofNat a.toNat).toNat = a.toNat := by
  have below : a.toNat < 0x80 := UInt8.lt_iff_toNat_lt.mp small
  rw [Char.toNat_ofNat, if_pos (.inl (by omega))]

theorem asciiSmall {a : UInt8} (small : a < 0x80) : (Char.ofNat a.toNat).toNat < 0x80 := by
  rw [asciiValue small]
  exact UInt8.lt_iff_toNat_lt.mp small

theorem wideShown {piece : List UInt8} {item : Option Char} (holds : Wide piece item) :
    0x80 ≤ (item.getD '\uFFFD').toNat := by
  cases item with
  | none => decide
  | some c => exact holds.2 c rfl

theorem cutKept {bytes : List UInt8} {items : List (Option Char)} (cut : Cut bytes items) :
    (items.map (·.getD '\uFFFD')).filter (·.toNat < 0x80) =
      (bytes.filter (· < 0x80)).map fun a => Char.ofNat a.toNat := by
  induction cut with
  | done => rfl
  | @ascii a rest items small _ ih =>
    simp [asciiSmall small, small, ih]
  | @wide piece rest item items holds _ ih =>
    have dropped : piece.filter (· < 0x80) = [] := by
      rw [List.filter_eq_nil_iff]
      intro b member
      simpa [UInt8.lt_iff_toNat_lt] using holds.1 b member
    simp [wideShown holds, dropped, ih]

theorem asciiKept (bytes : List UInt8) : (decodeLossy bytes).toList.filter (·.toNat < 0x80) =
    (bytes.filter (· < 0x80)).map fun a => Char.ofNat a.toNat := by
  rw [decodeLossy, String.toList_ofList]
  exact cutKept (scanCut bytes)

theorem asciiMember {bytes : List UInt8} {a : UInt8} (small : a < 0x80) :
    Char.ofNat a.toNat ∈ (decodeLossy bytes).toList ↔ a ∈ bytes := by
  have filtered : Char.ofNat a.toNat ∈ (decodeLossy bytes).toList ↔
      Char.ofNat a.toNat ∈ (decodeLossy bytes).toList.filter (·.toNat < 0x80) := by
    simp [asciiSmall small]
  rw [filtered, asciiKept, List.mem_map]
  constructor
  · intro found
    obtain ⟨b, member, same⟩ := found
    obtain ⟨inside, low⟩ := List.mem_filter.mp member
    have value : b.toNat = a.toNat := by
      rw [← asciiValue (of_decide_eq_true low), ← asciiValue small, same]
    exact UInt8.toNat_inj.mp value ▸ inside
  · intro inside
    exact ⟨a, List.mem_filter.mpr ⟨inside, decide_eq_true small⟩, rfl⟩

end ShellStyle.Text.Utf8
