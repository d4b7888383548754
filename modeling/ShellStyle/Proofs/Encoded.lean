import ShellStyle.Proofs.Ascii

/-! Well-formed UTF-8, said by the values that the bytes spell, and the decoder as the inverse of the encoder.
A well-formed sequence spells one scalar value and is the shortest that does. The encoder writes these
sequences and no others, and the decoder takes each of them as a whole. -/
namespace ShellStyle.Text.Utf8

/- The high bits of the lead byte say how many tails follow it, and every tail gives six bits of the value. -/
inductive Spells : List UInt8 → Nat → Prop where
  | one {a : UInt8} (lead : a.toNat < 0b10000000) : Spells [a] a.toNat
  | two {a b : UInt8} (lead : a.toNat / 32 = 0b110) (second : b.toNat / 64 = 0b10) :
      Spells [a, b] (a.toNat % 32 * 64 + b.toNat % 64)
  | three {a b c : UInt8} (lead : a.toNat / 16 = 0b1110) (second : b.toNat / 64 = 0b10)
      (third : c.toNat / 64 = 0b10) :
      Spells [a, b, c] ((a.toNat % 16 * 64 + b.toNat % 64) * 64 + c.toNat % 64)
  | four {a b c d : UInt8} (lead : a.toNat / 8 = 0b11110) (second : b.toNat / 64 = 0b10)
      (third : c.toNat / 64 = 0b10) (fourth : d.toNat / 64 = 0b10) :
      Spells [a, b, c, d] (((a.toNat % 8 * 64 + b.toNat % 64) * 64 + c.toNat % 64) * 64 + d.toNat % 64)

def least : Nat → Nat
  | 0 | 1 => 0
  | 2 => 0x80
  | 3 => 0x800
  | _ => 0x10000

/- No overlong form, no surrogate and nothing above U+10FFFF. -/
structure Sound (piece : List UInt8) (value : Nat) : Prop where
  spelt : Spells piece value
  shortest : least piece.length ≤ value
  scalar : ¬ (0xD800 ≤ value ∧ value ≤ 0xDFFF)
  bounded : value ≤ 0x10FFFF

inductive Valid : List UInt8 → Prop where
  | nil : Valid []
  | cons {piece rest : List UInt8} {value : Nat} (sound : Sound piece value) (later : Valid rest) :
      Valid (piece ++ rest)

variable {piece bytes : List UInt8} {value : Nat} {text : String}

theorem soundValue (sound : Sound piece value) : (Char.ofNat value).toNat = value := by
  have valid : value.isValidChar := by
    have scalar := sound.scalar
    have bounded := sound.bounded
    unfold Nat.isValidChar
    omega
  rw [Char.toNat_ofNat, if_pos valid]

theorem encodeSound (sound : Sound piece value) : String.utf8EncodeChar (Char.ofNat value) = piece := by
  have number : (Char.ofNat value).val.toNat = value := soundValue sound
  rw [String.utf8EncodeChar.eq_def]
  simp only [number]
  obtain ⟨spelt, shortest, scalar, bounded⟩ := sound
  cases spelt with
  | one lead =>
    rw [if_pos (by omega), UInt8.ofNat_toNat]
  | @two a b lead second =>
    simp only [List.length_cons, List.length_nil, least] at shortest
    rw [if_neg (by omega), if_pos (by omega)]
    simp only [List.cons.injEq, and_true, ← UInt8.toNat_inj, UInt8.toNat_ofNat']
    omega
  | @three a b c lead second third =>
    simp only [List.length_cons, List.length_nil, least] at shortest
    rw [if_neg (by omega), if_neg (by omega), if_pos (by omega)]
    simp only [List.cons.injEq, and_true, ← UInt8.toNat_inj, UInt8.toNat_ofNat']
    omega
  | @four a b c d lead second third fourth =>
    simp only [List.length_cons, List.length_nil, least] at shortest
    rw [if_neg (by omega), if_neg (by omega), if_neg (by omega)]
    simp only [List.cons.injEq, and_true, ← UInt8.toNat_inj, UInt8.toNat_ofNat']
    omega

theorem spellsValue {other : Nat} (spelt : Spells piece value) (same : value = other) :
    Spells piece other := same ▸ spelt

theorem spellsCharacter (c : Char) : Spells (String.utf8EncodeChar c) c.toNat := by
  have bounded : c.toNat < 0x110000 := by
    have valid : c.toNat.isValidChar := c.valid
    unfold Nat.isValidChar at valid
    omega
  have number : c.val.toNat = c.toNat := rfl
  rw [String.utf8EncodeChar.eq_def]
  simp only [number]
  split
  · refine spellsValue (.one ?_) ?_ <;> simp only [UInt8.toNat_ofNat'] <;> omega
  split
  · refine spellsValue (.two ?_ ?_) ?_ <;> simp only [UInt8.toNat_ofNat'] <;> omega
  split
  · refine spellsValue (.three ?_ ?_ ?_) ?_ <;> simp only [UInt8.toNat_ofNat'] <;> omega
  · refine spellsValue (.four ?_ ?_ ?_ ?_) ?_ <;> simp only [UInt8.toNat_ofNat'] <;> omega

theorem characterShortest (c : Char) : least (String.utf8EncodeChar c).length ≤ c.toNat := by
  have number : c.val.toNat = c.toNat := rfl
  rw [String.utf8EncodeChar.eq_def]
  simp only [number]
  split
  · exact Nat.zero_le _
  split
  · simp only [List.length_cons, List.length_nil, least]
    omega
  split
  · simp only [List.length_cons, List.length_nil, least]
    omega
  · simp only [List.length_cons, List.length_nil, least]
    omega

theorem soundCharacter (c : Char) : Sound (String.utf8EncodeChar c) c.toNat := by
  have valid : c.toNat.isValidChar := c.valid
  unfold Nat.isValidChar at valid
  exact ⟨spellsCharacter c, characterShortest c, by omega, by omega⟩

theorem soundTwo {a b : UInt8} (two : (decide (0xC2 ≤ a) && decide (a ≤ 0xDF)) = true)
    (second : isTail b = true) : Sound [a, b] (a.toNat % 32 * 64 + b.toNat % 64) := by
  have lead := rangeBounds two
  have tail := tailBounds second
  simp only [UInt8.reduceToNat] at lead
  refine ⟨.two (by omega) (by omega), ?_, by omega, by omega⟩
  simp only [List.length_cons, List.length_nil, least]
  omega

theorem soundThree {a b c : UInt8} (three : (decide (0xE0 ≤ a) && decide (a ≤ 0xEF)) = true)
    (second : isSecond a b = true) (third : isTail c = true) :
    Sound [a, b, c] ((a.toNat % 16 * 64 + b.toNat % 64) * 64 + c.toNat % 64) := by
  have lead := rangeBounds three
  have next := secondBounds second
  have tail := tailBounds third
  simp only [UInt8.reduceToNat] at lead
  refine ⟨.three (by omega) (by omega) (by omega), ?_, by omega, by omega⟩
  simp only [List.length_cons, List.length_nil, least]
  omega

theorem soundFour {a b c d : UInt8} (four : (decide (0xF0 ≤ a) && decide (a ≤ 0xF4)) = true)
    (second : isSecond a b = true) (third : isTail c = true) (fourth : isTail d = true) :
    Sound [a, b, c, d] (((a.toNat % 8 * 64 + b.toNat % 64) * 64 + c.toNat % 64) * 64 + d.toNat % 64) := by
  have lead := rangeBounds four
  have next := secondBounds second
  have tail := tailBounds third
  have last := tailBounds fourth
  simp only [UInt8.reduceToNat] at lead
  refine ⟨.four (by omega) (by omega) (by omega) (by omega), ?_, by omega, by omega⟩
  simp only [List.length_cons, List.length_nil, least]
  omega

theorem rangeHolds {a low high : UInt8} (least : low.toNat ≤ a.toNat) (most : a.toNat ≤ high.toNat) :
    (decide (low ≤ a) && decide (a ≤ high)) = true := by
  simp [UInt8.le_iff_toNat_le, least, most]

theorem tailHolds {b : UInt8} (tail : b.toNat / 64 = 0b10) : isTail b = true := by
  refine rangeHolds ?_ ?_ <;> simp only [UInt8.reduceToNat] <;> omega

theorem secondHolds {a b : UInt8} (tail : b.toNat / 64 = 0b10) (three : a.toNat = 0xE0 → 0xA0 ≤ b.toNat)
    (surrogate : a.toNat = 0xED → b.toNat ≤ 0x9F) (four : a.toNat = 0xF0 → 0x90 ≤ b.toNat)
    (large : a.toNat = 0xF4 → b.toNat ≤ 0x8F) : isSecond a b = true := by
  rw [isSecond]
  split
  · rename_i lead
    have low := three (congrArg UInt8.toNat lead)
    refine rangeHolds ?_ ?_ <;> simp only [UInt8.reduceToNat] <;> omega
  split
  · rename_i lead
    have high := surrogate (congrArg UInt8.toNat lead)
    refine rangeHolds ?_ ?_ <;> simp only [UInt8.reduceToNat] <;> omega
  split
  · rename_i lead
    have low := four (congrArg UInt8.toNat lead)
    refine rangeHolds ?_ ?_ <;> simp only [UInt8.reduceToNat] <;> omega
  split
  · rename_i lead
    have high := large (congrArg UInt8.toNat lead)
    refine rangeHolds ?_ ?_ <;> simp only [UInt8.reduceToNat] <;> omega
  · exact tailHolds tail

theorem rangeMissed {a low high : UInt8} (above : high.toNat < a.toNat) :
    ¬ (decide (low ≤ a) && decide (a ≤ high)) = true :=
  fun inside => Nat.not_le_of_lt above (rangeBounds inside).2

theorem leadWide {a : UInt8} (wide : 0x80 ≤ a.toNat) : ¬ a < 0x80 := by
  simpa [UInt8.lt_iff_toNat_lt] using wide

theorem scanSound (sound : Sound piece value) (rest : List UInt8) :
    scan (piece ++ rest) = some (Char.ofNat value) :: scan rest := by
  obtain ⟨spelt, shortest, scalar, bounded⟩ := sound
  cases spelt with
  | one lead => exact scanAscii (UInt8.lt_iff_toNat_lt.mpr lead) rest
  | @two a b lead second =>
    simp only [List.length_cons, List.length_nil, least] at shortest
    obtain ⟨low, high⟩ : 0xC2 ≤ a.toNat ∧ a.toNat ≤ 0xDF := by omega
    have wide : ¬ a < 0x80 := leadWide (le_trans (by decide) low)
    have two : (decide (0xC2 ≤ a) && decide (a ≤ 0xDF)) = true := rangeHolds low high
    have tail : isTail b = true := tailHolds second
    rw [List.cons_append, List.cons_append, scan.eq_def]
    simp only [if_neg wide, if_pos two, tail, if_true, scalar2, List.nil_append]
  | @three a b c lead second third =>
    simp only [List.length_cons, List.length_nil, least] at shortest
    obtain ⟨low, high⟩ : 0xE0 ≤ a.toNat ∧ a.toNat ≤ 0xEF := by omega
    have wide : ¬ a < 0x80 := leadWide (le_trans (by decide) low)
    have two : ¬ (decide (0xC2 ≤ a) && decide (a ≤ 0xDF)) = true :=
      rangeMissed (lt_of_lt_of_le (by decide) low)
    have three : (decide (0xE0 ≤ a) && decide (a ≤ 0xEF)) = true := rangeHolds low high
    have next : isSecond a b = true := secondHolds second (by omega) (by omega) (by omega) (by omega)
    have tail : isTail c = true := tailHolds third
    rw [List.cons_append, List.cons_append, List.cons_append, scan.eq_def]
    simp only [if_neg wide, if_neg two, if_pos three, next, tail, if_true, scalar3, List.nil_append]
  | @four a b c d lead second third fourth =>
    simp only [List.length_cons, List.length_nil, least] at shortest
    obtain ⟨low, high⟩ : 0xF0 ≤ a.toNat ∧ a.toNat ≤ 0xF4 := by omega
    have wide : ¬ a < 0x80 := leadWide (le_trans (by decide) low)
    have two : ¬ (decide (0xC2 ≤ a) && decide (a ≤ 0xDF)) = true :=
      rangeMissed (lt_of_lt_of_le (by decide) low)
    have three : ¬ (decide (0xE0 ≤ a) && decide (a ≤ 0xEF)) = true :=
      rangeMissed (lt_of_lt_of_le (by decide) low)
    have four : (decide (0xF0 ≤ a) && decide (a ≤ 0xF4)) = true := rangeHolds low high
    have next : isSecond a b = true := secondHolds second (by omega) (by omega) (by omega) (by omega)
    have tail : isTail c = true := tailHolds third
    have last : isTail d = true := tailHolds fourth
    rw [List.cons_append, List.cons_append, List.cons_append, List.cons_append, scan.eq_def]
    simp only [if_neg wide, if_neg two, if_neg three, if_pos four, next, tail, last, if_true, scalar4,
      List.nil_append]

theorem scanCharacter (c : Char) (rest : List UInt8) :
    scan (String.utf8EncodeChar c ++ rest) = some c :: scan rest := by
  rw [scanSound (soundCharacter c), Char.ofNat_toNat]

theorem scanEncoded (cs : List Char) (rest : List UInt8) :
    scan (cs.flatMap String.utf8EncodeChar ++ rest) = cs.map some ++ scan rest := by
  induction cs with
  | nil => rfl
  | cons c cs ih => rw [List.flatMap_cons, List.append_assoc, scanCharacter, ih, List.map_cons, List.cons_append]

theorem asciiSound {a : UInt8} (small : a < 0x80) : Sound [a] a.toNat := by
  have low : a.toNat < 0x80 := UInt8.lt_iff_toNat_lt.mp small
  exact ⟨.one low, Nat.zero_le _, by omega, by omega⟩

theorem encodeNext {cs : List Char} {items : List (Option Char)} {rest : List UInt8}
    (sound : Sound piece value) (whole : some (Char.ofNat value) :: items = cs.map some)
    (later : ∀ {more : List Char}, items = more.map some → more.flatMap String.utf8EncodeChar = rest) :
    cs.flatMap String.utf8EncodeChar = piece ++ rest := by
  obtain ⟨c, more, rfl, same, tail⟩ := List.map_eq_cons_iff.mp whole.symm
  rw [List.flatMap_cons, Option.some.inj same, encodeSound sound, later tail.symm]

theorem encodeScanned (bytes : List UInt8) {cs : List Char} (whole : scan bytes = cs.map some) :
    cs.flatMap String.utf8EncodeChar = bytes := by
  fun_induction scan bytes generalizing cs with
  | case1 =>
    rw [List.map_eq_nil_iff.mp whole.symm]
    rfl
  | case2 a r small ih => exact encodeNext (asciiSound small) whole ih
  | case3 a _ two b r second ih => exact encodeNext (soundTwo two second) whole ih
  | case6 a _ _ three b second c r third ih => exact encodeNext (soundThree three second third) whole ih
  | case11 a _ _ _ four b second c third d r fourth ih =>
    exact encodeNext (soundFour four second third fourth) whole ih
  | _ => cases cs <;> simp at whole

theorem decodeEncode (text : String) : decode? (encode text) = some text := by
  have scanned := scanEncoded text.toList []
  rw [List.append_nil, scan, List.append_nil] at scanned
  rw [decode?, encode, scanned, wellFormedIff.mpr rfl, Option.map_some, String.ofList_toList]

theorem encodeInjective {s t : String} (same : encode s = encode t) : s = t :=
  Option.some.inj ((decodeEncode s).symm.trans (same ▸ decodeEncode t))

theorem decodeIff : decode? bytes = some text ↔ encode text = bytes := by
  refine ⟨fun decoded => ?_, fun same => same ▸ decodeEncode text⟩
  obtain ⟨cs, whole, rfl⟩ := Option.map_eq_some_iff.mp decoded
  rw [encode, String.toList_ofList]
  exact encodeScanned bytes (wellFormedIff.mp whole)

theorem validEncode (cs : List Char) : Valid (cs.flatMap String.utf8EncodeChar) := by
  induction cs with
  | nil => exact .nil
  | cons c cs ih => exact .cons (soundCharacter c) ih

theorem validIff : Valid bytes ↔ ∃ text, decode? bytes = some text := by
  constructor
  · intro valid
    induction valid with
    | nil => exact ⟨"", rfl⟩
    | @cons piece rest value sound _ ih =>
      obtain ⟨text, decoded⟩ := ih
      refine ⟨String.singleton (Char.ofNat value) ++ text, decodeIff.mpr ?_⟩
      rw [encodeAppend, decodeIff.mp decoded, encode, String.toList_singleton, List.flatMap_singleton,
        encodeSound sound]
  · intro decoded
    obtain ⟨text, decoded⟩ := decoded
    rw [← decodeIff.mp decoded]
    exact validEncode text.toList

theorem decodeNone : decode? bytes = none ↔ ¬ Valid bytes := by
  rw [validIff, not_exists, Option.eq_none_iff_forall_ne_some]

end ShellStyle.Text.Utf8
