import Mathlib.Data.Nat.Init
import ShellStyle.Proofs.JsonGrammar

/-! Readers for the values without parts. A reader takes what it can use from the front of a text and leaves
the rest. What it takes the grammar allows, and what the grammar allows it takes, if nothing behind could
belong to it. -/
namespace ShellStyle.Json

def Stops (p : Char → Bool) (text : List Char) : Prop := ∀ c ∈ text.head?, p c = false

def isPart (c : Char) : Bool := c.isDigit || c = '.' || c = 'e' || c = 'E'

def readDigits (text : List Char) : Option (List Char × List Char) :=
  if text.takeWhile Char.isDigit = [] then none
  else some (text.takeWhile Char.isDigit, text.dropWhile Char.isDigit)

def readWhole (text : List Char) : Option (List Char × List Char) := do
  let (digits, rest) ← readDigits text
  if leadingZero digits then none else some (digits, rest)

def readSign (plus : Bool) (text : List Char) : Int × List Char :=
  match text with
  | '-' :: rest => (-1, rest)
  | '+' :: rest => if plus then (1, rest) else (1, text)
  | _ => (1, text)

def readFraction (text : List Char) : Option (List Char × List Char) :=
  match text with
  | '.' :: rest => readDigits rest
  | _ => some ([], text)

def readExponent (text : List Char) : Option (Int × List Char) :=
  match text with
  | [] => some (0, [])
  | mark :: rest =>
    if mark = 'e' ∨ mark = 'E' then do
      let (s, rest) := readSign true rest
      let (digits, rest) ← readDigits rest
      some (s * Nat.ofDigitChars 10 digits 0, rest)
    else some (0, text)

def readNumeral (text : List Char) : Option (Rat × List Char) := do
  let (s, rest) := readSign false text
  let (whole, rest) ← readWhole rest
  let (fraction, rest) ← readFraction rest
  let (e, rest) ← readExponent rest
  some (numeral s whole fraction e, rest)

def readUnit (text : List Char) : Option (Nat × List Char) :=
  (codeUnit (text.take 4)).map (·, text.drop 4)

def readSecond (high : Nat) (text : List Char) : Option (Char × List Char) :=
  match text with
  | '\\' :: 'u' :: rest => do
    let (low, rest) ← readUnit rest
    if isHigh high && isLow low then some (paired high low, rest) else none
  | _ => none

def readCharacter (text : List Char) : Option (Char × List Char) :=
  match text with
  | '\\' :: 'u' :: rest => do
    let (n, rest) ← readUnit rest
    if n.isValidChar then some (Char.ofNat n, rest) else readSecond n rest
  | '\\' :: mark :: rest => (shortEscape mark).map (·, rest)
  | c :: rest => if standsAlone c then some (c, rest) else none
  | [] => none

section Digits

variable {text digits rest : List Char}

theorem takeStops {p : Char → Bool} (stop : Stops p rest) : rest.takeWhile p = [] := by
  cases rest with
  | nil => rfl
  | cons c more => simp [stop c rfl]

theorem dropStops {p : Char → Bool} (stop : Stops p rest) : rest.dropWhile p = rest := by
  cases rest with
  | nil => rfl
  | cons c more => simp [stop c rfl]

theorem digitsSound (h : readDigits text = some (digits, rest)) : text = digits ++ rest ∧ Digits digits := by
  unfold readDigits at h
  split at h
  · contradiction
  · rename_i some
    cases h
    have all : ∀ c ∈ text.takeWhile Char.isDigit, c.isDigit = true :=
      List.all_eq_true.mp List.all_takeWhile
    exact ⟨List.takeWhile_append_dropWhile.symm, some, all⟩

theorem digitsRead (h : Digits digits) (stop : Stops Char.isDigit rest) :
    readDigits (digits ++ rest) = some (digits, rest) := by
  obtain ⟨some, all⟩ := h
  have taken : (digits ++ rest).takeWhile Char.isDigit = digits := by
    rw [List.takeWhile_append_of_pos all, takeStops stop, List.append_nil]
  have left : (digits ++ rest).dropWhile Char.isDigit = rest := by
    rw [List.dropWhile_append_of_pos all, dropStops stop]
  simp [readDigits, taken, left, some]

theorem wholeSound (h : readWhole text = some (digits, rest)) : text = digits ++ rest ∧ Whole digits := by
  simp only [readWhole, bind, Option.bind_eq_some_iff] at h
  obtain ⟨⟨found, left⟩, taken, last⟩ := h
  obtain ⟨all, valid⟩ := digitsSound taken
  split at last
  · contradiction
  · rename_i noZero
    cases last
    exact ⟨all, valid, by simpa using noZero⟩

theorem wholeRead (h : Whole digits) (stop : Stops Char.isDigit rest) :
    readWhole (digits ++ rest) = some (digits, rest) := by
  obtain ⟨valid, noZero⟩ := h
  simp [readWhole, digitsRead valid stop, noZero]

theorem digitsStart (h : Digits digits) : ∃ c more, digits = c :: more ∧ c.isDigit = true := by
  obtain ⟨some, all⟩ := h
  obtain ⟨c, more, rfl⟩ := List.exists_cons_of_ne_nil some
  exact ⟨c, more, rfl, all c List.mem_cons_self⟩

end Digits

section Numerals

variable {plus : Bool} {text sign digits point power rest : List Char} {s e : Int} {q : Rat}

theorem stopsAppend {p : Char → Bool} (front : Stops p text) (back : Stops p rest) :
    Stops p (text ++ rest) := by
  cases text with
  | nil => exact back
  | cons c more => exact front

theorem partsStop {p : Char → Bool} (part : ∀ c, p c = true → isPart c = true) (stop : Stops isPart rest) :
    Stops p rest := by
  intro c first
  have none : isPart c = false := stop c first
  exact Bool.eq_false_iff.mpr fun holds => by simp [part c holds] at none

theorem digitPart (c : Char) (h : c.isDigit = true) : isPart c = true := by simp [isPart, h]

theorem fractionStops (h : Fraction point digits) : Stops Char.isDigit point := by
  cases h with
  | absent => simp [Stops]
  | point all => simp [Stops]

theorem exponentStops {p : Char → Bool} (small : p 'e' = false) (capital : p 'E' = false)
    (h : Exponent power e) : Stops p power := by
  cases h with
  | absent => simp [Stops]
  | letter mark signed all => rcases mark with rfl | rfl <;> simp [Stops, small, capital]

theorem signSound (plus : Bool) (text : List Char) :
    ∃ sign, text = sign ++ (readSign plus text).2 ∧ Sign plus sign (readSign plus text).1 := by
  fun_cases readSign plus text with
  | case1 rest => exact ⟨['-'], rfl, .minus⟩
  | case2 rest allowed => exact ⟨['+'], rfl, .plus allowed⟩
  | case3 rest => exact ⟨[], rfl, .absent⟩
  | case4 => exact ⟨[], rfl, .absent⟩

theorem signRead (h : Sign plus sign s) (all : Digits digits) :
    readSign plus (sign ++ (digits ++ rest)) = (s, digits ++ rest) := by
  obtain ⟨c, more, rfl, digit⟩ := digitsStart all
  cases h with
  | minus => rfl
  | plus allowed => simp [readSign, allowed]
  | absent =>
    have noMinus : c ≠ '-' := by rintro rfl; contradiction
    have noPlus : c ≠ '+' := by rintro rfl; contradiction
    simp [readSign, noMinus, noPlus]

theorem fractionSound (h : readFraction text = some (digits, rest)) :
    ∃ point, text = point ++ rest ∧ Fraction point digits := by
  unfold readFraction at h
  split at h
  · obtain ⟨rfl, all⟩ := digitsSound h
    exact ⟨'.' :: digits, rfl, .point all⟩
  · cases h
    exact ⟨[], rfl, .absent⟩

theorem fractionRead (h : Fraction point digits) (stop : Stops Char.isDigit rest)
    (noPoint : Stops (· == '.') rest) : readFraction (point ++ rest) = some (digits, rest) := by
  cases h with
  | point all => exact digitsRead all stop
  | absent =>
    cases rest with
    | nil => rfl
    | cons c more =>
      have other : c ≠ '.' := by simpa [Stops] using noPoint
      simp [readFraction, other]

theorem exponentSound (h : readExponent text = some (e, rest)) :
    ∃ power, text = power ++ rest ∧ Exponent power e := by
  unfold readExponent at h
  split at h
  · cases h
    exact ⟨[], rfl, .absent⟩
  · rename_i mark text
    split at h
    · rename_i letter
      simp only [bind, Option.bind_eq_some_iff] at h
      obtain ⟨⟨digits, left⟩, taken, last⟩ := h
      cases last
      obtain ⟨sign, signSplit, signed⟩ := signSound true text
      obtain ⟨digitsSplit, all⟩ := digitsSound taken
      refine ⟨mark :: (sign ++ digits), ?_, .letter letter signed all⟩
      rw [digitsSplit] at signSplit
      simp [signSplit]
    · cases h
      exact ⟨[], rfl, .absent⟩

theorem exponentRead (h : Exponent power e) (stop : Stops isPart rest) :
    readExponent (power ++ rest) = some (e, rest) := by
  cases h with
  | letter mark signed all =>
    simp [readExponent, mark, signRead signed all, digitsRead all (partsStop digitPart stop)]
  | absent =>
    cases rest with
    | nil => rfl
    | cons c more =>
      have other : ¬(c = 'e' ∨ c = 'E') := by
        have none := stop c rfl
        simp_all [isPart]
      simp [readExponent, other]

theorem numeralSound (h : readNumeral text = some (q, rest)) :
    ∃ taken, text = taken ++ rest ∧ Numeral taken q := by
  simp only [readNumeral, bind, Option.bind_eq_some_iff] at h
  obtain ⟨⟨whole, afterWhole⟩, hasWhole, h⟩ := h
  obtain ⟨⟨fraction, afterFraction⟩, hasFraction, h⟩ := h
  obtain ⟨⟨e, afterPower⟩, hasPower, last⟩ := h
  cases last
  obtain ⟨sign, signSplit, signed⟩ := signSound false text
  obtain ⟨wholeSplit, digits⟩ := wholeSound hasWhole
  obtain ⟨point, pointSplit, broken⟩ := fractionSound hasFraction
  obtain ⟨power, powerSplit, scaled⟩ := exponentSound hasPower
  refine ⟨_, ?_, .parts signed digits broken scaled⟩
  simp only at pointSplit powerSplit
  rw [wholeSplit, pointSplit, powerSplit] at signSplit
  simp [signSplit]

theorem numeralRead (h : Numeral text q) (stop : Stops isPart rest) :
    readNumeral (text ++ rest) = some (q, rest) := by
  cases h with
  | @parts sign s whole point fraction power e signed digits broken scaled =>
    have afterFraction : Stops Char.isDigit (power ++ rest) :=
      stopsAppend (exponentStops rfl rfl scaled) (partsStop digitPart stop)
    have afterWhole : Stops Char.isDigit (point ++ (power ++ rest)) :=
      stopsAppend (fractionStops broken) afterFraction
    have noPoint : Stops (· == '.') (power ++ rest) :=
      stopsAppend (exponentStops rfl rfl scaled) (partsStop (by simp [isPart]) stop)
    simp only [readNumeral, List.append_assoc, signRead signed digits.1, wholeRead digits afterWhole,
      fractionRead broken afterFraction noPoint, exponentRead scaled stop, bind, Option.bind_some]

end Numerals

section Characters

variable {text rest : List Char} {c : Char}

theorem unitSound {n : Nat} (h : readUnit text = some (n, rest)) :
    ∃ digits, text = digits ++ rest ∧ codeUnit digits = some n := by
  simp only [readUnit, Option.map_eq_some_iff] at h
  obtain ⟨unit, value, same⟩ := h
  cases same
  exact ⟨text.take 4, (List.take_append_drop 4 text).symm, value⟩

theorem unitRead {digits : List Char} {n : Nat} (h : codeUnit digits = some n) (rest : List Char) :
    readUnit (digits ++ rest) = some (n, rest) := by
  have four : digits.length = 4 := codeUnitLength h
  have taken : (digits ++ rest).take 4 = digits := by rw [← four, List.take_left]
  have left : (digits ++ rest).drop 4 = rest := by rw [← four, List.drop_left]
  simp [readUnit, taken, left, h]

theorem secondSound {high : Nat} (h : readSecond high text = some (c, rest)) :
    ∃ second low, text = '\\' :: 'u' :: second ++ rest ∧ codeUnit second = some low ∧
      isHigh high = true ∧ isLow low = true ∧ c = paired high low := by
  unfold readSecond at h
  split at h
  · simp only [bind, Option.bind_eq_some_iff] at h
    obtain ⟨⟨low, left⟩, taken, last⟩ := h
    split at last
    · rename_i halves
      simp only [Option.some.injEq, Prod.mk.injEq] at last
      obtain ⟨rfl, rfl⟩ := last
      obtain ⟨second, rfl, value⟩ := unitSound taken
      simp only [Bool.and_eq_true] at halves
      exact ⟨second, low, rfl, value, halves.1, halves.2, rfl⟩
    · contradiction
  · contradiction

theorem characterSound (h : readCharacter text = some (c, rest)) :
    ∃ taken, text = taken ++ rest ∧ Character taken c := by
  unfold readCharacter at h
  split at h
  · simp only [bind, Option.bind_eq_some_iff] at h
    obtain ⟨⟨n, left⟩, hasUnit, last⟩ := h
    obtain ⟨digits, rfl, value⟩ := unitSound hasUnit
    split at last
    · rename_i valid
      simp only [Option.some.injEq, Prod.mk.injEq] at last
      obtain ⟨rfl, rfl⟩ := last
      exact ⟨_, rfl, .unit value valid⟩
    · obtain ⟨second, low, same, two, isFirst, isSecond, meant⟩ := secondSound last
      rw [meant]
      refine ⟨_, ?_, .pair value two isFirst isSecond⟩
      simp only at same
      simp [same]
  · rename_i mark rest _
    simp only [Option.map_eq_some_iff] at h
    obtain ⟨meant, escape, same⟩ := h
    cases same
    exact ⟨['\\', mark], rfl, .short escape⟩
  · split at h
    · rename_i alone
      cases h
      exact ⟨_, rfl, .plain alone⟩
    · contradiction
  · contradiction

theorem halfAlone {n : Nat} (h : isHigh n = true) : ¬n.isValidChar := by
  simp only [isHigh, Bool.and_eq_true, decide_eq_true_eq] at h
  unfold Nat.isValidChar
  omega

theorem characterRead (h : Character text c) (rest : List Char) :
    readCharacter (text ++ rest) = some (c, rest) := by
  cases h with
  | plain alone =>
    have other : c ≠ '\\' := by rintro rfl; contradiction
    simp [readCharacter, alone, other]
  | @short mark _ escape =>
    have other : mark ≠ 'u' := by rintro rfl; contradiction
    simp [readCharacter, escape]
  | unit value valid => simp [readCharacter, unitRead value, valid]
  | pair one two isFirst isSecond =>
    simp [readCharacter, readSecond, unitRead one, unitRead two, halfAlone isFirst, isFirst, isSecond]

theorem characterTaken (h : Character text c) : text ≠ [] := by
  cases h <;> simp

theorem characterShorter (h : readCharacter text = some (c, rest)) : rest.length < text.length := by
  obtain ⟨taken, rfl, character⟩ := characterSound h
  have some : 0 < taken.length := List.length_pos_iff.mpr (characterTaken character)
  simp only [List.length_append]
  omega

end Characters

def readText (text : List Char) : Option (List Char × List Char) :=
  match _h : readCharacter text with
  | some (c, rest) => (readText rest).map fun (cs, rest) => (c :: cs, rest)
  | none =>
    match text with
    | '"' :: rest => some ([], rest)
    | _ => none
termination_by text.length
decreasing_by exact characterShorter _h

def readScalar (text : List Char) : Option (Value × List Char) :=
  match text with
  | 'n' :: 'u' :: 'l' :: 'l' :: rest => some (.null, rest)
  | 't' :: 'r' :: 'u' :: 'e' :: rest => some (.bool true, rest)
  | 'f' :: 'a' :: 'l' :: 's' :: 'e' :: rest => some (.bool false, rest)
  | '"' :: rest => (readText rest).map fun (cs, rest) => (.string (String.ofList cs), rest)
  | _ => (readNumeral text).map fun (q, rest) => (.number q, rest)

section Scalars

variable {text rest : List Char}

theorem textNext {c : Char} (h : readCharacter text = some (c, rest)) :
    readText text = (readText rest).map fun (cs, rest) => (c :: cs, rest) := by
  rw [readText]
  split
  · rename_i found
    rw [h] at found
    cases found
    rfl
  · simp_all

theorem textEnd (rest : List Char) : readText ('"' :: rest) = some ([], rest) := by
  have none : readCharacter ('"' :: rest) = none := by simp [readCharacter, standsAlone]
  rw [readText]
  split
  · simp_all
  · rfl

theorem textSound {cs : List Char} (h : readText text = some (cs, rest)) :
    ∃ body, text = body ++ '"' :: rest ∧ Spells body cs := by
  fun_induction readText text generalizing cs with
  | case1 text c left read ih =>
    simp only [Option.map_eq_some_iff] at h
    obtain ⟨⟨later, behind⟩, more, same⟩ := h
    cases same
    obtain ⟨body, rfl, spells⟩ := ih more
    obtain ⟨taken, rfl, character⟩ := characterSound read
    exact ⟨taken ++ body, (List.append_assoc ..).symm, .cons character spells⟩
  | case2 left none =>
    cases h
    exact ⟨[], rfl, .nil⟩
  | case3 text none other => contradiction

theorem textRead {body cs : List Char} (h : Spells body cs) (rest : List Char) :
    readText (body ++ '"' :: rest) = some (cs, rest) := by
  induction h with
  | nil => exact textEnd rest
  | @cons text c more cs head tail ih =>
    have first := characterRead head (more ++ '"' :: rest)
    rw [List.append_assoc, textNext first, ih]
    rfl

theorem scalarSound {v : Value} (h : readScalar text = some (v, rest)) :
    ∃ taken, text = taken ++ rest ∧ Denotes taken (.value v) := by
  unfold readScalar at h
  split at h
  · cases h
    exact ⟨_, rfl, .null⟩
  · cases h
    exact ⟨_, rfl, .true⟩
  · cases h
    exact ⟨_, rfl, .false⟩
  · simp only [Option.map_eq_some_iff] at h
    obtain ⟨⟨cs, left⟩, read, same⟩ := h
    cases same
    obtain ⟨body, rfl, spells⟩ := textSound read
    have quoted : Quoted ('"' :: body ++ ['"']) (String.ofList cs) := .between (by simpa using spells)
    exact ⟨_, by simp, .string quoted⟩
  · simp only [Option.map_eq_some_iff] at h
    obtain ⟨⟨q, left⟩, read, same⟩ := h
    cases same
    obtain ⟨taken, rfl, digits⟩ := numeralSound read
    exact ⟨taken, rfl, .number digits⟩

theorem stringRead {s : String} (h : Quoted text s) (rest : List Char) :
    readScalar (text ++ rest) = some (.string s, rest) := by
  obtain ⟨spells⟩ := h
  simp [readScalar, textRead spells]

theorem numeralStart {q : Rat} (h : Numeral text q) :
    ∃ c more, text = c :: more ∧ (c = '-' ∨ c.isDigit = true) := by
  cases h with
  | parts signed digits broken scaled =>
    obtain ⟨c, more, rfl, digit⟩ := digitsStart digits.1
    cases signed with
    | absent => exact ⟨c, _, rfl, .inr digit⟩
    | minus => exact ⟨'-', _, rfl, .inl rfl⟩
    | plus allowed => contradiction

theorem numberRead {q : Rat} (h : Numeral text q) (stop : Stops isPart rest) :
    readScalar (text ++ rest) = some (.number q, rest) := by
  have read := numeralRead h stop
  obtain ⟨c, more, rfl, first⟩ := numeralStart h
  unfold readScalar
  split <;> simp_all

end Scalars

end ShellStyle.Json
