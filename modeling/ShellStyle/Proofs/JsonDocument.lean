import ShellStyle.Proofs.JsonReader
import ShellStyle.Report.Document

/-! The document of a report loses nothing. What is written denotes the value that was meant, at any depth of
indentation, and the report is found again among the members of that value. -/
namespace ShellStyle
namespace Json

mutual

def value : Json → Value
  | bool b => .bool b
  | number n => .number n
  | string s => .string s
  | array items => .array (values items)
  | object fields => .object (fieldValues fields)

def values : List Json → List Value
  | [] => []
  | item :: rest => item.value :: values rest

def fieldValues : List (String × Json) → List (String × Value)
  | [] => []
  | (key, field) :: rest => (key, field.value) :: fieldValues rest

end

section Strings

theorem lowUnit : ∀ n < 16, codeUnit ('0' :: '0' :: '0' :: Text.hexDigits n) = some n := by decide

theorem highUnit : ∀ n < 32, 16 ≤ n → codeUnit ('0' :: '0' :: Text.hexDigits n) = some n := by decide

theorem unitCharacter {digits : List Char} {c : Char} (h : codeUnit digits = some c.toNat) :
    Character ('\\' :: 'u' :: digits) c := by
  have unit := Character.unit h c.valid
  rwa [Char.ofNat_toNat] at unit

theorem escapedCharacter (c : Char) : Character (escapeChar c) c := by
  unfold escapeChar
  split
  · exact .short rfl
  · exact .short rfl
  · exact .short rfl
  · exact .short rfl
  · exact .short rfl
  · exact .short rfl
  · exact .short rfl
  · rename_i noQuote noSlash _ _ _ _ _
    split
    · rename_i low
      exact unitCharacter (lowUnit c.toNat low)
    · split
      · rename_i high low
        exact unitCharacter (highUnit c.toNat low (by omega))
      · rename_i printable
        have alone : standsAlone c = true := by
          simp only [standsAlone, Bool.and_eq_true, decide_eq_true_eq, bne_iff_ne]
          exact ⟨⟨by omega, noQuote⟩, noSlash⟩
        exact .plain alone

theorem escapedSpells (cs : List Char) : Spells (cs.flatMap escapeChar) cs := by
  induction cs with
  | nil => exact .nil
  | cons c rest ih => exact .cons (escapedCharacter c) ih

theorem quoteQuoted (s : String) : Quoted (quote s) s := .between (escapedSpells s.toList)

end Strings

section Numbers

theorem leadingDigit : ∀ n : Nat, 0 < n → ∃ c more, Nat.toDigits 10 n = c :: more ∧ c ≠ '0' := by
  intro n
  induction n using Nat.strongRecOn with
  | ind n ih =>
    intro positive
    by_cases small : n < 10
    · have digit : ∀ n < 10, 0 < n → Nat.digitChar n ≠ '0' := by decide
      exact ⟨_, [], Nat.toDigits_of_lt_base small, digit n small positive⟩
    · obtain ⟨c, more, same, other⟩ := ih (n / 10) (by omega) (by omega)
      rw [Nat.toDigits_of_base_le (by omega) (by omega), same]
      exact ⟨c, _, rfl, other⟩

theorem digitsWhole (n : Nat) : Whole (Nat.toDigits 10 n) := by
  refine ⟨⟨Nat.toDigits_ne_nil, ?_⟩, ?_⟩
  · intro c member
    exact Nat.isDigit_of_mem_toDigits (by omega) (by omega) member
  · by_cases zero : n = 0
    · rw [zero]
      rfl
    · obtain ⟨c, more, same, other⟩ := leadingDigit n (by omega)
      rw [same]
      unfold leadingZero
      split <;> simp_all

theorem digitsNumeral (n : Nat) : Numeral (Nat.toDigits 10 n) n := by
  have parts := Numeral.parts (.absent : Sign false [] 1) (digitsWhole n) .absent .absent
  have meant : numeral 1 (Nat.toDigits 10 n) [] 0 = n := by
    simp [numeral, Nat.ofDigitChars_ten_toDigits]
  rw [meant] at parts
  simpa using parts

end Numbers

section Written

theorem lineBreakBlank (depth : Nat) : Blank (lineBreak depth) := by
  intro c member
  simp only [lineBreak, List.mem_cons, List.mem_replicate] at member
  rcases member with rfl | ⟨_, rfl⟩ <;> rfl

theorem memberBlank {text blanks : List Char} {key : String} {v : Value}
    (h : Denotes text (.member key v)) (blank : Blank blanks) :
    Denotes (text ++ blanks) (.member key v) := by
  cases h with
  | member left quoted right element =>
    have member := Denotes.member left quoted right (elementBlank element blank)
    simpa using member

theorem fieldMember {text : List Char} {v : Value} (depth : Nat) (key : String)
    (h : Denotes text (.value v)) :
    Denotes (lineBreak depth ++ (quote key ++ ':' :: ' ' :: text)) (.member key v) := by
  have oneBlank : Blank [' '] := by simp [Blank, isBlank]
  have member := Denotes.member (lineBreakBlank depth) (quoteQuoted key) blankNil (blankElement h oneBlank)
  simpa using member

/- The induction is over the tree. What is written for the rest of an array or object is taken together with
the text of the item before it, since a comma joins the two. -/
mutual

theorem writeDenotes : (j : Json) → ∀ depth, Denotes (write depth j) (.value j.value)
  | bool true, _ => .true
  | bool false, _ => .false
  | number n, _ => .number (digitsNumeral n)
  | string s, _ => .string (quoteQuoted s)
  | array [], _ => .emptyArray blankNil
  | object [], _ => .emptyObject blankNil
  | array (item :: rest), depth => by
    have first := blankElement (writeDenotes item (depth + 1)) (lineBreakBlank (depth + 1))
    have whole := Denotes.array (itemsDenote rest (depth + 1) first (lineBreakBlank depth))
    simpa [write, value, values] using whole
  | object ((key, field) :: rest), depth => by
    have first := fieldMember (depth + 1) key (writeDenotes field (depth + 1))
    have whole := Denotes.object (fieldsDenote rest (depth + 1) first (lineBreakBlank depth))
    simpa [write, value, fieldValues] using whole

theorem itemsDenote : (rest : List Json) → ∀ depth {text ending : List Char} {v : Value},
    Denotes text (.element v) → Blank ending →
      Denotes (text ++ (writeItems depth rest ++ ending)) (.items (v :: values rest))
  | [], _, _, _, _, first, blank => .lastItem (elementBlank first blank)
  | item :: rest, depth, _, _, _, first, blank => by
    have next := blankElement (writeDenotes item depth) (lineBreakBlank depth)
    have whole := Denotes.items first (itemsDenote rest depth next blank)
    simpa [writeItems, values] using whole

theorem fieldsDenote : (rest : List (String × Json)) → ∀ depth {text ending : List Char} {key : String}
    {v : Value}, Denotes text (.member key v) → Blank ending →
      Denotes (text ++ (writeFields depth rest ++ ending)) (.members ((key, v) :: fieldValues rest))
  | [], _, _, _, _, _, first, blank => .lastMember (memberBlank first blank)
  | (other, field) :: rest, depth, _, _, _, _, first, blank => by
    have next := fieldMember depth other (writeDenotes field depth)
    have whole := Denotes.members first (fieldsDenote rest depth next blank)
    simpa [writeFields, fieldValues] using whole

end

theorem renderDenotes (j : Json) (v : Value) : Denotes j.render.toList (.element v) ↔ v = j.value := by
  have meant : Denotes j.render.toList (.element j.value) := by
    rw [renderToList]
    exact blankElement (writeDenotes j 0) blankNil
  constructor
  · intro other
    have same := ((readIff _ _).mpr other).symm.trans ((readIff _ _).mpr meant)
    exact Option.some.inj same
  · rintro rfl
    exact meant

theorem renderRead (j : Json) : read j.render = some j.value :=
  (readIff _ _).mpr ((renderDenotes j _).mpr rfl)

end Written

def Value.field? (name : String) : Value → Option Value
  | .object members => members.lookup name
  | _ => none

def Value.text? : Value → Option String
  | .string s => some s
  | _ => none

def Value.flag? : Value → Option Bool
  | .bool b => some b
  | _ => none

def Value.count? : Value → Option Nat
  | .number q => if q.den = 1 ∧ 0 ≤ q.num then some q.num.toNat else none
  | _ => none

def Value.items? : Value → Option (List Value)
  | .array items => some items
  | _ => none

end Json

open Json (Value)

def Verdict.ofValue (v : Value) : Option Verdict := do
  let folder ← (v.field? "folder").bind Value.text?
  let file ← (v.field? "file").bind Value.text?
  let check ← (v.field? "check").bind Value.text?
  let passed ← (v.field? "passed").bind Value.flag?
  let message ← (v.field? "message").bind Value.text?
  some ⟨folder, file, check, passed, message⟩

def Report.ofValue (v : Value) : Option Report := do
  let results ← (v.field? "results").bind Value.items?
  let verdicts ← results.mapM Verdict.ofValue
  let summary ← v.field? "summary"
  let files ← (summary.field? "files").bind Value.count?
  some ⟨verdicts, files⟩

def Verdict.value (v : Verdict) : Value :=
  .object [
    ("check", .string v.check),
    ("file", .string v.file),
    ("folder", .string v.folder),
    ("message", .string v.message),
    ("passed", .bool v.passed)]

namespace Report

def value (r : Report) : Value :=
  .object [
    ("results", .array (r.verdicts.map Verdict.value)),
    ("summary", .object [
      ("checks", .number r.verdicts.length),
      ("failures", .number r.failures.length),
      ("files", .number r.files),
      ("passed", .bool r.passed),
      ("passingFiles", .number r.cleanFiles)])]

theorem verdictValues (verdicts : List Verdict) :
    Json.values (verdicts.map Verdict.toJson) = verdicts.map Verdict.value := by
  induction verdicts with
  | nil => rfl
  | cons v rest ih =>
    rw [List.map_cons, Json.values, ih]
    rfl

theorem toJsonValue (r : Report) : r.toJson.value = r.value := by
  have verdicts := verdictValues r.verdicts
  simp only [toJson, value, Json.value, Json.fieldValues, verdicts]

theorem verdictFound (v : Verdict) : Verdict.ofValue v.value = some v := by
  simp [Verdict.ofValue, Verdict.value, Value.field?, Value.text?, Value.flag?, List.lookup_cons]

theorem verdictsFound (verdicts : List Verdict) :
    (verdicts.map Verdict.value).mapM Verdict.ofValue = some verdicts := by
  induction verdicts with
  | nil => rfl
  | cons v rest ih => simp [verdictFound, ih]

theorem valueFound (r : Report) : ofValue r.value = some r := by
  have verdicts := verdictsFound r.verdicts
  simp [ofValue, value, Value.field?, Value.items?, Value.count?, List.lookup_cons, verdicts]

/- Any reader that keeps to the grammar finds this one value, and the whole report in it. -/
theorem documentReadsBack (r : Report) :
    Json.read r.document = some r.value ∧
    (∀ v : Value, Json.Denotes r.document.toList (.element v) ↔ v = r.value) ∧
    ofValue r.value = some r ∧
    ∀ other : Report, other.document = r.document ↔ other = r := by
  have written : ∀ r : Report, Json.read r.document = some r.value := by
    intro r
    rw [document, Json.renderRead, toJsonValue]
  refine ⟨written r, ?_, valueFound r, ?_⟩
  · intro v
    rw [document, Json.renderDenotes, toJsonValue]
  · intro other
    constructor
    · intro same
      have values : some other.value = some r.value := by rw [← written other, same, written r]
      have found : some other = some r := by
        rw [← valueFound other, Option.some.inj values, valueFound r]
      exact Option.some.inj found
    · rintro rfl
      rfl

end Report

end ShellStyle
