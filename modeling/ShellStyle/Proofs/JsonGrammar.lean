import ShellStyle.Json
import ShellStyle.Toml.Quoted

/-! The grammar of JSON, and the value that a text denotes under it. Blanks may stand around every value, a
number has a sign, whole digits, a fraction and an exponent, and a string may escape any of its characters.
A code unit that is half of a pair denotes a character only together with the other half. -/
namespace ShellStyle.Json
open Toml.Quoted (hexValue)

inductive Value where
  | null
  | bool (value : Bool)
  | number (value : Rat)
  | string (value : String)
  | array (items : List Value)
  | object (members : List (String × Value))

def isBlank (c : Char) : Bool := c = ' ' || c = '\t' || c = '\n' || c = '\r'

def Blank (text : List Char) : Prop := ∀ c ∈ text, isBlank c = true

def standsAlone (c : Char) : Bool := 32 ≤ c.toNat && c != '"' && c != '\\'

def shortEscape (mark : Char) : Option Char :=
  match mark with
  | '"' => some '"'
  | '\\' => some '\\'
  | '/' => some '/'
  | 'b' => some '\x08'
  | 'f' => some '\x0c'
  | 'n' => some '\n'
  | 'r' => some '\r'
  | 't' => some '\t'
  | _ => none

def codeUnit (digits : List Char) : Option Nat :=
  match digits with
  | [a, b, c, d] => do
    let a ← hexValue a
    let b ← hexValue b
    let c ← hexValue c
    let d ← hexValue d
    some (4096 * a + 256 * b + 16 * c + d)
  | _ => none

def isHigh (unit : Nat) : Bool := 0xD800 ≤ unit && unit < 0xDC00

def isLow (unit : Nat) : Bool := 0xDC00 ≤ unit && unit < 0xE000

def paired (high low : Nat) : Char :=
  Char.ofNat (0x10000 + (high - 0xD800) * 0x400 + (low - 0xDC00))

inductive Character : List Char → Char → Prop where
  | plain {c} (alone : standsAlone c = true) : Character [c] c
  | short {mark c} (escape : shortEscape mark = some c) : Character ['\\', mark] c
  | unit {digits n} (value : codeUnit digits = some n) (valid : n.isValidChar) :
      Character ('\\' :: 'u' :: digits) (Char.ofNat n)
  | pair {first second high low} (one : codeUnit first = some high) (two : codeUnit second = some low)
      (isFirst : isHigh high = true) (isSecond : isLow low = true) :
      Character ('\\' :: 'u' :: first ++ '\\' :: 'u' :: second) (paired high low)

inductive Spells : List Char → List Char → Prop where
  | nil : Spells [] []
  | cons {text c more cs} (head : Character text c) (tail : Spells more cs) :
      Spells (text ++ more) (c :: cs)

inductive Quoted : List Char → String → Prop where
  | between {body s} (spells : Spells body s.toList) : Quoted ('"' :: body ++ ['"']) s

def Digits (text : List Char) : Prop := text ≠ [] ∧ ∀ c ∈ text, c.isDigit = true

def leadingZero (text : List Char) : Bool :=
  match text with
  | '0' :: _ :: _ => true
  | _ => false

def Whole (text : List Char) : Prop := Digits text ∧ leadingZero text = false

inductive Sign (plus : Bool) : List Char → Int → Prop where
  | absent : Sign plus [] 1
  | minus : Sign plus ['-'] (-1)
  | plus (allowed : plus = true) : Sign plus ['+'] 1

inductive Fraction : List Char → List Char → Prop where
  | absent : Fraction [] []
  | point {digits} (all : Digits digits) : Fraction ('.' :: digits) digits

inductive Exponent : List Char → Int → Prop where
  | absent : Exponent [] 0
  | letter {mark sign s digits} (e : mark = 'e' ∨ mark = 'E') (signed : Sign true sign s)
      (all : Digits digits) : Exponent (mark :: (sign ++ digits)) (s * Nat.ofDigitChars 10 digits 0)

def numeral (sign : Int) (whole fraction : List Char) (exponent : Int) : Rat :=
  sign * Nat.ofDigitChars 10 (whole ++ fraction) 0 * 10 ^ (exponent - fraction.length)

inductive Numeral : List Char → Rat → Prop where
  | parts {sign s whole point fraction power e} (signed : Sign false sign s) (digits : Whole whole)
      (broken : Fraction point fraction) (scaled : Exponent power e) :
      Numeral (sign ++ (whole ++ (point ++ power))) (numeral s whole fraction e)

/- An element is a value with the blanks around it. Members of an object have their blanks too. -/
inductive Phrase where
  | value (v : Value)
  | element (v : Value)
  | items (vs : List Value)
  | member (key : String) (v : Value)
  | members (ms : List (String × Value))

inductive Denotes : List Char → Phrase → Prop where
  | null : Denotes ['n', 'u', 'l', 'l'] (.value .null)
  | true : Denotes ['t', 'r', 'u', 'e'] (.value (.bool true))
  | false : Denotes ['f', 'a', 'l', 's', 'e'] (.value (.bool false))
  | number {text q} (digits : Numeral text q) : Denotes text (.value (.number q))
  | string {text s} (quoted : Quoted text s) : Denotes text (.value (.string s))
  | emptyArray {blanks} (blank : Blank blanks) : Denotes ('[' :: blanks ++ [']']) (.value (.array []))
  | array {text vs} (items : Denotes text (.items vs)) :
      Denotes ('[' :: text ++ [']']) (.value (.array vs))
  | emptyObject {blanks} (blank : Blank blanks) :
      Denotes ('\x7b' :: blanks ++ ['\x7d']) (.value (.object []))
  | object {text ms} (members : Denotes text (.members ms)) :
      Denotes ('\x7b' :: text ++ ['\x7d']) (.value (.object ms))
  | element {before text after v} (left : Blank before) (value : Denotes text (.value v))
      (right : Blank after) : Denotes (before ++ (text ++ after)) (.element v)
  | lastItem {text v} (only : Denotes text (.element v)) : Denotes text (.items [v])
  | items {text more v vs} (head : Denotes text (.element v)) (tail : Denotes more (.items vs)) :
      Denotes (text ++ ',' :: more) (.items (v :: vs))
  | member {before text after more key v} (left : Blank before) (quoted : Quoted text key)
      (right : Blank after) (value : Denotes more (.element v)) :
      Denotes (before ++ (text ++ (after ++ ':' :: more))) (.member key v)
  | lastMember {text key v} (only : Denotes text (.member key v)) : Denotes text (.members [(key, v)])
  | members {text more key v ms} (head : Denotes text (.member key v))
      (tail : Denotes more (.members ms)) : Denotes (text ++ ',' :: more) (.members ((key, v) :: ms))

theorem blankNil : Blank [] := by simp [Blank]

theorem blankAppend {before after : List Char} : Blank (before ++ after) ↔ Blank before ∧ Blank after := by
  simp [Blank, or_imp, forall_and]

theorem codeUnitLength {digits : List Char} {n : Nat} (h : codeUnit digits = some n) :
    digits.length = 4 := by
  unfold codeUnit at h
  split at h
  · rfl
  · contradiction

end ShellStyle.Json
