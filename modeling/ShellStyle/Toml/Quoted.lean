/-! TOML strings after their opening quotes. A string is cut at its closing quotes first and decoded then:
`decode` reads one character at a time and its `Mode` says what the characters before it have begun. A
string that is never closed or cannot be decoded has no text, and reading goes on behind it. -/
namespace ShellStyle.Toml.Quoted

def isText (c : Char) : Bool := c = '\t' || (32 ≤ c.toNat && c.toNat != 127)

def isBlank (c : Char) : Bool := c = ' ' || c = '\t'

def hexValue (c : Char) : Option Nat :=
  if '0' ≤ c ∧ c ≤ '9' then some (c.toNat - '0'.toNat)
  else if 'a' ≤ c ∧ c ≤ 'f' then some (c.toNat - 'a'.toNat + 10)
  else if 'A' ≤ c ∧ c ≤ 'F' then some (c.toNat - 'A'.toNat + 10)
  else none

def shortEscape (c : Char) : Option Char :=
  match c with
  | 'b' => some '\x08'
  | 't' => some '\t'
  | 'n' => some '\n'
  | 'f' => some '\x0c'
  | 'r' => some '\r'
  | 'e' => some '\x1b'
  | '"' => some '"'
  | '\\' => some '\\'
  | _ => none

def hexEscape (c : Char) : Option Nat :=
  match c with
  | 'x' => some 2
  | 'u' => some 4
  | 'U' => some 8
  | _ => none

inductive Mode where
  | plain
  | escape
  | hex (more : Nat) (value : Nat)
  | lineEnd
  | trim
  | carriage (kept : Bool)
  deriving DecidableEq, Repr

def decode (lines : Bool) : Mode → List Char → Option (List Char)
  | .plain, [] | .trim, [] => some []
  | _, [] => none
  | .escape, c :: r =>
    match hexEscape c, shortEscape c with
    | some digits, _ => decode lines (.hex digits 0) r
    | none, some x => (decode lines .plain r).map (x :: ·)
    | none, none =>
      if !lines then none
      else if isBlank c then decode lines .lineEnd r
      else if c = '\n' then decode lines .trim r
      else if c = '\r' then decode lines (.carriage false) r
      else none
  | .hex more value, c :: r =>
    match hexValue c with
    | none => none
    | some d =>
      if 1 < more then decode lines (.hex (more - 1) (value * 16 + d)) r
      else if (value * 16 + d).isValidChar then
        (decode lines .plain r).map (Char.ofNat (value * 16 + d) :: ·)
      else none
  | .lineEnd, c :: r =>
    if isBlank c then decode lines .lineEnd r
    else if c = '\n' then decode lines .trim r
    else if c = '\r' then decode lines (.carriage false) r
    else none
  | .carriage kept, c :: r =>
    if c ≠ '\n' then none
    else if kept then (decode lines .plain r).map ('\n' :: ·)
    else decode lines .trim r
  | mode, c :: r =>
    if mode = .trim ∧ (isBlank c ∨ c = '\n') then decode lines .trim r
    else if mode = .trim ∧ c = '\r' then decode lines (.carriage false) r
    else if c = '\\' then decode lines .escape r
    else if c = '\n' ∧ lines then (decode lines .plain r).map ('\n' :: ·)
    else if c = '\r' ∧ lines then (decode lines (.carriage true) r).map ('\r' :: ·)
    else if isText c then (decode lines .plain r).map (c :: ·)
    else none

def literal (lines : Bool) : List Char → Option (List Char)
  | [] => some []
  | '\r' :: '\n' :: r => if lines then (literal lines r).map (['\r', '\n'] ++ ·) else none
  | c :: r =>
    if (c = '\n' ∧ lines) ∨ isText c then (literal lines r).map (c :: ·) else none

def keep (cs : List Char) (cut : Option (List Char) × List Char) : Option (List Char) × List Char :=
  (cut.1.map (cs ++ ·), cut.2)

/- What stands before the closing quote, if there is one on the line, and what stands behind it. A
backslash, where it counts, covers a quote or a backslash after it. -/
def body (quote : Char) (escapes : Bool) : List Char → Option (List Char) × List Char
  | [] => (none, [])
  | c :: r =>
    if c = quote then (some [], r)
    else if c = '\n' then (none, c :: r)
    else match r with
      | [] => (none, [])
      | d :: r₂ =>
        if escapes ∧ c = '\\' ∧ (d = quote ∨ d = '\\') then keep [c, d] (body quote escapes r₂)
        else keep [c] (body quote escapes (d :: r₂))

def longBody (quote : Char) (escapes : Bool) : List Char → Option (List Char) × List Char
  | [] => (none, [])
  | c :: r =>
    if c = quote ∧ r.take 2 = [quote, quote] then
      let more := ((r.drop 2).take 2).takeWhile (· = quote)
      (some more, r.drop (2 + more.length))
    else match r with
      | [] => (none, [])
      | d :: r₂ =>
        if escapes ∧ c = '\\' ∧ (d = quote ∨ d = '\\') then
          keep [c, d] (longBody quote escapes r₂)
        else keep [c] (longBody quote escapes (d :: r₂))

def dropFirstLineEnd : List Char → List Char
  | '\n' :: r => r
  | '\r' :: '\n' :: r => r
  | cs => cs

def decoded (decode : List Char → Option (List Char)) (cut : Option (List Char) × List Char) :
    Option String × List Char :=
  ((cut.1.bind decode).map String.ofList, cut.2)

def basic (cs : List Char) : Option String × List Char :=
  decoded (decode false .plain) (body '"' true cs)

def longBasic (cs : List Char) : Option String × List Char :=
  decoded (decode true .plain) (longBody '"' true (dropFirstLineEnd cs))

def plainText (cs : List Char) : Option String × List Char :=
  decoded (literal false) (body '\'' false cs)

def longPlainText (cs : List Char) : Option String × List Char :=
  decoded (literal true) (longBody '\'' false (dropFirstLineEnd cs))

end ShellStyle.Toml.Quoted
