/-! Text as a plain stream shows it: terminal sequences and control characters are left out, white space is
kept. White space inside a sequence ends it, but not inside a command, a device header or a message. -/
namespace ShellStyle.Text.Terminal

inductive Mode where
  | ground
  | escape
  | intermediate
  | control
  | command
  | device
  | deviceParameters
  | deviceIntermediate
  | message
  deriving DecidableEq, Repr

def isSpace (c : Char) : Bool := c = ' ' || c = '\t' || c = '\n' || c = '\x0c' || c = '\r'

/- The byte 9C ends a message, and it is looked for in the bytes of every character. -/
def endsMessage (c : Char) : Bool := (String.utf8EncodeChar c).contains 0x9C

def isIntermediate (c : Char) : Bool := 32 ≤ c.toNat && c.toNat ≤ 47

def isFinal (c : Char) : Bool := 64 ≤ c.toNat && c.toNat ≤ 126

/- Digits and semicolons, and signs that may stand before them; a colon or a late sign spoils the
header. -/
def deviceStep (mode : Mode) (c : Char) : Mode :=
  if isIntermediate c then .deviceIntermediate
  else if isFinal c then .message
  else if 48 ≤ c.toNat ∧ c.toNat ≤ 63 then
    if mode = .deviceIntermediate ∨ c = ':' ∨ (mode = .deviceParameters ∧ 60 ≤ c.toNat) then .message
    else .deviceParameters
  else mode

def step (mode : Mode) (c : Char) : Mode × Bool :=
  if c = '\x1b' then (.escape, false)
  else if c = '\x18' ∨ c = '\x1a' then (.ground, false)
  else match mode with
    | .ground => (.ground, isSpace c || (32 ≤ c.toNat && c.toNat != 127))
    | .command => (if c = '\x07' then .ground else .command, false)
    | .message => (if endsMessage c then .ground else .message, false)
    | .device | .deviceParameters | .deviceIntermediate => (deviceStep mode c, false)
    | .control =>
      if isSpace c ∧ c ≠ ' ' then (.ground, true)
      else if isFinal c then (.ground, false)
      else (.control, false)
    | .intermediate =>
      if isSpace c ∧ c ≠ ' ' then (.ground, true)
      else if 48 ≤ c.toNat ∧ c.toNat ≤ 126 then (.ground, false)
      else (.intermediate, false)
    | .escape =>
      if isSpace c ∧ c ≠ ' ' then (.ground, true)
      else if c = '[' then (.control, false)
      else if c = ']' then (.command, false)
      else if c = 'P' then (.device, false)
      else if c = 'X' ∨ c = '^' ∨ c = '_' then (.message, false)
      else if isIntermediate c then (.intermediate, false)
      else if 48 ≤ c.toNat ∧ c.toNat ≤ 126 then (.ground, false)
      else (.escape, false)

def visible : Mode → List Char → List Char
  | _, [] => []
  | mode, c :: r =>
    let next := step mode c
    if next.2 then c :: visible next.1 r else visible next.1 r

def strip (s : String) : String := String.ofList (visible .ground s.toList)

end ShellStyle.Text.Terminal
