import ShellStyle.Text.Quoted

/-! JSON values without fractions and their written form: two spaces for every level, one member a line,
a blank after each colon. Only quotes, backslashes and control characters are escaped. -/
namespace ShellStyle

inductive Json where
  | bool (value : Bool)
  | number (value : Nat)
  | string (value : String)
  | array (items : List Json)
  | object (fields : List (String × Json))

namespace Json

def escapeChar (c : Char) : List Char :=
  match c with
  | '"' => ['\\', '"']
  | '\\' => ['\\', '\\']
  | '\x08' => ['\\', 'b']
  | '\x0c' => ['\\', 'f']
  | '\n' => ['\\', 'n']
  | '\r' => ['\\', 'r']
  | '\t' => ['\\', 't']
  | _ =>
    if c.toNat < 16 then ['\\', 'u', '0', '0', '0'] ++ Text.hexDigits c.toNat
    else if c.toNat < 32 then ['\\', 'u', '0', '0'] ++ Text.hexDigits c.toNat
    else [c]

def quote (s : String) : List Char := '"' :: s.toList.flatMap escapeChar ++ ['"']

def lineBreak (depth : Nat) : List Char := '\n' :: List.replicate (2 * depth) ' '

mutual

def write (depth : Nat) : Json → List Char
  | bool true => ['t', 'r', 'u', 'e']
  | bool false => ['f', 'a', 'l', 's', 'e']
  | number n => Nat.toDigits 10 n
  | string s => quote s
  | array [] => ['[', ']']
  | array (item :: rest) =>
    '[' :: lineBreak (depth + 1) ++ write (depth + 1) item ++ writeItems (depth + 1) rest
      ++ lineBreak depth ++ [']']
  | object [] => ['\x7b', '\x7d']
  | object ((key, value) :: rest) =>
    '\x7b' :: lineBreak (depth + 1) ++ quote key ++ [':', ' '] ++ write (depth + 1) value
      ++ writeFields (depth + 1) rest ++ lineBreak depth ++ ['\x7d']

def writeItems (depth : Nat) : List Json → List Char
  | [] => []
  | item :: rest => ',' :: lineBreak depth ++ write depth item ++ writeItems depth rest

def writeFields (depth : Nat) : List (String × Json) → List Char
  | [] => []
  | (key, value) :: rest =>
    ',' :: lineBreak depth ++ quote key ++ [':', ' '] ++ write depth value ++ writeFields depth rest

end

def render (j : Json) : String := String.ofList (write 0 j)

theorem renderToList (j : Json) : j.render.toList = write 0 j := by simp [render]

end Json

end ShellStyle
