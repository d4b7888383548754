/-! Text whose pieces carry a terminal style. `render` writes the pieces one after the other; with
colours every styled piece stands between the opening and the closing sequence of its style. -/
namespace ShellStyle.Text

inductive Style where
  | bold | dimmed | green | red | yellow
  | heading | alarm
  deriving DecidableEq, Repr

namespace Style

def opening : Style → String
  | bold => "\x1b[1m"
  | dimmed => "\x1b[2m"
  | green => "\x1b[32m"
  | red => "\x1b[31m"
  | heading => "\x1b[1m\x1b[4m"
  | alarm => "\x1b[1m\x1b[31m"
  | yellow => "\x1b[33m"

def closing : Style → String
  | green | red => "\x1b[39m"
  | _ => "\x1b[0m"

end Style

structure Span where
  style : Option Style
  text : String
  deriving DecidableEq, Repr

abbrev Styled := List Span

namespace Styled

def plain (text : String) : Styled := [⟨none, text⟩]

def styled (style : Style) (text : String) : Styled := [⟨some style, text⟩]

def spanText (colour : Bool) (span : Span) : String :=
  match colour, span.style with
  | true, some style => style.opening ++ span.text ++ style.closing
  | _, _ => span.text

def render (colour : Bool) : Styled → String
  | [] => ""
  | span :: rest => spanText colour span ++ render colour rest

theorem renderAppend (colour : Bool) (s t : Styled) :
    render colour (s ++ t) = render colour s ++ render colour t := by
  induction s with
  | nil => simp [render]
  | cons span rest ih => simp [render, ih, String.append_assoc]

theorem renderPlain (colour : Bool) (text : String) : render colour (plain text) = text := by
  cases colour <;> simp [render, plain, spanText]

theorem renderUncoloured (s : Styled) : render false s = String.join (s.map Span.text) := by
  induction s with
  | nil => rfl
  | cons span rest ih => simp [render, spanText, ih]

end Styled

end ShellStyle.Text
