import ShellStyle.Command

/-! Colours as decoration. Only the sequences that style a text hold an escape character, so they can be cut
out of it again: what is left is the text without colours, and what was cut out is an opening sequence and its
reset in turn. The text itself may hold no escape character, but whatever else a sequence is made of. -/
namespace ShellStyle
open Text

namespace Text.Colour

def escape : Char := '\x1b'

def sequences : List String :=
  ["\x1b[1m", "\x1b[2m", "\x1b[31m", "\x1b[32m", "\x1b[0m", "\x1b[39m"]

def pairs : List (String × String) :=
  [("\x1b[1m", "\x1b[0m"), ("\x1b[2m", "\x1b[0m"), ("\x1b[31m", "\x1b[39m"), ("\x1b[32m", "\x1b[39m")]

inductive Alternate : List String → Prop where
  | nil : Alternate []
  | pair {opening reset : String} {later : List String} (known : (opening, reset) ∈ pairs)
      (rest : Alternate later) : Alternate (opening :: reset :: later)

def first? (text : List Char) : Option String := sequences.find? fun s => s.toList.isPrefixOf text

def cut : Nat → List Char → List String × List Char
  | _, [] => ([], [])
  | skip + 1, _ :: rest => cut skip rest
  | 0, c :: rest =>
    match first? (c :: rest) with
    | some s => (s :: (cut (s.length - 1) rest).1, (cut (s.length - 1) rest).2)
    | none => ((cut 0 rest).1, c :: (cut 0 rest).2)

def inside (text : String) : List String := (cut 0 text.toList).1

def without (text : String) : String := String.ofList (cut 0 text.toList).2

def Silent (text : String) : Prop := escape ∉ text.toList

instance (text : String) : Decidable (Silent text) := inferInstanceAs (Decidable (escape ∉ text.toList))

theorem cutSkipped (front rest : List Char) : cut front.length (front ++ rest) = cut 0 rest := by
  induction front with
  | nil => rfl
  | cons c more ih => exact ih

theorem firstSequence {s : String} (known : s ∈ sequences) (rest : List Char) :
    first? (s.toList ++ rest) = some s := by
  simp only [sequences, List.mem_cons, List.not_mem_nil, or_false] at known
  rcases known with rfl | rfl | rfl | rfl | rfl | rfl <;> rfl

theorem cutSequence {s : String} (known : s ∈ sequences) (rest : List Char) :
    cut 0 (s.toList ++ rest) = (s :: (cut 0 rest).1, (cut 0 rest).2) := by
  have first := firstSequence known rest
  cases spelled : s.toList with
  | nil =>
    have filled : ∀ t ∈ sequences, t.toList ≠ [] := by decide
    exact absurd spelled (filled s known)
  | cons c tail =>
    have size : s.length - 1 = tail.length := by simp [← String.length_toList, spelled]
    rw [spelled, List.cons_append] at first
    rw [List.cons_append, cut, first]
    dsimp only
    rw [size, cutSkipped]

theorem firstNone {c : Char} (other : c ≠ escape) (rest : List Char) : first? (c :: rest) = none := by
  simp [first?, sequences, escape] at other ⊢
  simp [Ne.symm other]

theorem cutSilent {text : List Char} (silent : escape ∉ text) (rest : List Char) :
    cut 0 (text ++ rest) = ((cut 0 rest).1, text ++ (cut 0 rest).2) := by
  induction text with
  | nil => rfl
  | cons c more ih =>
    rw [List.mem_cons, not_or] at silent
    rw [List.cons_append, cut, firstNone (Ne.symm silent.1), ih silent.2]
    rfl

@[simp] theorem silentAppend {a b : String} : Silent (a ++ b) ↔ Silent a ∧ Silent b := by
  rw [Silent, String.toList_append, List.mem_append, not_or]
  rfl

@[simp] theorem silentNumber (n : Nat) : Silent (toString n) := by
  intro member
  have digit : escape ∈ Nat.toDigits 10 n := by simpa using member
  have isDigit := Nat.isDigit_of_mem_toDigits (by decide) (by decide) digit
  cases isDigit

end Text.Colour

namespace Text.Styled
open Colour

/- What can be told from its sequences: texts without an escape character, in styles that have one opening
sequence. -/
def Quiet (text : Styled) : Prop :=
  ∀ span ∈ text, Silent span.text ∧ ∀ style ∈ span.style, (style.opening, style.closing) ∈ pairs

def marks (text : Styled) : List String :=
  text.flatMap fun span => span.style.elim [] fun style => [style.opening, style.closing]

/- The sequences are pure decoration of a text. -/
structure Decorated (text : Styled) : Prop where
  bare : without (render true text) = render false text
  paired : Alternate (inside (render true text))

theorem quietAppend {s t : Styled} (one : Quiet s) (two : Quiet t) : Quiet (s ++ t) := by
  intro span member
  exact (List.mem_append.mp member).elim (one span) (two span)

theorem quietPlain {text : String} (silent : Silent text) : Quiet (plain text) := by
  simp [Quiet, plain, silent]

theorem quietStyled {style : Style} {text : String} (known : (style.opening, style.closing) ∈ pairs)
    (silent : Silent text) : Quiet (styled style text) := by
  simp [Quiet, styled, silent, known]

theorem pairKnown {opening reset : String} (known : (opening, reset) ∈ pairs) :
    opening ∈ sequences ∧ reset ∈ sequences := by
  have every : ∀ pair ∈ pairs, pair.1 ∈ sequences ∧ pair.2 ∈ sequences := by decide
  exact every _ known

theorem cutSpan {span : Span} (silent : Silent span.text)
    (known : ∀ style ∈ span.style, (style.opening, style.closing) ∈ pairs) (rest : List Char) :
    cut 0 ((spanText true span).toList ++ rest) =
      (span.style.elim [] (fun style => [style.opening, style.closing]) ++ (cut 0 rest).1,
        span.text.toList ++ (cut 0 rest).2) := by
  cases found : span.style with
  | none => simp [spanText, found, cutSilent silent]
  | some style =>
    obtain ⟨opening, reset⟩ := pairKnown (known style (by simp [found]))
    simp [spanText, found, cutSequence opening, cutSequence reset, cutSilent silent]

theorem cutRender {text : Styled} (quiet : Quiet text) (rest : List Char) :
    cut 0 ((render true text).toList ++ rest) =
      (marks text ++ (cut 0 rest).1, (render false text).toList ++ (cut 0 rest).2) := by
  induction text with
  | nil => rfl
  | cons span more ih =>
    obtain ⟨⟨silent, known⟩, later⟩ := List.forall_mem_cons.mp quiet
    simp only [render, String.toList_append, List.append_assoc, cutSpan silent known, ih later]
    simp [marks, spanText]

theorem marksAlternate {text : Styled} (quiet : Quiet text) : Alternate (marks text) := by
  induction text with
  | nil => exact .nil
  | cons span more ih =>
    obtain ⟨⟨_, known⟩, later⟩ := List.forall_mem_cons.mp quiet
    have rest := ih later
    cases found : span.style with
    | none => simpa [marks, found] using rest
    | some style =>
      rw [marks, List.flatMap_cons, found]
      exact .pair (known style (by simp [found])) rest

theorem quietCut {text : Styled} (quiet : Quiet text) :
    cut 0 (render true text).toList = (marks text, (render false text).toList) := by
  simpa [cut] using cutRender quiet []

theorem insideMarks {text : Styled} (quiet : Quiet text) : inside (render true text) = marks text := by
  rw [inside, quietCut quiet]

theorem quietDecorated {text : Styled} (quiet : Quiet text) : Decorated text := by
  refine ⟨?_, insideMarks quiet ▸ marksAlternate quiet⟩
  rw [without, quietCut quiet, String.ofList_toList]

end Text.Styled

namespace Report
open Text.Colour Text.Styled

theorem quietNewline : Quiet newline := quietPlain (by decide)

theorem quietHeader : Quiet header := quietAppend (quietStyled (by decide) (by decide)) quietNewline

theorem quietHeadline {style : Style} {mark check state : String}
    (known : (style.opening, style.closing) ∈ pairs) (first : Silent mark) (name : Silent check)
    (last : Silent state) : Quiet (headline style mark check state) := by
  have middle : Silent (" " ++ check ++ ": ") :=
    silentAppend.mpr ⟨silentAppend.mpr ⟨by decide, name⟩, by decide⟩
  exact quietAppend (quietAppend (quietAppend (quietStyled known first) (quietPlain middle))
    (quietStyled known last)) quietNewline

theorem quietMessages {messages : List String} (silent : ∀ m ∈ messages, Silent m) :
    Quiet (messages.flatMap fun m => plain "  " ++ styled .dimmed m ++ newline) := by
  intro span member
  obtain ⟨m, given, inside⟩ := List.mem_flatMap.mp member
  have line : Quiet (plain "  " ++ styled .dimmed m ++ newline) :=
    quietAppend (quietAppend (quietPlain (by decide)) (quietStyled (by decide) (silent m given))) quietNewline
  exact line span inside

theorem quietSection {check : String} {messages : List String} (name : Silent check)
    (silent : ∀ m ∈ messages, Silent m) : Quiet (ruleSection check messages) := by
  cases messages with
  | nil => exact quietHeadline (by decide) (by decide) name (by decide)
  | cons m more =>
    have count : Silent (toString (m :: more).length ++ " violation(s)") :=
      silentAppend.mpr ⟨silentNumber _, by decide⟩
    have opening : Quiet (headline .red "✗" check _) := quietHeadline (by decide) (by decide) name count
    exact quietAppend (quietAppend (quietAppend opening quietNewline) (quietMessages silent)) quietNewline

theorem quietCheckText {r : Report} {check : String} (name : Silent check)
    (messages : ∀ v ∈ r.verdicts, Silent v.message) : Quiet (r.checkText check) := by
  refine quietSection name fun m member => ?_
  obtain ⟨v, broken, rfl⟩ := List.mem_map.mp member
  exact messages v (List.mem_filter.mp (List.mem_filter.mp broken).1).1

theorem quietClosing (r : Report) : Quiet r.closing.1 := by
  rw [closing]
  split
  · refine quietStyled (by decide) ?_
    simp only [silentAppend, silentNumber]
    decide
  · refine quietStyled (by decide) ?_
    simp only [silentAppend, silentNumber]
    decide

theorem quietSummary (r : Report) : Quiet r.summary :=
  quietAppend (quietAppend (quietAppend (quietStyled (by decide) (by decide)) quietNewline) (quietClosing r))
    quietNewline

theorem quietText {r : Report} (messages : ∀ v ∈ r.verdicts, Silent v.message) : Quiet r.text := by
  have sections : Quiet (Rule.titles.flatMap r.checkText) := by
    intro span member
    obtain ⟨title, known, inside⟩ := List.mem_flatMap.mp member
    have silent : ∀ title ∈ Rule.titles, Silent title := by decide
    exact quietCheckText (silent title known) messages span inside
  exact quietAppend (quietAppend quietHeader sections) (quietSummary r)

theorem colourDecorates {r : Report} {check : String} (name : Silent check)
    (messages : ∀ v ∈ r.verdicts, Silent v.message) :
    Decorated header ∧ Decorated (r.checkText check) ∧ Decorated r.summary ∧ Decorated r.text ∧
    ∀ a : Arguments, a.json = false →
      without (Command.output true a r).1 = (Command.output false a r).1 ∧
      Alternate (inside (Command.output true a r).1) ∧
      (Command.output true a r).2 = (Command.output false a r).2 ∧
      (Command.output true a r).2 = r.closing.2 := by
  have whole := quietDecorated (quietText messages)
  refine ⟨quietDecorated quietHeader, quietDecorated (quietCheckText name messages),
    quietDecorated (quietSummary r), whole, ?_⟩
  intro a printed
  have output : ∀ colour, Command.output colour a r = (render colour r.text, r.closing.2) := by
    intro colour
    simp only [Command.output, printed, Bool.false_eq_true, if_false]
  rw [output true, output false]
  exact ⟨whole.bare, whole.paired, rfl, rfl⟩

def bracketed : Report :=
  ⟨[⟨"bin", "[31m", "Shebang line", false, "bin/[31m is missing a shebang line.[39m"⟩], 1⟩

theorem bracketsKept :
    Silent "[1m" ∧ (∀ v ∈ bracketed.verdicts, Silent v.message) ∧
    Decorated (bracketed.checkText "[1m") ∧
    without (Command.output true Arguments.blank bracketed).1 =
      (Command.output false Arguments.blank bracketed).1 ∧
    inside (Command.output true Arguments.blank bracketed).1 ≠ [] := by
  have name : Silent "[1m" := by decide
  have messages : ∀ v ∈ bracketed.verdicts, Silent v.message := by decide
  obtain ⟨_, shown, _, _, printed⟩ := colourDecorates name messages
  obtain ⟨same, _⟩ := printed Arguments.blank rfl
  have marked : inside (Command.output true Arguments.blank bracketed).1 ≠ [] := by
    show inside (render true bracketed.text) ≠ []
    rw [insideMarks (quietText messages)]
    decide
  exact ⟨name, messages, shown, same, marked⟩

end Report

end ShellStyle
