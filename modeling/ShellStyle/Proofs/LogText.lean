import ShellStyle.Command
import ShellStyle.Timestamp
import ShellStyle.Proofs.ReadBack

/-! The text of a log. Each line is one event behind the time at which it was written. A value may hold any text,
but where it ends can be told: before another field by its mark, and otherwise by the end of the line. So
two equal logs tell the same events. -/
namespace ShellStyle
open Text

namespace Timestamp

theorem paddedDigits (width n : Nat) : ∀ c ∈ (padded width n).toList, c.isDigit = true := by
  intro c member
  rw [padded, String.toList_ofList, List.mem_append] at member
  rcases member with zero | digit
  · rw [List.eq_of_mem_replicate zero]
    rfl
  · exact Nat.isDigit_of_mem_toDigits (by decide) (by decide) digit

theorem paddedApart {c : Char} (other : c.isDigit = false) (width n : Nat) :
    c ∉ (padded width n).toList := by
  intro member
  rw [paddedDigits width n c member] at other
  cases other

structure Dated (time : String) : Prop where
  unspaced : ' ' ∉ time.toList
  opens : ∃ c, time.toList.head? = some c ∧ c.isDigit = true

theorem textParts (moment : Nat) : ∃ year month day hour minute second part : Nat,
    text moment = padded 4 year ++ "-" ++ padded 2 month ++ "-" ++ padded 2 day ++ "T" ++ padded 2 hour
      ++ ":" ++ padded 2 minute ++ ":" ++ padded 2 second ++ "." ++ padded 6 part ++ "Z" :=
  ⟨_, _, _, _, _, _, _, rfl⟩

theorem textDated (moment : Nat) : Dated (text moment) := by
  obtain ⟨year, _, _, _, _, _, _, parts⟩ := textParts moment
  have apart : ∀ width n, ' ' ∉ (padded width n).toList := paddedApart (by decide)
  refine ⟨by simp [parts, apart], ?_⟩
  have digits := @Nat.toDigits_ne_nil year 10
  cases front : (padded 4 year).toList with
  | nil => simp [padded, digits] at front
  | cons c rest => exact ⟨c, by simp [parts, front], paddedDigits 4 year c (by simp [front])⟩

end Timestamp

namespace Event

def sign (colour : Bool) (code : String) : String := if colour then "\x1b[" ++ code ++ "m" else ""

def mark (colour : Bool) : String := sign colour "0" ++ sign colour "2" ++ "=" ++ sign colour "0"

def key (colour : Bool) (name : String) : String := " " ++ sign colour "3" ++ name ++ mark colour

def debug (colour : Bool) : String := sign colour "34" ++ "DEBUG" ++ sign colour "0"

def info (colour : Bool) : String := sign colour "32" ++ " INFO" ++ sign colour "0"

def told (colour : Bool) : Event → String
  | resolved root folders => debug colour ++ " resolved config"
      ++ key colour "root" ++ root.display ++ key colour "folders" ++ quotedList folders
  | scanning folder path => debug colour ++ " scanning folder"
      ++ key colour "folder" ++ folder ++ key colour "path" ++ path.display
  | reading folder file => debug colour ++ " reading candidate"
      ++ key colour "folder" ++ folder ++ key colour "file" ++ file
  | checked folder file failed => debug colour ++ " checked"
      ++ key colour "folder" ++ folder ++ key colour "file" ++ file
      ++ key colour "failed" ++ toString failed
  | finished files failures => info colour ++ " lint run finished"
      ++ key colour "files" ++ toString files ++ key colour "failures" ++ toString failures

theorem lineTold (colour : Bool) (e : Event) : e.line colour = e.told colour := by
  cases colour <;> cases e <;>
    simp [line, told, debug, info, key, mark, sign, level, Level.colour, Level.label, name, fields,
      ← String.append_assoc]

/- Standard error with the events of a log, where the n-th is written at the n-th time. -/
def text (colour : Bool) (times : Nat → String) (events : List Event) : String :=
  String.join (events.mapIdx fun n e =>
    sign colour "2" ++ times n ++ sign colour "0" ++ " " ++ e.told colour ++ "\n")

theorem writtenText (colour : Bool) (times : Nat → String) (events : List Event) (code : Nat)
    (out complaint : String) :
    (Exit.mk code out (events.map (line colour)) complaint).written (fun n => stamped colour (times n)) =
      text colour times events ++ complaint := by
  have lines : ∀ n e, stamped colour (times n) (line colour e) ++ "\n" =
      sign colour "2" ++ times n ++ sign colour "0" ++ " " ++ e.told colour ++ "\n" := by
    intro n e
    rw [lineTold]
    cases colour <;> simp [stamped, sign]
  have same : (events.map (line colour)).mapIdx (fun n line => stamped colour (times n) line ++ "\n") =
      events.mapIdx fun n e => sign colour "2" ++ times n ++ sign colour "0" ++ " " ++ e.told colour ++ "\n" := by
    refine List.ext_getElem? fun n => ?_
    simp [List.getElem?_mapIdx, Function.comp_def, lines]
  rw [Exit.written, same, text]

inductive Alike : Event → Event → Prop where
  | resolved {root folders dir list} : Alike (.resolved root folders) (.resolved dir list)
  | scanning {folder path other place} : Alike (.scanning folder path) (.scanning other place)
  | reading {folder file other name} : Alike (.reading folder file) (.reading other name)
  | checked {folder file failed other name count} :
      Alike (.checked folder file failed) (.checked other name count)
  | finished {files failures number count} : Alike (.finished files failures) (.finished number count)

/- The value of every field ends where the next mark or the end of the line says. -/
def Plain : Event → Prop
  | resolved root _ => '=' ∉ root.display.toList
  | scanning folder path => '=' ∉ folder.toList ∧ '\n' ∉ path.display.toList
  | reading folder file => '=' ∉ folder.toList ∧ '\n' ∉ file.toList
  | checked folder file _ => '=' ∉ folder.toList ∧ '=' ∉ file.toList
  | finished .. => True

def shown (e : Event) : String × List (String × String) := (e.name, e.fields)

variable {colour : Bool} {a b : String}

theorem signUnmarked (colour : Bool) {code : String} (plain : '=' ∉ code.toList) :
    '=' ∉ (sign colour code).toList := by
  cases colour <;> simp [sign, plain]

theorem markSplits (colour : Bool) (one : '=' ∉ a.toList) (two : '=' ∉ b.toList) :
    Splits (a ++ mark colour) (b ++ mark colour) (a = b) := by
  have inside : ∀ {c : String}, '=' ∉ c.toList → '=' ∉ (c ++ (sign colour "0" ++ sign colour "2")).toList := by
    intro c plain
    simp [plain, signUnmarked]
  have splits := Splits.upTo ("=" ++ sign colour "0") (by simp) (inside one) (inside two)
  simp only [mark, String.append_assoc] at splits ⊢
  exact splits.implies (String.append_left_inj _).mp

theorem keySplits (colour : Bool) {name : String} (plain : '=' ∉ name.toList) (one : '=' ∉ a.toList)
    (two : '=' ∉ b.toList) : Splits (a ++ key colour name) (b ++ key colour name) (a = b) := by
  have inside : ∀ {c : String}, '=' ∉ c.toList → '=' ∉ (c ++ (" " ++ sign colour "3" ++ name)).toList := by
    intro c marked
    simp [marked, plain, signUnmarked]
  have splits := markSplits colour (inside one) (inside two)
  simp only [key, String.append_assoc] at splits ⊢
  exact splits.implies (String.append_left_inj _).mp

def lead (colour : Bool) : Event → String
  | resolved .. => debug colour ++ " resolved config " ++ sign colour "3" ++ "root"
  | scanning .. => debug colour ++ " scanning folder " ++ sign colour "3" ++ "folder"
  | reading .. => debug colour ++ " reading candidate " ++ sign colour "3" ++ "folder"
  | checked .. => debug colour ++ " checked " ++ sign colour "3" ++ "folder"
  | finished .. => info colour ++ " lint run finished " ++ sign colour "3" ++ "files"

theorem leadAlike {e f : Event} (same : e.lead colour = f.lead colour) : Alike e f := by
  cases colour <;> cases e <;> cases f <;>
    first | constructor | simp [lead, debug, info, sign] at same

theorem toldLead (colour : Bool) (e : Event) : ∃ after, e.told colour = e.lead colour ++ mark colour ++ after := by
  have opens : (e.lead colour ++ mark colour).toList <+: (e.told colour).toList := by
    cases e <;> simp [lead, told, key, List.prefix_append_right_inj]
  obtain ⟨after, whole⟩ := opens
  refine ⟨String.ofList after, String.toList_inj.mp ?_⟩
  simp only [← whole, String.toList_append, String.toList_ofList]

theorem leadUnmarked (colour : Bool) (e : Event) : '=' ∉ (e.lead colour).toList := by
  cases colour <;> cases e <;> simp [lead, debug, info, sign]

theorem toldAlike {e f : Event} {rest more : String}
    (joined : e.told colour ++ rest = f.told colour ++ more) : Alike e f := by
  obtain ⟨after, opens⟩ := e.toldLead colour
  obtain ⟨later, opened⟩ := f.toldLead colour
  have split : e.lead colour ++ mark colour ++ (after ++ rest) =
      f.lead colour ++ mark colour ++ (later ++ more) := by
    rw [← String.append_assoc, ← String.append_assoc, ← opens, ← opened]
    exact joined
  exact leadAlike (markSplits colour (e.leadUnmarked colour) (f.leadUnmarked colour) _ _ split).1

theorem hexLine (n : Nat) : '\n' ∉ Nat.toDigits 16 n := by
  have below : ∀ digit < 16, '\n' ≠ Nat.digitChar digit := by decide
  induction n using Nat.strongRecOn with
  | ind n ih =>
    rw [Nat.toDigits_eq_if (by decide)]
    split
    · rename_i small
      simp [below n small]
    · rename_i large
      have rest := ih (n / 16) (by omega)
      have last := below (n % 16) (by omega)
      simp [rest, last]

theorem escapeLine (c : Char) : '\n' ∉ escapeChar c := by
  unfold escapeChar
  split <;> try decide
  split
  · rename_i other _ _ _
    simpa using Ne.symm other
  · simp [hexDigits, hexLine]

theorem quotedListLine (items : List String) : '\n' ∉ (quotedList items).toList := by
  have one : ∀ item, '\n' ∉ (quoted item).toList := by
    intro item
    simp [quoted, escapeLine]
  have between : '\n' ∉ (String.intercalate ", " (items.map quoted)).toList := by
    induction items with
    | nil => simp
    | cons item rest ih =>
      cases rest with
      | nil => simpa using one item
      | cons next more =>
        simp only [List.map_cons, String.intercalate_cons_cons, String.toList_append, List.mem_append,
          one, false_or] at ih ⊢
        simpa using ih
  simp only [quotedList, String.toList_append, List.mem_append, between, or_false]
  decide

theorem numberUnmarked (n : Nat) : '=' ∉ (toString n).toList := by
  intro member
  have digit : '=' ∈ Nat.toDigits 10 n := by simpa using member
  have decimal := Nat.isDigit_of_mem_toDigits (by decide) (by decide) digit
  cases decimal

theorem pairSplits {c d : String} {Q : Prop} (colour : Bool) (head name : String)
    (plain : '=' ∉ name.toList) (one : '=' ∉ a.toList) (two : '=' ∉ b.toList) (behind : Splits c d Q) :
    Splits (head ++ (a ++ (key colour name ++ c))) (head ++ (b ++ (key colour name ++ d))) (a = b ∧ Q) := by
  have parts := ((Splits.same head).andThen fun _ => keySplits colour plain one two).andThen fun _ => behind
  simp only [String.append_assoc] at parts
  exact parts.implies fun told => ⟨told.1.2, told.2⟩

theorem alikeSplits {e f : Event} (alike : Alike e f) (one : e.Plain) (two : f.Plain) :
    Splits (e.told colour ++ "\n") (f.told colour ++ "\n") (e.shown = f.shown) := by
  cases alike with
  | @resolved root folders dir list =>
    have last := Splits.upTo "\n" rfl (quotedListLine folders) (quotedListLine list)
    have parts := pairSplits colour
      (debug colour ++ " resolved config" ++ key colour "root") "folders" (by decide) one two last
    simp only [told, String.append_assoc] at parts ⊢
    exact parts.implies fun same => by simp [shown, name, fields, same]
  | @scanning folder path other place =>
    have last := Splits.upTo "\n" rfl one.2 two.2
    have parts := pairSplits colour
      (debug colour ++ " scanning folder" ++ key colour "folder") "path" (by decide) one.1 two.1 last
    simp only [told, String.append_assoc] at parts ⊢
    exact parts.implies fun same => by simp [shown, name, fields, same]
  | @reading folder file other title =>
    have last := Splits.upTo "\n" rfl one.2 two.2
    have parts := pairSplits colour
      (debug colour ++ " reading candidate" ++ key colour "folder") "file" (by decide) one.1 two.1 last
    simp only [told, String.append_assoc] at parts ⊢
    exact parts.implies fun same => by simp [shown, name, fields, same]
  | @checked folder file failed other title count =>
    have last := pairSplits colour "" "failed" (by decide) one.2 two.2
      (Splits.number "\n" rfl rfl failed count)
    have parts := pairSplits colour
      (debug colour ++ " checked" ++ key colour "folder") "file" (by decide) one.1 two.1 last
    simp only [told, String.append_assoc, String.empty_append] at parts ⊢
    exact parts.implies fun same => by simp [shown, name, fields, same]
  | @finished files failures number count =>
    have last := Splits.number "\n" rfl rfl failures count
    have parts := pairSplits colour
      (info colour ++ " lint run finished" ++ key colour "files") "failures" (by decide)
      (numberUnmarked files) (numberUnmarked number) last
    simp only [told, String.append_assoc] at parts ⊢
    exact parts.implies fun same => by simp only [shown, name, fields, same]

theorem toldSplits (colour : Bool) {e f : Event} (one : e.Plain) (two : f.Plain) :
    Splits (e.told colour ++ "\n") (f.told colour ++ "\n") (e.shown = f.shown) := by
  intro rest more joined
  have alike : Alike e f := by
    rw [String.append_assoc, String.append_assoc] at joined
    exact toldAlike joined
  exact alikeSplits alike one two rest more joined

theorem textCons (times : Nat → String) (e : Event) (events : List Event) :
    text colour times (e :: events) =
      sign colour "2" ++ times 0 ++ sign colour "0" ++ " " ++ (e.told colour ++ "\n")
        ++ text colour (fun n => times (n + 1)) events := by
  simp [text, List.mapIdx_cons, String.append_assoc]

theorem stampSplits (colour : Bool) (one : ' ' ∉ a.toList) (two : ' ' ∉ b.toList) :
    Splits (sign colour "2" ++ a ++ sign colour "0" ++ " ") (sign colour "2" ++ b ++ sign colour "0" ++ " ")
      True := by
  have unspaced : ∀ {time : String}, ' ' ∉ time.toList →
      ' ' ∉ (sign colour "2" ++ time ++ sign colour "0").toList := by
    intro time plain
    cases colour <;> simp [sign, plain]
  exact (Splits.upTo " " rfl (unspaced one) (unspaced two)).implies fun _ => trivial

variable {times others : Nat → String} {first second : String}

theorem textHead (colour : Bool) (dated : ∀ n, Timestamp.Dated (times n)) (e : Event) (events : List Event)
    (behind : String) :
    ∃ c, (text colour times (e :: events) ++ behind).toList.head? = some c ∧ c ≠ 'E' := by
  rw [textCons]
  cases colour with
  | true => exact ⟨'\x1b', by simp [sign], by decide⟩
  | false =>
    obtain ⟨c, front, digit⟩ := (dated 0).opens
    refine ⟨c, by simp [sign, front], ?_⟩
    rintro rfl
    cases digit

theorem textReads {events list : List Event} (dated : ∀ n, Timestamp.Dated (times n))
    (timed : ∀ n, Timestamp.Dated (others n)) (plain : ∀ e ∈ events, e.Plain) (even : ∀ e ∈ list, e.Plain)
    (one : ∀ c, first.toList.head? = some c → c = 'E') (two : ∀ c, second.toList.head? = some c → c = 'E')
    (same : text colour times events ++ first = text colour others list ++ second) :
    events.map shown = list.map shown ∧ first = second := by
  induction events generalizing list times others with
  | nil =>
    cases list with
    | nil => exact ⟨rfl, by simpa [text] using same⟩
    | cons f more =>
      obtain ⟨c, front, other⟩ := textHead colour timed f more second
      rw [← same] at front
      exact absurd (one c (by simpa [text] using front)) other
  | cons e rest ih =>
    cases list with
    | nil =>
      obtain ⟨c, front, other⟩ := textHead colour dated e rest first
      rw [same] at front
      exact absurd (two c (by simpa [text] using front)) other
    | cons f more =>
      obtain ⟨here, later⟩ := List.forall_mem_cons.mp plain
      obtain ⟨there, after⟩ := List.forall_mem_cons.mp even
      have stamp := stampSplits colour (dated 0).unspaced (timed 0).unspaced
      have line := stamp.andThen fun _ => toldSplits colour here there
      rw [textCons, textCons, String.append_assoc, @String.append_assoc _ _ second] at same
      obtain ⟨⟨_, shown⟩, behind⟩ := line _ _ same
      obtain ⟨all, ends⟩ := ih (fun n => dated (n + 1)) (fun n => timed (n + 1)) later after behind
      exact ⟨List.cons_eq_cons.mpr ⟨shown, all⟩, ends⟩

end Event

end ShellStyle
