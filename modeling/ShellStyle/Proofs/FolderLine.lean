import ShellStyle.Proofs.SettingsFile

/-! Folders written down as one line of settings. Each is a quoted text in which every character may be
escaped and some must be, so any list of folders can be written, and the reader finds just these folders
however they are spelled. -/
namespace ShellStyle.Toml

namespace Quoted

def shortEscapes : List (Char × Char) :=
  [('b', '\x08'), ('t', '\t'), ('n', '\n'), ('f', '\x0c'), ('r', '\r'), ('e', '\x1b'), ('"', '"'), ('\\', '\\')]

def widths : List (Char × Nat) := [('x', 2), ('u', 4), ('U', 8)]

def Digit (value : Nat) (c : Char) : Prop :=
  value < 16 ∧ (c = Nat.digitChar value ∨ c = (Nat.digitChar value).toUpper)

def positional (values : List Nat) (start : Nat) : Nat := values.foldl (fun n value => n * 16 + value) start

/- One character as a quoted text may spell it. -/
inductive Spelling : Char → List Char → Prop where
  | plain {c} (printed : 32 ≤ c.toNat ∧ c.toNat ≠ 127) (quote : c ≠ '"') (backslash : c ≠ '\\') :
      Spelling c [c]
  | short {c mark} (known : (mark, c) ∈ shortEscapes) : Spelling c ['\\', mark]
  | hex {c mark values digits} (width : (mark, digits.length) ∈ widths)
      (all : List.Forall₂ Digit values digits) (value : positional values 0 = c.toNat) :
      Spelling c ('\\' :: mark :: digits)

inductive Spelled : List Char → List Char → Prop where
  | nil : Spelled [] []
  | cons {c piece cs more} (first : Spelling c piece) (rest : Spelled cs more) : Spelled (c :: cs) (piece ++ more)

theorem digitRead {value : Nat} {c : Char} (digit : Digit value c) :
    hexValue c = some value ∧ c ≠ '"' ∧ c ≠ '\\' ∧ c ≠ '\n' := by
  obtain ⟨small, spelled⟩ := digit
  interval_cases value <;> rcases spelled with rfl | rfl <;> decide

theorem hexDecoded {values : List Nat} {digits : List Char} {c : Char} {start : Nat} (lines : Bool)
    (all : List.Forall₂ Digit values digits) (filled : digits ≠ [])
    (value : positional values start = c.toNat) (rest : List Char) :
    decode lines (.hex digits.length start) (digits ++ rest) = (decode lines .plain rest).map (c :: ·) := by
  induction all generalizing start with
  | nil => exact absurd rfl filled
  | @cons first d others more digit later ih =>
    obtain ⟨read, _⟩ := digitRead digit
    cases later with
    | nil =>
      have whole : start * 16 + first = c.toNat := value
      have valid : (start * 16 + first).isValidChar := whole ▸ c.valid
      have same : Char.ofNat (start * 16 + first) = c := by rw [whole, Char.ofNat_toNat]
      simp only [List.cons_append, List.nil_append, decode, read]
      simp [valid, same]
    | cons next tail =>
      have longer := ih (by simp) value
      rw [List.cons_append, decode, read]
      simpa using longer

theorem shortDecoded {c mark : Char} (known : (mark, c) ∈ shortEscapes) :
    hexEscape mark = none ∧ shortEscape mark = some c ∧ mark ≠ '\n' := by
  have every : ∀ pair ∈ shortEscapes, hexEscape pair.1 = none ∧ shortEscape pair.1 = some pair.2 ∧
      pair.1 ≠ '\n' := by decide
  exact every _ known

theorem widthKnown {mark : Char} {width : Nat} (known : (mark, width) ∈ widths) :
    hexEscape mark = some width ∧ width ≠ 0 ∧ mark ≠ '"' ∧ mark ≠ '\\' ∧ mark ≠ '\n' := by
  have every : ∀ pair ∈ widths, hexEscape pair.1 = some pair.2 ∧ pair.2 ≠ 0 ∧ pair.1 ≠ '"' ∧
      pair.1 ≠ '\\' ∧ pair.1 ≠ '\n' := by decide
  exact every _ known

theorem spellingDecoded {c : Char} {piece : List Char} (spelling : Spelling c piece) (rest : List Char) :
    decode false .plain (piece ++ rest) = (decode false .plain rest).map (c :: ·) := by
  cases spelling with
  | plain printed quote backslash =>
    have text : isText c = true := by simp [isText, printed]
    have notLine : c ≠ '\n' := by rintro rfl; exact absurd printed.1 (by decide)
    simp [decode, backslash, text]
  | short known =>
    obtain ⟨hex, short, _⟩ := shortDecoded known
    simp [decode, hex, short]
  | hex width all value =>
    obtain ⟨hex, filled, _⟩ := widthKnown width
    have decoded := hexDecoded false all (by simpa using filled) value rest
    simp [decode, hex, decoded]

theorem spelledDecoded {cs body : List Char} (spelled : Spelled cs body) :
    decode false .plain body = some cs := by
  induction spelled with
  | nil => rfl
  | cons first rest ih => rw [spellingDecoded first, ih]; rfl

theorem keepKeep (first second : List Char) (cut : Option (List Char) × List Char) :
    keep first (keep second cut) = keep (first ++ second) cut := by
  obtain ⟨found, rest⟩ := cut
  cases found <;> simp [keep]

theorem bodyRun {run rest : List Char} (plain : ∀ c ∈ run, c ≠ '"' ∧ c ≠ '\\' ∧ c ≠ '\n')
    (more : rest ≠ []) :
    body '"' true (run ++ rest) = keep run (body '"' true rest) := by
  induction run with
  | nil => simp [keep]
  | cons c run ih =>
    obtain ⟨⟨quote, backslash, line⟩, later⟩ := List.forall_mem_cons.mp plain
    obtain ⟨d, others, next⟩ := List.exists_cons_of_ne_nil (List.append_ne_nil_of_right_ne_nil run more)
    have here : body '"' true (c :: (run ++ rest)) = keep [c] (body '"' true (run ++ rest)) := by
      rw [next]
      simp [body, quote, backslash, line]
    rw [List.cons_append, here, ih later, keepKeep]
    rfl

theorem bodyBackslash {mark : Char} (other : mark ≠ '"' ∧ mark ≠ '\\') (rest : List Char) :
    body '"' true ('\\' :: mark :: rest) = keep ['\\'] (body '"' true (mark :: rest)) := by
  simp [body, other.1, other.2]

theorem spellingKept {c : Char} {piece rest : List Char} (spelling : Spelling c piece) (more : rest ≠ []) :
    body '"' true (piece ++ rest) = keep piece (body '"' true rest) := by
  cases spelling with
  | plain printed quote backslash =>
    have line : c ≠ '\n' := by rintro rfl; exact absurd printed.1 (by decide)
    exact bodyRun (by simp [quote, backslash, line]) more
  | @short mark known =>
    by_cases covered : mark = '"' ∨ mark = '\\'
    · simp [body, covered]
    · rw [not_or] at covered
      obtain ⟨_, _, line⟩ := shortDecoded known
      have single : ∀ d ∈ [mark], d ≠ '"' ∧ d ≠ '\\' ∧ d ≠ '\n' := by simp [covered, line]
      exact (bodyBackslash covered rest).trans ((congrArg _ (bodyRun single more)).trans (keepKeep _ _ _))
  | @hex mark values digits width all value =>
    obtain ⟨_, _, quote, backslash, line⟩ := widthKnown width
    have run : ∀ d ∈ mark :: digits, d ≠ '"' ∧ d ≠ '\\' ∧ d ≠ '\n' := by
      refine List.forall_mem_cons.mpr ⟨⟨quote, backslash, line⟩, fun d member => ?_⟩
      obtain ⟨index, inside, rfl⟩ := List.getElem_of_mem member
      have digit := all.get (by rw [all.length_eq]; exact inside) inside
      exact (digitRead digit).2
    exact (bodyBackslash ⟨quote, backslash⟩ (digits ++ rest)).trans
      ((congrArg _ (bodyRun run more)).trans (keepKeep _ _ _))

theorem spelledKept {cs text : List Char} (spelled : Spelled cs text) (rest : List Char) :
    body '"' true (text ++ '"' :: rest) = (some text, rest) := by
  induction spelled with
  | nil => cases rest <;> simp [body]
  | cons first others ih =>
    rw [List.append_assoc, spellingKept first (by simp), ih]
    rfl

theorem basicRead {text : String} {spelled : List Char} (spells : Spelled text.toList spelled)
    (rest : List Char) : basic (spelled ++ '"' :: rest) = (some text, rest) := by
  rw [basic, spelledKept spells, decoded]
  simp [spelledDecoded spells]

end Quoted

namespace Document
open Quoted

def ReadAs {α : Type} (read : List Char → Option (α × List Char)) (part : List Char) (item : α) : Prop :=
  (∃ more, part = '"' :: more) ∧
  ∀ sep rest, sep = ',' ∨ sep = ']' → read (part ++ sep :: rest) = some (item, sep :: rest)

theorem itemsRead {α : Type} {read : List Char → Option (α × List Char)} {parts : List (List Char)}
    {found : List α} (each : List.Forall₂ (ReadAs read) parts found) {fuel : Nat}
    (enough : parts.length < fuel) (rest : List Char) : ∃ placed : List (Placed α),
      items ']' read fuel ([','].intercalate parts ++ ']' :: rest) = some (placed, rest) ∧
      placed.map (·.value) = found := by
  induction each generalizing fuel with
  | nil =>
    obtain ⟨fuel, rfl⟩ := Nat.exists_eq_succ_of_ne_zero (Nat.ne_zero_of_lt enough)
    exact ⟨[], by simp [items, dropTrivia], rfl⟩
  | @cons part item parts found first others ih =>
    obtain ⟨fuel, rfl⟩ := Nat.exists_eq_succ_of_ne_zero (Nat.ne_zero_of_lt enough)
    obtain ⟨⟨more, rfl⟩, taken⟩ := first
    cases others with
    | nil =>
      have here := taken ']' rest (.inr rfl)
      refine ⟨[⟨('"' :: more ++ ']' :: rest).length, item⟩], ?_, rfl⟩
      rw [List.cons_append] at here ⊢
      simp [items, dropTrivia, here]
    | @cons next later others found second tail =>
      obtain ⟨placed, behind, same⟩ := ih (Nat.lt_of_succ_lt_succ enough)
      have here := taken ',' ([','].intercalate (next :: others) ++ ']' :: rest) (.inl rfl)
      refine ⟨⟨('"' :: more ++ ',' :: ([','].intercalate (next :: others) ++ ']' :: rest)).length, item⟩ ::
        placed, ?_, by simp [same]⟩
      rw [List.cons_append] at here ⊢
      simp only [List.intercalate_cons_cons, List.append_assoc, List.cons_append, List.nil_append]
      simp [items, dropTrivia, here, behind]

theorem leafBasic {cs : List Char} (short : ∀ more, cs ≠ '"' :: '"' :: more) :
    leaf ('"' :: cs) = some (asString (basic cs)) := by
  unfold leaf
  split <;> simp_all

theorem spelledFirst {cs body : List Char} (spelled : Spelled cs body) : body.head? ≠ some '"' := by
  cases spelled with
  | nil => simp
  | cons first rest =>
    cases first with
    | plain _ quote _ => simpa using quote
    | short known => simp
    | hex width all value => simp

theorem stringRead {text : String} {body : List Char} (spelled : Spelled text.toList body) (depth : Nat) :
    ReadAs (value depth) ('"' :: (body ++ ['"'])) (.scalar (some (.string text))) := by
  refine ⟨⟨_, rfl⟩, fun sep rest mark => ?_⟩
  have short : ∀ more, body ++ '"' :: sep :: rest ≠ '"' :: '"' :: more := by
    intro more same
    have first := spelledFirst spelled
    cases body with
    | nil => rcases mark with rfl | rfl <;> simp at same
    | cons c others => simp_all
  have whole : '"' :: (body ++ ['"']) ++ sep :: rest = '"' :: (body ++ '"' :: sep :: rest) := by simp
  have leaves : value depth ('"' :: (body ++ '"' :: sep :: rest)) = leaf ('"' :: (body ++ '"' :: sep :: rest)) := by
    cases depth <;> rfl
  rw [whole, leaves, leafBasic short, basicRead spelled]
  rfl

theorem keyValueRead {skip : List Char → Option (List Char)} {read : Reader}
    {cs behind after start rest : List Char} {key : List Part} {draft : Draft}
    (named : parts (cs.length + 1) cs = (key, behind)) (equals : skip behind = some ('=' :: after))
    (blank : skip after = some start) (held : read start = some (draft, rest)) :
    keyValue skip read cs = some ((key, ⟨start.length, draft⟩), rest) := by
  simp [keyValue, named, equals, blank, held]

theorem entryRead {c : Char} {cs rest : List Char} {entry : Entry} (other : c ≠ '[')
    (pair : keyValue (fun cs => some (dropBlanks cs)) (value deepest) (c :: cs) = some (entry, rest)) :
    statement (c :: cs) = some (.entry entry, rest) := by
  unfold statement
  split
  · simp_all
  · simp_all
  · simp [pair]

theorem statementAlone {fuel : Nat} {c : Char} {cs : List Char} {first : Statement}
    (solid : dropBlanks (c :: cs) = c :: cs) (starts : startsStatement (c :: cs) = true)
    (read : statement (c :: cs) = some (first, [])) : statements (fuel + 1) (c :: cs) = some [first] := by
  have ends : restOfLine [] = some [] := rfl
  have nothing : statements fuel [] = some [] := by cases fuel <;> rfl
  simp [statements, solid, starts, read, ends, nothing]

def opening : List Char := ['f', 'o', 'l', 'd', 'e', 'r', 's', ' ', '=', ' ', '[']

theorem lineFound {inside : List Char} {draft : Draft} (read : value deepest ('[' :: inside) = some (draft, [])) :
    found (String.ofList (opening ++ inside)) =
      some [.entry ([⟨inside.length + 11, some "folders"⟩], ⟨inside.length + 1, draft⟩)] := by
  have named : parts ((opening ++ inside).length + 1) (opening ++ inside) =
      ([⟨inside.length + 11, some "folders"⟩], '=' :: ' ' :: '[' :: inside) := rfl
  have equals : some (dropBlanks ('=' :: ' ' :: '[' :: inside)) = some ('=' :: ' ' :: '[' :: inside) := rfl
  have blank : some (dropBlanks (' ' :: '[' :: inside)) = some ('[' :: inside) := rfl
  have first := entryRead (by decide) (keyValueRead named equals blank read)
  rw [found, String.toList_ofList]
  exact statementAlone rfl rfl first

theorem intercalateLonger (parts : List (List Char)) (filled : ∀ part ∈ parts, part ≠ []) :
    parts.length ≤ ([','].intercalate parts).length := by
  induction parts with
  | nil => simp
  | cons part rest ih =>
    obtain ⟨first, later⟩ := List.forall_mem_cons.mp filled
    have size := List.length_pos_iff.mpr first
    cases rest with
    | nil => simpa using Nat.succ_le_of_lt size
    | cons next more =>
      have others := ih later
      simp only [List.intercalate_cons_cons, List.length_append, List.length_cons] at others ⊢
      omega

/- A list that the reader takes part by part is the whole rest of the line. Its own bracket is one of the
`deepest` that may be open, so a part is read with one less. -/
theorem listRead {parts : List (List Char)} {found : List Draft}
    (each : List.Forall₂ (ReadAs (value 79)) parts found) :
    ∃ placed, value deepest ('[' :: ([','].intercalate parts ++ [']'])) = some (.array placed, []) ∧
      placed.map (·.value) = found := by
  have filled : ∀ part ∈ parts, part ≠ [] := by
    intro part member
    obtain ⟨index, inside, rfl⟩ := List.getElem_of_mem member
    obtain ⟨⟨more, starts⟩, _⟩ := each.get inside (by rw [← each.length_eq]; exact inside)
    simp_all
  have enough : parts.length < ([','].intercalate parts ++ [']']).length + 1 := by
    have longer := intercalateLonger parts filled
    simp only [List.length_append, List.length_singleton]
    omega
  obtain ⟨placed, read, same⟩ := itemsRead each enough []
  refine ⟨placed, ?_, same⟩
  show (items ']' (value 79) _ _).bind (fun x => some (Draft.array x.1, x.2)) = _
  rw [read]
  rfl

end Document

def Quoted.Writes (text part : String) : Prop :=
  ∃ body, Quoted.Spelled text.toList body ∧ part = "\"" ++ String.ofList body ++ "\""

def FolderLine (folders : List String) (line : String) : Prop :=
  ∃ parts, List.Forall₂ Quoted.Writes folders parts ∧ line = "folders = [" ++ ",".intercalate parts ++ "]"

theorem lineLists {folders : List String} {line : String} (written : FolderLine folders line) :
    ∃ list, Document.found line = some list ∧ Statement.Lists list (some folders) := by
  obtain ⟨parts, writes, rfl⟩ := written
  have each : List.Forall₂ (Document.ReadAs (Document.value 79)) (parts.map String.toList)
      (folders.map fun text => .scalar (some (.string text))) := by
    rw [List.forall₂_map_left_iff, List.forall₂_map_right_iff]
    refine writes.flip.imp ?_
    rintro part text ⟨body, spelled, rfl⟩
    simpa using Document.stringRead spelled _
  obtain ⟨placed, read, same⟩ := Document.listRead each
  have whole : "folders = [" ++ ",".intercalate parts ++ "]" =
      String.ofList (Document.opening ++ ([','].intercalate (parts.map String.toList) ++ [']'])) := by
    simp [← String.toList_inj, Document.opening]
  refine ⟨_, whole ▸ Document.lineFound read, .listed rfl same⟩

namespace Quoted

def written (c : Char) : List Char :=
  if c = '"' ∨ c = '\\' then ['\\', c]
  else if c.toNat < 32 ∨ c.toNat = 127 then
    ['\\', 'u', '0', '0', Nat.digitChar (c.toNat / 16), Nat.digitChar (c.toNat % 16)]
  else [c]

theorem writtenSpelling (c : Char) : Spelling c (written c) := by
  unfold written
  split
  · rename_i covered
    rcases covered with rfl | rfl <;> exact .short (by decide)
  · rename_i bare
    rw [not_or] at bare
    split
    · rename_i control
      have zero : Digit 0 '0' := ⟨by decide, .inl rfl⟩
      have high : Digit (c.toNat / 16) (Nat.digitChar (c.toNat / 16)) := ⟨by omega, .inl rfl⟩
      have low : Digit (c.toNat % 16) (Nat.digitChar (c.toNat % 16)) := ⟨by omega, .inl rfl⟩
      have whole : positional [0, 0, c.toNat / 16, c.toNat % 16] 0 = c.toNat := by
        simp only [positional, List.foldl_cons, List.foldl_nil]
        omega
      exact .hex (by simp [widths]) (.cons zero (.cons zero (.cons high (.cons low .nil)))) whole
    · rename_i printed
      exact .plain (by omega) bare.1 bare.2

theorem writtenSpelled (cs : List Char) : Spelled cs (cs.flatMap written) := by
  induction cs with
  | nil => exact .nil
  | cons c rest ih => exact .cons (writtenSpelling c) ih

end Quoted

theorem lineExists (folders : List String) : ∃ line, FolderLine folders line := by
  refine ⟨_, folders.map fun text => "\"" ++ String.ofList (text.toList.flatMap Quoted.written) ++ "\"", ?_, rfl⟩
  rw [List.forall₂_map_right_iff]
  exact List.forall₂_same.mpr fun text _ => ⟨_, Quoted.writtenSpelled text.toList, rfl⟩

end ShellStyle.Toml

namespace ShellStyle.Settings
open Text Toml

theorem everyListConfigured (folders : List String) : (∃ line, FolderLine folders line) ∧
    ∀ (disk : Disk) (root : Path) (line : String), FolderLine folders line →
      disk.kind (root.join fileName) = .ok .file →
      disk.bytes (root.join fileName) = .ok (Utf8.encode line) →
      load disk root = .ok ⟨root, folders⟩ := by
  refine ⟨lineExists folders, fun disk root line written file holds => ?_⟩
  obtain ⟨list, found, lists⟩ := lineLists written
  exact loadStated (.heeded file holds found lists)

def spelledLine : String := "folders = [\"\\\"\",\"\",\"é\",\"\\u00E9\"]"

theorem spelledLineWritten : FolderLine ["\"", "", "é", "é"] spelledLine := by
  have digits : List.Forall₂ Quoted.Digit [0, 0, 14, 9] ['0', '0', 'E', '9'] :=
    .cons ⟨by decide, .inl rfl⟩ (.cons ⟨by decide, .inl rfl⟩ (.cons ⟨by decide, .inr rfl⟩
      (.cons ⟨by decide, .inl rfl⟩ .nil)))
  have mark : Quoted.Spelled ['"'] ['\\', '"'] := .cons (.short (by decide)) .nil
  have plain : Quoted.Spelled ['é'] ['é'] := .cons (.plain (by decide) (by decide) (by decide)) .nil
  have number : Quoted.Spelled ['é'] ['\\', 'u', '0', '0', 'E', '9'] :=
    .cons (.hex (by decide) digits (by decide)) .nil
  refine ⟨["\"\\\"\"", "\"\"", "\"é\"", "\"\\u00E9\""], ?_, by decide⟩
  exact .cons ⟨_, mark, by decide⟩ (.cons ⟨_, .nil, by decide⟩ (.cons ⟨_, plain, by decide⟩
    (.cons ⟨_, number, by decide⟩ .nil)))

theorem spelledLineRead : load (holding (.file (Utf8.encode spelledLine))).disk (Path.ofString "/") =
    .ok ⟨Path.ofString "/", ["\"", "", "é", "é"]⟩ := by
  obtain ⟨_, configured⟩ := everyListConfigured ["\"", "", "é", "é"]
  exact configured _ _ _ spelledLineWritten (by cbv) (by cbv)

end ShellStyle.Settings
