import ShellStyle.Proofs.JsonScalar

/-! A reader for whole JSON texts. It keeps the arrays and objects that are still open on a stack and takes one
sign, name or scalar at a time. It reads a value from exactly the texts that denote one under the grammar, so
a text denotes one value at most. -/
namespace ShellStyle.Json

inductive Frame where
  | items (before : List Value)
  | members (before : List (String × Value)) (key : String)

inductive Mode where
  | value
  | key (before : List (String × Value))
  | done (v : Value)

structure State where
  stack : List Frame
  mode : Mode
  text : List Char

def skip (text : List Char) : List Char := text.dropWhile isBlank

def readKey (text : List Char) : Option (String × List Char) :=
  match text with
  | '"' :: text => do
    let (key, rest) ← readText text
    match skip rest with
    | ':' :: rest => some (String.ofList key, rest)
    | _ => none
  | _ => none

namespace State

def openValue (stack : List Frame) (text : List Char) : Option State :=
  match text with
  | '[' :: text =>
    match skip text with
    | ']' :: rest => some ⟨stack, .done (.array []), rest⟩
    | _ => some ⟨.items [] :: stack, .value, text⟩
  | '\x7b' :: text =>
    match skip text with
    | '\x7d' :: rest => some ⟨stack, .done (.object []), rest⟩
    | _ => some ⟨stack, .key [], text⟩
  | _ => (readScalar text).map fun (v, rest) => ⟨stack, .done v, rest⟩

def closeValue (stack : List Frame) (v : Value) (text : List Char) : Option State :=
  match stack, text with
  | .items before :: stack, ',' :: rest => some ⟨.items (before ++ [v]) :: stack, .value, rest⟩
  | .items before :: stack, ']' :: rest => some ⟨stack, .done (.array (before ++ [v])), rest⟩
  | .members before key :: stack, ',' :: rest => some ⟨stack, .key (before ++ [(key, v)]), rest⟩
  | .members before key :: stack, '\x7d' :: rest =>
    some ⟨stack, .done (.object (before ++ [(key, v)])), rest⟩
  | _, _ => none

def step (s : State) : Option State :=
  match s.mode with
  | .value => openValue s.stack (skip s.text)
  | .key before =>
    (readKey (skip s.text)).map fun (key, rest) => ⟨.members before key :: s.stack, .value, rest⟩
  | .done v => closeValue s.stack v (skip s.text)

def result (s : State) : Option Value :=
  match s.stack, s.mode, skip s.text with
  | [], .done v, [] => some v
  | _, _, _ => none

end State

/- What one step can do, and the text that it uses up behind the blanks it skips. -/
inductive Turn : List Frame → Mode → List Char → List Frame → Mode → Prop where
  | value {stack used v} (denotes : Denotes used (.value v)) : Turn stack .value used stack (.done v)
  | openArray {stack} : Turn stack .value ['['] (.items [] :: stack) .value
  | openObject {stack} : Turn stack .value ['\x7b'] stack (.key [])
  | key {stack before name blanks key} (quoted : Quoted name key) (blank : Blank blanks) :
      Turn stack (.key before) (name ++ (blanks ++ [':'])) (.members before key :: stack) .value
  | nextItem {stack before v} : Turn (.items before :: stack) (.done v) [',']
      (.items (before ++ [v]) :: stack) .value
  | lastItem {stack before v} : Turn (.items before :: stack) (.done v) [']']
      stack (.done (.array (before ++ [v])))
  | nextMember {stack before key v} : Turn (.members before key :: stack) (.done v) [',']
      stack (.key (before ++ [(key, v)]))
  | lastMember {stack before key v} : Turn (.members before key :: stack) (.done v) ['\x7d']
      stack (.done (.object (before ++ [(key, v)])))

section Steps

variable {text rest : List Char} {s next : State}

theorem skipSplit (text : List Char) : ∃ blanks, text = blanks ++ skip text ∧ Blank blanks :=
  ⟨text.takeWhile isBlank, List.takeWhile_append_dropWhile.symm, List.all_eq_true.mp List.all_takeWhile⟩

theorem skipBlank {blanks : List Char} (h : Blank blanks) (rest : List Char) :
    skip (blanks ++ rest) = skip rest := List.dropWhile_append_of_pos h

theorem skipSolid {c : Char} (h : isBlank c = false) (rest : List Char) :
    skip (c :: rest) = c :: rest := by simp [skip, h]

theorem skipNil (h : skip text = []) : Blank text := by
  obtain ⟨blanks, same, blank⟩ := skipSplit text
  rw [same, h, List.append_nil]
  exact blank

theorem keySound {key : String} (h : readKey text = some (key, rest)) :
    ∃ name blanks, text = name ++ (blanks ++ [':']) ++ rest ∧ Quoted name key ∧ Blank blanks := by
  unfold readKey at h
  split at h
  · simp only [bind, Option.bind_eq_some_iff] at h
    obtain ⟨⟨cs, left⟩, read, last⟩ := h
    split at last
    · rename_i behind colon
      cases last
      obtain ⟨body, rfl, spells⟩ := textSound read
      obtain ⟨blanks, same, blank⟩ := skipSplit left
      simp only at colon
      rw [colon] at same
      have quoted : Quoted ('"' :: body ++ ['"']) (String.ofList cs) := .between (by simpa using spells)
      exact ⟨_, blanks, by simp [same], quoted, blank⟩
    · contradiction
  · contradiction

theorem openTurn {stack : List Frame} (h : State.openValue stack text = some next) :
    ∃ used, text = used ++ next.text ∧ Turn stack .value used next.stack next.mode := by
  unfold State.openValue at h
  split at h
  · rename_i inner
    obtain ⟨blanks, same, blank⟩ := skipSplit inner
    split at h
    · rename_i closed
      cases h
      rw [closed] at same
      exact ⟨_, by simp [same], .value (.emptyArray blank)⟩
    · cases h
      exact ⟨['['], rfl, .openArray⟩
  · rename_i inner
    obtain ⟨blanks, same, blank⟩ := skipSplit inner
    split at h
    · rename_i closed
      cases h
      rw [closed] at same
      exact ⟨_, by simp [same], .value (.emptyObject blank)⟩
    · cases h
      exact ⟨['\x7b'], rfl, .openObject⟩
  · simp only [Option.map_eq_some_iff] at h
    obtain ⟨⟨v, left⟩, read, same⟩ := h
    cases same
    obtain ⟨used, same, denotes⟩ := scalarSound read
    exact ⟨used, same, .value denotes⟩

theorem closeTurn {stack : List Frame} {v : Value} (h : State.closeValue stack v text = some next) :
    ∃ used, text = used ++ next.text ∧ Turn stack (.done v) used next.stack next.mode := by
  unfold State.closeValue at h
  split at h
  · cases h
    exact ⟨[','], rfl, .nextItem⟩
  · cases h
    exact ⟨[']'], rfl, .lastItem⟩
  · cases h
    exact ⟨[','], rfl, .nextMember⟩
  · cases h
    exact ⟨['\x7d'], rfl, .lastMember⟩
  · contradiction

theorem stepTurn (h : s.step = some next) : ∃ blanks used, s.text = blanks ++ (used ++ next.text) ∧
    Blank blanks ∧ Turn s.stack s.mode used next.stack next.mode := by
  obtain ⟨blanks, same, blank⟩ := skipSplit s.text
  have turn : ∃ used, skip s.text = used ++ next.text ∧ Turn s.stack s.mode used next.stack next.mode := by
    unfold State.step at h
    split at h
    · rename_i mode
      rw [mode]
      exact openTurn h
    · rename_i before mode
      simp only [Option.map_eq_some_iff] at h
      obtain ⟨⟨key, left⟩, read, last⟩ := h
      cases last
      obtain ⟨name, inner, split, quoted, blank⟩ := keySound read
      rw [mode]
      exact ⟨_, split, .key quoted blank⟩
    · rename_i v mode
      rw [mode]
      exact closeTurn h
  obtain ⟨used, split, turn⟩ := turn
  rw [split] at same
  exact ⟨blanks, used, same, blank, turn⟩

theorem skipFront {c : Char} {more : List Char} (h : skip text = c :: more) (rest : List Char) :
    skip (text ++ rest) = c :: (more ++ rest) := by
  rw [skip] at h
  simp [skip, List.dropWhile_append, h]

theorem numeralFirst {q : Rat} (h : Numeral text q) :
    ∃ c more, text = c :: more ∧ isBlank c = false ∧ c ∉ ['[', ']', '\x7b', '\x7d'] := by
  obtain ⟨c, more, same, first⟩ := numeralStart h
  refine ⟨c, more, same, ?_⟩
  rcases first with rfl | digit
  · decide
  · have other : ∀ sign : Char, sign.isDigit = false → c ≠ sign := by
      rintro sign no rfl
      exact absurd digit (by simp [no])
    simp [isBlank, other]

theorem denotesStart {p : Phrase} (h : Denotes text p) :
    ∃ c more, skip text = c :: more ∧ c ≠ ']' ∧ c ≠ '\x7d' := by
  induction h with
  | null | true | false | emptyArray | array | emptyObject | object =>
    exact ⟨_, _, rfl, by decide, by decide⟩
  | number digits =>
    obtain ⟨c, more, rfl, solid, other⟩ := numeralFirst digits
    simp only [List.mem_cons, not_or] at other
    exact ⟨c, more, skipSolid solid more, other.2.1, other.2.2.2.1⟩
  | string quoted =>
    obtain ⟨spells⟩ := quoted
    exact ⟨'"', _, rfl, by decide, by decide⟩
  | element left value right ih =>
    obtain ⟨c, more, start, others⟩ := ih
    exact ⟨c, _, (skipBlank left _).trans (skipFront start _), others⟩
  | lastItem only ih => exact ih
  | items head tail ih later =>
    obtain ⟨c, more, start, others⟩ := ih
    exact ⟨c, _, skipFront start _, others⟩
  | member left quoted right value ih =>
    obtain ⟨spells⟩ := quoted
    exact ⟨'"', _, skipBlank left _, by decide, by decide⟩
  | lastMember only ih => exact ih
  | members head tail ih later =>
    obtain ⟨c, more, start, others⟩ := ih
    exact ⟨c, _, skipFront start _, others⟩

theorem turnUses {stack after : List Frame} {mode later : Mode} {used : List Char}
    (h : Turn stack mode used after later) : used ≠ [] := by
  cases h with
  | value denotes =>
    obtain ⟨c, more, start, _⟩ := denotesStart denotes
    rintro rfl
    contradiction
  | key quoted blank => simp
  | _ => simp

theorem stepShorter (h : s.step = some next) : next.text.length < s.text.length := by
  obtain ⟨blanks, used, same, _, turn⟩ := stepTurn h
  have some : 0 < used.length := List.length_pos_iff.mpr (turnUses turn)
  rw [same, List.length_append, List.length_append]
  omega

end Steps

def State.run (s : State) : Option Value :=
  match _h : s.step with
  | some next => next.run
  | none => s.result
termination_by s.text.length
decreasing_by exact stepShorter _h

def read (text : String) : Option Value := State.run ⟨[], .value, text.toList⟩

section Complete

variable {text rest : List Char} {s next : State}

theorem runTurns (s : State) : s.run = match s.step with
    | some next => next.run
    | none => s.result := by
  rw [State.run]
  split <;> simp_all

theorem runStep (h : s.step = some next) : s.run = next.run := by rw [runTurns, h]

theorem runSkip {blanks : List Char} (blank : Blank blanks) (stack : List Frame) (mode : Mode)
    (rest : List Char) : State.run ⟨stack, mode, blanks ++ rest⟩ = State.run ⟨stack, mode, rest⟩ := by
  have same : skip (blanks ++ rest) = skip rest := skipBlank blank rest
  have step : State.step ⟨stack, mode, blanks ++ rest⟩ = State.step ⟨stack, mode, rest⟩ := by
    simp only [State.step, same]
  have result : State.result ⟨stack, mode, blanks ++ rest⟩ = State.result ⟨stack, mode, rest⟩ := by
    simp only [State.result, same]
  rw [runTurns, runTurns ⟨stack, mode, rest⟩, step, result]

theorem blankStops (h : Blank text) : Stops isPart text := by
  intro c first
  have blank := h c (List.mem_of_mem_head? first)
  simp only [isBlank, Bool.or_eq_true, decide_eq_true_eq] at blank
  rcases blank with ((rfl | rfl) | rfl) | rfl <;> decide

def Phrase.Crossed (text : List Char) : Phrase → Prop
  | .value v | .element v => ∀ stack rest, Stops isPart rest →
    State.run ⟨stack, .value, text ++ rest⟩ = State.run ⟨stack, .done v, rest⟩
  | .items vs => ∀ stack before rest,
    State.run ⟨.items before :: stack, .value, text ++ ']' :: rest⟩ =
      State.run ⟨stack, .done (.array (before ++ vs)), rest⟩
  | .member key v => ∀ stack before rest, Stops isPart rest →
    State.run ⟨stack, .key before, text ++ rest⟩ = State.run ⟨.members before key :: stack, .done v, rest⟩
  | .members ms => ∀ stack before rest,
    State.run ⟨stack, .key before, text ++ '\x7d' :: rest⟩ =
      State.run ⟨stack, .done (.object (before ++ ms)), rest⟩

theorem runScalar {v : Value} {c : Char} {more : List Char} (h : readScalar (c :: more) = some (v, rest))
    (solid : isBlank c = false) (noArray : c ≠ '[') (noObject : c ≠ '\x7b') (stack : List Frame) :
    State.run ⟨stack, .value, c :: more⟩ = State.run ⟨stack, .done v, rest⟩ := by
  have step : State.step ⟨stack, .value, c :: more⟩ = some ⟨stack, .done v, rest⟩ := by
    simp [State.step, skipSolid solid, State.openValue, noArray, noObject, h]
  exact runStep step

theorem runArray {c : Char} {more : List Char} (h : skip text = c :: more) (other : c ≠ ']')
    (stack : List Frame) :
    State.run ⟨stack, .value, '[' :: text⟩ = State.run ⟨.items [] :: stack, .value, text⟩ := by
  have step : State.step ⟨stack, .value, '[' :: text⟩ = some ⟨.items [] :: stack, .value, text⟩ := by
    simp [State.step, skipSolid, isBlank, State.openValue, h, other]
  exact runStep step

theorem runObject {c : Char} {more : List Char} (h : skip text = c :: more) (other : c ≠ '\x7d')
    (stack : List Frame) :
    State.run ⟨stack, .value, '\x7b' :: text⟩ = State.run ⟨stack, .key [], text⟩ := by
  have step : State.step ⟨stack, .value, '\x7b' :: text⟩ = some ⟨stack, .key [], text⟩ := by
    simp [State.step, skipSolid, isBlank, State.openValue, h, other]
  exact runStep step

theorem runKey {name blanks : List Char} {key : String} (quoted : Quoted name key) (blank : Blank blanks)
    (stack : List Frame) (before : List (String × Value)) (rest : List Char) :
    State.run ⟨stack, .key before, name ++ (blanks ++ ':' :: rest)⟩ =
      State.run ⟨.members before key :: stack, .value, rest⟩ := by
  have colon : skip (blanks ++ ':' :: rest) = ':' :: rest := skipBlank blank _
  cases quoted with
  | @between body _ spells =>
    have read := textRead spells (blanks ++ ':' :: rest)
    have step : State.step ⟨stack, .key before, '"' :: body ++ ['"'] ++ (blanks ++ ':' :: rest)⟩ =
        some ⟨.members before key :: stack, .value, rest⟩ := by
      simp [State.step, skipSolid, isBlank, readKey, read, colon]
    exact runStep step

theorem denotedCrossed {p : Phrase} (h : Denotes text p) : p.Crossed text := by
  induction h with
  | null | true | false => exact fun stack rest _ => runStep rfl
  | number digits =>
    intro stack rest stop
    have read := numberRead digits stop
    obtain ⟨c, more, rfl, solid, other⟩ := numeralFirst digits
    simp only [List.mem_cons, not_or] at other
    exact runScalar read solid other.1 other.2.2.1 stack
  | string quoted =>
    intro stack rest stop
    have read := stringRead quoted rest
    obtain ⟨spells⟩ := quoted
    exact runScalar read rfl (by decide) (by decide) stack
  | @emptyArray blanks blank =>
    intro stack rest stop
    have closed : skip (blanks ++ ']' :: rest) = ']' :: rest := skipBlank blank _
    apply runStep
    simp [State.step, skipSolid, isBlank, State.openValue, closed]
  | array items ih =>
    intro stack rest stop
    obtain ⟨c, more, start, other, _⟩ := denotesStart items
    simp only [List.cons_append, List.append_assoc, List.nil_append]
    rw [runArray (skipFront start _) other]
    exact ih stack [] rest
  | @emptyObject blanks blank =>
    intro stack rest stop
    have closed : skip (blanks ++ '\x7d' :: rest) = '\x7d' :: rest := skipBlank blank _
    apply runStep
    simp [State.step, skipSolid, isBlank, State.openValue, closed]
  | object members ih =>
    intro stack rest stop
    obtain ⟨c, more, start, _, other⟩ := denotesStart members
    simp only [List.cons_append, List.append_assoc, List.nil_append]
    rw [runObject (skipFront start _) other]
    exact ih stack [] rest
  | element left value right ih =>
    intro stack rest stop
    rw [List.append_assoc, runSkip left, List.append_assoc, ih stack _ (stopsAppend (blankStops right) stop),
      runSkip right]
  | lastItem only ih =>
    intro stack before rest
    rw [ih _ (']' :: rest) (by simp [Stops, isPart])]
    exact runStep rfl
  | @items text more v vs head tail ih later =>
    intro stack before rest
    have comma : State.run ⟨.items before :: stack, .done v, ',' :: (more ++ ']' :: rest)⟩ =
        State.run ⟨.items (before ++ [v]) :: stack, .value, more ++ ']' :: rest⟩ := runStep rfl
    rw [List.append_assoc, List.cons_append, ih _ _ (by simp [Stops, isPart]), comma, later]
    simp
  | member left quoted right value ih =>
    intro stack before rest stop
    simp only [List.append_assoc, List.cons_append]
    rw [runSkip left, runKey quoted right, ih _ _ stop]
  | lastMember only ih =>
    intro stack before rest
    rw [ih _ _ ('\x7d' :: rest) (by simp [Stops, isPart])]
    exact runStep rfl
  | @members text more key v ms head tail ih later =>
    intro stack before rest
    have comma : State.run ⟨.members before key :: stack, .done v, ',' :: (more ++ '\x7d' :: rest)⟩ =
        State.run ⟨stack, .key (before ++ [(key, v)]), more ++ '\x7d' :: rest⟩ := runStep rfl
    rw [List.append_assoc, List.cons_append, ih _ _ _ (by simp [Stops, isPart]), comma, later]
    simp

theorem denotedRead {v : Value} (h : Denotes text (.element v)) :
    State.run ⟨[], .value, text⟩ = some v := by
  have crossed : State.run ⟨[], .value, text ++ []⟩ = State.run ⟨[], .done v, []⟩ :=
    denotedCrossed h [] [] (by simp [Stops])
  rw [List.append_nil] at crossed
  rw [crossed, runTurns]
  rfl

end Complete

def Front {α : Type} (phrase : List α → Phrase) (text : List Char) (before : List α) : Prop :=
  ∀ more later, Denotes more (phrase later) → Denotes (text ++ more) (phrase (before ++ later))

def Named (text : List Char) (key : String) : Prop :=
  ∀ more v, Denotes more (.element v) → Denotes (text ++ more) (.member key v)

inductive Open : List Frame → List Char → Prop where
  | nothing : Open [] []
  | items {stack text blanks inner before} (outer : Open stack text) (blank : Blank blanks)
      (front : Front .items inner before) :
      Open (.items before :: stack) (text ++ (blanks ++ '[' :: inner))
  | members {stack text blanks inner before name key} (outer : Open stack text) (blank : Blank blanks)
      (front : Front .members inner before) (named : Named name key) :
      Open (.members before key :: stack) (text ++ (blanks ++ '\x7b' :: (inner ++ name)))

inductive Consumed : List Frame → Mode → List Char → Prop where
  | value {stack text} (outer : Open stack text) : Consumed stack .value text
  | key {stack text blanks inner before} (outer : Open stack text) (blank : Blank blanks)
      (front : Front .members inner before) :
      Consumed stack (.key before) (text ++ (blanks ++ '\x7b' :: inner))
  | done {stack text more v} (outer : Open stack text) (element : Denotes more (.element v)) :
      Consumed stack (.done v) (text ++ more)

section Sound

variable {text more blanks : List Char} {v : Value}

theorem frontNil {α : Type} (phrase : List α → Phrase) : Front phrase [] [] := fun _ _ later => later

theorem elementBlank (h : Denotes text (.element v)) (blank : Blank blanks) :
    Denotes (text ++ blanks) (.element v) := by
  cases h with
  | element left value right =>
    have element := Denotes.element left value (blankAppend.mpr ⟨right, blank⟩)
    simpa using element

theorem blankElement (h : Denotes text (.value v)) (blank : Blank blanks) :
    Denotes (blanks ++ text) (.element v) := by
  have element := Denotes.element blank h blankNil
  simpa using element

theorem namedQuoted {name after : List Char} {key : String} (blank : Blank blanks) (quoted : Quoted name key)
    (right : Blank after) : Named (blanks ++ (name ++ (after ++ [':']))) key := by
  intro more v element
  have member := Denotes.member blank quoted right element
  simpa using member

theorem frontItem {before : List Value} (front : Front .items text before)
    (element : Denotes more (.element v)) : Front .items (text ++ (more ++ [','])) (before ++ [v]) := by
  intro rest later items
  have whole := front _ _ (.items element items)
  simpa using whole

theorem frontMember {before : List (String × Value)} {name : List Char} {key : String}
    (front : Front .members text before) (named : Named name key) (element : Denotes more (.element v)) :
    Front .members (text ++ (name ++ (more ++ [',']))) (before ++ [(key, v)]) := by
  intro rest later members
  have whole := front _ _ (.members (named _ _ element) members)
  simpa using whole

theorem turnConsumed {stack after : List Frame} {mode later : Mode} {used : List Char}
    (turn : Turn stack mode used after later) (blank : Blank blanks) (h : Consumed stack mode text) :
    Consumed after later (text ++ (blanks ++ used)) := by
  cases turn with
  | value denotes =>
    cases h with
    | value outer => exact .done outer (blankElement denotes blank)
  | openArray =>
    cases h with
    | value outer => exact .value (.items outer blank (frontNil _))
  | openObject =>
    cases h with
    | value outer => exact .key outer blank (frontNil _)
  | key quoted right =>
    cases h with
    | key outer left front =>
      have opened := Open.members outer left front (namedQuoted blank quoted right)
      exact .value (by simpa using opened)
  | nextItem =>
    cases h with
    | done inside element =>
      cases inside with
      | items outer left front =>
        have opened := Open.items outer left (frontItem front (elementBlank element blank))
        exact .value (by simpa using opened)
  | lastItem =>
    cases h with
    | done inside element =>
      cases inside with
      | items outer left front =>
        have whole := Denotes.array (front _ _ (.lastItem (elementBlank element blank)))
        have consumed := Consumed.done outer (blankElement whole left)
        simpa using consumed
  | nextMember =>
    cases h with
    | done inside element =>
      cases inside with
      | members outer left front named =>
        have consumed := Consumed.key outer left (frontMember front named (elementBlank element blank))
        simpa using consumed
  | lastMember =>
    cases h with
    | done inside element =>
      cases inside with
      | members outer left front named =>
        have whole := Denotes.object (front _ _ (.lastMember (named _ _ (elementBlank element blank))))
        have consumed := Consumed.done outer (blankElement whole left)
        simpa using consumed

theorem resultDenotes {s : State} (h : s.result = some v) (consumed : Consumed s.stack s.mode text) :
    Denotes (text ++ s.text) (.element v) := by
  unfold State.result at h
  split at h
  · rename_i stack mode left
    cases h
    rw [stack, mode] at consumed
    cases consumed with
    | done outer element =>
      cases outer with
      | nothing => exact elementBlank element (skipNil left)
  · contradiction

theorem runDenotes {s : State} (h : s.run = some v) (consumed : Consumed s.stack s.mode text) :
    Denotes (text ++ s.text) (.element v) := by
  fun_induction State.run s generalizing text with
  | case1 s next step ih =>
    obtain ⟨blanks, used, same, blank, turn⟩ := stepTurn step
    have whole := ih h (turnConsumed turn blank consumed)
    simpa [same] using whole
  | case2 s step => exact resultDenotes h consumed

theorem readIff (text : String) (v : Value) : read text = some v ↔ Denotes text.toList (.element v) := by
  constructor
  · intro h
    exact runDenotes h (.value .nothing)
  · exact denotedRead

example : read "[-1.5e1, true]" = some (.array [.number (-15), .bool true]) := by cbv

end Sound

end ShellStyle.Json
