import ShellStyle.Scan

/-! One call of `next` as the rounds of a loop. A round opens the next folder, uses one entry of the open
listing or leaves a listing that is used up. A call ends with the first round that finds something, or
when nothing is left to do. The disk is one and the same during a call; nothing is said between calls. -/
namespace ShellStyle.Scan

inductive Move where
  | refused (folder : String) (path : Path) (cause : Cause)
  | opened (folder : String) (path : Path) (entries : List Entry)
  | used (entry : Entry) (events : List Event) (found : Option Found)
  | left

def Move.events : Move → List Event
  | refused folder path _ | opened folder path _ => [.scanning folder path]
  | used _ events _ => events
  | left => []

def Move.found : Move → Option Found
  | refused folder path cause => some (.error (.folder folder path cause))
  | used _ _ found => found
  | opened .. | left => none

inductive Round (disk : Disk) : Scan → Move → Scan → Prop where
  | refused {base folder pending cause}
      (answer : disk.entries (base.join (Path.ofString folder)) = .error cause) :
      Round disk ⟨base, folder :: pending, none⟩
        (.refused folder (base.join (Path.ofString folder)) cause) ⟨base, pending, none⟩
  | opened {base folder pending entries}
      (answer : disk.entries (base.join (Path.ofString folder)) = .ok entries) :
      Round disk ⟨base, folder :: pending, none⟩
        (.opened folder (base.join (Path.ofString folder)) entries)
        ⟨base, pending, some ⟨folder, base.join (Path.ofString folder), entries⟩⟩
  | used {base pending folder path entry rest events found}
      (answer : visit disk folder path entry = (events, found)) :
      Round disk ⟨base, pending, some ⟨folder, path, entry :: rest⟩⟩ (.used entry events found)
        ⟨base, pending, some ⟨folder, path, rest⟩⟩
  | left {base pending folder path} :
      Round disk ⟨base, pending, some ⟨folder, path, []⟩⟩ .left ⟨base, pending, none⟩

inductive Rounds (disk : Disk) : Scan → List Move → Scan → Prop where
  | done (s : Scan) : Rounds disk s [] s
  | step {s move t moves u} (head : Round disk s move t) (tail : Rounds disk t moves u) :
      Rounds disk s (move :: moves) u

def Finished (s : Scan) : Prop := s.pending = [] ∧ s.current = none

/- A turn is what some rounds from `s` amount to. -/
structure Performs (disk : Disk) (s : Scan) (moves : List Move) (turn : Turn) : Prop where
  rounds : Rounds disk s moves turn.rest
  events : moves.flatMap Move.events = turn.events
  found : moves.filterMap Move.found = turn.found.toList
  ended : turn.found = none → Finished turn.rest

structure StopsAtFind (disk : Disk) (s : Scan) (moves : List Move) (turn : Turn) : Prop
    extends Performs disk s moves turn where
  first : ∀ move ∈ moves.dropLast, move.found = none

theorem quietBefore {move : Move} {moves : List Move} (quiet : move.found = none)
    (first : ∀ old ∈ moves.dropLast, old.found = none) :
    ∀ old ∈ (move :: moves).dropLast, old.found = none := by
  cases moves with
  | nil => simp
  | cons next more =>
    rw [List.dropLast_cons_cons]
    exact List.forall_mem_cons.mpr ⟨quiet, first⟩

theorem performsAfter {disk s move t moves turn} (quiet : move.found = none)
    (head : Round disk s move t) (tail : StopsAtFind disk t moves turn) :
    StopsAtFind disk s (move :: moves) ⟨move.events ++ turn.events, turn.found, turn.rest⟩ :=
  ⟨⟨.step head tail.rounds, by simp [tail.events], by simp [quiet, tail.found], tail.ended⟩,
    quietBefore quiet tail.first⟩

theorem firstFoundPerforms {disk : Disk} {folder : String} {path : Path} {entries : List Entry}
    {events : List Event} {found : Found} {rest : List Entry}
    (h : firstFound disk folder path entries = (events, some (found, rest)))
    (base : Path) (pending : List String) :
    ∃ moves, StopsAtFind disk ⟨base, pending, some ⟨folder, path, entries⟩⟩ moves
      ⟨events, some found, ⟨base, pending, some ⟨folder, path, rest⟩⟩⟩ := by
  induction entries generalizing events with
  | nil => simp [firstFound] at h
  | cons entry more ih =>
    rw [firstFound] at h
    split at h
    · rename_i seen given answer
      cases h
      refine ⟨[.used entry events (some found)], ⟨.step (.used answer) (.done _), ?_, ?_, ?_⟩, by simp⟩
      · simp [Move.events]
      · simp [Move.found]
      · simp
    · rename_i seen answer
      obtain ⟨same, later⟩ := Prod.mk.inj h
      obtain ⟨moves, performed⟩ := ih (Prod.ext rfl later)
      subst same
      exact ⟨_, performsAfter rfl (.used answer) performed⟩

theorem firstFoundQuiet {disk : Disk} {folder : String} {path : Path} {entries : List Entry}
    {events : List Event} {base : Path} {pending : List String} {moves : List Move} {turn : Turn}
    (h : firstFound disk folder path entries = (events, none))
    (tail : StopsAtFind disk ⟨base, pending, none⟩ moves turn) :
    ∃ moves, StopsAtFind disk ⟨base, pending, some ⟨folder, path, entries⟩⟩ moves
      ⟨events ++ turn.events, turn.found, turn.rest⟩ := by
  induction entries generalizing events with
  | nil =>
    have silent : events = [] := (congrArg Prod.fst h).symm
    subst silent
    exact ⟨_, performsAfter rfl .left tail⟩
  | cons entry more ih =>
    rw [firstFound] at h
    split at h
    · cases h
    · rename_i seen answer
      obtain ⟨same, later⟩ := Prod.mk.inj h
      obtain ⟨moves, performed⟩ := ih (Prod.ext rfl later)
      subst same
      rw [List.append_assoc]
      exact ⟨_, performsAfter rfl (.used answer) performed⟩

theorem openNextPerforms (disk : Disk) (base : Path) (pending : List String) :
    ∃ moves, StopsAtFind disk ⟨base, pending, none⟩ moves (openNext disk base pending) := by
  induction pending with
  | nil => exact ⟨[], ⟨.done _, rfl, rfl, fun _ => ⟨rfl, rfl⟩⟩, by simp⟩
  | cons folder more ih =>
    cases answer : disk.entries (base.join (Path.ofString folder)) with
    | error cause =>
      simp only [openNext, answer]
      refine ⟨_, ⟨.step (.refused answer) (.done _), ?_, ?_, ?_⟩, by simp⟩
      · simp [Move.events]
      · simp [Move.found]
      · simp
    | ok entries =>
      simp only [openNext, answer]
      split
      · rename_i events found rest given
        obtain ⟨moves, performed⟩ := firstFoundPerforms given base more
        exact ⟨_, performsAfter rfl (.opened answer) performed⟩
      · rename_i events given
        obtain ⟨moves, performed⟩ := ih
        obtain ⟨before, whole⟩ := firstFoundQuiet given performed
        exact ⟨_, performsAfter rfl (.opened answer) whole⟩

theorem nextPerforms (disk : Disk) (s : Scan) : ∃ moves, StopsAtFind disk s moves (s.next disk) := by
  obtain ⟨base, pending, current⟩ := s
  obtain ⟨moves, opening⟩ := openNextPerforms disk base pending
  cases current with
  | none => exact ⟨moves, opening⟩
  | some listing =>
    obtain ⟨folder, path, entries⟩ := listing
    simp only [next]
    split
    · rename_i events found rest given
      exact firstFoundPerforms given base pending
    · rename_i events given
      exact firstFoundQuiet given opening

def openings (events : List Event) : List (String × Path) :=
  events.filterMap fun
    | .scanning folder path => some (folder, path)
    | _ => none

def waiting (s : Scan) : List (String × Path) :=
  s.pending.map fun folder => (folder, s.base.join (Path.ofString folder))

theorem waitingFinished {s} (h : Finished s) : waiting s = [] := by simp [waiting, h.1]

theorem visitOpensNothing (disk : Disk) (folder : String) (path : Path) (entry : Entry) :
    openings (visit disk folder path entry).1 = [] := by
  cases entry with
  | broken cause => rfl
  | name raw =>
    simp only [visit]
    split
    · rfl
    · split <;> rfl

theorem roundOpenings {disk s move t} (round : Round disk s move t) :
    waiting s = openings move.events ++ waiting t := by
  cases round with
  | refused answer => rfl
  | opened answer => rfl
  | @used base pending folder path entry rest events found answer =>
    have nothing := visitOpensNothing disk folder path entry
    rw [answer] at nothing
    simp [Move.events, nothing, waiting]
  | left => rfl

theorem roundsOpenings {disk s moves t} (rounds : Rounds disk s moves t) :
    waiting s = openings (moves.flatMap Move.events) ++ waiting t := by
  induction rounds with
  | done s => rfl
  | step head tail ih =>
    rw [roundOpenings head, ih]
    simp [openings]

theorem nextOpenings (disk : Disk) (s : Scan) :
    waiting s = openings (s.next disk).events ++ waiting (s.next disk).rest := by
  obtain ⟨moves, performed⟩ := nextPerforms disk s
  rw [← performed.events]
  exact roundsOpenings performed.rounds

theorem nextEnds {disk : Disk} {s : Scan} (h : (s.next disk).found = none) :
    Finished (s.next disk).rest := by
  obtain ⟨moves, performed⟩ := nextPerforms disk s
  exact performed.ended h

theorem finishedFindsNothing {disk : Disk} {s : Scan} (h : Finished s) :
    (s.next disk).found = none ∧ (s.next disk).rest = s := by
  obtain ⟨base, pending, current⟩ := s
  obtain ⟨rfl, rfl⟩ := h
  exact ⟨rfl, rfl⟩

theorem turnsOpenings (disk : Disk) (s : Scan) :
    openings ((s.turns disk).flatMap (·.events)) = waiting s := by
  fun_induction turns disk s with
  | case1 s h =>
    have ended := nextOpenings disk s
    rw [waitingFinished (nextEnds h)] at ended
    simpa using ended.symm
  | case2 s found h ih =>
    rw [nextOpenings disk s, ← ih]
    simp [openings]

def after (disks : Nat → Disk) (s : Scan) : Nat → Scan
  | 0 => s
  | n + 1 => ((after disks s n).next (disks n)).rest

def call (disks : Nat → Disk) (s : Scan) (n : Nat) : Turn := (after disks s n).next (disks n)

theorem afterFirst (disks : Nat → Disk) (s : Scan) (n : Nat) :
    after disks s (n + 1) = after (fun i => disks (i + 1)) (s.next (disks 0)).rest n := by
  induction n with
  | zero => rfl
  | succ n ih =>
    rw [after, ih]
    rfl

theorem callFirst (disks : Nat → Disk) (s : Scan) (n : Nat) :
    call disks s (n + 1) = call (fun i => disks (i + 1)) (s.next (disks 0)).rest n := by
  rw [call, afterFirst]
  rfl

end ShellStyle.Scan
