import ShellStyle.Proofs.Enumeration

/-! The calls of a scan while the disk changes between them in any way. A ledger has a stay for every
folder whose opening was tried, and in it the uses of its listed entries, each with the number of its
call. Every run of calls has such a ledger, and what the calls found are the items of its stays, in order. -/
namespace ShellStyle.Scan
open Text

structure Use where
  call : Nat
  entry : Entry
  found : Option Found

structure Stay where
  call : Nat
  folder : String
  opening : Except Cause (List Entry)
  uses : List Use

namespace Stay

def path (base : Path) (stay : Stay) : Path := base.join (Path.ofString stay.folder)

def attempt (base : Path) (stay : Stay) : Nat × String × Path :=
  (stay.call, stay.folder, stay.path base)

def calls (stay : Stay) : List Nat := stay.call :: stay.uses.map Use.call

/- The listing is fixed by the opening; later changes of the directory do not reach it. -/
def listed (stay : Stay) : List Entry :=
  match stay.opening with
  | .error _ => []
  | .ok entries => entries

def UsedUp (stay : Stay) : Prop := stay.uses.map Use.entry = stay.listed

def items (base : Path) (stay : Stay) : List (Nat × Found) :=
  match stay.opening with
  | .error cause => [(stay.call, .error (.folder stay.folder (stay.path base) cause))]
  | .ok _ => stay.uses.flatMap fun use => use.found.toList.map (use.call, ·)

def events (disks : Nat → Disk) (base : Path) (stay : Stay) : List Event :=
  .scanning stay.folder (stay.path base) ::
    stay.uses.flatMap fun use => (visit (disks use.call) stay.folder (stay.path base) use.entry).1

structure Recorded (disks : Nat → Disk) (base : Path) (stay : Stay) : Prop where
  opening : (disks stay.call).entries (stay.path base) = stay.opening
  entries : stay.uses.map Use.entry <+: stay.listed
  uses : ∀ use ∈ stay.uses,
    Gives (disks use.call) stay.folder (stay.path base) use.entry use.found.toList

def use (stay : Stay) (call : Nat) (entry : Entry) (found : Option Found) : Stay :=
  { stay with uses := stay.uses ++ [⟨call, entry, found⟩] }

theorem useListed (stay : Stay) (call entry found) :
    (stay.use call entry found).listed = stay.listed := rfl

theorem useCalls (stay : Stay) (call entry found) :
    (stay.use call entry found).calls = stay.calls ++ [call] := by
  simp [calls, use]

theorem useItems {stay : Stay} {base : Path} {call : Nat} {entry : Entry} {found : Option Found}
    {rest : List Entry} (listing : stay.listed = stay.uses.map Use.entry ++ entry :: rest) :
    (stay.use call entry found).items base = stay.items base ++ found.toList.map (call, ·) := by
  cases opened : stay.opening with
  | error cause => simp [listed, opened] at listing
  | ok entries => simp [items, use, opened]

theorem useEvents (stay : Stay) (disks : Nat → Disk) (base : Path) (call entry found) :
    (stay.use call entry found).events disks base =
      stay.events disks base ++ (visit (disks call) stay.folder (stay.path base) entry).1 := by
  simp [events, use, path]

theorem useRecorded {stay : Stay} {disks : Nat → Disk} {base : Path} {call : Nat} {entry : Entry}
    {found : Option Found} {rest : List Entry} (recorded : stay.Recorded disks base)
    (listing : stay.listed = stay.uses.map Use.entry ++ entry :: rest)
    (given : Gives (disks call) stay.folder (stay.path base) entry found.toList) :
    (stay.use call entry found).Recorded disks base := by
  refine ⟨recorded.opening, ⟨rest, ?_⟩, ?_⟩
  · rw [useListed, listing]
    simp [use]
  · intro used member
    rcases List.mem_append.mp member with old | new
    · exact recorded.uses used old
    · rw [List.mem_singleton.mp new]
      exact given

end Stay

inductive Standing (base : Path) : Option Listing → List Stay → Prop where
  | outside {ledger} (ended : ∀ stay ∈ ledger, stay.UsedUp) : Standing base none ledger
  | inside {before stay rest} (ended : ∀ old ∈ before, old.UsedUp)
      (listing : stay.listed = stay.uses.map Use.entry ++ rest) :
      Standing base (some ⟨stay.folder, stay.path base, rest⟩) (before ++ [stay])

structure Account (disks : Nat → Disk) (base : Path) (folders : List String) (n : Nat) (s : Scan)
    (ledger : List Stay) : Prop where
  root : s.base = base
  order : folders = ledger.map Stay.folder ++ s.pending
  recorded : ∀ stay ∈ ledger, stay.Recorded disks base
  inTime : (ledger.flatMap Stay.calls).Pairwise (· ≤ ·)
  past : ∀ call ∈ ledger.flatMap Stay.calls, call < n
  standing : Standing base s.current ledger

theorem accountStart (disks : Nat → Disk) (base : Path) (folders : List String) :
    Account disks base folders 0 (start base folders) [] :=
  ⟨rfl, rfl, by simp, by simp, by simp, .outside (by simp)⟩

theorem accountLater {disks base folders n s ledger} (account : Account disks base folders n s ledger) :
    Account disks base folders (n + 1) s ledger :=
  { account with past := fun call member => Nat.lt_succ_of_lt (account.past call member) }

theorem standingUsedUp {base current ledger} (standing : Standing base current ledger) :
    ∀ stay ∈ ledger.dropLast, stay.UsedUp := by
  cases standing with
  | outside ended => exact fun stay member => ended stay (List.dropLast_subset ledger member)
  | inside ended listing => simpa using ended

section Calls

variable {disks : Nat → Disk} {base : Path} {folders : List String} {n : Nat}

theorem inTimeSnoc {calls : List Nat} (inTime : calls.Pairwise (· ≤ ·))
    (past : ∀ call ∈ calls, call < n + 1) :
    (calls ++ [n]).Pairwise (· ≤ ·) ∧ ∀ call ∈ calls ++ [n], call < n + 1 := by
  refine ⟨?_, ?_⟩
  · rw [List.pairwise_append]
    refine ⟨inTime, List.pairwise_singleton _ _, ?_⟩
    intro call member last new
    rw [List.mem_singleton.mp new]
    exact Nat.le_of_lt_succ (past call member)
  · intro call member
    rcases List.mem_append.mp member with old | new
    · exact past call old
    · rw [List.mem_singleton.mp new]
      exact Nat.lt_succ_self n

theorem openAccount {pending : List String} {folder : String} {ledger : List Stay}
    {opening : Except Cause (List Entry)} {current : Option Listing}
    (account : Account disks base folders (n + 1) ⟨base, folder :: pending, none⟩ ledger)
    (answer : (disks n).entries (base.join (Path.ofString folder)) = opening)
    (standing : Standing base current (ledger ++ [⟨n, folder, opening, []⟩])) :
    Account disks base folders (n + 1) ⟨base, pending, current⟩
      (ledger ++ [⟨n, folder, opening, []⟩]) := by
  have times := inTimeSnoc account.inTime account.past
  refine ⟨rfl, ?_, ?_, ?_, ?_, standing⟩
  · simpa using account.order
  · intro stay member
    rcases List.mem_append.mp member with old | new
    · exact account.recorded stay old
    · rw [List.mem_singleton.mp new]
      exact ⟨answer, List.nil_prefix, by simp⟩
  · simpa [Stay.calls] using times.1
  · simpa [Stay.calls] using times.2

theorem useAccount {pending : List String} {before : List Stay} {stay : Stay} {entry : Entry}
    {rest : List Entry} {found : Option Found}
    (account : Account disks base folders (n + 1)
      ⟨base, pending, some ⟨stay.folder, stay.path base, entry :: rest⟩⟩ (before ++ [stay]))
    (ended : ∀ old ∈ before, old.UsedUp)
    (listing : stay.listed = stay.uses.map Use.entry ++ entry :: rest)
    (given : Gives (disks n) stay.folder (stay.path base) entry found.toList) :
    Account disks base folders (n + 1) ⟨base, pending, some ⟨stay.folder, stay.path base, rest⟩⟩
      (before ++ [stay.use n entry found]) := by
  have times := inTimeSnoc account.inTime account.past
  have calls : (before ++ [stay.use n entry found]).flatMap Stay.calls =
      (before ++ [stay]).flatMap Stay.calls ++ [n] := by
    simp [Stay.useCalls]
  refine ⟨rfl, ?_, ?_, calls ▸ times.1, calls ▸ times.2, ?_⟩
  · simpa [Stay.use] using account.order
  · intro old member
    rcases List.mem_append.mp member with earlier | last
    · exact account.recorded old (List.mem_append_left _ earlier)
    · rw [List.mem_singleton.mp last]
      exact Stay.useRecorded (account.recorded stay (by simp)) listing given
  · have left : (stay.use n entry found).listed =
        (stay.use n entry found).uses.map Use.entry ++ rest := by
      rw [Stay.useListed, listing]
      simp [Stay.use]
    exact .inside ended left

structure Extends (disks : Nat → Disk) (base : Path) (n : Nat) (found : List Found) (events : List Event)
    (ledger later : List Stay) : Prop where
  trace : later.flatMap (Stay.events disks base) = ledger.flatMap (Stay.events disks base) ++ events
  items : later.flatMap (Stay.items base) = ledger.flatMap (Stay.items base) ++ found.map (n, ·)
  attempts : later.map (Stay.attempt base) = ledger.map (Stay.attempt base) ++ (openings events).map (n, ·)

theorem roundAccount {s : Scan} {move : Move} {t : Scan} {ledger : List Stay}
    (account : Account disks base folders (n + 1) s ledger) (round : Round (disks n) s move t) :
    ∃ later, Account disks base folders (n + 1) t later ∧
      Extends disks base n move.found.toList move.events ledger later := by
  have root := account.root
  cases round with
  | @refused top folder pending cause answer =>
    obtain rfl : top = base := root
    have standing := account.standing
    cases standing with
    | outside ended =>
      refine ⟨_, openAccount account answer (.outside ?_), ?_, ?_, ?_⟩
      · intro stay member
        rcases List.mem_append.mp member with old | new
        · exact ended stay old
        · rw [List.mem_singleton.mp new]
          rfl
      · simp [Stay.events, Stay.path, Move.events]
      · simp [Stay.items, Stay.path, Move.found]
      · simp [Stay.attempt, Stay.path, Move.events, openings]
  | @opened top folder pending entries answer =>
    obtain rfl : top = base := root
    have standing := account.standing
    cases standing with
    | outside ended =>
      have inside := @Standing.inside top ledger ⟨n, folder, .ok entries, []⟩ entries ended rfl
      refine ⟨_, openAccount account answer inside, ?_, ?_, ?_⟩
      · simp [Stay.events, Stay.path, Move.events]
      · simp [Stay.items, Move.found]
      · simp [Stay.attempt, Stay.path, Move.events, openings]
  | @used top pending folder path entry rest events found answer =>
    obtain rfl : top = base := root
    have standing := account.standing
    cases standing with
    | @inside before stay rest ended listing =>
      have given := entryGives.mpr (visitItems (disks n) stay.folder (stay.path top) entry)
      have nothing := visitOpensNothing (disks n) stay.folder (stay.path top) entry
      rw [answer] at given nothing
      refine ⟨_, useAccount account ended listing given, ?_, ?_, ?_⟩
      · simp [Stay.useEvents, answer, Move.events]
      · simp [Stay.useItems listing, Move.found]
      · simp [Stay.attempt, Stay.use, Stay.path, Move.events, nothing]
  | @left top pending folder path =>
    obtain rfl : top = base := root
    have standing := account.standing
    cases standing with
    | @inside before stay rest ended listing =>
      refine ⟨_, { account with standing := .outside ?_ }, ?_, ?_, ?_⟩
      · intro old member
        rcases List.mem_append.mp member with earlier | last
        · exact ended old earlier
        · rw [List.mem_singleton.mp last]
          simpa [Stay.UsedUp] using listing.symm
      · simp [Move.events]
      · simp [Move.found]
      · simp [Move.events, openings]

theorem roundsAccount {s : Scan} {moves : List Move} {t : Scan} {ledger : List Stay}
    (account : Account disks base folders (n + 1) s ledger) (rounds : Rounds (disks n) s moves t) :
    ∃ later, Account disks base folders (n + 1) t later ∧
      Extends disks base n (moves.filterMap Move.found) (moves.flatMap Move.events) ledger later := by
  induction rounds generalizing ledger with
  | done s => exact ⟨ledger, account, by simp, by simp, by simp [openings]⟩
  | @step s move t moves u head tail ih =>
    obtain ⟨between, reached, first⟩ := roundAccount account head
    obtain ⟨later, finished, second⟩ := ih reached
    refine ⟨later, finished, ?_, ?_, ?_⟩
    · rw [second.trace, first.trace]
      simp
    · rw [second.items, first.items, List.filterMap_cons]
      cases move.found <;> simp
    · rw [second.attempts, first.attempts]
      simp [openings]

end Calls

def finds (disks : Nat → Disk) (s : Scan) (n : Nat) : List (Nat × Found) :=
  (List.range n).flatMap fun i => (call disks s i).found.toList.map (i, ·)

def tries (disks : Nat → Disk) (s : Scan) (n : Nat) : List (Nat × String × Path) :=
  (List.range n).flatMap fun i => (openings (call disks s i).events).map (i, ·)

def told (disks : Nat → Disk) (s : Scan) (n : Nat) : List Event :=
  (List.range n).flatMap fun i => (call disks s i).events

theorem findsNext (disks : Nat → Disk) (s : Scan) (n : Nat) :
    finds disks s (n + 1) = finds disks s n ++ (call disks s n).found.toList.map (n, ·) := by
  simp [finds, List.range_succ]

theorem triesNext (disks : Nat → Disk) (s : Scan) (n : Nat) :
    tries disks s (n + 1) = tries disks s n ++ (openings (call disks s n).events).map (n, ·) := by
  simp [tries, List.range_succ]

theorem toldNext (disks : Nat → Disk) (s : Scan) (n : Nat) :
    told disks s (n + 1) = told disks s n ++ (call disks s n).events := by
  simp [told, List.range_succ]

theorem runAccount (disks : Nat → Disk) (base : Path) (folders : List String) (n : Nat) :
    ∃ ledger, Account disks base folders n (after disks (start base folders) n) ledger ∧
      ledger.flatMap (Stay.items base) = finds disks (start base folders) n ∧
      ledger.map (Stay.attempt base) = tries disks (start base folders) n ∧
      ledger.flatMap (Stay.events disks base) = told disks (start base folders) n := by
  induction n with
  | zero => exact ⟨[], accountStart disks base folders, rfl, rfl, rfl⟩
  | succ n ih =>
    obtain ⟨ledger, account, items, attempts, trace⟩ := ih
    obtain ⟨moves, performed⟩ := nextPerforms (disks n) (after disks (start base folders) n)
    obtain ⟨later, finished, longer⟩ := roundsAccount (accountLater account) performed.rounds
    refine ⟨later, finished, ?_, ?_, ?_⟩
    · rw [longer.items, items, performed.found, findsNext]
      rfl
    · rw [longer.attempts, attempts, performed.events, triesNext]
      rfl
    · rw [longer.trace, trace, performed.events, toldNext]
      rfl

theorem triesWaiting (disks : Nat → Disk) (s : Scan) (n : Nat) :
    waiting s = (tries disks s n).map (·.2) ++ waiting (after disks s n) := by
  induction n with
  | zero => rfl
  | succ n ih =>
    rw [ih, nextOpenings (disks n) (after disks s n), triesNext]
    simp [call, after, Function.comp_def]

theorem finishedAfter {disks : Nat → Disk} {s : Scan} {n m : Nat} (later : n ≤ m)
    (h : Finished (after disks s n)) : Finished (after disks s m) := by
  induction later with
  | refl => exact h
  | step later ih =>
    rw [after, (finishedFindsNothing ih).2]
    exact ih

def placed (base : Path) (ledger : List Stay) : List (Nat × Nat × Found) :=
  ledger.zipIdx.flatMap fun stay => (stay.1.items base).map (stay.2, ·)

theorem placedItems (base : Path) (ledger : List Stay) :
    (placed base ledger).map (·.2) = ledger.flatMap (Stay.items base) := by
  have stays : ledger.flatMap (Stay.items base) =
      (ledger.zipIdx.map Prod.fst).flatMap (Stay.items base) := by rw [List.zipIdx_map_fst]
  rw [stays, List.flatMap_map]
  simp [placed, List.map_flatMap, Function.comp_def]

theorem placedInOrder (base : Path) (ledger : List Stay) :
    ((placed base ledger).map (·.1)).Pairwise (· ≤ ·) := by
  have places : (ledger.zipIdx.map Prod.snd).Pairwise (· < ·) := by
    rw [List.zipIdx_map_snd]
    exact List.pairwise_lt_range'
  rw [placed, List.map_flatMap, List.pairwise_flatMap]
  refine ⟨?_, ?_⟩
  · intro stay _
    rw [List.map_map, List.pairwise_map]
    exact List.pairwise_of_forall fun _ _ => Nat.le_refl _
  · refine (List.pairwise_map.mp places).imp ?_
    intro a b before x first y second
    simp only [List.map_map, List.mem_map] at first second
    obtain ⟨_, _, rfl⟩ := first
    obtain ⟨_, _, rfl⟩ := second
    exact Nat.le_of_lt before

theorem itemText {disk : Disk} {folder : String} {path : Path} {entry : Entry} {items : List Found}
    {script : Script} (gives : Gives disk folder path entry items) (item : .ok script ∈ items) :
    disk.kind script.path = .ok .file ∧ disk.bytes script.path = .ok (Utf8.encode script.text) := by
  cases gives with
  | read candidate file answer =>
    cases List.mem_singleton.mp item
    exact ⟨file, answer⟩
  | _ => simp at item

/- What the ledger of a run says of the disks and of the calls. -/
structure Kept (disks : Nat → Disk) (base : Path) (folders : List String) (n : Nat)
    (ledger : List Stay) : Prop where
  order : ledger.map Stay.folder <+: folders
  attempts : ledger.map (Stay.attempt base) = tries disks (start base folders) n
  trace : ledger.flatMap (Stay.events disks base) = told disks (start base folders) n
  inTime : (ledger.flatMap Stay.calls).Pairwise (· ≤ ·)
  usedUp : ∀ stay ∈ ledger.dropLast, stay.UsedUp
  recorded : ∀ stay ∈ ledger, stay.Recorded disks base
  refused : ∀ stay ∈ ledger, ∀ cause, stay.opening = .error cause → stay.uses = [] ∧
    stay.items base = [(stay.call, .error (.folder stay.folder (stay.path base) cause))]
  items : (placed base ledger).map (·.2) = finds disks (start base folders) n
  places : ((placed base ledger).map (·.1)).Pairwise (· ≤ ·)

theorem keptLedger (disks : Nat → Disk) (base : Path) (folders : List String) (n : Nat) :
    ∃ ledger, Kept disks base folders n ledger := by
  obtain ⟨ledger, account, items, attempts, trace⟩ := runAccount disks base folders n
  refine ⟨ledger, ⟨⟨_, account.order.symm⟩, attempts, trace, account.inTime,
    standingUsedUp account.standing, account.recorded, ?_, ?_, placedInOrder base ledger⟩⟩
  · intro stay member cause refusal
    have entries := (account.recorded stay member).entries
    simp only [Stay.listed, refusal, List.prefix_nil, List.map_eq_nil_iff] at entries
    exact ⟨entries, by simp [Stay.items, refusal]⟩
  · rw [placedItems, items]

theorem foundText {disks : Nat → Disk} {base : Path} {folders : List String} {n : Nat}
    {script : Script} (h : (call disks (start base folders) n).found = some (.ok script)) :
    (disks n).kind script.path = .ok .file ∧
      (disks n).bytes script.path = .ok (Utf8.encode script.text) := by
  obtain ⟨ledger, account, items, _⟩ := runAccount disks base folders (n + 1)
  have member : (n, .ok script) ∈ finds disks (start base folders) (n + 1) := by
    simp [findsNext, h]
  rw [← items] at member
  obtain ⟨stay, kept, item⟩ := List.mem_flatMap.mp member
  cases opened : stay.opening with
  | error cause => simp [Stay.items, opened] at item
  | ok entries =>
    simp only [Stay.items, opened, List.mem_flatMap, List.mem_map] at item
    obtain ⟨use, used, found, given, same⟩ := item
    cases same
    exact itemText ((account.recorded stay kept).uses use used) given

theorem changingDisk (disks : Nat → Disk) (base : Path) (folders : List String) :
    (∀ n, ∃ ledger, Kept disks base folders n ledger) ∧
    (∀ n script, (call disks (start base folders) n).found = some (.ok script) →
      (disks n).kind script.path = .ok .file ∧
      (disks n).bytes script.path = .ok (Utf8.encode script.text)) ∧
    (∀ n, (call disks (start base folders) n).found = none →
      (tries disks (start base folders) (n + 1)).map (·.2.1) = folders ∧
      ∀ m, n ≤ m → (call disks (start base folders) m).found = none) := by
  refine ⟨keptLedger disks base folders, fun n script => foundText, ?_⟩
  intro n h
  have ended : Finished (after disks (start base folders) (n + 1)) := nextEnds h
  refine ⟨?_, ?_⟩
  · have all := triesWaiting disks (start base folders) (n + 1)
    rw [waitingFinished ended, List.append_nil] at all
    have names := congrArg (List.map Prod.fst) all
    simpa [waiting, start, Function.comp_def] using names.symm
  · intro m later
    rcases Nat.eq_or_lt_of_le later with same | after
    · rw [← same]
      exact h
    · exact (finishedFindsNothing (finishedAfter after ended)).1

end ShellStyle.Scan
