import ShellStyle.Event
import ShellStyle.Failure
import ShellStyle.Script

/-! Finding the files to test, one at a time. A `Scan` holds the folders that are still to open and what is
left of the open folder's listing; `next` asks the disk as it is at that call and gives the next file
or failure. A failure ends neither the folder nor the scan. `turns` calls `next` to the end. -/
namespace ShellStyle

structure Listing where
  folder : String
  path : Path
  entries : List Entry
  deriving DecidableEq, Repr

structure Scan where
  base : Path
  pending : List String
  current : Option Listing
  deriving DecidableEq, Repr

abbrev Found := Except Failure Script

structure Turn where
  events : List Event
  found : Option Found
  rest : Scan

namespace Scan

def start (base : Path) (folders : List String) : Scan := ⟨base, folders, none⟩

/- What one entry gives: nothing unless it is a candidate and no directory or special node. A break in
the listing is a failure of the folder. -/
def visit (disk : Disk) (folder : String) (path : Path) : Entry → List Event × Option Found
  | .broken cause => ([], some (.error (.folder folder path cause)))
  | .name raw =>
    let name := Text.Utf8.decodeLossy raw
    if !Script.isCandidate name then ([], none)
    else match disk.kind (path.join ⟨raw⟩) with
      | .error cause => ([], some (.error (.file folder name cause)))
      | .ok .directory | .ok .special => ([], none)
      | .ok .file =>
        ([.reading folder name],
          some (match disk.text (path.join ⟨raw⟩) with
            | .error cause => .error (.file folder name cause)
            | .ok text => .ok ⟨folder, name, path.join ⟨raw⟩, text⟩))

def firstFound (disk : Disk) (folder : String) (path : Path) :
    List Entry → List Event × Option (Found × List Entry)
  | [] => ([], none)
  | entry :: rest =>
    match visit disk folder path entry with
    | (events, some found) => (events, some (found, rest))
    | (events, none) =>
      let later := firstFound disk folder path rest
      (events ++ later.1, later.2)

def openNext (disk : Disk) (base : Path) : List String → Turn
  | [] => ⟨[], none, ⟨base, [], none⟩⟩
  | folder :: pending =>
    let path := base.join (Path.ofString folder)
    match disk.entries path with
    | .error cause =>
      ⟨[.scanning folder path], some (.error (.folder folder path cause)), ⟨base, pending, none⟩⟩
    | .ok entries =>
      match firstFound disk folder path entries with
      | (events, some (found, rest)) =>
        ⟨.scanning folder path :: events, some found, ⟨base, pending, some ⟨folder, path, rest⟩⟩⟩
      | (events, none) =>
        let later := openNext disk base pending
        ⟨.scanning folder path :: events ++ later.events, later.found, later.rest⟩

def next (disk : Disk) (s : Scan) : Turn :=
  match s.current with
  | none => openNext disk s.base s.pending
  | some ⟨folder, path, entries⟩ =>
    match firstFound disk folder path entries with
    | (events, some (found, rest)) =>
      ⟨events, some found, { s with current := some ⟨folder, path, rest⟩ }⟩
    | (events, none) =>
      let later := openNext disk s.base s.pending
      ⟨events ++ later.events, later.found, later.rest⟩

def left (s : Scan) : Nat :=
  match s.current with
  | none => 0
  | some listing => listing.entries.length + 1

theorem firstFoundShorter {disk : Disk} {folder : String} {path : Path} {entries : List Entry}
    {events : List Event} {found : Found} {rest : List Entry}
    (h : firstFound disk folder path entries = (events, some (found, rest))) :
    rest.length < entries.length := by
  induction entries generalizing events with
  | nil => simp [firstFound] at h
  | cons entry more ih =>
    rw [firstFound] at h
    split at h
    · cases h
      exact Nat.lt_succ_self _
    · have hrest : firstFound disk folder path more =
          ((firstFound disk folder path more).1, some (found, rest)) := by
        rw [← (Prod.mk.inj h).2]
      exact Nat.lt_succ_of_lt (ih hrest)

theorem openNextPending {disk : Disk} {base : Path} {pending : List String} {found : Found}
    (h : (openNext disk base pending).found = some found) :
    (openNext disk base pending).rest.pending.length < pending.length := by
  induction pending with
  | nil => simp [openNext] at h
  | cons folder more ih =>
    cases hopen : disk.entries (base.join (Path.ofString folder)) with
    | error cause =>
      simp only [openNext, hopen]
      exact Nat.lt_succ_self _
    | ok entries =>
      simp only [openNext, hopen] at h ⊢
      split
      · exact Nat.lt_succ_self _
      · rename_i hfirst
        simp only [hfirst] at h
        exact Nat.lt_succ_of_lt (ih h)

theorem nextDecreases {disk : Disk} {s : Scan} {found : Found} (h : (s.next disk).found = some found) :
    Prod.Lex (· < ·) (· < ·) ((s.next disk).rest.pending.length, (s.next disk).rest.left)
      (s.pending.length, s.left) := by
  unfold next at h ⊢
  split at h
  · exact Prod.Lex.left _ _ (openNextPending h)
  · rename_i folder path entries hcur
    dsimp only at h ⊢
    split at h
    · rename_i events found' rest hfirst
      have := firstFoundShorter hfirst
      refine Prod.Lex.right _ ?_
      simp [left, hcur, this]
    · exact Prod.Lex.left _ _ (openNextPending h)

def turns (disk : Disk) (s : Scan) : List Turn :=
  match _h : (s.next disk).found with
  | none => [s.next disk]
  | some _ => s.next disk :: turns disk (s.next disk).rest
termination_by (s.pending.length, s.left)
decreasing_by exact nextDecreases _h

theorem turnsUnfold (disk : Disk) (s : Scan) :
    s.turns disk = s.next disk ::
      (match (s.next disk).found with | none => [] | some _ => (s.next disk).rest.turns disk) := by
  rw [turns]
  split <;> rename_i h <;> simp [h]

def all (disk : Disk) (base : Path) (folders : List String) : List Found :=
  ((start base folders).turns disk).filterMap (·.found)

end Scan

end ShellStyle
