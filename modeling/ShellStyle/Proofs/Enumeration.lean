import ShellStyle.Proofs.Encoded
import ShellStyle.Proofs.Rounds

/-! What an unchanging disk holds for a list of folders, said folder by folder and entry by entry without
a scan, and that a scan finds exactly this. What is left to find is a function of the state, and every
call takes its first element away. -/
namespace ShellStyle
open Text

theorem Disk.textEncoded {disk : Disk} {p : Path} {text : String} :
    disk.text p = .ok text ↔ disk.bytes p = .ok (Utf8.encode text) := by
  rw [textIff]
  constructor
  · intro holds
    obtain ⟨bytes, read, decoded⟩ := holds
    rw [read, Utf8.decodeIff.mp decoded]
  · intro read
    exact ⟨_, read, Utf8.decodeEncode text⟩

namespace Scan

inductive Gives (disk : Disk) (folder : String) (path : Path) : Entry → List Found → Prop where
  | broken {cause : Cause} : Gives disk folder path (.broken cause) [.error (.folder folder path cause)]
  | passed {raw : Name} (other : Script.isCandidate (Utf8.decodeLossy raw) = false) :
      Gives disk folder path (.name raw) []
  | unresolved {raw : Name} {cause : Cause} (candidate : Script.isCandidate (Utf8.decodeLossy raw) = true)
      (answer : disk.kind (path.join ⟨raw⟩) = .error cause) :
      Gives disk folder path (.name raw) [.error (.file folder (Utf8.decodeLossy raw) cause)]
  | irregular {raw : Name} {kind : Kind} (candidate : Script.isCandidate (Utf8.decodeLossy raw) = true)
      (answer : disk.kind (path.join ⟨raw⟩) = .ok kind) (other : kind ≠ .file) :
      Gives disk folder path (.name raw) []
  | unread {raw : Name} {cause : Cause} (candidate : Script.isCandidate (Utf8.decodeLossy raw) = true)
      (file : disk.kind (path.join ⟨raw⟩) = .ok .file) (answer : disk.bytes (path.join ⟨raw⟩) = .error cause) :
      Gives disk folder path (.name raw) [.error (.file folder (Utf8.decodeLossy raw) cause)]
  | noText {raw : Name} {bytes : List UInt8} (candidate : Script.isCandidate (Utf8.decodeLossy raw) = true)
      (file : disk.kind (path.join ⟨raw⟩) = .ok .file) (answer : disk.bytes (path.join ⟨raw⟩) = .ok bytes)
      (invalid : ¬ Utf8.Valid bytes) :
      Gives disk folder path (.name raw) [.error (.file folder (Utf8.decodeLossy raw) .notText)]
  | read {raw : Name} {text : String} (candidate : Script.isCandidate (Utf8.decodeLossy raw) = true)
      (file : disk.kind (path.join ⟨raw⟩) = .ok .file)
      (answer : disk.bytes (path.join ⟨raw⟩) = .ok (Utf8.encode text)) :
      Gives disk folder path (.name raw) [.ok ⟨folder, Utf8.decodeLossy raw, path.join ⟨raw⟩, text⟩]

def entryItems (disk : Disk) (folder : String) (path : Path) : Entry → List Found
  | .broken cause => [.error (.folder folder path cause)]
  | .name raw =>
    let name := Utf8.decodeLossy raw
    if Script.isCandidate name then
      match disk.kind (path.join ⟨raw⟩) with
      | .error cause => [.error (.file folder name cause)]
      | .ok .file =>
        match disk.bytes (path.join ⟨raw⟩) with
        | .error cause => [.error (.file folder name cause)]
        | .ok bytes =>
          match Utf8.decode? bytes with
          | none => [.error (.file folder name .notText)]
          | some text => [.ok ⟨folder, name, path.join ⟨raw⟩, text⟩]
      | .ok _ => []
    else []

def folderItems (disk : Disk) (base : Path) (folder : String) : List Found :=
  match disk.entries (base.join (Path.ofString folder)) with
  | .error cause => [.error (.folder folder (base.join (Path.ofString folder)) cause)]
  | .ok entries => entries.flatMap (entryItems disk folder (base.join (Path.ofString folder)))

theorem entryGives {disk : Disk} {folder : String} {path : Path} {entry : Entry} {items : List Found} :
    Gives disk folder path entry items ↔ items = entryItems disk folder path entry := by
  constructor
  · intro gives
    cases gives with
    | broken => rfl
    | passed other => simp [entryItems, other]
    | unresolved candidate answer => simp [entryItems, candidate, answer]
    | @irregular raw kind candidate answer other => cases kind <;> simp_all [entryItems]
    | unread candidate file answer => simp [entryItems, candidate, file, answer]
    | noText candidate file answer invalid =>
      simp [entryItems, candidate, file, answer, Utf8.decodeNone.mpr invalid]
    | read candidate file answer => simp [entryItems, candidate, file, answer, Utf8.decodeEncode]
  · rintro rfl
    cases entry with
    | broken cause => exact .broken
    | name raw =>
      simp only [entryItems]
      cases candidate : Script.isCandidate (Utf8.decodeLossy raw) with
      | false => exact .passed candidate
      | true =>
        cases answer : disk.kind (path.join ⟨raw⟩) with
        | error cause => exact .unresolved candidate answer
        | ok kind =>
          cases kind with
          | directory => exact .irregular candidate answer (by decide)
          | special => exact .irregular candidate answer (by decide)
          | file =>
            cases stored : disk.bytes (path.join ⟨raw⟩) with
            | error cause => exact .unread candidate answer stored
            | ok bytes =>
              cases decoded : Utf8.decode? bytes with
              | none => simpa [decoded] using Gives.noText candidate answer stored (Utf8.decodeNone.mp decoded)
              | some text =>
                cases Utf8.decodeIff.mp decoded
                simpa [decoded] using Gives.read candidate answer stored

theorem visitItems (disk : Disk) (folder : String) (path : Path) (entry : Entry) :
    (visit disk folder path entry).2.toList = entryItems disk folder path entry := by
  cases entry with
  | broken cause => rfl
  | name raw =>
    simp only [visit, entryItems, Disk.text]
    cases Script.isCandidate (Utf8.decodeLossy raw) with
    | false => rfl
    | true =>
      cases disk.kind (path.join ⟨raw⟩) with
      | error cause => rfl
      | ok kind =>
        cases kind with
        | directory => rfl
        | special => rfl
        | file =>
          cases disk.bytes (path.join ⟨raw⟩) with
          | error cause => rfl
          | ok bytes =>
            cases h : Utf8.decode? bytes <;> simp [h]

def remaining (disk : Disk) (s : Scan) : List Found :=
  (match s.current with
    | none => []
    | some listing => listing.entries.flatMap (entryItems disk listing.folder listing.path))
    ++ s.pending.flatMap (folderItems disk s.base)

theorem remainingFinished {disk s} (h : Finished s) : remaining disk s = [] := by
  simp [remaining, h.1, h.2]

theorem roundRemaining {disk s move t} (round : Round disk s move t) :
    remaining disk s = move.found.toList ++ remaining disk t := by
  cases round with
  | refused answer => simp [remaining, folderItems, answer, Move.found]
  | opened answer => simp [remaining, folderItems, answer, Move.found]
  | @used base pending folder path entry rest events found answer =>
    have given := visitItems disk folder path entry
    rw [answer] at given
    simp [remaining, Move.found, ← given]
  | left => simp [remaining, Move.found]

theorem roundsRemaining {disk s moves t} (rounds : Rounds disk s moves t) :
    remaining disk s = moves.filterMap Move.found ++ remaining disk t := by
  induction rounds with
  | done s => rfl
  | @step s move t moves u head tail ih =>
    rw [roundRemaining head, ih, List.filterMap_cons]
    cases move.found <;> rfl

theorem nextRemaining (disk : Disk) (s : Scan) :
    remaining disk s = (s.next disk).found.toList ++ remaining disk (s.next disk).rest := by
  obtain ⟨moves, performed⟩ := nextPerforms disk s
  rw [← performed.found]
  exact roundsRemaining performed.rounds

theorem nothingRemains {disk : Disk} {s : Scan} (h : (s.next disk).found = none) :
    remaining disk s = [] ∧ remaining disk (s.next disk).rest = [] := by
  have ended : remaining disk (s.next disk).rest = [] := remainingFinished (nextEnds h)
  refine ⟨?_, ended⟩
  rw [nextRemaining, h, ended]
  rfl

theorem firstRemains {disk : Disk} {s : Scan} {found : Found} (h : (s.next disk).found = some found) :
    remaining disk s = found :: remaining disk (s.next disk).rest := by
  rw [nextRemaining, h]
  rfl

theorem turnsRemaining (disk : Disk) (s : Scan) :
    (s.turns disk).filterMap (·.found) = remaining disk s := by
  generalize left : remaining disk s = items
  induction items generalizing s with
  | nil =>
    cases h : (s.next disk).found with
    | none => simp [turnsUnfold, h]
    | some found => simp [firstRemains h] at left
  | cons item rest ih =>
    cases h : (s.next disk).found with
    | none => simp [(nothingRemains h).1] at left
    | some found =>
      rw [firstRemains h] at left
      obtain ⟨rfl, later⟩ := List.cons.inj left
      simp [turnsUnfold disk s, h, ih _ later]

theorem callRemaining (disk : Disk) (s : Scan) (n : Nat) :
    (call (fun _ => disk) s n).found = (remaining disk s)[n]? := by
  induction n generalizing s with
  | zero =>
    cases h : (s.next disk).found with
    | none => simpa [call, after, (nothingRemains h).1] using h
    | some found => simpa [call, after, firstRemains h] using h
  | succ n ih =>
    rw [callFirst, ih]
    cases h : (s.next disk).found with
    | none => simp [nothingRemains h]
    | some found => simp [firstRemains h]

theorem remainingStart (disk : Disk) (base : Path) (folders : List String) :
    remaining disk (start base folders) = folders.flatMap (folderItems disk base) := rfl

theorem allItems (disk : Disk) (base : Path) (folders : List String) :
    all disk base folders = folders.flatMap (folderItems disk base) :=
  (turnsRemaining disk _).trans (remainingStart disk base folders)

/- The calls give the items one by one and then nothing for ever, and listings are asked of the folders'
own paths alone, so no directory below them is entered. -/
theorem enumerationExact (disk : Disk) (base : Path) (folders : List String) :
    (∀ n, (call (fun _ => disk) (start base folders) n).found =
      (folders.flatMap (folderItems disk base))[n]?) ∧
    all disk base folders = folders.flatMap (folderItems disk base) ∧
    openings (((start base folders).turns disk).flatMap (·.events)) =
      folders.map (fun folder => (folder, base.join (Path.ofString folder))) ∧
    ∀ folder path entry items,
      Gives disk folder path entry items ↔ items = entryItems disk folder path entry := by
  refine ⟨?_, allItems disk base folders, turnsOpenings disk (start base folders),
    fun _ _ _ _ => entryGives⟩
  intro n
  rw [← remainingStart]
  exact callRemaining disk (start base folders) n

end Scan

end ShellStyle
