import ShellStyle.Proofs.Counts
import ShellStyle.Proofs.Verdict

/-! The log of a run beside its report. What there is to do for a list of folders is read off the disk: every
folder is opened, then every entry of its listing is looked at. A run takes these steps in order up to
the first that fails, and its events are what each step taken tells, so the counts in the log are counts
of steps and agree with the report. -/
namespace ShellStyle
open Text

def Entry.file? (disk : Disk) (path : Path) : Entry → Option String
  | .broken _ => none
  | .name raw =>
    if Script.isCandidate (Utf8.decodeLossy raw) = true ∧ disk.kind (path.join ⟨raw⟩) = .ok .file then
      some (Utf8.decodeLossy raw)
    else none

inductive Step where
  | opening (folder : String) (path : Path)
  | entry (folder : String) (path : Path) (entry : Entry)

namespace Step

def opening? : Step → Option (String × Path)
  | opening folder path => some (folder, path)
  | entry .. => none

def file? (disk : Disk) : Step → Option (String × String)
  | opening .. => none
  | entry folder path e => (e.file? disk path).map fun name => (folder, name)

def items (disk : Disk) : Step → List Found
  | opening folder path =>
    match disk.entries path with
    | .error cause => [.error (.folder folder path cause)]
    | .ok _ => []
  | entry folder path e => Scan.entryItems disk folder path e

def fails (disk : Disk) (step : Step) : Bool :=
  (step.items disk).any fun
    | .error _ => true
    | .ok _ => false

/- What the scan tells of a step, before the file it may have found is checked. -/
def looks (disk : Disk) (step : Step) : List Event :=
  step.opening?.toList.map (fun folder => .scanning folder.1 folder.2)
    ++ (step.file? disk).toList.map fun file => .reading file.1 file.2

def told (disk : Disk) (step : Step) : List Event :=
  step.looks disk
    ++ (Script.among (step.items disk)).map fun script => .checked script.folder script.name script.failed

def taken (disk : Disk) : List Step → List Step
  | [] => []
  | step :: rest => if step.fails disk then [step] else step :: taken disk rest

variable {disk : Disk} {step : Step} {before : List Step}

theorem takenQuiet (quiet : ∀ step ∈ before, step.items disk = []) (rest : List Step) :
    taken disk (before ++ rest) = before ++ taken disk rest := by
  induction before with
  | nil => rfl
  | cons step more ih =>
    have passes : step.fails disk = false := by simp [fails, quiet step List.mem_cons_self]
    simp [taken, passes, ih fun other member => quiet other (List.mem_cons_of_mem _ member)]

theorem toldQuiet (quiet : ∀ step ∈ before, step.items disk = []) :
    before.flatMap (told disk) = before.flatMap (looks disk) := by
  refine List.flatMap_congr fun step member => ?_
  simp [told, quiet step member, Script.among]

theorem takenScript {script : Script} (quiet : ∀ step ∈ before, step.items disk = [])
    (one : step.items disk = [.ok script]) (rest : List Step) :
    (taken disk (before ++ [step] ++ rest)).flatMap (told disk) =
      (before ++ [step]).flatMap (looks disk) ++
        .checked script.folder script.name script.failed :: (taken disk rest).flatMap (told disk) := by
  have passes : step.fails disk = false := by simp [fails, one]
  rw [List.append_assoc, takenQuiet quiet, List.flatMap_append, toldQuiet quiet]
  simp [taken, passes, told, one, Script.among, Except.toOption]

theorem takenFailure {failure : Failure} (quiet : ∀ step ∈ before, step.items disk = [])
    (one : step.items disk = [.error failure]) (rest : List Step) :
    (taken disk (before ++ [step] ++ rest)).flatMap (told disk) =
      (before ++ [step]).flatMap (looks disk) := by
  have fails : step.fails disk = true := by simp [fails, one]
  rw [List.append_assoc, takenQuiet quiet, List.flatMap_append, toldQuiet quiet]
  simp [taken, fails, told, one, Script.among, Except.toOption]

end Step

namespace Scan

variable {disk : Disk}

def folderSteps (disk : Disk) (base : Path) (folder : String) : List Step :=
  .opening folder (base.join (Path.ofString folder)) ::
    match disk.entries (base.join (Path.ofString folder)) with
    | .error _ => []
    | .ok entries => entries.map (.entry folder (base.join (Path.ofString folder)))

def stepsLeft (disk : Disk) (s : Scan) : List Step :=
  (match s.current with
    | none => []
    | some listing => listing.entries.map (.entry listing.folder listing.path))
    ++ s.pending.flatMap (folderSteps disk s.base)

theorem folderStepsItems (disk : Disk) (base : Path) (folder : String) :
    (folderSteps disk base folder).flatMap (Step.items disk) = folderItems disk base folder := by
  rw [folderSteps, folderItems, List.flatMap_cons]
  cases answer : disk.entries (base.join (Path.ofString folder)) with
  | error cause => simp [Step.items, answer]
  | ok entries => simp [Step.items, answer, List.flatMap_map]

theorem visitEvents (disk : Disk) (folder : String) (path : Path) (entry : Entry) :
    (visit disk folder path entry).1 = (Step.entry folder path entry).looks disk := by
  cases entry with
  | broken cause => rfl
  | name raw =>
    simp only [visit, Step.looks, Step.opening?, Step.file?, Entry.file?]
    cases Script.isCandidate (Utf8.decodeLossy raw) with
    | false => rfl
    | true =>
      cases disk.kind (path.join ⟨raw⟩) with
      | error cause => rfl
      | ok kind => cases kind <;> rfl

theorem roundStep {s move t} (round : Round disk s move t) :
    ∃ step : Option Step, stepsLeft disk s = step.toList ++ stepsLeft disk t ∧
      step.toList.flatMap (Step.looks disk) = move.events ∧
      step.toList.flatMap (Step.items disk) = move.found.toList := by
  cases round with
  | @refused base folder pending cause answer =>
    refine ⟨some (.opening folder (base.join (Path.ofString folder))), ?_, rfl, ?_⟩
    · simp [stepsLeft, folderSteps, answer]
    · simp [Step.items, answer, Move.found]
  | @opened base folder pending entries answer =>
    refine ⟨some (.opening folder (base.join (Path.ofString folder))), ?_, rfl, ?_⟩
    · simp [stepsLeft, folderSteps, answer]
    · simp [Step.items, answer, Move.found]
  | @used base pending folder path entry rest events found answer =>
    have told := visitEvents disk folder path entry
    have given := visitItems disk folder path entry
    rw [answer] at told given
    refine ⟨some (.entry folder path entry), rfl, ?_, ?_⟩
    · simp [Move.events, ← told]
    · simp [Move.found, given, Step.items]
  | left => exact ⟨none, rfl, rfl, rfl⟩

theorem roundsSteps {s moves t} (rounds : Rounds disk s moves t)
    (first : ∀ move ∈ moves.dropLast, move.found = none) :
    ∃ (before : List Step) (last : Option Step),
      stepsLeft disk s = before ++ last.toList ++ stepsLeft disk t ∧
      (before ++ last.toList).flatMap (Step.looks disk) = moves.flatMap Move.events ∧
      (∀ step ∈ before, step.items disk = []) ∧
      last.toList.flatMap (Step.items disk) = moves.filterMap Move.found := by
  induction rounds with
  | done s => exact ⟨[], none, rfl, rfl, by simp, rfl⟩
  | @step s move t moves u head tail ih =>
    obtain ⟨step, left, looks, items⟩ := roundStep head
    cases moves with
    | nil =>
      cases tail
      refine ⟨[], step, left, by simpa using looks, by simp, ?_⟩
      rw [items]
      cases h : move.found <;> simp [h]
    | cons next more =>
      rw [List.dropLast_cons_cons, List.forall_mem_cons] at first
      obtain ⟨quiet, others⟩ := first
      obtain ⟨before, last, later, looked, silent, found⟩ := ih others
      rw [quiet] at items
      refine ⟨step.toList ++ before, last, ?_, ?_, ?_, ?_⟩
      · simp only [left, later, List.append_assoc]
      · rw [List.append_assoc, List.flatMap_append, looks, looked]
        rfl
      · intro old member
        rcases List.mem_append.mp member with here | there
        · exact List.flatMap_eq_nil_iff.mp items old here
        · exact silent old there
      · rw [found, List.filterMap_cons_none quiet]

theorem nextSteps (disk : Disk) (s : Scan) : ∃ (before : List Step) (last : Option Step),
    stepsLeft disk s = before ++ last.toList ++ stepsLeft disk (s.next disk).rest ∧
    (before ++ last.toList).flatMap (Step.looks disk) = (s.next disk).events ∧
    (∀ step ∈ before, step.items disk = []) ∧
    last.toList.flatMap (Step.items disk) = (s.next disk).found.toList := by
  obtain ⟨moves, performed⟩ := nextPerforms disk s
  rw [← performed.events, ← performed.found]
  exact roundsSteps performed.rounds performed.first

theorem stepsFinished {s : Scan} (h : Finished s) : stepsLeft disk s = [] := by
  simp [stepsLeft, h.1, h.2]

end Scan

namespace Report

def closingEvents : Except Failure Report → List Event
  | .error _ => []
  | .ok r => [r.finished]

theorem gatherTold (disk : Disk) (s : Scan) (r : Report) : (gather (s.turns disk) r).1 =
    (Step.taken disk (s.stepsLeft disk)).flatMap (Step.told disk) ++
      closingEvents (gather (s.turns disk) r).2 := by
  fun_induction Scan.turns disk s generalizing r with
  | case1 s h =>
    obtain ⟨before, last, steps, events, quiet, found⟩ := Scan.nextSteps disk s
    rw [Scan.stepsFinished (Scan.nextEnds h), List.append_nil] at steps
    rw [h] at found
    have all : ∀ step ∈ before ++ last.toList, step.items disk = [] := by
      intro step member
      rcases List.mem_append.mp member with early | late
      · exact quiet step early
      · exact List.flatMap_eq_nil_iff.mp found step late
    have taken := Step.takenQuiet all []
    simp only [List.append_nil, Step.taken] at taken
    rw [steps, taken, Step.toldQuiet all, events]
    simp [gather, h, closingEvents]
  | case2 s item h ih =>
    obtain ⟨before, last, steps, events, quiet, found⟩ := Scan.nextSteps disk s
    rw [h] at found
    cases last with
    | none => simp at found
    | some step =>
      have one : step.items disk = [item] := by simpa using found
      rw [steps]
      cases item with
      | error failure =>
        rw [Option.toList_some, Step.takenFailure quiet one]
        simpa [gather, h, closingEvents] using events.symm
      | ok script =>
        rw [Option.toList_some, Step.takenScript quiet one]
        rw [Option.toList_some] at events
        simp [gather, h, ih, events]

end Report

end ShellStyle
