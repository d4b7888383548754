import ShellStyle.Proofs.Trace

/-! What the events of a run say about it. A file's verdicts are told right behind its reading, the numbers of
the last event are the counts and the sum of the events before it, and only a run with a report has that
event. -/
namespace ShellStyle
open Text

namespace Event

def readings (events : List Event) : List (String × String) :=
  events.filterMap fun
    | .reading folder file => some (folder, file)
    | _ => none

def checks (events : List Event) : List (String × String × Nat) :=
  events.filterMap fun
    | .checked folder file failed => some (folder, file, failed)
    | _ => none

def finishes (events : List Event) : List (Nat × Nat) :=
  events.filterMap fun
    | .finished files failures => some (files, failures)
    | _ => none

/- Of two neighbours the second is the check of a file exactly if the first is its reading. -/
def Follows (a b : Event) : Prop :=
  ∀ folder file, (∃ failed, b = .checked folder file failed) ↔ a = .reading folder file

def IsReading (e : Event) : Prop := ∃ folder file, e = .reading folder file

def IsCheck (e : Event) : Prop := ∃ folder file failed, e = .checked folder file failed

theorem followsCalm {a b : Event} (calm : ¬ a.IsReading) (other : ¬ b.IsCheck) : Follows a b := by
  intro folder file
  constructor
  · intro check
    obtain ⟨failed, same⟩ := check
    exact absurd ⟨folder, file, failed, same⟩ other
  · intro reading
    exact absurd ⟨folder, file, reading⟩ calm

theorem followsRead (folder file : String) (failed : Nat) :
    Follows (.reading folder file) (.checked folder file failed) := by
  intro other name
  simp

theorem lastBehind {a b : Event} {events : List Event} (other : a ≠ b)
    (last : (a :: events).getLast? = some b) : events.getLast? = some b := by
  cases events with
  | nil => exact absurd (Option.some.inj last) other
  | cons next more => rwa [List.getLast?_cons_cons] at last

end Event

namespace Step

variable {disk : Disk}

inductive Tells : List Found → List Event → Prop where
  | passed : Tells [] []
  | opened {folder path} : Tells [] [.scanning folder path]
  | refused {folder path failure} : Tells [.error failure] [.scanning folder path]
  | unreached {failure} : Tells [.error failure] []
  | unread {folder file cause} : Tells [.error (.file folder file cause)] [.reading folder file]
  | read {script} : Tells [.ok script]
      [.reading script.folder script.name, .checked script.folder script.name script.failed]

theorem stepTells (disk : Disk) (step : Step) : Tells (step.items disk) (step.told disk) := by
  cases step with
  | opening folder path =>
    simp only [told, looks, items, opening?, file?]
    cases disk.entries path with
    | error cause => exact .refused
    | ok entries => exact .opened
  | entry folder path e =>
    simp only [told, looks, items, opening?, file?]
    cases e with
    | broken cause => exact .unreached
    | name raw =>
      simp only [Scan.entryItems, Entry.file?]
      cases Script.isCandidate (Utf8.decodeLossy raw) with
      | false => exact .passed
      | true =>
        cases disk.kind (path.join ⟨raw⟩) with
        | error cause => exact .unreached
        | ok kind =>
          cases kind with
          | directory => exact .passed
          | special => exact .passed
          | file =>
            cases disk.bytes (path.join ⟨raw⟩) with
            | error cause => exact .unread
            | ok bytes =>
              simp only
              cases Utf8.decode? bytes with
              | none => exact .unread
              | some text => exact .read

def trace (disk : Disk) (steps : List Step) (outcome : Except Failure Report) : List Event :=
  (taken disk steps).flatMap (told disk) ++ Report.closingEvents outcome

def outcome (disk : Disk) (steps : List Step) (r : Report) : Except Failure Report :=
  Report.collect (steps.flatMap (items disk)) r

inductive Head (disk : Disk) (rest : List Step) (r : Report) : Except Failure Report → List Event → Prop where
  | passed : Head disk rest r (outcome disk rest r) (trace disk rest (outcome disk rest r))
  | opened {folder path} : Head disk rest r (outcome disk rest r)
      (.scanning folder path :: trace disk rest (outcome disk rest r))
  | refused {folder path failure} : Head disk rest r (.error failure) [.scanning folder path]
  | unreached {failure} : Head disk rest r (.error failure) []
  | unread {folder file cause} :
      Head disk rest r (.error (.file folder file cause)) [.reading folder file]
  | read {script} : Head disk rest r (outcome disk rest (r.add script))
      (.reading script.folder script.name :: .checked script.folder script.name script.failed ::
        trace disk rest (outcome disk rest (r.add script)))

theorem traceHead (disk : Disk) (step : Step) (rest : List Step) (r : Report) :
    Head disk rest r (outcome disk (step :: rest) r)
      (trace disk (step :: rest) (outcome disk (step :: rest) r)) := by
  have tells := stepTells disk step
  have found : outcome disk (step :: rest) r =
      Report.collect (step.items disk ++ rest.flatMap (items disk)) r := rfl
  have events : ∀ given, trace disk (step :: rest) given =
      (if step.fails disk then step.told disk
        else step.told disk ++ (taken disk rest).flatMap (told disk)) ++ Report.closingEvents given := by
    intro given
    rw [trace, taken]
    split <;> simp
  rw [events, found, fails]
  generalize step.items disk = items at tells
  generalize step.told disk = told at tells
  cases tells with
  | passed => exact .passed
  | opened => exact .opened
  | refused => exact .refused
  | unreached => exact .unreached
  | unread => exact .unread
  | read => exact .read

theorem traceNil (disk : Disk) (r : Report) : trace disk [] (outcome disk [] r) = [r.finished] := rfl

theorem tracePaired (steps : List Step) (r : Report) (before : Event) (calm : ¬ before.IsReading) :
    List.IsChain Event.Follows (before :: trace disk steps (outcome disk steps r)) := by
  induction steps generalizing r before with
  | nil =>
    rw [traceNil, List.isChain_cons_cons]
    exact ⟨Event.followsCalm calm (by simp [Event.IsCheck, Report.finished]), List.isChain_singleton _⟩
  | cons step rest ih =>
    have head := traceHead disk step rest r
    generalize outcome disk (step :: rest) r = given at head ⊢
    generalize trace disk (step :: rest) given = events at head ⊢
    cases head with
    | passed => exact ih r before calm
    | opened =>
      rw [List.isChain_cons_cons]
      exact ⟨Event.followsCalm calm (by simp [Event.IsCheck]), ih r _ (by simp [Event.IsReading])⟩
    | refused =>
      rw [List.isChain_cons_cons]
      exact ⟨Event.followsCalm calm (by simp [Event.IsCheck]), List.isChain_singleton _⟩
    | unreached => exact List.isChain_singleton _
    | unread =>
      rw [List.isChain_cons_cons]
      exact ⟨Event.followsCalm calm (by simp [Event.IsCheck]), List.isChain_singleton _⟩
    | @read script =>
      rw [List.isChain_cons_cons, List.isChain_cons_cons]
      exact ⟨Event.followsCalm calm (by simp [Event.IsCheck]), Event.followsRead _ _ _,
        ih (r.add script) _ (by simp [Event.IsReading])⟩

theorem traceUnread {steps : List Step} {r : Report} {folder file : String}
    (last : (trace disk steps (outcome disk steps r)).getLast? = some (.reading folder file)) :
    ∃ cause, outcome disk steps r = .error (.file folder file cause) := by
  induction steps generalizing r with
  | nil => simp [traceNil, Report.finished] at last
  | cons step rest ih =>
    have head := traceHead disk step rest r
    generalize outcome disk (step :: rest) r = given at head last ⊢
    generalize trace disk (step :: rest) given = events at head last
    cases head with
    | passed => exact ih last
    | opened => exact ih (Event.lastBehind (by simp) last)
    | refused => simp at last
    | unreached => simp at last
    | unread =>
      simp only [List.getLast?_singleton, Option.some.injEq, Event.reading.injEq] at last
      exact ⟨_, by rw [last.1, last.2]⟩
    | read =>
      rw [List.getLast?_cons_cons] at last
      exact ih (Event.lastBehind (by simp) last)

theorem traceCounts {steps : List Step} {r whole : Report} (ends : outcome disk steps r = .ok whole) :
    whole.files = r.files + (Event.checks (trace disk steps (.ok whole))).length ∧
    whole.failures.length =
      r.failures.length + ((Event.checks (trace disk steps (.ok whole))).map (·.2.2)).sum := by
  rw [← ends]
  induction steps generalizing r with
  | nil =>
    cases ends
    exact ⟨rfl, rfl⟩
  | cons step rest ih =>
    have head := traceHead disk step rest r
    generalize outcome disk (step :: rest) r = given at head ends ⊢
    generalize trace disk (step :: rest) given = events at head ⊢
    cases head with
    | passed => exact ih ends
    | opened => exact ih ends
    | refused => cases ends
    | unreached => cases ends
    | unread => cases ends
    | @read script =>
      obtain ⟨files, failures⟩ := ih ends
      have one : Event.checks (.reading script.folder script.name ::
          .checked script.folder script.name script.failed ::
          trace disk rest (outcome disk rest (r.add script))) =
          (script.folder, script.name, script.failed) ::
            Event.checks (trace disk rest (outcome disk rest (r.add script))) := rfl
      have more : (r.add script).failures.length = r.failures.length + script.failed := by
        simp [Report.failures, Report.add, Script.failed]
      rw [one, files, failures, more]
      simp [Report.add, Nat.add_assoc, Nat.add_comm 1]

theorem tracePicked {α : Type} (pick : Event → Option α) (steps : List Step)
    (given : Except Failure Report) : (trace disk steps given).filterMap pick =
      (taken disk steps).flatMap (fun step => (step.told disk).filterMap pick)
        ++ (Report.closingEvents given).filterMap pick := by
  rw [trace, List.filterMap_append, List.filterMap_flatMap]

theorem traceOpenings (disk : Disk) (steps : List Step) (given : Except Failure Report) :
    Scan.openings (trace disk steps given) = (taken disk steps).filterMap opening? := by
  rw [Scan.openings, tracePicked, List.filterMap_eq_flatMap_toList opening?]
  cases given <;> simp [Report.closingEvents, Report.finished, told, looks, List.filterMap_map]

theorem traceReadings (disk : Disk) (steps : List Step) (given : Except Failure Report) :
    Event.readings (trace disk steps given) = (taken disk steps).filterMap (file? disk) := by
  rw [Event.readings, tracePicked, List.filterMap_eq_flatMap_toList (file? disk)]
  cases given <;> simp [Report.closingEvents, Report.finished, told, looks, List.filterMap_map]

theorem traceChecks (disk : Disk) (steps : List Step) (given : Except Failure Report) :
    Event.checks (trace disk steps given) = (Script.among ((taken disk steps).flatMap (items disk))).map
      fun script => (script.folder, script.name, script.failed) := by
  rw [Event.checks, tracePicked, Script.among, List.filterMap_flatMap, List.map_flatMap]
  cases given <;>
    simp [Report.closingEvents, Report.finished, told, looks, List.filterMap_map, Script.among]

theorem traceFinishes (disk : Disk) (steps : List Step) (given : Except Failure Report) :
    Event.finishes (trace disk steps given) = Event.finishes (Report.closingEvents given) := by
  rw [Event.finishes, tracePicked]
  simp [Event.finishes, told, looks, List.filterMap_map]

theorem takenPrefix (disk : Disk) (steps : List Step) : taken disk steps <+: steps := by
  induction steps with
  | nil => exact List.prefix_rfl
  | cons step rest ih =>
    rw [taken]
    split
    · exact List.cons_prefix_cons.mpr ⟨rfl, List.nil_prefix⟩
    · exact List.cons_prefix_cons.mpr ⟨rfl, ih⟩

theorem takenAll {steps : List Step} {r whole : Report} (ends : outcome disk steps r = .ok whole) :
    taken disk steps = steps := by
  obtain ⟨scripts, all, _⟩ := Report.collectOk.mp ends
  have sound : ∀ step ∈ steps, step.fails disk = false := by
    intro step member
    rw [fails, List.any_eq_false]
    intro item found
    have given : item ∈ scripts.map Except.ok := all ▸ List.mem_flatMap.mpr ⟨step, member, found⟩
    obtain ⟨script, _, rfl⟩ := List.mem_map.mp given
    exact Bool.false_ne_true
  clear all ends
  induction steps with
  | nil => rfl
  | cons step rest ih =>
    obtain ⟨here, later⟩ := List.forall_mem_cons.mp sound
    simp [taken, here, ih later]

theorem takenFails {steps : List Step} {r : Report} {failure : Failure}
    (ends : outcome disk steps r = .error failure) :
    ∃ before step, taken disk steps = before ++ [step] ∧ step.items disk = [.error failure] := by
  induction steps generalizing r with
  | nil => cases ends
  | cons step rest ih =>
    have tells := stepTells disk step
    have found : outcome disk (step :: rest) r =
        Report.collect (step.items disk ++ rest.flatMap (items disk)) r := rfl
    rw [found] at ends
    rw [taken, fails]
    generalize here : step.items disk = given at tells ends ⊢
    generalize step.told disk = told at tells
    have behind : ∀ r, outcome disk rest r = .error failure → ∃ before last,
        step :: taken disk rest = before ++ [last] ∧ last.items disk = [.error failure] := by
      intro r later
      obtain ⟨before, last, all, one⟩ := ih later
      exact ⟨step :: before, last, by rw [all, List.cons_append], one⟩
    cases tells with
    | passed => exact behind r ends
    | opened => exact behind r ends
    | refused => exact ⟨[], step, rfl, by cases ends; exact here⟩
    | unreached => exact ⟨[], step, rfl, by cases ends; exact here⟩
    | unread => exact ⟨[], step, rfl, by cases ends; exact here⟩
    | @read script => exact behind (r.add script) ends

end Step

namespace Settings

variable {disk : Disk} {s : Settings}

def steps (disk : Disk) (s : Settings) : List Step := s.folders.flatMap (Scan.folderSteps disk s.root)

def taken (disk : Disk) (s : Settings) : List Step := Step.taken disk (s.steps disk)

theorem stepsItems (disk : Disk) (s : Settings) :
    (s.steps disk).flatMap (Step.items disk) = Scan.all disk s.root s.folders := by
  rw [steps, List.flatMap_assoc, Scan.allItems]
  exact List.flatMap_congr fun folder _ => Scan.folderStepsItems disk s.root folder

theorem stepsOpenings (disk : Disk) (s : Settings) :
    (s.steps disk).filterMap Step.opening? = s.folders.map fun folder => (folder, s.place folder) := by
  have entries : ∀ folder path (listed : List Entry),
      (listed.map (Step.entry folder path)).filterMap Step.opening? = [] := by
    intro folder path listed
    simp [List.filterMap_map, Function.comp_def, Step.opening?]
  rw [steps, List.filterMap_flatMap, List.map_eq_flatMap]
  refine List.flatMap_congr fun folder _ => ?_
  rw [Scan.folderSteps]
  cases disk.entries (s.root.join (Path.ofString folder)) <;> simp [Step.opening?, entries, place]

theorem lintOutcome (disk : Disk) (s : Settings) :
    (s.lint disk).2 = Step.outcome disk (s.steps disk) Report.empty := by
  rw [lintCollect, Step.outcome, stepsItems]

theorem lintTrace (disk : Disk) (s : Settings) :
    (s.lint disk).1 = Step.trace disk (s.steps disk) (s.lint disk).2 :=
  Report.gatherTold disk (Scan.start s.root s.folders) Report.empty

/- What the events of a run over the folders say of its steps and of its outcome. -/
structure Logged (disk : Disk) (s : Settings) (events : List Event) (outcome : Except Failure Report) :
    Prop where
  whole : events = (s.taken disk).flatMap (Step.told disk) ++ Report.closingEvents outcome
  scanned : Scan.openings events = (s.taken disk).filterMap Step.opening?
  inOrder : Scan.openings events <+: s.folders.map fun folder => (folder, s.place folder)
  read : Event.readings events = (s.taken disk).filterMap (Step.file? disk)
  checked : Event.checks events = (Script.among ((s.taken disk).flatMap (Step.items disk))).map
    fun script => (script.folder, script.name, script.failed)
  paired : List.IsChain Event.Follows (.resolved s.root s.folders :: events)
  unread : ∀ folder file, events.getLast? = some (.reading folder file) →
    ∃ cause, outcome = .error (.file folder file cause)
  finished : ∀ report, outcome = .ok report → s.taken disk = s.steps disk ∧
    events.getLast? = some (.finished report.files report.failures.length) ∧
    Event.finishes events = [(report.files, report.failures.length)] ∧
    report.files = (Event.checks events).length ∧
    report.failures.length = ((Event.checks events).map (·.2.2)).sum
  aborted : ∀ failure, outcome = .error failure → Event.finishes events = [] ∧
    ∃ before step, s.taken disk = before ++ [step] ∧ step.items disk = [.error failure]

theorem lintLogged (disk : Disk) (s : Settings) : s.Logged disk (s.lint disk).1 (s.lint disk).2 := by
  have ends := lintOutcome disk s
  have trace := lintTrace disk s
  generalize (s.lint disk).2 = outcome at ends trace
  rw [trace]
  refine ⟨rfl, Step.traceOpenings disk _ _, ?_, Step.traceReadings disk _ _, Step.traceChecks disk _ _,
    ?_, ?_, ?_, ?_⟩
  · rw [Step.traceOpenings, ← stepsOpenings]
    exact (Step.takenPrefix disk (s.steps disk)).filterMap Step.opening?
  · rw [ends]
    exact Step.tracePaired _ _ _ (by simp [Event.IsReading])
  · intro folder file last
    rw [ends] at last ⊢
    exact Step.traceUnread last
  · intro report done
    rw [done] at ends ⊢
    obtain ⟨files, failures⟩ := Step.traceCounts ends.symm
    refine ⟨Step.takenAll ends.symm, ?_, ?_, ?_, ?_⟩
    · simp [Step.trace, Report.closingEvents, Report.finished]
    · rw [Step.traceFinishes]
      rfl
    · simpa [Report.empty] using files
    · simpa [Report.empty, Report.failures] using failures
  · intro failure stopped
    rw [stopped] at ends ⊢
    refine ⟨?_, Step.takenFails ends.symm⟩
    rw [Step.traceFinishes]
    rfl

end Settings

end ShellStyle
