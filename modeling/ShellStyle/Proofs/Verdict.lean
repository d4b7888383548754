import ShellStyle.Command
import ShellStyle.Proofs.Flags
import ShellStyle.Proofs.Gather

/-! The end of a run, told from the disk alone: whether there is a report at all depends on what can be
listed, resolved and read, and its verdict depends on the texts and names of the files found. Neither the
flags nor the environment has a say in it. -/
namespace ShellStyle
open Text

structure Conforms (name text : String) : Prop where
  shebang : ['#', '!'] <+: text.toList
  help : ['-', 'h'] <:+: text.toList ∨ ['-', '-', 'h', 'e', 'l', 'p'] <:+: text.toList
  hyphens : '_' ∉ name.toList

theorem Script.passedIff (s : Script) : (∀ v ∈ s.verdicts, v.passed = true) ↔ Conforms s.name s.text := by
  have rules : (∀ v ∈ s.verdicts, v.passed = true) ↔ Rule.hasShebang s.text = true ∧
      Rule.mentionsHelp s.text = true ∧ Rule.isHyphenated s.name = true := by
    simp [Script.verdicts, Rule.all, Rule.judge, Rule.holds]
  rw [rules]
  simp only [Rule.hasShebang, Rule.mentionsHelp, Rule.isHyphenated, Bool.or_eq_true, occursIff,
    List.isPrefixOf_iff_prefix, Bool.not_eq_true', List.contains_eq_mem, decide_eq_false_iff_not]
  refine ⟨?_, ?_⟩
  · intro holds
    obtain ⟨shebang, help, hyphens⟩ := holds
    exact ⟨shebang, help, hyphens⟩
  · intro h
    exact ⟨h.shebang, h.help, h.hyphens⟩

namespace Settings

def place (s : Settings) (folder : String) : Path := s.root.join (Path.ofString folder)

def Candidate (disk : Disk) (s : Settings) (folder : String) (raw : Name) : Prop :=
  folder ∈ s.folders ∧
  (∃ entries, disk.entries (s.place folder) = .ok entries ∧ .name raw ∈ entries) ∧
  Script.isCandidate (Utf8.decodeLossy raw) = true

def IsFile (disk : Disk) (s : Settings) (folder : String) (raw : Name) : Prop :=
  s.Candidate disk folder raw ∧ disk.kind ((s.place folder).join ⟨raw⟩) = .ok .file

def Reads (disk : Disk) (s : Settings) (folder : String) (raw : Name) (text : String) : Prop :=
  disk.bytes ((s.place folder).join ⟨raw⟩) = .ok (Utf8.encode text)

structure Readable (disk : Disk) (s : Settings) : Prop where
  listed : ∀ folder ∈ s.folders, ∃ names : List Name,
    disk.entries (s.place folder) = .ok (names.map .name)
  resolved : ∀ folder raw, s.Candidate disk folder raw →
    ∃ kind, disk.kind ((s.place folder).join ⟨raw⟩) = .ok kind
  decoded : ∀ folder raw, s.IsFile disk folder raw → ∃ text, s.Reads disk folder raw text

def Conforming (disk : Disk) (s : Settings) : Prop :=
  ∀ folder raw text, s.IsFile disk folder raw → s.Reads disk folder raw text →
    Conforms (Utf8.decodeLossy raw) text

def Breaking (disk : Disk) (s : Settings) : Prop :=
  ∃ folder raw text, s.IsFile disk folder raw ∧ s.Reads disk folder raw text ∧
    ¬ Conforms (Utf8.decodeLossy raw) text

theorem breakingIff {disk : Disk} {s : Settings} : s.Breaking disk ↔ ¬ s.Conforming disk := by
  simp only [Breaking, Conforming, Classical.not_forall, exists_prop]

theorem readsIff {disk : Disk} {s : Settings} {folder : String} {raw : Name} {text : String} :
    s.Reads disk folder raw text ↔ disk.text ((s.place folder).join ⟨raw⟩) = .ok text :=
  Disk.textEncoded.symm

end Settings

def Entry.Sound (disk : Disk) (path : Path) : Entry → Prop
  | .broken _ => False
  | .name raw => Script.isCandidate (Utf8.decodeLossy raw) = true →
    (∃ kind, disk.kind (path.join ⟨raw⟩) = .ok kind) ∧
    (disk.kind (path.join ⟨raw⟩) = .ok .file → ∃ text, disk.text (path.join ⟨raw⟩) = .ok text)

theorem Entry.soundNames {disk : Disk} {path : Path} {entries : List Entry}
    (h : ∀ entry ∈ entries, entry.Sound disk path) : ∃ names : List Name, entries = names.map .name := by
  induction entries with
  | nil => exact ⟨[], rfl⟩
  | cons entry rest ih =>
    obtain ⟨names, rfl⟩ := ih fun other member => h other (List.mem_cons_of_mem _ member)
    cases entry with
    | broken cause => exact absurd (h _ List.mem_cons_self) id
    | name raw => exact ⟨raw :: names, rfl⟩

theorem Report.scriptsOnly {items : List Found} :
    (∃ scripts : List Script, items = scripts.map .ok) ↔ ∀ failure, .error failure ∉ items := by
  induction items with
  | nil => exact ⟨by simp, fun _ => ⟨[], rfl⟩⟩
  | cons item rest ih =>
    refine ⟨?_, ?_⟩
    · intro holds failure given
      obtain ⟨scripts, all⟩ := holds
      rw [all] at given
      simp at given
    · intro clean
      obtain ⟨scripts, rfl⟩ := ih.mpr fun failure member => clean failure (List.mem_cons_of_mem _ member)
      cases item with
      | error failure => exact absurd List.mem_cons_self (clean failure)
      | ok script => exact ⟨script :: scripts, rfl⟩

namespace Scan

variable {disk : Disk} {folder : String} {path : Path}

theorem foundIff {entry : Entry} {item : Found} :
    item ∈ entryItems disk folder path entry ↔ (visit disk folder path entry).2 = some item := by
  rw [← visitItems, Option.mem_toList]

theorem scriptFound {entry : Entry} {script : Script} :
    .ok script ∈ entryItems disk folder path entry ↔
      ∃ raw text, entry = .name raw ∧ Script.isCandidate (Utf8.decodeLossy raw) = true ∧
        disk.kind (path.join ⟨raw⟩) = .ok .file ∧ disk.text (path.join ⟨raw⟩) = .ok text ∧
        script = ⟨folder, Utf8.decodeLossy raw, path.join ⟨raw⟩, text⟩ := by
  rw [foundIff]
  refine ⟨?_, ?_⟩
  · intro given
    cases entry with
    | broken cause => cases given
    | name raw =>
      simp only [visit] at given
      split at given
      · cases given
      · rename_i candidate
        split at given
        · cases given
        · cases given
        · cases given
        · rename_i file
          cases read : disk.text (path.join ⟨raw⟩) with
          | error cause => simp [read] at given
          | ok text =>
            simp only [read, Option.some.injEq, Except.ok.injEq] at given
            exact ⟨raw, text, rfl, by simpa using candidate, file, read, given.symm⟩
  · intro holds
    obtain ⟨raw, text, rfl, candidate, file, read, rfl⟩ := holds
    simp [visit, candidate, file, read]

theorem entrySound {entry : Entry} :
    (∀ failure, .error failure ∉ entryItems disk folder path entry) ↔ entry.Sound disk path := by
  simp only [foundIff]
  cases entry with
  | broken cause => simp [visit, Entry.Sound]
  | name raw =>
    cases candidate : Script.isCandidate (Utf8.decodeLossy raw) with
    | false => simp [visit, Entry.Sound, candidate]
    | true =>
      cases answer : disk.kind (path.join ⟨raw⟩) with
      | error cause => simp [visit, Entry.Sound, candidate, answer]
      | ok kind =>
        cases kind with
        | directory => simp [visit, Entry.Sound, candidate, answer]
        | special => simp [visit, Entry.Sound, candidate, answer]
        | file =>
          cases read : disk.text (path.join ⟨raw⟩) <;>
            simp [visit, Entry.Sound, candidate, answer, read]

theorem folderFound {base : Path} {script : Script} :
    .ok script ∈ folderItems disk base folder ↔
      ∃ entries, disk.entries (base.join (Path.ofString folder)) = .ok entries ∧ ∃ entry ∈ entries,
        .ok script ∈ entryItems disk folder (base.join (Path.ofString folder)) entry := by
  rw [folderItems]
  cases disk.entries (base.join (Path.ofString folder)) <;> simp

theorem folderSound {base : Path} :
    (∀ failure, .error failure ∉ folderItems disk base folder) ↔
      ∃ entries, disk.entries (base.join (Path.ofString folder)) = .ok entries ∧
        ∀ entry ∈ entries, entry.Sound disk (base.join (Path.ofString folder)) := by
  rw [folderItems]
  cases disk.entries (base.join (Path.ofString folder)) with
  | error cause => simp
  | ok entries =>
    simp only [← @entrySound disk folder, List.mem_flatMap, not_exists, not_and,
      Except.ok.injEq, exists_eq_left']
    exact ⟨fun h entry member failure => h failure entry member,
      fun h failure entry member => h entry member failure⟩

theorem allSound {base : Path} {folders : List String} :
    (∀ failure, .error failure ∉ all disk base folders) ↔
      ∀ folder ∈ folders, ∃ entries, disk.entries (base.join (Path.ofString folder)) = .ok entries ∧
        ∀ entry ∈ entries, entry.Sound disk (base.join (Path.ofString folder)) := by
  simp only [← folderSound, allItems, List.mem_flatMap, not_exists, not_and]
  exact ⟨fun h folder member failure => h failure folder member,
    fun h failure folder member => h folder member failure⟩

end Scan

namespace Settings

theorem readableIff {disk : Disk} {s : Settings} :
    s.Readable disk ↔ ∀ failure, .error failure ∉ Scan.all disk s.root s.folders := by
  rw [Scan.allSound]
  refine ⟨?_, ?_⟩
  · intro h folder member
    obtain ⟨names, listing⟩ := h.listed folder member
    refine ⟨_, listing, fun entry inside => ?_⟩
    obtain ⟨raw, _, rfl⟩ := List.mem_map.mp inside
    intro candidate
    have found : s.Candidate disk folder raw := ⟨member, ⟨_, listing, inside⟩, candidate⟩
    refine ⟨h.resolved folder raw found, fun file => ?_⟩
    obtain ⟨text, reads⟩ := h.decoded folder raw ⟨found, file⟩
    exact ⟨text, readsIff.mp reads⟩
  · intro sound
    have candidate : ∀ folder raw, s.Candidate disk folder raw →
        (∃ kind, disk.kind ((s.place folder).join ⟨raw⟩) = .ok kind) ∧
        (disk.kind ((s.place folder).join ⟨raw⟩) = .ok .file →
          ∃ text, disk.text ((s.place folder).join ⟨raw⟩) = .ok text) := by
      intro folder raw holds
      obtain ⟨member, ⟨entries, listing, inside⟩, named⟩ := holds
      obtain ⟨same, again, each⟩ := sound folder member
      cases listing.symm.trans again
      exact each _ inside named
    refine ⟨?_, fun folder raw found => (candidate folder raw found).1, ?_⟩
    · intro folder member
      obtain ⟨entries, listing, each⟩ := sound folder member
      obtain ⟨names, rfl⟩ := Entry.soundNames each
      exact ⟨names, listing⟩
    · intro folder raw holds
      obtain ⟨found, file⟩ := holds
      obtain ⟨text, read⟩ := (candidate folder raw found).2 file
      exact ⟨text, readsIff.mpr read⟩

theorem lintFinishes {disk : Disk} {s : Settings} :
    (∃ report, (s.lint disk).2 = .ok report) ↔ s.Readable disk := by
  rw [readableIff, ← Report.scriptsOnly]
  refine ⟨?_, ?_⟩
  · intro holds
    obtain ⟨report, finished⟩ := holds
    obtain ⟨scripts, all, _⟩ := lintOk.mp finished
    exact ⟨scripts, all⟩
  · intro holds
    obtain ⟨scripts, all⟩ := holds
    exact ⟨_, lintOk.mpr ⟨scripts, all, rfl⟩⟩

theorem scriptRead {disk : Disk} {s : Settings} {script : Script} :
    .ok script ∈ Scan.all disk s.root s.folders ↔ ∃ folder raw text, s.IsFile disk folder raw ∧
      s.Reads disk folder raw text ∧
      script = ⟨folder, Utf8.decodeLossy raw, (s.place folder).join ⟨raw⟩, text⟩ := by
  simp only [Scan.allItems, List.mem_flatMap, Scan.folderFound, Scan.scriptFound, readsIff]
  refine ⟨?_, ?_⟩
  · intro holds
    obtain ⟨folder, member, entries, listing, _, inside, raw, text, rfl, named, file, read, rfl⟩ := holds
    exact ⟨folder, raw, text, ⟨⟨member, ⟨entries, listing, inside⟩, named⟩, file⟩, read, rfl⟩
  · intro holds
    obtain ⟨folder, raw, text, ⟨⟨member, ⟨entries, listing, inside⟩, named⟩, file⟩, read, rfl⟩ := holds
    exact ⟨folder, member, entries, listing, _, inside, raw, text, rfl, named, file, read, rfl⟩

theorem lintPassed {disk : Disk} {s : Settings} {report : Report} (h : (s.lint disk).2 = .ok report) :
    report.passed = true ↔ s.Conforming disk := by
  obtain ⟨scripts, all, rfl⟩ := lintOk.mp h
  have scanned : ∀ script, script ∈ scripts ↔ .ok script ∈ Scan.all disk s.root s.folders := by
    intro script
    rw [all]
    simp
  have each : (Report.ofScripts scripts).passed = true ↔
      ∀ script ∈ scripts, Conforms script.name script.text := by
    simp only [← Script.passedIff, Report.passed, Report.ofScripts, List.all_eq_true, List.mem_flatMap]
    refine ⟨?_, ?_⟩
    · intro passed script member v given
      exact passed v ⟨script, member, given⟩
    · intro passed v holds
      obtain ⟨script, member, given⟩ := holds
      exact passed script member v given
  rw [each]
  refine ⟨?_, ?_⟩
  · intro conform folder raw text file reads
    exact conform _ ((scanned _).mpr (scriptRead.mpr ⟨folder, raw, text, file, reads, rfl⟩))
  · intro conform script member
    obtain ⟨folder, raw, text, file, reads, rfl⟩ := scriptRead.mp ((scanned script).mp member)
    exact conform folder raw text file reads

theorem lintConforming {disk : Disk} {s : Settings} :
    (∃ report, (s.lint disk).2 = .ok report ∧ report.passed = true) ↔
      s.Readable disk ∧ s.Conforming disk := by
  rw [← lintFinishes]
  refine ⟨?_, ?_⟩
  · intro holds
    obtain ⟨report, finished, passed⟩ := holds
    exact ⟨⟨report, finished⟩, (lintPassed finished).mp passed⟩
  · intro holds
    obtain ⟨⟨report, finished⟩, conforming⟩ := holds
    exact ⟨report, finished, (lintPassed finished).mpr conforming⟩

theorem lintBreaking {disk : Disk} {s : Settings} :
    (∃ report, (s.lint disk).2 = .ok report ∧ report.passed = false) ↔
      s.Readable disk ∧ s.Breaking disk := by
  rw [← lintFinishes, breakingIff]
  refine ⟨?_, ?_⟩
  · intro holds
    obtain ⟨report, finished, broken⟩ := holds
    refine ⟨⟨report, finished⟩, fun conforming => ?_⟩
    simp [(lintPassed finished).mpr conforming] at broken
  · intro holds
    obtain ⟨⟨report, finished⟩, breaking⟩ := holds
    exact ⟨report, finished, Bool.eq_false_iff.mpr fun passed => breaking ((lintPassed finished).mp passed)⟩

end Settings

namespace Command

variable {disk : Disk} {env : Environment} {a : Arguments}

theorem runParsed {arguments : List String} (parsed : Arguments.parse arguments = .ok a) :
    run disk env arguments = finish env a (examine disk a).1 (examine disk a).2 := by
  simp only [run, parsed]

theorem resolveSame {b : Arguments} (root : b.rootDir = a.rootDir) (folders : b.folders = a.folders) :
    resolve disk b = resolve disk a := by
  simp only [resolve, root, folders]

theorem outcomeSame {b : Arguments} (root : b.rootDir = a.rootDir) (folders : b.folders = a.folders) :
    (examine disk b).2 = (examine disk a).2 := by
  simp only [examine, resolveSame root folders]

def code : Except Failure Report → Nat
  | .error _ => 2
  | .ok report => if report.passed then 0 else 1

theorem finishCode (env : Environment) (a : Arguments) (events : List Event)
    (outcome : Except Failure Report) : (finish env a events outcome).code = code outcome := by
  cases outcome with
  | error failure => rfl
  | ok report => simp only [finish, code, outputVerdict]

theorem runCode {arguments : List String} (parsed : Arguments.parse arguments = .ok a) :
    (run disk env arguments).code = code (examine disk a).2 := by
  rw [runParsed parsed, finishCode]

theorem codeSame {first second : List String} {b : Arguments} {other : Environment}
    (one : Arguments.parse first = .ok a) (two : Arguments.parse second = .ok b)
    (root : b.rootDir = a.rootDir) (folders : b.folders = a.folders) :
    (run disk other second).code = (run disk env first).code := by
  rw [runCode one, runCode two, outcomeSame root folders]

theorem codeZero {outcome : Except Failure Report} :
    code outcome = 0 ↔ ∃ report, outcome = .ok report ∧ report.passed = true := by
  cases outcome <;> simp [code]

theorem codeOne {outcome : Except Failure Report} :
    code outcome = 1 ↔ ∃ report, outcome = .ok report ∧ report.passed = false := by
  cases outcome <;> simp [code]

theorem codeTwo {outcome : Except Failure Report} :
    code outcome = 2 ↔ ¬ ∃ report, outcome = .ok report := by
  cases outcome with
  | error failure => simp [code]
  | ok report => cases h : report.passed <;> simp [code, h]

theorem examineOk {P : Report → Prop} : (∃ report, (examine disk a).2 = .ok report ∧ P report) ↔
    ∃ s, resolve disk a = .ok s ∧ ∃ report, (s.lint disk).2 = .ok report ∧ P report := by
  rw [examine]
  cases resolve disk a <;> simp

theorem examineFinishes : (∃ report, (examine disk a).2 = .ok report) ↔
    ∃ s, resolve disk a = .ok s ∧ s.Readable disk := by
  simp only [← Settings.lintFinishes]
  rw [examine]
  cases resolve disk a <;> simp

theorem silentWithout {events : List Event} {outcome : Except Failure Report} (h : code outcome = 2) :
    (finish env a events outcome).out = "" := by
  cases outcome with
  | error failure => rfl
  | ok report => exact absurd ⟨report, rfl⟩ (codeTwo.mp h)

end Command

end ShellStyle
