import ShellStyle.Proofs.FirstFailure

/-! A run over two lists of folders, one behind the other, is the run over the first and then the run over the
second: nothing is carried from a folder to the next. A run over any list is therefore made of the runs over
its single folders, and what holds of it as soon as it holds of each of these depends on neither their order
nor how often one is named. -/
namespace ShellStyle

namespace Report

def followedBy (r later : Report) : Report := ⟨r.verdicts ++ later.verdicts, r.files + later.files⟩

theorem followedByEmpty (r : Report) : r.followedBy empty = r := by
  simp [empty, followedBy]

theorem addBehind (r later : Report) (script : Script) :
    (r.followedBy later).add script = r.followedBy (later.add script) := by
  simp [add, followedBy, Nat.add_assoc]

theorem passedFollowed (r later : Report) :
    (r.followedBy later).passed = true ↔ r.passed = true ∧ later.passed = true := by
  simp [passed, followedBy]

theorem collectBehind (items : List Found) (r later : Report) :
    collect items (r.followedBy later) = (collect items later).map r.followedBy := by
  induction items generalizing later with
  | nil => rfl
  | cons item items ih =>
    cases item with
    | error failure => rfl
    | ok script => rw [collect, collect, addBehind, ih]

end Report

namespace Settings

variable {disk : Disk} {root : Path}

theorem lintAppend (disk : Disk) (root : Path) (folders others : List String) :
    ((⟨root, folders ++ others⟩ : Settings).lint disk).2 =
      ((⟨root, folders⟩ : Settings).lint disk).2.bind fun report =>
        ((⟨root, others⟩ : Settings).lint disk).2.map report.followedBy := by
  have found : Scan.all disk root (folders ++ others) =
      Scan.all disk root folders ++ Scan.all disk root others := by
    simp only [Scan.allItems, List.flatMap_append]
  simp only [lintCollect]
  rw [found, Report.collectAppend]
  congr 1
  funext report
  rw [← Report.collectBehind, Report.followedByEmpty]

theorem lintNone : ((⟨root, []⟩ : Settings).lint disk).2 = .ok Report.empty := by
  rw [lintCollect, Scan.allItems]
  rfl

theorem lintAppendOk {folders others : List String} {report : Report} :
    ((⟨root, folders ++ others⟩ : Settings).lint disk).2 = .ok report ↔
      ∃ early late, ((⟨root, folders⟩ : Settings).lint disk).2 = .ok early ∧
        ((⟨root, others⟩ : Settings).lint disk).2 = .ok late ∧ report = early.followedBy late := by
  rw [lintAppend]
  cases ((⟨root, folders⟩ : Settings).lint disk).2 with
  | error failure => simp [Except.bind]
  | ok early =>
    cases ((⟨root, others⟩ : Settings).lint disk).2 with
    | error failure => simp [Except.bind, Except.map]
    | ok late => simp [Except.bind, Except.map, eq_comm]

theorem lintConsOk {folder : String} {rest : List String} {report : Report} :
    ((⟨root, folder :: rest⟩ : Settings).lint disk).2 = .ok report ↔
      ∃ early late, ((⟨root, [folder]⟩ : Settings).lint disk).2 = .ok early ∧
        ((⟨root, rest⟩ : Settings).lint disk).2 = .ok late ∧ report = early.followedBy late := by
  rw [← lintAppendOk, List.singleton_append]

theorem lintEach (holds : Report → Prop) (blank : holds Report.empty)
    (both : ∀ r later, holds (r.followedBy later) ↔ holds r ∧ holds later) (folders : List String) :
    (∃ report, ((⟨root, folders⟩ : Settings).lint disk).2 = .ok report ∧ holds report) ↔
      ∀ folder ∈ folders, ∃ report, ((⟨root, [folder]⟩ : Settings).lint disk).2 = .ok report ∧
        holds report := by
  induction folders with
  | nil => simpa [lintNone] using blank
  | cons folder rest ih =>
    rw [List.forall_mem_cons, ← ih]
    refine ⟨?_, ?_⟩
    · intro whole
      obtain ⟨report, finished, held⟩ := whole
      obtain ⟨early, late, own, others, rfl⟩ := lintConsOk.mp finished
      obtain ⟨first, second⟩ := (both early late).mp held
      exact ⟨⟨early, own, first⟩, ⟨late, others, second⟩⟩
    · intro parts
      obtain ⟨⟨early, own, first⟩, ⟨late, others, second⟩⟩ := parts
      exact ⟨_, lintConsOk.mpr ⟨early, late, own, others, rfl⟩, (both early late).mpr ⟨first, second⟩⟩

theorem lintSameFolders (disk : Disk) (root : Path) (holds : Report → Prop) (blank : holds Report.empty)
    (both : ∀ r later, holds (r.followedBy later) ↔ holds r ∧ holds later) {folders others : List String}
    (same : ∀ folder, folder ∈ others ↔ folder ∈ folders) :
    (∃ report, ((⟨root, others⟩ : Settings).lint disk).2 = .ok report ∧ holds report) ↔
      ∃ report, ((⟨root, folders⟩ : Settings).lint disk).2 = .ok report ∧ holds report := by
  rw [lintEach holds blank both, lintEach holds blank both]
  simp only [same]

/- A permutation of a list has the same members, and so has a list that names some of them once more. -/
theorem composition (disk : Disk) (root : Path) (folders others : List String) :
    ((⟨root, folders ++ others⟩ : Settings).lint disk).2 =
      (match ((⟨root, folders⟩ : Settings).lint disk).2, ((⟨root, others⟩ : Settings).lint disk).2 with
        | .error failure, _ => .error failure
        | .ok _, .error failure => .error failure
        | .ok early, .ok late => .ok ⟨early.verdicts ++ late.verdicts, early.files + late.files⟩) ∧
    (∀ report, ((⟨root, folders⟩ : Settings).lint disk).2 = .ok report →
      ∀ again : List String, (∀ folder, folder ∈ again ↔ folder ∈ folders) →
        ∃ other, ((⟨root, again⟩ : Settings).lint disk).2 = .ok other ∧ other.passed = report.passed) := by
  refine ⟨?_, ?_⟩
  · rw [lintAppend]
    cases ((⟨root, folders⟩ : Settings).lint disk).2 with
    | error failure => rfl
    | ok early => cases ((⟨root, others⟩ : Settings).lint disk).2 <;> rfl
  · intro report finished again same
    have finishes := lintSameFolders disk root (fun _ => True) trivial (fun _ _ => by simp) same
    have passes := lintSameFolders disk root (·.passed = true) rfl Report.passedFollowed same
    obtain ⟨other, there, _⟩ := finishes.mpr ⟨report, finished, trivial⟩
    refine ⟨other, there, Bool.eq_iff_iff.mpr ?_⟩
    simpa [finished, there] using passes

theorem foldersNamedAgain : ∃ other,
    ((⟨Path.ofString "/", ["lib", "bin", "lib"]⟩ : Settings).lint twoFolders.disk).2 = .ok other ∧
    other.passed = false := by
  have broken : (Report.ofScripts [listItems, oldScript]).passed = false := by decide +kernel
  obtain ⟨_, again⟩ := composition twoFolders.disk (Path.ofString "/") ["bin", "lib"] []
  rw [← broken]
  refine again _ twoFoldersLinted ["lib", "bin", "lib"] fun folder => ?_
  simp only [List.mem_cons, List.not_mem_nil, or_false]
  tauto

end Settings

end ShellStyle
