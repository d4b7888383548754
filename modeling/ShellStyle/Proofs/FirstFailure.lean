import ShellStyle.Proofs.Verdict

/-! What ends a run early, and what does not. The first failure among the finds is the outcome, whatever was
found before it or would be found behind it. A broken rule ends nothing: every rule is judged for every
script, and a script can be exchanged for another without a trace in the verdicts on the others. -/
namespace ShellStyle
open Text

namespace Report

theorem collectError {items : List Found} {r : Report} {failure : Failure} :
    collect items r = .error failure ↔ ∃ (scripts : List Script) (rest : List Found),
      items = scripts.map .ok ++ .error failure :: rest := by
  induction items generalizing r with
  | nil => simp [collect]
  | cons item items ih =>
    cases item with
    | error first =>
      constructor
      · intro same
        cases same
        exact ⟨[], items, rfl⟩
      · intro holds
        obtain ⟨scripts, rest, all⟩ := holds
        cases scripts with
        | nil =>
          obtain ⟨same, _⟩ := List.cons.inj all
          cases same
          rfl
        | cons script more => simp at all
    | ok script =>
      rw [collect, ih]
      constructor
      · intro holds
        obtain ⟨scripts, rest, rfl⟩ := holds
        exact ⟨script :: scripts, rest, rfl⟩
      · intro holds
        obtain ⟨scripts, rest, all⟩ := holds
        cases scripts with
        | nil => simp at all
        | cons first more =>
          obtain ⟨_, later⟩ := List.cons.inj all
          exact ⟨more, rest, later⟩

theorem collectErrorAnywhere {items : List Found} (r other : Report) {failure : Failure} :
    collect items r = .error failure ↔ collect items other = .error failure := by
  rw [collectError, collectError]

theorem collectAppend (before after : List Found) (r : Report) :
    collect (before ++ after) r = (collect before r).bind (collect after) := by
  induction before generalizing r with
  | nil => rfl
  | cons item items ih =>
    cases item with
    | error failure => rfl
    | ok script => exact ih (r.add script)

theorem collectExchanged (before after : List Found) (script other : Script) (r : Report)
    (failure : Failure) :
    collect (before ++ .ok script :: after) r = .error failure ↔
      collect (before ++ .ok other :: after) r = .error failure := by
  rw [collectAppend, collectAppend]
  cases collect before r with
  | error first => exact Iff.rfl
  | ok early => exact collectErrorAnywhere (early.add script) (early.add other)

theorem verdictsLength (scripts : List Script) :
    (ofScripts scripts).verdicts.length = 3 * (ofScripts scripts).files := by
  induction scripts with
  | nil => rfl
  | cons script rest ih =>
    simp only [ofScripts, List.flatMap_cons, List.length_append, List.length_cons,
      Script.verdictsLength] at ih ⊢
    omega

end Report

theorem Rule.judgedAlone {rule : Rule} {script other : Script} (folder : script.folder = other.folder)
    (name : script.name = other.name) (same : rule.holds script = rule.holds other) :
    rule.judge script = rule.judge other := by
  have title : script.title = other.title := by rw [Script.title, Script.title, folder, name]
  cases rule with
  | shebang => simp only [judge, praise, advice, same, folder, name, title]
  | helpFlag => simp only [judge, praise, advice, same, folder, name, title]
  | hyphens => simp only [judge, praise, advice, same, folder, name, title]

namespace Settings

variable {disk : Disk} {s : Settings}

theorem lintError {failure : Failure} : (s.lint disk).2 = .error failure ↔
    ∃ (scripts : List Script) (rest : List Found),
      Scan.all disk s.root s.folders = scripts.map .ok ++ .error failure :: rest := by
  rw [lintCollect, Report.collectError]

theorem scriptExchanged {other : Disk} {t : Settings} {before after : List Found} {script stranger : Script}
    {report : Report} (here : Scan.all disk s.root s.folders = before ++ .ok script :: after)
    (there : Scan.all other t.root t.folders = before ++ .ok stranger :: after)
    (h : (s.lint disk).2 = .ok report) : ∃ early late : List Verdict,
      report.verdicts = early ++ script.verdicts ++ late ∧
      (t.lint other).2 = .ok ⟨early ++ stranger.verdicts ++ late, report.files⟩ := by
  obtain ⟨scripts, all, rfl⟩ := lintOk.mp h
  obtain ⟨first, others, rfl, rfl, tail⟩ := List.map_eq_append_iff.mp (all.symm.trans here)
  obtain ⟨found, last, rfl, same, rfl⟩ := List.map_eq_cons_iff.mp tail
  cases same
  refine ⟨first.flatMap Script.verdicts, last.flatMap Script.verdicts, ?_, ?_⟩
  · simp [Report.ofScripts]
  · refine lintOk.mpr ⟨first ++ stranger :: last, ?_, ?_⟩
    · rw [there]
      simp
    · simp [Report.ofScripts]

/- The last two parts say that a broken rule disturbs nothing: not the finds around its file, wherever that
file is exchanged for another, nor the other rules on the same file. -/
theorem firstFailureEnds (disk : Disk) (s : Settings) :
    ((∃ report, (s.lint disk).2 = .ok report) ↔
      ∀ failure, .error failure ∉ Scan.all disk s.root s.folders) ∧
    (∀ report, (s.lint disk).2 = .ok report ↔ ∃ scripts : List Script,
      Scan.all disk s.root s.folders = scripts.map .ok ∧
      report.verdicts = scripts.flatMap (fun script => Rule.all.map (·.judge script)) ∧
      report.files = scripts.length) ∧
    (∀ report, (s.lint disk).2 = .ok report → report.verdicts.length = 3 * report.files) ∧
    (∀ failure, (s.lint disk).2 = .error failure ↔ ∃ (scripts : List Script) (rest : List Found),
      Scan.all disk s.root s.folders = scripts.map .ok ++ .error failure :: rest) ∧
    (∀ (other : Disk) (t : Settings) (before after : List Found) (script stranger : Script),
      Scan.all disk s.root s.folders = before ++ .ok script :: after →
      Scan.all other t.root t.folders = before ++ .ok stranger :: after →
      (∀ failure, (s.lint disk).2 = .error failure ↔ (t.lint other).2 = .error failure) ∧
      ∀ report, (s.lint disk).2 = .ok report → ∃ early late : List Verdict,
        report.verdicts = early ++ script.verdicts ++ late ∧
        (t.lint other).2 = .ok ⟨early ++ stranger.verdicts ++ late, report.files⟩) ∧
    (∀ (rule : Rule) (script stranger : Script), script.folder = stranger.folder →
      script.name = stranger.name → rule.holds script = rule.holds stranger →
      rule.judge script = rule.judge stranger) := by
  have whole : ∀ report, (s.lint disk).2 = .ok report ↔ ∃ scripts : List Script,
      Scan.all disk s.root s.folders = scripts.map .ok ∧
      report.verdicts = scripts.flatMap (fun script => Rule.all.map (·.judge script)) ∧
      report.files = scripts.length := by
    intro report
    rw [lintOk]
    refine exists_congr fun scripts => and_congr_right fun _ => ?_
    obtain ⟨verdicts, files⟩ := report
    rw [Report.ofScripts, Report.mk.injEq]
    rfl
  refine ⟨?_, whole, ?_, fun failure => lintError, ?_, fun rule script stranger => Rule.judgedAlone⟩
  · rw [lintFinishes, readableIff]
  · intro report h
    obtain ⟨scripts, _, rfl⟩ := lintOk.mp h
    exact Report.verdictsLength scripts
  · intro other t before after script stranger here there
    refine ⟨?_, fun report h => scriptExchanged here there h⟩
    intro failure
    rw [lintCollect, lintCollect, here, there]
    exact Report.collectExchanged before after script stranger Report.empty failure

def oneOfEach : Site :=
  (((⟨⟨[]⟩, [], 0⟩ : Site).insert [Utf8.encode "lib", Utf8.encode "old_script"]
    (.file (Utf8.encode "echo"))).insert [Utf8.encode "lib", Utf8.encode "link"]
    (.link (Path.ofString "nowhere"))).insert [Utf8.encode "bin", Utf8.encode "image"] (.file [0xFF])

theorem linkEndsRun : ((⟨Path.ofString "/", ["lib", "bin"]⟩ : Settings).lint oneOfEach.disk).2 =
    .error (.file "lib" "link" .notFound) := by
  have found : Scan.all oneOfEach.disk (Path.ofString "/") ["lib", "bin"] =
      [oldScript].map .ok ++ [.error (.file "lib" "link" .notFound),
        .error (.file "bin" "image" .notText)] := by
    rw [Scan.allItems]
    cbv
  obtain ⟨_, _, _, first, _⟩ := firstFailureEnds oneOfEach.disk ⟨Path.ofString "/", ["lib", "bin"]⟩
  exact (first _).mpr ⟨_, _, found⟩

end Settings

end ShellStyle
