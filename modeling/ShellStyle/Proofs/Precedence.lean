import ShellStyle.Proofs.Resolution
import ShellStyle.Proofs.Verdict

/-! A run under the settings that it resolves to. Without settings there is no report. With them the run is that
of the settings alone, and where folders are given nothing of the file shows in it. -/
namespace ShellStyle.Command
open Settings
open Text (Utf8.encode)

variable {disk : Disk} {env : Environment} {a : Arguments}

def printed (env : Environment) (a : Arguments) : Except Failure Report → String
  | .error _ => ""
  | .ok report => (output env.colours a report).1

theorem runOut {arguments : List String} (parsed : Arguments.parse arguments = .ok a) :
    (run disk env arguments).out = printed env a (examine disk a).2 := by
  rw [runParsed parsed]
  cases (examine disk a).2 <;> rfl

theorem examineResolved {s : Settings} (resolved : resolve disk a = .ok s) :
    (examine disk a).2 = (s.lint disk).2 := by
  rw [examine, resolved]

theorem runRefused {arguments : List String} {failure : Failure}
    (parsed : Arguments.parse arguments = .ok a) (refused : resolve disk a = .error failure) :
    (run disk env arguments).code = 2 ∧ (run disk env arguments).out = "" ∧
    (run disk env arguments).complaint = "Error: " ++ failure.message ++ "\n" := by
  have ends : (examine disk a).2 = .error failure := by rw [examine, refused]
  rw [runParsed parsed, ends]
  exact ⟨rfl, rfl, rfl⟩

theorem runResolved {arguments : List String} {s : Settings}
    (parsed : Arguments.parse arguments = .ok a) (resolved : resolve disk a = .ok s) :
    (run disk env arguments).code = code (s.lint disk).2 ∧
    (run disk env arguments).out = printed env a (s.lint disk).2 := by
  rw [runCode parsed, runOut parsed, examineResolved resolved]
  exact ⟨rfl, rfl⟩

theorem precedence {arguments : List String} {a : Arguments}
    (parsed : Arguments.parse arguments = .ok a) (disk : Disk) (env : Environment) :
    (∀ s, resolve disk a = .ok s ↔ ∃ root file, Chosen disk a root ∧
      Settings.States disk root (.ok file) ∧ s = ⟨root, folders a.folders file⟩) ∧
    (∀ failure, resolve disk a = .error failure ↔ Rootless disk a failure ∨
      ∃ root reason, Chosen disk a root ∧ Settings.States disk root (.error reason) ∧
        failure = .settings (root.join Settings.fileName) reason) ∧
    (∀ dir, a.rootDir = some dir → ∀ other : Disk,
      other.kind (dir.join Settings.fileName) = disk.kind (dir.join Settings.fileName) →
      other.bytes (dir.join Settings.fileName) = disk.bytes (dir.join Settings.fileName) →
      resolve other a = resolve disk a) ∧
    (∀ failure, resolve disk a = .error failure → (run disk env arguments).code = 2 ∧
      (run disk env arguments).out = "" ∧
      (run disk env arguments).complaint = "Error: " ++ failure.message ++ "\n") ∧
    (∀ root file, Chosen disk a root → Settings.States disk root (.ok file) →
      (run disk env arguments).code =
        code ((⟨root, folders a.folders file⟩ : Settings).lint disk).2 ∧
      (run disk env arguments).out =
        printed env a ((⟨root, folders a.folders file⟩ : Settings).lint disk).2) ∧
    (∀ root file, Chosen disk a root → Settings.States disk root (.ok file) → a.folders ≠ [] →
      (run disk env arguments).code = code ((⟨root, a.folders⟩ : Settings).lint disk).2 ∧
      (run disk env arguments).out = printed env a ((⟨root, a.folders⟩ : Settings).lint disk).2) := by
  have runs : ∀ root file, Chosen disk a root → Settings.States disk root (.ok file) →
      (run disk env arguments).code =
        code ((⟨root, folders a.folders file⟩ : Settings).lint disk).2 ∧
      (run disk env arguments).out =
        printed env a ((⟨root, folders a.folders file⟩ : Settings).lint disk).2 :=
    fun _ _ chosen states => runResolved parsed (resolveStated chosen states)
  refine ⟨fun s => resolveOk, fun failure => resolveError,
    fun dir option other => resolveGiven option, fun failure => runRefused parsed, runs, ?_⟩
  intro root file chosen states given
  rw [← folderOption given]
  exact runs root file chosen states

/- The option goes before the folders of the file, and these are taken without it. Settings that are not valid
end the run although the option is given. -/
theorem optionOutdoesFile :
    (run (configured "folders = ['bin', 'lib']").disk .unset ["--folder=bin"]).code = 0 ∧
    (run (configured "folders = ['bin', 'lib']").disk .unset []).code = 1 ∧
    (run (configured "folders = [").disk .unset ["--folder=bin"]).code = 2 ∧
    (run brokenBelow.disk .unset ["--root-dir=/work", "--folder=bin"]).code = 2 := by
  have option : Arguments.parse ["--folder=bin"] = .ok ⟨none, ["bin"], false, false⟩ := by cbv
  have plain : Arguments.parse [] = .ok Arguments.blank := rfl
  have rooted : Arguments.parse ["--root-dir=/work", "--folder=bin"] =
      .ok ⟨some (Path.ofString "/work"), ["bin"], false, false⟩ := by cbv
  have chosen : ∀ text, Chosen (configured text).disk ⟨none, ["bin"], false, false⟩ (Path.ofString "/") := by
    intro text
    cases configuredChosen text with
    | given dir => cases dir
    | found absent current nearest => exact .found rfl current nearest
  obtain ⟨_, _, _, _, _, outdone⟩ := precedence option (configured "folders = ['bin', 'lib']").disk .unset
  obtain ⟨_, _, _, _, listed, _⟩ := precedence plain (configured "folders = ['bin', 'lib']").disk .unset
  obtain ⟨_, cut, _, refused, _⟩ := precedence option (configured "folders = [").disk .unset
  obtain ⟨_, noText, _, unread, _⟩ := precedence rooted brokenBelow.disk .unset
  have unclosed : States (configured "folders = [").disk (Path.ofString "/")
      (.error (flawMessage .malformed)) := by
    have found : Toml.Document.found "folders = [" = none := by cbv
    refine .unfit (configuredFile _) (configuredBytes _) ?_ (by cbv)
    intro accepted
    obtain ⟨list, _, written, _⟩ := accepted
    cases found.symm.trans written
  have broken : States brokenBelow.disk (Path.ofString "/work") (.error Cause.notText.message) :=
    .noText (by cbv) (by cbv) (Text.Utf8.decodeNone.mp (by cbv))
  refine ⟨?_, ?_, ?_, ?_⟩
  · rw [(outdone _ _ (chosen _) binLibStated (by decide)).1]
    exact codeZero.mpr ⟨_, configuredBin _, by decide +kernel⟩
  · rw [(listed _ _ (configuredChosen _) binLibStated).1]
    exact codeOne.mpr ⟨_, configuredBoth _, by decide +kernel⟩
  · exact (refused _ ((cut _).mpr (.inr ⟨_, _, chosen _, unclosed, rfl⟩))).1
  · exact (unread _ ((noText _).mpr (.inr ⟨_, _, .given rfl, broken, rfl⟩))).1

end ShellStyle.Command
