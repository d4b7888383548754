import ShellStyle.Proofs.Resolution
import ShellStyle.Proofs.Verdict

/-! The code of a run. It is told by the settings that the run resolves to and by the files below them, and no
flag and no variable of the environment has a say in it. Arguments that ask for help do not parse. -/
namespace ShellStyle.Command
open Settings (configured configuredChosen configuredBoth binLibStated listItems oldScript)

variable {disk : Disk} {env : Environment} {a : Arguments}

theorem verdict {arguments : List String} {a : Arguments}
    (parsed : Arguments.parse arguments = .ok a) (disk : Disk) (env : Environment) :
    ((run disk env arguments).code = 0 ↔
      ∃ s, Resolves disk a (.ok s) ∧ s.Readable disk ∧ s.Conforming disk) ∧
    ((run disk env arguments).code = 1 ↔
      ∃ s, Resolves disk a (.ok s) ∧ s.Readable disk ∧ s.Breaking disk) ∧
    ((run disk env arguments).code = 2 ↔ ¬ ∃ s, Resolves disk a (.ok s) ∧ s.Readable disk) ∧
    ((run disk env arguments).code = 2 → (run disk env arguments).out = "") ∧
    (∀ others b env', Arguments.parse others = .ok b → b.rootDir = a.rootDir → b.folders = a.folders →
      (run disk env' others).code = (run disk env arguments).code) ∧
    (∀ flag : Arguments.Flag, flag.isOn a = false →
      (run disk env (flag.argument :: arguments)).code = (run disk env arguments).code) := by
  have ends : (run disk env arguments).code = code (examine disk a).2 := runCode parsed
  refine ⟨?_, ?_, ?_, ?_, ?_, ?_⟩
  · rw [ends, codeZero, examineOk]
    simp only [Settings.lintConforming, resolvesIff]
  · rw [ends, codeOne, examineOk]
    simp only [Settings.lintBreaking, resolvesIff]
  · rw [ends, codeTwo, examineFinishes]
    simp only [resolvesIff]
  · intro two
    rw [runParsed parsed]
    exact silentWithout (ends.symm.trans two)
  · intro others b env' other root folders
    exact codeSame parsed other root folders
  · intro flag off
    exact codeSame parsed (Arguments.Flag.parseRaised parsed off) (flag.raiseRoot a) (flag.raiseFolders a)

/- A run below its root, which is found by a settings file that lists the folders. -/
theorem configuredVerdict :
    (run (configured "folders = ['bin', 'lib']").disk .unset []).code = 1 ∧
    (run (configured "folders = ['bin', 'lib']").disk .unset ["--json"]).code = 1 := by
  have parsed : Arguments.parse [] = .ok Arguments.blank := rfl
  have resolves : Resolves (configured "folders = ['bin', 'lib']").disk Arguments.blank
      (.ok ⟨Path.ofString "/", ["bin", "lib"]⟩) := .settled (configuredChosen _) binLibStated
  have broken : (Report.ofScripts [listItems, oldScript]).passed = false := by decide +kernel
  have breaking := Settings.lintBreaking.mp
    ⟨_, configuredBoth "folders = ['bin', 'lib']", broken⟩
  obtain ⟨_, one, _, _, _, raised⟩ := verdict parsed (configured "folders = ['bin', 'lib']").disk .unset
  have code := one.mpr ⟨_, resolves, breaking⟩
  exact ⟨code, (raised .json rfl).trans code⟩

end ShellStyle.Command
