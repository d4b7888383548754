import ShellStyle.Proofs.Renames
import ShellStyle.Proofs.Search

/-! What a reader of the advice on a file's name finds and does. The new name stands between the last words
that ask for a renaming and the final full stop. The folder in these words may hold the same words or full
stops, but a file name has no slash, so nothing behind the last slash is taken for them. A file that bears the
new name breaks the rule no more, and nothing else about its verdicts has changed. -/
namespace ShellStyle
open Text

namespace Verdict

def advised? (v : Verdict) : Option String := do
  let rest ← behindLast ("Rename the file to " ++ v.folder ++ "/").toList v.message.toList
  if rest.getLast? = some '.' then some (String.ofList rest.dropLast) else none

theorem suggestsEnd {v : Verdict} {name : String} (suggests : v.Suggests name) :
    ("Rename the file to " ++ v.folder).toList ++ ['/'] ++ (name.toList ++ ['.']) <:+ v.message.toList := by
  have cut : "\n    Fix: Rename the file to ".toList = "\n    Fix: ".toList ++ "Rename the file to ".toList := rfl
  have slash : "/".toList = ['/'] := rfl
  have stop : ".".toList = ['.'] := rfl
  rw [Suggests] at suggests
  rw [suggests]
  simp only [String.toList_append, cut, slash, stop, List.append_assoc]
  iterate 6 apply List.suffix_append_of_suffix
  exact List.suffix_rfl

theorem advisedSuggested {v : Verdict} {name : String} (suggests : v.Suggests name)
    (flat : '/' ∉ name.toList) : v.advised? = some name := by
  have absent : '/' ∉ name.toList ++ ['.'] := by simp [flat]
  have found := behindLastMark absent (suggestsEnd suggests)
  have mark : ("Rename the file to " ++ v.folder ++ "/").toList =
      ("Rename the file to " ++ v.folder).toList ++ ['/'] := String.toList_append
  rw [advised?, mark, found]
  simp

end Verdict

namespace Rule

theorem hyphenatedAt (name : String) (i : Nat) :
    (hyphenated name).toList[i]? = (name.toList[i]?).map fun c => if c = '_' then '-' else c := by
  rw [hyphenated, String.toList_ofList, List.getElem?_map]

theorem hyphenatedLength (name : String) : (hyphenated name).length = name.length := by
  rw [← String.length_toList, ← String.length_toList, hyphenated, String.toList_ofList, List.length_map]

theorem hyphenatedWithout {c : Char} (other : c ≠ '-') {name : String} (absent : c ∉ name.toList) :
    c ∉ (hyphenated name).toList := by
  rw [hyphenated, String.toList_ofList, List.mem_map]
  intro made
  obtain ⟨old, member, same⟩ := made
  split at same
  · exact other same.symm
  · exact absent (same ▸ member)

theorem hyphenatedCandidate {name : String} (candidate : Script.isCandidate name = true) :
    Script.isCandidate (hyphenated name) = true := by
  rw [Script.isCandidateIff] at candidate ⊢
  have plain : '_' ∉ (hyphenated name).toList := hyphenatedPlain name
  exact ⟨hyphenatedWithout (by decide) candidate.1, fun front => plain (List.mem_of_head? front)⟩

end Rule

namespace Script

def named (script : Script) (name : String) (path : Path) : Script := ⟨script.folder, name, path, script.text⟩

theorem mendedVerdicts (script : Script) (path : Path) :
    (script.named (Rule.hyphenated script.name) path).verdicts.map (fun v => (v.check, v.passed)) =
      script.verdicts.map fun v => (v.check, if v.check = Rule.hyphens.title then true else v.passed) := by
  have holds : ∀ rule : Rule, rule.holds (script.named (Rule.hyphenated script.name) path) =
      if rule.title = Rule.hyphens.title then true else rule.holds script := by
    intro rule
    cases rule with
    | shebang => rfl
    | helpFlag => rfl
    | hyphens => exact Rule.hyphenatedHolds script.name
  simp only [verdicts, List.map_map, Function.comp_def, Rule.judge, holds]

end Script

namespace Settings

variable {disk : Disk} {s : Settings} {script : Script}

/- The words that ask for a renaming are looked for in the message as it is, whatever the folder. -/
theorem adviceCures {v : Verdict} (flat : disk.Flat) (found : .ok script ∈ Scan.all disk s.root s.folders)
    (judged : v ∈ script.verdicts) (titled : v.check = Rule.hyphens.title) (broken : v.passed = false) :
    ∃ name : String, v.advised? = some name ∧ name.length = script.name.length ∧
      (∀ i : Nat, name.toList[i]? = (script.name.toList[i]?).map fun c => if c = '_' then '-' else c) ∧
      Script.isCandidate name = true ∧ Rule.isHyphenated name = true ∧
      (∀ path, (Rule.hyphens.judge (script.named name path)).passed = true ∧
        (script.named name path).verdicts.map (fun w => (w.check, w.passed)) =
          script.verdicts.map fun w => (w.check, if w.check = Rule.hyphens.title then true else w.passed)) ∧
      name = Rule.hyphenated script.name ∧ Rule.hyphenated name = name := by
  obtain ⟨rule, _, rfl⟩ := List.mem_map.mp judged
  obtain rfl := Rule.titleInjective titled
  have flatName : '/' ∉ (Rule.hyphenated script.name).toList :=
    Rule.hyphenatedWithout (by decide) (scriptFlat flat found)
  have advised : (Rule.hyphens.judge script).advised? = some (Rule.hyphenated script.name) :=
    Verdict.advisedSuggested ((Rule.adviceSuggests broken _).mpr rfl) flatName
  have candidate : Script.isCandidate script.name = true := by
    obtain ⟨_, _, _, ⟨⟨_, _, candidate⟩, _⟩, _, rfl⟩ := scriptRead.mp found
    exact candidate
  exact ⟨_, advised, Rule.hyphenatedLength _, Rule.hyphenatedAt _, Rule.hyphenatedCandidate candidate,
    Rule.hyphenatedHolds _, fun path => ⟨Rule.hyphenatedHolds _, script.mendedVerdicts path⟩, rfl,
    Rule.hyphenatedTwice _⟩

def pleading : Script :=
  ⟨"Rename the file to bin.", "old_script_2", (Path.ofString "/Rename the file to bin.").join
    (Path.ofString "old_script_2"), "#!/bin/sh"⟩

def pleadingFolder : Site := (⟨⟨[]⟩, [], 0⟩ : Site).insert
  [Utf8.encode "Rename the file to bin.", Utf8.encode "old_script_2"] (.file (Utf8.encode "#!/bin/sh"))

def pleadingSettings : Settings := ⟨Path.ofString "/", ["Rename the file to bin."]⟩

theorem pleadingFound :
    .ok pleading ∈ Scan.all pleadingFolder.disk pleadingSettings.root pleadingSettings.folders := by
  have all : Scan.all pleadingFolder.disk pleadingSettings.root pleadingSettings.folders = [pleading].map .ok := by
    rw [Scan.allItems]
    cbv
  rw [all]
  exact List.mem_cons_self

theorem pleadingCured :
    .ok pleading ∈ Scan.all pleadingFolder.disk pleadingSettings.root pleadingSettings.folders ∧
    (Rule.hyphens.judge pleading).advised? = some "old-script-2" ∧
    ∀ path, (Rule.hyphens.judge (pleading.named "old-script-2" path)).passed = true := by
  have flat : pleadingFolder.disk.Flat := Site.flat (by decide +kernel)
  have judged : Rule.hyphens.judge pleading ∈ pleading.verdicts := by simp [Script.verdicts, Rule.all]
  have broken : (Rule.hyphens.judge pleading).passed = false := by decide +kernel
  have mended : Rule.hyphenated pleading.name = "old-script-2" := by decide +kernel
  obtain ⟨name, advised, _, _, _, _, cured, same, _⟩ := adviceCures flat pleadingFound judged rfl broken
  rw [mended] at same
  subst same
  exact ⟨pleadingFound, advised, fun path => (cured path).1⟩

end Settings

end ShellStyle
