import Mathlib
import ShellStyle.Lint
import ShellStyle.Proofs.Enumeration
import ShellStyle.Tree

/-! A run as the finds of its scan: the report takes the scripts in one by one, with all their verdicts,
and the first failure among the finds ends the run. -/
namespace ShellStyle

def Report.collect : List Found → Report → Except Failure Report
  | [], r => .ok r
  | .error failure :: _, _ => .error failure
  | .ok script :: rest, r => collect rest (r.add script)

def Report.ofScripts (scripts : List Script) : Report :=
  ⟨scripts.flatMap Script.verdicts, scripts.length⟩

theorem Report.gatherCollect (disk : Disk) (s : Scan) (r : Report) :
    (gather (s.turns disk) r).2 = collect ((s.turns disk).filterMap (·.found)) r := by
  fun_induction Scan.turns disk s generalizing r with
  | case1 s h => simp [gather, h, collect]
  | case2 s found h ih =>
    cases found with
    | error failure => simp [gather, h, collect]
    | ok script => simp [gather, h, collect, ih]

theorem Report.collectOk {items : List Found} {r whole : Report} :
    collect items r = .ok whole ↔ ∃ scripts : List Script, items = scripts.map .ok ∧
      whole = ⟨r.verdicts ++ scripts.flatMap Script.verdicts, r.files + scripts.length⟩ := by
  induction items generalizing r with
  | nil =>
    refine ⟨?_, ?_⟩
    · intro same
      cases same
      exact ⟨[], rfl, by simp⟩
    · intro holds
      obtain ⟨scripts, none, rfl⟩ := holds
      cases List.map_eq_nil_iff.mp none.symm
      simp [collect]
  | cons item rest ih =>
    cases item with
    | error failure =>
      refine ⟨?_, ?_⟩
      · intro refused
        cases refused
      · intro holds
        obtain ⟨scripts, all, _⟩ := holds
        cases scripts <;> simp at all
    | ok script =>
      rw [collect, ih]
      refine ⟨?_, ?_⟩
      · intro holds
        obtain ⟨scripts, rfl, rfl⟩ := holds
        refine ⟨script :: scripts, rfl, ?_⟩
        simp [add, Nat.add_assoc, Nat.add_comm 1]
      · intro holds
        obtain ⟨scripts, all, rfl⟩ := holds
        cases scripts with
        | nil => simp at all
        | cons first more =>
          obtain ⟨same, rfl⟩ := List.cons.inj all
          cases same
          exact ⟨more, rfl, by simp [add, Nat.add_assoc, Nat.add_comm 1]⟩

theorem Settings.lintCollect (disk : Disk) (s : Settings) :
    (s.lint disk).2 = Report.collect (Scan.all disk s.root s.folders) Report.empty :=
  Report.gatherCollect disk (Scan.start s.root s.folders) Report.empty

theorem Settings.lintOk {disk : Disk} {s : Settings} {report : Report} :
    (s.lint disk).2 = .ok report ↔ ∃ scripts : List Script,
      Scan.all disk s.root s.folders = scripts.map .ok ∧ report = Report.ofScripts scripts := by
  rw [lintCollect, Report.collectOk]
  simp [Report.empty, Report.ofScripts]

namespace Settings
open Text

def listItems : Script := ⟨"bin", "list-items", Path.ofString "/bin/list-items", "#!/bin/sh -h"⟩

def oldScript : Script := ⟨"lib", "old_script", Path.ofString "/lib/old_script", "echo"⟩

def twoFolders : Site :=
  ((⟨⟨[]⟩, [], 0⟩ : Site).insert [Utf8.encode "bin", Utf8.encode "list-items"]
    (.file (Utf8.encode "#!/bin/sh -h"))).insert
    [Utf8.encode "lib", Utf8.encode "old_script"] (.file (Utf8.encode "echo"))

theorem twoFoldersLinted :
    ((⟨Path.ofString "/", ["bin", "lib"]⟩ : Settings).lint twoFolders.disk).2 =
      .ok (Report.ofScripts [listItems, oldScript]) := by
  have found : Scan.all twoFolders.disk (Path.ofString "/") ["bin", "lib"] =
      [listItems, oldScript].map .ok := by
    rw [Scan.allItems]
    cbv
  exact lintOk.mpr ⟨_, found, rfl⟩

end Settings

end ShellStyle
