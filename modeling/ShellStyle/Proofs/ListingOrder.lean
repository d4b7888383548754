import ShellStyle.Proofs.Counts
import ShellStyle.Proofs.Verdict

/-! Two runs over one tree whose directories are listed in different orders. Which failure ends a run may
depend on the order, but not whether one does. Without a failure the verdicts of a folder are permuted among
themselves, and nothing that is counted or gathered by file can tell the runs apart. -/
namespace ShellStyle
open Text

inductive SameListing : Except Cause (List Entry) → Except Cause (List Entry) → Prop where
  | refused (cause : Cause) : SameListing (.error cause) (.error cause)
  | listed {here there : List Entry} (order : here.Perm there) : SameListing (.ok here) (.ok there)

structure Disk.Reordered (a b : Disk) : Prop where
  current : a.current = b.current
  kind : a.kind = b.kind
  bytes : a.bytes = b.bytes
  entries : ∀ p, SameListing (a.entries p) (b.entries p)

namespace Scan

variable {a b : Disk}

theorem entryItemsReordered (h : a.Reordered b) : entryItems a = entryItems b := by
  funext folder path entry
  simp only [entryItems, h.kind, h.bytes]

theorem folderItemsReordered (h : a.Reordered b) (base : Path) (folder : String) :
    (folderItems a base folder).Perm (folderItems b base folder) := by
  have listing := h.entries (base.join (Path.ofString folder))
  rw [folderItems, folderItems, entryItemsReordered h]
  generalize a.entries (base.join (Path.ofString folder)) = here at listing ⊢
  generalize b.entries (base.join (Path.ofString folder)) = there at listing ⊢
  cases listing with
  | refused cause => exact List.Perm.refl _
  | listed order => exact order.flatMap_right _

theorem failureReordered (h : a.Reordered b) (base : Path) (folders : List String) (failure : Failure) :
    .error failure ∈ all a base folders ↔ .error failure ∈ all b base folders := by
  simp only [allItems, List.mem_flatMap, (folderItemsReordered h base _).mem_iff]

end Scan

namespace Outcome

structure Alike (o other : Outcome) : Prop where
  passed : o.passed = other.passed
  failed : o.failed.Perm other.failed

theorem alikeVerdicts {verdicts others : List Verdict} (order : verdicts.Perm others) :
    (ofVerdicts verdicts).Alike (ofVerdicts others) := by
  obtain ⟨passed, failed⟩ := ofVerdictsFields verdicts
  obtain ⟨passedThere, failedThere⟩ := ofVerdictsFields others
  constructor
  · rw [passed, passedThere]
    exact (order.filter _).length_eq
  · rw [failed, failedThere]
    exact (order.filter _).map _

theorem alikeClean {o other : Outcome} (h : o.Alike other) : o.clean = other.clean := h.failed.isEmpty_eq

end Outcome

namespace Report

section Permuted

variable {r other : Report} (order : r.verdicts.Perm other.verdicts)
include order

theorem keysReordered : r.keys = other.keys := by
  have here := keysSorted r
  have there := keysSorted other
  have members : ∀ key, key ∈ r.keys ↔ key ∈ other.keys := by
    intro key
    rw [keysMember, keysMember]
    exact (order.map Verdict.owner).mem_iff
  have same : r.keys.Perm other.keys :=
    (List.perm_ext_iff_of_nodup (Owner.sortedNodup here) (Owner.sortedNodup there)).mpr members
  refine List.Perm.eq_of_pairwise ?_ here there same
  intro a b _ _ before after
  exact absurd (Owner.beforeTransitive before after) (Owner.beforeIrreflexive a)

theorem ownedReordered (key : Owner) : (ownedBy r.verdicts key).Perm (ownedBy other.verdicts key) :=
  order.filter _

theorem outcomesReordered :
    List.Forall₂ (fun o there => o.1 = there.1 ∧ o.2.Alike there.2) r.outcomes other.outcomes := by
  rw [outcomesTally, outcomesTally, keysReordered order, tally, tally, List.forall₂_map_left_iff,
    List.forall₂_map_right_iff, List.forall₂_same]
  intro key _
  exact ⟨rfl, Outcome.alikeVerdicts (ownedReordered order key)⟩

theorem cleanFilesReordered : r.cleanFiles = other.cleanFiles := by
  have clean : ∀ key, (Outcome.ofVerdicts (ownedBy r.verdicts key)).clean =
      (Outcome.ofVerdicts (ownedBy other.verdicts key)).clean := fun key =>
    Outcome.alikeClean (Outcome.alikeVerdicts (ownedReordered order key))
  rw [cleanFilesKeys, cleanFilesKeys, keysReordered order]
  simp only [clean]

theorem failingFilesReordered : r.failingFiles = other.failingFiles := by
  have here := r.ownersCounted
  have there := other.ownersCounted
  have clean := cleanFilesReordered order
  have keys := congrArg List.length (keysReordered order)
  omega

theorem passedReordered : r.passed = other.passed := order.all_eq

theorem failuresReordered : r.failures.length = other.failures.length := (order.filter _).length_eq

end Permuted

theorem ownedScript (script : Script) (key : Owner) :
    ownedBy script.verdicts key = if script.owner = key then script.verdicts else [] := by
  have owner : ∀ v ∈ script.verdicts, v.owner = script.owner := fun v => Script.verdictOwner
  split
  · rename_i same
    exact List.filter_eq_self.mpr fun v given => decide_eq_true ((owner v given).trans same)
  · rename_i different
    refine List.filter_eq_nil_iff.mpr fun v given => ?_
    rw [owner v given, decide_eq_true_eq]
    exact different

theorem ownedScripts (scripts : List Script) (key : Owner) :
    ownedBy (ofScripts scripts).verdicts key =
      (scripts.filter (·.owner = key)).flatMap Script.verdicts := by
  induction scripts with
  | nil => rfl
  | cons script rest ih =>
    have own := ownedScript script key
    simp only [ofScripts, ownedBy, List.flatMap_cons, List.filter_append] at ih own ⊢
    rw [own, ih, List.filter_cons]
    split <;> simp_all

theorem permOfFew {α : Type} {l m : List α} (order : l.Perm m) (few : l.length ≤ 1) : l = m := by
  cases l with
  | nil => exact order.nil_eq
  | cons x rest =>
    have none : rest = [] := List.eq_nil_of_length_eq_zero (by simpa using few)
    subst none
    exact (List.perm_singleton.mp order.symm).symm

theorem ownedUnmoved {scripts others : List Script} (order : scripts.Perm others)
    (unique : (scripts.map Script.owner).Nodup) (key : Owner) :
    ownedBy (ofScripts scripts).verdicts key = ownedBy (ofScripts others).verdicts key := by
  have owners : ∀ owner ∈ (scripts.filter (·.owner = key)).map Script.owner, owner = key := by
    intro owner member
    obtain ⟨script, kept, rfl⟩ := List.mem_map.mp member
    exact of_decide_eq_true (List.mem_filter.mp kept).2
  have once : ((scripts.filter (·.owner = key)).map Script.owner).Nodup :=
    unique.sublist (List.filter_sublist.map _)
  have few : (scripts.filter (·.owner = key)).length ≤ 1 := by
    rw [List.eq_replicate_iff.mpr ⟨rfl, owners⟩, List.nodup_replicate, List.length_map] at once
    exact once
  rw [ownedScripts, ownedScripts, permOfFew (order.filter _) few]

theorem outcomesUnmoved {scripts others : List Script} (order : scripts.Perm others)
    (unique : (scripts.map Script.owner).Nodup) :
    (ofScripts scripts).outcomes = (ofScripts others).outcomes := by
  have verdicts : (ofScripts scripts).verdicts.Perm (ofScripts others).verdicts :=
    order.flatMap_right _
  rw [outcomesTally, outcomesTally, keysReordered verdicts, tally, tally]
  simp only [ownedUnmoved order unique]

end Report

namespace Settings

def filesIn (disk : Disk) (s : Settings) (folder : String) : List Script :=
  Script.among (Scan.folderItems disk s.root folder)

def block (disk : Disk) (s : Settings) (folder : String) : List Verdict :=
  (s.filesIn disk folder).flatMap Script.verdicts

variable {a b : Disk} {s : Settings}

theorem filesReordered (h : a.Reordered b) (folder : String) :
    (s.filesIn a folder).Perm (s.filesIn b folder) :=
  (Scan.folderItemsReordered h s.root folder).filterMap _

theorem blockReordered (h : a.Reordered b) (folder : String) :
    (s.block a folder).Perm (s.block b folder) :=
  (filesReordered h folder).flatMap_right _

theorem scriptsByFolder {scripts : List Script} (all : Scan.all a s.root s.folders = scripts.map .ok) :
    scripts = s.folders.flatMap (s.filesIn a) := by
  rw [← Script.amongOk scripts, ← all, Scan.allItems, Script.amongFolders]
  rfl

theorem verdictsByFolder {report : Report} (h : (s.lint a).2 = .ok report) :
    report.verdicts = s.folders.flatMap (s.block a) := by
  obtain ⟨scripts, all, rfl⟩ := lintOk.mp h
  rw [Report.ofScripts, scriptsByFolder all, List.flatMap_assoc]
  rfl

theorem finishesReordered (h : a.Reordered b) :
    (∃ report, (s.lint a).2 = .ok report) ↔ ∃ report, (s.lint b).2 = .ok report := by
  rw [lintFinishes, lintFinishes, readableIff, readableIff]
  exact forall_congr' fun failure => not_congr (Scan.failureReordered h s.root s.folders failure)

end Settings

namespace Command

variable {a b : Disk}

theorem resolveReordered (h : a.Reordered b) (arguments : Arguments) :
    resolve a arguments = resolve b arguments := by
  obtain ⟨current, kind, bytes, _⟩ := h
  obtain ⟨_, _, _, here⟩ := a
  obtain ⟨_, _, _, there⟩ := b
  subst current kind bytes
  rfl

theorem lintCodeReordered (h : a.Reordered b) (s : Settings) :
    code (s.lint a).2 = code (s.lint b).2 := by
  have finishes := @Settings.finishesReordered a b s h
  cases here : (s.lint a).2 with
  | error failure =>
    have unfinished : ¬ ∃ report, (s.lint b).2 = .ok report := by
      rw [← finishes, here]
      simp
    exact (codeTwo.mpr unfinished).symm
  | ok report =>
    obtain ⟨other, there⟩ := finishes.mp ⟨report, here⟩
    have order : report.verdicts.Perm other.verdicts := by
      rw [Settings.verdictsByFolder here, Settings.verdictsByFolder there]
      exact List.Perm.flatMap_left _ fun folder _ => Settings.blockReordered h folder
    rw [there, code, code, Report.passedReordered order]

theorem codeReordered (h : a.Reordered b) (env : Environment) (arguments : List String) :
    (run a env arguments).code = (run b env arguments).code := by
  cases parsed : Arguments.parse arguments with
  | error reason => simp only [run, parsed]
  | ok options =>
    rw [runCode parsed, runCode parsed, examine, examine, resolveReordered h]
    cases resolve b options with
    | error failure => rfl
    | ok settings => exact lintCodeReordered h settings

end Command

namespace Settings

variable {a b : Disk}

/- The rule lists of one file keep their order too, unless the file's folder and name belong to another file
of the run as well. -/
theorem listingOrder (h : a.Reordered b) (s : Settings) :
    ((∃ report, (s.lint a).2 = .ok report) ↔ ∃ report, (s.lint b).2 = .ok report) ∧
    (∀ here there, (s.lint a).2 = .ok here → (s.lint b).2 = .ok there →
      here.files = there.files ∧
      here.verdicts = s.folders.flatMap (s.block a) ∧ there.verdicts = s.folders.flatMap (s.block b) ∧
      (∀ folder, (s.filesIn a folder).Perm (s.filesIn b folder) ∧
        (s.block a folder).Perm (s.block b folder)) ∧
      here.verdicts.Perm there.verdicts ∧
      here.passed = there.passed ∧ here.failures.length = there.failures.length ∧
      here.cleanFiles = there.cleanFiles ∧ here.failingFiles = there.failingFiles ∧
      List.Forall₂ (fun o other => o.1 = other.1 ∧ o.2.Alike other.2) here.outcomes there.outcomes ∧
      (((s.folders.flatMap (s.filesIn a)).map Script.owner).Nodup → here.outcomes = there.outcomes)) ∧
    (∀ env arguments, (Command.run a env arguments).code = (Command.run b env arguments).code) := by
  refine ⟨finishesReordered h, ?_, Command.codeReordered h⟩
  intro here there hereOk thereOk
  obtain ⟨scripts, all, rfl⟩ := lintOk.mp hereOk
  obtain ⟨others, allThere, rfl⟩ := lintOk.mp thereOk
  have files : scripts.Perm others := by
    rw [scriptsByFolder all, scriptsByFolder allThere]
    exact List.Perm.flatMap_left _ fun folder _ => filesReordered h folder
  have order : (Report.ofScripts scripts).verdicts.Perm (Report.ofScripts others).verdicts :=
    files.flatMap_right _
  refine ⟨files.length_eq, verdictsByFolder hereOk, verdictsByFolder thereOk,
    fun folder => ⟨filesReordered h folder, blockReordered h folder⟩, order,
    Report.passedReordered order, Report.failuresReordered order, Report.cleanFilesReordered order,
    Report.failingFilesReordered order, Report.outcomesReordered order, ?_⟩
  rw [← scriptsByFolder all]
  exact Report.outcomesUnmoved files

end Settings

def Disk.backwards (disk : Disk) : Disk :=
  { disk with entries := fun p => (disk.entries p).map List.reverse }

theorem Disk.reorderedBackwards (disk : Disk) : disk.Reordered disk.backwards := by
  refine ⟨rfl, rfl, rfl, fun p => ?_⟩
  simp only [backwards]
  cases disk.entries p with
  | error cause => exact .refused cause
  | ok entries => exact .listed entries.reverse_perm.symm

namespace Settings

def oldTool : Script := ⟨"bin", "old_script", Path.ofString "/bin/old_script", "echo"⟩

def twoFiles : Site :=
  ((⟨⟨[]⟩, [], 0⟩ : Site).insert [Utf8.encode "bin", Utf8.encode "list-items"]
    (.file (Utf8.encode "#!/bin/sh -h"))).insert
    [Utf8.encode "bin", Utf8.encode "old_script"] (.file (Utf8.encode "echo"))

theorem twoFilesBackwards :
    twoFiles.disk.Reordered twoFiles.disk.backwards ∧
    (Report.ofScripts [listItems, oldTool]).verdicts ≠ (Report.ofScripts [oldTool, listItems]).verdicts ∧
    (Report.ofScripts [listItems, oldTool]).verdicts.Perm (Report.ofScripts [oldTool, listItems]).verdicts ∧
    (Report.ofScripts [listItems, oldTool]).outcomes = (Report.ofScripts [oldTool, listItems]).outcomes := by
  have forwards : Scan.all twoFiles.disk (Path.ofString "/") ["bin"] = [listItems, oldTool].map .ok := by
    rw [Scan.allItems]
    cbv
  have backwards : Scan.all twoFiles.disk.backwards (Path.ofString "/") ["bin"] =
      [oldTool, listItems].map .ok := by
    rw [Scan.allItems]
    cbv
  have files : (["bin"].flatMap
      ((⟨Path.ofString "/", ["bin"]⟩ : Settings).filesIn twoFiles.disk)) = [listItems, oldTool] :=
    (scriptsByFolder forwards).symm
  have reordered := twoFiles.disk.reorderedBackwards
  obtain ⟨_, reports, _⟩ := listingOrder reordered ⟨Path.ofString "/", ["bin"]⟩
  obtain ⟨_, _, _, _, order, _, _, _, _, _, outcomes⟩ := reports _ _ (lintOk.mpr ⟨_, forwards, rfl⟩)
    (lintOk.mpr ⟨_, backwards, rfl⟩)
  refine ⟨reordered, by decide, order, outcomes ?_⟩
  rw [files]
  decide

end Settings

end ShellStyle
