import ShellStyle.Proofs.JsonDocument
import ShellStyle.Proofs.Table

/-! The numbers of a summary counted once more. All that a document says in its summary can be had from the
results beside it, and the text of the same run shows the same numbers. The results are taken from the written
document, so whoever reads it can check its summary. -/
namespace ShellStyle
open Text
open Json (Value)

structure Summary where
  checks : Nat
  failures : Nat
  files : Nat
  passed : Bool
  passingFiles : Nat
  deriving DecidableEq, Repr

def Summary.ofValue (v : Value) : Option Summary := do
  let summary ← v.field? "summary"
  let checks ← (summary.field? "checks").bind Value.count?
  let failures ← (summary.field? "failures").bind Value.count?
  let files ← (summary.field? "files").bind Value.count?
  let passed ← (summary.field? "passed").bind Value.flag?
  let passingFiles ← (summary.field? "passingFiles").bind Value.count?
  some ⟨checks, failures, files, passed, passingFiles⟩

namespace Report

def clearOwners (verdicts : List Verdict) : List Owner :=
  (verdicts.map Verdict.owner).dedup.filter fun key => ∀ v ∈ verdicts, v.owner = key → v.passed = true

def brokenOwners (verdicts : List Verdict) : List Owner :=
  ((verdicts.filter (!·.passed)).map Verdict.owner).dedup

theorem documentRead (r : Report) : Json.read r.document = some r.value := by
  rw [document, Json.renderRead, toJsonValue]

theorem summaryFound (r : Report) : Summary.ofValue r.value =
    some ⟨r.verdicts.length, r.failures.length, r.files, r.passed, r.cleanFiles⟩ := by
  simp [Summary.ofValue, value, Value.field?, Value.count?, Value.flag?, List.lookup_cons]

theorem resultsFound (r : Report) :
    (r.value.field? "results").bind Value.items? = some (r.verdicts.map Verdict.value) := by
  simp [value, Value.field?, Value.items?]

theorem passedCount (r : Report) : r.passed = true ↔ r.failures.length = 0 := by
  rw [passedIff, List.length_eq_zero_iff]

theorem summaryCounted (r : Report) : Styled.render false r.summary = summaryOpening ++
    (if r.failures.length = 0 then passedText r.files
      else failedText r.failingFiles r.files r.failures.length) := by
  rw [summaryPrinted, summaryText]
  simp only [passedCount]

theorem clearOwnersCounted (r : Report) : r.cleanFiles = (clearOwners r.verdicts).length := by
  have keys : r.keys.Perm (r.verdicts.map Verdict.owner).dedup := keysPerm (keysMember r)
  have clear : ∀ key, (Outcome.ofVerdicts (ownedBy r.verdicts key)).clean =
      decide (∀ v ∈ r.verdicts, v.owner = key → v.passed = true) := by
    intro key
    rw [Bool.eq_iff_iff, Outcome.cleanIff, decide_eq_true_iff]
    simp only [ownedByMember, and_imp]
  simp only [cleanFilesKeys, clear]
  exact (keys.filter _).length_eq

theorem brokenOwnersMember {verdicts : List Verdict} {key : Owner} :
    key ∈ brokenOwners verdicts ↔ ∃ v ∈ verdicts, v.owner = key ∧ v.passed = false := by
  simp only [brokenOwners, List.mem_dedup, List.mem_map, List.mem_filter, Bool.not_eq_true', and_assoc,
    and_comm (a := _ = false)]

theorem brokenOwnersCounted (r : Report) : r.failingFiles = (brokenOwners r.verdicts).length := by
  have failing : r.failingFiles = (r.keys.filter fun key =>
      !(Outcome.ofVerdicts (ownedBy r.verdicts key)).clean).length := by
    rw [failingFiles, outcomesTally, tally, List.filter_map, List.length_map]
    rfl
  have unclean : ∀ key, (!(Outcome.ofVerdicts (ownedBy r.verdicts key)).clean) = true ↔
      key ∈ brokenOwners r.verdicts := by
    intro key
    rw [Bool.not_eq_true', ← Bool.not_eq_true, Outcome.cleanIff, brokenOwnersMember]
    simp [ownedByMember]
  have known : ∀ key ∈ brokenOwners r.verdicts, key ∈ r.keys := by
    intro key member
    obtain ⟨v, inside, rfl, _⟩ := brokenOwnersMember.mp member
    exact keysKnown r v inside
  have unique : r.keys.Nodup := Owner.sortedNodup (keysSorted r)
  have same : (r.keys.filter fun key => !(Outcome.ofVerdicts (ownedBy r.verdicts key)).clean).Perm
      (brokenOwners r.verdicts) := by
    apply (List.perm_ext_iff_of_nodup (unique.filter _) (List.nodup_dedup _)).mpr
    intro key
    rw [List.mem_filter, unclean]
    exact ⟨And.right, fun member => ⟨known key member, member⟩⟩
  rw [failing]
  exact same.length_eq

theorem cleanFilesFew (scripts : List Script) : (ofScripts scripts).cleanFiles ≤ (ofScripts scripts).files := by
  have counted := (ofScripts scripts).ownersCounted
  calc (ofScripts scripts).cleanFiles ≤ (ofScripts scripts).keys.length := by omega
    _ = (scripts.map Script.owner).dedup.length := keysLength scripts
    _ ≤ (scripts.map Script.owner).length := (List.dedup_sublist _).length_le
    _ = (ofScripts scripts).files := List.length_map _

theorem brokenOwnersFew (verdicts : List Verdict) :
    (brokenOwners verdicts).length ≤ (verdicts.filter (!·.passed)).length := by
  have few := (List.dedup_sublist ((verdicts.filter (!·.passed)).map Verdict.owner)).length_le
  rwa [List.length_map] at few

end Report

namespace Settings

/- The results and the summary are those that a reader finds in the text of the document. -/
theorem summaryRecounted {disk : Disk} {s : Settings} {report : Report} (h : (s.lint disk).2 = .ok report) :
    ∃ value entries results summary, Json.read report.document = some value ∧
      (value.field? "results").bind Value.items? = some entries ∧
      entries.mapM Verdict.ofValue = some results ∧ Summary.ofValue value = some summary ∧
      summary.checks = entries.length ∧ summary.checks = 3 * summary.files ∧
      summary.failures = (results.filter (!·.passed)).length ∧
      (summary.passed = true ↔ summary.failures = 0) ∧
      summary.passingFiles = (Report.clearOwners results).length ∧ summary.passingFiles ≤ summary.files ∧
      Styled.render false report.summary = Report.summaryOpening ++
        (if summary.failures = 0 then Report.passedText summary.files
          else Report.failedText (Report.brokenOwners results).length summary.files summary.failures) ∧
      (Report.brokenOwners results).length ≤ summary.failures ∧ summary.failures ≤ summary.checks := by
  obtain ⟨scripts, _, rfl⟩ := lintOk.mp h
  have shown := (Report.ofScripts scripts).summaryCounted
  rw [Report.brokenOwnersCounted] at shown
  exact ⟨_, _, (Report.ofScripts scripts).verdicts, _, Report.documentRead _, Report.resultsFound _,
    Report.verdictsFound _, Report.summaryFound _, (List.length_map _).symm, Report.verdictsLength scripts, rfl,
    Report.passedCount _, Report.clearOwnersCounted _, Report.cleanFilesFew scripts, shown, Report.brokenOwnersFew _,
    List.length_filter_le _ _⟩

theorem libTwiceRecounted :
    (libTwice.lint twoFolders.disk).2 = .ok (Report.ofScripts [oldScript, listItems, oldScript]) ∧
    (∃ value, Json.read (Report.ofScripts [oldScript, listItems, oldScript]).document = some value ∧
      Summary.ofValue value = some ⟨9, 6, 3, false, 1⟩) ∧
    Styled.render false (Report.ofScripts [oldScript, listItems, oldScript]).summary =
      Report.summaryOpening ++ Report.failedText 1 3 6 := by
  have numbers : Summary.ofValue (Report.ofScripts [oldScript, listItems, oldScript]).value =
      some ⟨9, 6, 3, false, 1⟩ := by
    have failures : (Report.ofScripts [oldScript, listItems, oldScript]).failures.length = 6 := by decide +kernel
    have clear : (Report.clearOwners (Report.ofScripts [oldScript, listItems, oldScript]).verdicts).length = 1 := by
      decide +kernel
    have passed : (Report.ofScripts [oldScript, listItems, oldScript]).passed = false := by decide +kernel
    rw [Report.summaryFound, failures, passed, Report.clearOwnersCounted, clear]
    rfl
  have failing : (Report.brokenOwners (Report.ofScripts [oldScript, listItems, oldScript]).verdicts).length = 1 := by
    decide +kernel
  obtain ⟨value, entries, results, summary, written, found, listed, said, _, _, _, _, _, _, shown, _⟩ :=
    summaryRecounted libTwiceLinted
  obtain rfl := Option.some.inj (written.symm.trans (Report.documentRead _))
  obtain rfl := Option.some.inj (found.symm.trans (Report.resultsFound _))
  obtain rfl := Option.some.inj (listed.symm.trans (Report.verdictsFound _))
  obtain rfl := Option.some.inj (said.symm.trans numbers)
  rw [failing] at shown
  exact ⟨libTwiceLinted, ⟨_, written, said⟩, shown⟩

end Settings

end ShellStyle
