import ShellStyle.Proofs.FirstFailure
import ShellStyle.Proofs.ListingOrder
import ShellStyle.Proofs.Sections

/-! The verdicts of a run as a table that is written row by row. Every script has a row of three verdicts, one
for each rule in the order of the rules, so the place of a verdict tells its script and its rule. The verdicts
under one title are a column, and the rows of one owner are what its outcome counts. -/
namespace ShellStyle
open Text

namespace Report

variable {scripts : List Script}

theorem verdictsAt {i j : Nat} {script : Script} {rule : Rule} (scanned : scripts[i]? = some script)
    (ordered : Rule.all[j]? = some rule) :
    (ofScripts scripts).verdicts[3 * i + j]? = some (rule.judge script) := by
  obtain ⟨small, _⟩ := List.getElem?_eq_some_iff.mp ordered
  have inside : j < 3 := small
  induction scripts generalizing i with
  | nil => cases scanned
  | cons first rest ih =>
    have row : first.verdicts.length = 3 := first.verdictsLength
    have split : (ofScripts (first :: rest)).verdicts = first.verdicts ++ (ofScripts rest).verdicts := rfl
    cases i with
    | zero =>
      cases scanned
      rw [split, Nat.mul_zero, Nat.zero_add, List.getElem?_append_left (by omega), Script.verdicts,
        List.getElem?_map, ordered, Option.map_some]
    | succ i =>
      have below : 3 * (i + 1) + j - 3 = 3 * i + j := by omega
      rw [split, List.getElem?_append_right (by omega), row, below]
      exact ih scanned

theorem rowColumn (script : Script) (rule : Rule) :
    script.verdicts.filter (·.check == rule.title) = [rule.judge script] := by
  have titled : ∀ other : Rule, ((other.judge script).check == rule.title) = decide (other = rule) := by
    intro other
    have titles : other.title = rule.title ↔ other = rule := ⟨Rule.titleInjective, congrArg _⟩
    rw [beq_eq_decide, Rule.judge, decide_eq_decide]
    exact titles
  have alone : Rule.all.filter (· = rule) = [rule] := by cases rule <;> rfl
  rw [Script.verdicts, List.filter_map]
  simp only [Function.comp_def, titled, alone, List.map_cons, List.map_nil]

theorem verdictsColumn (scripts : List Script) (rule : Rule) :
    (ofScripts scripts).verdictsFor rule.title = scripts.map rule.judge := by
  rw [verdictsFor, ofScripts]
  induction scripts with
  | nil => rfl
  | cons script rest ih =>
    rw [List.flatMap_cons, List.filter_append, rowColumn, ih, List.map_cons, List.singleton_append]

theorem columnsShared (scripts : List Script) :
    (Rule.titles.flatMap (ofScripts scripts).verdictsFor).Perm (ofScripts scripts).verdicts := by
  have columns : (ofScripts scripts).verdictsFor =
      fun title => (ofScripts scripts).verdicts.filter (·.check = title) := by
    funext title
    simp only [verdictsFor, beq_eq_decide]
  rw [columns]
  exact titledSharedOut (scriptsTitled scripts)

theorem columnLength {title : String} (known : title ∈ Rule.titles) :
    ((ofScripts scripts).verdictsFor title).length = scripts.length := by
  obtain ⟨rule, _, rfl⟩ := List.mem_map.mp known
  rw [verdictsColumn, List.length_map]

theorem columnsAlone {name : String} (unknown : name ∉ Rule.titles) :
    (ofScripts scripts).verdictsFor name = [] := by
  rw [verdictsFor, List.filter_eq_nil_iff]
  intro v member same
  exact unknown (beq_iff_eq.mp same ▸ scriptsTitled scripts v member)

theorem ownedRows (scripts : List Script) (key : Owner) :
    (ownedBy (ofScripts scripts).verdicts key).length = 3 * (scripts.map Script.owner).count key := by
  have rows := verdictsLength (scripts.filter (·.owner = key))
  rw [ownedScripts, List.count_eq_countP, List.countP_map, List.countP_eq_length_filter]
  exact rows

theorem outcomeRowsCounted {entry : Owner × Outcome} (member : entry ∈ (ofScripts scripts).outcomes) :
    entry.2.passed + entry.2.failed.length = 3 * (scripts.map Script.owner).count entry.1 := by
  rw [outcomesTally, tally] at member
  obtain ⟨key, _, rfl⟩ := List.mem_map.mp member
  exact (outcomeSize _).trans (ownedRows scripts key)

end Report

namespace Settings

/- The titles are those of the rules in the same order, so the j-th verdict of a row bears the j-th title. -/
theorem fixedStride {disk : Disk} {s : Settings} {report : Report} (h : (s.lint disk).2 = .ok report) :
    ∃ scripts : List Script, Scan.all disk s.root s.folders = scripts.map .ok ∧
      report.files = scripts.length ∧ report.verdicts.length = 3 * report.files ∧
      (∀ i < report.files, ∀ j < 3, ∃ script title v, scripts[i]? = some script ∧
        Rule.titles[j]? = some title ∧ report.verdicts[3 * i + j]? = some v ∧
        v.folder = script.folder ∧ v.file = script.name ∧ v.check = title ∧
        (report.verdictsFor title)[i]? = some v) ∧
      (∀ title ∈ Rule.titles, (report.verdictsFor title).length = report.files) ∧
      (Rule.titles.flatMap report.verdictsFor).Perm report.verdicts ∧
      (∀ name, name ∉ Rule.titles → report.verdictsFor name = []) ∧
      (∀ key, key ∈ report.outcomes.map (·.1) ↔ key ∈ scripts.map Script.owner) ∧
      (∀ entry ∈ report.outcomes, entry.2.passed + entry.2.failed.length =
        3 * (scripts.map Script.owner).count entry.1) ∧
      report.outcomes.length = (scripts.map Script.owner).dedup.length := by
  obtain ⟨scripts, all, rfl⟩ := lintOk.mp h
  have keys : ∀ key, key ∈ (Report.ofScripts scripts).outcomes.map (·.1) ↔ key ∈ scripts.map Script.owner := by
    intro key
    rw [Report.outcomeKeys]
    exact Report.keysOfScripts scripts key
  have owners : (Report.ofScripts scripts).outcomes.length = (scripts.map Script.owner).dedup.length := by
    rw [Report.outcomesTally, Report.tally, List.length_map]
    exact Report.keysLength scripts
  refine ⟨scripts, all, rfl, Report.verdictsLength scripts, ?_, fun _ => Report.columnLength,
    Report.columnsShared scripts, fun _ => Report.columnsAlone, keys, fun _ => Report.outcomeRowsCounted, owners⟩
  intro i inside j small
  have scanned : scripts[i]? = some scripts[i] := List.getElem?_eq_getElem inside
  have ordered : Rule.all[j]? = some Rule.all[j] := List.getElem?_eq_getElem small
  have title : Rule.titles[j]? = some Rule.all[j].title := by
    rw [Rule.titles, List.getElem?_map, ordered, Option.map_some]
  have column : ((Report.ofScripts scripts).verdictsFor Rule.all[j].title)[i]? =
      some (Rule.all[j].judge scripts[i]) := by
    rw [Report.verdictsColumn, List.getElem?_map, scanned, Option.map_some]
  exact ⟨_, _, _, scanned, title, Report.verdictsAt scanned ordered, rfl, rfl, rfl, column⟩

def libTwice : Settings := ⟨Path.ofString "/", ["lib", "bin", "lib"]⟩

theorem libTwiceFound : Scan.all twoFolders.disk libTwice.root libTwice.folders =
    [oldScript, listItems, oldScript].map .ok := by
  rw [Scan.allItems]
  cbv

theorem libTwiceLinted :
    (libTwice.lint twoFolders.disk).2 = .ok (Report.ofScripts [oldScript, listItems, oldScript]) :=
  lintOk.mpr ⟨_, libTwiceFound, rfl⟩

theorem libTwiceTabled :
    (libTwice.lint twoFolders.disk).2 = .ok (Report.ofScripts [oldScript, listItems, oldScript]) ∧
    (∃ v, (Report.ofScripts [oldScript, listItems, oldScript]).verdicts[7]? = some v ∧
      v.folder = "lib" ∧ v.file = "old_script" ∧ v.check = "Help parameter") ∧
    ∀ entry ∈ (Report.ofScripts [oldScript, listItems, oldScript]).outcomes,
      entry.1 = ⟨"lib", "old_script"⟩ → entry.2.passed + entry.2.failed.length = 6 := by
  obtain ⟨scripts, all, _, _, places, _, _, _, _, sizes, _⟩ := fixedStride libTwiceLinted
  have same : scripts = [oldScript, listItems, oldScript] := by
    rw [← Script.amongOk scripts, ← all, libTwiceFound, Script.amongOk]
  subst same
  obtain ⟨_, _, v, scanned, titled, placed, folder, file, check, _⟩ := places 2 (by decide) 1 (by decide)
  cases scanned
  cases titled
  have twice : ([oldScript, listItems, oldScript].map Script.owner).count ⟨"lib", "old_script"⟩ = 2 := by decide
  refine ⟨libTwiceLinted, ⟨v, placed, folder, file, check⟩, ?_⟩
  intro entry member own
  rw [sizes entry member, own, twice]

end Settings

end ShellStyle
