import ShellStyle.Command
import ShellStyle.Proofs.Aggregation

/-! The text of a report against the report. A section shows the broken verdicts of one rule and no others,
and the rules' titles share the broken verdicts out among the sections, so what the sections show adds up
to what the summary and the JSON document count. This needs verdicts that bear the title of a rule, as those
of every run do. -/
namespace ShellStyle
open Text

namespace Report

def headerText : String := "\n=== Function Conventions ===\n\n"

def cleanLine (check : String) : String := "✓ " ++ check ++ ": clean\n"

def brokenLines (check : String) (messages : List String) : String :=
  "✗ " ++ check ++ ": " ++ toString messages.length ++ " violation(s)\n\n"
    ++ String.join (messages.map fun message => "  " ++ message ++ "\n") ++ "\n"

def summaryOpening : String := "\n--- Summary ---\n\n"

def passedText (files : Nat) : String :=
  "All " ++ toString files ++ " file(s) passed 3 check(s).\n\n"

def failedText (failing files violations : Nat) : String :=
  toString failing ++ "/" ++ toString files ++ " file(s) failed with " ++ toString violations
    ++ " total violation(s).\n\n"

def broken (r : Report) (check : String) : List Verdict := r.failures.filter (·.check = check)

def Clean (r : Report) (check : String) : Prop := ∀ v ∈ r.verdicts, v.check = check → v.passed = true

instance (r : Report) (check : String) : Decidable (r.Clean check) :=
  inferInstanceAs (Decidable (∀ v ∈ r.verdicts, v.check = check → v.passed = true))

def sectionText (r : Report) (check : String) : String :=
  if r.Clean check then cleanLine check else brokenLines check ((r.broken check).map (·.message))

def summaryText (r : Report) (violations : Nat) : String :=
  summaryOpening ++ if r.passed then passedText r.files else failedText r.failingFiles r.files violations

theorem cleanIff {r : Report} {check : String} : r.Clean check ↔ r.broken check = [] := by
  simp only [Clean, broken, failures, List.filter_filter, List.filter_eq_nil_iff, Bool.and_eq_true,
    decide_eq_true_eq, Bool.not_eq_true', not_and, Bool.not_eq_false]

theorem brokenColumn (r : Report) (check : String) :
    r.broken check = (r.verdictsFor check).filter (!·.passed) := by
  simp only [broken, failures, verdictsFor, beq_eq_decide]
  exact List.filter_comm _ _ _

theorem violationsBroken (r : Report) (check : String) :
    r.violations check = (r.broken check).map (·.message) := by
  rw [violations, brokenColumn]

theorem messageLines (messages : List String) :
    Styled.render false (messages.flatMap fun m => Styled.plain "  " ++ Styled.styled .dimmed m ++ newline) =
      String.join (messages.map fun message => "  " ++ message ++ "\n") := by
  induction messages with
  | nil => rfl
  | cons message rest ih =>
    rw [List.flatMap_cons, Styled.renderAppend, ih]
    simp [Styled.renderUncoloured, Styled.plain, Styled.styled, newline, String.append_assoc]

theorem headlinePrinted (style : Style) (mark check state : String) :
    Styled.render false (headline style mark check state) = mark ++ " " ++ check ++ ": " ++ state ++ "\n" := by
  simp [headline, newline, Styled.renderUncoloured, Styled.plain, Styled.styled, String.append_assoc]

theorem checkTextPrinted (r : Report) (check : String) :
    Styled.render false (r.checkText check) = r.sectionText check := by
  rw [checkText, violationsBroken, sectionText]
  cases messages : (r.broken check).map (·.message) with
  | nil =>
    have clean : r.Clean check := cleanIff.mpr (List.map_eq_nil_iff.mp messages)
    rw [if_pos clean, ruleSection, headlinePrinted, cleanLine]
    simp [← String.toList_inj]
  | cons message rest =>
    have unclean : ¬ r.Clean check := by
      intro clean
      rw [cleanIff.mp clean] at messages
      cases messages
    simp only [if_neg unclean, brokenLines, ruleSection]
    rw [Styled.renderAppend, Styled.renderAppend, Styled.renderAppend, messageLines, headlinePrinted,
      newline, Styled.renderPlain]
    simp [← String.toList_inj]

theorem headerPrinted : Styled.render false header = headerText := by
  simp [header, headerText, newline, Styled.renderUncoloured, Styled.plain, Styled.styled]

theorem summaryPrinted (r : Report) :
    Styled.render false r.summary = r.summaryText r.failures.length := by
  unfold summaryText summaryOpening
  cases h : r.passed with
  | false =>
    rw [summaryBroken h, if_neg Bool.false_ne_true]
    unfold failedText
    simp [← String.toList_inj]
  | true =>
    have titles : Rule.titles.length = 3 := rfl
    have three : Nat.toDigits 10 3 = ['3'] := rfl
    rw [if_pos rfl, summary, closing, h, if_pos rfl, titles]
    unfold passedText
    simp [← String.toList_inj, Styled.renderUncoloured, Styled.plain, Styled.styled, newline, three]

theorem textPrinted (r : Report) : Styled.render false r.text =
    headerText ++ String.join (Rule.titles.map r.sectionText) ++ r.summaryText r.failures.length := by
  have sections : ∀ titles : List String, Styled.render false (titles.flatMap r.checkText) =
      String.join (titles.map r.sectionText) := by
    intro titles
    induction titles with
    | nil => rfl
    | cons title rest ih =>
      rw [List.flatMap_cons, Styled.renderAppend, ih, checkTextPrinted]
      simp
  rw [text, Styled.renderAppend, Styled.renderAppend, headerPrinted, sections, summaryPrinted]

theorem cleanLineAlone (check other : String) (messages : List String) :
    cleanLine check ≠ brokenLines other messages := by
  intro same
  have first := congrArg (fun text => text.toList.head?) same
  simp [cleanLine, brokenLines] at first

theorem sectionClean {r : Report} {check : String} :
    r.sectionText check = cleanLine check ↔ r.Clean check := by
  rw [sectionText]
  split
  · rename_i clean
    exact iff_of_true rfl clean
  · rename_i unclean
    exact iff_of_false (cleanLineAlone check check _).symm unclean

theorem passedHead (files : Nat) : (passedText files).toList.head? = some 'A' := by simp [passedText]

theorem failedHead (failing files violations : Nat) : ∃ digit : Char,
    (failedText failing files violations).toList.head? = some digit ∧ digit.isDigit = true := by
  obtain ⟨digit, more, number⟩ := List.exists_cons_of_ne_nil (@Nat.toDigits_ne_nil failing 10)
  have member : digit ∈ Nat.toDigits 10 failing := by
    rw [number]
    exact List.mem_cons_self
  refine ⟨digit, ?_, Nat.isDigit_of_mem_toDigits (by decide) (by decide) member⟩
  simp [failedText, number]

theorem passedTextAlone (files failing others violations : Nat) :
    passedText files ≠ failedText failing others violations := by
  intro same
  obtain ⟨digit, first, isDigit⟩ := failedHead failing others violations
  rw [← same, passedHead] at first
  cases Option.some.inj first
  cases isDigit

theorem summaryPassed {r : Report} {violations : Nat} :
    r.summaryText violations = summaryOpening ++ passedText r.files ↔ r.passed = true := by
  rw [summaryText]
  split
  · rename_i passed
    exact iff_of_true rfl passed
  · rename_i failed
    refine iff_of_false ?_ failed
    rw [String.append_right_inj]
    exact (passedTextAlone _ _ _ _).symm

theorem titlesDistinct : Rule.titles.Nodup := by decide

theorem titledSharedOut {verdicts : List Verdict} (titled : ∀ v ∈ verdicts, v.check ∈ Rule.titles) :
    (Rule.titles.flatMap fun title => verdicts.filter (·.check = title)).Perm verdicts := by
  have every : verdicts.filter (·.check ∈ Rule.titles) = verdicts :=
    List.filter_eq_self.mpr fun v member => decide_eq_true (titled v member)
  have shared := sharedOut Verdict.check verdicts Rule.titles titlesDistinct
  rwa [every] at shared

theorem brokenSharedOut {r : Report} (titled : ∀ v ∈ r.verdicts, v.check ∈ Rule.titles) :
    (Rule.titles.flatMap r.broken).Perm r.failures :=
  titledSharedOut fun v broken => titled v (List.mem_filter.mp broken).1

theorem scriptsTitled (scripts : List Script) :
    ∀ v ∈ (ofScripts scripts).verdicts, v.check ∈ Rule.titles := by
  intro v member
  obtain ⟨script, _, given⟩ := List.mem_flatMap.mp member
  obtain ⟨rule, known, rfl⟩ := List.mem_map.mp given
  exact List.mem_map.mpr ⟨rule, known, rfl⟩

theorem passedClean {r : Report} (titled : ∀ v ∈ r.verdicts, v.check ∈ Rule.titles) :
    r.passed = true ↔ ∀ title ∈ Rule.titles, r.Clean title := by
  rw [passed, List.all_eq_true]
  constructor
  · intro passed title _ v member _
    exact passed v member
  · intro clean v member
    exact clean v.check (titled v member) v member rfl

end Report

namespace Settings

/- The number behind the last slash of a failed summary is the number of lines in the sections. -/
theorem textComplete {disk : Disk} {s : Settings} {report : Report} {a : Arguments}
    (h : (s.lint disk).2 = .ok report) (printed : a.json = false) :
    (Command.output false a report).1 = Report.headerText
      ++ String.join (Rule.titles.map report.sectionText)
      ++ report.summaryText (Rule.titles.map fun title => (report.broken title).length).sum ∧
    (∀ title ∈ Rule.titles, (report.sectionText title = Report.cleanLine title ↔
        ∀ v ∈ report.verdicts, v.check = title → v.passed = true) ∧
      (report.sectionText title ≠ Report.cleanLine title → report.sectionText title =
        Report.brokenLines title ((report.broken title).map (·.message))) ∧
      report.broken title = report.verdicts.filter fun v => v.check = title ∧ v.passed = false) ∧
    (Rule.titles.flatMap report.broken).Perm report.failures ∧
    (Rule.titles.map fun title => (report.broken title).length).sum = report.failures.length ∧
    report.summaryField "failures" =
      some (.number (Rule.titles.map fun title => (report.broken title).length).sum) ∧
    (Command.output false a report).2 = report.passed ∧
    (report.passed = true ↔ ∀ title ∈ Rule.titles, report.sectionText title = Report.cleanLine title) ∧
    (∀ violations, report.passed = true ↔
      report.summaryText violations = Report.summaryOpening ++ Report.passedText report.files) := by
  have plain : Command.output false a report = (Styled.render false report.text, report.closing.2) := by
    simp only [Command.output, printed, Bool.false_eq_true, if_false]
  obtain ⟨scripts, _, rfl⟩ := lintOk.mp h
  have titled := Report.scriptsTitled scripts
  have shared := Report.brokenSharedOut titled
  have total : (Rule.titles.map fun title => ((Report.ofScripts scripts).broken title).length).sum =
      (Report.ofScripts scripts).failures.length := by
    rw [← shared.length_eq, List.length_flatMap]
  refine ⟨?_, ?_, shared, total, ?_, ?_, ?_, fun violations => Report.summaryPassed.symm⟩
  · rw [plain, total]
    exact Report.textPrinted (Report.ofScripts scripts)
  · intro title _
    refine ⟨Report.sectionClean, ?_, ?_⟩
    · intro unclean
      rw [ne_eq, Report.sectionClean] at unclean
      exact if_neg unclean
    · rw [Report.broken, Report.failures, List.filter_filter]
      simp
  · rw [total]
    rfl
  · rw [plain]
    exact Report.closingVerdict _
  · rw [Report.passedClean titled]
    simp only [Report.sectionClean]

theorem twoFoldersText :
    ((⟨Path.ofString "/", ["bin", "lib"]⟩ : Settings).lint twoFolders.disk).2 =
      .ok (Report.ofScripts [listItems, oldScript]) ∧
    (Rule.titles.map fun title => ((Report.ofScripts [listItems, oldScript]).broken title).length).sum = 3 ∧
    (Command.output false Arguments.blank (Report.ofScripts [listItems, oldScript])).2 = false := by
  have printed : Arguments.blank.json = false := rfl
  have failures : (Report.ofScripts [listItems, oldScript]).failures.length = 3 := by decide +kernel
  have passed : (Report.ofScripts [listItems, oldScript]).passed = false := by decide +kernel
  obtain ⟨_, _, _, total, _, verdict, _⟩ := textComplete twoFoldersLinted printed
  exact ⟨twoFoldersLinted, total.trans failures, verdict.trans passed⟩

end Settings

end ShellStyle
