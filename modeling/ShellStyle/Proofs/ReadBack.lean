import ShellStyle.Proofs.Ascii
import ShellStyle.Proofs.Table

/-! A printed report read back. No mark is escaped in the text of a report, and a folder may hold any of its
phrases, but each part tells where it ends: a number before what is no digit, the first line of a message
before its line feed, the folder before the last slash of that line, the messages by their number. So two
equal texts are equal part by part. -/
namespace ShellStyle
open Text

namespace Text

/- Two texts that end at the same place in every text that goes on behind both. -/
def Splits (a b : String) (told : Prop) : Prop :=
  ∀ rest more : String, a ++ rest = b ++ more → told ∧ rest = more

namespace Splits

variable {a b c d : String} {P Q : Prop}

theorem same (a : String) : Splits a a True :=
  fun _ _ joined => ⟨trivial, (String.append_right_inj a).mp joined⟩

theorem implies (h : Splits a b P) (follows : P → Q) : Splits a b Q := by
  intro rest more joined
  obtain ⟨told, left⟩ := h rest more joined
  exact ⟨follows told, left⟩

theorem andThen (first : Splits a b P) (second : P → Splits c d Q) : Splits (a ++ c) (b ++ d) (P ∧ Q) := by
  intro rest more joined
  rw [String.append_assoc, String.append_assoc] at joined
  obtain ⟨told, left⟩ := first _ _ joined
  obtain ⟨later, last⟩ := second told rest more left
  exact ⟨⟨told, later⟩, last⟩

theorem apart {x y : Char} (one : a.toList.head? = some x) (two : b.toList.head? = some y)
    (differ : x ≠ y) : Splits a b P := by
  intro rest more joined
  have heads := congrArg (fun text : String => text.toList.head?) joined
  simp [one, two] at heads
  exact absurd heads differ

theorem firstMark {sep : Char} {xs ys zs ws : List Char} (one : sep ∉ xs) (two : sep ∉ zs)
    (joined : xs ++ sep :: ys = zs ++ sep :: ws) : xs = zs ∧ ys = ws := by
  have before : ∀ {us vs : List Char}, sep ∉ us → (us ++ sep :: vs).takeWhile (· ≠ sep) = us := by
    intro us vs absent
    have through : ∀ c ∈ us, decide (c ≠ sep) = true := fun c member =>
      decide_eq_true (ne_of_mem_of_not_mem member absent)
    rw [List.takeWhile_append_of_pos through]
    simp
  have front : xs = zs := by rw [← before one, joined, before two]
  subst front
  exact ⟨rfl, (List.cons.inj (List.append_cancel_left joined)).2⟩

theorem lastMark {sep : Char} {xs ys zs ws : List Char} (one : sep ∉ ys) (two : sep ∉ ws)
    (joined : xs ++ sep :: ys = zs ++ sep :: ws) : xs = zs ∧ ys = ws := by
  have backwards := congrArg List.reverse joined
  simp only [List.reverse_append, List.reverse_cons, List.append_assoc, List.singleton_append] at backwards
  obtain ⟨back, front⟩ := firstMark (by simpa using one) (by simpa using two) backwards
  exact ⟨List.reverse_injective front, List.reverse_injective back⟩

theorem upTo {sep : Char} (tail : String) (stops : tail.toList.head? = some sep)
    (one : sep ∉ a.toList) (two : sep ∉ b.toList) : Splits (a ++ tail) (b ++ tail) (a = b) := by
  intro rest more joined
  obtain ⟨last, closing⟩ := List.head?_eq_some_iff.mp stops
  rw [← String.toList_inj] at joined
  simp only [String.toList_append, closing, List.append_assoc, List.cons_append] at joined
  obtain ⟨front, back⟩ := firstMark one two joined
  exact ⟨String.toList_inj.mp front, String.toList_inj.mp (List.append_cancel_left back)⟩

theorem number {sep : Char} (tail : String) (stops : tail.toList.head? = some sep)
    (letter : sep.isDigit = false) (m n : Nat) : Splits (toString m ++ tail) (toString n ++ tail) (m = n) := by
  have outside : ∀ k : Nat, sep ∉ (toString k).toList := by
    intro k member
    have digit : sep ∈ Nat.toDigits 10 k := by simpa using member
    rw [Nat.isDigit_of_mem_toDigits (by decide) (by decide) digit] at letter
    cases letter
  exact (upTo tail stops (outside m) (outside n)).implies fun told => Nat.repr_injective told

end Splits

end Text

namespace Script

structure Plain (s : Script) : Prop where
  folder : '\n' ∉ s.folder.toList
  name : '\n' ∉ s.name.toList
  flat : '/' ∉ s.name.toList

theorem titleSplits {s t : Script} (one : s.Plain) (two : t.Plain) (same : s.title = t.title) :
    s.owner = t.owner := by
  rw [title, title, ← String.toList_inj] at same
  simp only [String.toList_append, List.append_assoc] at same
  obtain ⟨folder, name⟩ := Splits.lastMark one.flat two.flat same
  rw [owner, owner, String.toList_inj.mp folder, String.toList_inj.mp name]

theorem titleLine {s : Script} (plain : s.Plain) : '\n' ∉ s.title.toList := by
  simp [title, plain.folder, plain.name]

end Script

namespace Rule

def fault : Rule → String
  | shebang => " is missing a shebang line."
  | helpFlag => " is missing help parameter."
  | hyphens => " contains underscore(s) instead of hyphen(s)."

theorem faultLine (rule : Rule) : '\n' ∉ rule.fault.toList := by
  cases rule <;> decide

theorem adviceOpens (rule : Rule) (s : Script) :
    ∃ after, rule.advice s = s.title ++ rule.fault ++ "\n" ++ after := by
  have opens : (s.title ++ rule.fault ++ "\n").toList <+: (rule.advice s).toList := by
    cases rule <;> simp [advice, fault, List.prefix_append_right_inj]
  obtain ⟨after, whole⟩ := opens
  refine ⟨String.ofList after, String.toList_inj.mp ?_⟩
  simp only [← whole, String.toList_append, String.toList_ofList]

theorem adviceOwned (rule : Rule) {s t : Script} (same : s.owner = t.owner) :
    rule.advice s = rule.advice t := by
  obtain ⟨folder, name⟩ := Owner.mk.inj same
  cases rule <;> simp only [advice, Script.title, folder, name]

theorem adviceSplits (rule : Rule) {s t : Script} (one : s.Plain) (two : t.Plain) :
    Splits (rule.advice s) (rule.advice t) (s.owner = t.owner) := by
  intro rest more joined
  obtain ⟨after, opens⟩ := rule.adviceOpens s
  obtain ⟨later, opened⟩ := rule.adviceOpens t
  have line : ∀ {u : Script}, u.Plain → '\n' ∉ (u.title ++ rule.fault).toList := by
    intro u plain
    simp [Script.titleLine plain, rule.faultLine]
  have firsts : Splits (s.title ++ rule.fault ++ "\n") (t.title ++ rule.fault ++ "\n")
      (s.title ++ rule.fault = t.title ++ rule.fault) := Splits.upTo "\n" rfl (line one) (line two)
  have titles : s.title = t.title := by
    have split : s.title ++ rule.fault ++ "\n" ++ (after ++ rest) =
        t.title ++ rule.fault ++ "\n" ++ (later ++ more) := by
      rw [← String.append_assoc, ← String.append_assoc, ← opens, ← opened]
      exact joined
    exact (String.append_left_inj rule.fault).mp (firsts _ _ split).1
  have owners := Script.titleSplits one two titles
  rw [rule.adviceOwned owners] at joined
  exact ⟨owners, (String.append_right_inj _).mp joined⟩

end Rule

namespace Report

variable {scripts others : List Script}

def failing (r : Report) (rule : Rule) : List Owner := (r.broken rule.title).map Verdict.owner

theorem brokenJudged (scripts : List Script) (rule : Rule) :
    (ofScripts scripts).broken rule.title = (scripts.filter (!rule.holds ·)).map rule.judge := by
  rw [brokenColumn, verdictsColumn, List.filter_map]
  rfl

theorem scriptsFailing (scripts : List Script) (rule : Rule) :
    (ofScripts scripts).failing rule = (scripts.filter (!rule.holds ·)).map Script.owner := by
  rw [failing, brokenJudged, List.map_map]
  rfl

theorem brokenMessages (scripts : List Script) (rule : Rule) :
    ((ofScripts scripts).broken rule.title).map (·.message) =
      (scripts.filter (!rule.holds ·)).map rule.advice := by
  rw [brokenJudged, List.map_map]
  refine List.map_congr_left fun s member => ?_
  have unmet : rule.holds s = false := by simpa using (List.mem_filter.mp member).2
  simp [Rule.judge, unmet]

theorem messagesSplit (rule : Rule) (plain : ∀ s ∈ scripts, s.Plain) (even : ∀ s ∈ others, s.Plain)
    (count : scripts.length = others.length) :
    Splits (String.join ((scripts.map rule.advice).map fun message => "  " ++ message ++ "\n"))
      (String.join ((others.map rule.advice).map fun message => "  " ++ message ++ "\n"))
      (scripts.map Script.owner = others.map Script.owner) := by
  induction scripts generalizing others with
  | nil =>
    cases others with
    | nil => exact (Splits.same _).implies fun _ => rfl
    | cons t more => cases count
  | cons s rest ih =>
    cases others with
    | nil => cases count
    | cons t more =>
      obtain ⟨one, first⟩ := List.forall_mem_cons.mp plain
      obtain ⟨two, second⟩ := List.forall_mem_cons.mp even
      have line := ((Splits.same "  ").andThen fun _ => rule.adviceSplits one two).andThen
        fun _ => Splits.same "\n"
      have lines := line.andThen fun _ => ih first second (Nat.succ.inj count)
      simp only [List.map_cons, String.join_cons]
      refine lines.implies fun told => ?_
      rw [told.1.1.2, told.2]

theorem brokenSplits (rule : Rule) (plain : ∀ s ∈ scripts, s.Plain) (even : ∀ s ∈ others, s.Plain) :
    Splits (brokenLines rule.title (scripts.map rule.advice)) (brokenLines rule.title (others.map rule.advice))
      (scripts.map Script.owner = others.map Script.owner) := by
  have counts := (Splits.same ("✗ " ++ rule.title ++ ": ")).andThen fun _ =>
    Splits.number " violation(s)\n\n" rfl rfl scripts.length others.length
  have lines := (counts.andThen fun told => messagesSplit rule plain even told.2).andThen
    fun _ => Splits.same "\n"
  simp only [brokenLines, List.length_map, String.append_assoc] at lines ⊢
  exact lines.implies fun told => told.1.2

theorem sectionSplits (rule : Rule) (plain : ∀ s ∈ scripts, s.Plain) (even : ∀ s ∈ others, s.Plain) :
    Splits ((ofScripts scripts).sectionText rule.title) ((ofScripts others).sectionText rule.title)
      ((ofScripts scripts).failing rule = (ofScripts others).failing rule) := by
  have check : ∀ title, (cleanLine title).toList.head? = some '✓' := by simp [cleanLine]
  have cross : ∀ title messages, (brokenLines title messages).toList.head? = some '✗' := by
    simp [brokenLines]
  rw [sectionText, sectionText]
  split <;> split
  · rename_i one two
    rw [failing, failing, cleanIff.mp one, cleanIff.mp two]
    exact (Splits.same _).implies fun _ => rfl
  · exact Splits.apart (check _) (cross _ _) (by decide)
  · exact Splits.apart (cross _ _) (check _) (by decide)
  · rw [brokenMessages, brokenMessages, scriptsFailing, scriptsFailing]
    exact brokenSplits rule (fun s member => plain s (List.mem_filter.mp member).1)
      fun s member => even s (List.mem_filter.mp member).1

theorem sectionsSplit (plain : ∀ s ∈ scripts, s.Plain) (even : ∀ s ∈ others, s.Plain)
    (rules : List Rule) :
    Splits (String.join ((rules.map Rule.title).map (ofScripts scripts).sectionText))
      (String.join ((rules.map Rule.title).map (ofScripts others).sectionText))
      (∀ rule ∈ rules, (ofScripts scripts).failing rule = (ofScripts others).failing rule) := by
  induction rules with
  | nil => exact (Splits.same _).implies fun _ _ member => absurd member List.not_mem_nil
  | cons rule rest ih =>
    simp only [List.map_cons, String.join_cons]
    have parts := (sectionSplits rule plain even).andThen fun _ => ih
    exact parts.implies fun told => List.forall_mem_cons.mpr told

theorem summarySplits (r q : Report) (violations others : Nat) :
    Splits (r.summaryText violations) (q.summaryText others)
      (r.files = q.files ∧ r.failingFiles = q.failingFiles) := by
  rw [summaryText, summaryText]
  refine ((Splits.same summaryOpening).andThen fun _ => ?_).implies And.right
  split <;> split
  · rename_i one two
    rw [(noneFailing r).mpr one, (noneFailing q).mpr two]
    have counts := (Splits.same "All ").andThen fun _ =>
      Splits.number " file(s) passed 3 check(s).\n\n" rfl rfl r.files q.files
    simp only [passedText, String.append_assoc]
    exact counts.implies fun told => ⟨told.2, trivial⟩
  · obtain ⟨digit, first, isDigit⟩ := failedHead q.failingFiles q.files others
    exact Splits.apart (passedHead _) first (by rintro rfl; cases isDigit)
  · obtain ⟨digit, first, isDigit⟩ := failedHead r.failingFiles r.files violations
    exact Splits.apart first (passedHead _) (by rintro rfl; cases isDigit)
  · have counts := (Splits.number "/" rfl rfl r.failingFiles q.failingFiles).andThen fun _ =>
      (Splits.number " file(s) failed with " rfl rfl r.files q.files).andThen fun _ =>
      Splits.number " total violation(s).\n\n" rfl rfl violations others
    simp only [failedText, String.append_assoc] at counts ⊢
    exact counts.implies fun told => ⟨told.2.1, told.1⟩

def OneLined (r : Report) : Prop :=
  ∀ v ∈ r.verdicts, '\n' ∉ v.folder.toList ∧ '\n' ∉ v.file.toList

theorem textSplits (plain : ∀ s ∈ scripts, s.Plain) (even : ∀ s ∈ others, s.Plain)
    (same : Styled.render false (ofScripts scripts).text = Styled.render false (ofScripts others).text) :
    (∀ rule : Rule, (ofScripts scripts).failing rule = (ofScripts others).failing rule) ∧
    (ofScripts scripts).files = (ofScripts others).files ∧
    (ofScripts scripts).failingFiles = (ofScripts others).failingFiles := by
  have known : ∀ rule : Rule, rule ∈ Rule.all := by
    intro rule
    cases rule <;> decide
  rw [textPrinted, textPrinted] at same
  have parts := ((Splits.same headerText).andThen fun _ => sectionsSplit plain even Rule.all).andThen
    fun _ => summarySplits (ofScripts scripts) (ofScripts others) (ofScripts scripts).failures.length
      (ofScripts others).failures.length
  obtain ⟨⟨⟨_, failing⟩, counts⟩, _⟩ := parts "" "" (congrArg (· ++ "") same)
  exact ⟨fun rule => failing rule (known rule), counts⟩

end Report

def Disk.Flat (disk : Disk) : Prop :=
  ∀ path entries raw, disk.entries path = .ok entries → .name raw ∈ entries → Path.slash ∉ raw

theorem Site.flat {site : Site} (whole : ∀ e ∈ site.tree.entries, ∀ name ∈ e.1, Path.slash ∉ name) :
    site.disk.Flat := by
  have named : ∀ spot, ∀ raw ∈ site.namesAt spot, Path.slash ∉ raw := by
    intro spot raw member
    cases spot with
    | removed => cases member
    | place place =>
      obtain ⟨e, inside, last⟩ := List.mem_filterMap.mp member
      split at last
      · exact whole e inside raw (List.mem_of_getLast? last)
      · cases last
  intro path entries raw listing member
  simp only [disk] at listing
  split at listing
  · cases listing
  · cases resolved : site.resolve path with
    | error cause => simp [resolved, Except.map] at listing
    | ok spot =>
      simp only [resolved, Except.map, Except.ok.injEq] at listing
      subst listing
      exact named spot raw (by simpa using member)
  · cases listing

namespace Settings

theorem scriptFlat {disk : Disk} {s : Settings} {script : Script} (flat : disk.Flat)
    (found : .ok script ∈ Scan.all disk s.root s.folders) : '/' ∉ script.name.toList := by
  obtain ⟨folder, raw, text, ⟨⟨_, ⟨entries, listing, inside⟩, _⟩, _⟩, _, rfl⟩ := scriptRead.mp found
  have small : Path.slash < 0x80 := by decide
  intro slashed
  exact flat _ _ _ listing inside ((Utf8.asciiMember small).mp slashed)

theorem scriptsPlain {disk : Disk} {s : Settings} {scripts : List Script} (flat : disk.Flat)
    (all : Scan.all disk s.root s.folders = scripts.map .ok)
    (lines : (Report.ofScripts scripts).OneLined) : ∀ script ∈ scripts, script.Plain := by
  intro script member
  have judged : Rule.shebang.judge script ∈ (Report.ofScripts scripts).verdicts :=
    List.mem_flatMap.mpr ⟨script, member, List.mem_cons_self⟩
  have found : .ok script ∈ Scan.all disk s.root s.folders := by
    rw [all]
    exact List.mem_map_of_mem member
  obtain ⟨ofFolder, ofName⟩ := lines _ judged
  exact ⟨ofFolder, ofName, scriptFlat flat found⟩

/- Neither the names of the files that pass nor what the files hold can be read back. -/
theorem textReadsBack {disk other : Disk} {s t : Settings} {r q : Report}
    (one : (s.lint disk).2 = .ok r) (two : (t.lint other).2 = .ok q) (flat : disk.Flat) (even : other.Flat)
    (lines : r.OneLined) (rows : q.OneLined)
    (same : Styled.render false r.text = Styled.render false q.text) :
    (∀ rule : Rule, r.failing rule = q.failing rule) ∧
    r.files = q.files ∧ r.failingFiles = q.failingFiles := by
  obtain ⟨scripts, all, rfl⟩ := lintOk.mp one
  obtain ⟨others, every, rfl⟩ := lintOk.mp two
  exact Report.textSplits (scriptsPlain flat all lines) (scriptsPlain even every rows) same

def listAll : Script := ⟨"bin", "list-all", Path.ofString "/bin/list-all", "#!/bin/bash --help"⟩

def newScript : Script := ⟨"lib", "old_script", Path.ofString "/lib/old_script", "cat"⟩

def otherFolders : Site :=
  ((⟨⟨[]⟩, [], 0⟩ : Site).insert [Utf8.encode "bin", Utf8.encode "list-all"]
    (.file (Utf8.encode "#!/bin/bash --help"))).insert
    [Utf8.encode "lib", Utf8.encode "old_script"] (.file (Utf8.encode "cat"))

theorem otherFoldersLinted :
    ((⟨Path.ofString "/", ["bin", "lib"]⟩ : Settings).lint otherFolders.disk).2 =
      .ok (Report.ofScripts [listAll, newScript]) := by
  have found : Scan.all otherFolders.disk (Path.ofString "/") ["bin", "lib"] =
      [listAll, newScript].map .ok := by
    rw [Scan.allItems]
    cbv
  exact lintOk.mpr ⟨_, found, rfl⟩

theorem twoFoldersReadBack :
    Styled.render false (Report.ofScripts [listItems, oldScript]).text =
      Styled.render false (Report.ofScripts [listAll, newScript]).text ∧
    (∀ rule : Rule, (Report.ofScripts [listItems, oldScript]).failing rule =
      (Report.ofScripts [listAll, newScript]).failing rule) ∧
    (Report.ofScripts [listItems, oldScript]).files = (Report.ofScripts [listAll, newScript]).files ∧
    (Report.ofScripts [listItems, oldScript]).failingFiles =
      (Report.ofScripts [listAll, newScript]).failingFiles := by
  have flat : twoFolders.disk.Flat := Site.flat (by decide +kernel)
  have even : otherFolders.disk.Flat := Site.flat (by decide +kernel)
  have lines : (Report.ofScripts [listItems, oldScript]).OneLined := by
    unfold Report.OneLined
    decide +kernel
  have rows : (Report.ofScripts [listAll, newScript]).OneLined := by
    unfold Report.OneLined
    decide +kernel
  have same : Styled.render false (Report.ofScripts [listItems, oldScript]).text =
      Styled.render false (Report.ofScripts [listAll, newScript]).text := by
    decide +kernel
  exact ⟨same, textReadsBack twoFoldersLinted otherFoldersLinted flat even lines rows same⟩

end Settings

end ShellStyle
