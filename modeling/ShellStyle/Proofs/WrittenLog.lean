import ShellStyle.Proofs.Log
import ShellStyle.Proofs.LogText
import ShellStyle.Proofs.Precedence

/-! Standard error beside the report. How much of a log is written depends on the flags and the environment, but
what is printed and the code do not depend on how much. Where all of it is written, standard error is the
text of the events that are told of the run, with the complaint behind them if there is no report. -/
namespace ShellStyle
open Text

namespace Directive

variable {e : Event} {d : Directive} {directives : List Directive}

theorem preferReach (best : Option Directive) (d : Directive) : ∃ c, prefer best d = some c ∧
    (c = d ∨ best = some c) ∧ d.reach ≤ c.reach ∧ ∀ b, best = some b → b.reach ≤ c.reach := by
  cases best with
  | none => exact ⟨d, rfl, .inl rfl, Nat.le_refl _, by simp⟩
  | some b =>
    cases yields : b.yields d with
    | true =>
      refine ⟨d, by simp [prefer, yields], .inl rfl, Nat.le_refl _, ?_⟩
      rintro _ ⟨⟩
      simp only [Directive.yields, Bool.or_eq_true, Bool.and_eq_true, decide_eq_true_eq, beq_iff_eq] at yields
      omega
    | false =>
      refine ⟨b, by simp [prefer, yields], .inr rfl, ?_, by simp⟩
      simp only [Directive.yields, Bool.or_eq_false_iff, decide_eq_false_iff_not] at yields
      omega

theorem preferAll (directives : List Directive) (best : Option Directive)
    (either : directives ≠ [] ∨ best.isSome = true) : ∃ c, directives.foldl prefer best = some c ∧
      (c ∈ directives ∨ best = some c) ∧ (∀ other ∈ directives, other.reach ≤ c.reach) ∧
      ∀ b, best = some b → b.reach ≤ c.reach := by
  induction directives generalizing best with
  | nil =>
    obtain ⟨b, rfl⟩ := Option.isSome_iff_exists.mp (either.resolve_left (by simp))
    exact ⟨b, rfl, .inr rfl, by simp, by simp⟩
  | cons d rest ih =>
    obtain ⟨next, preferred, origin, here, before⟩ := preferReach best d
    obtain ⟨c, found, chosen, others, kept⟩ := ih (prefer best d) (.inr (by simp [preferred]))
    have last := kept next preferred
    refine ⟨c, found, ?_, List.forall_mem_cons.mpr ⟨here.trans last, others⟩,
      fun b same => (before b same).trans last⟩
    rcases chosen with later | same
    · exact .inl (List.mem_cons_of_mem _ later)
    · rw [preferred, Option.some.injEq] at same
      subst same
      exact origin.imp_left fun first => List.mem_cons.mpr (.inl first)

/- Of the directives about an event one that reaches as far as any decides it. -/
theorem decidingReach (member : d ∈ directives) (about : d.about e = true) :
    ∃ best, deciding directives e = some best ∧ best ∈ directives ∧ best.about e = true ∧
      ∀ other ∈ directives, other.about e = true → other.reach ≤ best.reach := by
  have filled : directives.filter (·.about e) ≠ [] := List.ne_nil_of_mem (List.mem_filter.mpr ⟨member, about⟩)
  obtain ⟨best, found, origin, others, _⟩ := preferAll _ none (.inl filled)
  obtain ⟨inside, meant⟩ := List.mem_filter.mp (origin.resolve_right (by simp))
  exact ⟨best, found, inside, meant, fun other there met => others other (List.mem_filter.mpr ⟨there, met⟩)⟩

end Directive

def Directive.debugOf (target : String) : Directive := ⟨some target, none, none, some .debug⟩

/- A target counts for the modules below it, and against every directive that reaches less far. -/
theorem Filter.targetPasses {target : String} {directives : List Directive}
    (above : target.toList <+: "fn_lint".toList) (member : .debugOf target ∈ directives)
    (farthest : ∀ other ∈ directives, other ≠ .debugOf target → other.reach < target.length + 1)
    (e : Event) : ofDirectives directives e = true := by
  have inside : target.toList <+: e.target.toList := by
    cases e with
    | scanning | reading => exact above.trans ⟨"::walker".toList, by simp [Event.target]⟩
    | resolved | checked | finished => exact above
  have shallow : e.level.rank ≤ Level.debug.rank := by cases e <;> simp [Event.level, Level.rank]
  have about : (Directive.debugOf target).about e = true := by
    simp [Directive.debugOf, Directive.about, inside]
  obtain ⟨best, deciding, there, _, others⟩ := Directive.decidingReach member about
  have same : best = .debugOf target := by
    by_contra other
    exact Nat.not_lt.mpr (others _ member about) (farthest best there other)
  simp [ofDirectives, deciding, same, Directive.debugOf, upTo, shallow]

namespace Environment

variable {env : Environment} {verbose : Bool}

/- By a filter that lets every event through, or by the flag where no filter can be read. -/
inductive Debugs (env : Environment) (verbose : Bool) : Prop where
  | filtered {text : String} {filter : Filter} (set : env.get? "RUST_LOG" = some text)
      (read : env.filter? text = some filter) (passes : ∀ e, filter e = true) : Debugs env verbose
  | flagged (flag : verbose = true)
      (unread : ∀ text, env.get? "RUST_LOG" = some text → env.filter? text = none) : Debugs env verbose

theorem flaggedFilter (unread : ∀ text, env.get? "RUST_LOG" = some text → env.filter? text = none) :
    env.logFilter verbose = .upTo (if verbose then .debug else .warn) := by
  cases set : env.get? "RUST_LOG" with
  | none => simp [logFilter, set]
  | some text => simp [logFilter, set, unread text set]

theorem debugsIff : env.Debugs verbose ↔ ∀ e, env.logFilter verbose e = true := by
  constructor
  · intro debug e
    cases debug with
    | filtered set read passes => simp [logFilter, set, read, passes]
    | flagged flag unread =>
      rw [flaggedFilter unread, flag]
      cases e <;> rfl
  · intro passes
    cases given : (env.get? "RUST_LOG").bind env.filter? with
    | some filter =>
      obtain ⟨text, set, read⟩ := Option.bind_eq_some_iff.mp given
      refine .filtered set read fun e => ?_
      simpa [logFilter, given] using passes e
    | none =>
      have unread : ∀ text, env.get? "RUST_LOG" = some text → env.filter? text = none :=
        Option.bind_eq_none_iff.mp given
      refine .flagged ?_ unread
      have debugged := passes (.reading "" "")
      rw [flaggedFilter unread] at debugged
      cases verbose with
      | false => cases debugged
      | true => rfl

def SameButLog (env other : Environment) : Prop :=
  (∀ name, name ≠ "RUST_LOG" → other.get? name = env.get? name) ∧ other.terminal = env.terminal

theorem servicesSame {env other : Environment} (same : env.SameButLog other) :
    serviceNames.any other.isSet = serviceNames.any env.isSet := by
  rw [Bool.eq_iff_iff, List.any_eq_true, List.any_eq_true]
  refine exists_congr fun name => and_congr_right fun service => ?_
  have beyond : name ≠ "RUST_LOG" := by
    intro level
    exact absurd (level ▸ service) (by decide)
  rw [isSet, isSet, same.1 name beyond]

theorem coloursSame {env other : Environment} (same : env.SameButLog other) :
    other.colours = env.colours := by
  have services := servicesSame same
  obtain ⟨values, terminal⟩ := same
  simp [colours, forced, capable, namesTerminal, inBuildService, isSetBeyondZero, isSet, services, values,
    terminal]

end Environment

namespace Command

open Settings (twoFolders)
variable {disk : Disk} {env : Environment} {a : Arguments}

def complaint : Except Failure Report → String
  | .error failure => "Error: " ++ failure.message ++ "\n"
  | .ok _ => ""

theorem complaintHead (outcome : Except Failure Report) :
    ∀ c, (complaint outcome).toList.head? = some c → c = 'E' := by
  cases outcome <;> simp [complaint]

theorem runWritten {arguments : List String} (parsed : Arguments.parse arguments = .ok a)
    (times : Nat → String) :
    (run disk env arguments).written (fun n => Event.stamped env.coloursLog (times n)) =
      Event.text env.coloursLog times ((examine disk a).1.filter (env.logFilter a.verbose))
        ++ complaint (examine disk a).2 := by
  rw [runParsed parsed]
  cases (examine disk a).2 <;> exact Event.writtenText ..

theorem runDebugged {arguments : List String} (parsed : Arguments.parse arguments = .ok a)
    (debug : env.Debugs a.verbose) (disk : Disk) (times : Nat → String) :
    (run disk env arguments).written (fun n => Event.stamped env.coloursLog (times n)) =
      Event.text env.coloursLog times (examine disk a).1 ++ complaint (examine disk a).2 := by
  have all : (examine disk a).1.filter (env.logFilter a.verbose) = (examine disk a).1 :=
    List.filter_eq_self.mpr fun e _ => Environment.debugsIff.mp debug e
  rw [runWritten parsed, all]

/- Whatever the moments of their events were, two equal logs tell the same events. -/
theorem stderrReadsBack {first second : List String} {b : Arguments} {other : Environment} {tree : Disk}
    (one : Arguments.parse first = .ok a) (two : Arguments.parse second = .ok b)
    (debug : env.Debugs a.verbose) (debugs : other.Debugs b.verbose)
    (colour : other.coloursLog = env.coloursLog) (plain : ∀ e ∈ (examine disk a).1, e.Plain)
    (even : ∀ e ∈ (examine tree b).1, e.Plain) (moments others : Nat → Nat)
    (same : (run disk env first).written
        (fun n => Event.stamped env.coloursLog (Timestamp.text (moments n))) =
      (run tree other second).written
        (fun n => Event.stamped other.coloursLog (Timestamp.text (others n)))) :
    (examine disk a).1.map Event.shown = (examine tree b).1.map Event.shown ∧
    complaint (examine disk a).2 = complaint (examine tree b).2 := by
  have left := runDebugged one debug disk fun n => Timestamp.text (moments n)
  have right := runDebugged two debugs tree fun n => Timestamp.text (others n)
  rw [left, right, colour] at same
  exact Event.textReads (fun n => Timestamp.textDated _) (fun n => Timestamp.textDated _) plain even
    (complaintHead _) (complaintHead _) same

theorem runSame {first second : List String} {b : Arguments} {other : Environment}
    (one : Arguments.parse first = .ok a) (two : Arguments.parse second = .ok b)
    (root : b.rootDir = a.rootDir) (folders : b.folders = a.folders) (json : b.json = a.json)
    (same : env.SameButLog other) : (run disk other second).code = (run disk env first).code ∧
      (run disk other second).out = (run disk env first).out := by
  refine ⟨codeSame one two root folders, ?_⟩
  rw [runOut one, runOut two, outcomeSame root folders]
  cases (examine disk a).2 with
  | error failure => rfl
  | ok report => simp only [printed, output, json, Environment.coloursSame same]

/- The last part compares runs that differ in nothing but in how much they log. -/
theorem logAgrees {arguments : List String} {a : Arguments} {env : Environment}
    (parsed : Arguments.parse arguments = .ok a) (debug : env.Debugs a.verbose) (disk : Disk) :
    (∀ failure, Resolves disk a (.error failure) → ∀ times : Nat → String,
      (run disk env arguments).written (fun n => Event.stamped env.coloursLog (times n)) =
        "Error: " ++ failure.message ++ "\n") ∧
    (∀ s, Resolves disk a (.ok s) → s.Logged disk (s.lint disk).1 (s.lint disk).2 ∧
      ∀ times : Nat → String,
        (run disk env arguments).written (fun n => Event.stamped env.coloursLog (times n)) =
          Event.text env.coloursLog times (.resolved s.root s.folders :: (s.lint disk).1) ++
            match (s.lint disk).2 with
            | .error failure => "Error: " ++ failure.message ++ "\n"
            | .ok _ => "") ∧
    (∀ others b other, Arguments.parse others = .ok b → b.rootDir = a.rootDir →
      b.folders = a.folders → b.json = a.json → env.SameButLog other →
      (run disk other others).code = (run disk env arguments).code ∧
      (run disk other others).out = (run disk env arguments).out) := by
  refine ⟨?_, ?_, fun _ _ _ => runSame parsed⟩
  · intro failure refused times
    have nothing : examine disk a = ([], .error failure) := by rw [examine, resolvesIff.mpr refused]
    rw [runDebugged parsed debug, nothing]
    exact String.empty_append
  · intro s resolves
    have whole : examine disk a = (.resolved s.root s.folders :: (s.lint disk).1, (s.lint disk).2) := by
      rw [examine, resolvesIff.mpr resolves]
    refine ⟨Settings.lintLogged disk s, fun times => ?_⟩
    rw [runDebugged parsed debug, whole]
    cases (s.lint disk).2 <;> rfl

def logging (filter : Option String) : Environment where
  get? name := if name = "RUST_LOG" then filter else if name = "NO_COLOR" then some "1" else none
  terminal := false
  errorTerminal := false

def foldersLog (filter : Option String) (flags : List String) : String :=
  (run twoFolders.disk (logging filter) (flags ++ ["--root-dir=/", "--folder=bin", "--folder=lib"])).written
    fun _ => Event.stamped false "now"

def foldersEvents : List Event :=
  [.scanning "bin" (Path.ofString "/bin"), .reading "bin" "list-items", .checked "bin" "list-items" 0,
    .scanning "lib" (Path.ofString "/lib"), .reading "lib" "old_script", .checked "lib" "old_script" 3,
    .finished 2 3]

def foldersText : String := String.join
  ["now DEBUG resolved config root=/ folders=[\"bin\", \"lib\"]\n",
    "now DEBUG scanning folder folder=bin path=/bin\n",
    "now DEBUG reading candidate folder=bin file=list-items\n",
    "now DEBUG checked folder=bin file=list-items failed=0\n",
    "now DEBUG scanning folder folder=lib path=/lib\n",
    "now DEBUG reading candidate folder=lib file=old_script\n",
    "now DEBUG checked folder=lib file=old_script failed=3\n",
    "now  INFO lint run finished files=2 failures=3\n"]

theorem foldersTraced :
    ((⟨Path.ofString "/", ["bin", "lib"]⟩ : Settings).lint twoFolders.disk).1 = foldersEvents := by
  rw [Settings.lintTrace, Settings.twoFoldersLinted]
  decide +kernel

theorem foldersWritten :
    Event.text false (fun _ => "now") (.resolved (Path.ofString "/") ["bin", "lib"] :: foldersEvents) =
      foldersText := congrArg String.join (by decide +kernel)

theorem twoFoldersLogged : foldersLog none ["--verbose"] = foldersText ∧
    foldersLog (some "warn,fn_lint=debug") [] = foldersText ∧
    foldersLog (some "fn_lint=loud") ["-v"] = foldersText := by
  have missing : twoFolders.disk.kind ((Path.ofString "/").join Settings.fileName) = .error .notFound := by
    cbv
  have absent : Settings.States twoFolders.disk (Path.ofString "/") (.ok none) :=
    .absent (by simp [missing])
  have resolves : ∀ verbose, Resolves twoFolders.disk ⟨some (Path.ofString "/"), ["bin", "lib"], false, verbose⟩
      (.ok ⟨Path.ofString "/", ["bin", "lib"]⟩) := fun _ => .settled (.given rfl) absent
  have told : ∀ filter flags verbose,
      Arguments.parse (flags ++ ["--root-dir=/", "--folder=bin", "--folder=lib"]) =
        .ok ⟨some (Path.ofString "/"), ["bin", "lib"], false, verbose⟩ →
      (logging filter).Debugs verbose → foldersLog filter flags = foldersText := by
    intro filter flags verbose parsed debug
    obtain ⟨_, settled, _⟩ := logAgrees parsed debug twoFolders.disk
    obtain ⟨_, text⟩ := settled _ (resolves verbose)
    have plain : (logging filter).coloursLog = false := by
      simp [Environment.coloursLog, Environment.isFilled, logging]
    rw [plain, foldersTraced, Settings.twoFoldersLinted] at text
    rw [foldersLog, text fun _ => "now", foldersWritten]
    exact String.append_empty
  have read : Filter.read "warn,fn_lint=debug" =
      some (.ofDirectives [⟨none, none, none, some .warn⟩, .debugOf "fn_lint"]) := rfl
  have unread : Filter.read "fn_lint=loud" = none := rfl
  refine ⟨told _ _ true (by cbv) (.flagged rfl (by simp [logging])), told _ _ false (by cbv) ?_,
    told _ _ true (by cbv) (.flagged rfl (by simp [logging, unread]))⟩
  refine .filtered rfl read (Filter.targetPasses List.prefix_rfl (by simp) ?_)
  simp [Directive.reach]

end Command

end ShellStyle
