import ShellStyle.Command
import ShellStyle.Proofs.Discovery
import ShellStyle.Proofs.Gather
import ShellStyle.Proofs.Statements

/-! Where a run looks, told from its options, the current directory and the settings file at the chosen root. A
root that is given is taken without a search, and folders that are given go before those of the settings
file, which go before the default ones. The file is read even where its folders will not be used, so
settings that cannot be used end the run in any case. -/
namespace ShellStyle
open Text

namespace Settings

variable {disk : Disk} {root : Path}

def Accepted (text : String) : Prop :=
  ∃ list folders, Toml.Document.found text = some list ∧ Toml.Statement.Lists list folders

/- What the settings file at a root states about the folders: nothing, a list, or why it cannot be used. Only
a regular file is a settings file, so where there is none nothing is said. -/
inductive States (disk : Disk) (root : Path) : Except String (Option (List String)) → Prop where
  | absent (other : disk.kind (root.join fileName) ≠ .ok .file) : States disk root (.ok none)
  | unreadable {cause : Cause} (file : disk.kind (root.join fileName) = .ok .file)
      (refused : disk.bytes (root.join fileName) = .error cause) : States disk root (.error cause.message)
  | noText {bytes : List UInt8} (file : disk.kind (root.join fileName) = .ok .file)
      (given : disk.bytes (root.join fileName) = .ok bytes) (invalid : ¬ Utf8.Valid bytes) :
      States disk root (.error Cause.notText.message)
  | unfit {text reason : String} (file : disk.kind (root.join fileName) = .ok .file)
      (given : disk.bytes (root.join fileName) = .ok (Utf8.encode text)) (refused : ¬ Accepted text)
      (told : parse text = .error reason) : States disk root (.error reason)
  | heeded {text : String} {list : List Toml.Statement} {folders : Option (List String)}
      (file : disk.kind (root.join fileName) = .ok .file)
      (given : disk.bytes (root.join fileName) = .ok (Utf8.encode text))
      (written : Toml.Document.found text = some list) (lists : Toml.Statement.Lists list folders) :
      States disk root (.ok folders)

theorem loadStated {said : Except String (Option (List String))} (states : States disk root said) :
    load disk root = match said with
      | .error reason => .error (.settings (root.join fileName) reason)
      | .ok folders => .ok ⟨root, folders.getD defaultFolders⟩ := by
  cases states with
  | absent other =>
    have bare : disk.isFile (root.join fileName) = false :=
      Bool.eq_false_iff.mpr fun file => other (Disk.isFileIff.mp file)
    simp [load, bare, atRoot]
  | unreadable file refused => simp [load, Disk.isFileIff.mpr file, Disk.text, refused]
  | noText file given invalid =>
    simp [load, Disk.isFileIff.mpr file, Disk.text, given, Utf8.decodeNone.mpr invalid]
  | unfit file given refused told =>
    simp [load, Disk.isFileIff.mpr file, Disk.textEncoded.mpr given, told]
  | @heeded text list folders file given written lists =>
    have meant : parse text = .ok folders := parseWritten.mpr ⟨list, written, lists⟩
    cases folders <;> simp [load, Disk.isFileIff.mpr file, Disk.textEncoded.mpr given, meant, atRoot]

theorem statesSomething (disk : Disk) (root : Path) : ∃ said, States disk root said := by
  by_cases file : disk.kind (root.join fileName) = .ok .file
  · cases stored : disk.bytes (root.join fileName) with
    | error cause => exact ⟨_, .unreadable file stored⟩
    | ok bytes =>
      cases decoded : Utf8.decode? bytes with
      | none => exact ⟨_, .noText file stored (Utf8.decodeNone.mp decoded)⟩
      | some text =>
        rw [← Utf8.decodeIff.mp decoded] at stored
        cases meant : parse text with
        | error reason =>
          refine ⟨_, .unfit file stored ?_ meant⟩
          intro accepted
          obtain ⟨list, folders, written, lists⟩ := accepted
          cases meant.symm.trans (parseWritten.mpr ⟨list, written, lists⟩)
        | ok folders =>
          obtain ⟨list, written, lists⟩ := parseWritten.mp meant
          exact ⟨_, .heeded file stored written lists⟩
  · exact ⟨_, .absent file⟩

theorem loadSame {other : Disk} (kind : other.kind (root.join fileName) = disk.kind (root.join fileName))
    (bytes : other.bytes (root.join fileName) = disk.bytes (root.join fileName)) :
    load other root = load disk root := by
  have file : other.isFile (root.join fileName) = disk.isFile (root.join fileName) := by
    rw [Disk.isFile, Disk.isFile, kind]
  have text : other.text (root.join fileName) = disk.text (root.join fileName) := by
    rw [Disk.text, Disk.text, bytes]
  simp only [load, file, text]

end Settings

namespace Command

variable {disk : Disk} {a : Arguments} {root : Path}

inductive Chosen (disk : Disk) (a : Arguments) : Path → Prop where
  | given {dir : Path} (option : a.rootDir = some dir) : Chosen disk a dir
  | found {start dir : Path} (absent : a.rootDir = none) (current : disk.current = .ok start)
      (nearest : Settings.Nearest disk start dir) : Chosen disk a dir

inductive Rootless (disk : Disk) (a : Arguments) : Failure → Prop where
  | nowhere {cause : Cause} (absent : a.rootDir = none) (current : disk.current = .error cause) :
      Rootless disk a (.settings (Path.ofString ".") cause.message)
  | unmarked {start : Path} (absent : a.rootDir = none) (current : disk.current = .ok start)
      (bare : Settings.Unmarked disk start) : Rootless disk a (.rootNotFound start)

theorem chosenOrRootless (disk : Disk) (a : Arguments) :
    (∃ root, Chosen disk a root) ∨ ∃ failure, Rootless disk a failure := by
  cases option : a.rootDir with
  | some dir => exact .inl ⟨_, .given option⟩
  | none =>
    cases current : disk.current with
    | error cause => exact .inr ⟨_, .nowhere option current⟩
    | ok start =>
      rcases Settings.nearestOrNowhere disk start with ⟨dir, nearest⟩ | bare
      · exact .inl ⟨dir, .found option current nearest⟩
      · exact .inr ⟨_, .unmarked option current bare⟩

def folders : List String → Option (List String) → List String
  | [], none => ["functions", "bin"]
  | [], some listed => listed
  | option :: more, _ => option :: more

theorem folderOption {options : List String} {file : Option (List String)} (given : options ≠ []) :
    folders options file = options := by
  cases options with
  | nil => exact absurd rfl given
  | cons option more => rfl

theorem resolveChosen (chosen : Chosen disk a root) : resolve disk a =
    (Settings.load disk root).map fun s => if a.folders = [] then s else s.withFolders a.folders := by
  cases chosen with
  | given option =>
    simp only [resolve, option]
    cases Settings.load disk root <;> rfl
  | found absent current nearest =>
    simp only [resolve, absent, Settings.discover, current, Settings.discoverFromNearest nearest]
    cases Settings.load disk root <;> rfl

theorem resolveRootless {failure : Failure} (rootless : Rootless disk a failure) :
    resolve disk a = .error failure := by
  cases rootless with
  | nowhere absent current => simp [resolve, absent, Settings.discover, current]
  | unmarked absent current bare =>
    simp [resolve, absent, Settings.discover, current, Settings.discoverFromNowhere bare]

theorem foldersTaken (options : List String) (root : Path) (file : Option (List String)) :
    (if options = [] then (⟨root, file.getD Settings.defaultFolders⟩ : Settings)
      else Settings.withFolders ⟨root, file.getD Settings.defaultFolders⟩ options) =
      ⟨root, folders options file⟩ := by
  cases options with
  | cons option more => rfl
  | nil => cases file <;> rfl

theorem resolveStated {said : Except String (Option (List String))} (chosen : Chosen disk a root)
    (states : Settings.States disk root said) : resolve disk a = match said with
      | .error reason => .error (.settings (root.join Settings.fileName) reason)
      | .ok file => .ok ⟨root, folders a.folders file⟩ := by
  rw [resolveChosen chosen, Settings.loadStated states]
  cases said with
  | error reason => rfl
  | ok file => exact congrArg Except.ok (foldersTaken a.folders root file)

/- The settings of a run, or what keeps it from having any. -/
inductive Resolves (disk : Disk) (a : Arguments) : Except Failure Settings → Prop where
  | settled {root : Path} {file : Option (List String)} (chosen : Chosen disk a root)
      (states : Settings.States disk root (.ok file)) :
      Resolves disk a (.ok ⟨root, folders a.folders file⟩)
  | refused {root : Path} {reason : String} (chosen : Chosen disk a root)
      (states : Settings.States disk root (.error reason)) :
      Resolves disk a (.error (.settings (root.join Settings.fileName) reason))
  | rootless {failure : Failure} (nowhere : Rootless disk a failure) : Resolves disk a (.error failure)

theorem resolvesIff {outcome : Except Failure Settings} :
    resolve disk a = outcome ↔ Resolves disk a outcome := by
  constructor
  · rintro rfl
    rcases chosenOrRootless disk a with ⟨root, chosen⟩ | ⟨failure, rootless⟩
    · obtain ⟨said, states⟩ := Settings.statesSomething disk root
      rw [resolveStated chosen states]
      cases said with
      | error reason => exact .refused chosen states
      | ok file => exact .settled chosen states
    · rw [resolveRootless rootless]
      exact .rootless rootless
  · intro resolves
    cases resolves with
    | settled chosen states => exact resolveStated chosen states
    | refused chosen states => exact resolveStated chosen states
    | rootless nowhere => exact resolveRootless nowhere

theorem resolveOk {s : Settings} : resolve disk a = .ok s ↔
    ∃ root file, Chosen disk a root ∧ Settings.States disk root (.ok file) ∧
      s = ⟨root, folders a.folders file⟩ := by
  rw [resolvesIff]
  constructor
  · intro resolves
    cases resolves with
    | settled chosen states => exact ⟨_, _, chosen, states, rfl⟩
  · intro holds
    obtain ⟨root, file, chosen, states, rfl⟩ := holds
    exact .settled chosen states

theorem resolveError {failure : Failure} : resolve disk a = .error failure ↔
    Rootless disk a failure ∨ ∃ root reason, Chosen disk a root ∧
      Settings.States disk root (.error reason) ∧
      failure = .settings (root.join Settings.fileName) reason := by
  rw [resolvesIff]
  constructor
  · intro resolves
    cases resolves with
    | refused chosen states => exact .inr ⟨_, _, chosen, states, rfl⟩
    | rootless nowhere => exact .inl nowhere
  · intro holds
    rcases holds with nowhere | ⟨root, reason, chosen, states, rfl⟩
    · exact .rootless nowhere
    · exact .refused chosen states

theorem resolveGiven {dir : Path} {other : Disk} (option : a.rootDir = some dir)
    (kind : other.kind (dir.join Settings.fileName) = disk.kind (dir.join Settings.fileName))
    (bytes : other.bytes (dir.join Settings.fileName) = disk.bytes (dir.join Settings.fileName)) :
    resolve other a = resolve disk a := by
  simp only [resolve, option, Settings.loadSame kind bytes]

end Command

theorem Scan.folderNamed {disk : Disk} {folder name text : String} {base : Path}
    (listed : disk.entries (base.join (Path.ofString folder)) = .ok [.name (Utf8.encode name)])
    (candidate : Script.isCandidate name = true)
    (file : disk.kind ((base.join (Path.ofString folder)).join (Path.ofString name)) = .ok .file)
    (stored : disk.bytes ((base.join (Path.ofString folder)).join (Path.ofString name)) =
      .ok (Utf8.encode text)) : folderItems disk base folder =
        [.ok ⟨folder, name, (base.join (Path.ofString folder)).join (Path.ofString name), text⟩] := by
  have decoded : Utf8.decodeLossy (Utf8.encode name) = name :=
    Utf8.decodeLossyOfDecode (Utf8.decodeEncode name)
  have gives : Gives disk folder (base.join (Path.ofString folder)) (.name (Utf8.encode name)) _ :=
    .read (decoded.symm ▸ candidate) file stored
  rw [decoded] at gives
  have item : entryItems disk folder (base.join (Path.ofString folder)) (.name (Utf8.encode name)) =
      [.ok ⟨folder, name, (base.join (Path.ofString folder)).join (Path.ofString name), text⟩] :=
    (entryGives.mp gives).symm
  simp [folderItems, listed, item]

def Environment.unset : Environment where
  get? _ := none
  terminal := false
  errorTerminal := false

namespace Settings

def configured (text : String) : Site :=
  { twoFolders.insert [Utf8.encode "fn-lint.toml"] (.file (Utf8.encode text)) with here := [Utf8.encode "bin"] }

variable (text : String)

theorem configuredFile : (configured text).disk.kind ((Path.ofString "/").join fileName) = .ok .file := rfl

theorem configuredBytes :
    (configured text).disk.bytes ((Path.ofString "/").join fileName) = .ok (Utf8.encode text) := rfl

theorem configuredChosen : Command.Chosen (configured text).disk Arguments.blank (Path.ofString "/") := by
  have above : (Path.ofString "/bin").climbed 1 = some (Path.ofString "/") := by cbv
  have nearer : isMarked (configured text).disk (Path.ofString "/bin") = false := rfl
  have nearest : Nearest (configured text).disk (Path.ofString "/bin") (Path.ofString "/") := by
    refine ⟨1, above, .inl (configuredFile text), ?_⟩
    intro m below dir here
    cases Nat.lt_one_iff.mp below
    cases here
    rw [← markedIff, nearer]
    exact Bool.false_ne_true
  exact .found rfl rfl nearest

theorem configuredBin :
    ((⟨Path.ofString "/", ["bin"]⟩ : Settings).lint (configured text).disk).2 =
      .ok (Report.ofScripts [listItems]) := by
  have bin : Scan.folderItems (configured text).disk (Path.ofString "/") "bin" = [.ok listItems] :=
    Scan.folderNamed rfl (by decide) rfl rfl
  refine lintOk.mpr ⟨_, ?_, rfl⟩
  simp [Scan.allItems, bin]

theorem configuredBoth :
    ((⟨Path.ofString "/", ["bin", "lib"]⟩ : Settings).lint (configured text).disk).2 =
      .ok (Report.ofScripts [listItems, oldScript]) := by
  have bin : Scan.folderItems (configured text).disk (Path.ofString "/") "bin" = [.ok listItems] :=
    Scan.folderNamed rfl (by decide) rfl rfl
  have lib : Scan.folderItems (configured text).disk (Path.ofString "/") "lib" = [.ok oldScript] :=
    Scan.folderNamed rfl (by decide) rfl rfl
  refine lintOk.mpr ⟨_, ?_, rfl⟩
  simp [Scan.allItems, bin, lib]

theorem binLibStated : States (configured "folders = ['bin', 'lib']").disk (Path.ofString "/")
    (.ok (some ["bin", "lib"])) := by
  have written : Toml.Document.found "folders = ['bin', 'lib']" =
      some [.entry ([⟨24, some "folders"⟩], ⟨14, .array [⟨13, .scalar (some (.string "bin"))⟩,
        ⟨6, .scalar (some (.string "lib"))⟩]⟩)] := by cbv
  exact .heeded (configuredFile _) (configuredBytes _) written (.listed rfl rfl)

end Settings

end ShellStyle
