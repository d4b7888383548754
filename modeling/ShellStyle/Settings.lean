import ShellStyle.Failure
import ShellStyle.Settings.FolderList

/-! Where a run looks: a project root and the folders below it. They come from a settings file at the root,
which is found by walking up from a start to the first directory with such a file or a `.git`. -/
namespace ShellStyle

structure Settings where
  root : Path
  folders : List String
  deriving DecidableEq, Repr

namespace Settings

def defaultFolders : List String := ["functions", "bin"]

def fileName : Path := Path.ofString "fn-lint.toml"

def repository : Path := Path.ofString ".git"

def atRoot (root : Path) : Settings := ⟨root, defaultFolders⟩

def withFolders (s : Settings) (folders : List String) : Settings := { s with folders := folders }

/- What the reader of the settings says about a text, cut to its opening. It goes on with a picture of the line
where it stopped, which is left out here and where a value does not fit. -/
def flawMessage : Toml.Flaw → String
  | .malformed => "TOML parse error"
  | .tooDeep => "recursion limit\n"

def parse (text : String) : Except String (Option (List String)) :=
  match Toml.Document.read text with
  | .error flaw => .error (flawMessage flaw)
  | .ok document =>
    match folders? document with
    | .error mismatch =>
      let place := Toml.Document.position text mismatch.left
      .error ("TOML parse error at line " ++ toString place.1 ++ ", column " ++ toString place.2
        ++ ": " ++ mismatch.value.message)
    | .ok folders => .ok folders

/- Only a regular file counts as a settings file; without one the default folders stand. -/
def load (disk : Disk) (root : Path) : Except Failure Settings :=
  let path := root.join fileName
  if !disk.isFile path then .ok (atRoot root)
  else match disk.text path with
    | .error cause => .error (.settings path cause.message)
    | .ok text =>
      match parse text with
      | .error reason => .error (.settings path reason)
      | .ok none => .ok (atRoot root)
      | .ok (some folders) => .ok ⟨root, folders⟩

def isMarked (disk : Disk) (dir : Path) : Bool :=
  disk.isFile (dir.join fileName) || disk.present (dir.join repository)

def discoverFrom (disk : Disk) (start : Path) : Except Failure Settings :=
  match start.chain.find? (isMarked disk) with
  | none => .error (.rootNotFound start)
  | some dir => load disk dir

def discover (disk : Disk) : Except Failure Settings :=
  match disk.current with
  | .error cause => .error (.settings (Path.ofString ".") cause.message)
  | .ok start => discoverFrom disk start

theorem loadRoot {disk : Disk} {root : Path} {s : Settings} (h : load disk root = .ok s) :
    s.root = root := by
  unfold load at h
  dsimp only at h
  split at h
  · cases h
    rfl
  · split at h
    · cases h
    · split at h <;> cases h <;> rfl

end Settings

end ShellStyle
