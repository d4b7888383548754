import ShellStyle.Path

/-! What a run can learn from a disk: what stands at a path, the bytes of a file, the entries of a directory
and the current directory. A question that cannot be answered gives its cause. A `Snapshot` answers
from observations made beforehand. -/
namespace ShellStyle
open Text

inductive Cause where
  | notFound
  | permissionDenied
  | notDirectory
  | isDirectory
  | nameTooLong
  | tooManyLinks
  | notText
  | nulInPath
  | other (text : String)
  deriving DecidableEq, Repr

def Cause.message : Cause → String
  | notFound => "No such file or directory (os error 2)"
  | permissionDenied => "Permission denied (os error 13)"
  | notDirectory => "Not a directory (os error 20)"
  | isDirectory => "Is a directory (os error 21)"
  | nameTooLong => "File name too long (os error 36)"
  | tooManyLinks => "Too many levels of symbolic links (os error 40)"
  | notText => "stream did not contain valid UTF-8"
  | nulInPath => "file name contained an unexpected NUL byte"
  | other text => text

inductive Kind where
  | file | directory | special
  deriving DecidableEq, Repr

abbrev Name := List UInt8

/- What a listing gives at one turn. It may break there, without being over. -/
inductive Entry where
  | name (raw : Name)
  | broken (cause : Cause)
  deriving DecidableEq, Repr

def Entry.name? : Entry → Option Name
  | name raw => some raw
  | broken _ => none

structure Disk where
  current : Except Cause Path
  kind : Path → Except Cause Kind
  bytes : Path → Except Cause (List UInt8)
  entries : Path → Except Cause (List Entry)

namespace Disk

def isFile (disk : Disk) (p : Path) : Bool :=
  match disk.kind p with
  | .ok .file => true
  | _ => false

def present (disk : Disk) (p : Path) : Bool := (disk.kind p).isOk

def text (disk : Disk) (p : Path) : Except Cause String :=
  match disk.bytes p with
  | .error cause => .error cause
  | .ok bytes =>
    match Utf8.decode? bytes with
    | none => .error .notText
    | some text => .ok text

theorem textIff {disk : Disk} {p : Path} {text : String} :
    disk.text p = .ok text ↔
      ∃ bytes, disk.bytes p = .ok bytes ∧ Utf8.decode? bytes = some text := by
  unfold Disk.text
  cases disk.bytes p with
  | error cause => simp
  | ok bytes => cases h : Utf8.decode? bytes <;> simp [h]

end Disk

structure Observation where
  kind : Except Cause Kind
  bytes : Except Cause (List UInt8)
  entries : Except Cause (List Entry)

abbrev Snapshot := List (Path × Observation)

namespace Snapshot

def observed (s : Snapshot) (p : Path) : Observation :=
  (s.lookup p).getD ⟨.error .notFound, .error .notFound, .error .notFound⟩

def disk (current : Except Cause Path) (s : Snapshot) : Disk where
  current := current
  kind p := (s.observed p).kind
  bytes p := (s.observed p).bytes
  entries p := (s.observed p).entries

end Snapshot

end ShellStyle
