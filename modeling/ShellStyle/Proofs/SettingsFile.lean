import ShellStyle.Proofs.Resolution

/-! When the settings file of a root is heeded. A regular file under its name is never passed over: either
what it holds is used, or the run ends and names the file. A directory or a special node under that name
is no settings file, and neither is an entry that leads nowhere. -/
namespace ShellStyle.Settings
open Text

variable {disk : Disk} {root : Path}

theorem loadTaken {s : Settings} (loaded : load disk root = .ok s) :
    ∃ file, States disk root (.ok file) ∧ s = ⟨root, file.getD defaultFolders⟩ := by
  obtain ⟨said, states⟩ := statesSomething disk root
  rw [loadStated states] at loaded
  cases said with
  | error reason => cases loaded
  | ok file => exact ⟨file, states, (Except.ok.inj loaded).symm⟩

theorem loadRefuses (file : disk.kind (root.join fileName) = .ok .file)
    (unfit : ∀ text, disk.bytes (root.join fileName) = .ok (Utf8.encode text) → ¬ Accepted text) :
    ∃ reason, load disk root = .error (.settings (root.join fileName) reason) := by
  obtain ⟨said, states⟩ := statesSomething disk root
  rw [loadStated states]
  cases states with
  | absent other => exact absurd file other
  | unreadable file refused => exact ⟨_, rfl⟩
  | noText file given invalid => exact ⟨_, rfl⟩
  | unfit file given refused told => exact ⟨_, rfl⟩
  | heeded file given written lists => exact absurd ⟨_, _, written, lists⟩ (unfit _ given)

theorem loadUnfiled (other : disk.kind (root.join fileName) ≠ .ok .file) :
    load disk root = .ok ⟨root, defaultFolders⟩ := loadStated (.absent other)

/- Nothing is said here of an entry that cannot be resolved, except that it may lead to the default folders. -/
theorem regularHeeded (disk : Disk) (root : Path) :
    (disk.kind (root.join fileName) = .ok .file →
      (∀ text, disk.bytes (root.join fileName) = .ok (Utf8.encode text) → ¬ Accepted text) →
      ∃ reason, load disk root = .error (.settings (root.join fileName) reason)) ∧
    (∀ kind, disk.kind (root.join fileName) = .ok kind → kind ≠ .file →
      load disk root = .ok ⟨root, defaultFolders⟩) ∧
    (∀ s, load disk root = .ok s →
      ∃ file, States disk root (.ok file) ∧ s = ⟨root, file.getD defaultFolders⟩) := by
  refine ⟨loadRefuses, ?_, fun s => loadTaken⟩
  intro kind answer other
  refine loadUnfiled ?_
  rw [answer]
  exact fun same => other (Except.ok.inj same)

theorem brokenHeeded : ∃ reason, load brokenBelow.disk (Path.ofString "/work") =
    .error (.settings (Path.ofString "/work/fn-lint.toml") reason) := by
  have named : (Path.ofString "/work").join fileName = Path.ofString "/work/fn-lint.toml" := by cbv
  have file : brokenBelow.disk.kind (Path.ofString "/work/fn-lint.toml") = .ok .file := by cbv
  have bytes : brokenBelow.disk.bytes (Path.ofString "/work/fn-lint.toml") = .ok [0xFF] := by cbv
  have undecoded : Utf8.decode? [0xFF] = none := by cbv
  obtain ⟨refuses, _⟩ := regularHeeded brokenBelow.disk (Path.ofString "/work")
  rw [named] at refuses
  refine refuses file fun text given => ?_
  rw [bytes, Except.ok.injEq] at given
  rw [given, Utf8.decodeEncode] at undecoded
  cases undecoded

def holding (node : Node) : Site := (⟨⟨[]⟩, [], 0⟩ : Site).insert [Utf8.encode "fn-lint.toml"] node

theorem entryPassedOver :
    ((holding .directory).disk.entries (Path.ofString "/") = .ok [.name (Utf8.encode "fn-lint.toml")] ∧
      (holding .directory).disk.text ((Path.ofString "/").join fileName) = .error .isDirectory ∧
      load (holding .directory).disk (Path.ofString "/") = .ok ⟨Path.ofString "/", defaultFolders⟩) ∧
    ((holding (.link (Path.ofString "gone"))).disk.entries (Path.ofString "/") =
        .ok [.name (Utf8.encode "fn-lint.toml")] ∧
      (holding (.link (Path.ofString "gone"))).disk.text ((Path.ofString "/").join fileName) =
        .error .notFound ∧
      load (holding (.link (Path.ofString "gone"))).disk (Path.ofString "/") =
        .ok ⟨Path.ofString "/", defaultFolders⟩) := by
  have directory : (holding .directory).disk.kind ((Path.ofString "/").join fileName) = .ok .directory := by
    cbv
  have link : (holding (.link (Path.ofString "gone"))).disk.kind ((Path.ofString "/").join fileName) =
      .error .notFound := by cbv
  refine ⟨⟨by cbv, by cbv, loadUnfiled (by simp [directory])⟩, by cbv, by cbv,
    loadUnfiled (by simp [link])⟩

end ShellStyle.Settings
