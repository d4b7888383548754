import ShellStyle.Proofs.SettingsFile

/-! Which settings are taken. What a text holds is told twice: by the document that is built, and by the
statements it is built from. -/
namespace ShellStyle.Settings
open Text Toml

/- The top-level table has no key but `folders`, and what stands there is an array of texts. -/
structure WellShaped (document : Fields) : Prop where
  keys : ∀ name ∈ document.names, name = "folders"
  list : ∀ value, document.find? "folders" = some value →
    ∃ items, value = .array items ∧ ∀ item ∈ items, ∃ text, item.value = .string text

theorem textsOf {items : List (Placed Value)} (strings : ∀ item ∈ items, ∃ text, item.value = .string text) :
    ∃ texts : List String, items.map (·.value) = texts.map .string := by
  induction items with
  | nil => exact ⟨[], rfl⟩
  | cons item rest ih =>
    obtain ⟨⟨text, first⟩, later⟩ := List.forall_mem_cons.mp strings
    obtain ⟨texts, same⟩ := ih later
    exact ⟨text :: texts, by simp [first, same]⟩

theorem wellShapedLists {document : Fields} (distinct : document.Distinct) (shaped : WellShaped document) :
    ∃ folders, document.Lists folders := by
  rcases document with _ | ⟨field, _ | ⟨second, more⟩⟩
  · exact ⟨none, .silent⟩
  · have key := shaped.keys field.key.name (by simp [Fields.names])
    obtain ⟨items, array, strings⟩ := shaped.list field.value (by simp [Fields.find?, key])
    obtain ⟨texts, same⟩ := textsOf strings
    exact ⟨some texts, .listed key array same⟩
  · have first := shaped.keys field.key.name (by simp [Fields.names])
    have next := shaped.keys second.key.name (by simp [Fields.names])
    simp [Fields.Distinct, Fields.names, first, next] at distinct

theorem listsWellShaped {document : Fields} {folders : Option (List String)} (lists : document.Lists folders) :
    WellShaped document := by
  cases lists with
  | silent => exact ⟨by simp [Fields.names], by simp [Fields.find?]⟩
  | @listed field items texts key array strings =>
    refine ⟨by simp [Fields.names, key], fun value found => ⟨items, ?_, fun item member => ?_⟩⟩
    · simp only [Fields.find?, key, if_true, Option.some.injEq] at found
      rw [← found, array]
    · have inside : item.value ∈ texts.map Value.string := strings ▸ List.mem_map_of_mem member
      obtain ⟨text, _, same⟩ := List.mem_map.mp inside
      exact ⟨text, same.symm⟩

variable {disk : Disk} {root : Path} {text : String}

theorem loadLists {s : Settings} (file : disk.kind (root.join fileName) = .ok .file)
    (holds : disk.bytes (root.join fileName) = .ok (Utf8.encode text)) : load disk root = .ok s ↔
      ∃ list folders, Document.found text = some list ∧ Statement.Lists list folders ∧
        s = ⟨root, folders.getD defaultFolders⟩ := by
  constructor
  · intro loaded
    obtain ⟨folders, states, same⟩ := loadTaken loaded
    cases states with
    | absent other => exact absurd file other
    | heeded _ given written lists =>
      rw [given, Except.ok.injEq] at holds
      cases Utf8.encodeInjective holds
      exact ⟨_, folders, written, lists, same⟩
  · rintro ⟨list, folders, written, lists, rfl⟩
    exact loadStated (.heeded file holds written lists)

theorem loadDocument {s : Settings} (file : disk.kind (root.join fileName) = .ok .file)
    (holds : disk.bytes (root.join fileName) = .ok (Utf8.encode text)) : load disk root = .ok s ↔
      ∃ document folders, Document.read text = .ok document ∧ document.Lists folders ∧
        s = ⟨root, folders.getD defaultFolders⟩ := by
  rw [loadLists file holds]
  constructor
  · rintro ⟨list, folders, written, lists, same⟩
    obtain ⟨document, read, shaped⟩ := Document.readLists.mpr ⟨list, written, lists⟩
    exact ⟨document, folders, read, shaped, same⟩
  · rintro ⟨document, folders, read, shaped, same⟩
    obtain ⟨list, written, lists⟩ := Document.readLists.mp ⟨document, read, shaped⟩
    exact ⟨list, folders, written, lists, same⟩

theorem listsFolders {document : Fields} {folders : Option (List String)} (lists : document.Lists folders) :
    (document.find? "folders" = none → folders.getD defaultFolders = defaultFolders) ∧
    ∀ value, document.find? "folders" = some value →
      ∃ items, value = .array items ∧ items.map (·.value) = (folders.getD defaultFolders).map .string := by
  cases lists with
  | silent => exact ⟨fun _ => rfl, by simp [Fields.find?]⟩
  | listed key array strings =>
    refine ⟨by simp [Fields.find?, key], fun value found => ⟨_, ?_, strings⟩⟩
    simp only [Fields.find?, key, if_true, Option.some.injEq] at found
    rw [← found, array]

theorem shapeDecides (disk : Disk) (root : Path) (text : String)
    (file : disk.kind (root.join fileName) = .ok .file)
    (holds : disk.bytes (root.join fileName) = .ok (Utf8.encode text)) :
    (∀ document, Document.read text = .ok document →
      ((∃ s, load disk root = .ok s) ↔ WellShaped document) ∧
      ∀ s, load disk root = .ok s → s.root = root ∧
        (document.find? "folders" = none → s.folders = defaultFolders) ∧
        ∀ value, document.find? "folders" = some value →
          ∃ items, value = .array items ∧ items.map (·.value) = s.folders.map .string) ∧
    (∀ s, load disk root = .ok s ↔ ∃ list folders, Document.found text = some list ∧
      Statement.Lists list folders ∧ s = ⟨root, folders.getD defaultFolders⟩) ∧
    ((∀ document, Document.read text = .ok document → ¬ WellShaped document) →
      ∃ reason, load disk root = .error (.settings (root.join fileName) reason)) := by
  refine ⟨fun document read => ⟨⟨?_, ?_⟩, ?_⟩, fun s => loadLists file holds, fun unfit => ?_⟩
  · rintro ⟨s, done⟩
    obtain ⟨other, folders, again, lists, _⟩ := (loadDocument file holds).mp done
    cases read.symm.trans again
    exact listsWellShaped lists
  · intro shaped
    obtain ⟨folders, lists⟩ := wellShapedLists (Document.readDistinct read) shaped
    exact ⟨_, (loadDocument file holds).mpr ⟨document, folders, read, lists, rfl⟩⟩
  · intro s done
    obtain ⟨other, folders, again, lists, rfl⟩ := (loadDocument file holds).mp done
    cases read.symm.trans again
    exact ⟨rfl, listsFolders lists⟩
  · refine loadRefuses file fun other given accepted => ?_
    obtain ⟨list, folders, written, lists⟩ := accepted
    obtain ⟨document, read, shaped⟩ := Document.readLists.mpr ⟨list, written, lists⟩
    rw [given, Except.ok.injEq] at holds
    cases Utf8.encodeInjective holds
    exact unfit document read (listsWellShaped shaped)

def quotedKey : String := "'folders' = ['a', \"\", \"\\u0061\"] # again\n"

def nestedList : String := "folders = ['a', ['b']]"

theorem quotedTakenNestedRefused :
    (∃ s, load (holding (.file (Utf8.encode quotedKey))).disk (Path.ofString "/") = .ok s ∧
      s.folders = ["a", "", "a"]) ∧
    ∃ reason, load (holding (.file (Utf8.encode nestedList))).disk (Path.ofString "/") =
      .error (.settings ((Path.ofString "/").join fileName) reason) := by
  have quoted : Document.read quotedKey = .ok [⟨⟨"folders", 40⟩, 28,
      .array [⟨27, .string "a"⟩, ⟨22, .string ""⟩, ⟨18, .string "a"⟩]⟩] := by cbv
  have nested : Document.read nestedList = .ok [⟨⟨"folders", 22⟩, 12,
      .array [⟨11, .string "a"⟩, ⟨6, .array [⟨5, .string "b"⟩]⟩]⟩] := by cbv
  obtain ⟨documents, _⟩ := shapeDecides (holding (.file (Utf8.encode quotedKey))).disk (Path.ofString "/")
    quotedKey (by cbv) (by cbv)
  obtain ⟨_, _, refused⟩ := shapeDecides (holding (.file (Utf8.encode nestedList))).disk (Path.ofString "/")
    nestedList (by cbv) (by cbv)
  refine ⟨?_, refused fun document read shaped => ?_⟩
  · obtain ⟨taken, folders⟩ := documents _ quoted
    obtain ⟨s, loaded⟩ := taken.mpr ⟨by simp [Fields.names], by simp [Fields.find?]⟩
    obtain ⟨_, _, listed⟩ := folders s loaded
    obtain ⟨items, array, strings⟩ := listed _ rfl
    cases array
    have same : s.folders.map Value.string = ["a", "", "a"].map Value.string := strings.symm
    exact ⟨s, loaded, List.map_injective_iff.mpr (fun _ _ => Value.string.inj) same⟩
  · cases nested.symm.trans read
    obtain ⟨items, array, strings⟩ := shaped.list _ rfl
    cases array
    obtain ⟨text, same⟩ := strings ⟨6, .array [⟨5, .string "b"⟩]⟩ (by simp)
    cases same

end ShellStyle.Settings
