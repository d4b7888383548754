import ShellStyle.Proofs.Below
import ShellStyle.Proofs.Verdict

/-! What a run can tell two disks apart by: the cause for which a folder cannot be listed, and of a listing its
breaks and its candidates, each with what comes of reading it. The entries that are passed by leave no trace,
so a tree may change in them as it likes, with all that stands below them. -/
namespace ShellStyle
open Text

def Disk.reading (disk : Disk) (p : Path) : Except Cause (List UInt8) :=
  match disk.kind p with
  | .error cause => .error cause
  | .ok _ => disk.bytes p

def Entry.tested (disk : Disk) (path : Path) : Entry → Bool
  | .broken _ => true
  | .name raw => Script.isCandidate (Utf8.decodeLossy raw) && (match disk.kind (path.join ⟨raw⟩) with
    | .ok .directory | .ok .special => false
    | _ => true)

inductive SameTested (a b : Disk) (path : Path) :
    Except Cause (List Entry) → Except Cause (List Entry) → Prop where
  | refused (cause : Cause) : SameTested a b path (.error cause) (.error cause)
  | listed {here there : List Entry} (kept : here.filter (·.tested a path) = there.filter (·.tested b path))
      (read : ∀ raw, .name raw ∈ here.filter (·.tested a path) →
        a.reading (path.join ⟨raw⟩) = b.reading (path.join ⟨raw⟩)) :
      SameTested a b path (.ok here) (.ok there)

namespace Scan

variable {a b disk : Disk} {folder : String} {path : Path}

def readItem (folder : String) (path : Path) (raw : Name) : Except Cause (List UInt8) → Found
  | .error cause => .error (.file folder (Utf8.decodeLossy raw) cause)
  | .ok bytes =>
    match Utf8.decode? bytes with
    | none => .error (.file folder (Utf8.decodeLossy raw) .notText)
    | some text => .ok ⟨folder, Utf8.decodeLossy raw, path.join ⟨raw⟩, text⟩

theorem passedItems {entry : Entry} (passed : entry.tested disk path = false) :
    entryItems disk folder path entry = [] := by
  cases entry with
  | broken cause => cases passed
  | name raw =>
    simp only [Entry.tested] at passed
    simp only [entryItems]
    cases candidate : Script.isCandidate (Utf8.decodeLossy raw) with
    | false => rfl
    | true =>
      rw [candidate, Bool.true_and] at passed
      cases answer : disk.kind (path.join ⟨raw⟩) with
      | error cause => simp [answer] at passed
      | ok kind =>
        cases kind with
        | file => simp [answer] at passed
        | directory => rfl
        | special => rfl

theorem testedItems {raw : Name} (tested : (Entry.name raw).tested disk path = true) :
    entryItems disk folder path (.name raw) = [readItem folder path raw (disk.reading (path.join ⟨raw⟩))] := by
  obtain ⟨candidate, found⟩ := Bool.and_eq_true_iff.mp tested
  simp only [entryItems, candidate, Disk.reading, if_true]
  cases answer : disk.kind (path.join ⟨raw⟩) with
  | error cause => rfl
  | ok kind =>
    cases kind with
    | directory => simp [answer] at found
    | special => simp [answer] at found
    | file =>
      cases disk.bytes (path.join ⟨raw⟩) with
      | error cause => rfl
      | ok bytes => cases decoded : Utf8.decode? bytes <;> simp [readItem, decoded]

theorem itemsTested (entries : List Entry) : entries.flatMap (entryItems disk folder path) =
    (entries.filter (·.tested disk path)).flatMap (entryItems disk folder path) := by
  induction entries with
  | nil => rfl
  | cons entry rest ih =>
    rw [List.flatMap_cons, List.filter_cons, ih]
    cases tested : entry.tested disk path with
    | false => simp [passedItems tested]
    | true => simp

theorem itemsSame {here there : List Entry}
    (kept : here.filter (·.tested a path) = there.filter (·.tested b path))
    (read : ∀ raw, .name raw ∈ here.filter (·.tested a path) →
      a.reading (path.join ⟨raw⟩) = b.reading (path.join ⟨raw⟩)) :
    here.flatMap (entryItems a folder path) = there.flatMap (entryItems b folder path) := by
  rw [itemsTested here, itemsTested there, ← kept]
  refine List.flatMap_congr fun entry member => ?_
  cases entry with
  | broken cause => rfl
  | name raw =>
    have tested := (List.mem_filter.mp member).2
    have testedThere := (List.mem_filter.mp (kept ▸ member)).2
    rw [testedItems tested, testedItems testedThere, read raw member]

theorem folderItemsSame {base : Path} (same : SameTested a b (base.join (Path.ofString folder))
    (a.entries (base.join (Path.ofString folder))) (b.entries (base.join (Path.ofString folder)))) :
    folderItems a base folder = folderItems b base folder := by
  rw [folderItems, folderItems]
  generalize a.entries (base.join (Path.ofString folder)) = here at same ⊢
  generalize b.entries (base.join (Path.ofString folder)) = there at same ⊢
  cases same with
  | refused cause => rfl
  | listed kept read => exact itemsSame kept read

end Scan

theorem Settings.lintSame {a b : Disk} {s : Settings} (same : ∀ folder ∈ s.folders,
    SameTested a b (s.place folder) (a.entries (s.place folder)) (b.entries (s.place folder))) :
    (s.lint a).2 = (s.lint b).2 := by
  have found : Scan.all a s.root s.folders = Scan.all b s.root s.folders := by
    rw [Scan.allItems, Scan.allItems]
    exact List.flatMap_congr fun folder member => Scan.folderItemsSame (same folder member)
  rw [lintCollect, lintCollect, found]

namespace Tree

variable {t u : Tree} {changed : Location → Bool} {place : Location}

def without (t : Tree) (changed : Location → Bool) : Tree := ⟨t.entries.filter fun e => !changed e.1⟩

theorem withoutNode (kept : changed place = false) : (t.without changed).node? place = t.node? place := by
  simp only [node?, without]
  split
  · rfl
  · induction t.entries with
    | nil => rfl
    | cons e rest ih =>
      obtain ⟨other, node⟩ := e
      rw [List.filter_cons, List.lookup_cons]
      by_cases same : place = other
      · subst same
        simp [kept]
      · have apart : (place == other) = false := by simpa using same
        cases changed other <;> simp [List.lookup_cons, apart, ih]

theorem listedPlace {e : Location × Node} {raw : Name}
    (listed : (if e.1.dropLast = place then e.1.getLast? else none) = some raw) : e.1 = place ++ [raw] := by
  split at listed
  · rename_i inside
    obtain ⟨front, same⟩ := List.getLast?_eq_some_iff.mp listed
    rw [same, List.dropLast_concat] at inside
    rw [same, inside]
  · cases listed

theorem withoutNames {keep : Name → Bool}
    (passed : ∀ raw ∈ t.names place, changed (place ++ [raw]) = true → keep raw = false) :
    (t.names place).filter keep = ((t.without changed).names place).filter keep := by
  obtain ⟨entries⟩ := t
  simp only [names, without] at passed ⊢
  induction entries with
  | nil => rfl
  | cons e rest ih =>
    simp only [List.filterMap_cons] at passed
    rw [List.filter_cons, List.filterMap_cons]
    cases listed : (if e.1.dropLast = place then e.1.getLast? else none) with
    | none =>
      rw [listed] at passed
      cases changed e.1 <;> simp [listed, ih passed]
    | some raw =>
      rw [listed] at passed
      obtain ⟨first, later⟩ := List.forall_mem_cons.mp passed
      rw [← listedPlace listed] at first
      cases hidden : changed e.1 with
      | false => simp [listed, List.filter_cons, ih later]
      | true => simp [first hidden, ih later]

theorem keptNames {raw : Name} (member : raw ∈ (t.without changed).names place) :
    raw ∈ t.names place ∧ changed (place ++ [raw]) = false := by
  obtain ⟨e, inside, listed⟩ := List.mem_filterMap.mp member
  obtain ⟨entry, kept⟩ := List.mem_filter.mp inside
  refine ⟨List.mem_filterMap.mpr ⟨e, entry, listed⟩, ?_⟩
  rw [← listedPlace listed]
  simpa using kept

end Tree

/- Trees that differ at the changed places alone. None of these is a folder of the settings, and the ones that
lie in such a folder are passed by wherever they exist. The folders and the candidates that are links lead
where they led. The names listed are such as a directory can hold. -/
structure Site.Unseen (a b : Site) (s : Settings) (changed : Location → Bool) : Prop where
  elsewhere : a.tree.without changed = b.tree.without changed
  folders : ∀ folder ∈ s.folders, a.resolve (s.place folder) = b.resolve (s.place folder)
  standing : ∀ folder ∈ s.folders, ∀ place, a.resolve (s.place folder) = .ok (.place place) →
    changed place = false
  passed : ∀ folder ∈ s.folders, ∀ place, a.resolve (s.place folder) = .ok (.place place) →
    ∀ raw, changed (place ++ [raw]) = true →
      (raw ∈ a.tree.names place → (Entry.name raw).tested a.disk (s.place folder) = false) ∧
      (raw ∈ b.tree.names place → (Entry.name raw).tested b.disk (s.place folder) = false)
  links : ∀ folder ∈ s.folders, ∀ place, a.resolve (s.place folder) = .ok (.place place) →
    ∀ raw ∈ a.tree.names place, ∀ target, a.tree.node? (place ++ [raw]) = some (.link target) →
      changed (place ++ [raw]) = false → Script.isCandidate (Utf8.decodeLossy raw) = true →
      a.nodeAt ((s.place folder).join ⟨raw⟩) = b.nodeAt ((s.place folder).join ⟨raw⟩)
  plain : ∀ folder ∈ s.folders, ∀ place, a.resolve (s.place folder) = .ok (.place place) →
    ∀ raw ∈ a.tree.names place, Path.Plain raw

namespace Site

variable {a b : Site} {s : Settings} {changed : Location → Bool}

theorem kindSame {p : Path} (same : a.nodeAt p = b.nodeAt p) : a.disk.kind p = b.disk.kind p := by
  simp only [disk, same]

theorem readingSame {p : Path} (same : a.nodeAt p = b.nodeAt p) : a.disk.reading p = b.disk.reading p := by
  simp only [Disk.reading, disk, same]

theorem testedSame {path : Path} {raw : Name}
    (same : Script.isCandidate (Utf8.decodeLossy raw) = true →
      a.nodeAt (path.join ⟨raw⟩) = b.nodeAt (path.join ⟨raw⟩)) :
    (Entry.name raw).tested a.disk path = (Entry.name raw).tested b.disk path := by
  simp only [Entry.tested]
  cases candidate : Script.isCandidate (Utf8.decodeLossy raw) with
  | false => rfl
  | true => rw [kindSame (same candidate)]

theorem unseenStays (unseen : a.Unseen b s changed) {place : Location} (kept : changed place = false) :
    a.tree.node? place = b.tree.node? place := by
  rw [← Tree.withoutNode kept, unseen.elsewhere, Tree.withoutNode kept]

theorem unseenNode (unseen : a.Unseen b s changed) {folder : String} (member : folder ∈ s.folders)
    {place : Location} (resolved : a.resolve (s.place folder) = .ok (.place place)) {raw : Name}
    (listed : raw ∈ a.tree.names place) (kept : changed (place ++ [raw]) = false)
    (candidate : Script.isCandidate (Utf8.decodeLossy raw) = true) :
    a.nodeAt ((s.place folder).join ⟨raw⟩) = b.nodeAt ((s.place folder).join ⟨raw⟩) := by
  by_cases link : ∃ target, a.tree.node? (place ++ [raw]) = some (.link target)
  · obtain ⟨target, node⟩ := link
    exact unseen.links folder member place resolved raw listed target node kept candidate
  · have there := (unseen.folders folder member).symm.trans resolved
    have folderStays := unseenStays unseen (unseen.standing folder member place resolved)
    exact nodeJoinedSame resolved there (unseen.plain folder member place resolved raw listed) folderStays
      (unseenStays unseen kept) fun target node => link ⟨target, node⟩

theorem unseenNames (unseen : a.Unseen b s changed) {folder : String} (member : folder ∈ s.folders)
    {place : Location} (resolved : a.resolve (s.place folder) = .ok (.place place)) :
    (a.tree.names place).filter (fun raw => (Entry.name raw).tested a.disk (s.place folder)) =
      (b.tree.names place).filter fun raw => (Entry.name raw).tested b.disk (s.place folder) := by
  have passed := unseen.passed folder member place resolved
  rw [Tree.withoutNames fun raw listed hidden => (passed raw hidden).1 listed,
    Tree.withoutNames fun raw listed hidden => (passed raw hidden).2 listed, ← unseen.elsewhere]
  refine List.filter_congr fun raw kept => testedSame fun candidate => ?_
  obtain ⟨listed, shown⟩ := Tree.keptNames kept
  exact unseenNode unseen member resolved listed shown candidate

theorem unseenReading (unseen : a.Unseen b s changed) {folder : String} (member : folder ∈ s.folders)
    {place : Location} (resolved : a.resolve (s.place folder) = .ok (.place place)) {raw : Name}
    (listed : raw ∈ a.tree.names place)
    (tested : (Entry.name raw).tested a.disk (s.place folder) = true) :
    a.disk.reading ((s.place folder).join ⟨raw⟩) = b.disk.reading ((s.place folder).join ⟨raw⟩) := by
  have candidate := (Bool.and_eq_true_iff.mp tested).1
  refine readingSame (unseenNode unseen member resolved listed ?_ candidate)
  cases hidden : changed (place ++ [raw]) with
  | false => rfl
  | true =>
    have passed := (unseen.passed folder member place resolved raw hidden).1 listed
    exact absurd tested (Bool.eq_false_iff.mp passed)

theorem unseenListing (unseen : a.Unseen b s changed) {folder : String} (member : folder ∈ s.folders) :
    SameTested a.disk b.disk (s.place folder) (a.disk.entries (s.place folder))
      (b.disk.entries (s.place folder)) := by
  have there := unseen.folders folder member
  cases here : a.resolve (s.place folder) with
  | error cause =>
    rw [here] at there
    simp only [disk, nodeAt, here, ← there]
    exact .refused cause
  | ok spot =>
    rw [here] at there
    cases spot with
    | removed =>
      simp only [disk, nodeAt, here, ← there]
      exact .listed rfl (by simp [namesAt])
    | place place =>
      have node := unseenStays unseen (unseen.standing folder member place here)
      simp only [disk, nodeAt, here, ← there, ← node]
      cases a.tree.node? place with
      | none => exact .refused .notFound
      | some found =>
        cases found with
        | file bytes => exact .refused .notDirectory
        | link target => exact .refused .notDirectory
        | special => exact .refused .notDirectory
        | directory =>
          refine .listed ?_ ?_
          · simp only [namesAt, List.filter_map]
            exact congrArg (List.map Entry.name) (unseenNames unseen member here)
          · intro raw kept
            obtain ⟨inside, tested⟩ := List.mem_filter.mp kept
            have listed : raw ∈ a.tree.names place := by simpa [namesAt] using inside
            exact unseenReading unseen member here listed tested

end Site

namespace Settings

/- The second part lets a tree change freely in what is passed by. -/
theorem candidatesOnly (s : Settings) :
    (∀ a b : Disk, (∀ folder ∈ s.folders,
      SameTested a b (s.place folder) (a.entries (s.place folder)) (b.entries (s.place folder))) →
      (s.lint a).2 = (s.lint b).2) ∧
    (∀ (a b : Site) (changed : Location → Bool), a.Unseen b s changed →
      (s.lint a.disk).2 = (s.lint b.disk).2) :=
  ⟨fun _ _ => lintSame, fun _ _ _ unseen => lintSame fun _ member => Site.unseenListing unseen member⟩

def binAlone : Settings := ⟨Path.ofString "/", ["bin"]⟩

def crowded : Site :=
  (((twoFolders.insert [Utf8.encode "bin", Utf8.encode "README.md"] (.file [0xFF])).insert
    [Utf8.encode "bin", Utf8.encode "_draft"] (.link (Path.ofString "nowhere"))).insert
    [Utf8.encode "bin", Utf8.encode "nested", Utf8.encode "deep"] (.file [0xFF])).insert
    [Utf8.encode "bin", Utf8.encode "pipe"] .special

def added (place : Location) : Bool := !(twoFolders.tree.entries.map (·.1)).contains place

theorem crowdedUnseen : crowded.Unseen twoFolders binAlone added := by
  have folder : ∀ folder ∈ binAlone.folders, folder = "bin" := fun folder => List.mem_singleton.mp
  have resolved : crowded.resolve (binAlone.place "bin") = .ok (.place [Utf8.encode "bin"]) := by cbv
  have spot : ∀ place, crowded.resolve (binAlone.place "bin") = .ok (.place place) →
      place = [Utf8.encode "bin"] := by
    intro place again
    cases resolved.symm.trans again
    rfl
  have others : (crowded.tree.names [Utf8.encode "bin"]).all fun raw =>
      raw = Utf8.encode "list-items" || added ([Utf8.encode "bin"] ++ [raw]) &&
        !(Entry.name raw).tested crowded.disk (binAlone.place "bin") := by
    cbv
  have alone : twoFolders.tree.names [Utf8.encode "bin"] = [Utf8.encode "list-items"] := by cbv
  have stayed : added ([Utf8.encode "bin"] ++ [Utf8.encode "list-items"]) = false := by cbv
  have file : crowded.tree.node? ([Utf8.encode "bin"] ++ [Utf8.encode "list-items"]) =
      some (.file (Utf8.encode "#!/bin/sh -h")) := by cbv
  have plain : ∀ raw ∈ crowded.tree.names [Utf8.encode "bin"], Path.Plain raw := by decide +kernel
  rw [List.all_eq_true] at others
  refine ⟨by cbv, ?_, ?_, ?_, ?_, ?_⟩
  · intro name member
    rw [folder name member, resolved]
    cbv
  · intro name member place standing
    rw [folder name member] at standing
    rw [spot place standing]
    cbv
  · intro name member place standing raw hidden
    rw [folder name member] at standing ⊢
    rw [spot place standing] at hidden ⊢
    refine ⟨fun listed => ?_, fun listed => ?_⟩
    · rcases Bool.or_eq_true_iff.mp (others raw listed) with same | passed
      · rw [of_decide_eq_true same, stayed] at hidden
        cases hidden
      · simpa using (Bool.and_eq_true_iff.mp passed).2
    · rw [alone, List.mem_singleton] at listed
      rw [listed, stayed] at hidden
      cases hidden
  · intro name member place standing raw listed target link shown _
    rw [folder name member] at standing
    rw [spot place standing] at listed link shown
    rcases Bool.or_eq_true_iff.mp (others raw listed) with same | passed
    · rw [of_decide_eq_true same, file] at link
      cases link
    · rw [(Bool.and_eq_true_iff.mp passed).1] at shown
      cases shown
  · intro name member place standing
    rw [folder name member] at standing
    rw [spot place standing]
    exact plain

theorem crowdedSame : crowded.tree.names [Utf8.encode "bin"] ≠ twoFolders.tree.names [Utf8.encode "bin"] ∧
    (binAlone.lint crowded.disk).2 = (binAlone.lint twoFolders.disk).2 ∧
    (binAlone.lint crowded.disk).2 = .ok (Report.ofScripts [listItems]) := by
  have found : Scan.all twoFolders.disk (Path.ofString "/") ["bin"] = [listItems].map .ok := by
    rw [Scan.allItems]
    cbv
  obtain ⟨byCandidates, byChange⟩ := candidatesOnly binAlone
  have same := byCandidates crowded.disk twoFolders.disk fun _ => Site.unseenListing crowdedUnseen
  exact ⟨by decide +kernel, byChange crowded twoFolders added crowdedUnseen,
    same.trans (lintOk.mpr ⟨_, found, rfl⟩)⟩

end Settings

end ShellStyle
