import ShellStyle.Proofs.Gather
import ShellStyle.Proofs.Outcomes
import ShellStyle.Report.Document
import ShellStyle.Report.Text

/-! The counts of a summary. Files are counted while they are scanned, owners while their verdicts are
gathered, so the two counts agree exactly where no two scanned files have one owner. -/
namespace ShellStyle
open Text

def Script.owner (s : Script) : Owner := ⟨s.folder, s.name⟩

theorem Script.verdictOwner {s : Script} {v : Verdict} (h : v ∈ s.verdicts) : v.owner = s.owner := by
  obtain ⟨rule, _, rfl⟩ := List.mem_map.mp h
  rfl

theorem Script.failedIff (s : Script) : 0 < s.failed ↔ ∃ v ∈ s.verdicts, v.passed = false := by
  simp [Script.failed, List.length_pos_iff_exists_mem]

theorem Outcome.cleanIff (verdicts : List Verdict) :
    (Outcome.ofVerdicts verdicts).clean = true ↔ ∀ v ∈ verdicts, v.passed = true := by
  rw [Outcome.clean, (Outcome.ofVerdictsFields verdicts).2]
  simp [List.filter_eq_nil_iff]

def Json.field? (name : String) : Json → Option Json
  | .object fields => fields.lookup name
  | _ => none

namespace Report

theorem ownersCounted (r : Report) : r.cleanFiles + r.failingFiles = r.keys.length := by
  rw [cleanFiles, failingFiles, ← List.length_eq_length_filter_add, outcomesTally, tally, List.length_map]

theorem ownedByMember {verdicts : List Verdict} {key : Owner} {v : Verdict} :
    v ∈ ownedBy verdicts key ↔ v ∈ verdicts ∧ v.owner = key := by
  simp [ownedBy]

theorem cleanFilesKeys (r : Report) : r.cleanFiles =
    (r.keys.filter fun key => (Outcome.ofVerdicts (ownedBy r.verdicts key)).clean).length := by
  rw [cleanFiles, outcomesTally, tally, List.filter_map, List.length_map]
  rfl

theorem allClean (r : Report) : r.cleanFiles = r.keys.length ↔ r.passed = true := by
  rw [cleanFilesKeys, List.length_filter_eq_length_iff, passed, List.all_eq_true]
  refine ⟨?_, ?_⟩
  · intro clean v member
    have key : v.owner ∈ r.keys := (keysMember r _).mpr (List.mem_map.mpr ⟨v, member, rfl⟩)
    exact (Outcome.cleanIff _).mp (clean _ key) v (ownedByMember.mpr ⟨member, rfl⟩)
  · intro passed key _
    exact (Outcome.cleanIff _).mpr fun v owned => passed v (ownedByMember.mp owned).1

theorem noneClean (r : Report) : r.failingFiles = r.keys.length ↔
    ∀ key ∈ r.keys, ∃ v ∈ r.verdicts, v.owner = key ∧ v.passed = false := by
  have counted := ownersCounted r
  have empty : r.failingFiles = r.keys.length ↔ r.cleanFiles = 0 := by omega
  rw [empty, cleanFilesKeys, List.length_eq_zero_iff, List.filter_eq_nil_iff]
  refine forall₂_congr fun key _ => ?_
  rw [Outcome.cleanIff]
  simp [ownedByMember]

theorem keysOfScripts (scripts : List Script) (key : Owner) :
    key ∈ (ofScripts scripts).keys ↔ key ∈ scripts.map Script.owner := by
  rw [keysMember, ofScripts, List.mem_map, List.mem_map]
  refine ⟨?_, ?_⟩
  · intro holds
    obtain ⟨v, member, rfl⟩ := holds
    obtain ⟨s, scanned, given⟩ := List.mem_flatMap.mp member
    exact ⟨s, scanned, (Script.verdictOwner given).symm⟩
  · intro holds
    obtain ⟨s, scanned, rfl⟩ := holds
    have given : Rule.shebang.judge s ∈ s.verdicts := by simp [Script.verdicts, Rule.all]
    exact ⟨_, List.mem_flatMap.mpr ⟨s, scanned, given⟩, rfl⟩

theorem keysPerm {r : Report} {owners : List Owner} (same : ∀ key, key ∈ r.keys ↔ key ∈ owners) :
    r.keys.Perm owners.dedup := by
  have unique := Owner.sortedNodup (keysSorted r)
  have perm := (List.perm_ext_iff_of_nodup unique (List.nodup_dedup owners)).mpr
  exact perm fun key => by rw [same, List.mem_dedup]

theorem keysCounted {r : Report} {owners : List Owner} (same : ∀ key, key ∈ r.keys ↔ key ∈ owners) :
    r.keys.length = owners.dedup.length := (keysPerm same).length_eq

theorem keysLength (scripts : List Script) :
    (ofScripts scripts).keys.length = (scripts.map Script.owner).dedup.length :=
  keysCounted (keysOfScripts scripts)

theorem dedupFull (owners : List Owner) : owners.dedup.length = owners.length ↔ owners.Nodup :=
  ⟨fun full => List.dedup_eq_self.mp ((List.dedup_sublist owners).eq_of_length full),
    fun unique => by rw [List.dedup_eq_self.mpr unique]⟩

theorem failingOwners {scripts : List Script} (unique : (scripts.map Script.owner).Nodup) :
    (∀ key ∈ (ofScripts scripts).keys,
      ∃ v ∈ (ofScripts scripts).verdicts, v.owner = key ∧ v.passed = false) ↔
    ∀ s ∈ scripts, 0 < s.failed := by
  refine ⟨?_, ?_⟩
  · intro failing s scanned
    have key := (keysOfScripts scripts _).mpr (List.mem_map_of_mem scanned)
    obtain ⟨v, member, owner, broken⟩ := failing s.owner key
    obtain ⟨other, found, given⟩ := List.mem_flatMap.mp member
    have same : other = s := List.inj_on_of_nodup_map unique found scanned
      ((Script.verdictOwner given).symm.trans owner)
    exact (Script.failedIff s).mpr ⟨v, same ▸ given, broken⟩
  · intro failing key known
    obtain ⟨s, scanned, rfl⟩ := List.mem_map.mp ((keysOfScripts scripts key).mp known)
    obtain ⟨v, given, broken⟩ := (Script.failedIff s).mp (failing s scanned)
    exact ⟨v, List.mem_flatMap.mpr ⟨s, scanned, given⟩, Script.verdictOwner given, broken⟩

def summaryField (r : Report) (name : String) : Option Json :=
  (r.toJson.field? "summary").bind (·.field? name)

theorem summaryFields (r : Report) : r.summaryField "files" = some (.number r.files) ∧
    r.summaryField "passed" = some (.bool r.passed) ∧
    r.summaryField "passingFiles" = some (.number r.cleanFiles) := ⟨rfl, rfl, rfl⟩

theorem summaryBroken {r : Report} (h : r.passed = false) : Styled.render false r.summary =
    "\n--- Summary ---" ++ "\n" ++ ("\n" ++ toString r.failingFiles ++ "/" ++ toString r.files
      ++ " file(s) failed with " ++ toString r.failures.length ++ " total violation(s).\n") ++ "\n" := by
  simp only [summary, closing, h, Bool.false_eq_true, if_false, Styled.renderAppend, newline,
    Styled.renderPlain]
  simp only [Styled.styled, Styled.render, Styled.spanText, String.append_empty]

end Report

def Script.among (items : List Found) : List Script := items.filterMap Except.toOption

theorem Script.amongOk (scripts : List Script) : Script.among (scripts.map .ok) = scripts := by
  simp [among, List.filterMap_map, Function.comp_def, Except.toOption]

theorem Script.amongFolders (disk : Disk) (base : Path) (folders : List String) :
    Script.among (folders.flatMap (Scan.folderItems disk base)) =
      folders.flatMap fun folder => Script.among (Scan.folderItems disk base folder) := by
  simp [among, List.filterMap_flatMap]

theorem Script.entryOwners (disk : Disk) (folder : String) (path : Path) (entry : Entry) :
    ((Script.among (Scan.entryItems disk folder path entry)).map Script.owner).Sublist
      (entry.name?.toList.map fun raw => ⟨folder, Utf8.decodeLossy raw⟩) := by
  cases entry with
  | broken cause => exact List.nil_sublist _
  | name raw =>
    simp only [Scan.entryItems, Entry.name?]
    split
    · split
      · exact List.nil_sublist _
      · split
        · exact List.nil_sublist _
        · split
          · exact List.nil_sublist _
          · exact List.Sublist.refl _
      · exact List.nil_sublist _
    · exact List.nil_sublist _

theorem Script.listingOwners (disk : Disk) (folder : String) (path : Path) (entries : List Entry) :
    ((Script.among (entries.flatMap (Scan.entryItems disk folder path))).map Script.owner).Sublist
      ((entries.filterMap Entry.name?).map fun raw => ⟨folder, Utf8.decodeLossy raw⟩) := by
  induction entries with
  | nil => exact List.nil_sublist _
  | cons entry rest ih =>
    have both := (Script.entryOwners disk folder path entry).append ih
    rw [← List.map_append] at both
    cases entry with
    | broken cause => simpa [among, List.filterMap_cons, Entry.name?] using both
    | name raw => simpa [among, Entry.name?] using both

namespace Settings

def Distinct (disk : Disk) (s : Settings) : Prop :=
  s.folders.Nodup ∧ ∀ folder ∈ s.folders, ∀ entries,
    disk.entries (s.root.join (Path.ofString folder)) = .ok entries →
      ((entries.filterMap Entry.name?).map Utf8.decodeLossy).Nodup

theorem folderOwners {disk : Disk} {base : Path} {folder : String} {owner : Owner}
    (h : owner ∈ (Script.among (Scan.folderItems disk base folder)).map Script.owner) :
    owner.folder = folder := by
  rw [Scan.folderItems] at h
  split at h
  · simp [Script.among, Except.toOption] at h
  · have listed := (Script.listingOwners _ _ _ _).subset h
    obtain ⟨raw, _, rfl⟩ := List.mem_map.mp listed
    rfl

theorem distinctOwners {disk : Disk} {s : Settings} {scripts : List Script} (h : s.Distinct disk)
    (all : Scan.all disk s.root s.folders = scripts.map .ok) : (scripts.map Script.owner).Nodup := by
  rw [Scan.allItems] at all
  rw [← Script.amongOk scripts, ← all, Script.amongFolders, List.map_flatMap, List.nodup_flatMap]
  refine ⟨?_, ?_⟩
  · intro folder member
    rw [Scan.folderItems]
    split
    · exact List.nodup_nil
    · rename_i entries listing
      refine List.Nodup.sublist (Script.listingOwners _ _ _ _) ?_
      have names := h.2 folder member entries listing
      have apart : Function.Injective fun name => (⟨folder, name⟩ : Owner) := by
        intro a b same
        exact congrArg Owner.file same
      simpa [Function.comp_def] using names.map apart
  · refine List.Pairwise.imp ?_ h.1
    intro a b different owner first second
    exact different ((folderOwners first).symm.trans (folderOwners second))

/- A folder that is named twice has its files scanned twice, but each file has one outcome. -/
theorem countsByOwner {disk : Disk} {settings : Settings} {report : Report}
    (h : (settings.lint disk).2 = .ok report) :
    ∃ scripts : List Script, Scan.all disk settings.root settings.folders = scripts.map .ok ∧
      report.cleanFiles + report.failingFiles = (scripts.map Script.owner).dedup.length ∧
      (report.cleanFiles + report.failingFiles = report.files ↔ (scripts.map Script.owner).Nodup) ∧
      (settings.Distinct disk → (scripts.map Script.owner).Nodup) ∧
      (report.summaryField "passingFiles" = report.summaryField "files" ↔
        report.summaryField "passed" = some (.bool true) ∧ (scripts.map Script.owner).Nodup) ∧
      (report.passed = false → Styled.render false report.summary =
        "\n--- Summary ---" ++ "\n" ++ ("\n" ++ toString report.failingFiles ++ "/"
          ++ toString report.files ++ " file(s) failed with " ++ toString report.failures.length
          ++ " total violation(s).\n") ++ "\n") ∧
      (report.failingFiles = report.files ↔
        (∀ s ∈ scripts, 0 < s.failed) ∧ (scripts.map Script.owner).Nodup) := by
  obtain ⟨scripts, all, rfl⟩ := lintOk.mp h
  have counted := (Report.ofScripts scripts).ownersCounted
  have keys := Report.keysLength scripts
  have full := Report.dedupFull (scripts.map Script.owner)
  have bound := (List.dedup_sublist (scripts.map Script.owner)).length_le
  have files : (Report.ofScripts scripts).files = (scripts.map Script.owner).length := by
    simp [Report.ofScripts]
  refine ⟨scripts, all, counted.trans keys, ?_, fun h => distinctOwners h all, ?_,
    Report.summaryBroken, ?_⟩
  · rw [counted, keys, files, full]
  · obtain ⟨total, passed, passing⟩ := (Report.ofScripts scripts).summaryFields
    have clean := (Report.ofScripts scripts).allClean
    rw [total, passed, passing, ← full]
    simp only [Option.some.injEq, Json.number.injEq, Json.bool.injEq, ← clean]
    omega
  · have none := (Report.ofScripts scripts).noneClean
    refine ⟨?_, ?_⟩
    · intro same
      have unique : (scripts.map Script.owner).Nodup := full.mp (by omega)
      exact ⟨(Report.failingOwners unique).mp (none.mp (by omega)), unique⟩
    · intro holds
      obtain ⟨failing, unique⟩ := holds
      have every := none.mpr ((Report.failingOwners unique).mpr failing)
      have whole := full.mpr unique
      omega

theorem twoFoldersDistinct : (⟨Path.ofString "/", ["bin", "lib"]⟩ : Settings).Distinct twoFolders.disk := by
  have bin : twoFolders.disk.entries ((Path.ofString "/").join (Path.ofString "bin")) =
      .ok [.name (Utf8.encode "list-items")] := by cbv
  have lib : twoFolders.disk.entries ((Path.ofString "/").join (Path.ofString "lib")) =
      .ok [.name (Utf8.encode "old_script")] := by cbv
  refine ⟨by decide, ?_⟩
  intro folder member entries listing
  simp only [List.mem_cons, List.not_mem_nil, or_false] at member
  rcases member with rfl | rfl
  · rw [bin] at listing
    cases listing
    exact List.nodup_singleton _
  · rw [lib] at listing
    cases listing
    exact List.nodup_singleton _

theorem twoFoldersCounted :
    ((⟨Path.ofString "/", ["bin", "lib"]⟩ : Settings).lint twoFolders.disk).2 =
      .ok (Report.ofScripts [listItems, oldScript]) ∧
    (Report.ofScripts [listItems, oldScript]).cleanFiles +
      (Report.ofScripts [listItems, oldScript]).failingFiles =
      (Report.ofScripts [listItems, oldScript]).files := by
  obtain ⟨scripts, _, _, unique, distinct, _⟩ := countsByOwner twoFoldersLinted
  exact ⟨twoFoldersLinted, unique.mpr (distinct twoFoldersDistinct)⟩

theorem folderNamedTwice :
    ((⟨Path.ofString "/", ["bin", "bin"]⟩ : Settings).lint twoFolders.disk).2 =
      .ok (Report.ofScripts [listItems, listItems]) ∧
    (Report.ofScripts [listItems, listItems]).files = 2 ∧
    (Report.ofScripts [listItems, listItems]).cleanFiles +
      (Report.ofScripts [listItems, listItems]).failingFiles = 1 ∧
    (Report.ofScripts [listItems, listItems]).summaryField "passed" = some (.bool true) ∧
    (Report.ofScripts [listItems, listItems]).summaryField "passingFiles" ≠
      (Report.ofScripts [listItems, listItems]).summaryField "files" := by
  have found : Scan.all twoFolders.disk (Path.ofString "/") ["bin", "bin"] =
      [listItems, listItems].map .ok := by
    rw [Scan.allItems]
    cbv
  have clean : (Report.ofScripts [listItems, listItems]).cleanFiles = 1 := by cbv
  have failing : (Report.ofScripts [listItems, listItems]).failingFiles = 0 := by cbv
  have passed : (Report.ofScripts [listItems, listItems]).passed = true := by cbv
  obtain ⟨files, verdict, passing⟩ := (Report.ofScripts [listItems, listItems]).summaryFields
  refine ⟨lintOk.mpr ⟨_, found, rfl⟩, rfl, by rw [clean, failing], by rw [verdict, passed], ?_⟩
  rw [files, passing, clean]
  intro same
  cases same

end Settings

end ShellStyle
