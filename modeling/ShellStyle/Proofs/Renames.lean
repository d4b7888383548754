import ShellStyle.Proofs.PassedBy
import ShellStyle.Proofs.RawBytes
import ShellStyle.Proofs.ReadBack

/-! What becomes of a folder if the advice of a report is followed. A new name is made from the old one alone,
so it may be taken, by another entry or by an earlier move. The moves are carried out one after the other;
a taken name is met exactly if two new names agree or one is in use before the first move, in any order. -/
namespace ShellStyle
open Text

abbrev Directory (α : Type) := Name → Option α

namespace Directory

variable {α : Type} {held : Directory α} {mend : Name → Name} {raws : List Name} {raw old new name : Name}

def move (held : Directory α) (old new : Name) : Directory α :=
  if (held old).isSome then Function.update (Function.update held old none) new (held old) else held

def moveAll (mend : Name → Name) : List Name → Directory α → Directory α
  | [], held => held
  | raw :: rest, held => moveAll mend rest (held.move raw (mend raw))

/- Some move finds its new name taken when its turn has come. -/
def Overwrites (mend : Name → Name) : List Name → Directory α → Prop
  | [], _ => False
  | raw :: rest, held => (held (mend raw)).isSome ∨ Overwrites mend rest (held.move raw (mend raw))

theorem moveNew (present : (held old).isSome) : held.move old new new = held old := by
  rw [move, if_pos present, Function.update_self]

theorem moveOld (apart : old ≠ new) : held.move old new old = none := by
  rw [move]
  split
  · rw [Function.update_of_ne apart, Function.update_self]
  · rename_i missing
    simpa using missing

theorem moveOther (first : name ≠ old) (second : name ≠ new) : held.move old new name = held name := by
  rw [move]
  split
  · rw [Function.update_of_ne second, Function.update_of_ne first]
  · rfl

structure Movable (mend : Name → Name) (raws : List Name) (held : Directory α) : Prop where
  once : raws.Nodup
  present : ∀ raw ∈ raws, (held raw).isSome
  apart : ∀ raw ∈ raws, ∀ other ∈ raws, mend raw ≠ other

theorem moveMovable (movable : Movable mend (raw :: raws) held) :
    Movable mend raws (held.move raw (mend raw)) := by
  obtain ⟨fresh, once⟩ := List.nodup_cons.mp movable.once
  refine ⟨once, fun other member => ?_, fun one first two second => ?_⟩
  · have stays : held.move raw (mend raw) other = held other :=
      moveOther (fun same => fresh (same ▸ member))
        (movable.apart raw List.mem_cons_self other (List.mem_cons_of_mem _ member)).symm
    rw [stays]
    exact movable.present other (List.mem_cons_of_mem _ member)
  · exact movable.apart one (List.mem_cons_of_mem _ first) two (List.mem_cons_of_mem _ second)

theorem moveTaken (movable : Movable mend (raw :: raws) held) {other : Name} (member : other ∈ raws) :
    (held.move raw (mend raw) (mend other)).isSome ↔ (held (mend other)).isSome ∨ mend other = mend raw := by
  by_cases same : mend other = mend raw
  · rw [same, moveNew (movable.present raw List.mem_cons_self)]
    simp [movable.present raw List.mem_cons_self]
  · have front : mend other ≠ raw :=
      movable.apart other (List.mem_cons_of_mem _ member) raw List.mem_cons_self
    rw [moveOther front same]
    simp [same]

theorem overwritesIff (movable : Movable mend raws held) :
    Overwrites mend raws held ↔ (∃ raw ∈ raws, (held (mend raw)).isSome) ∨ ¬ (raws.map mend).Nodup := by
  induction raws generalizing held with
  | nil => simp [Overwrites]
  | cons raw rest ih =>
    have later : (∃ other ∈ rest, (held.move raw (mend raw) (mend other)).isSome) ↔
        (∃ other ∈ rest, (held (mend other)).isSome) ∨ mend raw ∈ rest.map mend := by
      rw [List.mem_map, ← exists_or]
      refine exists_congr fun other => ?_
      rw [← and_or_left]
      exact and_congr_right fun member => moveTaken movable member
    rw [Overwrites, ih (moveMovable movable), later, List.exists_mem_cons_iff, List.map_cons, List.nodup_cons,
      not_and_or, not_not, or_assoc, or_assoc]

theorem moveAllOther (first : name ∉ raws) (second : name ∉ raws.map mend) :
    moveAll mend raws held name = held name := by
  induction raws generalizing held with
  | nil => rfl
  | cons raw rest ih =>
    rw [List.map_cons, List.mem_cons, not_or] at second
    rw [List.mem_cons, not_or] at first
    rw [moveAll, ih first.2 second.2, moveOther first.1 second.1]

theorem moveAllKept (movable : Movable mend raws held) (distinct : (raws.map mend).Nodup) (member : raw ∈ raws) :
    moveAll mend raws held (mend raw) = held raw ∧ moveAll mend raws held raw = none := by
  induction raws generalizing held with
  | nil => cases member
  | cons head rest ih =>
    obtain ⟨fresh, once⟩ := List.nodup_cons.mp movable.once
    obtain ⟨free, others⟩ := List.nodup_cons.mp distinct
    have apart : ∀ other ∈ head :: rest, mend head ≠ other := movable.apart head List.mem_cons_self
    rw [moveAll]
    rcases List.mem_cons.mp member with rfl | later
    · have unmade : raw ∉ rest.map mend := by
        intro made
        obtain ⟨other, inside, same⟩ := List.mem_map.mp made
        exact movable.apart other (List.mem_cons_of_mem _ inside) raw List.mem_cons_self same
      have gone : mend raw ∉ rest := fun inside => apart _ (List.mem_cons_of_mem _ inside) rfl
      rw [moveAllOther gone free, moveAllOther fresh unmade]
      exact ⟨moveNew (movable.present raw List.mem_cons_self), moveOld (apart raw List.mem_cons_self).symm⟩
    · have stays : held.move head (mend head) raw = held raw :=
        moveOther (fun same => fresh (same ▸ later)) (apart raw (List.mem_cons_of_mem _ later)).symm
      obtain ⟨there, left⟩ := ih (moveMovable movable) others later
      exact ⟨there.trans stays, left⟩

end Directory

def Tree.directory (t : Tree) (place : Location) : Directory Node := fun raw => t.node? (place ++ [raw])

theorem Tree.directoryHolds (t : Tree) (place : Location) (raw : Name) :
    (t.directory place raw).isSome ↔ raw ∈ t.names place := by
  obtain ⟨entries⟩ := t
  rw [directory, node?, if_neg (List.concat_ne_nil _ _), names]
  induction entries with
  | nil => simp
  | cons e rest ih =>
    rw [List.lookup_cons, List.filterMap_cons]
    by_cases own : e.1 = place ++ [raw]
    · simp [own]
    · have apart : (place ++ [raw] == e.1) = false := by simpa using Ne.symm own
      rw [apart, ih]
      cases listed : (if e.1.dropLast = place then e.1.getLast? else none) with
      | none => rfl
      | some other =>
        have differ : raw ≠ other := by
          rintro rfl
          exact own (listedPlace listed)
        simp [differ]

def Verdict.Suggests (v : Verdict) (name : String) : Prop :=
  v.message = v.folder ++ "/" ++ v.file ++ " contains underscore(s) instead of hyphen(s)."
    ++ "\n    Rule: Function file names separate words with hyphens."
    ++ "\n    Fix: Rename the file to " ++ v.folder ++ "/" ++ name ++ "."

theorem Verdict.suggestsOne {v : Verdict} {one two : String} (first : v.Suggests one) (second : v.Suggests two) :
    one = two := by
  have same := first.symm.trans second
  rw [String.append_left_inj, String.append_right_inj] at same
  exact same

namespace Rule

theorem hyphenatedPlain (name : String) : '_' ∉ (hyphenated name).toList := by
  have holds := hyphenatedHolds name
  rwa [isHyphenated, Bool.not_eq_true', List.contains_eq_mem, decide_eq_false_iff_not] at holds

theorem hyphenatedTwice (name : String) : hyphenated (hyphenated name) = hyphenated name := by
  simp only [hyphenated, String.toList_ofList, List.map_map]
  congr 1
  refine List.map_congr_left fun c _ => ?_
  by_cases underscore : c = '_' <;> simp [underscore]

theorem adviceSuggests {s : Script} (broken : hyphens.holds s = false) (name : String) :
    (hyphens.judge s).Suggests name ↔ name = hyphenated s.name := by
  have own : (hyphens.judge s).Suggests (hyphenated s.name) := by
    simp only [Verdict.Suggests, judge, broken, advice, Script.title]
    rfl
  exact ⟨fun other => Verdict.suggestsOne other own, fun same => same ▸ own⟩

end Rule

namespace Script

def suggested (raw : Name) : String := Rule.hyphenated (Utf8.decodeLossy raw)

def renamed (raw : Name) : Name := Utf8.encode (suggested raw)

theorem renamedDecoded (raw : Name) : Utf8.decodeLossy (renamed raw) = suggested raw :=
  Utf8.decodeLossyOfDecode (Utf8.decodeEncode _)

theorem renamedPlain (raw : Name) : 0x5F ∉ renamed raw := by
  rw [← hyphenBytes, renamedDecoded]
  exact Rule.hyphenatedHolds _

theorem renamedSuggested (raw : Name) : suggested (renamed raw) = suggested raw := by
  rw [suggested, renamedDecoded, suggested, Rule.hyphenatedTwice]

theorem renamedIff {raw other : Name} : renamed raw = renamed other ↔ suggested raw = suggested other :=
  ⟨Utf8.encodeInjective, congrArg _⟩

end Script

namespace Settings

variable {disk : Disk} {s : Settings} {folder : String} {raw other : Name} {names : List Name}

def Misnamed (disk : Disk) (s : Settings) (folder : String) (raw : Name) : Prop :=
  s.IsFile disk folder raw ∧ 0x5F ∈ raw

theorem misnamedEntry (listing : disk.entries (s.place folder) = .ok (names.map .name))
    (misnamed : s.Misnamed disk folder raw) : raw ∈ names := by
  obtain ⟨⟨⟨_, ⟨entries, same, inside⟩, _⟩, _⟩, _⟩ := misnamed
  cases listing.symm.trans same
  simpa using inside

theorem misnamedIff (among : folder ∈ s.folders) (listing : disk.entries (s.place folder) = .ok (names.map .name)) :
    s.Misnamed disk folder raw ↔ raw ∈ names ∧ Script.isCandidate (Utf8.decodeLossy raw) = true ∧
      disk.kind ((s.place folder).join ⟨raw⟩) = .ok .file ∧ 0x5F ∈ raw := by
  constructor
  · intro misnamed
    exact ⟨misnamedEntry listing misnamed, misnamed.1.1.2.2, misnamed.1.2, misnamed.2⟩
  · intro holds
    obtain ⟨inside, candidate, file, underscore⟩ := holds
    exact ⟨⟨⟨among, ⟨_, listing, List.mem_map_of_mem inside⟩, candidate⟩, file⟩, underscore⟩

theorem misnamedApart (misnamed : s.Misnamed disk folder other) : Script.renamed raw ≠ other :=
  fun same => Script.renamedPlain raw (same ▸ misnamed.2)

theorem misnamedBroken {report : Report} (finished : (s.lint disk).2 = .ok report) {v : Verdict} :
    v ∈ report.broken Rule.hyphens.title ↔ ∃ folder raw text, s.Misnamed disk folder raw ∧
      s.Reads disk folder raw text ∧
      v = Rule.hyphens.judge ⟨folder, Utf8.decodeLossy raw, (s.place folder).join ⟨raw⟩, text⟩ := by
  obtain ⟨scripts, all, rfl⟩ := lintOk.mp finished
  have scanned : ∀ script, script ∈ scripts ↔ .ok script ∈ Scan.all disk s.root s.folders := by
    intro script
    rw [all]
    simp
  have unmet : ∀ {raw : Name}, Rule.isHyphenated (Utf8.decodeLossy raw) = false ↔ 0x5F ∈ raw := by
    intro raw
    rw [← Bool.not_eq_true, Script.hyphenBytes, not_not]
  simp only [Report.brokenJudged, List.mem_map, List.mem_filter, scanned, Bool.not_eq_true']
  constructor
  · rintro ⟨script, ⟨found, broken⟩, rfl⟩
    obtain ⟨folder, raw, text, file, reads, rfl⟩ := scriptRead.mp found
    exact ⟨folder, raw, text, ⟨file, unmet.mp broken⟩, reads, rfl⟩
  · rintro ⟨folder, raw, text, ⟨file, underscore⟩, reads, rfl⟩
    exact ⟨_, ⟨scriptRead.mpr ⟨folder, raw, text, file, reads, rfl⟩, unmet.mpr underscore⟩, rfl⟩

theorem misnamedAdvised {report : Report} (finished : (s.lint disk).2 = .ok report) (folder : String) :
    (∀ v ∈ report.broken Rule.hyphens.title, v.folder = folder → ∃ raw, s.Misnamed disk folder raw ∧
      v.file = Utf8.decodeLossy raw ∧ ∀ name, v.Suggests name ↔ name = Script.suggested raw) ∧
    (∀ raw, s.Misnamed disk folder raw → ∃ v ∈ report.broken Rule.hyphens.title, v.folder = folder ∧
      v.file = Utf8.decodeLossy raw ∧ ∀ name, v.Suggests name ↔ name = Script.suggested raw) := by
  have advised : ∀ {folder raw text}, s.Misnamed disk folder raw → ∀ name,
      (Rule.hyphens.judge ⟨folder, Utf8.decodeLossy raw, (s.place folder).join ⟨raw⟩, text⟩).Suggests name ↔
        name = Script.suggested raw := by
    intro folder raw text misnamed
    refine Rule.adviceSuggests ?_
    rw [← Bool.not_eq_true, Rule.holds, Script.hyphenBytes, not_not]
    exact misnamed.2
  constructor
  · intro v member own
    obtain ⟨_, raw, text, misnamed, _, rfl⟩ := (misnamedBroken finished).mp member
    cases own
    exact ⟨raw, misnamed, rfl, advised misnamed⟩
  · intro raw misnamed
    obtain ⟨text, reads⟩ := (lintFinishes.mp ⟨report, finished⟩).decoded folder raw misnamed.1
    exact ⟨_, (misnamedBroken finished).mpr ⟨folder, raw, text, misnamed, reads, rfl⟩, rfl, rfl, advised misnamed⟩

theorem renamedTwice {raws : List Name} (once : raws.Nodup) : ¬ (raws.map Script.renamed).Nodup ↔
    ∃ raw ∈ raws, ∃ other ∈ raws, raw ≠ other ∧ Script.renamed raw = Script.renamed other := by
  rw [List.nodup_map_iff_inj_on once]
  push Not
  simp only [and_comm]

theorem renamesMovable {α : Type} {held : Directory α} {raws : List Name}
    (listing : disk.entries (s.place folder) = .ok (names.map .name)) (holds : ∀ raw, (held raw).isSome ↔ raw ∈ names)
    (once : raws.Nodup) (all : ∀ raw, raw ∈ raws ↔ s.Misnamed disk folder raw) :
    Directory.Movable Script.renamed raws held where
  once := once
  present raw member := (holds raw).mpr (misnamedEntry listing ((all raw).mp member))
  apart _ _ other member := misnamedApart ((all other).mp member)

theorem renamesTaken {α : Type} {held : Directory α} {raws : List Name}
    (movable : Directory.Movable Script.renamed raws held) (holds : ∀ raw, (held raw).isSome ↔ raw ∈ names) :
    Directory.Overwrites Script.renamed raws held ↔ (∃ raw ∈ raws, Script.renamed raw ∈ names) ∨
      ∃ raw ∈ raws, ∃ other ∈ raws, raw ≠ other ∧ Script.renamed raw = Script.renamed other := by
  rw [Directory.overwritesIff movable, renamedTwice movable.once]
  simp only [holds]

theorem renamesMeet (listing : disk.entries (s.place folder) = .ok (names.map .name)) {raws : List Name}
    (all : ∀ raw, raw ∈ raws ↔ s.Misnamed disk folder raw)
    (meets : (∃ raw ∈ raws, Script.renamed raw ∈ names) ∨
      ∃ raw ∈ raws, ∃ other ∈ raws, raw ≠ other ∧ Script.renamed raw = Script.renamed other) :
    ∃ raw ∈ names, ∃ other ∈ names, raw ≠ other ∧ Script.suggested raw = Script.suggested other := by
  rcases meets with ⟨raw, member, taken⟩ | ⟨raw, first, other, second, differ, same⟩
  · have misnamed := (all raw).mp member
    exact ⟨raw, misnamedEntry listing misnamed, _, taken, (misnamedApart misnamed).symm,
      (Script.renamedSuggested raw).symm⟩
  · exact ⟨raw, misnamedEntry listing ((all raw).mp first), other, misnamedEntry listing ((all other).mp second),
      differ, Script.renamedIff.mp same⟩

/- The files may be renamed in any order, and a file that is reported twice is renamed once. -/
theorem renamesOverwrite {report : Report} (finished : (s.lint disk).2 = .ok report)
    (listing : disk.entries (s.place folder) = .ok (names.map .name))
    {α : Type} {held : Directory α} (holds : ∀ raw, (held raw).isSome ↔ raw ∈ names)
    {raws : List Name} (once : raws.Nodup) (all : ∀ raw, raw ∈ raws ↔ s.Misnamed disk folder raw) :
    (∀ v ∈ report.broken Rule.hyphens.title, v.folder = folder → ∃ raw ∈ raws,
      v.file = Utf8.decodeLossy raw ∧ ∀ name, v.Suggests name ↔ name = Script.suggested raw) ∧
    (∀ raw ∈ raws, ∃ v ∈ report.broken Rule.hyphens.title, v.folder = folder ∧
      v.file = Utf8.decodeLossy raw ∧ ∀ name, v.Suggests name ↔ name = Script.suggested raw) ∧
    (∀ raw ∈ raws, '_' ∉ (Script.suggested raw).toList) ∧
    (Directory.Overwrites Script.renamed raws held ↔
      (∃ raw ∈ raws, Script.renamed raw ∈ names) ∨
      ∃ raw ∈ raws, ∃ other ∈ raws, raw ≠ other ∧ Script.suggested raw = Script.suggested other) ∧
    (Directory.Overwrites Script.renamed raws held →
      ∃ raw ∈ names, ∃ other ∈ names, raw ≠ other ∧ Script.suggested raw = Script.suggested other) ∧
    (¬ Directory.Overwrites Script.renamed raws held →
      (∀ raw ∈ raws, Directory.moveAll Script.renamed raws held (Script.renamed raw) = held raw ∧
        Directory.moveAll Script.renamed raws held raw = none) ∧
      ∀ name ∈ names, name ∉ raws → Directory.moveAll Script.renamed raws held name = held name) := by
  have movable := renamesMovable listing holds once all
  have taken := renamesTaken movable holds
  obtain ⟨told, reported⟩ := misnamedAdvised finished folder
  refine ⟨?_, ?_, fun raw _ => Rule.hyphenatedPlain _, ?_, ?_, ?_⟩
  · simpa only [← all] using told
  · simpa only [← all] using reported
  · simpa only [Script.renamedIff] using taken
  · exact fun overwritten => renamesMeet listing all (taken.mp overwritten)
  · intro safe
    rw [taken, not_or] at safe
    obtain ⟨free, distinct⟩ := safe
    have apart : (raws.map Script.renamed).Nodup := not_not.mp fun twin => distinct ((renamedTwice once).mp twin)
    refine ⟨fun raw member => Directory.moveAllKept movable apart member, fun name inside stays => ?_⟩
    refine Directory.moveAllOther stays fun made => ?_
    obtain ⟨raw, member, rfl⟩ := List.mem_map.mp made
    exact free ⟨raw, member, inside⟩

def greeter (folder name : String) : Script :=
  ⟨folder, name, Path.ofString ("/" ++ folder ++ "/" ++ name), "#!/bin/sh -h"⟩

def twins : List Script :=
  [greeter "bin" "a-b", greeter "bin" "a_b", greeter "lib" "a_b-c", greeter "lib" "a-b_c", greeter "etc" "x_y"]

def twinNames : Site := twins.foldl (fun site script =>
  site.insert [Utf8.encode script.folder, Utf8.encode script.name] (.file (Utf8.encode script.text))) ⟨⟨[]⟩, [], 0⟩

def twinFolders : Settings := ⟨Path.ofString "/", ["bin", "lib", "etc"]⟩

theorem twinNamesLinted : (twinFolders.lint twinNames.disk).2 = .ok (Report.ofScripts twins) := by
  have found : Scan.all twinNames.disk twinFolders.root twinFolders.folders = twins.map .ok := by
    rw [Scan.allItems]
    cbv
  exact lintOk.mpr ⟨_, found, rfl⟩

theorem twinAdvised {folder name : String} (member : greeter folder name ∈ twins)
    (broken : Rule.hyphens.holds (greeter folder name) = false) :
    ∃ v ∈ (Report.ofScripts twins).broken Rule.hyphens.title, v.folder = folder ∧ v.file = name ∧
      v.Suggests (Rule.hyphenated name) := by
  refine ⟨Rule.hyphens.judge (greeter folder name), ?_, rfl, rfl, (Rule.adviceSuggests broken _).mpr rfl⟩
  rw [Report.brokenJudged]
  exact List.mem_map_of_mem (List.mem_filter.mpr ⟨member, by rw [broken]; rfl⟩)

theorem twinListed : twinNames.disk.entries (twinFolders.place "bin") =
    .ok ([Utf8.encode "a-b", Utf8.encode "a_b"].map .name) := by cbv

theorem otherListed : twinNames.disk.entries (twinFolders.place "etc") =
    .ok ([Utf8.encode "x_y"].map .name) := by cbv

theorem adviceCollides : ∃ report, (twinFolders.lint twinNames.disk).2 = .ok report ∧
    (∃ v ∈ report.broken Rule.hyphens.title, v.folder = "bin" ∧ v.file = "a_b" ∧ v.Suggests "a-b" ∧
      ∃ entries, twinNames.disk.entries (twinFolders.place "bin") = .ok entries ∧
        .name (Utf8.encode "a-b") ∈ entries) ∧
    ∃ v ∈ report.broken Rule.hyphens.title, ∃ w ∈ report.broken Rule.hyphens.title,
      v.folder = "lib" ∧ w.folder = "lib" ∧ v.file ≠ w.file ∧ v.Suggests "a-b-c" ∧ w.Suggests "a-b-c" := by
  have mended : Rule.hyphenated "a_b" = "a-b" ∧ Rule.hyphenated "a_b-c" = "a-b-c" ∧
      Rule.hyphenated "a-b_c" = "a-b-c" := by decide +kernel
  obtain ⟨v, inBin, ofBin, called, advised⟩ := @twinAdvised "bin" "a_b" (by decide +kernel) (by decide +kernel)
  obtain ⟨x, first, ofLib, xFile, xAdvised⟩ := @twinAdvised "lib" "a_b-c" (by decide +kernel) (by decide +kernel)
  obtain ⟨y, second, inLib, yFile, yAdvised⟩ := @twinAdvised "lib" "a-b_c" (by decide +kernel) (by decide +kernel)
  rw [mended.1] at advised
  rw [mended.2.1] at xAdvised
  rw [mended.2.2] at yAdvised
  refine ⟨_, twinNamesLinted, ⟨v, inBin, ofBin, called, advised, _, twinListed, by simp⟩, ?_⟩
  refine ⟨x, first, y, second, ofLib, inLib, ?_, xAdvised, yAdvised⟩
  rw [xFile, yFile]
  decide

theorem twinRenames :
    Directory.Overwrites Script.renamed [Utf8.encode "a_b"] (twinNames.tree.directory [Utf8.encode "bin"]) ∧
    ¬ Directory.Overwrites Script.renamed [Utf8.encode "x_y"] (twinNames.tree.directory [Utf8.encode "etc"]) ∧
    Directory.moveAll Script.renamed [Utf8.encode "x_y"] (twinNames.tree.directory [Utf8.encode "etc"])
      (Utf8.encode "x-y") = some (.file (Utf8.encode "#!/bin/sh -h")) := by
  have inBin : ∀ raw, (twinNames.tree.directory [Utf8.encode "bin"] raw).isSome ↔
      raw ∈ [Utf8.encode "a-b", Utf8.encode "a_b"] := by
    have names : twinNames.tree.names [Utf8.encode "bin"] = [Utf8.encode "a-b", Utf8.encode "a_b"] := by cbv
    exact names ▸ twinNames.tree.directoryHolds _
  have inEtc : ∀ raw, (twinNames.tree.directory [Utf8.encode "etc"] raw).isSome ↔ raw ∈ [Utf8.encode "x_y"] := by
    have names : twinNames.tree.names [Utf8.encode "etc"] = [Utf8.encode "x_y"] := by cbv
    exact names ▸ twinNames.tree.directoryHolds _
  have ofBin : ∀ raw, raw ∈ [Utf8.encode "a_b"] ↔ twinFolders.Misnamed twinNames.disk "bin" raw := by
    intro raw
    rw [misnamedIff (by decide) twinListed]
    constructor
    · intro member
      obtain rfl := List.mem_singleton.mp member
      exact ⟨by simp, by cbv, by cbv, by decide⟩
    · rintro ⟨inside, _, _, underscore⟩
      rcases List.mem_pair.mp inside with rfl | rfl
      · exact absurd underscore (by decide)
      · exact List.mem_singleton_self _
  have ofEtc : ∀ raw, raw ∈ [Utf8.encode "x_y"] ↔ twinFolders.Misnamed twinNames.disk "etc" raw := by
    intro raw
    rw [misnamedIff (by decide) otherListed]
    constructor
    · intro member
      obtain rfl := List.mem_singleton.mp member
      exact ⟨by simp, by cbv, by cbv, by decide⟩
    · exact fun holds => holds.1
  have first : Script.renamed (Utf8.encode "a_b") = Utf8.encode "a-b" := by cbv
  have second : Script.renamed (Utf8.encode "x_y") = Utf8.encode "x-y" := by cbv
  obtain ⟨_, _, _, taken, _⟩ := renamesOverwrite twinNamesLinted twinListed inBin (List.nodup_singleton _) ofBin
  obtain ⟨_, _, _, free, _, kept⟩ := renamesOverwrite twinNamesLinted otherListed inEtc (List.nodup_singleton _) ofEtc
  have safe : ¬ Directory.Overwrites Script.renamed [Utf8.encode "x_y"]
      (twinNames.tree.directory [Utf8.encode "etc"]) := by
    rw [free]
    simp only [List.exists_mem_cons_iff, List.not_mem_nil, false_and, exists_false, or_false, second]
    decide
  obtain ⟨moved, _⟩ := kept safe
  refine ⟨taken.mpr (.inl ⟨_, List.mem_singleton_self _, ?_⟩), safe, ?_⟩
  · rw [first]
    exact List.mem_cons_self
  · rw [← second, (moved _ (List.mem_singleton_self _)).1]
    cbv

end Settings

end ShellStyle
