import ShellStyle.Proofs.Encoded
import ShellStyle.Proofs.Search
import ShellStyle.Proofs.Verdict

/-! What the raw bytes of an entry decide. A file has a text exactly where its bytes are well-formed UTF-8, and
the text gives the same bytes back. All that the rules and the choice of candidates look for is ASCII, so
each of them can be told from the bytes, those of a name that is not UTF-8 included. -/
namespace ShellStyle
open Text

namespace Text.Utf8

variable {piece rest bytes : List UInt8} {value : Nat} {text : String}

theorem soundBytes (sound : Sound piece value) : (value < 0x80 ∧ piece = [UInt8.ofNat value]) ∨
    (0x80 ≤ value ∧ piece ≠ [] ∧ ∀ b ∈ piece, 0x80 ≤ b.toNat) := by
  obtain ⟨spelt, shortest, -, -⟩ := sound
  cases spelt with
  | one lead => exact .inl ⟨lead, by rw [UInt8.ofNat_toNat]⟩
  | two lead second =>
    simp only [List.length_cons, List.length_nil, least] at shortest
    refine .inr ⟨shortest, List.cons_ne_nil _ _, ?_⟩
    simp only [List.forall_mem_cons, List.not_mem_nil, false_implies, implies_true, and_true]
    omega
  | three lead second third =>
    simp only [List.length_cons, List.length_nil, least] at shortest
    refine .inr ⟨le_trans (by decide) shortest, List.cons_ne_nil _ _, ?_⟩
    simp only [List.forall_mem_cons, List.not_mem_nil, false_implies, implies_true, and_true]
    omega
  | four lead second third fourth =>
    simp only [List.length_cons, List.length_nil, least] at shortest
    refine .inr ⟨le_trans (by decide) shortest, List.cons_ne_nil _ _, ?_⟩
    simp only [List.forall_mem_cons, List.not_mem_nil, false_implies, implies_true, and_true]
    omega

theorem asciiByte {a c : Char} (small : a.toNat < 0x80) (low : c.toNat < 0x80) :
    UInt8.ofNat a.toNat = UInt8.ofNat c.toNat ↔ a = c := by
  rw [← UInt8.toNat_inj, ← Char.toNat_inj, UInt8.toNat_ofNat', UInt8.toNat_ofNat']
  omega

def asciiBytes (needle : List Char) : List UInt8 := needle.map fun c => UInt8.ofNat c.toNat

theorem asciiPrefix {needle cs : List Char} (ascii : ∀ a ∈ needle, a.toNat < 0x80) :
    asciiBytes needle <+: cs.flatMap String.utf8EncodeChar ↔ needle <+: cs := by
  induction needle generalizing cs with
  | nil => simp [asciiBytes]
  | cons a needle ih =>
    obtain ⟨small, others⟩ := List.forall_mem_cons.mp ascii
    cases cs with
    | nil => simp [asciiBytes]
    | cons c cs =>
      rw [List.flatMap_cons, List.cons_prefix_cons, ← ih others]
      rcases soundBytes (soundCharacter c) with ⟨low, single⟩ | ⟨wide, some, high⟩
      · rw [single, asciiBytes, List.map_cons, List.singleton_append, List.cons_prefix_cons, asciiByte small low]
        rfl
      · obtain ⟨b, more, same⟩ := List.exists_cons_of_ne_nil some
        have first : 0x80 ≤ b.toNat := high b (same ▸ List.mem_cons_self)
        rw [same, asciiBytes, List.map_cons, List.cons_append, List.cons_prefix_cons, ← UInt8.toNat_inj,
          UInt8.toNat_ofNat']
        constructor
        · intro holds
          omega
        · intro holds
          rw [holds.1] at small
          omega

theorem wideInfix {needle : List UInt8} {a : UInt8} (small : a.toNat < 0x80)
    (wide : ∀ b ∈ piece, 0x80 ≤ b.toNat) : a :: needle <:+: piece ++ rest ↔ a :: needle <:+: rest := by
  induction piece with
  | nil => rfl
  | cons b piece ih =>
    obtain ⟨first, others⟩ := List.forall_mem_cons.mp wide
    have other : ¬ a :: needle <+: b :: (piece ++ rest) := by
      rw [List.cons_prefix_cons]
      rintro ⟨rfl, _⟩
      omega
    rw [List.cons_append, List.infix_cons_iff, ih others]
    exact or_iff_right other

theorem asciiInfix {a : Char} {needle cs : List Char} (ascii : ∀ c ∈ a :: needle, c.toNat < 0x80) :
    asciiBytes (a :: needle) <:+: cs.flatMap String.utf8EncodeChar ↔ a :: needle <:+: cs := by
  have small : a.toNat < 0x80 := ascii a List.mem_cons_self
  induction cs with
  | nil => simp [asciiBytes]
  | cons c cs ih =>
    rcases soundBytes (soundCharacter c) with ⟨low, single⟩ | ⟨wide, some, high⟩
    · have start : asciiBytes (a :: needle) <+: (c :: cs).flatMap String.utf8EncodeChar ↔
          a :: needle <+: c :: cs := asciiPrefix ascii
      rw [List.flatMap_cons, single, List.singleton_append] at start ⊢
      rw [List.infix_cons_iff, List.infix_cons_iff]
      exact or_congr start ih
    · have byte : (UInt8.ofNat a.toNat).toNat < 0x80 := by
        rw [UInt8.toNat_ofNat']
        omega
      have other : ¬ a :: needle <+: c :: cs := by
        rw [List.cons_prefix_cons]
        rintro ⟨rfl, _⟩
        omega
      rw [List.flatMap_cons, asciiBytes, List.map_cons, wideInfix byte high, List.infix_cons_iff]
      exact ih.trans (or_iff_right other).symm

theorem wideHead {a : UInt8} (wide : ¬ a < 0x80) (rest : List UInt8) :
    ∃ item later, scan (a :: rest) = item :: later ∧ 0x80 ≤ (item.getD '\uFFFD').toNat := by
  have cut := scanCut (a :: rest)
  generalize same : a :: rest = bytes at cut
  generalize scan bytes = items at cut
  cases cut with
  | done => cases same
  | ascii small _ =>
    cases same
    exact absurd small wide
  | wide piece holds _ => exact ⟨_, _, rfl, wideShown holds⟩

theorem asciiHead {a : UInt8} (small : a < 0x80) :
    (decodeLossy bytes).toList.head? = some (Char.ofNat a.toNat) ↔ bytes.head? = some a := by
  rw [decodeLossy, String.toList_ofList]
  cases bytes with
  | nil => simp [scan]
  | cons b rest =>
    by_cases low : b < 0x80
    · rw [scanAscii low, List.map_cons, List.head?_cons, List.head?_cons, Option.getD_some,
        Option.some_inj, Option.some_inj, ← Char.toNat_inj, asciiValue low, asciiValue small, UInt8.toNat_inj]
    · obtain ⟨item, later, scanned, high⟩ := wideHead low rest
      have less := asciiSmall small
      rw [scanned, List.map_cons, List.head?_cons, List.head?_cons, Option.some_inj, Option.some_inj]
      constructor
      · intro same
        rw [same] at high
        omega
      · rintro rfl
        exact absurd small low

end Text.Utf8

namespace Rule

theorem shebangBytes (text : String) : hasShebang text = true ↔ [0x23, 0x21] <+: Utf8.encode text := by
  have ascii : ∀ c ∈ ['#', '!'], c.toNat < 0x80 := by simp
  rw [hasShebang, List.isPrefixOf_iff_prefix]
  exact (Utf8.asciiPrefix ascii).symm

theorem helpBytes (text : String) : mentionsHelp text = true ↔ [0x2D, 0x68] <:+: Utf8.encode text := by
  have ascii : ∀ c ∈ ['-', 'h'], c.toNat < 0x80 := by simp
  rw [helpShort]
  exact (Utf8.asciiInfix ascii).symm

end Rule

namespace Script

theorem candidateBytes (raw : Name) :
    isCandidate (Utf8.decodeLossy raw) = true ↔ 0x2E ∉ raw ∧ raw.head? ≠ some 0x5F := by
  have low : (0x2E : UInt8) < 0x80 := by decide
  have small : (0x5F : UInt8) < 0x80 := by decide
  have dot : '.' ∈ (Utf8.decodeLossy raw).toList ↔ 0x2E ∈ raw := Utf8.asciiMember low
  have front : (Utf8.decodeLossy raw).toList.head? = some '_' ↔ raw.head? = some 0x5F :=
    Utf8.asciiHead small
  rw [isCandidateIff, dot, ne_eq, front]

theorem hyphenBytes (raw : Name) : Rule.isHyphenated (Utf8.decodeLossy raw) = true ↔ 0x5F ∉ raw := by
  have small : (0x5F : UInt8) < 0x80 := by decide
  have underscore : '_' ∈ (Utf8.decodeLossy raw).toList ↔ 0x5F ∈ raw := Utf8.asciiMember small
  rw [Rule.isHyphenated, Bool.not_eq_true', List.contains_eq_mem, decide_eq_false_iff_not, underscore]

/- Nothing is asked of the name, which may hold any bytes in any order. -/
theorem rawNameDecides (raw : Name) :
    (isCandidate (Utf8.decodeLossy raw) = true ↔ 0x2E ∉ raw ∧ raw.head? ≠ some 0x5F) ∧
    (Rule.isHyphenated (Utf8.decodeLossy raw) = true ↔ 0x5F ∉ raw) ∧
    (∀ disk folder path, 0x2E ∈ raw ∨ raw.head? = some 0x5F →
      Scan.visit disk folder path (.name raw) = ([], none)) ∧
    (∀ disk folder path script, (Scan.visit disk folder path (.name raw)).2 = some (.ok script) →
      script.name = Utf8.decodeLossy raw ∧ ((Rule.hyphens.judge script).passed = true ↔ 0x5F ∉ raw)) := by
  refine ⟨candidateBytes raw, hyphenBytes raw, ?_, ?_⟩
  · intro disk folder path aside
    have unfit : ¬ isCandidate (Utf8.decodeLossy raw) = true := by
      rw [candidateBytes]
      rintro ⟨undotted, plain⟩
      exact aside.elim undotted plain
    simp [Scan.visit, unfit]
  · intro disk folder path script found
    obtain ⟨_, text, same, _, _, _, rfl⟩ := Scan.scriptFound.mp (Scan.foundIff.mpr found)
    cases same
    exact ⟨rfl, hyphenBytes raw⟩

def cutName : Name := [0x61, 0xE2, 0x82, 0x5F]

def cutDotted : Name := [0xF0, 0x9F, 0x2E]

def cutNamed : Site := (⟨⟨[]⟩, [], 0⟩ : Site).insert [Utf8.encode "bin", cutName] (.file (Utf8.encode "#!/bin/sh -h"))

def cutScript : Script := ⟨"bin", "a\uFFFD_", (Path.ofString "/bin").join ⟨cutName⟩, "#!/bin/sh -h"⟩

theorem cutNamesDecided : isCandidate (Utf8.decodeLossy cutName) = true ∧
    Scan.visit cutNamed.disk "bin" (Path.ofString "/bin") (.name cutDotted) = ([], none) ∧
    (Scan.visit cutNamed.disk "bin" (Path.ofString "/bin") (.name cutName)).2 = some (.ok cutScript) ∧
    (Rule.hyphens.judge cutScript).passed = false := by
  have found : (Scan.visit cutNamed.disk "bin" (Path.ofString "/bin") (.name cutName)).2 = some (.ok cutScript) := by
    have file : cutNamed.disk.kind ((Path.ofString "/bin").join ⟨cutName⟩) = .ok .file := by cbv
    have read : cutNamed.disk.text ((Path.ofString "/bin").join ⟨cutName⟩) = .ok "#!/bin/sh -h" := by cbv
    have name : Utf8.decodeLossy cutName = "a\uFFFD_" := by cbv
    refine Scan.foundIff.mp (Scan.scriptFound.mpr ⟨cutName, _, rfl, ?_, file, read, ?_⟩)
    · exact (candidateBytes cutName).mpr (by decide)
    · rw [name, cutScript]
  obtain ⟨candidate, _, _, judged⟩ := rawNameDecides cutName
  obtain ⟨_, _, aside, _⟩ := rawNameDecides cutDotted
  obtain ⟨_, passed⟩ := judged _ _ _ _ found
  refine ⟨candidate.mpr (by decide), aside _ _ _ (.inl (by decide)), found, ?_⟩
  rw [← Bool.not_eq_true, passed]
  decide

end Script

namespace Settings

variable {disk : Disk} {s : Settings}

theorem folderSplit {folder : String} {earlier later : List Entry} {entry : Entry}
    (listing : disk.entries (s.place folder) = .ok (earlier ++ entry :: later)) :
    Scan.folderItems disk s.root folder =
      earlier.flatMap (Scan.entryItems disk folder (s.place folder)) ++
        Scan.entryItems disk folder (s.place folder) entry ++
        later.flatMap (Scan.entryItems disk folder (s.place folder)) := by
  rw [place] at listing
  simp only [Scan.folderItems, listing, List.flatMap_append, List.flatMap_cons, List.append_assoc, place]

/- The item stands where the entry stands in the listing of its folder. -/
theorem bytesDecide {folder : String} {front back : List String} {earlier later : List Entry} {raw : Name}
    {bytes : List UInt8} (folders : s.folders = front ++ folder :: back)
    (listing : disk.entries (s.place folder) = .ok (earlier ++ .name raw :: later))
    (candidate : Script.isCandidate (Utf8.decodeLossy raw) = true)
    (file : disk.kind ((s.place folder).join ⟨raw⟩) = .ok .file)
    (stored : disk.bytes ((s.place folder).join ⟨raw⟩) = .ok bytes) :
    ∃ found : Found,
      Scan.all disk s.root s.folders =
        (Scan.all disk s.root front ++ earlier.flatMap (Scan.entryItems disk folder (s.place folder))) ++
        found :: (later.flatMap (Scan.entryItems disk folder (s.place folder)) ++ Scan.all disk s.root back) ∧
      ((∃ script, found = .ok script) ↔ Utf8.Valid bytes) ∧
      (¬ Utf8.Valid bytes → found = .error (.file folder (Utf8.decodeLossy raw) .notText)) ∧
      (∀ script, found = .ok script →
        script.folder = folder ∧ script.name = Utf8.decodeLossy raw ∧
        script.path = (s.place folder).join ⟨raw⟩ ∧ Utf8.encode script.text = bytes ∧
        script.verdicts.map (·.check) = Rule.titles ∧
        ∀ v ∈ script.verdicts,
          (v.check = Rule.shebang.title → (v.passed = true ↔ [0x23, 0x21] <+: bytes)) ∧
          (v.check = Rule.helpFlag.title → (v.passed = true ↔ [0x2D, 0x68] <:+: bytes))) := by
  have placed : ∀ found, Scan.entryItems disk folder (s.place folder) (.name raw) = [found] →
      Scan.all disk s.root s.folders =
        (Scan.all disk s.root front ++ earlier.flatMap (Scan.entryItems disk folder (s.place folder))) ++
        found :: (later.flatMap (Scan.entryItems disk folder (s.place folder)) ++ Scan.all disk s.root back) := by
    intro found item
    simp only [Scan.allItems, folders, List.flatMap_append, List.flatMap_cons, folderSplit listing, item,
      List.append_assoc, List.cons_append, List.nil_append]
  cases decoded : Utf8.decode? bytes with
  | none =>
    have broken : ¬ Utf8.Valid bytes := by
      rw [Utf8.validIff, decoded]
      rintro ⟨_, ⟨⟩⟩
    refine ⟨.error (.file folder (Utf8.decodeLossy raw) .notText), placed _ ?_, ?_, fun _ => rfl, ?_⟩
    · simp only [Scan.entryItems, candidate, file, stored, decoded, if_true]
    · refine iff_of_false ?_ broken
      rintro ⟨_, ⟨⟩⟩
    · rintro _ ⟨⟩
  | some text =>
    have valid : Utf8.Valid bytes := Utf8.validIff.mpr ⟨text, decoded⟩
    have same : Utf8.encode text = bytes := Utf8.decodeIff.mp decoded
    refine ⟨.ok ⟨folder, Utf8.decodeLossy raw, (s.place folder).join ⟨raw⟩, text⟩, placed _ ?_,
      iff_of_true ⟨_, rfl⟩ valid, fun broken => absurd valid broken, ?_⟩
    · simp only [Scan.entryItems, candidate, file, stored, decoded, if_true]
    · rintro script ⟨⟩
      refine ⟨rfl, rfl, rfl, same, rfl, fun v judged => ?_⟩
      obtain ⟨rule, _, rfl⟩ := List.mem_map.mp judged
      refine ⟨fun title => ?_, fun title => ?_⟩
      · cases Rule.titleInjective title
        exact same ▸ Rule.shebangBytes text
      · cases Rule.titleInjective title
        exact same ▸ Rule.helpBytes text

def accentAndSurrogate : Site :=
  ((⟨⟨[]⟩, [], 0⟩ : Site).insert [Utf8.encode "bin", Utf8.encode "greet"]
    (.file [0x23, 0x21, 0xC3, 0xA9, 0x2D, 0x68])).insert
    [Utf8.encode "bin", Utf8.encode "blob"] (.file [0x23, 0x21, 0xED, 0xA0, 0x80])

theorem accentReadSurrogateRefused :
    (∃ script, .ok script ∈ Scan.all accentAndSurrogate.disk (Path.ofString "/") ["bin"] ∧
      Utf8.encode script.text = [0x23, 0x21, 0xC3, 0xA9, 0x2D, 0x68] ∧
      ∀ v ∈ script.verdicts, v.check = Rule.helpFlag.title → v.passed = true) ∧
    .error (.file "bin" "blob" .notText) ∈ Scan.all accentAndSurrogate.disk (Path.ofString "/") ["bin"] := by
  have listing : accentAndSurrogate.disk.entries ((⟨Path.ofString "/", ["bin"]⟩ : Settings).place "bin") =
      .ok [.name (Utf8.encode "greet"), .name (Utf8.encode "blob")] := by cbv
  have accent : Utf8.Valid [0x23, 0x21, 0xC3, 0xA9, 0x2D, 0x68] := Utf8.validIff.mpr ⟨"#!é-h", by cbv⟩
  have surrogate : ¬ Utf8.Valid [0x23, 0x21, 0xED, 0xA0, 0x80] := by
    have refused : Utf8.decode? [0x23, 0x21, 0xED, 0xA0, 0x80] = none := by cbv
    rw [Utf8.validIff, refused]
    rintro ⟨_, ⟨⟩⟩
  have folders : (⟨Path.ofString "/", ["bin"]⟩ : Settings).folders = [] ++ "bin" :: [] := rfl
  obtain ⟨read, inside, text, _, told⟩ := @bytesDecide accentAndSurrogate.disk _ "bin" [] [] []
    [.name (Utf8.encode "blob")] (Utf8.encode "greet") _ folders listing (by cbv) (by cbv) (by cbv)
  obtain ⟨refused, among, _, broken, _⟩ := @bytesDecide accentAndSurrogate.disk _ "bin" [] []
    [.name (Utf8.encode "greet")] [] (Utf8.encode "blob") _ folders listing (by cbv) (by cbv) (by cbv)
  obtain ⟨script, rfl⟩ := text.mpr accent
  obtain ⟨_, _, _, same, _, verdicts⟩ := told script rfl
  refine ⟨⟨script, ?_, same, fun v judged title => ?_⟩, ?_⟩
  · exact inside ▸ List.mem_append_right _ List.mem_cons_self
  · exact ((verdicts v judged).2 title).mpr ⟨[0x23, 0x21, 0xC3, 0xA9], [], rfl⟩
  · rw [← Utf8.decodeLossyOfDecode (Utf8.decodeEncode "blob"), ← broken surrogate]
    exact among ▸ List.mem_append_right _ List.mem_cons_self

end Settings

end ShellStyle
