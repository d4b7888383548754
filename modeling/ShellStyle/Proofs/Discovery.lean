import Mathlib
import ShellStyle.Settings
import ShellStyle.Tree

/-! The walk up from a start to the nearest directory with a marker. The walk is said as the parents taken one
after the other, as a loop with one directory in its hands, and for an absolute start by the names on its way:
it visits every directory on the way to the root once, the nearest first. -/
namespace ShellStyle

namespace Path

def climbed (p : Path) : Nat → Option Path
  | 0 => some p
  | n + 1 => (p.climbed n).bind parent?

theorem climbedFirst (p : Path) (n : Nat) :
    p.climbed (n + 1) = p.parent?.bind fun up => up.climbed n := by
  induction n with
  | zero => cases h : p.parent? <;> simp [climbed, h]
  | succ n ih =>
    rw [climbed, ih]
    cases p.parent? <;> rfl

theorem chainClimbed (p : Path) (n : Nat) : p.chain[n]? = p.climbed n := by
  induction n generalizing p with
  | zero => simp [chainUnfold p, climbed]
  | succ n ih =>
    rw [chainUnfold, climbedFirst, List.getElem?_cons_succ]
    cases p.parent? with
    | none => rfl
    | some up => exact ih up

theorem climbedEnds (p : Path) : ∃ length, ∀ n, (p.climbed n).isSome ↔ n < length := by
  refine ⟨p.chain.length, fun n => ?_⟩
  rw [← chainClimbed, isSome_getElem?]

structure Plain (name : Name) : Prop where
  filled : name ≠ []
  whole : slash ∉ name
  here : name ≠ [dot]
  above : name ≠ [dot, dot]

instance : DecidablePred Plain := fun name =>
  decidable_of_iff (name ≠ [] ∧ slash ∉ name ∧ name ≠ [dot] ∧ name ≠ [dot, dot])
    ⟨fun ⟨filled, whole, here, above⟩ => ⟨filled, whole, here, above⟩,
      fun h => ⟨h.filled, h.whole, h.here, h.above⟩⟩

def names (p : Path) : List Name := p.segments.filter fun s => !isBlank s

theorem splitWhole (bs : List UInt8) : ∀ s ∈ split bs, slash ∉ s := by
  induction bs with
  | nil => simp [split]
  | cons b r ih =>
    rw [split]
    split
    · simpa using ih
    · rename_i other
      split
      · rename_i s rest tail
        rw [tail] at ih
        obtain ⟨first, later⟩ := List.forall_mem_cons.mp ih
        refine List.forall_mem_cons.mpr ⟨?_, later⟩
        simpa using ⟨Ne.symm other, first⟩
      · rename_i tail
        exact absurd tail (splitNonempty r)

theorem splitSlash (bs : List UInt8) : split (slash :: bs) = [] :: split bs := by
  rw [split, if_pos rfl]

theorem splitName {s : List UInt8} (whole : slash ∉ s) : split s = [s] := by
  induction s with
  | nil => rfl
  | cons b r ih =>
    simp only [List.mem_cons, not_or] at whole
    rw [split, if_neg (Ne.symm whole.1), ih whole.2]

theorem splitJoined {s : List UInt8} (whole : slash ∉ s) (bs : List UInt8) :
    split (s ++ slash :: bs) = s :: split bs := by
  induction s with
  | nil => exact splitSlash bs
  | cons b r ih =>
    simp only [List.mem_cons, not_or] at whole
    rw [List.cons_append, split, if_neg (Ne.symm whole.1), ih whole.2]

theorem splitUnsplit {ss : List (List UInt8)} (some : ss ≠ []) (whole : ∀ s ∈ ss, slash ∉ s) :
    split (unsplit ss) = ss := by
  induction ss with
  | nil => exact absurd rfl some
  | cons s rest ih =>
    obtain ⟨first, others⟩ := List.forall_mem_cons.mp whole
    cases rest with
    | nil => exact splitName first
    | cons t more => rw [unsplitConsCons, splitJoined first, ih (by simp) others]

theorem trimEndBlank (ss : List (List UInt8)) :
    ∃ blanks, ss = trimEnd ss ++ blanks ∧ ∀ s ∈ blanks, isBlank s = true := by
  refine ⟨(ss.reverse.takeWhile isBlank).reverse, ?_, ?_⟩
  · rw [trimEnd, ← List.reverse_append, List.takeWhile_append_dropWhile, List.reverse_reverse]
  · intro s member
    exact List.mem_takeWhile_imp (List.mem_reverse.mp member)

theorem trimEndNames (ss : List (List UInt8)) :
    (trimEnd ss).filter (fun s => !isBlank s) = ss.filter fun s => !isBlank s := by
  obtain ⟨blanks, whole, blank⟩ := trimEndBlank ss
  conv_rhs => rw [whole]
  have none : blanks.filter (fun s => !isBlank s) = [] := by simpa using blank
  rw [List.filter_append, none, List.append_nil]

theorem trimEndPlain {ss : List (List UInt8)} (named : ∀ s ∈ ss, isBlank s = false) : trimEnd ss = ss := by
  rcases List.eq_nil_or_concat ss with rfl | ⟨front, last, rfl⟩
  · rfl
  · have filled : isBlank last = false := named last (by simp)
    simp [trimEnd, filled]

theorem trimEndLast (ss : List (List UInt8)) :
    trimEnd ss = [] ∨ ∃ front last, trimEnd ss = front ++ [last] ∧ isBlank last = false := by
  rcases List.eq_nil_or_concat (trimEnd ss) with none | ⟨front, last, whole⟩
  · exact .inl none
  · refine .inr ⟨front, last, by simpa using whole, ?_⟩
    have found : (ss.reverse.dropWhile isBlank).head? = some last := by
      rw [← List.getLast?_reverse, ← trimEnd, whole]
      simp
    have first := List.head?_dropWhile_not isBlank ss.reverse
    rw [found] at first
    simpa using first

theorem trimEndMember {s : List UInt8} {ss : List (List UInt8)} (member : s ∈ trimEnd ss) : s ∈ ss := by
  obtain ⟨blanks, whole⟩ := trimEndAppend ss
  rw [whole]
  exact List.mem_append_left blanks member

theorem keptMember {rest front : List (List UInt8)} {last s : List UInt8} (body : trimEnd rest = front ++ [last])
    (member : s ∈ trimEnd front) : s ∈ rest :=
  trimEndMember (body ▸ List.mem_append_left [last] (trimEndMember member))

section Rooted

variable {p : Path} {rest : List (List UInt8)}

theorem absoluteSegments (rooted : p.isAbsolute = true) :
    ∃ rest, p.segments = [] :: rest ∧ ∀ s ∈ rest, slash ∉ s := by
  obtain ⟨bytes⟩ := p
  cases bytes with
  | nil => simp [isAbsolute] at rooted
  | cons b r =>
    have first : b = slash := by simpa [isAbsolute] using rooted
    subst first
    exact ⟨split r, splitSlash r, splitWhole r⟩

theorem rootNoParent (segments : p.segments = [] :: rest) (bare : trimEnd rest = []) :
    p.parent? = none := by
  simp [parent?, segments, bare]

theorem rootedParent {front : List (List UInt8)} {last : List UInt8} (segments : p.segments = [] :: rest)
    (body : trimEnd rest = front ++ [last]) : p.parent? = some (Site.pathTo (trimEnd front)) := by
  obtain ⟨first, more, cut⟩ : ∃ first more, front ++ [last] = first :: more :=
    List.exists_cons_of_ne_nil (by simp)
  have back : (first :: more).dropLast = front := by rw [← cut, List.dropLast_concat]
  rw [parent?, segments]
  simp only [body, cut, back]
  cases trimEnd front with
  | nil => rfl
  | cons s others => rfl

theorem pathToSegments {place : Location} (some : place ≠ []) (whole : ∀ s ∈ place, slash ∉ s) :
    (Site.pathTo place).segments = [] :: place := by
  rw [segments, Site.pathTo, splitSlash, splitUnsplit some whole]

theorem pathToNames {place : Location} (whole : ∀ s ∈ place, slash ∉ s) :
    (Site.pathTo place).names = place.filter fun s => !isBlank s := by
  cases place with
  | nil => rfl
  | cons s others =>
    rw [names, pathToSegments (by simp) whole]
    rfl

theorem parentNames (rooted : p.isAbsolute = true) :
    (p.parent? = none ∧ p.names = []) ∨
    ∃ up last, p.parent? = some up ∧ up.isAbsolute = true ∧ p.names = up.names ++ [last] := by
  obtain ⟨rest, segments, whole⟩ := absoluteSegments rooted
  have named : p.names = (trimEnd rest).filter fun s => !isBlank s := by
    rw [names, segments, trimEndNames]
    rfl
  rcases trimEndLast rest with bare | ⟨front, last, body, filled⟩
  · left
    rw [named, bare]
    exact ⟨rootNoParent segments bare, rfl⟩
  · right
    refine ⟨_, last, rootedParent segments body, rfl, ?_⟩
    have clean : ∀ s ∈ trimEnd front, slash ∉ s := fun s member => whole s (keptMember body member)
    rw [named, body, pathToNames clean, trimEndNames, List.filter_append]
    simp [filled]

theorem chainNames (rooted : p.isAbsolute = true) : p.chain.map names = p.names.inits.reverse := by
  fun_induction chain p with
  | case1 p none =>
    rcases parentNames rooted with ⟨_, bare⟩ | ⟨up, last, found, _, _⟩
    · rw [List.map_singleton, bare]
      rfl
    · rw [none] at found
      cases found
  | case2 p up found ih =>
    rcases parentNames rooted with ⟨none, _⟩ | ⟨other, last, again, rooted, named⟩
    · rw [found] at none
      cases none
    · cases found.symm.trans again
      rw [List.map_cons, ih rooted, named]
      simp

theorem plainFilled {name : Name} (h : Plain name) : isBlank name = false := by
  simp [isBlank, h.filled, h.here]

theorem parentPathTo {place : Location} {last : Name} (plain : ∀ s ∈ place ++ [last], Plain s) :
    (Site.pathTo (place ++ [last])).parent? = some (Site.pathTo place) := by
  have segments := pathToSegments (by simp) fun s member => (plain s member).whole
  have body : trimEnd (place ++ [last]) = place ++ [last] :=
    trimEndPlain fun s member => plainFilled (plain s member)
  have front : trimEnd place = place :=
    trimEndPlain fun s member => plainFilled (plain s (List.mem_append_left _ member))
  rw [rootedParent segments body, front]

theorem chainPathTo {place : Location} (plain : ∀ s ∈ place, Plain s) :
    (Site.pathTo place).chain = place.inits.reverse.map Site.pathTo := by
  induction place using List.reverseRecOn with
  | nil =>
    rw [chainUnfold]
    rfl
  | append_singleton front last ih =>
    have before : ∀ s ∈ front, Plain s := fun s member => plain s (List.mem_append_left _ member)
    rw [chainUnfold, parentPathTo plain]
    simp [ih before]

end Rooted

theorem chainShorter {p q : Path} (member : q ∈ p.chain) : q.bytes.length ≤ p.bytes.length := by
  fun_induction chain p with
  | case1 p none => simp_all
  | case2 p up found ih =>
    rcases List.mem_cons.mp member with rfl | above
    · exact Nat.le_refl _
    · exact Nat.le_of_lt (Nat.lt_of_le_of_lt (ih above) (parentShorter found))

theorem chainNodup (p : Path) : p.chain.Nodup := by
  fun_induction chain p with
  | case1 p none => simp
  | case2 p up found ih =>
    refine List.nodup_cons.mpr ⟨fun member => ?_, ih⟩
    have shorter := parentShorter found
    have above := chainShorter member
    omega

end Path

theorem Disk.isFileIff {disk : Disk} {p : Path} : disk.isFile p = true ↔ disk.kind p = .ok .file := by
  rw [isFile]
  split <;> simp_all

theorem Disk.presentIff {disk : Disk} {p : Path} :
    disk.present p = true ↔ ∃ kind, disk.kind p = .ok kind := by
  rw [present]
  cases disk.kind p <;> simp [Except.isOk, Except.toBool]

namespace Settings
open Text

variable {disk : Disk} {start : Path}

def Marked (disk : Disk) (dir : Path) : Prop :=
  disk.kind (dir.join fileName) = .ok .file ∨ ∃ kind, disk.kind (dir.join repository) = .ok kind

theorem markedIff {dir : Path} : isMarked disk dir = true ↔ Marked disk dir := by
  rw [isMarked, Bool.or_eq_true, Disk.isFileIff, Disk.presentIff, Marked]

def ascend (disk : Disk) (start dir : Path) : Except Failure Settings :=
  if isMarked disk dir then load disk dir
  else match _h : dir.parent? with
    | none => .error (.rootNotFound start)
    | some up => ascend disk start up
termination_by dir.bytes.length
decreasing_by exact Path.parentShorter _h

theorem ascendChain (disk : Disk) (start dir : Path) : ascend disk start dir =
    match dir.chain.find? (isMarked disk) with
    | none => .error (.rootNotFound start)
    | some found => load disk found := by
  fun_induction ascend disk start dir with
  | case1 dir marked => rw [Path.chainUnfold, List.find?_cons_of_pos marked]
  | case2 dir unmarked last =>
    rw [Path.chainUnfold, List.find?_cons_of_neg unmarked, last]
    rfl
  | case3 dir unmarked up above ih =>
    rw [Path.chainUnfold, List.find?_cons_of_neg unmarked, above]
    exact ih

def Nearest (disk : Disk) (start dir : Path) : Prop :=
  ∃ n, start.climbed n = some dir ∧ Marked disk dir ∧
    ∀ m < n, ∀ nearer, start.climbed m = some nearer → ¬ Marked disk nearer

def Unmarked (disk : Disk) (start : Path) : Prop :=
  ∀ n dir, start.climbed n = some dir → ¬ Marked disk dir

theorem findNearest {dir : Path} :
    start.chain.find? (isMarked disk) = some dir ↔ Nearest disk start dir := by
  rw [List.find?_eq_some_iff_getElem, markedIff]
  refine ⟨?_, ?_⟩
  · intro holds
    obtain ⟨marked, n, inside, here, nearest⟩ := holds
    refine ⟨n, ?_, marked, fun m nearer dir above => ?_⟩
    · rw [← Path.chainClimbed, List.getElem?_eq_getElem inside, here]
    · rw [← Path.chainClimbed, List.getElem?_eq_some_iff] at above
      obtain ⟨_, rfl⟩ := above
      rw [← markedIff]
      simpa using nearest m nearer
  · intro holds
    obtain ⟨n, above, marked, nearest⟩ := holds
    rw [← Path.chainClimbed] at above
    obtain ⟨inside, here⟩ := List.getElem?_eq_some_iff.mp above
    refine ⟨marked, n, inside, here, fun m nearer => ?_⟩
    have unmarked := nearest m nearer start.chain[m] (by rw [← Path.chainClimbed]; simp)
    rw [← markedIff] at unmarked
    simpa using unmarked

theorem findNowhere : start.chain.find? (isMarked disk) = none ↔ Unmarked disk start := by
  rw [List.find?_eq_none]
  refine ⟨?_, ?_⟩
  · intro bare n dir above
    rw [← Path.chainClimbed] at above
    exact fun marked => bare dir (List.mem_of_getElem? above) (markedIff.mpr marked)
  · intro unmarked dir member marked
    obtain ⟨n, inside, rfl⟩ := List.getElem_of_mem member
    refine unmarked n _ ?_ (markedIff.mp marked)
    rw [← Path.chainClimbed, List.getElem?_eq_getElem inside]

theorem discoverFromNearest {dir : Path} (nearest : Nearest disk start dir) :
    discoverFrom disk start = load disk dir := by
  rw [discoverFrom, findNearest.mpr nearest]

theorem discoverFromNowhere (unmarked : Unmarked disk start) :
    discoverFrom disk start = .error (.rootNotFound start) := by
  rw [discoverFrom, findNowhere.mpr unmarked]

theorem nearestOrNowhere (disk : Disk) (start : Path) :
    (∃ dir, Nearest disk start dir) ∨ Unmarked disk start := by
  cases found : start.chain.find? (isMarked disk) with
  | none => exact .inr (findNowhere.mp found)
  | some dir => exact .inl ⟨dir, findNearest.mp found⟩

/- The parents end, since each is shorter. The names of an absolute path lose their last one at every step,
and the way up from a path that is written with its names alone, as the current directory is, is written
in the same way. -/
theorem nearestMarker (disk : Disk) (start : Path) :
    (∃ length, ∀ n, (start.climbed n).isSome ↔ n < length) ∧
    (∀ n dir, start.climbed n = some dir → Marked disk dir →
      (∀ m < n, ∀ nearer, start.climbed m = some nearer → ¬ Marked disk nearer) →
      discoverFrom disk start = load disk dir) ∧
    ((∀ n dir, start.climbed n = some dir → ¬ Marked disk dir) →
      discoverFrom disk start = .error (.rootNotFound start)) ∧
    ((∃ dir, Nearest disk start dir) ∨ Unmarked disk start) ∧
    discoverFrom disk start = ascend disk start start ∧
    (∀ n, start.chain[n]? = start.climbed n) ∧ start.chain.Nodup ∧
    (start.isAbsolute = true → start.chain.map Path.names = start.names.inits.reverse) ∧
    (∀ place : Location, (∀ name ∈ place, Path.Plain name) → start = Site.pathTo place →
      start.chain = place.inits.reverse.map Site.pathTo) := by
  refine ⟨start.climbedEnds, fun n dir above marked nearest => ?_, discoverFromNowhere,
    nearestOrNowhere disk start, ?_, start.chainClimbed, start.chainNodup, Path.chainNames, ?_⟩
  · exact discoverFromNearest ⟨n, above, marked, nearest⟩
  · rw [ascendChain]
    rfl
  · intro place plain same
    rw [same, Path.chainPathTo plain]

def bare : Site := ⟨⟨[]⟩, [], 0⟩

def brokenBelow : Site :=
  ((bare.insert [Utf8.encode ".git"] .directory).insert
    [Utf8.encode "work", Utf8.encode "fn-lint.toml"] (.file [0xFF])).insert
    [Utf8.encode "work", Utf8.encode "tools"] .directory

theorem bareUnmarked : Unmarked bare.disk (Path.ofString "tools") := by
  refine findNowhere.mp ?_
  cbv

theorem brokenNotSkipped :
    discoverFrom brokenBelow.disk (Path.ofString "/work/tools") =
      .error (.settings (Path.ofString "/work/fn-lint.toml") Cause.notText.message) ∧
    discoverFrom bare.disk (Path.ofString "tools") = .error (.rootNotFound (Path.ofString "tools")) ∧
    (Path.ofString "/work/tools").chain =
      [Path.ofString "/work/tools", Path.ofString "/work", Path.ofString "/"] := by
  have above : (Path.ofString "/work/tools").climbed 1 = some (Path.ofString "/work") := by cbv
  have marked : Marked brokenBelow.disk (Path.ofString "/work") := .inl (by cbv)
  have nearer : isMarked brokenBelow.disk (Path.ofString "/work/tools") = false := by cbv
  have refused : load brokenBelow.disk (Path.ofString "/work") =
      .error (.settings (Path.ofString "/work/fn-lint.toml") Cause.notText.message) := by
    have named : (Path.ofString "/work").join fileName = Path.ofString "/work/fn-lint.toml" := by cbv
    have file : brokenBelow.disk.isFile (Path.ofString "/work/fn-lint.toml") = true := by cbv
    have text : brokenBelow.disk.text (Path.ofString "/work/fn-lint.toml") = .error .notText := by cbv
    simp [load, named, file, text]
  obtain ⟨_, found, _, _, _, _, _, _, way⟩ := nearestMarker brokenBelow.disk (Path.ofString "/work/tools")
  obtain ⟨_, _, nowhere, _⟩ := nearestMarker bare.disk (Path.ofString "tools")
  refine ⟨?_, nowhere bareUnmarked, ?_⟩
  · rw [found 1 _ above marked ?_, refused]
    intro m below dir here
    cases Nat.lt_one_iff.mp below
    cases here
    rw [← markedIff, nearer]
    exact Bool.false_ne_true
  · rw [way [Utf8.encode "work", Utf8.encode "tools"] (by decide) (by cbv)]
    cbv

end Settings

end ShellStyle
