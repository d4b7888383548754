import ShellStyle.Proofs.Below

/-! Where the root lies that the walk up finds. The walk drops names from the text of a path, and on the disk a
dropped `..` leads down again and a dropped link to another place. So the root is held against the start by
the names that were dropped: followed from the root they end in the start. -/
namespace ShellStyle

namespace Path

variable {p up : Path} {raw : Name} {n : Nat}

theorem unsplitHead {first : List UInt8} (filled : first ≠ []) (rest : List (List UInt8)) :
    (unsplit (first :: rest)).head? = first.head? := by
  cases rest with
  | nil => rfl
  | cons s others => rw [unsplitConsCons, List.head?_append_of_ne_nil _ filled]

theorem relativeParent {first last : List UInt8} {rest front : List (List UInt8)}
    (segments : p.segments = first :: rest) (filled : first ≠ []) (body : trimEnd rest = front ++ [last]) :
    p.parent? = some ⟨unsplit (first :: trimEnd front)⟩ := by
  obtain ⟨s, more, cut⟩ := List.exists_cons_of_ne_nil (show front ++ [last] ≠ [] by simp)
  have back : (s :: more).dropLast = front := by rw [← cut, List.dropLast_concat]
  rw [parent?, segments]
  simp only [body, cut, back, if_neg filled]
  cases trimEnd front <;> rfl

theorem parentRelative (relative : p.isAbsolute = false) (above : p.parent? = some up) :
    up.isAbsolute = false ∧ ∃ dropped, p.names = up.names ++ dropped := by
  obtain ⟨first, rest, segments⟩ := List.exists_cons_of_ne_nil (splitNonempty p.bytes)
  have whole : ∀ s ∈ first :: rest, slash ∉ s := segments ▸ splitWhole p.bytes
  have bytes : unsplit (first :: rest) = p.bytes := segments ▸ unsplitSplit p.bytes
  have filled : first ≠ [] := by
    rintro rfl
    cases rest with
    | nil => simp [parent?, Path.segments, segments, trimEnd] at above
    | cons s others => simp [isAbsolute, ← bytes, unsplitConsCons] at relative
  have names : p.names = [first].filter (fun s => !isBlank s) ++ (trimEnd rest).filter fun s => !isBlank s := by
    rw [trimEndNames, ← List.filter_append, Path.names, Path.segments, segments]
    rfl
  rcases trimEndLast rest with bare | ⟨front, last, body, _⟩
  · have empty : up = ⟨[]⟩ := by simpa [parent?, Path.segments, segments, bare, filled] using above.symm
    subst empty
    exact ⟨rfl, p.names, rfl⟩
  · obtain rfl := Option.some.inj (above.symm.trans (relativeParent segments filled body))
    obtain ⟨alone, behind⟩ := List.forall_mem_cons.mp whole
    have clean : ∀ s ∈ first :: trimEnd front, slash ∉ s :=
      List.forall_mem_cons.mpr ⟨alone, fun s member => behind s (keptMember body member)⟩
    refine ⟨?_, [last].filter (fun s => !isBlank s), ?_⟩
    · rw [isAbsolute, unsplitHead filled, ← unsplitHead filled rest, bytes]
      exact relative
    · rw [names, body, Path.names, Path.segments, splitUnsplit (by simp) clean, List.filter_append,
        ← List.append_assoc, ← trimEndNames front, ← List.filter_append]
      rfl

theorem parentDrops (above : p.parent? = some up) :
    up.isAbsolute = p.isAbsolute ∧ ∃ dropped, p.names = up.names ++ dropped := by
  cases rooted : p.isAbsolute with
  | false => exact parentRelative rooted above
  | true =>
    rcases parentNames rooted with ⟨none, _⟩ | ⟨other, last, found, absolute, named⟩
    · rw [none] at above
      cases above
    · cases found.symm.trans above
      exact ⟨absolute, [last], named⟩

theorem climbedDrops (above : p.climbed n = some up) :
    up.isAbsolute = p.isAbsolute ∧ ∃ dropped, p.names = up.names ++ dropped := by
  induction n generalizing up with
  | zero =>
    cases above
    exact ⟨rfl, [], (List.append_nil _).symm⟩
  | succ n ih =>
    obtain ⟨nearer, found, parent⟩ := Option.bind_eq_some_iff.mp above
    obtain ⟨same, later, names⟩ := ih found
    obtain ⟨alike, last, front⟩ := parentDrops parent
    exact ⟨alike.trans same, last ++ later, by rw [names, front, List.append_assoc]⟩

theorem joinBytes (p : Path) (plain : Plain raw) : ∃ behind, (p.join ⟨raw⟩).bytes = p.bytes ++ behind := by
  simp only [join, plainRelative plain, Bool.false_eq_true, if_false]
  split
  · exact ⟨raw, rfl⟩
  · exact ⟨slash :: raw, rfl⟩

theorem joinNames (p : Path) (plain : Plain raw) :
    (p.join ⟨raw⟩).isAbsolute = p.isAbsolute ∧ ∃ front,
      (p.join ⟨raw⟩).segments = front ++ [raw] ∧ front.filter (fun s => !isBlank s) = p.names := by
  by_cases filled : p.bytes = []
  · obtain ⟨_⟩ := p
    cases filled
    have joined : (⟨[]⟩ : Path).join ⟨raw⟩ = ⟨raw⟩ := by simp [join, plainRelative plain]
    rw [joined]
    exact ⟨plainRelative plain, [], splitName plain.whole, rfl⟩
  · obtain ⟨same, longer | ⟨front, slashed, longer⟩⟩ := joinSegments filled plain
    · exact ⟨same, p.segments, longer, rfl⟩
    · refine ⟨same, front, longer, ?_⟩
      rw [names, slashed, List.filter_append]
      exact (List.append_nil _).symm

/- The names lead in, and back by no more than they led in before. -/
def Inward : Nat → List Name → Prop
  | _, [] => True
  | depth, s :: rest =>
    if s = [dot, dot] then 0 < depth ∧ Inward (depth - 1) rest else Inward (depth + 1) rest

end Path

namespace Tree

variable {t : Tree} {links : Nat} {here place : Location} {names more : List Name}

theorem walkBlanks (t : Tree) (links : Nat) (here : Location) (names : List Name) (filled : more ≠ []) :
    t.walk false links here (names ++ more) =
      t.walk false links here (names.filter (fun s => !Path.isBlank s) ++ more) := by
  induction links using Nat.strong_induction_on generalizing here names with
  | h links followed =>
    induction names generalizing here with
    | nil => rfl
    | cons s rest later =>
      by_cases blank : Path.isBlank s = true
      · have skipped : (s :: rest).filter (fun s => !Path.isBlank s) =
            rest.filter fun s => !Path.isBlank s := by simp [blank]
        rw [skipped, List.cons_append, walkCons, ← later]
        by_cases bare : t.node? here ≠ some .directory
        · obtain ⟨next, others, same⟩ : ∃ next others, rest ++ more = next :: others :=
            List.exists_cons_of_ne_nil (by simp [filled])
          rw [if_pos bare, same, walkCons, if_pos bare]
        · rw [if_neg bare, if_pos blank]
      · have kept : (s :: rest).filter (fun s => !Path.isBlank s) =
            s :: rest.filter fun s => !Path.isBlank s := by simp [blank]
        rw [kept, List.cons_append, List.cons_append, walkCons, walkCons]
        simp only [later, Bool.false_eq_true, false_and, if_false]
        cases t.node? (here ++ [s]) with
        | none => rfl
        | some node =>
          cases node with
          | file bytes => rfl
          | directory => rfl
          | special => rfl
          | link target =>
            cases links with
            | zero => rfl
            | succ fewer =>
              have twice : ∀ start, t.walk false fewer start (target.segments ++ (rest ++ more)) =
                  t.walk false fewer start
                    (target.segments ++ (rest.filter (fun s => !Path.isBlank s) ++ more)) := by
                intro start
                have less := Nat.lt_succ_self fewer
                rw [← List.append_assoc, ← List.append_assoc, followed fewer less, followed fewer less _ (_ ++ _)]
                simp only [List.filter_append, List.filter_filter, Bool.and_self]
              simp only [twice]

def Unlinked (t : Tree) : Location → List Name → Prop
  | _, [] => True
  | here, s :: rest =>
    if s = [Path.dot, Path.dot] then t.Unlinked here.dropLast rest
    else (∀ target, t.node? (here ++ [s]) ≠ some (.link target)) ∧ t.Unlinked (here ++ [s]) rest

theorem walkDirectory (walked : t.walk false links here [[]] = .ok place) :
    here = place ∧ t.node? place = some .directory := by
  have same := walkBlank walked
  subst same
  rw [walkCons] at walked
  split at walked
  · cases walked
  · rename_i directory
    exact ⟨rfl, not_not.mp directory⟩

theorem directoryWalk (directory : t.node? place = some .directory) :
    t.walk false links place [[]] = .ok place := by
  rw [walkCons, if_neg (not_not.mpr directory)]
  exact t.walkNil false links place

theorem walkInward (below : Location) (named : ∀ s ∈ names, Path.isBlank s = false)
    (unlinked : t.Unlinked (here ++ below) names) (inward : Path.Inward below.length names)
    (walked : t.walk false links (here ++ below) (names ++ [[]]) = .ok place) : here <+: place := by
  induction names generalizing below with
  | nil => exact ⟨below, (walkDirectory walked).1⟩
  | cons s rest ih =>
    obtain ⟨filled, others⟩ := List.forall_mem_cons.mp named
    rw [List.cons_append, walkCons] at walked
    split at walked
    · cases walked
    rw [Path.Inward] at inward
    rw [Unlinked] at unlinked
    by_cases out : s = [Path.dot, Path.dot]
    · rw [if_pos out] at inward unlinked
      obtain ⟨deep, back⟩ := inward
      have under : below ≠ [] := List.length_pos_iff.mp deep
      have up : (here ++ below).dropLast = here ++ below.dropLast := List.dropLast_append_of_ne_nil under
      simp only [out, Bool.false_eq_true, if_true, up] at walked unlinked
      exact ih _ others unlinked (by simpa using back) walked
    · rw [if_neg out] at inward unlinked
      obtain ⟨direct, later⟩ := unlinked
      simp only [filled, out, Bool.false_eq_true, false_and, if_false] at walked
      have onward : t.walk false links (here ++ (below ++ [s])) (rest ++ [[]]) = .ok place := by
        split at walked
        · cases walked
        rw [← List.append_assoc]
        cases found : t.node? (here ++ below ++ [s]) with
        | none =>
          rw [found] at walked
          cases walked
        | some node =>
          rw [found] at walked
          cases node with
          | link target => exact absurd found (direct target)
          | file bytes => exact walked
          | directory => exact walked
          | special => exact walked
      refine ih _ others ?_ (by simpa using inward) onward
      rw [← List.append_assoc]
      exact later

theorem walkSettled (settled : ∀ front, front <+: here ++ names → t.node? front = some .directory)
    (plain : ∀ s ∈ names, Path.Plain s) (walked : t.walk false links here (names ++ [[]]) = .ok place) :
    place = here ++ names := by
  induction names generalizing here with
  | nil => exact (walkDirectory walked).1.symm.trans (List.append_nil here).symm
  | cons s rest ih =>
    obtain ⟨first, others⟩ := List.forall_mem_cons.mp plain
    have next : t.node? (here ++ [s]) = some .directory := settled _ (by simp)
    rw [List.cons_append, walkCons] at walked
    split at walked
    · cases walked
    simp only [Path.plainFilled first, first.above, next, Bool.false_eq_true, if_false] at walked
    split at walked
    · cases walked
    rw [ih (by simpa using settled) others walked, List.append_assoc, List.singleton_append]

end Tree

namespace Site

variable {site : Site} {t : Tree} {p start : Path} {place : Location} {raw : Name} {names more : List Name}

theorem walkOutBlanks (t : Tree) (lost : Nat) (here : Location) (names : List Name) (filled : more ≠ []) :
    walkOut t lost here (names ++ more) =
      walkOut t lost here (names.filter (fun s => !Path.isBlank s) ++ more) := by
  induction names generalizing lost here with
  | nil => rfl
  | cons s rest ih =>
    cases lost with
    | zero =>
      simp only [walkOut]
      rw [Tree.walkBlanks t _ _ _ filled]
    | succ lost =>
      by_cases blank : Path.isBlank s = true
      · simp [walkOut, blank, ih]
      · simp [walkOut, blank, ih]

/- The directory that a path names. The empty one, which no path of a disk may be, stands for the current one. -/
def Leads (site : Site) (p : Path) (place : Location) : Prop :=
  site.resolve (if p.bytes = [] then ⟨[Path.dot]⟩ else p) = .ok (.place place) ∧
    site.tree.node? place = some .directory

theorem leadsOne {other : Location} (one : site.Leads p place) (two : site.Leads p other) : place = other := by
  cases one.1.symm.trans two.1
  rfl

theorem leadsResolved (resolved : site.resolve p = .ok (.place place))
    (directory : site.tree.node? place = some .directory) : site.Leads p place := by
  have filled : p.bytes ≠ [] := by
    intro empty
    simp [resolve, empty] at resolved
  exact ⟨by rw [if_neg filled, resolved], directory⟩

def along (site : Site) (p : Path) (names : List Name) : Except Cause Spot :=
  walkOut site.tree (if p.isAbsolute then 0 else site.lost) (if p.isAbsolute then [] else site.here) names

theorem alongSpelt (site : Site) (p : Path) (filled : more ≠ []) :
    site.along p (p.segments ++ more) = site.along p (p.names ++ more) :=
  walkOutBlanks site.tree _ _ p.segments filled

theorem placeOk {walked : Except Cause Location} :
    walked.map Spot.place = .ok (.place place) ↔ walked = .ok place := by
  cases walked <;> simp [Except.map]

theorem alongOnward (ends : site.along p names = .ok (.place place)) : ∃ links, ∀ more,
    site.along p (names ++ more) = (site.tree.walk false links place more).map .place := by
  have goes := walkOutContinued site.tree (if p.isAbsolute then 0 else site.lost)
    (if p.isAbsolute then [] else site.here) names
  rw [along] at ends
  rw [ends] at goes
  exact goes

theorem alongEntered {spot : Spot} (walked : site.along p (names ++ [raw]) = .ok spot)
    (onward : raw ≠ [Path.dot, Path.dot]) (held : Path.isBlank raw = true → spot ≠ .removed) :
    ∃ place, site.along p names = .ok (.place place) ∧ site.tree.node? place = some .directory := by
  have goes := walkOutContinued site.tree (if p.isAbsolute then 0 else site.lost)
    (if p.isAbsolute then [] else site.here) names
  rw [along] at walked ⊢
  cases ends : walkOut site.tree (if p.isAbsolute then 0 else site.lost)
      (if p.isAbsolute then [] else site.here) names with
  | error cause =>
    rw [ends] at goes
    cases (goes [raw]).symm.trans walked
  | ok spot =>
    rw [ends] at goes
    cases spot with
    | removed =>
      obtain ⟨_, _, goes⟩ := goes
      have stays := (goes [raw]).symm.trans walked
      by_cases blank : Path.isBlank raw = true
      · simp only [walkOut, if_pos blank, Except.ok.injEq] at stays
        exact absurd stays.symm (held blank)
      · simp only [walkOut, if_neg blank, if_neg onward] at stays
        cases stays
    | place last =>
      obtain ⟨links, goes⟩ := goes
      refine ⟨last, rfl, ?_⟩
      have step := (goes [raw]).symm.trans walked
      by_contra bare
      rw [Tree.walkCons, if_pos bare] at step
      cases step

theorem alongHeld : site.along p (names ++ [[]]) = .ok (.place place) ↔
    site.along p names = .ok (.place place) ∧ site.tree.node? place = some .directory := by
  constructor
  · intro walked
    obtain ⟨last, ends, directory⟩ := alongEntered walked (by decide) fun _ => Spot.noConfusion
    obtain ⟨links, goes⟩ := alongOnward ends
    rw [goes, placeOk, Tree.directoryWalk directory] at walked
    cases walked
    exact ⟨ends, directory⟩
  · rintro ⟨ends, directory⟩
    obtain ⟨links, goes⟩ := alongOnward ends
    rw [goes, placeOk]
    exact Tree.directoryWalk directory

theorem leadsAlong (site : Site) (p : Path) (place : Location) : site.Leads p place ↔
    0 ∉ p.bytes ∧ p.bytes.length ≤ Tree.longestPath ∧
      site.along p p.names = .ok (.place place) ∧ site.tree.node? place = some .directory := by
  rw [← alongHeld, ← alongSpelt site p (List.cons_ne_nil _ _), alongHeld]
  by_cases empty : p.bytes = []
  · obtain ⟨_⟩ := p
    cases empty
    have dotted : site.resolve ⟨[Path.dot]⟩ = site.along ⟨[]⟩ (⟨[]⟩ : Path).segments := by
      cases lost : site.lost <;> simp [resolve, along, lost, Path.isAbsolute, Path.segments, Path.split, walkOut,
        Tree.walkCons, Path.isBlank, Path.dot, Path.slash, Tree.longestPath]
    simp [Leads, dotted]
  · rw [Leads, if_neg empty, resolveWalks, if_neg empty, List.contains_eq_mem]
    by_cases zero : 0 ∈ p.bytes
    · simp [zero]
    by_cases long : p.bytes.length > Tree.longestPath
    · simp [zero, long]
    · simp [zero, long, along, Nat.not_lt.mp long]

theorem joinedLeads {spot : Spot} (resolved : site.resolve (p.join ⟨raw⟩) = .ok spot) (plain : Path.Plain raw) :
    ∃ place, site.Leads p place := by
  obtain ⟨behind, bytes⟩ := p.joinBytes plain
  obtain ⟨absolute, front, segments, names⟩ := p.joinNames plain
  rw [resolveWalks] at resolved
  split at resolved
  · cases resolved
  rename_i zero
  split at resolved
  · cases resolved
  split at resolved
  · cases resolved
  rename_i short
  have walked : site.along p (p.names ++ [raw]) = .ok spot := by
    rw [absolute, segments, walkOutBlanks site.tree _ _ front (List.cons_ne_nil _ _), names] at resolved
    exact resolved
  obtain ⟨place, ends, directory⟩ := alongEntered walked plain.above fun blank => by
    rw [Path.plainFilled plain] at blank
    cases blank
  refine ⟨place, (leadsAlong site p place).mpr ⟨fun inside => zero ?_, ?_, ends, directory⟩⟩
  · simp [bytes, inside]
  · rw [bytes, List.length_append] at short
    omega

end Site

namespace Settings
open Text

variable {site : Site} {start : Path} {s : Settings} {place : Location}

theorem discoverFromClimbs {disk : Disk} (found : discoverFrom disk start = .ok s) :
    Marked disk s.root ∧ ∃ n, start.climbed n = some s.root := by
  rw [discoverFrom] at found
  cases nearest : start.chain.find? (isMarked disk) with
  | none =>
    rw [nearest] at found
    cases found
  | some dir =>
    rw [nearest] at found
    obtain ⟨n, above, marked, _⟩ := findNearest.mp nearest
    rw [loadRoot found]
    exact ⟨marked, n, above⟩

theorem markedLeads {dir : Path} (marked : Marked site.disk dir) : ∃ above, site.Leads dir above := by
  have resolves : ∀ {name : Path} {kind : Kind}, Path.Plain name.bytes → site.disk.kind (dir.join name) = .ok kind →
      ∃ above, site.Leads dir above := by
    intro name kind plain answer
    cases resolved : site.resolve (dir.join name) with
    | error cause => simp [Site.disk, Site.nodeAt, resolved] at answer
    | ok spot => exact Site.joinedLeads resolved plain
  rcases marked with file | ⟨kind, present⟩
  · exact resolves (by decide +kernel) file
  · exact resolves (by decide +kernel) present

theorem rootDropped (found : discoverFrom site.disk start = .ok s) : ∃ above dropped,
    site.Leads s.root above ∧ start.isAbsolute = s.root.isAbsolute ∧ start.names = s.root.names ++ dropped := by
  obtain ⟨marked, n, climbed⟩ := discoverFromClimbs found
  obtain ⟨above, leads⟩ := markedLeads marked
  obtain ⟨absolute, dropped, names⟩ := Path.climbedDrops climbed
  exact ⟨above, dropped, leads, absolute.symm, names⟩

theorem droppedInward {up : Path} {above : Location} {dropped : List Name} (leads : site.Leads up above)
    (named : site.Leads start place) (alike : start.isAbsolute = up.isAbsolute)
    (names : start.names = up.names ++ dropped) (unlinked : site.tree.Unlinked above dropped)
    (inward : Path.Inward 0 dropped) : above <+: place := by
  have filled : ∀ name ∈ dropped, Path.isBlank name = false := by
    intro name member
    have among : name ∈ start.names := names ▸ List.mem_append_right _ member
    simpa using (List.mem_filter.mp among).2
  obtain ⟨_, _, upper, _⟩ := (site.leadsAlong up above).mp leads
  obtain ⟨_, _, ends⟩ := (site.leadsAlong start place).mp named
  obtain ⟨links, goes⟩ := Site.alongOnward upper
  rw [← Site.alongHeld, names, List.append_assoc, Site.along, alike, ← Site.along, goes] at ends
  have walked := Site.placeOk.mp ends
  rw [← List.append_nil above] at walked unlinked
  exact Tree.walkInward [] filled unlinked inward walked

/- The names of the current directory are those of directories one below the other. -/
structure Settled (t : Tree) (place : Location) : Prop where
  plain : ∀ name ∈ place, Path.Plain name
  standing : ∀ front, front <+: place → t.node? front = some .directory

theorem settledNames {p : Path} {whole : Location} (settled : Settled site.tree whole) (rooted : p.isAbsolute = true)
    (front : p.names <+: whole) (leads : site.Leads p place) : place = p.names := by
  obtain ⟨_, _, ends⟩ := (site.leadsAlong p place).mp leads
  rw [← Site.alongHeld, Site.along, rooted] at ends
  simp only [if_true, Site.walkOut] at ends
  exact Tree.walkSettled (fun before within => settled.standing before (within.trans front))
    (fun name member => settled.plain name (front.subset member)) (Site.placeOk.mp ends)

theorem settledStart {whole : Location} (settled : Settled site.tree whole) :
    (Site.pathTo whole).names = whole := by
  rw [Path.pathToNames fun name member => (settled.plain name member).whole, List.filter_eq_self]
  intro name member
  simp [Path.plainFilled (settled.plain name member)]

theorem settledContains {whole above : Location} (settled : Settled site.tree whole)
    (found : discoverFrom site.disk (Site.pathTo whole) = .ok s) (leads : site.Leads s.root above) :
    above <+: whole := by
  obtain ⟨_, dropped, _, alike, names⟩ := rootDropped found
  rw [settledStart settled] at names
  have front : s.root.names <+: whole := ⟨dropped, names.symm⟩
  rw [settledNames settled alike.symm front leads]
  exact front

/- What was dropped is followed from the root to the start. It is in the way of containment only if it goes
through a link or leads out of the root, and for the current directory it does neither. -/
theorem rootContains (named : site.Leads start place) (found : discoverFrom site.disk start = .ok s) :
    ∃ above dropped, site.Leads s.root above ∧ start.names = s.root.names ++ dropped ∧
      (site.tree.Unlinked above dropped → Path.Inward 0 dropped → above <+: place) ∧
      (∀ whole, Settled site.tree whole → start = Site.pathTo whole → place = whole ∧ above <+: place) := by
  obtain ⟨above, dropped, leads, alike, names⟩ := rootDropped found
  refine ⟨above, dropped, leads, names, droppedInward leads named alike names, ?_⟩
  rintro whole settled rfl
  have own := settledStart settled
  have same : place = whole := by
    rw [settledNames settled rfl ⟨[], by rw [own, List.append_nil]⟩ named, own]
  exact ⟨same, same ▸ settledContains settled found leads⟩

theorem discoverFromBeyond {disk : Disk} {front back : List Path} {dir : Path}
    (way : start.chain = front ++ dir :: back) (unmarked : ∀ nearer ∈ front, isMarked disk nearer = false)
    (marked : isMarked disk dir = true) (unfiled : disk.isFile (dir.join fileName) = false) :
    discoverFrom disk start = .ok (atRoot dir) := by
  have none : front.find? (isMarked disk) = none := List.find?_eq_none.mpr fun nearer member => by
    simp [unmarked nearer member]
  have nearest : start.chain.find? (isMarked disk) = some dir := by
    rw [way, List.find?_append, none, List.find?_cons_of_pos marked]
    rfl
  simp [discoverFrom, nearest, load, unfiled]

def projects : Site :=
  [(".git", .directory), ("other", .directory), ("work/.git", .directory), ("work/a/b", .directory),
    ("work/a/c", .directory), ("work/link", .link (Path.ofString "../other")), ("plain/inner/.git", .directory)].foldl
    (fun site entry => site.insert (Path.ofString entry.1).segments entry.2) (⟨⟨[]⟩, [], 0⟩ : Site)

theorem linkLeads : projects.Leads (Path.ofString "/work/link") [Utf8.encode "other"] :=
  Site.leadsResolved (by cbv) (by cbv)

theorem workLeads : projects.Leads (Path.ofString "/work") [Utf8.encode "work"] :=
  Site.leadsResolved (by cbv) (by cbv)

theorem dottedLeads : projects.Leads (Path.ofString "plain/inner/..") [Utf8.encode "plain"] :=
  Site.leadsResolved (by cbv) (by cbv)

theorem innerLeads :
    projects.Leads (Path.ofString "plain/inner") [Utf8.encode "plain", Utf8.encode "inner"] :=
  Site.leadsResolved (by cbv) (by cbv)

theorem linkDropped :
    discoverFrom projects.disk (Path.ofString "/work/link") = .ok (atRoot (Path.ofString "/work")) := by
  have way : (Path.ofString "/work/link").chain =
      [Path.ofString "/work/link"] ++ Path.ofString "/work" :: [Path.ofString "/"] := by cbv
  have nearer : isMarked projects.disk (Path.ofString "/work/link") = false := by cbv
  exact discoverFromBeyond way (by simpa using nearer) (by cbv) (by cbv)

theorem dotsDropped :
    discoverFrom projects.disk (Path.ofString "plain/inner/..") = .ok (atRoot (Path.ofString "plain/inner")) := by
  have way : (Path.ofString "plain/inner/..").chain = [Path.ofString "plain/inner/.."] ++
      Path.ofString "plain/inner" :: [Path.ofString "plain", Path.ofString ""] := by cbv
  have nearer : isMarked projects.disk (Path.ofString "plain/inner/..") = false := by cbv
  exact discoverFromBeyond way (by simpa using nearer) (by cbv) (by cbv)

theorem dotsAndLinksMislead :
    (discoverFrom projects.disk (Path.ofString "/work/link") = .ok (atRoot (Path.ofString "/work")) ∧
      projects.Leads (Path.ofString "/work/link") [Utf8.encode "other"] ∧
      projects.Leads (Path.ofString "/work") [Utf8.encode "work"] ∧
      ¬ [Utf8.encode "work"] <+: [Utf8.encode "other"]) ∧
    discoverFrom projects.disk (Path.ofString "plain/inner/..") = .ok (atRoot (Path.ofString "plain/inner")) ∧
      projects.Leads (Path.ofString "plain/inner/..") [Utf8.encode "plain"] ∧
      projects.Leads (Path.ofString "plain/inner") [Utf8.encode "plain", Utf8.encode "inner"] ∧
      ¬ [Utf8.encode "plain", Utf8.encode "inner"] <+: [Utf8.encode "plain"] :=
  ⟨⟨linkDropped, linkLeads, workLeads, by decide⟩, dotsDropped, dottedLeads, innerLeads, by decide⟩

theorem deepLeads : projects.Leads (Path.ofString "/work/a/b/../c")
    [Utf8.encode "work", Utf8.encode "a", Utf8.encode "c"] :=
  Site.leadsResolved (by cbv) (by cbv)

theorem deepDropped :
    discoverFrom projects.disk (Path.ofString "/work/a/b/../c") = .ok (atRoot (Path.ofString "/work")) := by
  have way : (Path.ofString "/work/a/b/../c").chain =
      [Path.ofString "/work/a/b/../c", Path.ofString "/work/a/b/..", Path.ofString "/work/a/b", Path.ofString "/work/a"]
        ++ Path.ofString "/work" :: [Path.ofString "/"] := by cbv
  have first : isMarked projects.disk (Path.ofString "/work/a/b/../c") = false := by cbv
  have second : isMarked projects.disk (Path.ofString "/work/a/b/..") = false := by cbv
  have third : isMarked projects.disk (Path.ofString "/work/a/b") = false := by cbv
  have fourth : isMarked projects.disk (Path.ofString "/work/a") = false := by cbv
  exact discoverFromBeyond way (by simp [first, second, third, fourth]) (by cbv) (by cbv)

theorem dotsFollowed :
    discoverFrom projects.disk (Path.ofString "/work/a/b/../c") = .ok (atRoot (Path.ofString "/work")) ∧
    ∃ above, projects.Leads (Path.ofString "/work") above ∧
      above <+: [Utf8.encode "work", Utf8.encode "a", Utf8.encode "c"] := by
  obtain ⟨above, dropped, leads, names, contained, _⟩ := rootContains deepLeads deepDropped
  have place : above = [Utf8.encode "work"] := Site.leadsOne leads workLeads
  have behind : dropped = [Utf8.encode "a", Utf8.encode "b", [Path.dot, Path.dot], Utf8.encode "c"] := by
    have whole : (Path.ofString "/work/a/b/../c").names = (Path.ofString "/work").names ++
        [Utf8.encode "a", Utf8.encode "b", [Path.dot, Path.dot], Utf8.encode "c"] := by cbv
    exact List.append_cancel_left (names.symm.trans whole)
  have undotted : Utf8.encode "a" ≠ [Path.dot, Path.dot] ∧ Utf8.encode "b" ≠ [Path.dot, Path.dot] ∧
      Utf8.encode "c" ≠ [Path.dot, Path.dot] := by decide
  have first : projects.tree.node? [Utf8.encode "work", Utf8.encode "a"] = some .directory := by cbv
  have second : projects.tree.node? [Utf8.encode "work", Utf8.encode "a", Utf8.encode "b"] = some .directory := by cbv
  have third : projects.tree.node? [Utf8.encode "work", Utf8.encode "a", Utf8.encode "c"] = some .directory := by cbv
  subst place
  subst behind
  refine ⟨deepDropped, _, leads, contained ?_ ?_⟩
  · simp [Tree.Unlinked, undotted, first, second, third]
  · simp [Path.Inward, undotted]

end Settings

end ShellStyle
