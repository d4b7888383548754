import ShellStyle.Proofs.Discovery

/-! Following a path that is one name longer than another. The walk goes on from the directory in which the
shorter one ended, with the links it has left, so a name that is no link is found there whatever the way to
the directory was. -/
namespace ShellStyle

namespace Path

theorem splitAppend (before after : List UInt8) :
    split (before ++ slash :: after) = split before ++ split after := by
  induction before with
  | nil => exact splitSlash after
  | cons b r ih =>
    by_cases same : b = slash
    · simp [split, same, ih]
    · cases tail : split r with
      | nil => exact absurd tail (splitNonempty r)
      | cons s rest => simp [split, same, ih, tail]

theorem plainRelative {raw : Name} (plain : Plain raw) : (⟨raw⟩ : Path).isAbsolute = false := by
  cases raw with
  | nil => rfl
  | cons b r =>
    have other : b ≠ slash := fun same => plain.whole (same ▸ List.mem_cons_self)
    simpa [isAbsolute] using other

theorem joinSegments {p : Path} {raw : Name} (filled : p.bytes ≠ []) (plain : Plain raw) :
    (p.join ⟨raw⟩).isAbsolute = p.isAbsolute ∧
    ((p.join ⟨raw⟩).segments = p.segments ++ [raw] ∨
      ∃ front, p.segments = front ++ [[]] ∧ (p.join ⟨raw⟩).segments = front ++ [raw]) := by
  obtain ⟨bytes⟩ := p
  cases bytes with
  | nil => exact absurd rfl filled
  | cons b r =>
    rw [join, plainRelative plain]
    by_cases ends : (b :: r).getLast? = some slash
    · refine ⟨by simp [ends, isAbsolute], .inr ?_⟩
      obtain ⟨before, same⟩ := List.getLast?_eq_some_iff.mp ends
      refine ⟨split before, ?_, ?_⟩
      · rw [segments, same, splitAppend]
        rfl
      · simp only [ends, segments, or_true, if_true, if_false, Bool.false_eq_true]
        rw [same, List.append_assoc, List.singleton_append, splitAppend, splitName plain.whole]
    · refine ⟨by simp [ends, isAbsolute], .inl ?_⟩
      simp only [ends, segments, or_false, if_false, Bool.false_eq_true, List.cons_ne_nil]
      rw [splitAppend, splitName plain.whole]

end Path

namespace Tree

variable {t u : Tree} {links : Nat} {here place : Location} {names : List Name}

theorem walkNil (t : Tree) (made : Bool) (links : Nat) (here : Location) :
    t.walk made links here [] = .ok here := by
  cases links <;> rfl

theorem walkCons (t : Tree) (made : Bool) (links : Nat) (here : Location) (s : Name) (rest : List Name) :
    t.walk made links here (s :: rest) =
      if t.node? here ≠ some .directory then .error .notDirectory
      else if Path.isBlank s then t.walk made links here rest
      else if s = [Path.dot, Path.dot] then t.walk made links here.dropLast rest
      else if s.length > longestName then .error .nameTooLong
      else match t.node? (here ++ [s]) with
        | none => if made ∧ rest = [] then .ok (here ++ [s]) else .error .notFound
        | some (.link target) =>
          match links with
          | 0 => .error .tooManyLinks
          | fewer + 1 =>
            t.walk made fewer (if target.isAbsolute then [] else here) (target.segments ++ rest)
        | some _ => t.walk made links (here ++ [s]) rest := by
  cases links <;> rfl

/- What becomes of a walk that has more names to go, told from its end without them. -/
def Continued (t : Tree) (longer : List Name → Except Cause Location) : Except Cause Location → Prop
  | .error cause => ∀ more, longer more = .error cause
  | .ok place => ∃ links, ∀ more, longer more = t.walk false links place more

theorem walkContinued (t : Tree) (links : Nat) (here : Location) (names : List Name) :
    t.Continued (fun more => t.walk false links here (names ++ more)) (t.walk false links here names) := by
  induction links using Nat.strong_induction_on generalizing here names with
  | h links followed =>
    induction names generalizing here with
    | nil =>
      rw [walkNil]
      exact ⟨links, fun more => rfl⟩
    | cons s rest later =>
      simp only [List.cons_append, walkCons, Bool.false_eq_true, false_and, if_false]
      by_cases bare : t.node? here ≠ some .directory
      · simp only [if_pos bare]
        exact fun more => rfl
      by_cases blank : Path.isBlank s = true
      · simp only [if_neg bare, if_pos blank]
        exact later here
      by_cases out : s = [Path.dot, Path.dot]
      · simp only [if_neg bare, if_neg blank, if_pos out]
        exact later here.dropLast
      by_cases long : s.length > longestName
      · simp only [if_neg bare, if_neg blank, if_neg out, if_pos long]
        exact fun more => rfl
      simp only [if_neg bare, if_neg blank, if_neg out, if_neg long]
      cases t.node? (here ++ [s]) with
      | none => exact fun more => rfl
      | some node =>
        cases node with
        | file bytes => exact later (here ++ [s])
        | directory => exact later (here ++ [s])
        | special => exact later (here ++ [s])
        | link target =>
          cases links with
          | zero => exact fun more => rfl
          | succ fewer =>
            simp only [← List.append_assoc]
            exact followed fewer (Nat.lt_succ_self fewer) _ (target.segments ++ rest)

theorem walkBlank (walked : t.walk false links here [[]] = .ok place) : here = place := by
  rw [walkCons] at walked
  split at walked
  · cases walked
  · exact Except.ok.inj ((t.walkNil false links here).symm.trans walked)

def entered (t : Tree) (place : Location) (raw : Name) : Except Cause Location :=
  if t.node? place ≠ some .directory then .error .notDirectory
  else if raw.length > longestName then .error .nameTooLong
  else match t.node? (place ++ [raw]) with
    | none => .error .notFound
    | some _ => .ok (place ++ [raw])

theorem walkEntered {raw : Name} (plain : Path.Plain raw)
    (direct : ∀ target, t.node? (place ++ [raw]) ≠ some (.link target)) :
    t.walk false links place [raw] = t.entered place raw := by
  simp only [walkCons, Path.plainFilled plain, plain.above, Bool.false_eq_true, false_and, if_false, walkNil]
  rw [entered]
  cases found : t.node? (place ++ [raw]) with
  | none => rfl
  | some node =>
    cases node with
    | link target => exact absurd found (direct target)
    | file bytes => rfl
    | directory => rfl
    | special => rfl

theorem enteredPlace {raw : Name} (found : t.entered place raw = .ok here) : here = place ++ [raw] := by
  rw [entered] at found
  split at found
  · cases found
  split at found
  · cases found
  split at found
  · cases found
  · exact (Except.ok.inj found).symm

theorem enteredSame {raw : Name} (folder : t.node? place = u.node? place)
    (node : t.node? (place ++ [raw]) = u.node? (place ++ [raw])) :
    t.entered place raw = u.entered place raw := by
  rw [entered, entered, folder, node]

end Tree

namespace Site

variable {a b : Site} {t : Tree} {path : Path} {place : Location} {raw : Name}

def Continued (t : Tree) (longer : List Name → Except Cause Spot) : Except Cause Spot → Prop
  | .error cause => ∀ more, longer more = .error cause
  | .ok .removed => ∃ lost here, ∀ more, longer more = walkOut t (lost + 1) here more
  | .ok (.place place) => ∃ links, ∀ more, longer more = (t.walk false links place more).map .place

theorem walkOutContinued (t : Tree) (lost : Nat) (here : Location) (names : List Name) :
    Continued t (fun more => walkOut t lost here (names ++ more)) (walkOut t lost here names) := by
  induction names generalizing lost here with
  | nil =>
    cases lost with
    | zero => exact ⟨Tree.mostLinks, fun more => by simp only [List.nil_append, walkOut]⟩
    | succ lost => exact ⟨lost, here, fun more => rfl⟩
  | cons s rest later =>
    cases lost with
    | zero =>
      have walked := t.walkContinued Tree.mostLinks here (s :: rest)
      simp only [walkOut]
      cases ends : t.walk false Tree.mostLinks here (s :: rest) with
      | error cause =>
        rw [ends] at walked
        exact fun more => congrArg (Except.map Spot.place) (walked more)
      | ok place =>
        rw [ends] at walked
        obtain ⟨links, goes⟩ := walked
        exact ⟨links, fun more => congrArg (Except.map Spot.place) (goes more)⟩
    | succ lost =>
      simp only [List.cons_append, walkOut]
      by_cases blank : Path.isBlank s = true
      · simp only [if_pos blank]
        exact later (lost + 1) here
      by_cases out : s = [Path.dot, Path.dot]
      · simp only [if_neg blank, if_pos out]
        exact later lost here.dropLast
      simp only [if_neg blank, if_neg out]
      exact fun more => rfl

theorem walkOutJoined {lost : Nat} {here : Location}
    (walked : walkOut t lost here path.segments = .ok (.place place))
    (filled : path.bytes ≠ []) (plain : Path.Plain raw) : ∃ links,
      walkOut t lost here (path.join ⟨raw⟩).segments = (t.walk false links place [raw]).map .place := by
  rcases (Path.joinSegments filled plain).2 with longer | ⟨front, slashed, longer⟩
  · have goes := walkOutContinued t lost here path.segments
    rw [walked] at goes
    obtain ⟨links, goes⟩ := goes
    exact ⟨links, longer ▸ goes [raw]⟩
  · have goes := walkOutContinued t lost here front
    rw [slashed] at walked
    rw [longer]
    cases ends : walkOut t lost here front with
    | error cause =>
      rw [ends] at goes
      cases (goes [[]]).symm.trans walked
    | ok spot =>
      rw [ends] at goes
      cases spot with
      | removed =>
        obtain ⟨_, _, goes⟩ := goes
        cases (goes [[]]).symm.trans walked
      | place last =>
        obtain ⟨links, goes⟩ := goes
        refine ⟨links, ?_⟩
        cases stays : t.walk false links last [[]] with
        | error cause =>
          have refused := (goes [[]]).symm.trans walked
          rw [stays] at refused
          cases refused
        | ok found =>
          have reached := (goes [[]]).symm.trans walked
          rw [stays] at reached
          cases reached
          rw [← Tree.walkBlank stays]
          exact goes [raw]

theorem resolveWalks (site : Site) (path : Path) : site.resolve path =
    if path.bytes.contains 0 then .error .nulInPath
    else if path.bytes = [] then .error .notFound
    else if path.bytes.length > Tree.longestPath then .error .nameTooLong
    else walkOut site.tree (if path.isAbsolute then 0 else site.lost)
      (if path.isAbsolute then [] else site.here) path.segments := by
  rw [resolve]
  cases path.isAbsolute <;> rfl

theorem resolveJoined {site : Site} (resolved : site.resolve path = .ok (.place place))
    (plain : Path.Plain raw) (direct : ∀ target, site.tree.node? (place ++ [raw]) ≠ some (.link target)) :
    site.resolve (path.join ⟨raw⟩) =
      if (path.join ⟨raw⟩).bytes.contains 0 then .error .nulInPath
      else if (path.join ⟨raw⟩).bytes = [] then .error .notFound
      else if (path.join ⟨raw⟩).bytes.length > Tree.longestPath then .error .nameTooLong
      else (site.tree.entered place raw).map .place := by
  rw [resolveWalks] at resolved ⊢
  split at resolved
  · cases resolved
  split at resolved
  · cases resolved
  rename_i filled
  split at resolved
  · cases resolved
  obtain ⟨links, walked⟩ := walkOutJoined resolved filled plain
  rw [(Path.joinSegments filled plain).1, walked, Tree.walkEntered plain direct]

theorem joinedPlace {site : Site} {found : Location} (resolved : site.resolve path = .ok (.place place))
    (plain : Path.Plain raw) (direct : ∀ target, site.tree.node? (place ++ [raw]) ≠ some (.link target))
    (joined : site.resolve (path.join ⟨raw⟩) = .ok (.place found)) : found = place ++ [raw] := by
  rw [resolveJoined resolved plain direct] at joined
  split at joined
  · cases joined
  split at joined
  · cases joined
  split at joined
  · cases joined
  cases last : site.tree.entered place raw with
  | error cause =>
    rw [last] at joined
    cases joined
  | ok there =>
    rw [last] at joined
    cases joined
    exact Tree.enteredPlace last

theorem nodeJoinedSame (here : a.resolve path = .ok (.place place))
    (there : b.resolve path = .ok (.place place)) (plain : Path.Plain raw)
    (folder : a.tree.node? place = b.tree.node? place)
    (node : a.tree.node? (place ++ [raw]) = b.tree.node? (place ++ [raw]))
    (direct : ∀ target, a.tree.node? (place ++ [raw]) ≠ some (.link target)) :
    a.nodeAt (path.join ⟨raw⟩) = b.nodeAt (path.join ⟨raw⟩) := by
  have directThere : ∀ target, b.tree.node? (place ++ [raw]) ≠ some (.link target) := node ▸ direct
  have same : a.resolve (path.join ⟨raw⟩) = b.resolve (path.join ⟨raw⟩) := by
    rw [resolveJoined here plain direct, resolveJoined there plain directThere,
      Tree.enteredSame folder node]
  rw [nodeAt, nodeAt, same]
  cases joined : b.resolve (path.join ⟨raw⟩) with
  | error cause => rfl
  | ok spot =>
    cases spot with
    | removed => rfl
    | place found =>
      rw [joinedPlace there plain directThere joined]
      simp only [node]

end Site

end ShellStyle
