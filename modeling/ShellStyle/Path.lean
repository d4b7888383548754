import ShellStyle.Text.Utf8

/-! File paths as raw bytes. Joining and taking the parent work on the text of the path alone and never
look at a disk; nothing else is normalised. `chain` is a path followed by its parents up to the last. -/
namespace ShellStyle
open Text

structure Path where
  bytes : List UInt8
  deriving DecidableEq, Repr

namespace Path

def slash : UInt8 := 0x2F

def dot : UInt8 := 0x2E

def ofString (s : String) : Path := ⟨Utf8.encode s⟩

def display (p : Path) : String := Utf8.decodeLossy p.bytes

instance : Coe Path String := ⟨display⟩

def isAbsolute (p : Path) : Bool := p.bytes.head? == some slash

/- An absolute second path replaces the first; otherwise one slash stands between the two. -/
def join (p q : Path) : Path :=
  if q.isAbsolute then q
  else if p.bytes = [] ∨ p.bytes.getLast? = some slash then ⟨p.bytes ++ q.bytes⟩
  else ⟨p.bytes ++ slash :: q.bytes⟩

def split : List UInt8 → List (List UInt8)
  | [] => [[]]
  | b :: r =>
    if b = slash then [] :: split r
    else match split r with
      | s :: rest => (b :: s) :: rest
      | [] => [[b]]

def unsplit : List (List UInt8) → List UInt8
  | [] => []
  | [s] => s
  | s :: rest => s ++ slash :: unsplit rest

def segments (p : Path) : List (List UInt8) := split p.bytes

def isBlank (s : List UInt8) : Bool := s == [] || s == [dot]

def trimEnd (ss : List (List UInt8)) : List (List UInt8) := (ss.reverse.dropWhile isBlank).reverse

/- Drops the last component and the blanks around it. The root and the empty path have no parent,
and the parent of a single relative component is the empty path. -/
def parent? (p : Path) : Option Path :=
  match p.segments with
  | [] => none
  | first :: rest =>
    match trimEnd rest with
    | [] => if first = [] then none else some ⟨[]⟩
    | s :: more =>
      match trimEnd (s :: more).dropLast with
      | [] => if first = [] then some ⟨[slash]⟩ else some ⟨first⟩
      | kept => some ⟨unsplit (first :: kept)⟩

theorem splitNonempty (bs : List UInt8) : split bs ≠ [] := by
  cases bs with
  | nil => simp [split]
  | cons b r =>
    rw [split]
    split
    · simp
    · split <;> simp

theorem unsplitConsCons (s t : List UInt8) (rest : List (List UInt8)) :
    unsplit (s :: t :: rest) = s ++ slash :: unsplit (t :: rest) := rfl

theorem unsplitCons {s : List UInt8} {rest : List (List UInt8)} (h : rest ≠ []) :
    unsplit (s :: rest) = s ++ slash :: unsplit rest := by
  cases rest with
  | nil => exact absurd rfl h
  | cons t more => rfl

theorem unsplitSplit (bs : List UInt8) : unsplit (split bs) = bs := by
  induction bs with
  | nil => rfl
  | cons b r ih =>
    rw [split]
    by_cases hb : b = slash
    · rw [if_pos hb, unsplitCons (splitNonempty r), ih, hb]
      rfl
    · rw [if_neg hb]
      cases hs : split r with
      | nil => exact absurd hs (splitNonempty r)
      | cons s rest =>
        rw [hs] at ih
        cases rest with
        | nil => simpa [unsplit] using ih
        | cons t more => simpa [unsplit] using ih

theorem unsplitAppendLength (s : List UInt8) (xs : List (List UInt8))
    {ys : List (List UInt8)} (h : ys ≠ []) :
    (unsplit (s :: xs)).length + (unsplit ys).length + 1 = (unsplit (s :: (xs ++ ys))).length := by
  induction xs generalizing s with
  | nil =>
    rw [List.nil_append, unsplitCons h]
    simp [unsplit]
    omega
  | cons x xs ih =>
    have := ih x
    rw [List.cons_append, unsplitConsCons, unsplitConsCons]
    simp only [List.length_append, List.length_cons]
    omega

theorem trimEndAppend (ss : List (List UInt8)) : ∃ blanks, ss = trimEnd ss ++ blanks := by
  refine ⟨(ss.reverse.takeWhile isBlank).reverse, ?_⟩
  rw [trimEnd, ← List.reverse_append, List.takeWhile_append_dropWhile, List.reverse_reverse]

theorem trimEndLastNonempty (ss : List (List UInt8)) {s : List UInt8}
    (h : (trimEnd ss).getLast? = some s) : s ≠ [] := by
  intro hs
  rw [trimEnd, List.getLast?_reverse] at h
  have := List.head?_dropWhile_not isBlank ss.reverse
  rw [h, hs] at this
  simp [isBlank] at this

theorem parentShorter {p q : Path} (h : p.parent? = some q) :
    q.bytes.length < p.bytes.length := by
  have whole : unsplit p.segments = p.bytes := unsplitSplit p.bytes
  unfold parent? at h
  cases hp : p.segments with
  | nil => simp [hp] at h
  | cons first rest =>
    rw [hp] at whole h
    obtain ⟨blanks, hrest⟩ := trimEndAppend rest
    rw [← whole]
    cases hbody : trimEnd rest with
    | nil =>
      simp only [hbody] at h
      split at h
      · simp at h
      · rename_i hfirst
        cases Option.some.inj h
        have : 0 < first.length := List.length_pos_iff.mpr hfirst
        cases rest with
        | nil => simpa [unsplit] using this
        | cons t more =>
          rw [unsplitConsCons, List.length_append]
          exact Nat.lt_add_right _ this
    | cons s more =>
      simp only [hbody] at h
      have hlast : (s :: more).dropLast ++ [(s :: more).getLast (by simp)] = s :: more :=
        List.dropLast_concat_getLast (by simp)
      obtain ⟨blanks₂, hkept⟩ := trimEndAppend (s :: more).dropLast
      have hne : (s :: more).getLast (by simp) ≠ [] :=
        trimEndLastNonempty rest (by rw [hbody]; exact List.getLast?_eq_some_getLast _)
      have hpos : 0 < ((s :: more).getLast (by simp)).length := List.length_pos_iff.mpr hne
      generalize (s :: more).getLast (by simp) = last at hlast hne hpos
      generalize trimEnd (s :: more).dropLast = kept at h hkept
      have hform : rest = kept ++ ((blanks₂ ++ [last]) ++ blanks) := by
        rw [hrest, hbody, ← hlast, hkept]
        simp
      have hlen := unsplitAppendLength first kept
        (show (blanks₂ ++ [last]) ++ blanks ≠ [] by simp)
      have htail : 0 < (unsplit ((blanks₂ ++ [last]) ++ blanks)).length := by
        cases blanks₂ with
        | nil =>
          cases blanks with
          | nil => simpa [unsplit] using hpos
          | cons b bs =>
            show 0 < (last ++ slash :: unsplit (b :: bs)).length
            simp only [List.length_append, List.length_cons]
            omega
        | cons b bs =>
          rw [List.cons_append, List.cons_append, unsplitCons (by simp)]
          simp only [List.length_append, List.length_cons]
          omega
      rw [← hform] at hlen
      cases kept with
      | nil =>
        have single : unsplit [first] = first := rfl
        rw [single] at hlen
        simp only at h
        by_cases hf : first = []
        · rw [if_pos hf] at h
          cases Option.some.inj h
          show 1 < _
          omega
        · rw [if_neg hf] at h
          cases Option.some.inj h
          show first.length < _
          omega
      | cons k ks =>
        cases Option.some.inj h
        show (unsplit (first :: k :: ks)).length < _
        omega

def chain (p : Path) : List Path :=
  match _h : p.parent? with
  | none => [p]
  | some q => p :: q.chain
termination_by p.bytes.length
decreasing_by exact parentShorter _h

theorem chainUnfold (p : Path) :
    p.chain = p :: (match p.parent? with | none => [] | some q => q.chain) := by
  rw [chain]
  split <;> rename_i h <;> simp [h]

end Path

end ShellStyle
