import ShellStyle.Rule

/-! Where a text holds a needle. A needle in two texts put together is in one of them or lies across the seam,
so a needle of two characters is a question about neighbours alone; the long help option has such a needle in
it and need not be looked for. What stands behind the last place of a needle is found from the end of the text. -/
namespace ShellStyle

namespace Text

variable {needle text rest : List Char}

theorem occursAppend {front back : List Char} : occurs needle (front ++ back) = true ↔
    occurs needle front = true ∨ occurs needle back = true ∨
      ∃ head tail, head ≠ [] ∧ tail ≠ [] ∧ needle = head ++ tail ∧ head <:+ front ∧ tail <+: back := by
  simp only [occursIff]
  exact List.infix_append_iff_ne_nil

theorem pairSeam {x y : Char} {front back : List Char} :
    (∃ head tail, head ≠ [] ∧ tail ≠ [] ∧ [x, y] = head ++ tail ∧ head <:+ front ∧ tail <+: back) ↔
      front.getLast? = some x ∧ back.head? = some y := by
  rw [← List.singleton_suffix_iff_getLast?_eq_some, ← List.singleton_prefix_iff_head?_eq_some]
  constructor
  · intro seam
    obtain ⟨head, tail, some, more, cut, ends, begins⟩ := seam
    cases head with
    | nil => exact absurd rfl some
    | cons first others =>
      obtain ⟨rfl, left⟩ := List.cons.inj cut
      cases others with
      | nil =>
        subst left
        exact ⟨ends, begins⟩
      | cons second others =>
        obtain ⟨_, none⟩ := List.cons.inj left
        exact absurd (List.append_eq_nil_iff.mp none.symm).2 more
  · intro both
    exact ⟨[x], [y], List.cons_ne_nil _ _, List.cons_ne_nil _ _, rfl, both.1, both.2⟩

theorem pairNeighbours {x y : Char} :
    [x, y] <:+: text ↔ ∃ i : Nat, text[i]? = some x ∧ text[i + 1]? = some y := by
  induction text with
  | nil => simp
  | cons c more ih =>
    rw [List.infix_cons_iff, ih, List.cons_prefix_cons, List.singleton_prefix_iff_head?_eq_some]
    constructor
    · intro found
      rcases found with ⟨rfl, next⟩ | ⟨i, first, second⟩
      · exact ⟨0, rfl, by rwa [List.getElem?_cons_succ, ← List.head?_eq_getElem?]⟩
      · exact ⟨i + 1, first, second⟩
    · intro found
      obtain ⟨i, first, second⟩ := found
      cases i with
      | zero =>
        cases first
        rw [List.getElem?_cons_succ, ← List.head?_eq_getElem?] at second
        exact .inl ⟨rfl, second⟩
      | succ i => exact .inr ⟨i, first, second⟩

/- Later places are tried first. -/
def behindLast (needle : List Char) : List Char → Option (List Char)
  | [] => if needle = [] then some [] else none
  | c :: more =>
    match behindLast needle more with
    | some rest => some rest
    | none => if needle <+: c :: more then some ((c :: more).drop needle.length) else none

structure LastBehind (needle text rest : List Char) : Prop where
  within : needle ++ rest <:+ text
  last : ∀ other, needle ++ other <:+ text → rest.length ≤ other.length

theorem lastBehindUnique {other : List Char} (one : LastBehind needle text rest)
    (two : LastBehind needle text other) : rest = other := by
  have length : rest.length = other.length :=
    Nat.le_antisymm (one.last other two.within) (two.last rest one.within)
  have whole : needle ++ rest <:+ needle ++ other :=
    List.suffix_of_suffix_length_le one.within two.within (by simp [length])
  have same : needle ++ rest = needle ++ other := whole.eq_of_length (by simp [length])
  exact List.append_cancel_left same

theorem behindLastNone (h : behindLast needle text = none) (other : List Char) : ¬ needle ++ other <:+ text := by
  induction text with
  | nil =>
    intro within
    rw [List.suffix_nil, List.append_eq_nil_iff] at within
    simp [behindLast, within.1] at h
  | cons c more ih =>
    rw [behindLast] at h
    split at h
    · cases h
    · rename_i later
      split at h
      · cases h
      · rename_i front
        intro within
        rcases List.suffix_cons_iff.mp within with here | there
        · exact front ⟨other, here⟩
        · exact ih later there

theorem behindLastSome (h : behindLast needle text = some rest) : LastBehind needle text rest := by
  induction text generalizing rest with
  | nil =>
    rw [behindLast] at h
    split at h
    · rename_i empty
      cases h
      exact ⟨by simp [empty], fun _ _ => Nat.zero_le _⟩
    · cases h
  | cons c more ih =>
    rw [behindLast] at h
    split at h
    · rename_i later
      cases h
      have found := ih later
      have short := found.within.length_le
      refine ⟨found.within.trans (List.suffix_cons c more), fun other within => ?_⟩
      rcases List.suffix_cons_iff.mp within with here | there
      · have long := congrArg List.length here
        simp only [List.length_append, List.length_cons] at short long
        omega
      · exact found.last other there
    · rename_i later
      split at h
      · rename_i front
        cases h
        obtain ⟨tail, whole⟩ := front
        rw [← whole, List.drop_left]
        refine ⟨List.suffix_rfl, fun other within => ?_⟩
        rw [whole] at within
        rcases List.suffix_cons_iff.mp within with here | there
        · have same : other = tail := List.append_cancel_left (here.trans whole.symm)
          exact Nat.le_of_eq (congrArg List.length same.symm)
        · exact absurd there (behindLastNone later other)
      · cases h

theorem behindLastIff : behindLast needle text = some rest ↔ LastBehind needle text rest := by
  constructor
  · exact behindLastSome
  · intro found
    cases answer : behindLast needle text with
    | none => exact absurd found.within (behindLastNone answer rest)
    | some other => rw [lastBehindUnique (behindLastSome answer) found]

example : behindLast ['a', 'a'] ['a', 'a', 'a', 'b'] = some ['b'] := by decide

theorem behindLastMark {sep : Char} (absent : sep ∉ rest) (within : needle ++ [sep] ++ rest <:+ text) :
    behindLast (needle ++ [sep]) text = some rest := by
  refine behindLastIff.mpr ⟨within, fun other also => Nat.le_of_not_lt fun shorter => absent ?_⟩
  have ends : sep :: other <:+ text := by
    rw [List.append_assoc] at also
    exact (List.suffix_append needle (sep :: other)).trans also
  have rests : rest <:+ text := (List.suffix_append _ rest).trans within
  have inside : sep :: other <:+ rest := List.suffix_of_suffix_length_le ends rests shorter
  exact inside.subset List.mem_cons_self

end Text

namespace Rule
open Text

theorem helpShort (text : String) : mentionsHelp text = true ↔ ['-', 'h'] <:+: text.toList := by
  rw [mentionsHelp, Bool.or_eq_true, occursIff, occursIff]
  refine or_iff_left_of_imp fun long => ?_
  have inside : ['-', 'h'] <:+: ['-', '-', 'h', 'e', 'l', 'p'] := ⟨['-'], ['e', 'l', 'p'], rfl⟩
  exact inside.trans long

theorem helpComposes :
    (∀ a b : String, mentionsHelp (a ++ b) = true ↔ mentionsHelp a = true ∨ mentionsHelp b = true ∨
      a.toList.getLast? = some '-' ∧ b.toList.head? = some 'h') ∧
    (∀ text : String, mentionsHelp text = occurs ['-', 'h'] text.toList) ∧
    ∀ text : String, mentionsHelp text = true ↔
      ∃ i : Nat, text.toList[i]? = some '-' ∧ text.toList[i + 1]? = some 'h' := by
  have short : ∀ text : String, mentionsHelp text = occurs ['-', 'h'] text.toList := by
    intro text
    rw [Bool.eq_iff_iff, helpShort, occursIff]
  refine ⟨fun a b => ?_, short, fun text => ?_⟩
  · rw [short, short, short, String.toList_append, occursAppend, pairSeam]
  · rw [helpShort, pairNeighbours]

end Rule

end ShellStyle
