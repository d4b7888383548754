import Mathlib.Data.List.Induction
import ShellStyle.Proofs.Encoded
import ShellStyle.Report

/-! The outcomes of a report: every owner of a verdict once, in byte order, with the tally of its own
verdicts. The keys of a table that is built verdict by verdict stay sorted, so a new owner is never set
before one that it equals. -/
namespace ShellStyle
open Text

namespace Owner

theorem beforeIff {a b : Owner} : a.before b = true ↔
    Utf8.encode a.folder < Utf8.encode b.folder ∨
      (a.folder = b.folder ∧ Utf8.encode a.file < Utf8.encode b.file) := by
  unfold before
  split
  · rename_i same
    simp [same, List.lt_irrefl]
  · rename_i other
    simp [other]

theorem beforeIrreflexive (a : Owner) : a.before a ≠ true := by
  rw [ne_eq, beforeIff]
  intro earlier
  rcases earlier with folder | ⟨_, file⟩
  · exact List.lt_irrefl _ folder
  · exact List.lt_irrefl _ file

theorem beforeTransitive {a b c : Owner} (first : a.before b = true) (second : b.before c = true) :
    a.before c = true := by
  rw [beforeIff] at first second ⊢
  rcases first with folder | ⟨same, file⟩
  · rcases second with next | ⟨again, _⟩
    · exact .inl (List.lt_trans folder next)
    · exact .inl (again ▸ folder)
  · rcases second with next | ⟨again, more⟩
    · exact .inl (same ▸ next)
    · exact .inr ⟨same.trans again, List.lt_trans file more⟩

theorem beforeTotal {a b : Owner} (different : a ≠ b) (h : a.before b ≠ true) :
    b.before a = true := by
  rw [ne_eq, beforeIff, not_or] at h
  rw [beforeIff]
  by_cases folder : a.folder = b.folder
  · have file : a.file ≠ b.file := by
      intro same
      exact different (by cases a; cases b; simp_all)
    refine .inr ⟨folder.symm, Std.lt_of_le_of_ne (fun less => h.2 ⟨folder, less⟩) ?_⟩
    exact fun same => file (Utf8.encodeInjective same.symm)
  · refine .inl (Std.lt_of_le_of_ne h.1 ?_)
    exact fun same => folder (Utf8.encodeInjective same.symm)

def Sorted (keys : List Owner) : Prop := keys.Pairwise fun a b => a.before b = true

theorem sortedNodup {keys : List Owner} (sorted : Sorted keys) : keys.Nodup := by
  refine List.Pairwise.imp ?_ sorted
  intro a b before same
  exact beforeIrreflexive a (same ▸ before)

def insertKey (key : Owner) : List Owner → List Owner
  | [] => [key]
  | k :: rest =>
    if key = k then k :: rest
    else if key.before k then key :: k :: rest
    else k :: insertKey key rest

theorem insertKeyMember {key other : Owner} {keys : List Owner} :
    other ∈ insertKey key keys ↔ other = key ∨ other ∈ keys := by
  induction keys with
  | nil => simp [insertKey]
  | cons k rest ih =>
    rw [insertKey]
    split
    · rename_i same
      simp [same]
    · split
      · simp
      · rw [List.mem_cons, ih, List.mem_cons]
        exact or_left_comm

theorem insertKeySorted {key : Owner} {keys : List Owner} (sorted : Sorted keys) :
    Sorted (insertKey key keys) := by
  induction keys with
  | nil => exact List.pairwise_singleton _ _
  | cons k rest ih =>
    obtain ⟨head, tail⟩ := List.pairwise_cons.mp sorted
    rw [insertKey]
    split
    · exact sorted
    · rename_i different
      split
      · rename_i before
        refine List.pairwise_cons.mpr ⟨?_, sorted⟩
        intro other member
        rcases List.mem_cons.mp member with same | later
        · rw [same]
          exact before
        · exact beforeTransitive before (head other later)
      · rename_i behind
        refine List.pairwise_cons.mpr ⟨?_, ih tail⟩
        intro other member
        rcases insertKeyMember.mp member with same | later
        · rw [same]
          exact beforeTotal different behind
        · exact head other later

theorem absentBefore {key k : Owner} {rest : List Owner} (sorted : Sorted (k :: rest))
    (before : key.before k = true) : key ∉ k :: rest := by
  intro member
  rcases List.mem_cons.mp member with same | later
  · exact beforeIrreflexive k (same ▸ before)
  · have behind := (List.pairwise_cons.mp sorted).1 key later
    exact beforeIrreflexive key (beforeTransitive before behind)

end Owner

namespace Outcome

def ofVerdicts (verdicts : List Verdict) : Outcome := verdicts.foldl add empty

theorem ofVerdictsSnoc (verdicts : List Verdict) (v : Verdict) :
    ofVerdicts (verdicts ++ [v]) = (ofVerdicts verdicts).add v := by
  simp [ofVerdicts]

theorem ofVerdictsFields (verdicts : List Verdict) :
    (ofVerdicts verdicts).passed = (verdicts.filter (·.passed)).length ∧
    (ofVerdicts verdicts).failed = (verdicts.filter (!·.passed)).map (·.check) := by
  induction verdicts using List.reverseRecOn with
  | nil => exact ⟨rfl, rfl⟩
  | append_singleton verdicts v ih =>
    rw [ofVerdictsSnoc]
    cases passed : v.passed <;> simp [add, passed, ih.1, ih.2]

end Outcome

namespace Report

def ownedBy (verdicts : List Verdict) (key : Owner) : List Verdict :=
  verdicts.filter fun v => v.owner = key

def tally (verdicts : List Verdict) (keys : List Owner) : List (Owner × Outcome) :=
  keys.map fun key => (key, Outcome.ofVerdicts (ownedBy verdicts key))

theorem tallyCons (verdicts : List Verdict) (key : Owner) (keys : List Owner) :
    tally verdicts (key :: keys) =
      (key, Outcome.ofVerdicts (ownedBy verdicts key)) :: tally verdicts keys := rfl

theorem ownedBySnoc (verdicts : List Verdict) (v : Verdict) (key : Owner) :
    ownedBy (verdicts ++ [v]) key = if v.owner = key then ownedBy verdicts key ++ [v]
      else ownedBy verdicts key := by
  split <;> simp_all [ownedBy]

theorem tallyOther {verdicts : List Verdict} {v : Verdict} {keys : List Owner}
    (absent : v.owner ∉ keys) : tally (verdicts ++ [v]) keys = tally verdicts keys := by
  refine List.map_congr_left ?_
  intro key member
  have other : v.owner ≠ key := fun same => absent (same ▸ member)
  rw [ownedBySnoc, if_neg other]

/- The table stays a tally while verdicts come in, if an owner without a key has no verdicts yet. -/
theorem recordTally {verdicts : List Verdict} {v : Verdict} {keys : List Owner}
    (sorted : Owner.Sorted keys) (fresh : v.owner ∉ keys → ownedBy verdicts v.owner = []) :
    record v (tally verdicts keys) = tally (verdicts ++ [v]) (Owner.insertKey v.owner keys) := by
  have own : Outcome.ofVerdicts (ownedBy (verdicts ++ [v]) v.owner) =
      (Outcome.ofVerdicts (ownedBy verdicts v.owner)).add v := by
    rw [ownedBySnoc, if_pos rfl, Outcome.ofVerdictsSnoc]
  induction keys with
  | nil =>
    rw [fresh (by simp)] at own
    rw [Owner.insertKey, tallyCons, own]
    rfl
  | cons k rest ih =>
    obtain ⟨head, tail⟩ := List.pairwise_cons.mp sorted
    rw [tallyCons, record, Owner.insertKey]
    split
    · rename_i same
      have absent : v.owner ∉ rest := fun member =>
        Owner.beforeIrreflexive k (head k (same ▸ member))
      subst same
      rw [tallyCons, own, tallyOther absent]
    · rename_i different
      split
      · rename_i before
        have absent := Owner.absentBefore sorted before
        rw [fresh absent] at own
        rw [tallyCons, own, tallyOther absent]
        rfl
      · have later : v.owner ∉ rest → ownedBy verdicts v.owner = [] := fun absent =>
          fresh (by simp [different, absent])
        rw [tallyCons, ih tail later, ownedBySnoc, if_neg different]

def keys (r : Report) : List Owner :=
  r.verdicts.foldl (fun keys v => Owner.insertKey v.owner keys) []

theorem outcomesBuilt (verdicts : List Verdict) :
    let built := verdicts.foldl (fun keys v => Owner.insertKey v.owner keys) []
    Owner.Sorted built ∧ (∀ key, key ∈ built ↔ key ∈ verdicts.map Verdict.owner) ∧
      verdicts.foldl (fun m v => record v m) [] = tally verdicts built := by
  induction verdicts using List.reverseRecOn with
  | nil => exact ⟨List.Pairwise.nil, by simp, rfl⟩
  | append_singleton verdicts v ih =>
    obtain ⟨sorted, members, table⟩ := ih
    simp only [List.foldl_append, List.foldl_cons, List.foldl_nil, table]
    refine ⟨Owner.insertKeySorted sorted, ?_, recordTally sorted ?_⟩
    · intro key
      rw [Owner.insertKeyMember, members]
      simp [or_comm]
    · intro absent
      rw [members] at absent
      simp only [ownedBy, List.filter_eq_nil_iff, decide_eq_true_eq]
      exact fun old member same => absent (List.mem_map.mpr ⟨old, member, same⟩)

theorem keysSorted (r : Report) : Owner.Sorted r.keys := (outcomesBuilt r.verdicts).1

theorem keysMember (r : Report) (key : Owner) : key ∈ r.keys ↔ key ∈ r.verdicts.map Verdict.owner :=
  (outcomesBuilt r.verdicts).2.1 key

theorem outcomesTally (r : Report) : r.outcomes = tally r.verdicts r.keys :=
  (outcomesBuilt r.verdicts).2.2

end Report

end ShellStyle
