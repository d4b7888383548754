import ShellStyle.Proofs.Counts

/-! The outcomes of a report as a summary of its verdicts that loses none: every owner of a verdict stands
there once, in byte order, with the tally of its own verdicts, and the tallies add up to the report.
Nothing is assumed of the verdicts, neither their order nor their checks. -/
namespace ShellStyle
open Text

namespace Report

theorem sharedOut {κ : Type} [DecidableEq κ] (key : Verdict → κ) (verdicts : List Verdict) (keys : List κ)
    (distinct : keys.Nodup) : (keys.flatMap fun k => verdicts.filter (key · = k)).Perm
      (verdicts.filter (key · ∈ keys)) := by
  induction keys with
  | nil => simp
  | cons k rest ih =>
    obtain ⟨fresh, others⟩ := List.nodup_cons.mp distinct
    have mine : (verdicts.filter (key · ∈ k :: rest)).filter (key · = k) = verdicts.filter (key · = k) := by
      rw [List.filter_filter]
      refine List.filter_congr fun v _ => ?_
      by_cases same : key v = k <;> simp [same]
    have theirs : (verdicts.filter (key · ∈ k :: rest)).filter (fun v => !decide (key v = k)) =
        verdicts.filter (key · ∈ rest) := by
      rw [List.filter_filter]
      refine List.filter_congr fun v _ => ?_
      by_cases same : key v = k
      · simp [same, fresh]
      · simp [same]
    have parts := List.filter_append_perm (key · = k) (verdicts.filter (key · ∈ k :: rest))
    rw [mine, theirs] at parts
    rw [List.flatMap_cons]
    exact ((ih others).append_left _).trans parts

theorem ownersSum {verdicts : List Verdict} {keys : List Owner} (distinct : keys.Nodup)
    (known : ∀ v ∈ verdicts, v.owner ∈ keys) :
    (keys.map fun key => (ownedBy verdicts key).length).sum = verdicts.length := by
  have every : verdicts.filter (·.owner ∈ keys) = verdicts :=
    List.filter_eq_self.mpr fun v member => decide_eq_true (known v member)
  have shared := sharedOut Verdict.owner verdicts keys distinct
  rw [every] at shared
  rw [← shared.length_eq, List.length_flatMap]
  rfl

theorem outcomeKeys (r : Report) : r.outcomes.map (·.1) = r.keys := by
  rw [outcomesTally, tally, List.map_map]
  exact List.map_id _

theorem keysKnown (r : Report) : ∀ v ∈ r.verdicts, v.owner ∈ r.keys :=
  fun _ member => (keysMember r _).mpr (List.mem_map_of_mem member)

theorem outcomeSize (verdicts : List Verdict) :
    (Outcome.ofVerdicts verdicts).passed + (Outcome.ofVerdicts verdicts).failed.length = verdicts.length := by
  rw [(Outcome.ofVerdictsFields verdicts).1, (Outcome.ofVerdictsFields verdicts).2, List.length_map]
  exact (List.length_eq_length_filter_add Verdict.passed).symm

theorem brokenOwned (r : Report) (key : Owner) :
    (Outcome.ofVerdicts (ownedBy r.verdicts key)).failed.length = (ownedBy r.failures key).length := by
  rw [(Outcome.ofVerdictsFields _).2, List.length_map, ownedBy, ownedBy, failures, List.filter_comm]

theorem verdictsTallied (r : Report) :
    (r.outcomes.map fun e => e.2.passed + e.2.failed.length).sum = r.verdicts.length := by
  rw [outcomesTally, tally, List.map_map, ← ownersSum (Owner.sortedNodup (keysSorted r)) (keysKnown r)]
  exact congrArg List.sum (List.map_congr_left fun key _ => outcomeSize (ownedBy r.verdicts key))

theorem failuresTallied (r : Report) :
    (r.outcomes.map fun e => e.2.failed.length).sum = r.failures.length := by
  have known : ∀ v ∈ r.failures, v.owner ∈ r.keys :=
    fun v member => keysKnown r v (List.mem_filter.mp member).1
  rw [outcomesTally, tally, List.map_map, ← ownersSum (Owner.sortedNodup (keysSorted r)) known]
  exact congrArg List.sum (List.map_congr_left fun key _ => brokenOwned r key)

theorem outcomeRows (r : Report) : r.outcomes = r.keys.map fun key =>
    (key, ⟨(r.verdicts.filter fun v => v.owner = key ∧ v.passed = true).length,
      (r.verdicts.filter fun v => v.owner = key ∧ v.passed = false).map (·.check)⟩) := by
  rw [outcomesTally, tally]
  refine List.map_congr_left fun key _ => Prod.ext rfl ?_
  obtain ⟨passed, failed⟩ := Outcome.ofVerdictsFields (ownedBy r.verdicts key)
  generalize Outcome.ofVerdicts (ownedBy r.verdicts key) = o at passed failed
  cases o
  simp_all [ownedBy, List.filter_filter, Bool.and_comm]

theorem noneFailing (r : Report) : r.failingFiles = 0 ↔ r.passed = true := by
  have counted := ownersCounted r
  rw [← allClean]
  omega

theorem outcomesClean (r : Report) : r.failingFiles = 0 ↔ ∀ e ∈ r.outcomes, e.2.clean = true := by
  simp [failingFiles, List.filter_eq_nil_iff]

theorem losslessOutcomes (r : Report) :
    (r.outcomes.map (·.1)).Pairwise (fun a b => Utf8.encode a.folder < Utf8.encode b.folder ∨
      a.folder = b.folder ∧ Utf8.encode a.file < Utf8.encode b.file) ∧
    (∀ key : Owner, key ∈ r.outcomes.map (·.1) ↔
      ∃ v ∈ r.verdicts, v.folder = key.folder ∧ v.file = key.file) ∧
    r.outcomes = (r.outcomes.map (·.1)).map (fun key =>
      (key, ⟨(r.verdicts.filter fun v => v.owner = key ∧ v.passed = true).length,
        (r.verdicts.filter fun v => v.owner = key ∧ v.passed = false).map (·.check)⟩)) ∧
    (r.outcomes.map fun e => e.2.passed + e.2.failed.length).sum = r.verdicts.length ∧
    (r.outcomes.map fun e => e.2.failed.length).sum = r.failures.length ∧
    r.cleanFiles + r.failingFiles = (r.verdicts.map Verdict.owner).dedup.length ∧
    [r.passed = true, r.failures = [], r.failingFiles = 0,
      ∀ e ∈ r.outcomes, e.2.clean = true].TFAE := by
  refine ⟨?_, ?_, ?_, verdictsTallied r, failuresTallied r, ?_, ?_⟩
  · rw [outcomeKeys]
    exact (keysSorted r).imp Owner.beforeIff.mp
  · intro key
    rw [outcomeKeys, keysMember, List.mem_map]
    refine exists_congr fun v => and_congr_right fun _ => ?_
    cases key
    simp [Verdict.owner]
  · rw [outcomeKeys]
    exact outcomeRows r
  · rw [ownersCounted]
    exact keysCounted (keysMember r)
  · tfae_have 1 ↔ 2 := passedIff
    tfae_have 3 ↔ 1 := noneFailing r
    tfae_have 3 ↔ 4 := outcomesClean r
    tfae_finish

end Report

end ShellStyle
