import Betree.Proof.Safety
import Mathlib

/-!
# What the allocator hands out, and how much stays free

On every state the allocator reaches:

* `allocate_worst_fit`: **`allocate` is worst fit.** It never panics, refuses exactly when
  no run holds `size` blocks, and otherwise hands out the front of the first of the longest
  runs;
* `allocateAt_iff_covered`: `allocate_at` of an in-segment range never panics; it takes the
  range exactly when one run holds all of it, carving it out of that run, and otherwise
  changes nothing. A range that is free but spread over touching runs is refused;
* `reachable_free_count`: **the runs' lengths add up to the number of free blocks** of the
  segment.
-/

namespace Betree.WorstFitList

variable {g : Geometry}

/-! ## Worst fit -/

/-- **The selection loop finds the first of the longest runs** of at least `size` blocks that
beat the best so far: its result is at least the best so far and at least every such run;
and it is the best so far, or the index of a run that beats it and every run before it. -/
theorem worstFit_spec (size : ℕ) : ∀ (segs : List (ℕ × ℕ)) (i : ℕ) (o : Option ℕ) (m : ℕ),
    m ≤ (worstFit size i (o, m) segs).2 ∧
    (∀ (k : ℕ) (seg : ℕ × ℕ), segs[k]? = some seg → size ≤ seg.2 → seg.2 ≤ (worstFit size i (o, m) segs).2) ∧
    (worstFit size i (o, m) segs = (o, m) ∨
      ∃ (k : ℕ) (seg : ℕ × ℕ), (worstFit size i (o, m) segs).1 = some (i + k) ∧ segs[k]? = some seg ∧
        size ≤ seg.2 ∧ seg.2 = (worstFit size i (o, m) segs).2 ∧ m < seg.2 ∧
        ∀ k' < k, ∀ seg' : ℕ × ℕ, segs[k']? = some seg' → seg'.2 < seg.2)
  | [], i, o, m => ⟨le_rfl, fun _ _ h => by simp at h, .inl rfl⟩
  | (a, len) :: rest, i, o, m => by
    simp only [worstFit]
    set best : Option ℕ × ℕ := if len ≥ size ∧ len > m then (some i, len) else (o, m) with hbest
    obtain ⟨o', m'⟩ := best
    obtain ⟨hm, hmax, hr⟩ := worstFit_spec size rest (i + 1) o' m'
    have hmm : m ≤ m' ∧ (size ≤ len → len ≤ m') := by
      split_ifs at hbest with hc <;> simp only [Prod.mk.injEq] at hbest <;> omega
    refine ⟨hmm.1.trans hm, fun k seg hk hle => ?_, ?_⟩
    · rcases k with _ | k
      · simp only [List.getElem?_cons_zero, Option.some.injEq] at hk; subst hk
        exact (hmm.2 hle).trans hm
      · exact hmax k seg (by simpa using hk) hle
    rcases hr with hr | ⟨k, seg, h1, h2, h3, h4, h5, h6⟩
    · rw [hr]
      split_ifs at hbest with hc
      · simp only [Prod.mk.injEq] at hbest; obtain ⟨rfl, hm'⟩ := hbest; subst m'
        exact .inr ⟨0, (a, len), by simp, by simp, hc.1, rfl, hc.2, fun _ h => absurd h (by omega)⟩
      · simp only [Prod.mk.injEq] at hbest; obtain ⟨rfl, rfl⟩ := hbest
        exact .inl rfl
    · refine .inr ⟨k + 1, seg, by rw [h1]; congr 1; omega, by simpa using h2, h3, h4,
        by omega, fun k' hk' seg' hs' => ?_⟩
      rcases k' with _ | k'
      · simp only [List.getElem?_cons_zero, Option.some.injEq] at hs'; subst hs'
        split_ifs at hbest with hc <;> simp only [Prod.mk.injEq] at hbest <;> omega
      · exact h6 k' (by omega) seg' (by simpa using hs')

/-- **`allocate` is worst fit.** On every reachable state and for `size > 0`, `allocate`
returns: it refuses and changes nothing exactly when every run is shorter than `size`;
otherwise it takes the front of the run at the first index whose length is the longest, marks
its blocks and trims the run. -/
theorem allocate_worst_fit {s : WorstFitList} (hr : Reachable g s) {size : ℕ} (hn : 0 < size) :
    (allocate g s size = some (none, s) ∧ ∀ seg ∈ s.freeSegments, seg.2 < size) ∨
    ∃ k seg, s.freeSegments[k]? = some seg ∧ size ≤ seg.2 ∧
      (∀ seg' ∈ s.freeSegments, size ≤ seg'.2 → seg'.2 ≤ seg.2) ∧
      (∀ k' < k, ∀ seg', s.freeSegments[k']? = some seg' → seg'.2 < seg.2) ∧
      allocate g s size = some (some seg.1,
        ⟨fill s.data seg.1 size true, s.freeSegments.set k (seg.1 + size, seg.2 - size)⟩) := by
  obtain ⟨-, hmax, hr⟩ := worstFit_spec size s.freeSegments 0 none 0
  rcases hr with hr | ⟨k, seg, h1, h2, h3, h4, -, h6⟩
  · refine .inl ⟨by simp [allocate, hn.ne', hr], fun seg hm => ?_⟩
    obtain ⟨k, hk⟩ := List.getElem?_of_mem hm
    by_contra hle
    have := hmax k seg hk (by omega)
    rw [hr] at this; simp only at this; omega
  · refine .inr ⟨k, seg, h2, h3, fun seg' hm hle => ?_, h6, ?_⟩
    · obtain ⟨k', hk'⟩ := List.getElem?_of_mem hm
      exact h4 ▸ hmax k' seg' hk' hle
    · have hin : seg.1 + size ≤ g.segmentSize :=
        (Nat.add_le_add_left h3 _).trans (hr.safe.inSegment seg (List.getElem?_mem h2))
      rw [zero_add] at h1
      simp only [allocate, hn.ne', if_false, h1, h2, mark_of_le hin, Option.map_some']
      rfl

/-- Worst fit on the segment the spec's examples reach by `allocate(4)` and
`deallocate(0, 2)`: a request of 4 blocks goes to the long run at index 1. -/
theorem allocate_worst_fit_freedFrontSpec :
    (allocate Geometry.spec freedFrontSpec 4 = some (none, freedFrontSpec) ∧
        ∀ seg ∈ freedFrontSpec.freeSegments, seg.2 < 4) ∨
    ∃ k seg, freedFrontSpec.freeSegments[k]? = some seg ∧ 4 ≤ seg.2 ∧
      (∀ seg' ∈ freedFrontSpec.freeSegments, 4 ≤ seg'.2 → seg'.2 ≤ seg.2) ∧
      (∀ k' < k, ∀ seg', freedFrontSpec.freeSegments[k']? = some seg' → seg'.2 < seg.2) ∧
      allocate Geometry.spec freedFrontSpec 4 = some (some seg.1,
        ⟨fill freedFrontSpec.data seg.1 4 true, freedFrontSpec.freeSegments.set k (seg.1 + 4, seg.2 - 4)⟩) :=
  allocate_worst_fit reachable_freedFrontSpec (by decide)

/-! ## `allocate_at` -/

/-- **`allocate_at` takes exactly the ranges one run holds.** On every reachable state, an
in-segment request of `size > 0` blocks never panics. It either marks the range and carves it
out of the run `seg` holding it, putting in `seg`'s place the `pieces` of `seg` left around
the range (`Carve`), or returns `false` and changes nothing; and it succeeds exactly when one
run holds the whole range. -/
theorem allocateAt_iff_covered {s : WorstFitList} (hr : Reachable g s) {size offset : ℕ}
    (hn : 0 < size) (hin : offset + size ≤ g.segmentSize) :
    ((∃ pre seg post pieces, s.freeSegments = pre ++ seg :: post ∧ Carve size offset seg pieces ∧
        allocateAt g s size offset = some (true, ⟨fill s.data offset size true, pre ++ pieces ++ post⟩)) ∨
      allocateAt g s size offset = some (false, s)) ∧
    ((∃ s', allocateAt g s size offset = some (true, s')) ↔
      ∃ seg ∈ s.freeSegments, seg.1 ≤ offset ∧ offset + size ≤ seg.1 + seg.2) := by
  by_cases hcov : ∃ seg ∈ s.freeSegments, seg.1 ≤ offset ∧ offset + size ≤ seg.1 + seg.2
  · have hfree : ∀ b, offset ≤ b → b < offset + size → s.data b = false := fun b hb1 hb2 =>
      have ⟨seg, hm, h1, h2⟩ := hcov
      (hr.safe.free_iff b (by omega)).2 ⟨seg, hm, by omega, by omega⟩
    obtain ⟨segs, h⟩ := allocateAt_of_free hn hin hfree hcov
    -- the list it leaves is the loop's, which carves the run holding the range
    rcases allocateAt_cases h with ⟨-, h0⟩ | ⟨-, -, segs', hl, hs'⟩
    · exact absurd (h0 rfl) hn.ne'
    obtain ⟨pre, seg, post, pieces, hsegs, rfl, hc⟩ := allocateAtLoop_carve hn hl
    cases hs'
    exact ⟨.inl ⟨pre, seg, post, pieces, hsegs, hc, h⟩, iff_of_true ⟨_, h⟩ hcov⟩
  -- no run holds the range, so the loop finds none and the call refuses
  have hloop : allocateAtLoop size offset s.freeSegments = none := by
    rcases h : allocateAtLoop size offset s.freeSegments with _ | segs
    · rfl
    obtain ⟨pre, seg, post, pieces, hsegs, -, hc⟩ := allocateAtLoop_carve hn h
    exact absurd ⟨seg, by simp [hsegs], hc.start_le, hc.end_le⟩ hcov
  have h1 : ¬ g.segmentSize < offset + size := by omega
  have h2 : ¬ offset + size < offset := by omega
  have hfalse : allocateAt g s size offset = some (false, s) := by
    simp only [allocateAt, u32Add_of_le hin, hn.ne', gt_iff_lt, h1, h2, hloop, if_false]
    split_ifs <;> rfl
  exact ⟨.inr hfalse, iff_of_false (fun ⟨_, h⟩ => by rw [hfalse] at h; cases h) hcov⟩

/-- `allocate_at(1, 1)` on the segment the spec's examples reach by `allocate(4)` and
`deallocate(0, 2)`: the run `(0, 2)` holds block 1. -/
theorem allocateAt_iff_covered_freedFrontSpec :
    ((∃ pre seg post pieces, freedFrontSpec.freeSegments = pre ++ seg :: post ∧
        Carve 1 1 seg pieces ∧ allocateAt Geometry.spec freedFrontSpec 1 1 =
          some (true, ⟨fill freedFrontSpec.data 1 1 true, pre ++ pieces ++ post⟩)) ∨
      allocateAt Geometry.spec freedFrontSpec 1 1 = some (false, freedFrontSpec)) ∧
    ((∃ s', allocateAt Geometry.spec freedFrontSpec 1 1 = some (true, s')) ↔
      ∃ seg ∈ freedFrontSpec.freeSegments, seg.1 ≤ 1 ∧ 1 + 1 ≤ seg.1 + seg.2) :=
  allocateAt_iff_covered reachable_freedFrontSpec (by decide) (by decide)

/-! ## The free-block count -/

/-- The blocks the runs `segs` hold. -/
def runBlocks : List (ℕ × ℕ) → Finset ℕ
  | [] => ∅
  | seg :: segs => Finset.Ico seg.1 (seg.1 + seg.2) ∪ runBlocks segs

theorem mem_runBlocks {b : ℕ} : ∀ {segs : List (ℕ × ℕ)}, b ∈ runBlocks segs ↔ Free segs b
  | [] => by simp [runBlocks]
  | seg :: segs => by simp [runBlocks, mem_runBlocks]

/-- Runs that pairwise share no block hold as many blocks as their lengths add up to. -/
theorem card_runBlocks : ∀ {segs : List (ℕ × ℕ)}, segs.Pairwise Apart →
    (runBlocks segs).card = (segs.map Prod.snd).sum
  | [], _ => rfl
  | seg :: segs, h => by
    rw [List.pairwise_cons] at h
    have hdis : Disjoint (Finset.Ico seg.1 (seg.1 + seg.2)) (runBlocks segs) :=
      Finset.disjoint_left.2 fun b hb hb' =>
        not_free_of_apart h.1 (by simpa using hb) (mem_runBlocks.1 hb')
    rw [runBlocks, Finset.card_union_of_disjoint hdis, card_runBlocks h.2, Nat.card_Ico,
      Nat.add_sub_cancel_left, List.map_cons, List.sum_cons]

/-- **The runs' lengths add up to the number of free blocks** of the segment, on every state
the allocator reaches, whichever runs are empty or touch. -/
theorem reachable_free_count {s : WorstFitList} (hr : Reachable g s) :
    (s.freeSegments.map Prod.snd).sum =
      ((Finset.range g.segmentSize).filter fun b => s.data b = false).card := by
  have hs := hr.safe
  rw [← card_runBlocks hs.disjoint]
  congr 1
  ext b
  rw [mem_runBlocks, Finset.mem_filter, Finset.mem_range]
  by_cases hb : b < g.segmentSize
  · rw [hs.free_iff b hb]; simp [hb]
  · exact iff_of_false (fun ⟨seg, hm, h1, h2⟩ => by have := hs.inSegment seg hm; omega)
      fun h => hb h.1

/-- The free-block count on the segment the spec's examples reach by `allocate(4)` and
`deallocate(0, 2)`. -/
theorem reachable_free_count_freedFrontSpec :
    (freedFrontSpec.freeSegments.map Prod.snd).sum =
      ((Finset.range Geometry.spec.segmentSize).filter
        fun b => freedFrontSpec.data b = false).card :=
  reachable_free_count reachable_freedFrontSpec

end Betree.WorstFitList
