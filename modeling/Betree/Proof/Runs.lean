import Betree.Spec.Allocator

/-!
# Runs of blocks

A free run `(offset, size)` holds the blocks `[offset, offset + size)` (`Covers`); a list of
runs holds their union (`Free`). This is the vocabulary the allocator's invariants are stated
in.

`initialize_free_segments` builds the zero runs of the bitmap in order:

* `scanFreeSegments_ordered`: each run ends strictly before the next one starts;
* `mem_scanFreeSegments`: every run is non-empty and inside the scanned range;
* `free_scanFreeSegments`: a scanned block is in a run iff its bit is clear;
* `scanFreeSegments_maximal`: a run ends at a set bit or at the end of the scanned range.
-/

namespace Betree.WorstFitList

/-- Block `b` lies in the run `seg`. -/
def Covers (seg : ℕ × ℕ) (b : ℕ) : Prop := seg.1 ≤ b ∧ b < seg.1 + seg.2

/-- Block `b` lies in some run of `segs`. -/
def Free (segs : List (ℕ × ℕ)) (b : ℕ) : Prop := ∃ seg ∈ segs, Covers seg b

/-- The runs `seg` and `seg'` share no block. -/
def Apart (seg seg' : ℕ × ℕ) : Prop := ∀ b, Covers seg b → ¬ Covers seg' b

/-- `seg` ends strictly before `seg'` starts: they neither overlap nor touch. -/
def Before (seg seg' : ℕ × ℕ) : Prop := seg.1 + seg.2 < seg'.1

@[simp] theorem covers_iff {seg : ℕ × ℕ} {b : ℕ} : Covers seg b ↔ seg.1 ≤ b ∧ b < seg.1 + seg.2 :=
  Iff.rfl

@[simp] theorem free_nil {b : ℕ} : ¬ Free [] b := by simp [Free]

@[simp] theorem free_cons {seg : ℕ × ℕ} {segs : List (ℕ × ℕ)} {b : ℕ} :
    Free (seg :: segs) b ↔ Covers seg b ∨ Free segs b := by
  simp [Free]

@[simp] theorem free_append {l l' : List (ℕ × ℕ)} {b : ℕ} :
    Free (l ++ l') b ↔ Free l b ∨ Free l' b := by
  simp only [Free, List.mem_append]
  constructor
  · rintro ⟨seg, hm | hm, hc⟩
    exacts [.inl ⟨seg, hm, hc⟩, .inr ⟨seg, hm, hc⟩]
  · rintro (⟨seg, hm, hc⟩ | ⟨seg, hm, hc⟩)
    exacts [⟨seg, .inl hm, hc⟩, ⟨seg, .inr hm, hc⟩]

theorem Before.apart {seg seg' : ℕ × ℕ} (h : Before seg seg') : Apart seg seg' := by
  intro b; simp only [Before, covers_iff] at *; omega

/-- A run apart from every run of `segs` shares no block with their union. -/
theorem not_free_of_apart {seg : ℕ × ℕ} {segs : List (ℕ × ℕ)} (h : ∀ seg' ∈ segs, Apart seg seg')
    {b : ℕ} (hb : Covers seg b) : ¬ Free segs b :=
  fun ⟨seg', hm, hc⟩ => h seg' hm b hb hc

/-- **Replacing one run by pieces inside it** keeps a list pairwise apart, when the pieces
are pairwise apart. -/
theorem pairwise_replace {pre post pieces : List (ℕ × ℕ)} {seg : ℕ × ℕ}
    (h : (pre ++ seg :: post).Pairwise Apart) (hp : pieces.Pairwise Apart)
    (hsub : ∀ b, Free pieces b → Covers seg b) : (pre ++ pieces ++ post).Pairwise Apart := by
  simp only [List.pairwise_append, List.pairwise_cons, List.mem_cons] at h ⊢
  obtain ⟨hpre, ⟨hseg, hpost⟩, hcross⟩ := h
  refine ⟨⟨hpre, hp, fun a ha p hp' b hb hc => ?_⟩, hpost, fun a ha c hc => ?_⟩
  · exact hcross a ha seg (.inl rfl) b hb (hsub b ⟨p, hp', hc⟩)
  · rcases List.mem_append.1 ha with ha | ha
    · exact hcross a ha c (.inr hc)
    · intro b hb hc'
      exact hseg c hc b (hsub b ⟨a, ha, hb⟩) hc'

/-! ## What `initialize_free_segments` builds -/

section Scan

variable {data : ℕ → Bool}

theorem zeroRun_le (offset : ℕ) : ∀ fuel, zeroRun data offset fuel ≤ fuel := by
  intro fuel
  induction fuel generalizing offset with
  | zero => simp [zeroRun]
  | succ fuel ih =>
    have := ih (offset + 1)
    simp only [zeroRun]; split <;> omega

/-- The blocks a zero run counts are free. -/
theorem zeroRun_free : ∀ fuel offset b, offset ≤ b → b < offset + zeroRun data offset fuel →
    data b = false := by
  intro fuel
  induction fuel with
  | zero => intro offset b h1 h2; simp only [zeroRun] at h2; omega
  | succ fuel ih =>
    intro offset b h1 h2
    simp only [zeroRun] at h2
    split at h2
    · rcases Nat.eq_or_lt_of_le h1 with rfl | h1
      · assumption
      · exact ih (offset + 1) b h1 (by omega)
    · omega

/-- A zero run that stops before the end of the segment stops at a set bit. -/
theorem zeroRun_stop : ∀ fuel offset, zeroRun data offset fuel < fuel →
    data (offset + zeroRun data offset fuel) = true := by
  intro fuel
  induction fuel with
  | zero => simp [zeroRun]
  | succ fuel ih =>
    intro offset h
    by_cases hd : data offset = false
    · rw [zeroRun_succ_of_free fuel hd] at h ⊢
      have := ih (offset + 1) (by omega)
      rwa [show offset + (zeroRun data (offset + 1) fuel + 1) =
        offset + 1 + zeroRun data (offset + 1) fuel by omega]
    · have hd' : data offset = true := by simpa using hd
      simp [zeroRun, hd']

theorem scanFreeSegments_free {offset fuel : ℕ} (h : data offset = false) :
    scanFreeSegments data offset (fuel + 1) =
      (offset, zeroRun data offset (fuel + 1)) ::
        scanFreeSegments data (offset + zeroRun data offset (fuel + 1))
          (fuel + 1 - zeroRun data offset (fuel + 1)) := by
  rw [scanFreeSegments, dif_pos h]

theorem scanFreeSegments_set {offset fuel : ℕ} (h : data offset = true) :
    scanFreeSegments data offset (fuel + 1) = scanFreeSegments data (offset + 1) fuel := by
  rw [scanFreeSegments, dif_neg (by simp [h])]

/-- Every scanned run is non-empty, inside the scanned range, and starts at a clear bit. -/
theorem mem_scanFreeSegments : ∀ offset fuel, ∀ seg ∈ scanFreeSegments data offset fuel,
    offset ≤ seg.1 ∧ seg.1 + seg.2 ≤ offset + fuel ∧ 0 < seg.2 ∧ data seg.1 = false := by
  intro offset fuel
  induction offset, fuel using scanFreeSegments.induct data with
  | case1 => simp [scanFreeSegments]
  | case2 offset fuel hd ih =>
    have hz := @zeroRun_le data offset (fuel + 1)
    have hp : 0 < zeroRun data offset (fuel + 1) := by rw [zeroRun_succ_of_free fuel hd]; omega
    rw [scanFreeSegments_free hd]
    intro seg hm
    rcases List.mem_cons.1 hm with rfl | hm
    · exact ⟨le_rfl, by omega, hp, hd⟩
    · obtain ⟨h1, h2, h3, h4⟩ := ih seg hm
      exact ⟨by omega, by omega, h3, h4⟩
  | case3 offset fuel hd ih =>
    rw [scanFreeSegments_set (by simpa using hd)]
    intro seg hm
    obtain ⟨h1, h2, h3, h4⟩ := ih seg hm
    exact ⟨by omega, by omega, h3, h4⟩

/-- **The scanned runs are in order**, each ending strictly before the next starts. -/
theorem scanFreeSegments_ordered : ∀ offset fuel,
    (scanFreeSegments data offset fuel).Pairwise Before := by
  intro offset fuel
  induction offset, fuel using scanFreeSegments.induct data with
  | case1 => simp [scanFreeSegments]
  | case2 offset fuel hd ih =>
    rw [scanFreeSegments_free hd]
    refine List.Pairwise.cons (fun seg hm => ?_) ih
    obtain ⟨h1, h2, h3, h4⟩ := mem_scanFreeSegments _ _ seg hm
    have hz := @zeroRun_le data offset (fuel + 1)
    simp only [Before]
    rcases Nat.eq_or_lt_of_le h1 with h | h
    · have := @zeroRun_stop data (fuel + 1) offset (by omega)
      rw [h, h4] at this; contradiction
    · exact h
  | case3 offset fuel hd ih => rwa [scanFreeSegments_set (by simpa using hd)]

/-- **A scanned block is in a run iff its bit is clear.** -/
theorem free_scanFreeSegments : ∀ offset fuel b, offset ≤ b → b < offset + fuel →
    (Free (scanFreeSegments data offset fuel) b ↔ data b = false) := by
  intro offset fuel
  induction offset, fuel using scanFreeSegments.induct data with
  | case1 => intro b h1 h2; omega
  | case2 offset fuel hd ih =>
    intro b h1 h2
    have hz := @zeroRun_le data offset (fuel + 1)
    rw [scanFreeSegments_free hd, free_cons, covers_iff]
    by_cases hb : b < offset + zeroRun data offset (fuel + 1)
    · simp only [h1, hb, and_self, true_or, true_iff]
      exact zeroRun_free _ _ _ h1 hb
    · rw [← ih b (by omega) (by omega)]; simp [hb]
  | case3 offset fuel hd ih =>
    intro b h1 h2
    have hd' : data offset = true := by simpa using hd
    rw [scanFreeSegments_set hd']
    rcases Nat.eq_or_lt_of_le h1 with rfl | h1
    · simp only [hd', Bool.true_eq_false, iff_false]
      rintro ⟨seg, hm, hc⟩
      have := mem_scanFreeSegments _ _ seg hm; simp only [covers_iff] at hc; omega
    · exact ih b h1 (by omega)

/-- **Every scanned run is maximal**: it stops at a set bit or at the end of the range. -/
theorem scanFreeSegments_maximal : ∀ offset fuel, ∀ seg ∈ scanFreeSegments data offset fuel,
    seg.1 + seg.2 < offset + fuel → data (seg.1 + seg.2) = true := by
  intro offset fuel
  induction offset, fuel using scanFreeSegments.induct data with
  | case1 => simp [scanFreeSegments]
  | case2 offset fuel hd ih =>
    rw [scanFreeSegments_free hd]
    intro seg hm hlt
    rcases List.mem_cons.1 hm with rfl | hm
    · dsimp only at hlt ⊢
      exact zeroRun_stop _ _ (by omega)
    · have := @zeroRun_le data offset (fuel + 1)
      exact ih seg hm (by omega)
  | case3 offset fuel hd ih =>
    rw [scanFreeSegments_set (by simpa using hd)]
    exact fun seg hm hlt => ih seg hm (by omega)

end Scan

end Betree.WorstFitList
