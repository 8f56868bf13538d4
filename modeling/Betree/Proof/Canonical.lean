import Betree.Proof.Safety

/-!
# The canonical form of `free_segments`

`Canonical s`: the runs are sorted strictly by offset, none is empty, and none ends where
another starts, as in the list `initialize_free_segments` builds. Ordered non-empty runs are
determined by the blocks they hold (`eq_of_free_iff`), which gives the runs `new` builds from
a bitmap.

The calls do not keep it. `allocate` trims the run it hands out from and leaves it in the
list when it is used up, where `allocate_at` removes it (`allocate_whole_leaves_empty_run`).
A later `deallocate` that frees a range around such an empty run inserts the range before it,
without merging it with the run that starts where the range ends; the free space is then
split over two touching runs, and `allocate` and `allocate_at` refuse a request that fits in
their union (`allocate_refused_while_free`).
-/

namespace Betree.WorstFitList

variable {g : Geometry}

/-- The canonical form of `free_segments`. -/
structure Canonical (s : WorstFitList) : Prop where
  sorted : s.freeSegments.Pairwise fun a c => a.1 < c.1
  pos : ∀ seg ∈ s.freeSegments, 0 < seg.2
  apart : ∀ a ∈ s.freeSegments, ∀ c ∈ s.freeSegments, a.1 + a.2 ≠ c.1

/-- The blocks of the runs after the first one are past its end. -/
theorem lt_of_free_tail {a : ℕ × ℕ} {r : List (ℕ × ℕ)} (h : (a :: r).Pairwise Before) {b : ℕ}
    (hb : Free r b) : a.1 + a.2 < b := by
  obtain ⟨c, hc, h1, -⟩ := hb
  have := List.rel_of_pairwise_cons h hc
  simp only [Before] at this; omega

/-- **Ordered non-empty runs are determined by the blocks they hold.** -/
theorem eq_of_free_iff : ∀ {l l' : List (ℕ × ℕ)}, l.Pairwise Before → l'.Pairwise Before →
    (∀ seg ∈ l, 0 < seg.2) → (∀ seg ∈ l', 0 < seg.2) → (∀ b, Free l b ↔ Free l' b) → l = l'
  | [], [], _, _, _, _, _ => rfl
  | [], c :: _, _, _, _, hp', hf => by
    have := (hf c.1).2 (free_cons.2 (.inl ⟨le_rfl, by have := hp' c (.head _); omega⟩)); simp at this
  | a :: _, [], _, _, hp, _, hf => by
    have := (hf a.1).1 (free_cons.2 (.inl ⟨le_rfl, by have := hp a (.head _); omega⟩)); simp at this
  | a :: r, c :: r', h, h', hp, hp', hf => by
    have ha := hp a (.head _)
    have hc := hp' c (.head _)
    -- the two first runs start at the first free block and end at the first block after it
    have hstart : a.1 = c.1 := by
      have h1 := (hf a.1).1 (free_cons.2 (.inl ⟨le_rfl, by omega⟩))
      have h2 := (hf c.1).2 (free_cons.2 (.inl ⟨le_rfl, by omega⟩))
      rw [free_cons] at h1 h2
      rcases h1 with h1 | h1 <;> rcases h2 with h2 | h2
      · simp only [covers_iff] at h1 h2; omega
      · have := lt_of_free_tail h h2; simp only [covers_iff] at h1; omega
      · have := lt_of_free_tail h' h1; simp only [covers_iff] at h2; omega
      · have := lt_of_free_tail h h2; have := lt_of_free_tail h' h1; omega
    have hlen : a.2 = c.2 := by
      by_contra hne
      rcases Nat.lt_or_gt_of_ne hne with hlt | hlt
      · have := (hf (a.1 + a.2)).2 (free_cons.2 (.inl ⟨by omega, by omega⟩))
        rcases (free_cons.1 this) with h1 | h1
        · simp at h1
        · have := lt_of_free_tail h h1; omega
      · have := (hf (c.1 + c.2)).1 (free_cons.2 (.inl ⟨by omega, by omega⟩))
        rcases (free_cons.1 this) with h1 | h1
        · simp at h1
        · have := lt_of_free_tail h' h1; omega
    have hac : a = c := Prod.ext hstart hlen
    subst hac
    refine congrArg _ (eq_of_free_iff h.of_cons h'.of_cons (fun s hs => hp s (.tail _ hs))
      (fun s hs => hp' s (.tail _ hs)) fun b => ?_)
    by_cases hb : Covers a b
    · simp only [covers_iff] at hb
      exact ⟨fun h1 => absurd (lt_of_free_tail h h1) (by omega),
        fun h1 => absurd (lt_of_free_tail h' h1) (by omega)⟩
    · have := hf b; simp only [free_cons, hb, false_or] at this; exact this

/-! ## The calls leave the canonical form -/

/-- **`allocate` keeps a used-up run.** From the all-free bitmap, `allocate(SEGMENT_SIZE)`
hands out the whole segment and leaves the empty run `(SEGMENT_SIZE, 0)` in the list. -/
theorem allocate_whole_leaves_empty_run :
    allocate Geometry.spec (new Geometry.spec (List.replicate 8192 0)) 65536 =
        some (some 0, ⟨fill (fun _ => false) 0 65536 true, [(65536, 0)]⟩) ∧
      Reachable Geometry.spec ⟨fill (fun _ => false) 0 65536 true, [(65536, 0)]⟩ ∧
      ¬ Canonical ⟨fill (fun _ => false) 0 65536 true, [(65536, 0)]⟩ := by
  have ha : allocate Geometry.spec (new Geometry.spec (List.replicate 8192 0)) 65536 =
      some (some 0, ⟨fill (fun _ => false) 0 65536 true, [(65536, 0)]⟩) := by
    rw [new_all_free_spec, allocate, if_neg (by decide),
      show worstFit 65536 0 (none, 0) [(0, 65536)] = (some 0, 65536) by decide]
    simp [mark_of_le (show 0 + 65536 ≤ Geometry.spec.segmentSize by decide), Action.asBool]
  refine ⟨ha, .step (.allocate 65536) (.new (List.replicate 8192 0)) trivial
    (by rw [step, ha]; rfl), fun hc => ?_⟩
  have := hc.pos (65536, 0) (.head _); simp at this

/-- The bitmap of the second example: blocks `[0, 4)` and `[8, 12)` free, all others
allocated. -/
theorem bitsOf_twoRuns_spec (b : ℕ) (hb : b < 65536) :
    bitsOf ([0xF0, 0xF0] ++ List.replicate 8190 0xFF) b = false ↔ b < 4 ∨ 8 ≤ b ∧ b < 12 := by
  by_cases h16 : b < 16
  · have : ∀ b < 16, (bitsOf ([0xF0, 0xF0] ++ List.replicate 8190 0xFF) b = false ↔
        b < 4 ∨ 8 ≤ b ∧ b < 12) := by decide
    exact this b h16
  · have hbyte : ([0xF0, 0xF0] ++ List.replicate 8190 (0xFF : UInt8)).getD (b / 8) 0 = 0xFF := by
      rw [List.getD_append_right _ _ _ _ (by simp; omega), List.getD_eq_getElem?_getD,
        List.getElem?_replicate, if_pos (by simp; omega)]
      rfl
    have h255 : ∀ i < 8, Nat.testBit 255 i = true := by decide
    unfold bitsOf
    rw [hbyte, show (0xFF : UInt8).toNat = 255 from rfl, h255 _ (Nat.mod_lt _ (by omega))]
    constructor
    · intro h; cases h
    · intro h; omega


theorem new_twoRuns_spec :
    new Geometry.spec ([0xF0, 0xF0] ++ List.replicate 8190 0xFF) =
      ⟨bitsOf ([0xF0, 0xF0] ++ List.replicate 8190 0xFF), [(0, 4), (8, 4)]⟩ := by
  rw [new, initializeFreeSegments_eq]
  congr 1
  refine eq_of_free_iff (scanFreeSegments_ordered _ _) (by simp [Before])
    (fun seg hm => (mem_scanFreeSegments _ _ seg hm).2.2.1) (by simp) fun b => ?_
  rw [geometry_spec_segmentSize]
  simp only [free_cons, covers_iff, free_nil, or_false]
  by_cases hb : b < 65536
  · rw [free_scanFreeSegments 0 _ b (Nat.zero_le b) (by omega), bitsOf_twoRuns_spec b hb]
    omega
  · constructor
    · rintro ⟨seg, hm, h1, h2⟩; have := mem_scanFreeSegments _ _ seg hm; omega
    · omega

/-- **The free space splits over touching runs.** From the bitmap with `[0, 4)` and
`[8, 12)` free, `allocate(4)` uses up the run at 0, and `deallocate(2, 6)` frees `[2, 8)` in
front of the empty run it left. `[2, 12)` is then free but held by the touching runs `(2, 6)`
and `(8, 4)`, and `allocate(10)` and `allocate_at(10, 2)` both refuse. -/
theorem allocate_refused_while_free :
    ∃ s, Reachable Geometry.spec s ∧ s.freeSegments = [(2, 6), (4, 0), (8, 4)] ∧
      (∀ b, 2 ≤ b → b < 12 → s.data b = false) ∧
      allocate Geometry.spec s 10 = some (none, s) ∧
      allocateAt Geometry.spec s 10 2 = some (false, s) := by
  set bitmap : List UInt8 := [0xF0, 0xF0] ++ List.replicate 8190 0xFF
  have hfree : ∀ b, b < 65536 → (bitsOf bitmap b = false ↔ b < 4 ∨ 8 ≤ b ∧ b < 12) :=
    bitsOf_twoRuns_spec
  set data := bitsOf bitmap
  have h1 : allocate Geometry.spec (new Geometry.spec bitmap) 4 =
      some (some 0, ⟨fill data 0 4 true, [(4, 0), (8, 4)]⟩) := by
    have key : ∀ d, allocate Geometry.spec ⟨d, [(0, 4), (8, 4)]⟩ 4 =
        some (some 0, ⟨fill d 0 4 true, [(4, 0), (8, 4)]⟩) := by
      intro d
      rw [allocate, if_neg (by decide),
        show worstFit 4 0 (none, 0) [(0, 4), (8, 4)] = (some 0, 4) by decide]
      simp [mark_of_le (show 0 + 4 ≤ Geometry.spec.segmentSize by decide), Action.asBool]
    rw [new_twoRuns_spec]; exact key _
  have h2 : deallocate Geometry.spec ⟨fill data 0 4 true, [(4, 0), (8, 4)]⟩ 2 6 =
      some ⟨fill (fill data 0 4 true) 2 6 false, [(2, 6), (4, 0), (8, 4)]⟩ := by
    rw [deallocate_of_le (by decide)]; rfl
  have hset : ∀ b, 2 ≤ b → b < 2 + 6 → fill data 0 4 true b = true := by
    intro b hb1 hb2
    by_cases h4 : b < 4
    · simp [h4]
    · simp only [fill_apply, show ¬ (0 ≤ b ∧ b < 0 + 4) by omega, if_false]
      by_contra hd; have := (hfree b (by omega)).1 (by simpa using hd); omega
  have hz : ∀ b, 2 ≤ b → b < 12 → fill (fill data 0 4 true) 2 6 false b = false := by
    intro b hb1 hb2
    by_cases h8 : b < 8
    · simp [hb1, h8]
    · simp only [fill_apply, show ¬ (2 ≤ b ∧ b < 2 + 6) by omega,
        show ¬ (0 ≤ b ∧ b < 0 + 4) by omega, if_false]
      exact (hfree b (by omega)).2 (by omega)
  have hr1 : Reachable Geometry.spec ⟨fill data 0 4 true, [(4, 0), (8, 4)]⟩ :=
    .step (.allocate 4) (.new bitmap) trivial (by rw [step, h1]; rfl)
  refine ⟨_, .step (.deallocate 2 6) hr1 ⟨by decide, hset⟩ (by rw [step, h2]), rfl, hz, ?_, ?_⟩
  · rw [allocate, if_neg (by decide),
      show worstFit 10 0 (none, 0) [(2, 6), (4, 0), (8, 4)] = (none, 0) by decide]
  · rw [allocateAt, if_neg (by decide), if_neg (by decide), if_neg (by decide),
      show anyIn (fill (fill data 0 4 true) 2 6 false) 2 (u32Add 2 10) = false from
        anyIn_eq_false.2 fun b h1 h2 => hz b h1 (by simpa [u32Add] using h2),
      show allocateAtLoop 10 2 [(2, 6), (4, 0), (8, 4)] = none by decide]
    rfl

end Betree.WorstFitList
