import Betree.Proof.Safety

/-!
# Ranges given back and taken again

* `deallocate_allocateAt_round_trip`: **freeing an allocated in-segment range and taking it
  back at once is a round trip** on every reachable state: `allocate_at` succeeds, the bitmap
  is as before and the runs hold the same blocks, whichever of `deallocate`'s merges ran;
* `allocate_deallocate_round_trip`: **freeing the range an allocation just handed out is a
  round trip** on every reachable state: the bitmap is as before and the runs hold the same
  blocks;
* `allocateAt_past_segment`, `deallocate_past_segment`: a range past the end of the segment is
  refused, and leaves the state as it was, unless `offset + size` wraps in `u32` back into
  the segment; then both calls panic;
* `range_guard_wraps`: so `offset = u32::MAX`, `size = 1` panics on every state.
-/

namespace Betree.WorstFitList

variable {g : Geometry}

/-! ## The round trip -/

/-- A safe state has no run past the end of the segment. -/
theorem Safe.not_free_of_le {s : WorstFitList} (hs : Safe g s) {b : ℕ} (hb : g.segmentSize ≤ b) :
    ¬ Free s.freeSegments b := fun ⟨seg, hm, h1, h2⟩ => by
  have := hs.inSegment seg hm; omega

/-- Two safe states with the same bitmap have runs holding the same blocks. -/
theorem Safe.free_iff_of_data {s s' : WorstFitList} (hs : Safe g s) (hs' : Safe g s')
    (hd : s'.data = s.data) (b : ℕ) : Free s'.freeSegments b ↔ Free s.freeSegments b := by
  by_cases hb : b < g.segmentSize
  · rw [← hs.free_iff b hb, ← hs'.free_iff b hb, hd]
  · exact iff_of_false (hs'.not_free_of_le (by omega)) (hs.not_free_of_le (by omega))

/-- After `deallocate`, one run holds the whole freed range. -/
theorem deallocateLoop_covers (offset size : ℕ) (segs : List (ℕ × ℕ)) (hn : 0 < size) :
    ∃ seg ∈ deallocateLoop offset size segs, seg.1 ≤ offset ∧ offset + size ≤ seg.1 + seg.2 := by
  obtain ⟨pre, _, post, merged, -, h, hm⟩ := deallocateLoop_merge offset size segs
  have h1 := (hm.covers_iff offset).2 (.inr ⟨le_rfl, by omega⟩)
  have h2 := (hm.covers_iff (offset + size - 1)).2 (.inr ⟨by omega, by omega⟩)
  rw [covers_iff] at h1 h2
  exact ⟨merged, by simp [h], h1.1, by omega⟩

/-- **Deallocate, then allocate back.** On every reachable state, freeing an in-segment range
whose blocks are all allocated and taking it back with `allocate_at` succeeds, restores the
bitmap bit for bit, and leaves runs holding exactly the blocks free before. -/
theorem deallocate_allocateAt_round_trip {s : WorstFitList} (hr : Reachable g s)
    {offset size : ℕ} (hn : 0 < size) (hin : offset + size ≤ g.segmentSize)
    (hset : ∀ b, offset ≤ b → b < offset + size → s.data b = true) :
    ∃ s₁ s₂, deallocate g s offset size = some s₁ ∧ allocateAt g s₁ size offset = some (true, s₂) ∧
      s₂.data = s.data ∧ ∀ b, Free s₂.freeSegments b ↔ Free s.freeSegments b := by
  have hs := hr.safe
  obtain ⟨segs, h⟩ := @allocateAt_of_free g
    ⟨fill s.data offset size false, deallocateLoop offset size s.freeSegments⟩ size offset hn hin
    (fun b h1 h2 => by simp [h1, h2]) (deallocateLoop_covers offset size _ hn)
  have hdata : fill (fill s.data offset size false) offset size true = s.data := by
    funext b
    simp only [fill_apply]
    split_ifs with hb
    · exact (hset b hb.1 hb.2).symm
    · rfl
  exact ⟨_, _, deallocate_of_le hin, h, hdata,
    hs.free_iff_of_data ((hs.deallocate hin hset).allocateAt h) hdata⟩

/-- The round trip on the all-allocated first byte of the spec's segment. -/
theorem deallocate_allocateAt_round_trip_spec :
    ∃ s₁ s₂, deallocate Geometry.spec (new Geometry.spec [0xFF]) 0 8 = some s₁ ∧
      allocateAt Geometry.spec s₁ 8 0 = some (true, s₂) ∧
      s₂.data = (new Geometry.spec [0xFF]).data ∧
      ∀ b, Free s₂.freeSegments b ↔ Free (new Geometry.spec [0xFF]).freeSegments b :=
  have hset : ∀ b : Fin 8, (new Geometry.spec [0xFF]).data b = true := by decide
  deallocate_allocateAt_round_trip (.new _) (by decide) (by decide) fun b _ h => hset ⟨b, h⟩

/-- **Allocate, then free again.** On every reachable state, freeing the range a successful
`allocate` or `allocate_at` of `size > 0` blocks handed out never panics, restores the bitmap
bit for bit, and leaves runs holding exactly the blocks free before. -/
theorem allocate_deallocate_round_trip {s s₁ : WorstFitList} (hr : Reachable g s)
    {size offset : ℕ} (hn : 0 < size)
    (h : allocate g s size = some (some offset, s₁) ∨ allocateAt g s size offset = some (true, s₁)) :
    ∃ s₂, deallocate g s₁ offset size = some s₂ ∧ s₂.data = s.data ∧
      ∀ b, Free s₂.freeSegments b ↔ Free s.freeSegments b := by
  have hs := hr.safe
  obtain ⟨hr₁, hh⟩ : Reachable g s₁ ∧ Handed g s s₁ offset size := by
    rcases h with h | h
    · exact ⟨.step (.allocate size) hr trivial (by simp [step, h]), hs.handed_of_allocate hn h⟩
    · exact ⟨.step (.allocateAt size offset) hr trivial (by simp [step, h]),
        hs.handed_of_allocateAt hn h⟩
  have hdata : fill s₁.data offset size false = s.data := by
    funext b
    simp only [fill_apply]
    split_ifs with hb
    · exact (hh.free_before b hb.1 hb.2).symm
    · exact hh.frame b hb
  exact ⟨_, deallocate_of_le hh.inSegment, hdata,
    hs.free_iff_of_data (hr₁.safe.deallocate hh.inSegment hh.set_after) hdata⟩

/-- Allocating the first byte of the spec's all-free segment and freeing it again. -/
theorem allocate_deallocate_round_trip_spec :
    ∃ s₁, allocate Geometry.spec (new Geometry.spec (List.replicate 8192 0)) 8 = some (some 0, s₁) ∧
      ∃ s₂, deallocate Geometry.spec s₁ 0 8 = some s₂ ∧
        s₂.data = (new Geometry.spec (List.replicate 8192 0)).data ∧
        ∀ b, Free s₂.freeSegments b ↔ Free (new Geometry.spec (List.replicate 8192 0)).freeSegments b := by
  have ha := @allocate_new_all_free_spec 8 (by decide) (by decide)
  exact ⟨_, ha, allocate_deallocate_round_trip (.new _) (by decide) (.inl ha)⟩

/-! ## Ranges past the end of the segment -/

/-- `offset + size` in `u32`, for a `u32` offset and size: the sum, less `2 ^ 32` when it
overflows. -/
theorem u32Add_eq {offset size : ℕ} (ho : offset < 2 ^ 32) (hs : size < 2 ^ 32) :
    u32Add offset size = if offset + size < 2 ^ 32 then offset + size else offset + size - 2 ^ 32 := by
  unfold u32Add; split_ifs <;> omega

/-- **`allocate_at` past the end of the segment** returns `false` and changes nothing, unless
`offset + size` wraps back into the segment: then the slice `data[offset..offset + size]`
starts past its end and the call panics. -/
theorem allocateAt_past_segment (s : WorstFitList) {offset size : ℕ} (ho : offset < 2 ^ 32)
    (hs : size < 2 ^ 32) (hn : 0 < size) (hr : g.segmentSize < offset + size) :
    allocateAt g s size offset =
      if 2 ^ 32 ≤ offset + size ∧ offset + size - 2 ^ 32 ≤ g.segmentSize then none
      else some (false, s) := by
  rw [allocateAt, u32Add_eq ho hs, if_neg hn.ne']
  split_ifs <;> first | rfl | omega

/-- **`deallocate` past the end of the segment** changes nothing, unless `offset + size`
wraps back into the segment: then `mark` panics. -/
theorem deallocate_past_segment (s : WorstFitList) {offset size : ℕ} (ho : offset < 2 ^ 32)
    (hs : size < 2 ^ 32) (hr : g.segmentSize < offset + size) :
    deallocate g s offset size =
      if 2 ^ 32 ≤ offset + size ∧ offset + size - 2 ^ 32 ≤ g.segmentSize then none
      else some s := by
  rw [deallocate, mark, u32Add_eq ho hs]
  split_ifs <;> first | rfl | omega

/-- **The guards wrap.** `offset = u32::MAX` and `size = 1` lie past the end of every segment,
yet `offset + size` wraps to `0` and passes both guards: `allocate_at` and `deallocate` panic
on every state. -/
theorem range_guard_wraps (g : Geometry) (s : WorstFitList) :
    allocateAt g s 1 (2 ^ 32 - 1) = none ∧ deallocate g s (2 ^ 32 - 1) 1 = none := by
  have := g.segmentSize_lt_u32
  rw [allocateAt_past_segment s (by omega) (by omega) Nat.one_pos (by omega),
    deallocate_past_segment s (by omega) (by omega) (by omega)]
  simp only [Nat.sub_add_cancel Nat.one_le_two_pow, le_refl, Nat.sub_self, Nat.zero_le,
    and_self, if_true]

end Betree.WorstFitList
