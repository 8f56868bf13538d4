import Betree.Proof.Runs

/-!
# Allocator safety: no block is handed out twice

`Safe g s`: the runs of `free_segments` lie in the segment, are pairwise apart, and hold
exactly the blocks whose bit is clear.

Each call is first described once, as what it does to the list: `allocate` and
`allocate_at` replace the run holding the request by what is left of it (`Carve`),
`deallocate` replaces the runs it merges with by one run (`Merge`). From those two shapes:

* `safe_new`: `new` builds a safe state;
* `Safe.allocate`, `Safe.allocateAt`, `Safe.deallocate`: every call keeps it;
* `reachable_safe`: **every state the allocator reaches is safe**, and a block range is
  handed out only while all of it is free, after which exactly it is marked (`Handed`).
-/

namespace Betree.WorstFitList

variable {g : Geometry}

/-- The safety invariant of `free_segments`. -/
structure Safe (g : Geometry) (s : WorstFitList) : Prop where
  inSegment : ∀ seg ∈ s.freeSegments, seg.1 + seg.2 ≤ g.segmentSize
  disjoint : s.freeSegments.Pairwise Apart
  free_iff : ∀ b < g.segmentSize, s.data b = false ↔ Free s.freeSegments b

/-- `pieces` is what is left of `seg` once `[offset, offset + size)`, which it holds, is
taken out. -/
structure Carve (size offset : ℕ) (seg : ℕ × ℕ) (pieces : List (ℕ × ℕ)) : Prop where
  start_le : seg.1 ≤ offset
  end_le : offset + size ≤ seg.1 + seg.2
  free_iff : ∀ b, Free pieces b ↔ Covers seg b ∧ ¬ (offset ≤ b ∧ b < offset + size)
  apart : pieces.Pairwise Apart
  inside : ∀ p ∈ pieces, p.1 + p.2 ≤ seg.1 + seg.2

/-- `merged` holds the runs `consumed` and `[offset, offset + size)`, and ends where one of
them does. -/
structure Merge (offset size : ℕ) (consumed : List (ℕ × ℕ)) (merged : ℕ × ℕ) : Prop where
  covers_iff : ∀ b, Covers merged b ↔ Free consumed b ∨ (offset ≤ b ∧ b < offset + size)
  end_le : ∀ m, (∀ c ∈ consumed, c.1 + c.2 ≤ m) → offset + size ≤ m → merged.1 + merged.2 ≤ m

/-- The blocks of the run in the middle of a pairwise-apart list are in no other run. -/
theorem not_free_around {pre post : List (ℕ × ℕ)} {seg : ℕ × ℕ}
    (h : (pre ++ seg :: post).Pairwise Apart) {b : ℕ} (hb : Covers seg b) :
    ¬ Free pre b ∧ ¬ Free post b := by
  simp only [List.pairwise_append, List.pairwise_cons, List.mem_cons] at h
  exact ⟨fun ⟨a, ha, hc⟩ => h.2.2 a ha seg (.inl rfl) b hc hb,
    not_free_of_apart h.2.1.1 hb⟩

/-! ## `new` -/

theorem initializeFreeSegments_eq (data : ℕ → Bool) :
    initializeFreeSegments g data = scanFreeSegments data 0 g.segmentSize :=
  List.mergeSort_of_sorted ((scanFreeSegments_ordered 0 _).imp fun h => by
    simp only [Before] at h; simp only [decide_eq_true_eq]; omega)

/-- `new` builds a safe state, whatever the bitmap. -/
theorem safe_new (bitmap : List UInt8) : Safe g (new g bitmap) where
  inSegment seg hm := by
    rw [new, initializeFreeSegments_eq] at hm
    have := mem_scanFreeSegments _ _ seg hm; omega
  disjoint := by
    rw [new, initializeFreeSegments_eq]
    exact (scanFreeSegments_ordered 0 _).imp Before.apart
  free_iff b hb := by
    rw [new, initializeFreeSegments_eq, free_scanFreeSegments 0 _ b (Nat.zero_le b) (by omega)]

/-! ## `allocate` and `allocate_at` -/

/-- **Carving keeps the state safe.** -/
theorem Safe.carve {s : WorstFitList} (hs : Safe g s) {pre post pieces : List (ℕ × ℕ)}
    {seg : ℕ × ℕ} {size offset : ℕ} (hseg : s.freeSegments = pre ++ seg :: post)
    (hc : Carve size offset seg pieces) :
    Safe g ⟨fill s.data offset size true, pre ++ pieces ++ post⟩ where
  inSegment p hp := by
    have hin := hs.inSegment
    rw [hseg] at hin
    simp only [List.mem_append, List.mem_cons] at hin hp
    rcases hp with (hp | hp) | hp
    · exact hin p (.inl hp)
    · exact (hc.inside p hp).trans (hin seg (.inr (.inl rfl)))
    · exact hin p (.inr (.inr hp))
  disjoint := pairwise_replace (hseg ▸ hs.disjoint) hc.apart fun b hb => ((hc.free_iff b).1 hb).1
  free_iff b hb := by
    have hd := hs.free_iff b hb
    rw [hseg] at hd
    have hsafe := hseg ▸ hs.disjoint
    simp only [fill_apply, free_append, free_cons, hc.free_iff] at hd ⊢
    by_cases hr : offset ≤ b ∧ b < offset + size
    · have hcov : Covers seg b := by have := hc.start_le; have := hc.end_le; simp; omega
      have := not_free_around hsafe hcov
      simp only [hr, and_self, if_true, Bool.true_eq_false, not_true, and_false, or_false,
        false_iff, this.1, this.2, not_false_eq_true]
    · simpa only [hr, if_false, not_false_eq_true, and_true, or_assoc] using hd

/-- The selection loop picks the index of a run of at least `size` blocks. -/
theorem worstFit_some {size : ℕ} {segs : List (ℕ × ℕ)} : ∀ {i : ℕ} {best : Option ℕ × ℕ} {j : ℕ},
    (worstFit size i best segs).1 = some j →
      best.1 = some j ∨ ∃ seg, segs[j - i]? = some seg ∧ i ≤ j ∧ size ≤ seg.2 := by
  induction segs with
  | nil => intro i best j h; exact .inl h
  | cons seg rest ih =>
    intro i best j h
    obtain ⟨a, b⟩ := seg
    rcases ih h with h' | ⟨seg', hs, hij, hle⟩
    · split_ifs at h' with hc
      · simp only [Option.some.injEq] at h'; subst h'
        exact .inr ⟨(a, b), by simp, le_rfl, hc.1⟩
      · exact .inl h'
    · refine .inr ⟨seg', ?_, by omega, hle⟩
      rw [show j - i = (j - (i + 1)) + 1 by omega]; simpa using hs

/-- What `allocate` can do: change nothing, or hand out the front of a run of at least
`size` blocks. -/
theorem allocate_cases {s s' : WorstFitList} {size : ℕ} {r : Option ℕ}
    (h : allocate g s size = some (r, s')) :
    s' = s ∧ (r = none ∨ size = 0) ∨
      ∃ i offset segSize, 0 < size ∧ r = some offset ∧
        s.freeSegments[i]? = some (offset, segSize) ∧ size ≤ segSize ∧
        s' = ⟨fill s.data offset size true, s.freeSegments.set i (offset + size, segSize - size)⟩ := by
  unfold allocate at h
  split at h
  · simp_all
  split at h
  · simp_all
  rename_i index hw
  split at h
  · simp at h
  rename_i offset segSize he
  obtain ⟨data, hm, hd⟩ := Option.map_eq_some'.1 h
  simp only [Prod.mk.injEq] at hd
  obtain ⟨rfl, rfl⟩ := hd
  rcases worstFit_some hw with h0 | ⟨seg, hs, -, hle⟩
  · simp at h0
  simp only [Nat.sub_zero, he, Option.some.injEq] at hs; subst hs
  exact .inr ⟨index, offset, segSize, by omega, rfl, he, hle, by rw [eq_fill_of_mark hm]; rfl⟩

/-- Trimming the front of a run is a carve. -/
theorem carve_front {size offset segSize : ℕ} (h : size ≤ segSize) :
    Carve size offset (offset, segSize) [(offset + size, segSize - size)] where
  start_le := le_rfl
  end_le := by simp; omega
  free_iff b := by simp; omega
  apart := List.pairwise_singleton _ _
  inside p hp := by simp at hp; subst hp; simp; omega

/-- A list is the part before index `i`, the element there, and the part after. -/
theorem eq_take_cons_drop {segs : List (ℕ × ℕ)} {i : ℕ} {seg : ℕ × ℕ} (h : segs[i]? = some seg) :
    segs = segs.take i ++ seg :: segs.drop (i + 1) ∧
      ∀ seg', segs.set i seg' = segs.take i ++ seg' :: segs.drop (i + 1) := by
  obtain ⟨hi, rfl⟩ := List.getElem?_eq_some_iff.1 h
  refine ⟨?_, fun seg' => by rw [List.set_eq_take_append_cons_drop, if_pos hi]⟩
  conv_lhs => rw [← List.take_append_drop i segs, List.drop_eq_getElem_cons hi]

theorem Safe.allocate {s s' : WorstFitList} {size : ℕ} {r : Option ℕ} (hs : Safe g s)
    (h : allocate g s size = some (r, s')) : Safe g s' := by
  rcases allocate_cases h with ⟨rfl, -⟩ | ⟨i, offset, segSize, -, -, he, hle, rfl⟩
  · exact hs
  · obtain ⟨h1, h2⟩ := eq_take_cons_drop he
    rw [h2]
    simpa using hs.carve h1 (carve_front hle)

/-- **The loop of `allocate_at` carves the run holding the request.** -/
theorem allocateAtLoop_carve {size offset : ℕ} (hn : 0 < size) :
    ∀ {segs segs' : List (ℕ × ℕ)}, allocateAtLoop size offset segs = some segs' →
      ∃ pre seg post pieces, segs = pre ++ seg :: post ∧ segs' = pre ++ pieces ++ post ∧
        Carve size offset seg pieces
  | [], _, h => by simp [allocateAtLoop] at h
  | (segOffset, segSize) :: rest, segs', h => by
    simp only [allocateAtLoop] at h
    split_ifs at h with h1 h2 h3 h4
    · cases h
      exact ⟨[], _, rest, [], rfl, rfl, ⟨by omega, by omega, fun b => by simp; omega,
        List.Pairwise.nil, by simp⟩⟩
    · cases h
      obtain ⟨rfl, h2⟩ := h2
      exact ⟨[], _, rest, _, rfl, rfl, carve_front (by omega)⟩
    · cases h
      exact ⟨[], _, rest, [(segOffset, segSize - size)], rfl, rfl,
        ⟨by omega, by omega, fun b => by simp; omega, List.pairwise_singleton _ _,
          fun p hp => by simp at hp; subst hp; simp⟩⟩
    · cases h
      refine ⟨[], _, rest, [(segOffset, offset - segOffset),
        (offset + size, segSize - (size + (offset - segOffset)))], rfl, rfl,
        ⟨by omega, by omega, fun b => by simp; omega, ?_, fun p hp => ?_⟩⟩
      · simp only [List.pairwise_cons, List.mem_singleton, forall_eq, List.not_mem_nil,
          IsEmpty.forall_iff, implies_true, List.Pairwise.nil, and_true]
        intro b; simp; omega
      · simp at hp; rcases hp with rfl | rfl <;> simp <;> omega
    · obtain ⟨rest', hr, rfl⟩ := Option.map_eq_some'.1 h
      obtain ⟨pre, seg, post, pieces, rfl, rfl, hc⟩ := allocateAtLoop_carve hn hr
      exact ⟨(segOffset, segSize) :: pre, seg, post, pieces, rfl, rfl, hc⟩

/-- What `allocate_at` can do: change nothing, or carve the request out of the run holding
it. -/
theorem allocateAt_cases {s s' : WorstFitList} {size offset : ℕ} {r : Bool}
    (h : allocateAt g s size offset = some (r, s')) :
    s' = s ∧ (r = true → size = 0) ∨
      0 < size ∧ r = true ∧ ∃ segs, allocateAtLoop size offset s.freeSegments = some segs ∧
        s' = ⟨fill s.data offset size true, segs⟩ := by
  unfold allocateAt at h
  split_ifs at h with h1 h2 h3 h4
  · simp_all
  · simp_all
  · simp_all
  split at h
  · simp_all
  rename_i segs hl
  obtain ⟨data, hm, hd⟩ := Option.map_eq_some'.1 h
  simp only [Prod.mk.injEq] at hd
  obtain ⟨rfl, rfl⟩ := hd
  exact .inr ⟨by omega, rfl, segs, hl, by rw [eq_fill_of_mark hm]; rfl⟩

theorem Safe.allocateAt {s s' : WorstFitList} {size offset : ℕ} {r : Bool} (hs : Safe g s)
    (h : allocateAt g s size offset = some (r, s')) : Safe g s' := by
  rcases allocateAt_cases h with ⟨rfl, -⟩ | ⟨hn, -, segs, hl, rfl⟩
  · exact hs
  · obtain ⟨pre, seg, post, pieces, h1, rfl, hc⟩ := allocateAtLoop_carve hn hl
    exact hs.carve h1 hc

/-- The loop of `allocate_at` finds a run for any request that some run holds. -/
theorem allocateAtLoop_of_covers {size offset : ℕ} (hn : 0 < size) : ∀ {segs : List (ℕ × ℕ)},
    (∃ seg ∈ segs, seg.1 ≤ offset ∧ offset + size ≤ seg.1 + seg.2) →
    ∃ segs', allocateAtLoop size offset segs = some segs'
  | [], ⟨_, hm, _⟩ => absurd hm (List.not_mem_nil _)
  | (o, n) :: rest, ⟨seg, hm, h1, h2⟩ => by
    unfold allocateAtLoop
    split_ifs with c1 c2 c3 c4
    iterate 4 exact ⟨_, rfl⟩
    rcases List.mem_cons.1 hm with rfl | hm
    · omega
    · obtain ⟨segs', h⟩ := allocateAtLoop_of_covers hn ⟨seg, hm, h1, h2⟩
      exact ⟨_, by rw [h]; rfl⟩

/-- **`allocate_at` takes an in-segment range** whose blocks are all free and which some run
holds. -/
theorem allocateAt_of_free {s : WorstFitList} {size offset : ℕ} (hn : 0 < size)
    (hin : offset + size ≤ g.segmentSize)
    (hfree : ∀ b, offset ≤ b → b < offset + size → s.data b = false)
    (hcov : ∃ seg ∈ s.freeSegments, seg.1 ≤ offset ∧ offset + size ≤ seg.1 + seg.2) :
    ∃ segs, allocateAt g s size offset = some (true, ⟨fill s.data offset size true, segs⟩) := by
  obtain ⟨segs, hl⟩ := allocateAtLoop_of_covers hn hcov
  have h1 : ¬ g.segmentSize < offset + size := by omega
  have h2 : ¬ offset + size < offset := by omega
  refine ⟨segs, ?_⟩
  simp only [allocateAt, u32Add_of_le hin, hn.ne', anyIn_eq_false.2 hfree, hl, mark_of_le hin,
    gt_iff_lt, h1, h2, if_false, Bool.false_eq_true, Option.map_some']
  rfl

/-! ## `deallocate` -/

/-- **The loop of `deallocate` merges the freed range with the runs it touches.** -/
theorem deallocateLoop_merge (offset size : ℕ) : ∀ segs : List (ℕ × ℕ),
    ∃ pre consumed post merged, segs = pre ++ consumed ++ post ∧
      deallocateLoop offset size segs = pre ++ merged :: post ∧
      Merge offset size consumed merged
  | [] => ⟨[], [], [], (offset, size), rfl, rfl, ⟨fun b => by simp, fun _ _ h => by simpa⟩⟩
  | (segOffset, segSize) :: rest => by
    simp only [deallocateLoop]
    split_ifs with h1 h2 h3
    · rcases rest with _ | ⟨⟨nextOffset, nextSize⟩, rest'⟩
      · exact ⟨[], [(segOffset, segSize)], [], _, rfl, rfl,
          ⟨fun b => by simp; omega, fun m hm h => by simp at hm ⊢; omega⟩⟩
      · simp only
        split_ifs with h4
        · exact ⟨[], [(segOffset, segSize), (nextOffset, nextSize)], rest', _, rfl, rfl,
            ⟨fun b => by simp; omega, fun m hm h => by
              have := hm _ (.tail _ (.head _)); simp at this ⊢; omega⟩⟩
        · exact ⟨[], [(segOffset, segSize)], (nextOffset, nextSize) :: rest', _, rfl, rfl,
            ⟨fun b => by simp; omega, fun m hm h => by simp at hm ⊢; omega⟩⟩
    · exact ⟨[], [(segOffset, segSize)], rest, _, rfl, rfl,
        ⟨fun b => by simp; omega, fun m hm h => by simp at hm ⊢; omega⟩⟩
    · exact ⟨[], [], (segOffset, segSize) :: rest, _, rfl, rfl,
        ⟨fun b => by simp, fun m _ h => by simpa⟩⟩
    · obtain ⟨pre, consumed, post, merged, h, h', hm⟩ := deallocateLoop_merge offset size rest
      exact ⟨(segOffset, segSize) :: pre, consumed, post, merged, by simp [h], by simp [h'], hm⟩

theorem deallocate_of_le {s : WorstFitList} {offset size : ℕ} (h : offset + size ≤ g.segmentSize) :
    deallocate g s offset size =
      some ⟨fill s.data offset size false, deallocateLoop offset size s.freeSegments⟩ := by
  rw [deallocate, if_neg (by rw [u32Add_of_le h]; omega), mark_of_le h]; rfl

/-- **Freeing an in-segment range of allocated blocks keeps the state safe.** -/
theorem Safe.deallocate {s : WorstFitList} (hs : Safe g s) {offset size : ℕ}
    (hr : offset + size ≤ g.segmentSize)
    (hset : ∀ b, offset ≤ b → b < offset + size → s.data b = true) :
    Safe g ⟨fill s.data offset size false, deallocateLoop offset size s.freeSegments⟩ := by
  obtain ⟨pre, consumed, post, merged, h, h', hm⟩ := deallocateLoop_merge offset size s.freeSegments
  have hout : ∀ b, offset ≤ b → b < offset + size → ¬ Free s.freeSegments b := fun b h1 h2 hf =>
    by have := (hs.free_iff b (by omega)).2 hf; rw [hset b h1 h2] at this; contradiction
  have hdis := hs.disjoint
  rw [h] at hdis hout
  simp only [List.pairwise_append, free_append] at hdis hout
  rw [h']
  refine ⟨fun p hp => ?_, ?_, fun b hb => ?_⟩
  · have hin := hs.inSegment
    rw [h] at hin
    simp only [List.mem_append, List.mem_cons] at hin hp
    rcases hp with hp | rfl | hp
    · exact hin p (.inl (.inl hp))
    · exact hm.end_le _ (fun c hc => hin c (.inl (.inr hc))) hr
    · exact hin p (.inr hp)
  · simp only [List.pairwise_append, List.pairwise_cons]
    refine ⟨hdis.1.1, ⟨fun c hc b hb hc' => ?_, hdis.2.1⟩, fun a ha c hc b hb hc' => ?_⟩
    · rcases (hm.covers_iff b).1 hb with hf | hf
      · obtain ⟨c', hm', hc''⟩ := hf
        exact hdis.2.2 c' (List.mem_append_right _ hm') c hc b hc'' hc'
      · exact hout b hf.1 hf.2 (.inr ⟨c, hc, hc'⟩)
    · rcases List.mem_cons.1 hc with rfl | hc
      · rcases (hm.covers_iff b).1 hc' with hf | hf
        · obtain ⟨c', hm', hc''⟩ := hf
          exact hdis.1.2.2 a ha c' hm' b hb hc''
        · exact hout b hf.1 hf.2 (.inl (.inl ⟨a, ha, hb⟩))
      · exact hdis.2.2 a (List.mem_append_left _ ha) c hc b hb hc'
  · have hd := hs.free_iff b hb
    rw [h] at hd
    simp only [fill_apply, free_append, free_cons, hm.covers_iff] at hd ⊢
    split_ifs with hr' <;> simp only [hr', true_iff, and_self, or_true, true_or, or_false, or_assoc, hd]

/-! ## Every reachable state -/

/-- A call on the allocator. -/
inductive Op
  | allocate (size : ℕ)
  | allocateAt (size offset : ℕ)
  | deallocate (offset size : ℕ)

/-- The state after a call, `none` when the call panics. -/
def step (g : Geometry) (s : WorstFitList) : Op → Option WorstFitList
  | .allocate size => (allocate g s size).map Prod.snd
  | .allocateAt size offset => (allocateAt g s size offset).map Prod.snd
  | .deallocate offset size => deallocate g s offset size

/-- The calls the allocator's callers make: a deallocation frees an in-segment range whose
blocks are all allocated. -/
def Op.Admissible (g : Geometry) (s : WorstFitList) : Op → Prop
  | .deallocate offset size =>
    offset + size ≤ g.segmentSize ∧ ∀ b, offset ≤ b → b < offset + size → s.data b = true
  | _ => True

/-- The states `new` and any sequence of admissible calls reach. -/
inductive Reachable (g : Geometry) : WorstFitList → Prop
  | new (bitmap : List UInt8) : Reachable g (new g bitmap)
  | step {s s' : WorstFitList} (op : Op) : Reachable g s → op.Admissible g s →
      step g s op = some s' → Reachable g s'

theorem Safe.step {s s' : WorstFitList} (hs : Safe g s) {op : Op} (ha : op.Admissible g s)
    (h : step g s op = some s') : Safe g s' := by
  cases op with
  | allocate size =>
    obtain ⟨⟨r, s''⟩, h', rfl⟩ :=
      Option.map_eq_some'.1 (h : (WorstFitList.allocate g s size).map _ = _)
    exact hs.allocate h'
  | allocateAt size offset =>
    obtain ⟨⟨r, s''⟩, h', rfl⟩ :=
      Option.map_eq_some'.1 (h : (WorstFitList.allocateAt g s size offset).map _ = _)
    exact hs.allocateAt h'
  | deallocate offset size =>
    simp only [WorstFitList.step, deallocate_of_le ha.1, Option.some.injEq] at h
    subst h
    exact hs.deallocate ha.1 ha.2

theorem Reachable.safe {s : WorstFitList} (h : Reachable g s) : Safe g s := by
  induction h with
  | new bitmap => exact safe_new bitmap
  | step op _ ha hs ih => exact ih.step ha hs

/-- The call handed out `[offset, offset + size)`: inside the segment, all free before the
call, all allocated after it, and no other bit changed. -/
structure Handed (g : Geometry) (s s' : WorstFitList) (offset size : ℕ) : Prop where
  inSegment : offset + size ≤ g.segmentSize
  free_before : ∀ b, offset ≤ b → b < offset + size → s.data b = false
  set_after : ∀ b, offset ≤ b → b < offset + size → s'.data b = true
  frame : ∀ b, ¬ (offset ≤ b ∧ b < offset + size) → s'.data b = s.data b

/-- Carving `[offset, offset + size)` out of a run of a safe state hands it out. -/
theorem Safe.handed_of_carve {s : WorstFitList} (hs : Safe g s) {pre post pieces : List (ℕ × ℕ)}
    {seg : ℕ × ℕ} {size offset : ℕ} (hseg : s.freeSegments = pre ++ seg :: post)
    (hc : Carve size offset seg pieces) (segs : List (ℕ × ℕ)) :
    Handed g s ⟨fill s.data offset size true, segs⟩ offset size := by
  have hend : seg.1 + seg.2 ≤ g.segmentSize := hs.inSegment seg (by simp [hseg])
  have := hc.start_le; have := hc.end_le
  refine ⟨by omega, fun b h1 h2 => (hs.free_iff b (by omega)).2 ⟨seg, by simp [hseg], by simp; omega⟩,
    fun b h1 h2 => by simp [h1, h2], fun b hb => by simp [hb]⟩

/-- An `allocate` of `size > 0` blocks on a safe state hands out a range of free blocks. -/
theorem Safe.handed_of_allocate {s s' : WorstFitList} (hs : Safe g s) {size offset : ℕ}
    (hn : 0 < size) (h : WorstFitList.allocate g s size = some (some offset, s')) :
    Handed g s s' offset size := by
  rcases allocate_cases h with ⟨-, h | h⟩ | ⟨i, o, segSize, -, ho, he, hle, rfl⟩
  · cases h
  · omega
  · cases ho
    exact hs.handed_of_carve (eq_take_cons_drop he).1 (carve_front hle) _

/-- A successful `allocate_at` of `size > 0` blocks on a safe state hands out a range of free
blocks. -/
theorem Safe.handed_of_allocateAt {s s' : WorstFitList} (hs : Safe g s) {size offset : ℕ}
    (hn : 0 < size) (h : WorstFitList.allocateAt g s size offset = some (true, s')) :
    Handed g s s' offset size := by
  rcases allocateAt_cases h with ⟨-, h0⟩ | ⟨hn, -, segs, hl, rfl⟩
  · exact absurd (h0 rfl) hn.ne'
  · obtain ⟨pre, seg, post, pieces, h1, -, hc⟩ := allocateAtLoop_carve hn hl
    exact hs.handed_of_carve h1 hc segs

/-! ## A state reached through calls -/

theorem bitsOf_replicate_zero (n : ℕ) : bitsOf (List.replicate n 0) = fun _ => false := by
  funext b; simp [bitsOf]

theorem zeroRun_all_free (offset fuel : ℕ) : zeroRun (fun _ => false) offset fuel = fuel := by
  induction fuel generalizing offset with
  | zero => rfl
  | succ fuel ih => rw [zeroRun_succ_of_free fuel rfl, ih]

theorem geometry_spec_segmentSize : Geometry.spec.segmentSize = 65536 := rfl

theorem new_all_free_spec :
    new Geometry.spec (List.replicate 8192 0) = ⟨fun _ => false, [(0, 65536)]⟩ := by
  rw [new, bitsOf_replicate_zero, initializeFreeSegments_eq, geometry_spec_segmentSize,
    scanFreeSegments_free rfl, zeroRun_all_free]
  simp [scanFreeSegments]

/-- On the all-free segment of the spec's examples, `allocate(size)` hands out the front of
its one run. -/
theorem allocate_new_all_free_spec {size : ℕ} (hn : 0 < size) (hle : size ≤ 65536) :
    allocate Geometry.spec (new Geometry.spec (List.replicate 8192 0)) size =
      some (some 0, ⟨fill (fun _ => false) 0 size true, [(size, 65536 - size)]⟩) := by
  have hw : worstFit size 0 (none, 0) [(0, 65536)] = (some 0, 65536) := by
    simp [worstFit, hle]
  rw [new_all_free_spec, allocate, if_neg hn.ne', hw]
  simp [mark_of_le (show 0 + size ≤ Geometry.spec.segmentSize by rw [geometry_spec_segmentSize]; omega),
    Action.asBool]

/-- The all-free segment of the spec's examples after `allocate(4)` and `deallocate(0, 2)`:
blocks `[2, 4)` are allocated, and the runs are `(0, 2)` and `(4, 65532)`. -/
def freedFrontSpec : WorstFitList :=
  ⟨fill (fill (fun _ => false) 0 4 true) 0 2 false, [(0, 2), (4, 65532)]⟩

theorem reachable_freedFrontSpec : Reachable Geometry.spec freedFrontSpec := by
  have h1 : Reachable Geometry.spec ⟨fill (fun _ => false) 0 4 true, [(4, 65532)]⟩ :=
    .step (.allocate 4) (.new _) trivial
      (by rw [step, allocate_new_all_free_spec (by decide) (by decide)]; rfl)
  exact .step (.deallocate 0 2) h1 ⟨by decide, fun b _ hb => by simp; omega⟩
    (by rw [step, deallocate_of_le (by decide)]; rfl)

/-- **Allocator safety.** In every state reached from any bitmap by any sequence of
`allocate`, `allocate_at` and admissible `deallocate` calls, the free runs are disjoint and
hold exactly the clear bits; and a successful `allocate` or `allocate_at` of `size > 0`
blocks hands out a range that was all free and changes no other bit. -/
theorem reachable_safe {s : WorstFitList} (h : Reachable g s) :
    Safe g s ∧
      (∀ size offset s', 0 < size → allocate g s size = some (some offset, s') →
        Handed g s s' offset size) ∧
      (∀ size offset s', allocateAt g s size offset = some (true, s') →
        size = 0 ∧ s' = s ∨ Handed g s s' offset size) := by
  have hs := h.safe
  refine ⟨hs, fun _ _ _ hn ha => hs.handed_of_allocate hn ha, fun size offset s' ha => ?_⟩
  rcases allocateAt_cases ha with ⟨rfl, h0⟩ | ⟨hn, -⟩
  · exact .inl ⟨h0 rfl, rfl⟩
  · exact .inr (hs.handed_of_allocateAt hn ha)

/-- The safety law on the segment the spec's examples reach by `allocate(4)` and
`deallocate(0, 2)`. -/
theorem reachable_safe_freedFrontSpec :
    Safe Geometry.spec freedFrontSpec ∧
      (∀ size offset s', 0 < size → allocate Geometry.spec freedFrontSpec size =
        some (some offset, s') → Handed Geometry.spec freedFrontSpec s' offset size) ∧
      (∀ size offset s', allocateAt Geometry.spec freedFrontSpec size offset =
        some (true, s') → size = 0 ∧ s' = freedFrontSpec ∨
          Handed Geometry.spec freedFrontSpec s' offset size) :=
  reachable_safe reachable_freedFrontSpec

end Betree.WorstFitList
