import Betree.Spec.Handler
import Betree.Proof.Safety

/-!
# The allocation bitmap of a segment

`get_allocation_bitmap` builds a segment's allocator from the current root tree's bitmap,
ORs the previous snapshot's bitmap into it, and then protects the old root's blocks with
`allocate_at`, which takes a range only when all of it is free.

* `bitsOf_orInto`: a block of the merged bitmap is set iff it is set in either bitmap;
* `allocateAt_new`: on a fresh allocator, `allocate_at` of an in-segment range marks all of
  it when all of it is free, and nothing otherwise;
* `getAllocationBitmap_marks`: the allocator returned is reachable, so safe, and a block is
  allocated iff it is live in either tree, or it is a block of the old root and no block of
  the old root is live in either tree;
* `getAllocationBitmap_partial_overlap`: an old root that shares a block with a live range
  is not protected at all;
* `getAllocationBitmap_never_hands_out_live`: **along every run of allocations on the
  allocator returned, no block live in the current tree or in the snapshot is handed out**.
-/

namespace Betree

open WorstFitList

variable {g : Geometry}

/-! ## The merged bitmap -/

theorem toNat_lor_uint8 (a b : UInt8) : (a ||| b).toNat = a.toNat ||| b.toNat :=
  BitVec.toNat_or _ _

@[simp] theorem Handler.orInto_nil (ws : List UInt8) : Handler.orInto ws [] = ws := by
  cases ws <;> rfl

theorem Handler.getD_orInto : ∀ {ws os : List UInt8} {i : ℕ}, i < ws.length →
    ((Handler.orInto ws os).getD i 0).toNat = (ws.getD i 0).toNat ||| (os.getD i 0).toNat
  | _ :: _, _ :: _, 0, _ => toNat_lor_uint8 _ _
  | _ :: _, _ :: _, _ + 1, h => by
    simp only [Handler.orInto, List.getD_cons_succ]; exact getD_orInto (by simpa using h)
  | _, [], _, _ => by simp
  | [], _ :: _, _, h => absurd h (Nat.not_lt_zero _)

/-- **A block of the merged bitmap is set iff it is set in either bitmap.** -/
theorem Handler.bitsOf_orInto {ws os : List UInt8} {b : ℕ} (h : b / 8 < ws.length) :
    bitsOf (Handler.orInto ws os) b = (bitsOf ws b || bitsOf os b) := by
  rw [bitsOf, getD_orInto h, Nat.testBit_or, bitsOf, bitsOf]

theorem bitsOf_append_zeros (l : List UInt8) (n : ℕ) : bitsOf (l ++ List.replicate n 0) = bitsOf l := by
  funext b
  by_cases h : b / 8 < l.length
  · rw [bitsOf, List.getD_append _ _ _ _ h, bitsOf]
  · have hl : l.length ≤ b / 8 := Nat.le_of_not_lt h
    rw [bitsOf, bitsOf, List.getD_append_right _ _ _ _ hl, List.getD_eq_getElem?_getD,
      List.getElem?_getD_replicate_default_eq, List.getD_eq_default _ _ hl]

theorem Handler.bitsOf_readBitmap (cur : Option (List UInt8)) :
    bitsOf (Handler.readBitmap g cur) = bitsOf (cur.getD []) := by
  cases cur with
  | none => exact bitsOf_append_zeros [] _
  | some segment => exact bitsOf_append_zeros segment _

theorem Handler.length_readBitmap {cur : Option (List UInt8)}
    (h : ∀ c ∈ cur, c.length ≤ g.segmentSizeBytes) :
    (Handler.readBitmap g cur).length = g.segmentSizeBytes := by
  cases cur with
  | none => simp [Handler.readBitmap]
  | some segment => have := h segment rfl; simp [Handler.readBitmap]; omega

/-! ## `allocate_at` on a fresh allocator -/

/-- A run of a fresh allocator that holds the first block of an all-free in-segment range
holds all of it: the runs `new` builds are maximal. -/
theorem covers_of_new {bitmap : List UInt8} {size offset : ℕ} (hn : 0 < size)
    (hin : offset + size ≤ g.segmentSize)
    (hfree : ∀ b, offset ≤ b → b < offset + size → bitsOf bitmap b = false) :
    ∃ seg ∈ (new g bitmap).freeSegments, seg.1 ≤ offset ∧ offset + size ≤ seg.1 + seg.2 := by
  obtain ⟨seg, hm, h1, h2⟩ :=
    ((@safe_new g bitmap).free_iff offset (by omega)).1 (hfree offset le_rfl (by omega))
  refine ⟨seg, hm, h1, Nat.le_of_not_lt fun hlt => ?_⟩
  rw [new, initializeFreeSegments_eq] at hm
  have := scanFreeSegments_maximal 0 _ seg hm (by omega)
  rw [hfree _ (by omega) hlt] at this
  cases this

/-- **`allocate_at` on a fresh allocator**: an in-segment request marks the whole range when
all of it is free, and nothing otherwise. -/
theorem allocateAt_new (bitmap : List UInt8) {size offset : ℕ}
    (hin : offset + size ≤ g.segmentSize) :
    ∃ s', step g (new g bitmap) (.allocateAt size offset) = some s' ∧
      ∀ b, s'.data b = true ↔ bitsOf bitmap b = true ∨
        (0 < size ∧ (∀ b', offset ≤ b' → b' < offset + size → bitsOf bitmap b' = false) ∧
          offset ≤ b ∧ b < offset + size) := by
  rcases Nat.eq_zero_or_pos size with rfl | hn
  · exact ⟨new g bitmap, by simp [step, allocateAt], fun b => by simp [new]⟩
  have hu : u32Add offset size = offset + size := u32Add_of_le hin
  have h1 : ¬ g.segmentSize < offset + size := by omega
  have h2 : ¬ offset + size < offset := by omega
  by_cases hfree : ∀ b, offset ≤ b → b < offset + size → bitsOf bitmap b = false
  · obtain ⟨segs, h⟩ :=
      @allocateAt_of_free g (new g bitmap) size offset hn hin hfree (covers_of_new hn hin hfree)
    refine ⟨⟨fill (bitsOf bitmap) offset size true, segs⟩, by simp only [step, h]; rfl, fun b => ?_⟩
    simp only [fill_apply]
    split_ifs with hb
    · exact iff_of_true rfl (.inr ⟨hn, hfree, hb⟩)
    · exact ⟨.inl, fun h => h.elim id fun h' => absurd h'.2.2 hb⟩
  · have hany : anyIn (new g bitmap).data offset (offset + size) = true := by
      by_contra h
      exact hfree (anyIn_eq_false.1 (by simpa using h))
    refine ⟨new g bitmap, ?_, fun b => ⟨.inl, fun h => h.elim id fun h' => absurd h'.2.1 hfree⟩⟩
    simp only [step, allocateAt, hu, hn.ne', hany, gt_iff_lt, h1, h2, if_false, if_true,
      Option.map_some']

/-! ## Runs of allocations -/

/-- The states a run of `allocate` and `allocate_at` calls reaches from `a`. -/
inductive AllocRun (g : Geometry) (a : WorstFitList) : WorstFitList → Prop
  | start : AllocRun g a a
  | allocate {s s' : WorstFitList} {size : ℕ} {r : Option ℕ} :
      AllocRun g a s → WorstFitList.allocate g s size = some (r, s') → AllocRun g a s'
  | allocateAt {s s' : WorstFitList} {size offset : ℕ} {r : Bool} :
      AllocRun g a s → WorstFitList.allocateAt g s size offset = some (r, s') → AllocRun g a s'

theorem AllocRun.reachable {a s : WorstFitList} (ha : Reachable g a) (h : AllocRun g a s) :
    Reachable g s := by
  induction h with
  | start => exact ha
  | @allocate _ _ size _ _ hs ih => exact .step (.allocate size) ih trivial (by simp [step, hs])
  | @allocateAt _ _ size offset _ _ hs ih =>
    exact .step (.allocateAt size offset) ih trivial (by simp [step, hs])

/-- No allocation clears a bit. -/
theorem AllocRun.data_of_data {a s : WorstFitList} (h : AllocRun g a s) {b : ℕ}
    (hb : a.data b = true) : s.data b = true := by
  induction h with
  | start => exact hb
  | allocate _ hs ih =>
    rcases allocate_cases hs with ⟨rfl, -⟩ | ⟨_, _, _, _, _, _, _, rfl⟩
    · exact ih
    · simp [ih]
  | allocateAt _ hs ih =>
    rcases allocateAt_cases hs with ⟨rfl, -⟩ | ⟨_, _, _, _, rfl⟩
    · exact ih
    · simp [ih]

/-! ## `get_allocation_bitmap` -/

namespace Handler

/-- Marking the old root on a fresh allocator: the range is taken when the old root lies in
the segment and all of it is free. -/
theorem markOldRoot_new (h : Handler) (id : SegmentId) (bitmap : List UInt8)
    (hold : ∀ offset size, h.oldRootAllocation = some (offset, size) →
      SegmentId.getBlockOffset g offset + size ≤ g.segmentSize) :
    ∃ a, markOldRoot g h id (new g bitmap) = some a ∧ Reachable g a ∧
      ∀ b, a.data b = true ↔ bitsOf bitmap b = true ∨
        ∃ offset size, h.oldRootAllocation = some (offset, size) ∧ SegmentId.get g offset = id ∧
          0 < size ∧
          (∀ b', SegmentId.getBlockOffset g offset ≤ b' →
            b' < SegmentId.getBlockOffset g offset + size → bitsOf bitmap b' = false) ∧
          SegmentId.getBlockOffset g offset ≤ b ∧ b < SegmentId.getBlockOffset g offset + size := by
  unfold markOldRoot
  rcases hroot : h.oldRootAllocation with _ | ⟨offset, size⟩
  · refine ⟨new g bitmap, rfl, .new bitmap, fun b => ⟨.inl, ?_⟩⟩
    rintro (h' | ⟨_, _, ⟨⟩, -⟩)
    exact h'
  dsimp only
  split_ifs with hid
  · obtain ⟨a, ha, hbits⟩ := allocateAt_new bitmap (hold offset size hroot)
    refine ⟨a, ha, .step (.allocateAt _ _) (.new bitmap) trivial ha, fun b => ?_⟩
    rw [hbits b]
    refine or_congr_right ⟨fun h' => ⟨offset, size, rfl, hid, h'⟩, ?_⟩
    rintro ⟨_, _, ⟨⟩, -, h'⟩
    exact h'
  · refine ⟨new g bitmap, rfl, .new bitmap, fun b => ⟨.inl, ?_⟩⟩
    rintro (h' | ⟨_, _, ⟨⟩, hid', -⟩)
    exacts [h', absurd hid' hid]

/-- When both reads succeed, `get_allocation_bitmap` marks the old root on the allocator of
the merged bitmap. -/
theorem getAllocationBitmap_of_ok {ε : Type} (h : Handler) (id : SegmentId)
    {cur : Option (List UInt8)} (snapshot : Option (Option (List UInt8)))
    (hcur : ∀ c ∈ cur, c.length ≤ g.segmentSizeBytes) :
    getAllocationBitmap g h id (.ok cur : Except ε _) (snapshot.map .ok) =
      (markOldRoot g h id (new g (orInto (readBitmap g cur) (snapshot.join.getD [])))).map .ok := by
  have hany : (cur.any fun segment => g.segmentSizeBytes < segment.length) = false := by
    cases cur with
    | none => rfl
    | some c => simpa [Option.any] using hcur c rfl
  rcases snapshot with _ | _ | old <;> simp [getAllocationBitmap, hany]

/-- **What `get_allocation_bitmap` returns.** When the reads succeed, the current value fits
the segment and the old root lies in one segment, the allocator is reachable, so safe, and a
block is allocated iff it is set in the current value, or in the snapshot's, or it is a block
of a non-empty old root in this segment of which no block is set in either value. -/
theorem getAllocationBitmap_marks {ε : Type} (h : Handler) (id : SegmentId)
    (cur : Option (List UInt8)) (snapshot : Option (Option (List UInt8)))
    (hcur : ∀ c ∈ cur, c.length ≤ g.segmentSizeBytes)
    (hold : ∀ offset size, h.oldRootAllocation = some (offset, size) →
      SegmentId.getBlockOffset g offset + size ≤ g.segmentSize) :
    ∃ a, getAllocationBitmap g h id (.ok cur : Except ε _) (snapshot.map .ok) = some (.ok a) ∧
      Reachable g a ∧ Safe g a ∧
      ∀ b < g.segmentSize, a.data b = true ↔
        bitsOf (cur.getD []) b = true ∨ bitsOf (snapshot.join.getD []) b = true ∨
        ∃ offset size, h.oldRootAllocation = some (offset, size) ∧ SegmentId.get g offset = id ∧
          0 < size ∧
          (∀ b', SegmentId.getBlockOffset g offset ≤ b' →
            b' < SegmentId.getBlockOffset g offset + size →
            bitsOf (cur.getD []) b' = false ∧ bitsOf (snapshot.join.getD []) b' = false) ∧
          SegmentId.getBlockOffset g offset ≤ b ∧ b < SegmentId.getBlockOffset g offset + size := by
  set merged := orInto (readBitmap g cur) (snapshot.join.getD [])
  have hbits : ∀ b < g.segmentSize, bitsOf merged b =
      (bitsOf (cur.getD []) b || bitsOf (snapshot.join.getD []) b) := fun b hb => by
    rw [bitsOf_orInto (by rw [length_readBitmap hcur]; unfold Geometry.segmentSize at hb; omega),
      bitsOf_readBitmap]
  obtain ⟨a, ha, hr, hd⟩ := markOldRoot_new h id merged hold
  refine ⟨a, by rw [getAllocationBitmap_of_ok h id snapshot hcur, ha]; rfl, hr, hr.safe,
    fun b hb => ?_⟩
  rw [hd b, hbits b hb, Bool.or_eq_true, or_assoc]
  refine or_congr_right (or_congr_right (exists₂_congr fun offset size =>
    and_congr_right fun hroot => and_congr_right fun _ => and_congr_right fun _ =>
      and_congr_left fun _ => forall₃_congr fun b' _ h2 => ?_))
  have := hold offset size hroot
  rw [hbits b' (by omega), Bool.or_eq_false_iff]

/-- A handler whose old root is the blocks `[0, 2)` of the first segment of disk 0. -/
def oldRootAtZero : Handler where
  currentGeneration := 0
  disks := []
  disks_nodup := List.nodup_nil
  freeSpace := fun _ => ⟨0, 0⟩
  freeSpaceTier := []
  delayedMessages := []
  lastSnapshotGeneration := fun _ => none
  allocations := 0
  oldRootAllocation := some (⟨0, 0, 0⟩, 2)

theorem getAllocationBitmap_marks_oldRootAtZero :
    let g := Geometry.spec
    let h := oldRootAtZero
    let id := SegmentId.get g ⟨0, 0, 0⟩
    let cur : Option (List UInt8) := some [0]
    let snapshot : Option (Option (List UInt8)) := none
    (∀ c ∈ cur, c.length ≤ g.segmentSizeBytes) ∧
    (∀ offset size, h.oldRootAllocation = some (offset, size) →
      SegmentId.getBlockOffset g offset + size ≤ g.segmentSize) ∧
    ∃ a, getAllocationBitmap g h id (.ok cur : Except Unit _) (snapshot.map .ok) = some (.ok a) ∧
      Reachable g a ∧ Safe g a ∧
      ∀ b < g.segmentSize, a.data b = true ↔
        bitsOf (cur.getD []) b = true ∨ bitsOf (snapshot.join.getD []) b = true ∨
        ∃ offset size, h.oldRootAllocation = some (offset, size) ∧ SegmentId.get g offset = id ∧
          0 < size ∧
          (∀ b', SegmentId.getBlockOffset g offset ≤ b' →
            b' < SegmentId.getBlockOffset g offset + size →
            bitsOf (cur.getD []) b' = false ∧ bitsOf (snapshot.join.getD []) b' = false) ∧
          SegmentId.getBlockOffset g offset ≤ b ∧ b < SegmentId.getBlockOffset g offset + size :=
  have hcur : ∀ c ∈ some [(0 : UInt8)], c.length ≤ Geometry.spec.segmentSizeBytes := by
    rintro c ⟨⟩; decide
  have hold : ∀ offset size, oldRootAtZero.oldRootAllocation = some (offset, size) →
      SegmentId.getBlockOffset Geometry.spec offset + size ≤ Geometry.spec.segmentSize := by
    rintro offset size ⟨⟩; decide
  ⟨hcur, hold, getAllocationBitmap_marks _ _ _ none hcur hold⟩

/-- **An old root sharing a block with a live range is not protected.** Block 0 of the
current value is set and the old root is `[0, 2)`: `allocate_at` refuses the range, and
block 1, a block of the old root, is left free. -/
theorem getAllocationBitmap_partial_overlap :
    ¬ ∀ a, getAllocationBitmap Geometry.spec oldRootAtZero (SegmentId.get Geometry.spec ⟨0, 0, 0⟩)
        (.ok (some [1]) : Except Unit _) none = some (.ok a) →
      ∀ b < Geometry.spec.segmentSize, a.data b = true ↔ bitsOf [1] b = true ∨
        ∃ offset size, oldRootAtZero.oldRootAllocation = some (offset, size) ∧
          SegmentId.get Geometry.spec offset = SegmentId.get Geometry.spec ⟨0, 0, 0⟩ ∧
          SegmentId.getBlockOffset Geometry.spec offset ≤ b ∧
          b < SegmentId.getBlockOffset Geometry.spec offset + size := by
  intro H
  have hget : getAllocationBitmap Geometry.spec oldRootAtZero (SegmentId.get Geometry.spec ⟨0, 0, 0⟩)
      (.ok (some [1]) : Except Unit _) none =
        some (.ok (new Geometry.spec ([1] ++ List.replicate 8191 0))) := rfl
  have h1 := (H _ hget 1 (by decide)).2 (.inr ⟨_, _, rfl, rfl, by decide, by decide⟩)
  exact absurd h1 (by decide)

/-! ## What the allocator built never hands out -/

/-- Every block set in the current or the snapshot's value is allocated in the allocator
`get_allocation_bitmap` builds. -/
theorem getAllocationBitmap_live {ε : Type} (h : Handler) (id : SegmentId)
    (cur : Option (List UInt8)) (snapshot : Option (Option (List UInt8)))
    (hcur : ∀ c ∈ cur, c.length ≤ g.segmentSizeBytes)
    (hold : ∀ offset size, h.oldRootAllocation = some (offset, size) →
      SegmentId.getBlockOffset g offset + size ≤ g.segmentSize) :
    ∃ a, getAllocationBitmap g h id (.ok cur : Except ε _) (snapshot.map .ok) = some (.ok a) ∧
      Reachable g a ∧ ∀ b < g.segmentSize,
        (bitsOf (cur.getD []) b || bitsOf (snapshot.join.getD []) b) = true → a.data b = true := by
  obtain ⟨a, ha, hr, hd⟩ := markOldRoot_new h id (orInto (readBitmap g cur) (snapshot.join.getD [])) hold
  refine ⟨a, by rw [getAllocationBitmap_of_ok h id snapshot hcur, ha]; rfl, hr, fun b hb hlive => ?_⟩
  rw [hd b, bitsOf_orInto (by rw [length_readBitmap hcur]; unfold Geometry.segmentSize at hb; omega),
    bitsOf_readBitmap]
  exact .inl hlive

/-- **Live blocks are never handed out.** When its reads succeed, `get_allocation_bitmap`
returns an allocator such that along every run of `allocate` and `allocate_at` calls on it,
no call hands out a block set in the current tree's value or in the snapshot's. -/
theorem getAllocationBitmap_never_hands_out_live {ε : Type} (h : Handler) (id : SegmentId)
    (cur : Option (List UInt8)) (snapshot : Option (Option (List UInt8)))
    (hcur : ∀ c ∈ cur, c.length ≤ g.segmentSizeBytes)
    (hold : ∀ offset size, h.oldRootAllocation = some (offset, size) →
      SegmentId.getBlockOffset g offset + size ≤ g.segmentSize) :
    ∃ a, getAllocationBitmap g h id (.ok cur : Except ε _) (snapshot.map .ok) = some (.ok a) ∧
      ∀ s, AllocRun g a s →
        (∀ size offset s', 0 < size → allocate g s size = some (some offset, s') →
          ∀ b, offset ≤ b → b < offset + size →
            bitsOf (cur.getD []) b = false ∧ bitsOf (snapshot.join.getD []) b = false) ∧
        (∀ size offset s', 0 < size → allocateAt g s size offset = some (true, s') →
          ∀ b, offset ≤ b → b < offset + size →
            bitsOf (cur.getD []) b = false ∧ bitsOf (snapshot.join.getD []) b = false) := by
  obtain ⟨a, ha, hr, hlive⟩ := getAllocationBitmap_live (ε := ε) h id cur snapshot hcur hold
  -- a handed-out block was free, so it is not live
  have dead : ∀ s, AllocRun g a s → ∀ s' offset size, Handed g s s' offset size →
      ∀ b, offset ≤ b → b < offset + size →
        bitsOf (cur.getD []) b = false ∧ bitsOf (snapshot.join.getD []) b = false :=
    fun s hs s' offset size hh b h1 h2 => by
      have hfree := hh.free_before b h1 h2
      have hin := hh.inSegment
      by_contra hl
      have := hs.data_of_data (hlive b (by omega) (by simpa [Bool.or_eq_true, ← Bool.not_eq_false] using hl))
      rw [hfree] at this
      cases this
  refine ⟨a, ha, fun s hs => ⟨fun size offset s' hn h' => ?_, fun size offset s' hn h' => ?_⟩⟩
  · exact dead s hs _ _ _ ((hs.reachable hr).safe.handed_of_allocate hn h')
  · exact dead s hs _ _ _ ((hs.reachable hr).safe.handed_of_allocateAt hn h')

/-- Under `oldRootAtZero`, with block 0 live in the current value and block 1 in the
snapshot's, no allocation run on the first segment's allocator hands out either. -/
theorem getAllocationBitmap_never_hands_out_live_oldRootAtZero :
    let g := Geometry.spec
    let h := oldRootAtZero
    let id := SegmentId.get g ⟨0, 0, 0⟩
    let cur : Option (List UInt8) := some [1]
    let snapshot : Option (Option (List UInt8)) := some (some [2])
    (∀ c ∈ cur, c.length ≤ g.segmentSizeBytes) ∧
    (∀ offset size, h.oldRootAllocation = some (offset, size) →
      SegmentId.getBlockOffset g offset + size ≤ g.segmentSize) ∧
    ∃ a, getAllocationBitmap g h id (.ok cur : Except Unit _) (snapshot.map .ok) = some (.ok a) ∧
      ∀ s, AllocRun g a s →
        (∀ size offset s', 0 < size → allocate g s size = some (some offset, s') →
          ∀ b, offset ≤ b → b < offset + size →
            bitsOf (cur.getD []) b = false ∧ bitsOf (snapshot.join.getD []) b = false) ∧
        (∀ size offset s', 0 < size → allocateAt g s size offset = some (true, s') →
          ∀ b, offset ≤ b → b < offset + size →
            bitsOf (cur.getD []) b = false ∧ bitsOf (snapshot.join.getD []) b = false) :=
  have hcur : ∀ c ∈ some [(1 : UInt8)], c.length ≤ Geometry.spec.segmentSizeBytes := by
    rintro c ⟨⟩; decide
  have hold : ∀ offset size, oldRootAtZero.oldRootAllocation = some (offset, size) →
      SegmentId.getBlockOffset Geometry.spec offset + size ≤ Geometry.spec.segmentSize := by
    rintro offset size ⟨⟩; decide
  ⟨hcur, hold, getAllocationBitmap_never_hands_out_live _ _ _ (some (some [2])) hcur hold⟩

end Handler

end Betree
