import Mathlib.Data.List.Basic
import Mathlib.Data.Nat.Bitwise

/-!
# The worst-fit segment allocator

`allocator/worst_fit_list.rs`: the allocation bitmap of one segment (`data`, bit `b` set iff
block `b` is allocated) and the list `free_segments` of its free runs `(offset, size)`.

`SEGMENT_SIZE`, `Action` and `Allocator::mark` live in `allocator/mod.rs`, which is not under
`src/`: `Geometry` takes the segment size as a parameter, and `mark` is modelled from the spec.

Offsets and sizes are `u32`. The range guards of `allocate_at` and `deallocate` compute
`offset + size` in `u32`, where it can wrap (`u32Add`). Every other sum of the file is taken
only after `mark` or a guard has bounded it by `SEGMENT_SIZE`, on the states the allocator
reaches, and is written in `ℕ`. A panic (an index out of bounds, a slice whose start is past
its end) is `none`.
-/

namespace Betree

/-- The segment geometry of `allocator/mod.rs`: a segment has
`SEGMENT_SIZE = 8 * SEGMENT_SIZE_BYTES` blocks, and `SEGMENT_SIZE as u32` does not truncate. -/
structure Geometry where
  segmentSizeBytes : ℕ
  segmentSize_lt : 8 * segmentSizeBytes < 2 ^ 32

/-- `SEGMENT_SIZE`. -/
def Geometry.segmentSize (g : Geometry) : ℕ := 8 * g.segmentSizeBytes

theorem Geometry.segmentSize_lt_u32 (g : Geometry) : g.segmentSize < 2 ^ 32 := g.segmentSize_lt

/-- The segment size of the spec's worked examples: `SEGMENT_SIZE` = 64 Ki blocks. -/
def Geometry.spec : Geometry := ⟨8192, by decide⟩

/-- `allocator::Action`. -/
inductive Action
  | allocate
  | deallocate
  deriving DecidableEq, Repr

/-- `Action::as_bool`: the value of an allocated block's bit. -/
def Action.asBool : Action → Bool
  | .allocate => true
  | .deallocate => false

/-- `a + b` in `u32`, wrapping. -/
def u32Add (a b : ℕ) : ℕ := (a + b) % 2 ^ 32

theorem u32Add_of_le {g : Geometry} {a b : ℕ} (h : a + b ≤ g.segmentSize) : u32Add a b = a + b :=
  Nat.mod_eq_of_lt (by have := g.segmentSize_lt_u32; omega)

/-- The bitmap `data` with the bits of `[offset, offset + size)` set to `v`. -/
def fill (data : ℕ → Bool) (offset size : ℕ) (v : Bool) : ℕ → Bool :=
  fun b => if offset ≤ b ∧ b < offset + size then v else data b

@[simp] theorem fill_apply {data : ℕ → Bool} {offset size b : ℕ} {v : Bool} :
    fill data offset size v b = if offset ≤ b ∧ b < offset + size then v else data b := rfl

/-- `data[start..stop].any()`. -/
def anyIn (data : ℕ → Bool) (start stop : ℕ) : Bool :=
  (List.range' start (stop - start)).any data

theorem anyIn_eq_false {data : ℕ → Bool} {start stop : ℕ} :
    anyIn data start stop = false ↔ ∀ b, start ≤ b → b < stop → data b = false := by
  simp only [anyIn, List.any_eq_false, List.mem_range'_1, Bool.not_eq_true]
  exact ⟨fun h b h1 h2 => h b ⟨h1, by omega⟩, fun h b hb => h b hb.1 (by omega)⟩

/-- Modelled from the spec: `Allocator::mark` sets the bits of `[offset, offset + size)` for
`Allocate` and clears them for `Deallocate`. It takes them as the slice
`data[offset..offset + size]`, the end computed in `u32` as `allocate_at` does, so it panics
when the end is past `SEGMENT_SIZE` or before the start. -/
def mark (g : Geometry) (data : ℕ → Bool) (offset size : ℕ) (action : Action) :
    Option (ℕ → Bool) :=
  if offset ≤ u32Add offset size ∧ u32Add offset size ≤ g.segmentSize then
    some (fill data offset size action.asBool)
  else none

theorem mark_of_le {g : Geometry} {data : ℕ → Bool} {offset size : ℕ} {action : Action}
    (h : offset + size ≤ g.segmentSize) :
    mark g data offset size action = some (fill data offset size action.asBool) := by
  rw [mark, u32Add_of_le h, if_pos ⟨by omega, h⟩]

theorem eq_fill_of_mark {g : Geometry} {data data' : ℕ → Bool} {offset size : ℕ}
    {action : Action} (h : mark g data offset size action = some data') :
    data' = fill data offset size action.asBool := by
  unfold mark at h; split at h <;> simp_all

/-- `BitArray::new(bitmap)` with `Lsb0` order: bit `b` is bit `b % 8` of byte `b / 8`. -/
def bitsOf (bitmap : List UInt8) (b : ℕ) : Bool :=
  (bitmap.getD (b / 8) 0).toNat.testBit (b % 8)

/-- `WorstFitList`. -/
structure WorstFitList where
  data : ℕ → Bool
  freeSegments : List (ℕ × ℕ)

namespace WorstFitList

/-! ## `initialize_free_segments` -/

/-- The inner `while` of `initialize_free_segments`: `current_size` after counting the zero
bits from `offset`, with `fuel = SEGMENT_SIZE - offset` blocks left. -/
def zeroRun (data : ℕ → Bool) (offset : ℕ) : ℕ → ℕ
  | 0 => 0
  | fuel + 1 => if data offset = false then zeroRun data (offset + 1) fuel + 1 else 0

theorem zeroRun_succ_of_free {data : ℕ → Bool} {offset : ℕ} (fuel : ℕ)
    (h : data offset = false) : zeroRun data offset (fuel + 1) = zeroRun data (offset + 1) fuel + 1 := by
  simp [zeroRun, h]

/-- The outer `while` of `initialize_free_segments` from `offset`, with
`fuel = SEGMENT_SIZE - offset` blocks left: each zero run found is pushed. -/
def scanFreeSegments (data : ℕ → Bool) : ℕ → ℕ → List (ℕ × ℕ)
  | _, 0 => []
  | offset, fuel + 1 =>
    if h : data offset = false then
      (offset, zeroRun data offset (fuel + 1)) ::
        scanFreeSegments data (offset + zeroRun data offset (fuel + 1))
          (fuel + 1 - zeroRun data offset (fuel + 1))
    else scanFreeSegments data (offset + 1) fuel
termination_by _ fuel => fuel
decreasing_by
  · rw [zeroRun_succ_of_free fuel h]; omega
  · omega

/-- `initialize_free_segments`: scan the bitmap, then `sort_by_key(|seg| seg.0)`. -/
def initializeFreeSegments (g : Geometry) (data : ℕ → Bool) : List (ℕ × ℕ) :=
  (scanFreeSegments data 0 g.segmentSize).mergeSort fun a c => a.1 ≤ c.1

/-- `WorstFitList::new(bitmap)`. -/
def new (g : Geometry) (bitmap : List UInt8) : WorstFitList :=
  ⟨bitsOf bitmap, initializeFreeSegments g (bitsOf bitmap)⟩

/-! ## `allocate` -/

/-- The selection loop of `allocate` from index `i`, carrying
`(worst_fit_segment_index, worst_fit_segment_size)`. -/
def worstFit (size : ℕ) : ℕ → Option ℕ × ℕ → List (ℕ × ℕ) → Option ℕ × ℕ
  | _, best, [] => best
  | i, best, (_, segmentSize) :: rest =>
    worstFit size (i + 1)
      (if segmentSize ≥ size ∧ segmentSize > best.2 then (some i, segmentSize) else best) rest

/-- `allocate(size)`: the offset handed out (`Option<u32>`) and the new state. -/
def allocate (g : Geometry) (s : WorstFitList) (size : ℕ) : Option (Option ℕ × WorstFitList) :=
  if size = 0 then some (some 0, s)
  else
    match (worstFit size 0 (none, 0) s.freeSegments).1 with
    | none => some (none, s)
    | some index =>
      match s.freeSegments[index]? with
      | none => none
      | some (offset, segmentSize) =>
        (mark g s.data offset size .allocate).map fun data =>
          (some offset, ⟨data, s.freeSegments.set index (offset + size, segmentSize - size)⟩)

/-! ## `allocate_at` -/

/-- The loop of `allocate_at` over `free_segments`: the first run holding
`[offset, offset + size)` is removed, trimmed at the front, trimmed at the back or split;
`none` when the loop ends without one. -/
def allocateAtLoop (size offset : ℕ) : List (ℕ × ℕ) → Option (List (ℕ × ℕ))
  | [] => none
  | (segOffset, segSize) :: rest =>
    if segOffset = offset ∧ segSize = size then some rest
    else if segOffset = offset ∧ segSize > size then
      some ((segOffset + size, segSize - size) :: rest)
    else if offset > segOffset ∧ offset + size = segOffset + segSize then
      some ((segOffset, segSize - size) :: rest)
    else if offset > segOffset ∧ offset < segOffset + segSize ∧
        offset + size < segOffset + segSize then
      some ((segOffset, offset - segOffset) ::
        (offset + size, segSize - (size + (offset - segOffset))) :: rest)
    else ((segOffset, segSize) :: ·) <$> allocateAtLoop size offset rest

/-- `allocate_at(size, offset)`: whether the range was taken, and the new state. -/
def allocateAt (g : Geometry) (s : WorstFitList) (size offset : ℕ) : Option (Bool × WorstFitList) :=
  if size = 0 then some (true, s)
  else if u32Add offset size > g.segmentSize then some (false, s)
  else if u32Add offset size < offset then none
  else if anyIn s.data offset (u32Add offset size) then some (false, s)
  else
    match allocateAtLoop size offset s.freeSegments with
    | none => some (false, s)
    | some segs => (mark g s.data offset size .allocate).map fun data => (true, ⟨data, segs⟩)

/-! ## `deallocate` -/

/-- The loop of `deallocate`: merge `(offset, size)` into the run ending at `offset` (and the
next run, if it starts at `offset + size`), or into the run starting at `offset + size`, or
insert it before the first run starting after `offset`. -/
def deallocateLoop (offset size : ℕ) : List (ℕ × ℕ) → List (ℕ × ℕ)
  | [] => [(offset, size)]
  | (segOffset, segSize) :: rest =>
    if segOffset + segSize = offset then
      match rest with
      | (nextOffset, nextSize) :: rest' =>
        if nextOffset = offset + size then (segOffset, segSize + size + nextSize) :: rest'
        else (segOffset, segSize + size) :: rest
      | [] => [(segOffset, segSize + size)]
    else if offset + size = segOffset then (offset, segSize + size) :: rest
    else if segOffset > offset then (offset, size) :: (segOffset, segSize) :: rest
    else (segOffset, segSize) :: deallocateLoop offset size rest

/-- `deallocate(offset, size)`. -/
def deallocate (g : Geometry) (s : WorstFitList) (offset size : ℕ) : Option WorstFitList :=
  if u32Add offset size > g.segmentSize then some s
  else
    (mark g s.data offset size .deallocate).map fun data =>
      ⟨data, deallocateLoop offset size s.freeSegments⟩

end WorstFitList

end Betree
