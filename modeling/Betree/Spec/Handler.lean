import Betree.Spec.Allocator
import Mathlib.Data.UInt

/-!
# The database handler

`database/handler.rs`: the free-space counters of every disk and storage tier, the
copy-on-write decision for a freed block range, the queue of root-tree messages delayed to
the next sync, and the allocator a segment gets from the root tree's bitmaps.

What the handler uses from outside `src/` is modelled from the spec: `DiskOffset` and
`GlobalDiskId` (`storage_pool`), `SegmentId` and `SegmentAllocator` (`allocator/mod.rs`), the
root-tree keys (`root_tree_msg`) and the messages `DefaultMessageAction` builds. The root
trees are left abstract: `update_allocation_bitmap` inserts through any `insert` that may
fail, and `get_allocation_bitmap` takes what the two `get` calls return.

A panic (`expect`, an index out of bounds, a failed `assert!`) is `none`.
-/

namespace Betree

/-- Modelled from the spec: a `DiskOffset` decomposes into a storage class, a disk within the
class, and a block index. -/
structure DiskOffset where
  storageClass : ℕ
  diskId : ℕ
  blockIndex : ℕ
  deriving DecidableEq, Repr

/-- Modelled from the spec: `GlobalDiskId`, a disk of a storage class. -/
structure GlobalDiskId where
  storageClass : ℕ
  diskId : ℕ
  deriving DecidableEq, Repr

/-- Modelled from the spec: `DiskOffset::class_disk_id`. -/
def DiskOffset.classDiskId (o : DiskOffset) : GlobalDiskId := ⟨o.storageClass, o.diskId⟩

/-- Modelled from the spec: a `SegmentId` is a disk offset quantized to a segment boundary. -/
structure SegmentId where
  offset : DiskOffset
  deriving DecidableEq, Repr

/-- Modelled from the spec: `SegmentId::get`. -/
def SegmentId.get (g : Geometry) (o : DiskOffset) : SegmentId :=
  ⟨{ o with blockIndex := o.blockIndex / g.segmentSize * g.segmentSize }⟩

/-- Modelled from the spec: `SegmentId::get_block_offset`, the block within the segment. -/
def SegmentId.getBlockOffset (g : Geometry) (o : DiskOffset) : ℕ := o.blockIndex % g.segmentSize

/-- `StorageInfo`, and the `free`/`total` counters of an `AtomicStorageInfo`. -/
structure StorageInfo where
  free : UInt64
  total : UInt64
  deriving DecidableEq, Repr

/-- Modelled from the spec: the root-tree keys the handler writes. -/
inductive RootKey
  /-- `segment::id_to_key`. -/
  | segment (id : SegmentId)
  /-- `space_accounting::key`. -/
  | spaceAccounting (disk : GlobalDiskId)
  /-- `deadlist::key(dataset_id, generation, offset)`. -/
  | deadlist (datasetId generation : ℕ) (offset : DiskOffset)
  deriving DecidableEq, Repr

/-- Modelled from the spec: the messages the handler builds. -/
inductive RootMsg
  /-- `upsert_bits_msg(offset, size, set)`: set or clear the bits of a range of the bitmap. -/
  | upsertBits (offset size : ℕ) (set : Bool)
  /-- `update_storage_info(info)`: the upsert of a serialized `StorageInfo`. -/
  | storageInfo (info : StorageInfo)
  /-- `insert_msg(DeadListData { birth, size }.pack())`. -/
  | deadList (birth size : ℕ)
  deriving DecidableEq, Repr

/-- `CopyOnWriteEvent`. -/
inductive CopyOnWriteEvent
  | removed
  | preserved
  deriving DecidableEq, Repr

/-- The handler's state, but for its root trees. `free_space` is a `HashMap`: `disks` are its
keys, and `freeSpace` gives the counters of each. -/
structure Handler where
  currentGeneration : ℕ
  disks : List GlobalDiskId
  disks_nodup : disks.Nodup
  freeSpace : GlobalDiskId → StorageInfo
  freeSpaceTier : List StorageInfo
  delayedMessages : List (RootKey × RootMsg)
  lastSnapshotGeneration : ℕ → Option ℕ
  allocations : UInt64
  oldRootAllocation : Option (DiskOffset × ℕ)

namespace Handler

/-- `update_allocation_bitmap_msg(offset, size, action)`. -/
def updateAllocationBitmapMsg (g : Geometry) (offset : DiskOffset) (size : ℕ) (action : Action) :
    RootMsg :=
  .upsertBits (SegmentId.getBlockOffset g offset) size action.asBool

/-- Apply `f` to the `free` counter of disk `disk` (`free_space.get(&disk).expect(..)`) and
then of tier `tier` (`free_space_tier[tier]`). -/
def updateFree (h : Handler) (disk : GlobalDiskId) (tier : ℕ) (f : UInt64 → UInt64) :
    Option Handler :=
  if disk ∈ h.disks ∧ tier < h.freeSpaceTier.length then
    some { h with
      freeSpace := Function.update h.freeSpace disk { h.freeSpace disk with free := f (h.freeSpace disk).free }
      freeSpaceTier := h.freeSpaceTier.modify (fun info => { info with free := f info.free }) tier }
  else none

/-- The update of a `free` counter for `size` blocks: `fetch_add(size)` when deallocating,
`fetch_sub(size)` when allocating. -/
def freeUpdate (size : ℕ) : Action → UInt64 → UInt64
  | .deallocate => (· + UInt64.ofNat size)
  | .allocate => (· - UInt64.ofNat size)

/-- `Option<Generation>` in Rust's order, `None` below every `Some`. -/
def optionLt : Option ℕ → Option ℕ → Bool
  | none, some _ => true
  | some a, some b => a < b
  | _, none => false

section RootTree

variable {σ ε : Type} (insert : σ → RootKey → RootMsg → σ × Except ε Unit)

/-- `update_allocation_bitmap(offset, size, action)`: the counters are updated first, then the
two root-tree inserts run, each of which can fail. -/
def updateAllocationBitmap (g : Geometry) (h : Handler) (tree : σ) (offset : DiskOffset)
    (size : ℕ) (action : Action) : Option (Handler × σ × Except ε Unit) :=
  let h := { h with allocations := h.allocations + 1 }
  let key := RootKey.segment (SegmentId.get g offset)
  let diskKey := offset.classDiskId
  let msg := updateAllocationBitmapMsg g offset size action
  (h.updateFree diskKey offset.storageClass (freeUpdate size action)).map fun h =>
    match insert tree key msg with
    | (tree, .error e) => (h, tree, .error e)
    | (tree, .ok ()) =>
      let (tree, r) := insert tree (.spaceAccounting diskKey) (.storageInfo (h.freeSpace diskKey))
      (h, tree, r)

end RootTree

/-- `copy_on_write(offset, size, generation, dataset_id)`: free the range now when no snapshot
of the dataset is as recent as `generation`, and otherwise put it on the dead list. -/
def copyOnWrite (g : Geometry) (h : Handler) (offset : DiskOffset) (size generation datasetId : ℕ) :
    Option (CopyOnWriteEvent × Handler) :=
  if optionLt (h.lastSnapshotGeneration datasetId) (some generation) then
    let key := RootKey.segment (SegmentId.get g offset)
    let msg := updateAllocationBitmapMsg g offset size .deallocate
    (h.updateFree offset.classDiskId offset.storageClass (freeUpdate size .deallocate)).map fun h =>
      (.removed, { h with delayedMessages := h.delayedMessages ++
        [(key, msg), (.spaceAccounting offset.classDiskId,
          .storageInfo (h.freeSpace offset.classDiskId))] })
  else
    some (.preserved, { h with delayedMessages := h.delayedMessages ++
      [(.deadlist datasetId h.currentGeneration offset, .deadList generation size)] })

/-! ## `get_allocation_bitmap` -/

/-- `let mut bitmap = [0u8; SEGMENT_SIZE_BYTES]` with the current tree's value copied to its
front. -/
def readBitmap (g : Geometry) : Option (List UInt8) → List UInt8
  | some segment => segment ++ List.replicate (g.segmentSizeBytes - segment.length) 0
  | none => List.replicate g.segmentSizeBytes 0

/-- `for (w, old) in bitmap.iter_mut().zip(old_segment.iter()) { *w |= *old }`. -/
def orInto : List UInt8 → List UInt8 → List UInt8
  | w :: ws, o :: os => (w ||| o) :: orInto ws os
  | ws, [] => ws
  | [], _ :: _ => []

/-- The last step of `get_allocation_bitmap`: when the old root lies in segment `id`,
`allocator.allocate_at(size, SegmentId::get_block_offset(offset))`, its result ignored. -/
def markOldRoot (g : Geometry) (h : Handler) (id : SegmentId) (allocator : WorstFitList) :
    Option WorstFitList :=
  match h.oldRootAllocation with
  | some (offset, size) =>
    if SegmentId.get g offset = id then
      (WorstFitList.allocateAt g allocator size (SegmentId.getBlockOffset g offset)).map Prod.snd
    else some allocator
  | none => some allocator

/-- `get_allocation_bitmap(id)`, given what the current root tree's `get` and, when there is
a snapshot tree, the snapshot's `get` return for the segment's key. -/
def getAllocationBitmap {ε : Type} (g : Geometry) (h : Handler) (id : SegmentId)
    (current : Except ε (Option (List UInt8))) (snapshot : Option (Except ε (Option (List UInt8)))) :
    Option (Except ε WorstFitList) :=
  match current with
  | .error e => some (.error e)
  | .ok segment =>
    if segment.any (fun segment => g.segmentSizeBytes < segment.length) then none
    else
      let bitmap := readBitmap g segment
      let merged : Except ε (List UInt8) := match snapshot with
        | some (.error e) => .error e
        | some (.ok (some old)) => .ok (orInto bitmap old)
        | some (.ok none) | none => .ok bitmap
      match merged with
      | .error e => some (.error e)
      | .ok bitmap => (markOldRoot g h id (WorstFitList.new g bitmap)).map .ok

end Handler

end Betree
