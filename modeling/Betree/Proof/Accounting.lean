import Betree.Spec.Handler
import Mathlib.Algebra.BigOperators.Group.List
import Mathlib.Tactic.Abel

/-!
# Free-space accounting and snapshot pinning

`update_allocation_bitmap` and `copy_on_write` each move a disk's `free` counter and its
tier's by the same amount, on two separate code paths.

* `TierSums h`: each tier's counter is the `u64` sum of the counters of its disks.
* `updateFree_spec`: one counter update keeps `TierSums` and moves only the disk's counter.
* `Call.run_spec`, `runCalls_spec`: every successful call, and so every run of them, keeps
  `TierSums` and moves each disk's counter by what its calls free minus what they allocate.
* `copyOnWrite_spec`: `copy_on_write` frees the range exactly when the dataset has no
  snapshot as recent as the range's generation; otherwise it touches no counter and queues
  one dead-list insert, and no bitmap message.
* `runCalls_keeps_accounting`: **the accounting law over every run of successful calls.**
* `updateAllocationBitmap_keeps_updates_on_error`: the counters move before the two root-tree
  inserts, whatever these return, and are never restored; the call fails exactly when an
  insert does. So **a failed call keeps its counter updates**, and its bitmap message when
  only the second insert fails; a retry moves the counters twice
  (`updateAllocationBitmap_error_moves_counters` on one disk).
-/

namespace Betree.Handler

open UInt64

/-- Each tier's `free` counter is the `u64` sum of the `free` counters of its disks. -/
def TierSums (h : Handler) : Prop :=
  ∀ t info, h.freeSpaceTier[t]? = some info →
    info.free = ((h.disks.filter (·.storageClass = t)).map fun d => (h.freeSpace d).free).sum

/-- Replacing one disk's counter moves the sum over a list holding it once by the change. -/
theorem sum_map_update_free {l : List GlobalDiskId} (hl : l.Nodup) (S : GlobalDiskId → StorageInfo)
    (d : GlobalDiskId) (x : UInt64) :
    (l.map fun e => (Function.update S d { S d with free := x } e).free).sum =
      (l.map fun e => (S e).free).sum + if d ∈ l then x - (S d).free else 0 := by
  induction l with
  | nil => simp
  | cons e l ih =>
    rw [List.nodup_cons] at hl
    simp only [List.map_cons, List.sum_cons, ih hl.2, List.mem_cons]
    by_cases he : e = d
    · subst he
      simp only [Function.update_same, if_pos hl.1, true_or, if_true, if_neg hl.1]
      abel
    · rw [Function.update_noteq he]
      by_cases hd : d ∈ l
      · simp only [hd, or_true, if_true]; abel
      · simp only [hd, or_false, if_neg (Ne.symm he), if_false, add_zero]

/-- What one counter update does. -/
theorem updateFree_spec {h h' : Handler} {disk : GlobalDiskId} {f : UInt64 → UInt64} {δ : UInt64}
    (hf : ∀ a, f a = a + δ) (hu : h.updateFree disk disk.storageClass f = some h')
    (hs : TierSums h) :
    TierSums h' ∧ h'.disks = h.disks ∧ h'.lastSnapshotGeneration = h.lastSnapshotGeneration ∧
      h'.delayedMessages = h.delayedMessages ∧ h'.currentGeneration = h.currentGeneration ∧
      ∀ d, (h'.freeSpace d).free = (h.freeSpace d).free + if d = disk then δ else 0 := by
  unfold updateFree at hu
  split_ifs at hu with hd
  cases hu
  refine ⟨fun t info ht => ?_, rfl, rfl, rfl, rfl, fun d => ?_⟩
  · simp only [List.getElem?_modify] at ht
    obtain ⟨info0, h0, rfl⟩ := Option.map_eq_some'.1 ht
    have hsum := hs t info0 h0
    simp only [sum_map_update_free (h.disks_nodup.filter _), List.mem_filter, hd.1, true_and,
      decide_eq_true_eq]
    split_ifs with h1
    · simp only [hf, hsum]; subst h1; abel
    · simp only [hsum, add_zero]
  · by_cases h1 : d = disk
    · subst h1; simp [hf]
    · simp [Function.update_noteq h1, h1]

/-- One counter update applies `f` to the disk's counter. -/
theorem updateFree_disk {h h' : Handler} {disk : GlobalDiskId} {tier : ℕ} {f : UInt64 → UInt64}
    (hu : h.updateFree disk tier f = some h') : (h'.freeSpace disk).free = f (h.freeSpace disk).free := by
  unfold updateFree at hu
  split_ifs at hu
  cases hu
  simp

/-- One counter update applies `f` to the tier's counter. -/
theorem updateFree_tier {h h' : Handler} {disk : GlobalDiskId} {tier : ℕ} {f : UInt64 → UInt64}
    (hu : h.updateFree disk tier f = some h') :
    h'.freeSpaceTier[tier]?.map StorageInfo.free = h.freeSpaceTier[tier]?.map (f ·.free) := by
  unfold updateFree at hu
  split_ifs at hu
  cases hu
  rw [List.getElem?_modify_eq]
  cases h.freeSpaceTier[tier]? <;> rfl

/-- The change an action makes to a `free` counter. -/
def actionDelta (size : ℕ) : Action → UInt64
  | .deallocate => UInt64.ofNat size
  | .allocate => -UInt64.ofNat size

theorem freeUpdate_eq (size : ℕ) (action : Action) (a : UInt64) :
    freeUpdate size action a = a + actionDelta size action := by
  cases action
  · simp only [freeUpdate, actionDelta]; abel
  · rfl

/-! ## Runs of calls -/

/-- A call on the handler. -/
inductive Call
  | updateAllocationBitmap (offset : DiskOffset) (size : ℕ) (action : Action)
  | copyOnWrite (offset : DiskOffset) (size generation datasetId : ℕ)

/-- Dataset `ds` has no snapshot as recent as `generation`. -/
def Unpinned (snapshots : ℕ → Option ℕ) (ds generation : ℕ) : Prop :=
  ∀ s ∈ snapshots ds, s < generation

instance (snapshots : ℕ → Option ℕ) (ds generation : ℕ) :
    Decidable (Unpinned snapshots ds generation) :=
  inferInstanceAs (Decidable (∀ s ∈ snapshots ds, s < generation))

theorem optionLt_iff {snapshot : Option ℕ} {generation : ℕ} :
    optionLt snapshot (some generation) = true ↔ ∀ s ∈ snapshot, s < generation := by
  cases snapshot <;> simp [optionLt]

/-- What a successful call adds to the `free` counter of disk `d`: the change of an
allocation or a deallocation on it, and the size of a range `copy_on_write` frees on it. -/
def Call.freeDelta (snapshots : ℕ → Option ℕ) (d : GlobalDiskId) : Call → UInt64
  | .updateAllocationBitmap offset size action =>
    if offset.classDiskId = d then actionDelta size action else 0
  | .copyOnWrite offset size generation ds =>
    if offset.classDiskId = d ∧ Unpinned snapshots ds generation then UInt64.ofNat size else 0

/-- What `copy_on_write` can do: free the range when the dataset is unpinned, and otherwise
queue exactly one dead-list insert. -/
theorem copyOnWrite_cases {g : Geometry} {h h' : Handler} {offset : DiskOffset}
    {size generation ds : ℕ} {ev : CopyOnWriteEvent}
    (hc : copyOnWrite g h offset size generation ds = some (ev, h')) :
    (ev = .removed ∧ Unpinned h.lastSnapshotGeneration ds generation ∧ ∃ h0,
      h.updateFree offset.classDiskId offset.storageClass (freeUpdate size .deallocate) = some h0 ∧
      h' = { h0 with delayedMessages := h0.delayedMessages ++
        [(.segment (SegmentId.get g offset), updateAllocationBitmapMsg g offset size .deallocate),
          (.spaceAccounting offset.classDiskId, .storageInfo (h0.freeSpace offset.classDiskId))] }) ∨
    (ev = .preserved ∧ ¬ Unpinned h.lastSnapshotGeneration ds generation ∧
      h' = { h with delayedMessages := h.delayedMessages ++
        [(.deadlist ds h.currentGeneration offset, .deadList generation size)] }) := by
  unfold copyOnWrite at hc
  split_ifs at hc with hlt
  · obtain ⟨h0, hu, he⟩ := Option.map_eq_some'.1 hc
    cases he
    exact .inl ⟨rfl, optionLt_iff.1 hlt, h0, hu, rfl⟩
  · cases hc
    exact .inr ⟨rfl, fun hu => hlt (optionLt_iff.2 hu), rfl⟩

section Run

variable {σ ε : Type} (insert : σ → RootKey → RootMsg → σ × Except ε Unit) (g : Geometry)

/-- The state after a call that succeeds: `none` when it panics or returns an error. -/
def Call.run (h : Handler) (tree : σ) : Call → Option (Handler × σ)
  | .updateAllocationBitmap offset size action =>
    match Handler.updateAllocationBitmap insert g h tree offset size action with
    | some (h, tree, .ok ()) => some (h, tree)
    | _ => none
  | .copyOnWrite offset size generation ds =>
    (Handler.copyOnWrite g h offset size generation ds).map fun r => (r.2, tree)

/-- Calls run one after another while they succeed. -/
def runCalls : Handler → σ → List Call → Option (Handler × σ)
  | h, tree, [] => some (h, tree)
  | h, tree, c :: cs => (c.run insert g h tree).bind fun r => runCalls r.1 r.2 cs

variable {insert g}

/-- Whatever the inserts return, `update_allocation_bitmap` has updated the counters. -/
theorem updateAllocationBitmap_handler {h h' : Handler} {tree tree' : σ} {offset : DiskOffset}
    {size : ℕ} {action : Action} {r : Except ε Unit}
    (hu : updateAllocationBitmap insert g h tree offset size action = some (h', tree', r)) :
    { h with allocations := h.allocations + 1 }.updateFree offset.classDiskId offset.storageClass
      (freeUpdate size action) = some h' := by
  obtain ⟨h0, h1, h2⟩ := Option.map_eq_some'.1 hu
  split at h2 <;> cases h2 <;> exact h1

/-- **What `update_allocation_bitmap` does**, whatever the inserts return: the counters are
updated first; the call fails with the first insert's error, with the tree that insert left,
or else returns what the second insert, of the updated disk counter, returns, with the tree it
leaves. -/
theorem updateAllocationBitmap_cases {h h' : Handler} {tree tree' : σ} {offset : DiskOffset}
    {size : ℕ} {action : Action} {r : Except ε Unit}
    (hu : updateAllocationBitmap insert g h tree offset size action = some (h', tree', r)) :
    let first := insert tree (.segment (SegmentId.get g offset)) (updateAllocationBitmapMsg g offset size action)
    let second := insert first.1 (.spaceAccounting offset.classDiskId)
      (.storageInfo (h'.freeSpace offset.classDiskId))
    { h with allocations := h.allocations + 1 }.updateFree offset.classDiskId offset.storageClass
      (freeUpdate size action) = some h' ∧
    ((∃ e, first.2 = .error e ∧ r = .error e ∧ tree' = first.1) ∨
      first.2 = .ok () ∧ r = second.2 ∧ tree' = second.1) := by
  obtain ⟨h0, h1, h2⟩ := Option.map_eq_some'.1 hu
  refine ⟨updateAllocationBitmap_handler hu, ?_⟩
  split at h2 <;> rename_i t0 r0 heq <;> simp only [Prod.mk.injEq] at h2
  · exact .inl ⟨r0, by rw [heq], h2.2.2.symm, by rw [heq, h2.2.1]⟩
  · obtain ⟨rfl, h2⟩ := h2
    exact .inr ⟨by rw [heq], by rw [heq]; exact h2.2.symm, by rw [heq]; exact h2.1.symm⟩

/-- Whatever the inserts return, a call moves its disk's and its tier's `free` counters by
the size. -/
theorem updateAllocationBitmap_counters {h h' : Handler} {tree tree' : σ} {offset : DiskOffset}
    {size : ℕ} {action : Action} {r : Except ε Unit}
    (hu : updateAllocationBitmap insert g h tree offset size action = some (h', tree', r)) :
    (h'.freeSpace offset.classDiskId).free =
        (h.freeSpace offset.classDiskId).free + actionDelta size action ∧
      h'.freeSpaceTier[offset.storageClass]?.map StorageInfo.free =
        (h.freeSpaceTier[offset.storageClass]?.map StorageInfo.free).map (· + actionDelta size action) := by
  have hf := updateAllocationBitmap_handler hu
  refine ⟨by rw [updateFree_disk hf, freeUpdate_eq], ?_⟩
  rw [updateFree_tier hf, Option.map_map]
  simp only [freeUpdate_eq]
  rfl

/-- **One successful call** keeps `TierSums` and moves each disk's counter by its
`freeDelta`. -/
theorem Call.run_spec {c : Call} {h h' : Handler} {tree tree' : σ} (hs : TierSums h)
    (hr : c.run insert g h tree = some (h', tree')) :
    TierSums h' ∧ h'.disks = h.disks ∧ h'.lastSnapshotGeneration = h.lastSnapshotGeneration ∧
      ∀ d, (h'.freeSpace d).free =
        (h.freeSpace d).free + c.freeDelta h.lastSnapshotGeneration d := by
  cases c with
  | updateAllocationBitmap offset size action =>
    simp only [Call.run] at hr
    split at hr
    · rename_i h1 tree1 h1eq
      cases hr
      obtain ⟨hs', hd, hl, -, -, hf⟩ := updateFree_spec (freeUpdate_eq size action)
        (updateAllocationBitmap_handler h1eq) hs
      refine ⟨hs', hd, hl, fun d => ?_⟩
      rw [hf d]; simp only [Call.freeDelta, eq_comm]
    · cases hr
  | copyOnWrite offset size generation ds =>
    obtain ⟨⟨ev, h1⟩, hc, he⟩ := Option.map_eq_some'.1 hr
    cases he
    rcases copyOnWrite_cases hc with ⟨-, hp, h0, hu, rfl⟩ | ⟨-, hp, rfl⟩
    · obtain ⟨hs', hd, hl, -, -, hf⟩ := updateFree_spec (freeUpdate_eq size .deallocate) hu hs
      refine ⟨hs', hd, hl, fun d => ?_⟩
      rw [hf d]; simp only [Call.freeDelta, eq_comm, hp, and_true, actionDelta]
    · exact ⟨hs, rfl, rfl, fun d => by simp [Call.freeDelta, hp]⟩

/-- **Every run of successful calls** keeps `TierSums`, and moves each disk's counter by
the sum of its calls' `freeDelta`. -/
theorem runCalls_spec : ∀ {calls : List Call} {h h' : Handler} {tree tree' : σ}, TierSums h →
    runCalls insert g h tree calls = some (h', tree') →
    TierSums h' ∧ h'.disks = h.disks ∧ h'.lastSnapshotGeneration = h.lastSnapshotGeneration ∧
      ∀ d, (h'.freeSpace d).free =
        (h.freeSpace d).free + (calls.map (Call.freeDelta h.lastSnapshotGeneration d)).sum
  | [], _, _, _, _, hs, hr => by cases hr; exact ⟨hs, rfl, rfl, fun d => by simp⟩
  | c :: cs, h, h', tree, tree', hs, hr => by
    obtain ⟨⟨h1, tree1⟩, h1eq, hr⟩ := Option.bind_eq_some.1 hr
    obtain ⟨hs1, hd1, hl1, hf1⟩ := Call.run_spec hs h1eq
    obtain ⟨hs2, hd2, hl2, hf2⟩ := runCalls_spec hs1 hr
    refine ⟨hs2, hd2.trans hd1, hl2.trans hl1, fun d => ?_⟩
    rw [hf2, hf1, hl1, List.map_cons, List.sum_cons, add_assoc]

/-- **`copy_on_write`'s decision**: it returns `Removed` exactly when the dataset has no
snapshot as recent as `generation`; a `Preserved` call leaves every counter as it was and
queues one dead-list insert, and nothing else. -/
theorem copyOnWrite_spec {h h' : Handler} {offset : DiskOffset} {size generation ds : ℕ}
    {ev : CopyOnWriteEvent} (hc : copyOnWrite g h offset size generation ds = some (ev, h')) :
    (ev = .removed ↔ Unpinned h.lastSnapshotGeneration ds generation) ∧
    (ev = .preserved → h'.freeSpace = h.freeSpace ∧ h'.freeSpaceTier = h.freeSpaceTier ∧
      h'.delayedMessages = h.delayedMessages ++
        [(.deadlist ds h.currentGeneration offset, .deadList generation size)]) := by
  rcases copyOnWrite_cases hc with ⟨rfl, hp, -⟩ | ⟨rfl, hp, rfl⟩
  · exact ⟨iff_of_true rfl hp, nofun⟩
  · exact ⟨iff_of_false nofun hp, fun _ => ⟨rfl, rfl, rfl⟩⟩

/-- **Free-space accounting over every run of successful calls**: the tier counters stay the
sums of their disks' counters, no snapshot generation changes, each disk's counter moves by
what the run frees on it minus what it allocates there, and every `copy_on_write` call
decides as `copyOnWrite_spec` says. -/
theorem runCalls_keeps_accounting {calls : List Call} {h h' : Handler} {tree tree' : σ}
    (hs : TierSums h) (hr : runCalls insert g h tree calls = some (h', tree')) :
    TierSums h' ∧ h'.lastSnapshotGeneration = h.lastSnapshotGeneration ∧
    (∀ d, (h'.freeSpace d).free =
      (h.freeSpace d).free + (calls.map (Call.freeDelta h.lastSnapshotGeneration d)).sum) ∧
    ∀ (h₁ h₂ : Handler) offset size generation ds ev,
      copyOnWrite g h₁ offset size generation ds = some (ev, h₂) →
      (ev = .removed ↔ Unpinned h₁.lastSnapshotGeneration ds generation) ∧
      (ev = .preserved → h₂.freeSpace = h₁.freeSpace ∧ h₂.freeSpaceTier = h₁.freeSpaceTier ∧
        h₂.delayedMessages = h₁.delayedMessages ++
          [(.deadlist ds h₁.currentGeneration offset, .deadList generation size)]) :=
  have hrun := runCalls_spec hs hr
  ⟨hrun.1, hrun.2.2.1, hrun.2.2.2, fun _ _ _ _ _ _ _ => copyOnWrite_spec⟩

/-- **A failed `update_allocation_bitmap` keeps its updates.** Whatever the two root-tree
inserts return, the call has moved its disk's and its tier's `free` counters by the size, and
the space-accounting insert writes the moved disk counter. The call fails exactly when an
insert fails: with the bitmap insert's error and the tree it left, or, once the bitmap message
is in, with what the space-accounting insert returns and the tree it leaves. A second call, as
a retry makes, moves both counters by the size once more. -/
theorem updateAllocationBitmap_keeps_updates_on_error {h h₁ : Handler} {tree tree₁ : σ}
    {offset : DiskOffset} {size : ℕ} {action : Action} {r : Except ε Unit}
    (hu : updateAllocationBitmap insert g h tree offset size action = some (h₁, tree₁, r)) :
    let first := insert tree (.segment (SegmentId.get g offset)) (updateAllocationBitmapMsg g offset size action)
    let second := insert first.1 (.spaceAccounting offset.classDiskId)
      (.storageInfo (h₁.freeSpace offset.classDiskId))
    (h₁.freeSpace offset.classDiskId).free =
        (h.freeSpace offset.classDiskId).free + actionDelta size action ∧
    h₁.freeSpaceTier[offset.storageClass]?.map StorageInfo.free =
        (h.freeSpaceTier[offset.storageClass]?.map StorageInfo.free).map (· + actionDelta size action) ∧
    ((∃ e, first.2 = .error e ∧ r = .error e ∧ tree₁ = first.1) ∨
      first.2 = .ok () ∧ r = second.2 ∧ tree₁ = second.1) ∧
    ∀ h₂ tree₂ r₂, updateAllocationBitmap insert g h₁ tree₁ offset size action = some (h₂, tree₂, r₂) →
      (h₂.freeSpace offset.classDiskId).free =
          (h.freeSpace offset.classDiskId).free + actionDelta size action + actionDelta size action ∧
      h₂.freeSpaceTier[offset.storageClass]?.map StorageInfo.free =
          (h.freeSpaceTier[offset.storageClass]?.map StorageInfo.free).map
            (· + actionDelta size action + actionDelta size action) := by
  obtain ⟨hd, ht⟩ := updateAllocationBitmap_counters hu
  refine ⟨hd, ht, (updateAllocationBitmap_cases hu).2, fun h₂ tree₂ r₂ hu₂ => ?_⟩
  obtain ⟨hd₂, ht₂⟩ := updateAllocationBitmap_counters hu₂
  refine ⟨by rw [hd₂, hd], ?_⟩
  rw [ht₂, ht, Option.map_map]
  rfl

end Run

/-- One disk of tier 0 with 100 free blocks, and a snapshot of dataset 0 at generation 4. -/
def oneDisk : Handler where
  currentGeneration := 6
  disks := [⟨0, 0⟩]
  disks_nodup := List.nodup_singleton _
  freeSpace := fun _ => ⟨100, 100⟩
  freeSpaceTier := [⟨100, 100⟩]
  delayedMessages := []
  lastSnapshotGeneration := fun _ => some 4
  allocations := 0
  oldRootAllocation := none

/-- An allocation of 8 blocks, the release of a range born after the snapshot (freed now),
and of one born before it (put on the dead list). -/
def oneDiskCalls : List Call :=
  [.updateAllocationBitmap ⟨0, 0, 16⟩ 8 .allocate, .copyOnWrite ⟨0, 0, 16⟩ 8 5 0,
    .copyOnWrite ⟨0, 0, 32⟩ 4 2 0]

theorem runCalls_keeps_accounting_oneDisk :
    let run := runCalls (fun (t : Unit) _ _ => (t, (.ok () : Except Unit Unit))) Geometry.spec
      oneDisk () oneDiskCalls
    let after := (run.getD (oneDisk, ())).1
    TierSums oneDisk ∧ run = some (after, ()) ∧
    TierSums after ∧ after.lastSnapshotGeneration = oneDisk.lastSnapshotGeneration ∧
    (∀ d, (after.freeSpace d).free = (oneDisk.freeSpace d).free +
      (oneDiskCalls.map (Call.freeDelta oneDisk.lastSnapshotGeneration d)).sum) ∧
    ∀ (h₁ h₂ : Handler) offset size generation ds ev,
      copyOnWrite Geometry.spec h₁ offset size generation ds = some (ev, h₂) →
      (ev = .removed ↔ Unpinned h₁.lastSnapshotGeneration ds generation) ∧
      (ev = .preserved → h₂.freeSpace = h₁.freeSpace ∧ h₂.freeSpaceTier = h₁.freeSpaceTier ∧
        h₂.delayedMessages = h₁.delayedMessages ++
          [(.deadlist ds h₁.currentGeneration offset, .deadList generation size)]) :=
  have hs : TierSums oneDisk := fun t info ht => by
    match t, ht with
    | 0, ht => cases ht; rfl
  have hr : runCalls (fun (t : Unit) _ _ => (t, (.ok () : Except Unit Unit))) Geometry.spec
      oneDisk () oneDiskCalls = some (_, ()) := rfl
  ⟨hs, hr, runCalls_keeps_accounting hs hr⟩

/-- A root tree that records every insert, and fails to write a space-accounting entry. -/
def accountingFails (t : List (RootKey × RootMsg)) :
    RootKey → RootMsg → List (RootKey × RootMsg) × Except Unit Unit
  | .spaceAccounting _, _ => (t, .error ())
  | key, msg => (t ++ [(key, msg)], .ok ())

/-- Allocating 8 blocks on `oneDisk` when the space-accounting insert fails: the call returns
an error, yet the disk's and the tier's counters have dropped from 100 to 92 and the bitmap
message is in the tree. -/
theorem updateAllocationBitmap_error_moves_counters :
    (oneDisk.freeSpace ⟨0, 0⟩).free = 100 ∧ oneDisk.freeSpaceTier[0]?.map StorageInfo.free = some 100 ∧
    (updateAllocationBitmap accountingFails Geometry.spec oneDisk [] ⟨0, 0, 16⟩ 8 .allocate).map
        (fun r => ((r.1.freeSpace ⟨0, 0⟩).free, r.1.freeSpaceTier[0]?.map StorageInfo.free, r.2)) =
      some (92, some 92, [(.segment ⟨⟨0, 0, 0⟩⟩, .upsertBits 16 8 true)], .error ()) :=
  ⟨rfl, rfl, rfl⟩

theorem updateAllocationBitmap_keeps_updates_on_error_oneDisk :
    let r := updateAllocationBitmap accountingFails Geometry.spec oneDisk [] ⟨0, 0, 16⟩ 8 .allocate
    let h₁ := (r.getD (oneDisk, [], .ok ())).1
    let tree₁ := (r.getD (oneDisk, [], .ok ())).2.1
    let first := accountingFails [] (.segment (SegmentId.get Geometry.spec ⟨0, 0, 16⟩))
      (updateAllocationBitmapMsg Geometry.spec ⟨0, 0, 16⟩ 8 .allocate)
    let second := accountingFails first.1 (.spaceAccounting ⟨0, 0⟩) (.storageInfo (h₁.freeSpace ⟨0, 0⟩))
    r = some (h₁, tree₁, .error ()) ∧
    (h₁.freeSpace ⟨0, 0⟩).free = (oneDisk.freeSpace ⟨0, 0⟩).free + actionDelta 8 .allocate ∧
    h₁.freeSpaceTier[0]?.map StorageInfo.free =
        (oneDisk.freeSpaceTier[0]?.map StorageInfo.free).map (· + actionDelta 8 .allocate) ∧
    ((∃ e, first.2 = .error e ∧ (.error () : Except Unit Unit) = .error e ∧ tree₁ = first.1) ∨
      first.2 = .ok () ∧ (.error () : Except Unit Unit) = second.2 ∧ tree₁ = second.1) ∧
    ∀ h₂ tree₂ r₂, updateAllocationBitmap accountingFails Geometry.spec h₁ tree₁ ⟨0, 0, 16⟩ 8
        .allocate = some (h₂, tree₂, r₂) →
      (h₂.freeSpace ⟨0, 0⟩).free =
          (oneDisk.freeSpace ⟨0, 0⟩).free + actionDelta 8 .allocate + actionDelta 8 .allocate ∧
      h₂.freeSpaceTier[0]?.map StorageInfo.free =
          (oneDisk.freeSpaceTier[0]?.map StorageInfo.free).map
            (· + actionDelta 8 .allocate + actionDelta 8 .allocate) :=
  have hr : updateAllocationBitmap accountingFails Geometry.spec oneDisk [] ⟨0, 0, 16⟩ 8 .allocate =
      some (_, _, .error ()) := rfl
  ⟨hr, updateAllocationBitmap_keeps_updates_on_error hr⟩

end Betree.Handler
