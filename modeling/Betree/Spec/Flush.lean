import Mathlib.Logic.Function.Basic
import Mathlib.Data.Int.Defs

/-!
# `rebalance_tree`

`tree/imp/flush.rs`: `rebalance_tree(node, parent)` flushes, splits and merges on the path
down from `node` until no node on it is too large. Step 3 of an iteration merges an internal
child of too low fanout with a sibling, and step 6 rebalances or merges a leaf left too small
by a flush with a sibling. Every step that changes a node passes a size delta to the cache
through `add_size`.

The nodes (`node.rs`, `internal.rs`, `child_buffer.rs`, `split.rs`) are not under `src/`. A
node's content is of any type `N`, and the node operations the loop calls are parameters
(`MergeOps`, `RebalanceOps`), each returning the contents it leaves and the size delta the
code passes on. The cache holds each node's content and its recorded size; `add_size(delta)`
on a node, or on a `Ref` owning it, adds `delta` to that node's recorded size. A `Ref` to a
child buffer is the node owning it and the pointer the buffer was selected for. A failed
`split_node` or `get_mut_node` is taken to leave the cache as it was. The loop has no bound of
its own, so the model runs on fuel.
-/

namespace Betree.Flush

/-- `FillUpResult` (`tree/imp/mod.rs`), what `leaf_rebalance` did; the pivot of
`Rebalanced` is of the key type `κ` in place of `CowBytes`. -/
inductive FillUpResult (κ : Type)
  | merged
  | rebalanced (pivot : κ)

/-- Modelled from the spec: the node operations steps 3 and 6 call, on node contents `N`,
node pointers `ι` and pivot keys `κ`. -/
structure MergeOps (ι N κ : Type) where
  /-- `child_buffer.prepare_merge()` on the parent for its child: `sibling_node_pointer()` and
  `is_right_sibling()`. -/
  prepareMerge : N → ι → ι × Bool
  /-- `merge_children()`: the parent after, the pivot taken out, `old_np`, the size delta. -/
  mergeChildren : N → ι → N × κ × ι × ℤ
  /-- `rebalanced(pivot)`: the parent after, the size delta. -/
  rebalanced : N → ι → κ → N × ℤ
  /-- `self.merge(other, pivot)`: `self` and `other` after, the size delta. -/
  merge : N → N → κ → N × N × ℤ
  /-- `self.leaf_rebalance(other)`: `self` and `other` after, and what was done. -/
  leafRebalance : N → N → N × N × FillUpResult κ

/-- The cache: each node's content and recorded size, and the pointers `dml.remove` was
called on. -/
structure Cache (ι N : Type) where
  content : ι → N
  recorded : ι → ℤ
  removed : List ι

variable {ι N κ : Type}

namespace Cache

/-- `dml.remove(np)`. -/
def remove (c : Cache ι N) (i : ι) : Cache ι N := { c with removed := c.removed ++ [i] }

@[simp] theorem remove_content (c : Cache ι N) (i : ι) : (c.remove i).content = c.content := rfl

@[simp] theorem remove_recorded (c : Cache ι N) (i : ι) : (c.remove i).recorded = c.recorded :=
  rfl

@[simp] theorem remove_removed (c : Cache ι N) (i : ι) : (c.remove i).removed = c.removed ++ [i] :=
  rfl

variable [DecidableEq ι]

/-- A node's content after a mutation through `get_mut_node`. -/
def write (c : Cache ι N) (i : ι) (n : N) : Cache ι N :=
  { c with content := Function.update c.content i n }

/-- `add_size(delta)` on node `i`. -/
def addSize (c : Cache ι N) (i : ι) (delta : ℤ) : Cache ι N :=
  { c with recorded := Function.update c.recorded i (c.recorded i + delta) }

@[simp] theorem write_content (c : Cache ι N) (i j : ι) (n : N) :
    (c.write i n).content j = if j = i then n else c.content j := Function.update_apply ..

@[simp] theorem write_recorded (c : Cache ι N) (i : ι) (n : N) :
    (c.write i n).recorded = c.recorded := rfl

@[simp] theorem write_removed (c : Cache ι N) (i : ι) (n : N) :
    (c.write i n).removed = c.removed := rfl

@[simp] theorem addSize_content (c : Cache ι N) (i : ι) (delta : ℤ) :
    (c.addSize i delta).content = c.content := rfl

@[simp] theorem addSize_recorded (c : Cache ι N) (i j : ι) (delta : ℤ) :
    (c.addSize i delta).recorded j = if j = i then c.recorded i + delta else c.recorded j :=
  Function.update_apply ..

@[simp] theorem addSize_removed (c : Cache ι N) (i : ι) (delta : ℤ) :
    (c.addSize i delta).removed = c.removed := rfl

end Cache

variable [DecidableEq ι] (ops : MergeOps ι N κ)

/-- Step 3 of `rebalance_tree`, for the child `child` of `parent`: the parent's buffers are
merged (`merge_children`), then the child takes in its right sibling, or its left sibling
takes in the child; `child.add_size` is given the merge's delta in both branches, `old_np`
is removed, and the parent is given `merge_children`'s delta. -/
def childMerge (c : Cache ι N) (parent child : ι) : Cache ι N :=
  let (sibling, isRightSibling) := ops.prepareMerge (c.content parent) child
  let (parentNode, pivot, oldNp, sizeDelta) := ops.mergeChildren (c.content parent) child
  let c := c.write parent parentNode
  let c :=
    if isRightSibling then
      let (childNode, siblingNode, delta) := ops.merge (c.content child) (c.content sibling) pivot
      ((c.write child childNode).write sibling siblingNode).addSize child delta
    else
      let (siblingNode, childNode, delta) := ops.merge (c.content sibling) (c.content child) pivot
      ((c.write sibling siblingNode).write child childNode).addSize child delta
  (c.remove oldNp).addSize parent sizeDelta

/-- Step 6 of `rebalance_tree`, for the leaf `child` of `parent`: the child and its sibling
are rebalanced or merged by `leaf_rebalance`, from the left one; the parent then merges its
buffers or takes the new pivot, and is given the delta. Neither leaf is given one. -/
def leafMerge (c : Cache ι N) (parent child : ι) : Cache ι N :=
  let (sibling, isRightSibling) := ops.prepareMerge (c.content parent) child
  let (c, result) :=
    if isRightSibling then
      let (childNode, siblingNode, result) := ops.leafRebalance (c.content child) (c.content sibling)
      ((c.write child childNode).write sibling siblingNode, result)
    else
      let (siblingNode, childNode, result) := ops.leafRebalance (c.content sibling) (c.content child)
      ((c.write sibling siblingNode).write child childNode, result)
  let (parentNode, sizeDelta) :=
    match result with
    | .merged =>
      let (parentNode, _, _, sizeDelta) := ops.mergeChildren (c.content parent) child
      (parentNode, sizeDelta)
    | .rebalanced pivot => ops.rebalanced (c.content parent) child pivot
  (c.write parent parentNode).addSize parent sizeDelta

/-! ## The loop -/

/-- `MAX_INTERNAL_NODE_SIZE`. -/
def maxInternalNodeSize : ℕ := 4 * 1024 * 1024

/-- The other operations `rebalance_tree` calls, with message buffers `β` and errors `ε`.
Modelled from the spec, as `node.rs` and `split.rs` are not under `src/`: the size tests of a
node, `Size::size`, `try_find_flush_candidate` (the pointer of the child buffer it selects),
`take_buffer` (the node after, the buffer, the size delta), `insert_msg_buffer` (the node
after, the size delta), `split_root_node`, and `split_node` under a child buffer (the cache
after, `next_node`, the size delta for the buffer's owner). `get_mut_node`
(`tree/imp/mod.rs`) fetches through the DML's `try_get_mut` and `get_mut`, which are not under
`src/`: of it only whether the fetch fails is kept. -/
structure RebalanceOps (ι N κ β ε : Type) extends MergeOps ι N κ where
  isTooLarge : N → Bool
  isLeaf : N → Bool
  hasTooLowFanout : N → Bool
  isTooSmallLeaf : N → Bool
  isTooLargeLeaf : N → Bool
  size : N → ℕ
  tryFindFlushCandidate : N → Option ι
  takeBuffer : N → ι → N × β × ℤ
  insertMsgBuffer : N → β → N × ℤ
  splitRootNode : Cache ι N → ι → Cache ι N
  splitNode : Cache ι N → ι → ι × ι → Except ε (Cache ι N × ι × ℤ)
  getMutNode : Cache ι N → ι → Except ε Unit

/-- What the loop carries: the cache, `node`, and `parent`, the `Ref` to the child buffer
that led to `node`. -/
structure Loop (ι N : Type) where
  cache : Cache ι N
  node : ι
  parent : Option (ι × ι)

/-- How an iteration ends: the function returns, leaving the cache as it is, or the loop
goes on. -/
inductive Next (ι N ε : Type)
  | ret (c : Cache ι N) (r : Except ε Unit)
  | next (st : Loop ι N)

variable {β ε : Type} (rops : RebalanceOps ι N κ β ε)

/-- Steps 4 and 5: the buffer for `child` is taken out of `node` and inserted into `child`,
and each is given its delta. -/
def flushBuffer (c : Cache ι N) (node child : ι) : Cache ι N :=
  let (nodeAfter, buffer, sizeDelta) := rops.takeBuffer (c.content node) child
  let c := (c.write node nodeAfter).addSize node sizeDelta
  let (childAfter, sizeDeltaChild) := rops.insertMsgBuffer (c.content child) buffer
  (c.write child childAfter).addSize child sizeDeltaChild

/-- Step 7, `while child.is_too_large_leaf()`: the child is split under the child buffer of
`node` selected for `slot`, and `node` is given the delta. Returns the cache and the last
child, or the error of a failed split; `none` when the fuel runs out. -/
def splitLeaves (node slot : ι) : ℕ → Cache ι N → ι → Option (Cache ι N × Except ε ι)
  | 0, _, _ => none
  | fuel + 1, c, child =>
    if rops.isTooLargeLeaf (c.content child) then
      match rops.splitNode c child (node, slot) with
      | .error e => some (c, .error e)
      | .ok (c, nextNode, sizeDelta) => splitLeaves node slot fuel (c.addSize node sizeDelta) nextNode
    else some (c, .ok child)

/-- One iteration of the loop of `rebalance_tree`, steps 1 to 9; `fuel` bounds step 7. -/
def iterate (fuel : ℕ) (st : Loop ι N) : Option (Next ι N ε) :=
  let c := st.cache
  let node := st.node
  if !rops.isTooLarge (c.content node) then some (.ret c (.ok ()))
  else match rops.tryFindFlushCandidate (c.content node) with
  | none => match st.parent with
    | none => some (.ret (rops.splitRootNode c node) (.ok ()))
    | some parent => match rops.splitNode c node parent with
      | .error e => some (.ret c (.error e))
      | .ok (c, nextNode, sizeDelta) => some (.next ⟨c.addSize parent.1 sizeDelta, nextNode, some parent⟩)
  | some slot => match rops.getMutNode c slot with
    | .error e => some (.ret c (.error e))
    | .ok () =>
      if !rops.isLeaf (c.content slot) && rops.isTooLarge (c.content slot) then
        some (.next ⟨c, slot, some (node, slot)⟩)
      else if rops.hasTooLowFanout (c.content slot) then
        match rops.getMutNode c (rops.prepareMerge (c.content node) slot).1 with
        | .error e => some (.ret c (.error e))
        | .ok () => some (.next ⟨childMerge rops.toMergeOps c node slot, node, st.parent⟩)
      else
        let c := flushBuffer rops c node slot
        let merged : Except ε (Cache ι N) :=
          if rops.isTooSmallLeaf (c.content slot) then
            match rops.getMutNode c (rops.prepareMerge (c.content node) slot).1 with
            | .error e => .error e
            | .ok () => .ok (leafMerge rops.toMergeOps c node slot)
          else .ok c
        match merged with
        | .error e => some (.ret c (.error e))
        | .ok c => (splitLeaves rops node slot fuel c slot).map fun
          | (c, .error e) => .ret c (.error e)
          | (c, .ok child) =>
            if rops.size (c.content node) > maxInternalNodeSize then .next ⟨c, node, st.parent⟩
            else .next ⟨c, child, some (node, slot)⟩

/-- `rebalance_tree(node, parent)`: the cache it leaves and what it returns; `none` when the
fuel runs out. -/
def rebalanceTree : ℕ → Loop ι N → Option (Cache ι N × Except ε Unit)
  | 0, _ => none
  | fuel + 1, st => match iterate rops fuel st with
    | none => none
    | some (.ret c r) => some (c, r)
    | some (.next st) => rebalanceTree fuel st

end Betree.Flush
