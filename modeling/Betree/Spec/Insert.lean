import Betree.Spec.Flush

/-!
# The write path

`tree/imp/mod.rs`: `insert(key, msg, pref)` refuses an empty key, walks down from the root
through the child buffers for `key` as long as the child is in the cache (`try_get_mut_node`,
which never fetches), inserts the message at the node where it stops and gives that node the
added size. It panics (`unimplemented!`) when that node is the root and needs a merge; else
it hands the node, and the child buffer that led to it, to the rebalancing, and evicts.

`insert` hands them to `fixup_foo`, which is not under `src/`: the model runs
`rebalance_tree` there, as the spec has it. The nodes and the cache are those of
`Betree.Flush`, and the operations `insert` calls on them are parameters (`InsertOps`).
-/

namespace Betree.Tree

open Flush

/-- The operations `insert` calls besides the rebalancing, on node pointers `ι`, node
contents `N`, messages `μ` (with the storage preference) and errors `ε`.
`get_mut_root_node` and `try_get_mut_node` (`tree/imp/mod.rs`) go through the DML's
`try_get_mut` and `get_mut`, which are not under `src/`: of them the model keeps the root, or
the error of fetching it, and whether the child is in the cache. Modelled from the spec, as
`node.rs` and the DML are not under `src/`: `try_walk(key)` (the pointer of the child buffer
for `key`, `None` in a leaf), `node.insert(key, msg, ..)` (the node after, the added size),
`root_needs_merge`, `dml.evict()`, and the error `EmptyKey`. -/
structure InsertOps (ι N μ ε : Type) where
  getMutRootNode : Cache ι N → Except ε ι
  tryWalk : N → List UInt8 → Option ι
  tryGetMutNode : Cache ι N → ι → Bool
  insert : N → List UInt8 → μ → N × ℤ
  rootNeedsMerge : N → Bool
  evict : Cache ι N → Except ε Unit
  emptyKey : ε

variable {ι N κ β μ ε : Type} [DecidableEq ι] (iops : InsertOps ι N μ ε)

/-- The descent of `insert` from `node`: into the child for `key` while it is in the cache.
The node it stops at and the child buffer that led there; `none` when the fuel runs out. -/
def descend (c : Cache ι N) (key : List UInt8) :
    ℕ → ι → Option (ι × ι) → Option (ι × Option (ι × ι))
  | 0, _, _ => none
  | fuel + 1, node, parent =>
    match iops.tryWalk (c.content node) key with
    | none => some (node, parent)
    | some slot =>
      if iops.tryGetMutNode c slot then descend c key fuel slot (some (node, slot))
      else some (node, parent)

/-- Where `insert` leaves the message: the cache once it has landed and its node has been
given the added size, with the node and the child buffer handed on. -/
def land (c : Cache ι N) (root : ι) (key : List UInt8) (msg : μ) (fuel : ℕ) :
    Option (Loop ι N) :=
  (descend iops c key fuel root none).map fun (node, parent) =>
    let (nodeAfter, addedSize) := iops.insert (c.content node) key msg
    ⟨(c.write node nodeAfter).addSize node addedSize, node, parent⟩

/-- `insert(key, msg, pref)` on a tree whose `evict` flag is `evict`, rebalancing with
`rops`: the cache it leaves and what it returns; `none` when it panics or the fuel runs
out. -/
def insert (rops : RebalanceOps ι N κ β ε) (evict : Bool) (c : Cache ι N) (key : List UInt8)
    (msg : μ) (fuel : ℕ) : Option (Cache ι N × Except ε Unit) :=
  if key.isEmpty then some (c, .error iops.emptyKey)
  else match iops.getMutRootNode c with
  | .error e => some (c, .error e)
  | .ok root => (land iops c root key msg fuel).bind fun st =>
    if st.parent.isNone && iops.rootNeedsMerge (st.cache.content st.node) then none
    else (rebalanceTree rops fuel st).map fun (c, r) =>
      match r with
      | .error e => (c, .error e)
      | .ok () => (c, if evict then iops.evict c else .ok ())

end Betree.Tree
