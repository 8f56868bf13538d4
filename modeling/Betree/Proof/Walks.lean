import Betree.Spec.Tree

/-!
# What the tree's walks return

The read path:

* `get_some`: when the leaf holds an entry, `get` returns the fold of the path's messages
  into it, or panics when that fold removes the value;
* `get_none`: when the leaf holds no entry, `get` returns `None` whatever the path buffers;
* `get_misses_pending_messages`: so a pending insert above an empty leaf is not read, and a
  pending delete above an entry panics.

The node iterator: `next` expands a node only when it pops it with the node itself, and it
pushes a child with its node only when `n.level() < depth - 1`. Since `depth - 1` is the
root's level, that test fails for the root already:

* `pushChildren_root`: the root's unmodified children are pushed without their nodes, and
  nothing is fetched;
* `drain_pointers`: entries pushed without nodes are yielded one by one, in order;
* `nodeIter_yields_root_children`: **`node_iter` yields exactly the root's unmodified
  children and fetches nothing**, for every tree; right for a tree of depth 2, it skips
  every node below the root's children on a deeper one (`nodeIter_skips_grandchildren`).
-/

namespace Betree.Tree

/-! ## `get` -/

section Get

variable {κ ι μ ν : Type} (apply : κ → μ → Option ν → Option ν) (key : κ)

theorem foldl_reverse_eq_foldMessages (msgs : List (ι × μ)) (value : Option ν) :
    msgs.reverse.foldl (fun tmp m => apply key m.2 tmp) value = foldMessages apply key msgs value := by
  rw [List.foldl_reverse]; rfl

/-- **A read over a leaf entry** returns the fold of the path's messages into it, and panics
when the fold removes the value. -/
theorem get_some (msgs : List (ι × μ)) (info : ι) (value : ν) :
    get apply key msgs (some (info, value)) =
      match foldMessages apply key msgs (some value) with
      | some r => some (some r)
      | none => none := by
  cases h : foldMessages apply key msgs (some value) <;>
    simp only [get, getWithInfo, foldl_reverse_eq_foldMessages, h] <;> rfl

/-- **A read over no leaf entry** returns `None`, whatever the path buffers. -/
theorem get_none (msgs : List (ι × μ)) : get apply key msgs (none : Option (ι × ν)) = some none :=
  rfl

/-- **Pending messages are lost or panic.** With one insert buffered above a leaf without the
key, `get` returns `None` where the fold gives the inserted value; with one delete buffered
above a leaf entry, `get` panics where the fold gives `None`. -/
theorem get_misses_pending_messages :
    get DefaultMsg.apply [(1 : UInt8)] [((), DefaultMsg.insert [(7 : UInt8)])] none = some none ∧
      foldMessages DefaultMsg.apply [(1 : UInt8)] [((), DefaultMsg.insert [(7 : UInt8)])] none =
        some [7] ∧
    get DefaultMsg.apply [(1 : UInt8)] [((), DefaultMsg.delete)] (some ((), [(5 : UInt8)])) = none ∧
      foldMessages DefaultMsg.apply [(1 : UInt8)] [((), (DefaultMsg.delete : DefaultMsg (List UInt8)))]
        (some [5]) = none :=
  ⟨rfl, rfl, rfl, rfl⟩

end Get

/-! ## `node_iter` -/

section NodeIter

variable {π : Type} (fetch : π → Option (Node π))

/-- The root's unmodified children are pushed without their nodes, and nothing is fetched. -/
theorem pushChildren_root (root : Node π) :
    pushChildren fetch (depth root) root = (root.unmodified.map fun ptr => (some ptr, none), []) := by
  unfold pushChildren Node.unmodified depth
  split <;> rename_i h
  · simp [h]
  · simp only [h, Option.getD_some, Nat.add_sub_cancel, ge_iff_le, le_refl, if_true,
      not_true_eq_false, decide_False, List.filter_false, Prod.mk.injEq, and_true]
    exact congrFun (List.filterMap_eq_map _) _

/-- **Entries without nodes are yielded in order**, given a call of `next` for each and one
for the final `None`. -/
theorem drain_pointers (depth : ℕ) :
    ∀ (ptrs : List π) (fuel : ℕ), ptrs.length < fuel →
      TreeIterator.drain fetch depth fuel (ptrs.map fun ptr => (some ptr, none)) = (ptrs, [])
  | [], fuel + 1, _ => by simp [TreeIterator.drain, TreeIterator.next]
  | ptr :: ptrs, fuel + 1, h => by
    simp only [List.map_cons, TreeIterator.drain, TreeIterator.next, List.nil_append,
      drain_pointers depth ptrs fuel (by simp at h; omega)]

/-- **`node_iter` yields the root's unmodified children, and only them**, in order, and
fetches no node: whatever the tree's depth and whatever the fetches would return. -/
theorem nodeIter_yields_root_children (root : Node π) (fuel : ℕ)
    (hfuel : root.unmodified.length < fuel) :
    TreeIterator.drain fetch (nodeIter root).depth fuel (nodeIter root).node = (root.unmodified, []) := by
  obtain ⟨fuel, rfl⟩ : ∃ f, fuel = f + 1 := ⟨fuel - 1, by omega⟩
  simp only [nodeIter, TreeIterator.drain, TreeIterator.next, List.nil_append, pushChildren_root]
  rcases h : root.unmodified with _ | ⟨ptr, ptrs⟩
  · simp [TreeIterator.next]
  · rw [h] at hfuel
    simp only [List.map_cons, TreeIterator.next, List.nil_append,
      drain_pointers fetch _ ptrs fuel (by simp at hfuel; omega)]

/-- A tree of depth 3: the root (level 2) over node `1` (level 1) over the leaf `2`. -/
def chainRoot : Node ℕ := ⟨2, some [some 1]⟩

/-- The nodes of `chainRoot` below the root, by pointer. -/
def chainFetch : ℕ → Option (Node ℕ)
  | 1 => some ⟨1, some [some 2]⟩
  | 2 => some ⟨0, none⟩
  | _ => none

/-- **Nodes below the root's children are skipped.** On a tree of depth 3 with every
reference unmodified and every fetch succeeding, `node_iter` yields node `1` and never the
leaf `2`, and fetches nothing. -/
theorem nodeIter_skips_grandchildren (fuel : ℕ) :
    TreeIterator.drain chainFetch (nodeIter chainRoot).depth (fuel + 2) (nodeIter chainRoot).node =
      ([1], []) :=
  nodeIter_yields_root_children chainFetch chainRoot (fuel + 2) (by simp [chainRoot, Node.unmodified])

end NodeIter

end Betree.Tree
