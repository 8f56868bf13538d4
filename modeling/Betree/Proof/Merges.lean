import Betree.Spec.Flush
import Mathlib.Algebra.Group.Int

/-!
# Size bookkeeping in the child merges

`SizeLaws`: each size delta the node operations return is the size change of the node it is
credited to, the law the code relies on when it passes them to `add_size`.

* `leafMerge_recorded`: step 6 leaves both leaves with their old recorded sizes, whatever
  `leaf_rebalance` does to them;
* `merges_leave_sizes_stale`: **with node 2 the left sibling of leaf 1, step 3 gives node 2 no
  delta and step 6 gives neither leaf one**, whatever the node operations do.
-/

namespace Betree.Flush

variable {ι N κ : Type} [DecidableEq ι]

/-- Each size delta the node operations return is the size change of the node it is
credited to: the receiving node for `merge`, the parent for `merge_children` and
`rebalanced`. -/
structure SizeLaws (size : N → ℕ) (ops : MergeOps ι N κ) : Prop where
  merge : ∀ a b pivot, (ops.merge a b pivot).2.2 = (size (ops.merge a b pivot).1 : ℤ) - size a
  mergeChildren : ∀ n i,
    (ops.mergeChildren n i).2.2.2 = (size (ops.mergeChildren n i).1 : ℤ) - size n
  rebalanced : ∀ n i pivot,
    (ops.rebalanced n i pivot).2 = (size (ops.rebalanced n i pivot).1 : ℤ) - size n

variable {ops : MergeOps ι N κ} {c : Cache ι N} {parent child sibling : ι}

/-! ## Step 6 -/

/-- Step 6 leaves the recorded sizes of both leaves as they were. -/
theorem leafMerge_recorded (h : (ops.prepareMerge (c.content parent) child).1 = sibling)
    (hcp : child ≠ parent) (hsp : sibling ≠ parent) :
    (leafMerge ops c parent child).recorded child = c.recorded child ∧
      (leafMerge ops c parent child).recorded sibling = c.recorded sibling := by
  rcases hpm : ops.prepareMerge (c.content parent) child with ⟨s, b⟩
  simp only [hpm] at h
  subst h
  unfold leafMerge
  simp only [hpm]
  split <;> split <;> simp [hcp, hsp]

/-- **Stale sizes.** Take parent 0, leaf or internal child 1, and its left sibling 2. Step 3
leaves node 2 with the merge's result and its old recorded size, and gives node 1 node 2's
delta; step 6 leaves both leaves with their old recorded sizes, whatever `leaf_rebalance`
does to them. -/
theorem merges_leave_sizes_stale (mergeChildren : N → ℕ → N × κ × ℕ × ℤ)
    (rebalanced : N → ℕ → κ → N × ℤ) (merge : N → N → κ → N × N × ℤ)
    (leafRebalance : N → N → N × N × FillUpResult κ) (c : Cache ℕ N) :
    let ops : MergeOps ℕ N κ := ⟨fun _ _ => (2, false), mergeChildren, rebalanced, merge, leafRebalance⟩
    let m := merge (c.content 2) (c.content 1) (mergeChildren (c.content 0) 1).2.1
    (childMerge ops c 0 1).content 2 = m.1 ∧ (childMerge ops c 0 1).recorded 2 = c.recorded 2 ∧
      (childMerge ops c 0 1).recorded 1 = c.recorded 1 + m.2.2 ∧
      (leafMerge ops c 0 1).recorded 1 = c.recorded 1 ∧
      (leafMerge ops c 0 1).recorded 2 = c.recorded 2 :=
  ⟨by simp [childMerge], by simp [childMerge], by simp [childMerge],
    leafMerge_recorded rfl (by decide) (by decide)⟩

end Betree.Flush
