import Betree.Proof.Merges
import Betree.Spec.Insert

/-!
# Size bookkeeping over whole runs of `rebalance_tree` and `insert`

`Accurate size c`: every node not removed from the cache has its size as recorded size. With
node operations whose deltas are the size changes they make, and splits that keep the
bookkeeping once the owner of the child buffer is given their delta (`RebalanceLaws`):

* `Accurate.flushBuffer`, `Accurate.childMerge_right`, `Accurate.splitLeaves`: steps 4 and 5,
  step 3 with a right sibling, and step 7 keep the cache accurate;
* `Accurate.iterate`: so does every iteration that does not merge with stale sizes
  (`MergesStale`: step 3 with a left sibling, or step 6);
* `rebalanceTree_keeps_sizes_accurate`: **a run of `rebalance_tree` none of whose iterations
  merges with stale sizes leaves the cache accurate**, whether it returns `Ok` or an error,
  through any number of splits, flushes and right-sibling merges;
* `insert_keeps_sizes_accurate`: **so does `insert`**, whose message lands with its added
  size, when the rebalancing it hands on merges with no stale sizes.
-/

namespace Betree.Flush

variable {ι N κ β ε : Type} [DecidableEq ι]

/-- Every node not removed has its size as recorded size. -/
def Accurate (size : N → ℕ) (c : Cache ι N) : Prop :=
  ∀ i, i ∉ c.removed → c.recorded i = size (c.content i)

variable (rops : RebalanceOps ι N κ β ε)

/-- The laws the loop relies on when it passes deltas on: each delta is the size change of the
node it belongs to; `merge_children` removes the right node of the merged pair, so the sibling
when it is the right one; and the splits keep the bookkeeping, once `split_node`'s delta is
given to the owner of the child buffer it splits under. -/
structure RebalanceLaws extends SizeLaws rops.size rops.toMergeOps : Prop where
  takeBuffer : ∀ n i,
    (rops.takeBuffer n i).2.2 = (rops.size (rops.takeBuffer n i).1 : ℤ) - rops.size n
  insertMsgBuffer : ∀ n b,
    (rops.insertMsgBuffer n b).2 = (rops.size (rops.insertMsgBuffer n b).1 : ℤ) - rops.size n
  mergedAway : ∀ n i, (rops.prepareMerge n i).2 = true →
    (rops.mergeChildren n i).2.2.1 = (rops.prepareMerge n i).1
  splitRootNode : ∀ c i, Accurate rops.size c → Accurate rops.size (rops.splitRootNode c i)
  splitNode : ∀ c i p c' j δ, Accurate rops.size c → rops.splitNode c i p = .ok (c', j, δ) →
    Accurate rops.size (c'.addSize p.1 δ)

/-- The iteration from `st` merges with stale sizes: its child has too low fanout and a left
sibling (step 3), or is a too small leaf after the flush (step 6). -/
def MergesStale (st : Loop ι N) : Prop :=
  rops.isTooLarge (st.cache.content st.node) = true ∧
  ∃ slot, rops.tryFindFlushCandidate (st.cache.content st.node) = some slot ∧
    rops.getMutNode st.cache slot = .ok () ∧
    (!rops.isLeaf (st.cache.content slot) && rops.isTooLarge (st.cache.content slot)) = false ∧
    if rops.hasTooLowFanout (st.cache.content slot) then
      (rops.prepareMerge (st.cache.content st.node) slot).2 = false
    else rops.isTooSmallLeaf ((flushBuffer rops st.cache st.node slot).content slot) = true

/-- The loop states a run from `st` passes through. -/
inductive Visits : Loop ι N → Loop ι N → Prop
  | here (st : Loop ι N) : Visits st st
  | step {st st' st'' : Loop ι N} {fuel : ℕ} :
      iterate rops fuel st = some (.next st') → Visits st' st'' → Visits st st''

/-- The cache an iteration leaves. -/
def Next.cache : Next ι N ε → Cache ι N
  | .ret c _ => c
  | .next st => st.cache

variable {rops}

/-! ## One iteration -/

/-- Writing a node and giving it its size change keeps the cache accurate. -/
theorem Accurate.write_addSize {size : N → ℕ} {c : Cache ι N} (ha : Accurate size c) (i : ι)
    (n : N) {δ : ℤ} (hδ : δ = (size n : ℤ) - size (c.content i)) :
    Accurate size ((c.write i n).addSize i δ) := fun j hj => by
  simp only [Cache.addSize_removed, Cache.write_removed] at hj
  simp only [Cache.addSize_recorded, Cache.addSize_content, Cache.write_content, Cache.write_recorded]
  by_cases hji : j = i
  · subst hji; rw [if_pos rfl, if_pos rfl, ha j hj, hδ]; omega
  · rw [if_neg hji, if_neg hji, ha j hj]

theorem Accurate.flushBuffer (hl : RebalanceLaws rops) {c : Cache ι N} (ha : Accurate rops.size c)
    (node child : ι) : Accurate rops.size (flushBuffer rops c node child) :=
  (ha.write_addSize node _ (hl.takeBuffer _ _)).write_addSize child _ (hl.insertMsgBuffer _ _)

/-- Step 3 with a right sibling keeps the cache accurate: the child and the parent are given
their deltas, and the sibling it absorbs is removed; this holds whichever of them coincide. -/
theorem Accurate.childMerge_right {size : N → ℕ} {ops : MergeOps ι N κ} (hl : SizeLaws size ops)
    {c : Cache ι N} (ha : Accurate size c) {parent child sibling : ι}
    (hr : ops.prepareMerge (c.content parent) child = (sibling, true))
    (hold : (ops.mergeChildren (c.content parent) child).2.2.1 = sibling) :
    Accurate size (childMerge ops c parent child) := by
  rcases hpm : ops.mergeChildren (c.content parent) child with ⟨pN, pivot, oldNp, sd⟩
  have hsd : sd = (size pN : ℤ) - size (c.content parent) := by
    simpa only [hpm] using hl.mergeChildren (c.content parent) child
  rw [hpm] at hold
  subst hold
  rcases hmm : ops.merge ((c.write parent pN).content child) ((c.write parent pN).content oldNp)
    pivot with ⟨cN, sN, d⟩
  have hd : d = (size cN : ℤ) - size ((c.write parent pN).content child) := by
    simpa only [hmm] using hl.merge ((c.write parent pN).content child)
      ((c.write parent pN).content oldNp) pivot
  have heq : childMerge ops c parent child =
      (((((c.write parent pN).write child cN).write oldNp sN).addSize child d).remove oldNp).addSize
        parent sd := by
    simp only [childMerge, hr, hpm, hmm, if_true]
  rw [heq]
  intro j hj
  simp only [Cache.addSize_removed, Cache.remove_removed, List.mem_append, List.mem_singleton,
    not_or, Cache.write_removed] at hj
  simp only [Cache.addSize_recorded, Cache.addSize_content, Cache.remove_content,
    Cache.remove_recorded, Cache.write_content, Cache.write_recorded, if_neg hj.2] at hd ⊢
  have hj' := ha j hj.1
  by_cases hjc : j = child <;> by_cases hjp : j = parent
  · subst hjc; subst hjp
    simp only [if_true] at hd ⊢; omega
  · subst hjc
    simp only [if_true, if_neg hjp] at hd ⊢; omega
  · subst hjp
    simp only [if_true, if_neg hjc]; omega
  · simp only [if_neg hjc, if_neg hjp, hj']

/-- Step 7 keeps the cache accurate, through every split. -/
theorem Accurate.splitLeaves (hl : RebalanceLaws rops) {node slot : ι} :
    ∀ {fuel : ℕ} {c c' : Cache ι N} {child : ι} {r : Except ε ι},
      splitLeaves rops node slot fuel c child = some (c', r) → Accurate rops.size c →
      Accurate rops.size c'
  | 0, _, _, _, _, h, _ => by cases h
  | fuel + 1, c, c', child, r, h, ha => by
    simp only [Flush.splitLeaves] at h
    split_ifs at h
    · split at h
      · cases h; exact ha
      · exact Accurate.splitLeaves hl h (hl.splitNode _ _ (node, slot) _ _ _ ha ‹_›)
    · cases h; exact ha

/-- **One iteration keeps the cache accurate** unless it merges with stale sizes. -/
theorem Accurate.iterate (hl : RebalanceLaws rops) {fuel : ℕ} {st : Loop ι N}
    {nx : Next ι N ε} (h : iterate rops fuel st = some nx) (hs : ¬ MergesStale rops st)
    (ha : Accurate rops.size st.cache) : Accurate rops.size nx.cache := by
  unfold Flush.iterate at h
  dsimp only at h
  split_ifs at h with hlarge
  · cases h; exact ha
  simp only [Bool.not_eq_true', Bool.not_eq_false] at hlarge
  split at h
  · -- step 1.1: no flush candidate, the node is split
    split at h
    · cases h; exact hl.splitRootNode _ _ ha
    · split at h
      · cases h; exact ha
      · cases h; exact hl.splitNode _ _ _ _ _ _ ha ‹_›
  · rename_i slot hslot
    split at h
    · cases h; exact ha
    rename_i hget
    split_ifs at h with h2 h3 h6
    · -- step 2: down to a too large internal child
      cases h; exact ha
    · -- step 3: the merge is with a right sibling, as the iteration is not stale
      split at h
      · cases h; exact ha
      · cases h
        have hr : (rops.prepareMerge (st.cache.content st.node) slot).2 = true := by
          by_contra hf
          exact hs ⟨hlarge, slot, hslot, hget, by simpa using h2, by simpa [h3] using hf⟩
        exact ha.childMerge_right hl.toSizeLaws (Prod.ext rfl hr) (hl.mergedAway _ _ hr)
    · -- step 6 makes the iteration stale
      exact absurd ⟨hlarge, slot, hslot, hget, by simpa using h2, by simpa [h3] using h6⟩ hs
    · -- steps 4, 5, 7, then 8 or 9
      obtain ⟨⟨c', r⟩, hsl, rfl⟩ := Option.map_eq_some'.1 h
      have hc' := (ha.flushBuffer hl st.node slot).splitLeaves hl hsl
      rcases r with e | child
      · exact hc'
      · dsimp only; split_ifs <;> exact hc'

/-! ## Whole runs -/

/-- A property of the cache that every iteration keeps, unless it merges with stale sizes,
holds after every run none of whose iterations merges with stale sizes. -/
theorem rebalanceTree_induction (P : Cache ι N → Prop)
    (hstep : ∀ {fuel : ℕ} {st : Loop ι N} {nx : Next ι N ε}, iterate rops fuel st = some nx →
      ¬ MergesStale rops st → P st.cache → P nx.cache) :
    ∀ {fuel : ℕ} {st : Loop ι N} {c : Cache ι N} {r : Except ε Unit},
      rebalanceTree rops fuel st = some (c, r) →
      (∀ st', Visits rops st st' → ¬ MergesStale rops st') → P st.cache → P c
  | 0, _, _, _, h, _, _ => by cases h
  | fuel + 1, st, c, r, h, hclean, hp => by
    simp only [rebalanceTree] at h
    split at h
    · cases h
    · rename_i hit
      cases h
      exact hstep hit (hclean st (.here st)) hp
    · rename_i st' hit
      exact rebalanceTree_induction P hstep h (fun st'' hv => hclean st'' (.step hit hv))
        (hstep hit (hclean st (.here st)) hp)

/-- **`rebalance_tree` keeps the size bookkeeping.** A run none of whose iterations merges
with stale sizes leaves every node not removed with its size as recorded size, whether it
returns `Ok` or an error. -/
theorem rebalanceTree_keeps_sizes_accurate (hl : RebalanceLaws rops) {fuel : ℕ}
    {st : Loop ι N} {c : Cache ι N} {r : Except ε Unit}
    (h : rebalanceTree rops fuel st = some (c, r))
    (hclean : ∀ st', Visits rops st st' → ¬ MergesStale rops st')
    (ha : Accurate rops.size st.cache) : Accurate rops.size c :=
  rebalanceTree_induction _ (Accurate.iterate hl) h hclean ha

/-- Nodes that are their sizes: a flush moves half the buffer into a leaf, and no node has too
low fanout or is a too small leaf. -/
def halfFlushOps : RebalanceOps ℕ ℕ Unit ℕ Unit where
  prepareMerge _ i := (i + 1, true)
  mergeChildren n i := (n, (), i + 1, 0)
  rebalanced n _ _ := (n, 0)
  merge a b _ := (a + b, 0, b)
  leafRebalance a b := (a, b, .merged)
  isTooLarge n := 9 < n
  isLeaf _ := true
  hasTooLowFanout _ := false
  isTooSmallLeaf _ := false
  isTooLargeLeaf _ := false
  size := id
  tryFindFlushCandidate _ := some 1
  takeBuffer n _ := (0, n, -(n : ℤ))
  insertMsgBuffer n b := (n + b / 2, ((n + b / 2 : ℕ) : ℤ) - n)
  splitRootNode c _ := c
  splitNode _ _ _ := .error ()
  getMutNode _ _ := .ok ()

theorem halfFlushOps_laws : RebalanceLaws halfFlushOps where
  merge _ _ _ := by simp [halfFlushOps]
  mergeChildren _ _ := by simp [halfFlushOps]
  rebalanced _ _ _ := by simp [halfFlushOps]
  takeBuffer _ _ := by simp [halfFlushOps]
  insertMsgBuffer _ _ := rfl
  mergedAway _ _ _ := rfl
  splitRootNode _ _ ha := ha
  splitNode _ _ _ _ _ _ _ h := by cases h

/-- Node 0 holds 10 and is too large; every other node holds nothing. -/
def halfFlushStart : Loop ℕ ℕ :=
  ⟨⟨fun i => if i = 0 then 10 else 0, fun i => ((if i = 0 then 10 else 0 : ℕ) : ℤ), []⟩, 0, none⟩

/-- The run from `halfFlushStart` flushes node 0 into leaf 1 and stops there, keeping the
sizes accurate. -/
theorem rebalanceTree_keeps_sizes_accurate_halfFlush :
    ∃ c r, rebalanceTree halfFlushOps 3 halfFlushStart = some (c, r) ∧
      Accurate halfFlushOps.size c :=
  ⟨_, _, rfl, rebalanceTree_keeps_sizes_accurate halfFlushOps_laws
    (rfl : rebalanceTree halfFlushOps 3 halfFlushStart = _)
    (fun _ _ ⟨_, _, _, _, _, h⟩ => by simp [halfFlushOps] at h) fun _ _ => rfl⟩

/-! ## The write path -/

section Insert

open Tree

variable {μ : Type} {iops : InsertOps ι N μ ε}

/-- The message lands with its added size given to its node. -/
theorem Accurate.land {c : Cache ι N} (ha : Accurate rops.size c)
    (hins : ∀ n key msg, (iops.insert n key msg).2 = (rops.size (iops.insert n key msg).1 : ℤ) - rops.size n)
    {root : ι} {key : List UInt8} {msg : μ} {fuel : ℕ} {st : Loop ι N}
    (h : land iops c root key msg fuel = some st) : Accurate rops.size st.cache := by
  obtain ⟨⟨node, parent⟩, -, rfl⟩ := Option.map_eq_some'.1 h
  exact ha.write_addSize node _ (hins _ _ _)

/-- **`insert` keeps the size bookkeeping.** With an added size that is the node's size change,
an `insert` that returns, with `Ok` or an error, leaves every node not removed with its size
as recorded size, when the rebalancing it hands the message's node to merges with no stale
sizes. -/
theorem insert_keeps_sizes_accurate (hl : RebalanceLaws rops)
    (hins : ∀ n key msg, (iops.insert n key msg).2 = (rops.size (iops.insert n key msg).1 : ℤ) - rops.size n)
    {evict : Bool} {c c' : Cache ι N} {key : List UInt8} {msg : μ} {fuel : ℕ} {r : Except ε Unit}
    (h : Tree.insert iops rops evict c key msg fuel = some (c', r))
    (hclean : ∀ root st, land iops c root key msg fuel = some st →
      ∀ st', Visits rops st st' → ¬ MergesStale rops st')
    (ha : Accurate rops.size c) : Accurate rops.size c' := by
  unfold Tree.insert at h
  by_cases hk : key.isEmpty
  · rw [if_pos hk] at h; cases h; exact ha
  rw [if_neg hk] at h
  split at h
  · cases h; exact ha
  rename_i root _
  obtain ⟨st, hland, h⟩ := Option.bind_eq_some.1 h
  by_cases hp : (st.parent.isNone && iops.rootNeedsMerge (st.cache.content st.node)) = true
  · rw [if_pos hp] at h; cases h
  rw [if_neg hp] at h
  obtain ⟨⟨c₁, r₁⟩, hrun, h⟩ := Option.map_eq_some'.1 h
  have hc₁ := rebalanceTree_induction _ (Accurate.iterate hl) hrun (hclean root st hland)
    (ha.land hins hland)
  rcases r₁ with e | ⟨⟩ <;> cases h <;> exact hc₁

/-- A tree of one leaf, node 0, in which a message adds its size. -/
def leafRootOps : InsertOps ℕ ℕ ℕ Unit where
  getMutRootNode _ := .ok 0
  tryWalk _ _ := none
  tryGetMutNode _ _ := false
  insert n _ msg := (n + msg, msg)
  rootNeedsMerge _ := false
  evict _ := .ok ()
  emptyKey := ()

/-- Inserting a message of size 3 into the leaf root keeps the sizes accurate. -/
theorem insert_keeps_sizes_accurate_leafRoot :
    ∃ c r, Tree.insert leafRootOps halfFlushOps true ⟨fun _ => 0, fun _ => 0, []⟩ [1] 3 2 = some (c, r) ∧
      Accurate halfFlushOps.size c :=
  ⟨_, _, rfl, insert_keeps_sizes_accurate halfFlushOps_laws (fun _ _ _ => by simp [leafRootOps, halfFlushOps])
    (rfl : Tree.insert leafRootOps halfFlushOps true ⟨fun _ => 0, fun _ => 0, []⟩ [1] 3 2 = _)
    (fun _ _ _ _ _ ⟨_, _, _, _, _, h⟩ => by simp [halfFlushOps] at h) fun _ _ => rfl⟩

end Insert

end Betree.Flush
