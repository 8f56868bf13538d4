import Betree.Spec.Dataset

/-!
# What `range_delete` and `migrate_range` do

* `rangeDeleteLoop_eq`: the loop deletes the keys of the `Ok` entries one after another, in
  iteration order, and keeps the earliest failed delete; the `Err` items play no part;
* `rangeDelete_eq`: so `range_delete` over an iterator is `deleteEach` over its `Ok` keys;
* `rangeDelete_drops_iterator_errors`: **an iterator error is lost**: over a range whose
  only item is an error, `range_delete` returns `Ok` and deletes nothing;
* `migrateRange_eq`: `migrate_range` migrates the keys of the `Ok` entries in iteration order
  and stops at the first failed migrate, which it returns;
* `migrateRange_without_disks`: **on a tier with no disk**, `migrate_range` changes nothing,
  and fails with `DoesNotExist` exactly when its range yields an `Ok` entry.
-/

namespace Betree.DatasetInner

variable {σ κ ν : Type} (delete : σ → κ → σ × Except ErrorKind Unit)

/-- The keys of the `Ok` entries, in iteration order. -/
def okKeys : List (Except ErrorKind (κ × ν)) → List κ
  | [] => []
  | .ok (k, _) :: entries => k :: okKeys entries
  | .error _ :: entries => okKeys entries

/-- Deleting `keys` one after another: the tree after the last delete, and the earliest
failure, `Ok` when none fails. -/
def deleteEach (tree : σ) : List κ → σ × Except ErrorKind Unit
  | [] => (tree, .ok ())
  | k :: keys =>
    match delete tree k, deleteEach (delete tree k).1 keys with
    | (_, .error e), (tree, _) => (tree, .error e)
    | (_, .ok ()), rest => rest

/-- The loop, from any carried result: the deletes of the `Ok` keys, and the carried error if
there is one, else their earliest failure. -/
theorem rangeDeleteLoop_eq : ∀ (entries : List (Except ErrorKind (κ × ν))) (tree : σ)
    (res : Except ErrorKind Unit),
    rangeDeleteLoop delete (tree, res) entries =
      ((deleteEach delete tree (okKeys entries)).1,
        match res with
        | .error e => .error e
        | .ok () => (deleteEach delete tree (okKeys entries)).2)
  | [], tree, res => by cases res <;> rfl
  | .error _ :: entries, tree, res => rangeDeleteLoop_eq entries tree res
  | .ok (k, _) :: entries, tree, res => by
    simp only [rangeDeleteLoop, okKeys, deleteEach]
    rcases delete tree k with ⟨tree', _ | ⟨⟩⟩ <;> cases res <;>
      simp only [rangeDeleteLoop_eq entries tree']

/-- **`range_delete` over an iterator** deletes the keys of its `Ok` entries in iteration
order and returns the earliest failed delete, whatever `Err` items the iterator yields. -/
theorem rangeDelete_eq (tree : σ) (entries : List (Except ErrorKind (κ × ν))) :
    rangeDelete delete tree (.ok entries) = deleteEach delete tree (okKeys entries) :=
  rangeDeleteLoop_eq delete entries tree (.ok ())

/-- **An iterator error is lost.** Over a range whose iterator yields a single `Err`,
`range_delete` deletes nothing and returns `Ok`, whatever the delete and the error. -/
theorem rangeDelete_drops_iterator_errors (tree : σ) (e : ErrorKind) :
    rangeDelete delete tree (.ok [(.error e : Except ErrorKind (κ × ν))]) = (tree, .ok ()) :=
  rfl

/-! ## `migrate_range` -/

variable (migrate : σ → κ → σ × Except ErrorKind Unit)

/-- Migrating `keys` one after another up to the first failure: the tree after the last
migrate run, and that failure, `Ok` when none fails. -/
def migrateEach (tree : σ) : List κ → σ × Except ErrorKind Unit
  | [] => (tree, .ok ())
  | k :: keys =>
    match migrate tree k with
    | (tree, .error e) => (tree, .error e)
    | (tree, .ok ()) => migrateEach tree keys

theorem migrateRangeLoop_eq : ∀ (tree : σ) (entries : List (Except ErrorKind (κ × ν))),
    migrateRangeLoop migrate tree entries = migrateEach migrate tree (okKeys entries)
  | _, [] => rfl
  | tree, .error _ :: entries => migrateRangeLoop_eq tree entries
  | tree, .ok (k, _) :: entries => by
    simp only [migrateRangeLoop, okKeys, migrateEach]
    rcases migrate tree k with ⟨tree', _ | ⟨⟩⟩
    · rfl
    · exact migrateRangeLoop_eq tree' entries

/-- **`migrate_range` stops at the first failed migrate.** Over an iterator, it migrates the
keys of the `Ok` entries in iteration order while each migrate succeeds, and returns the first
failure with the tree as that migrate left it; the `Err` items play no part. -/
theorem migrateRange_eq (tree : σ) (entries : List (Except ErrorKind (κ × ν))) :
    migrateRange migrate tree (.ok entries) = migrateEach migrate tree (okKeys entries) :=
  migrateRangeLoop_eq migrate tree entries

/-- With no disk, the first migrate fails and changes nothing. -/
theorem migrateEach_without_disks (insertNoop : σ → κ → σ × Except ErrorKind Unit) (tree : σ) :
    ∀ keys : List κ, migrateEach (DatasetInner.migrate 0 insertNoop) tree keys =
      (tree, if keys.isEmpty then .ok () else .error .doesNotExist)
  | [] => rfl
  | _ :: _ => rfl

/-- **`migrate_range` on a tier with no disk** changes nothing, and fails with `DoesNotExist`
exactly when the range's iterator yields an `Ok` entry: over a range of only `Err` items, or
an empty one, it returns `Ok`. -/
theorem migrateRange_without_disks (insertNoop : σ → κ → σ × Except ErrorKind Unit) (tree : σ)
    (entries : List (Except ErrorKind (κ × ν))) :
    migrateRange (DatasetInner.migrate 0 insertNoop) tree (.ok entries) =
      (tree, if (okKeys entries).isEmpty then .ok () else .error .doesNotExist) := by
  rw [migrateRange_eq, migrateEach_without_disks]

end Betree.DatasetInner
