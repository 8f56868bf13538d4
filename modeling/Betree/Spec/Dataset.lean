import Mathlib.Logic.Function.Basic

/-!
# The dataset registry, and range deletes and migrations

`database/dataset.rs`: the map `open_datasets` of the datasets that have an open handle, and
the entries of the handler's `last_snapshot_generation` that opening and closing write.

Every root-tree read, insert and sync a call makes can fail, so the model takes what each
returns as an argument. `fetch_ds_data`, `sync_ds` and `DatasetId` live in `database/mod.rs`,
which is not under `src/`: a dataset id is a number, and of a `DatasetData` only its
`previous_snapshot` is read here. The trees the handles own are left out, but for
`range_delete` and `migrate_range`, which take the dataset tree's `delete` and its insert of
a no-op message as parameters.
-/

namespace Betree

/-- The error kinds the registry calls return; `other` is any failure of the root tree, of
a dataset tree or of a sync. -/
inductive ErrorKind
  | doesNotExist
  | alreadyExists
  | inUse
  | other (code : ℕ)
  deriving DecidableEq, Repr

/-- `DatasetData`, but for its root pointer. -/
structure DatasetData where
  previousSnapshot : Option ℕ
  deriving DecidableEq, Repr

/-- The registry of a `Database`: the keys of `open_datasets`, and the handler's
`last_snapshot_generation`. -/
structure Database where
  openDatasets : ℕ → Bool
  lastSnapshotGeneration : ℕ → Option ℕ

namespace Database

/-- `lookup_dataset_id(name)`, given what `root_tree.get([1, name])` returns, unpacked. -/
def lookupDatasetId (get : Except ErrorKind (Option ℕ)) : Except ErrorKind ℕ :=
  match get with
  | .error e => .error e
  | .ok (some id) => .ok id
  | .ok none => .error .doesNotExist

/-- `open_dataset_with_id_and_name(id, name)`, given what `fetch_ds_data` returns. The
handle returned is named by its dataset's id. -/
def openDatasetWithIdAndName (db : Database) (id : ℕ) (dsData : Except ErrorKind DatasetData) :
    Database × Except ErrorKind ℕ :=
  match dsData with
  | .error e => (db, .error e)
  | .ok dsData =>
    if db.openDatasets id then (db, .error .inUse)
    else
      let lastSnapshotGeneration := match dsData.previousSnapshot with
        | some ssId => Function.update db.lastSnapshotGeneration id (some ssId)
        | none => db.lastSnapshotGeneration
      (⟨Function.update db.openDatasets id true, lastSnapshotGeneration⟩, .ok id)

/-- `open_custom_dataset(name, _)`, and `open_dataset(name)`, which calls it. -/
def openCustomDataset (db : Database) (lookup : Except ErrorKind (Option ℕ))
    (dsData : Except ErrorKind DatasetData) : Database × Except ErrorKind ℕ :=
  match lookupDatasetId lookup with
  | .error e => (db, .error e)
  | .ok id => db.openDatasetWithIdAndName id dsData

/-- `open_dataset_with_id(id)`. -/
def openDatasetWithId (db : Database) (id : ℕ) (dsData : Except ErrorKind DatasetData) :
    Database × Except ErrorKind ℕ :=
  db.openDatasetWithIdAndName id dsData

/-- `create_custom_dataset(name, _)`, given what its lookup returns and what the steps after
it return (`allocate_ds_id`, the new tree's `sync`, the two root-tree inserts). It does not
touch the registry. -/
def createCustomDataset (lookup : Except ErrorKind (Option ℕ)) (rest : Except ErrorKind Unit) :
    Except ErrorKind Unit :=
  match lookupDatasetId lookup with
  | .ok _ => .error .alreadyExists
  | .error .doesNotExist => rest
  | .error e => .error e

/-- `open_or_create_custom_dataset(name, _)`, given what its lookup returns, what
`create_custom_dataset` returns, and what the lookup and the `fetch_ds_data` of
`open_custom_dataset` return. -/
def openOrCreateCustomDataset (db : Database) (lookup : Except ErrorKind (Option ℕ))
    (create : Except ErrorKind Unit) (lookup' : Except ErrorKind (Option ℕ))
    (dsData : Except ErrorKind DatasetData) : Database × Except ErrorKind ℕ :=
  match lookupDatasetId lookup with
  | .ok _ => db.openCustomDataset lookup' dsData
  | .error .doesNotExist =>
    match create with
    | .ok () => db.openCustomDataset lookup' dsData
    | .error e => (db, .error e)
  | .error e => (db, .error e)

/-- `close_dataset(ds)`, given what `sync_ds` returns. The handle is emptied before the
sync; the dataset leaves the registry only after it. -/
def closeDataset (db : Database) (id : ℕ) (sync : Except ErrorKind Unit) :
    Database × Except ErrorKind Unit :=
  match sync with
  | .error e => (db, .error e)
  | .ok () =>
    (⟨Function.update db.openDatasets id false, Function.update db.lastSnapshotGeneration id none⟩,
      .ok ())

end Database

/-! ## Deleting a key range -/

namespace DatasetInner

variable {σ κ ν : Type}

/-- The loop of `range_delete(range)` over the range iterator's items, carrying the dataset
tree and `res`: an `Ok` entry's key is deleted (`delete(k)` inserts a delete message, which
may fail), and a failed delete becomes `res` while `res` is `Ok`; an `Err` item is passed
over by `if let Ok(..)`. -/
def rangeDeleteLoop (delete : σ → κ → σ × Except ErrorKind Unit) :
    σ × Except ErrorKind Unit → List (Except ErrorKind (κ × ν)) → σ × Except ErrorKind Unit
  | acc, [] => acc
  | acc, .error _ :: entries => rangeDeleteLoop delete acc entries
  | (tree, res), .ok (k, _) :: entries =>
    let (tree, delRes) := delete tree k
    rangeDeleteLoop delete (tree, match delRes, res with
      | .error e, .ok () => .error e
      | _, _ => res) entries

/-- `range_delete(range)`, given what `self.tree.range(range)` returns: an error, or the
items its iterator yields. -/
def rangeDelete (delete : σ → κ → σ × Except ErrorKind Unit) (tree : σ)
    (range : Except ErrorKind (List (Except ErrorKind (κ × ν)))) : σ × Except ErrorKind Unit :=
  match range with
  | .error e => (tree, .error e)
  | .ok entries => rangeDeleteLoop delete (tree, .ok ()) entries

/-! ## Migrating a key range -/

/-- `migrate(key, pref)`, given `disk_count(pref)` of the storage pool and the dataset tree's
insert of a no-op message with preference `pref`: refused with `DoesNotExist` when the tier
has no disk. -/
def migrate (diskCount : ℕ) (insertNoop : σ → κ → σ × Except ErrorKind Unit) (tree : σ) (k : κ) :
    σ × Except ErrorKind Unit :=
  if diskCount = 0 then (tree, .error .doesNotExist) else insertNoop tree k

/-- The loop of `migrate_range(range, pref)` over the range iterator's items: an `Ok` entry's
key is migrated and a failed migrate is returned at once (`?`); an `Err` item is passed over
by `if let Ok(..)`. -/
def migrateRangeLoop (migrate : σ → κ → σ × Except ErrorKind Unit) :
    σ → List (Except ErrorKind (κ × ν)) → σ × Except ErrorKind Unit
  | tree, [] => (tree, .ok ())
  | tree, .error _ :: entries => migrateRangeLoop migrate tree entries
  | tree, .ok (k, _) :: entries =>
    match migrate tree k with
    | (tree, .error e) => (tree, .error e)
    | (tree, .ok ()) => migrateRangeLoop migrate tree entries

/-- `migrate_range(range, pref)`, given `migrate(_, pref)` and what `self.tree.range(range)`
returns: an error, or the items its iterator yields. -/
def migrateRange (migrate : σ → κ → σ × Except ErrorKind Unit) (tree : σ)
    (range : Except ErrorKind (List (Except ErrorKind (κ × ν)))) : σ × Except ErrorKind Unit :=
  match range with
  | .error e => (tree, .error e)
  | .ok entries => migrateRangeLoop migrate tree entries

end DatasetInner

end Betree
