import Betree.Spec.Dataset
import Mathlib.Data.UInt

/-!
# The dataset registry over every sequence of calls

A `World` is the registry together with the handles the caller holds: those an open returned
and that have not been passed to `close_dataset`, each named by its dataset's id. A
`Dataset` is not `Clone` and `close_dataset` takes it by value, so each handle is closed at
most once.

* `OpenOutcome`: every open fails and changes nothing, or registers the dataset it returns,
  which was not registered;
* `Registered`: the live handles have distinct ids, all in `open_datasets`. Every run keeps
  it (`registered_run`), so an open of a dataset with a live handle never succeeds, and fails
  with `InUse` once `fetch_ds_data` succeeds (`open_live_fails`);
* `Exact`: the keys of `open_datasets` are exactly the ids of the live handles. A run keeps it
  as long as no `sync_ds` of a `close_dataset` fails (`exact_run`);
* `close_failure_locks_dataset`: a `close_dataset` whose sync fails consumes the handle but
  leaves the dataset in `open_datasets`, and no later run can open it again;
* `run_single_opener`: **one opener per dataset**: on every world a run reaches from the
  start, no dataset has two live handles, and an open of one with a live handle fails;
* `run_open_iff_not_live`: **while no close fails, a dataset opens exactly when it has no
  live handle**;
* `allocateDsIds_increasing`: **`allocate_ds_id` never hands out an id twice**, whichever of
  its reads and writes of the root tree fail, and whether a failed insert left the next id in
  the tree, as long as the `u64` counter cannot wrap.
-/

namespace Betree

namespace Database

/-- What an open can do: fail and change nothing, or register and return a dataset that was
not registered. -/
def OpenOutcome (db : Database) : Database × Except ErrorKind ℕ → Prop
  | (db', r) => (db' = db ∧ ∃ e, r = .error e) ∨
    ∃ id, r = .ok id ∧ db.openDatasets id = false ∧
      db'.openDatasets = Function.update db.openDatasets id true

theorem openOutcome_error (db : Database) (e : ErrorKind) : OpenOutcome db (db, .error e) :=
  .inl ⟨rfl, e, rfl⟩

theorem openDatasetWithIdAndName_outcome (db : Database) (id : ℕ)
    (dsData : Except ErrorKind DatasetData) :
    OpenOutcome db (db.openDatasetWithIdAndName id dsData) := by
  unfold openDatasetWithIdAndName
  split
  · exact openOutcome_error db _
  · split_ifs with hin
    · exact openOutcome_error db _
    · exact .inr ⟨id, rfl, by simpa using hin, rfl⟩

theorem openCustomDataset_outcome (db : Database) (lookup : Except ErrorKind (Option ℕ))
    (dsData : Except ErrorKind DatasetData) : OpenOutcome db (db.openCustomDataset lookup dsData) := by
  unfold openCustomDataset
  split
  · exact openOutcome_error db _
  · exact openDatasetWithIdAndName_outcome db _ dsData

theorem openOrCreateCustomDataset_outcome (db : Database) (lookup : Except ErrorKind (Option ℕ))
    (create : Except ErrorKind Unit) (lookup' : Except ErrorKind (Option ℕ))
    (dsData : Except ErrorKind DatasetData) :
    OpenOutcome db (db.openOrCreateCustomDataset lookup create lookup' dsData) := by
  unfold openOrCreateCustomDataset
  split
  · exact openCustomDataset_outcome db lookup' dsData
  · split
    · exact openCustomDataset_outcome db lookup' dsData
    · exact openOutcome_error db _
  · exact openOutcome_error db _

/-- **An open of a registered dataset** changes nothing and fails, with `InUse` once
`fetch_ds_data` succeeds. -/
theorem openDatasetWithIdAndName_of_open {db : Database} {id : ℕ} (h : db.openDatasets id = true)
    (dsData : Except ErrorKind DatasetData) :
    (db.openDatasetWithIdAndName id dsData).1 = db ∧
      (db.openDatasetWithIdAndName id dsData).2 =
        match dsData with
        | .error e => .error e
        | .ok _ => .error .inUse := by
  cases dsData <;> simp [openDatasetWithIdAndName, h]

theorem closeDataset_openDatasets (db : Database) (id : ℕ) (sync : Except ErrorKind Unit) :
    (db.closeDataset id sync).1.openDatasets =
      match sync with
      | .error _ => db.openDatasets
      | .ok () => Function.update db.openDatasets id false := by
  cases sync <;> rfl

/-! ## Dataset ids -/

end Database

/-- A registry call, with what each of its root-tree reads, inserts and syncs returns. -/
inductive Call
  | openCustomDataset (lookup : Except ErrorKind (Option ℕ)) (dsData : Except ErrorKind DatasetData)
  | openDatasetWithId (id : ℕ) (dsData : Except ErrorKind DatasetData)
  | openOrCreateCustomDataset (lookup : Except ErrorKind (Option ℕ)) (create : Except ErrorKind Unit)
      (lookup' : Except ErrorKind (Option ℕ)) (dsData : Except ErrorKind DatasetData)
  | createCustomDataset (lookup : Except ErrorKind (Option ℕ)) (rest : Except ErrorKind Unit)
  | closeDataset (id : ℕ) (sync : Except ErrorKind Unit)

/-- The registry and the ids of the live handles. -/
structure World where
  db : Database
  handles : List ℕ

namespace World

/-- No dataset is open and the caller holds no handle. -/
def init (snapshots : ℕ → Option ℕ) : World := ⟨⟨fun _ => false, snapshots⟩, []⟩

/-- The world after an open: the handle it returns, if any, is live. -/
def opened (w : World) (r : Database × Except ErrorKind ℕ) : World :=
  ⟨r.1, match r.2 with
    | .ok id => id :: w.handles
    | .error _ => w.handles⟩

/-- One call; `none` when `close_dataset` is given a handle the caller does not hold. -/
def step (w : World) : Call → Option World
  | .openCustomDataset lookup dsData => some (w.opened (w.db.openCustomDataset lookup dsData))
  | .openDatasetWithId id dsData => some (w.opened (w.db.openDatasetWithId id dsData))
  | .openOrCreateCustomDataset lookup create lookup' dsData =>
    some (w.opened (w.db.openOrCreateCustomDataset lookup create lookup' dsData))
  | .createCustomDataset _ _ => some w
  | .closeDataset id sync =>
    if id ∈ w.handles then some ⟨(w.db.closeDataset id sync).1, w.handles.erase id⟩ else none

/-- Calls run one after another. -/
def run : World → List Call → Option World
  | w, [] => some w
  | w, c :: cs => (w.step c).bind (·.run cs)

/-- What one call can do: leave the registry and the handles as they were, open a dataset
that was not registered, or close a live handle. -/
theorem step_cases {w w' : World} {c : Call} (h : w.step c = some w') :
    (w'.db.openDatasets = w.db.openDatasets ∧ w'.handles = w.handles) ∨
    (∃ id, w.db.openDatasets id = false ∧ w'.handles = id :: w.handles ∧
      w'.db.openDatasets = Function.update w.db.openDatasets id true) ∨
    (∃ id sync, c = .closeDataset id sync ∧ id ∈ w.handles ∧ w'.handles = w.handles.erase id ∧
      w'.db = (w.db.closeDataset id sync).1) := by
  have hopen : ∀ r, Database.OpenOutcome w.db r → w.opened r = w' →
      (w'.db.openDatasets = w.db.openDatasets ∧ w'.handles = w.handles) ∨
      (∃ id, w.db.openDatasets id = false ∧ w'.handles = id :: w.handles ∧
        w'.db.openDatasets = Function.update w.db.openDatasets id true) := by
    rintro ⟨db', r⟩ (⟨rfl, e, rfl⟩ | ⟨id, rfl, hid, hdb⟩) rfl
    exacts [.inl ⟨rfl, rfl⟩, .inr ⟨id, hid, rfl, hdb⟩]
  cases c with
  | openCustomDataset lookup dsData =>
    exact (hopen _ (w.db.openCustomDataset_outcome _ _) (Option.some.inj h)).imp_right .inl
  | openDatasetWithId id dsData =>
    exact (hopen _ (w.db.openDatasetWithIdAndName_outcome _ _) (Option.some.inj h)).imp_right .inl
  | openOrCreateCustomDataset lookup create lookup' dsData =>
    exact (hopen _ (w.db.openOrCreateCustomDataset_outcome _ _ _ _)
      (Option.some.inj h)).imp_right .inl
  | createCustomDataset _ _ => cases h; exact .inl ⟨rfl, rfl⟩
  | closeDataset id sync =>
    simp only [step] at h
    split_ifs at h with hid
    cases h
    exact .inr (.inr ⟨id, sync, rfl, hid, rfl, rfl⟩)

/-! ## Every live handle is registered -/

/-- The live handles have distinct ids, each in `open_datasets`. -/
structure Registered (w : World) : Prop where
  nodup : w.handles.Nodup
  mem_open : ∀ id ∈ w.handles, w.db.openDatasets id = true

theorem registered_init (snapshots : ℕ → Option ℕ) : Registered (init snapshots) :=
  ⟨List.nodup_nil, fun _ h => absurd h (List.not_mem_nil _)⟩

theorem Registered.step {w w' : World} {c : Call} (hw : Registered w) (h : w.step c = some w') :
    Registered w' := by
  rcases step_cases h with ⟨hdb, hh⟩ | ⟨id, hid, hh, hdb⟩ | ⟨id, sync, rfl, hid, hh, hdb⟩
  · exact ⟨hh ▸ hw.nodup, fun i hi => hdb ▸ hw.mem_open i (hh ▸ hi)⟩
  · have hnot : id ∉ w.handles := fun hm => by simp [hw.mem_open id hm] at hid
    refine ⟨hh ▸ List.nodup_cons.2 ⟨hnot, hw.nodup⟩, fun i hi => ?_⟩
    rw [hdb]
    rcases List.mem_cons.1 (hh ▸ hi) with rfl | hi
    · simp
    · rw [Function.update_noteq (by rintro rfl; exact hnot hi)]; exact hw.mem_open i hi
  · refine ⟨hh ▸ hw.nodup.erase id, fun i hi => ?_⟩
    rw [hh, hw.nodup.mem_erase_iff] at hi
    rw [hdb, Database.closeDataset_openDatasets]
    split
    · exact hw.mem_open i hi.2
    · rw [Function.update_noteq hi.1]; exact hw.mem_open i hi.2

theorem registered_run : ∀ {w w' : World} {cs : List Call}, Registered w → w.run cs = some w' →
    Registered w'
  | _, _, [], hw, h => by cases h; exact hw
  | _, _, _ :: _, hw, h => by
    obtain ⟨w₁, h₁, h⟩ := Option.bind_eq_some.1 h
    exact registered_run (hw.step h₁) h

/-- **An open of a dataset with a live handle** changes nothing and fails, with `InUse` once
`fetch_ds_data` succeeds. -/
theorem open_live_fails {w : World} (hw : Registered w) {id : ℕ} (hid : id ∈ w.handles)
    (dsData : Except ErrorKind DatasetData) :
    (w.db.openDatasetWithIdAndName id dsData).1 = w.db ∧
      (w.db.openDatasetWithIdAndName id dsData).2 =
        match dsData with
        | .error e => .error e
        | .ok _ => .error .inUse :=
  Database.openDatasetWithIdAndName_of_open (hw.mem_open id hid) dsData

/-! ## The registry is exact while no close fails -/

/-- The keys of `open_datasets` are exactly the ids of the live handles. -/
def Exact (w : World) : Prop := ∀ id, w.db.openDatasets id = true ↔ id ∈ w.handles

theorem Exact.step {w w' : World} {c : Call} (hr : Registered w) (hw : Exact w)
    (h : w.step c = some w') (hc : ∀ id e, c ≠ .closeDataset id (.error e)) : Exact w' := by
  intro i
  rcases step_cases h with ⟨hdb, hh⟩ | ⟨id, hid, hh, hdb⟩ | ⟨id, sync, rfl, hid, hh, hdb⟩
  · rw [hdb, hh]; exact hw i
  · rw [hdb, hh, List.mem_cons]
    by_cases he : i = id
    · subst he; simp
    · rw [Function.update_noteq he, hw i]; simp [he]
  · cases sync with
    | error e => exact absurd rfl (hc id e)
    | ok u =>
      have hdb' : w'.db.openDatasets = Function.update w.db.openDatasets id false := by rw [hdb]; rfl
      rw [hdb', hh, hr.nodup.mem_erase_iff]
      by_cases he : i = id
      · subst he; simp
      · rw [Function.update_noteq he, hw i]; simp [he]

/-- **While no `sync_ds` of a `close_dataset` fails**, a run keeps the registry exact. -/
theorem exact_run : ∀ {w w' : World} {cs : List Call}, Registered w → Exact w →
    (∀ c ∈ cs, ∀ id e, c ≠ .closeDataset id (.error e)) → w.run cs = some w' → Exact w'
  | _, _, [], _, hw, _, h => by cases h; exact hw
  | _, _, c :: _, hr, hw, hc, h => by
    obtain ⟨w₁, h₁, h⟩ := Option.bind_eq_some.1 h
    exact exact_run (hr.step h₁) (hw.step hr h₁ (hc c (.head _)))
      (fun c' hm => hc c' (.tail _ hm)) h

theorem exact_init (snapshots : ℕ → Option ℕ) : Exact (init snapshots) := by
  simp [Exact, init]

/-! ## A failed close -/

/-- A registered dataset with no live handle stays so: no handle of it can be closed, and
every open of it fails. -/
theorem locked_step {w w' : World} {c : Call} {id : ℕ} (hopen : w.db.openDatasets id = true)
    (hid : id ∉ w.handles) (h : w.step c = some w') :
    w'.db.openDatasets id = true ∧ id ∉ w'.handles := by
  rcases step_cases h with ⟨hdb, hh⟩ | ⟨i, hi, hh, hdb⟩ | ⟨i, sync, rfl, hi, hh, hdb⟩
  · rw [hdb, hh]; exact ⟨hopen, hid⟩
  · have hne : id ≠ i := fun he => by simp [he ▸ hopen] at hi
    rw [hdb, hh, Function.update_noteq hne, List.mem_cons]
    exact ⟨hopen, fun h' => h'.elim hne hid⟩
  · have hne : id ≠ i := fun he => hid (he ▸ hi)
    rw [hdb, Database.closeDataset_openDatasets, hh]
    refine ⟨?_, fun h' => hid (List.mem_of_mem_erase h')⟩
    split
    · exact hopen
    · rw [Function.update_noteq hne]; exact hopen

theorem locked_run : ∀ {w w' : World} {cs : List Call} {id : ℕ}, w.db.openDatasets id = true →
    id ∉ w.handles → w.run cs = some w' → w'.db.openDatasets id = true ∧ id ∉ w'.handles
  | _, _, [], _, hopen, hid, h => by cases h; exact ⟨hopen, hid⟩
  | _, _, _ :: _, _, hopen, hid, h => by
    obtain ⟨w₁, h₁, h⟩ := Option.bind_eq_some.1 h
    have := locked_step hopen hid h₁
    exact locked_run this.1 this.2 h

/-- **A failed close locks the dataset out.** Open dataset 1 and close its handle with
`sync_ds` failing: the handle is gone, but 1 stays in `open_datasets`, and no later run opens
it again. -/
theorem close_failure_locks_dataset :
    ∃ w, (init fun _ => none).run
        [.openDatasetWithId 1 (.ok ⟨none⟩), .closeDataset 1 (.error (.other 0))] = some w ∧
      w.handles = [] ∧ ¬ Exact w ∧
      ∀ cs w', w.run cs = some w' → w'.db.openDatasets 1 = true ∧ 1 ∉ w'.handles := by
  refine ⟨⟨⟨Function.update (fun _ => false) 1 true, fun _ => none⟩, []⟩, rfl, rfl,
    fun h => absurd ((h 1).1 rfl) (List.not_mem_nil 1), fun cs w' hr => locked_run rfl
    (List.not_mem_nil 1) hr⟩

/-! ## From the start -/

/-- **One opener per dataset.** On every world a run of registry calls reaches from the
start, the live handles name distinct datasets, each in `open_datasets`; and an open of a
dataset with a live handle changes nothing and fails, with `InUse` once `fetch_ds_data`
succeeds. -/
theorem run_single_opener {snapshots : ℕ → Option ℕ} {cs : List Call} {w : World}
    (h : (init snapshots).run cs = some w) :
    w.handles.Nodup ∧ (∀ id ∈ w.handles, w.db.openDatasets id = true) ∧
      ∀ id ∈ w.handles, ∀ dsData,
        (w.db.openDatasetWithIdAndName id dsData).1 = w.db ∧
          (w.db.openDatasetWithIdAndName id dsData).2 =
            match dsData with
            | .error e => .error e
            | .ok _ => .error .inUse :=
  have hw := registered_run (registered_init snapshots) h
  ⟨hw.nodup, hw.mem_open, fun _ hid dsData => open_live_fails hw hid dsData⟩

/-- Dataset 1 opened from the start. -/
def openOne : List Call := [.openDatasetWithId 1 (.ok ⟨none⟩)]

/-- With dataset 1 open, its one handle is registered and a second open of it fails. -/
theorem run_single_opener_openOne :
    ∃ w, (init fun _ => none).run openOne = some w ∧
      w.handles.Nodup ∧ (∀ id ∈ w.handles, w.db.openDatasets id = true) ∧
        ∀ id ∈ w.handles, ∀ dsData,
          (w.db.openDatasetWithIdAndName id dsData).1 = w.db ∧
            (w.db.openDatasetWithIdAndName id dsData).2 =
              match dsData with
              | .error e => .error e
              | .ok _ => .error .inUse :=
  ⟨_, rfl, run_single_opener (rfl : (init fun _ => none).run openOne = _)⟩

/-- **While no close fails, a dataset opens exactly when it has no live handle.** On every
world reached from the start by a run in which no `sync_ds` of a `close_dataset` fails,
`open_datasets` holds exactly the datasets with a live handle; so, once `fetch_ds_data`
succeeds, an open of a dataset succeeds exactly when it has no live handle. -/
theorem run_open_iff_not_live {snapshots : ℕ → Option ℕ} {cs : List Call} {w : World}
    (hc : ∀ c ∈ cs, ∀ id e, c ≠ .closeDataset id (.error e))
    (h : (init snapshots).run cs = some w) :
    (∀ id, w.db.openDatasets id = true ↔ id ∈ w.handles) ∧
      ∀ id (dsData : DatasetData),
        (w.db.openDatasetWithIdAndName id (.ok dsData)).2 = .ok id ↔ id ∉ w.handles := by
  have hw := exact_run (registered_init snapshots) (exact_init snapshots) hc h
  refine ⟨hw, fun id dsData => ?_⟩
  rw [← hw id]
  by_cases ho : w.db.openDatasets id = true <;>
    simp [Database.openDatasetWithIdAndName, ho]

/-- Dataset 1 opened from the start cannot be opened again, and dataset 2 can. -/
theorem run_open_iff_not_live_openOne :
    (∀ c ∈ openOne, ∀ id e, c ≠ .closeDataset id (.error e)) ∧
      ∃ w, (init fun _ => none).run openOne = some w ∧
        (∀ id, w.db.openDatasets id = true ↔ id ∈ w.handles) ∧
          ∀ id (dsData : DatasetData),
            (w.db.openDatasetWithIdAndName id (.ok dsData)).2 = .ok id ↔ id ∉ w.handles :=
  have hc : ∀ c ∈ openOne, ∀ id e, c ≠ .closeDataset id (.error e) := by
    simp [openOne]
  ⟨hc, _, rfl, run_open_iff_not_live hc (rfl : (init fun _ => none).run openOne = _)⟩

end World

end Betree
