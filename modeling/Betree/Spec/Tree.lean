import Mathlib.Data.List.Basic

/-!
# The tree's read path and node iterator

`tree/imp/mod.rs`: `get_with_info` walks from the root to a leaf, collecting the messages the
internal nodes buffer for the key, and folds them into the leaf's entry; `get` drops the
entry's `KeyInfo`. `node_iter` walks the tree breadth first through a queue.

The nodes (`node.rs`) and the message actions (`message_action.rs`,
`default_message_action.rs`) are not under `src/`. A walk is given by what `Node::get`
pushes on the way down, root first, and by the leaf's entry for the key. The message action
is a parameter, as `M: MessageAction` is in the code. The DML errors of fetching a node are
left out.
-/

namespace Betree.Tree

variable {κ ι μ ν : Type}

/-- `get_with_info(key)` once the walk has reached the leaf: `msgs` are the pushed messages,
root first, and `data` is the leaf's entry. `none` when `tmp.unwrap()` panics. -/
def getWithInfo (apply : κ → μ → Option ν → Option ν) (key : κ) (msgs : List (ι × μ))
    (data : Option (ι × ν)) : Option (Option (ι × ν)) :=
  match data with
  | none => some none
  | some (info, data) =>
    match msgs.reverse.foldl (fun tmp m => apply key m.2 tmp) (some data) with
    | some data => some (some (info, data))
    | none => none

/-- `TreeBaseLayer::get(key)`. -/
def get (apply : κ → μ → Option ν → Option ν) (key : κ) (msgs : List (ι × μ))
    (data : Option (ι × ν)) : Option (Option ν) :=
  (getWithInfo apply key msgs data).map (Option.map Prod.snd)

/-- The value the read path stands for: the messages applied from the deepest up to the root,
to the leaf's value. -/
def foldMessages (apply : κ → μ → Option ν → Option ν) (key : κ) (msgs : List (ι × μ))
    (value : Option ν) : Option ν :=
  msgs.foldr (fun m v => apply key m.2 v) value

/-- Modelled from the spec: the insert and delete messages of `DefaultMessageAction`. -/
inductive DefaultMsg (ν : Type)
  | insert (value : ν)
  | delete
  deriving DecidableEq, Repr

/-- Modelled from the spec: `DefaultMessageAction::apply`, where an insert message sets the
value and a delete message removes it. -/
def DefaultMsg.apply (_key : κ) : DefaultMsg ν → Option ν → Option ν
  | .insert value, _ => some value
  | .delete, _ => none

/-! ## `node_iter` -/

/-- Modelled from the spec: what `TreeIterator` reads of a node, its level (`0` for a leaf)
and `child_pointer_iter()` (`None` for a leaf), each child reference given by
`get_unmodified()`: the object pointer of an unmodified child, `None` for a modified one. -/
structure Node (π : Type) where
  level : ℕ
  childPointers : Option (List (Option π))

variable {π : Type}

/-- The object pointers of the unmodified children of `n`, in order. -/
def Node.unmodified (n : Node π) : List π := (n.childPointers.getD []).filterMap id

/-- `TreeIterator`: the depth it compares levels with, and its queue `node`. -/
structure TreeIterator (π : Type) where
  depth : ℕ
  node : List (Option π × Option (Node π))

/-- What `next` pushes for the node `n` it popped, and the pointers it fetches with
`get_node` (`fetch`, `None` when the fetch fails): for each unmodified child, the pointer
alone when `n.level() >= depth - 1`, else the pointer and the fetched node, dropped when the
fetch fails. -/
def pushChildren (fetch : π → Option (Node π)) (depth : ℕ) (n : Node π) :
    List (Option π × Option (Node π)) × List π :=
  match n.childPointers with
  | none => ([], [])
  | some refs =>
    (refs.filterMap id |>.filterMap fun ptr =>
      if n.level ≥ depth - 1 then some (some ptr, none)
      else (fetch ptr).map fun node => (some ptr, some node),
     refs.filterMap id |>.filter fun _ => ¬ n.level ≥ depth - 1)

/-- `next` pushes no entry without a pointer. -/
theorem pushChildren_some (fetch : π → Option (Node π)) (depth : ℕ) (n : Node π) :
    (pushChildren fetch depth n).1.filter (·.1.isNone) = [] := by
  unfold pushChildren
  split
  · rfl
  · simp only [List.filter_eq_nil_iff, List.mem_filterMap]
    rintro _ ⟨ptr, -, h⟩
    split_ifs at h <;> [cases h; obtain ⟨_, -, rfl⟩ := Option.map_eq_some'.1 h] <;> simp

/-- `TreeIterator::next`: the pointer yielded, the queue after, and the pointers fetched. An
entry without a pointer (the root) is expanded and passed over. -/
def TreeIterator.next (fetch : π → Option (Node π)) (depth : ℕ) :
    List (Option π × Option (Node π)) → Option π × List (Option π × Option (Node π)) × List π
  | [] => (none, [], [])
  | (none, some n) :: rest =>
    let r := next fetch depth (rest ++ (pushChildren fetch depth n).1)
    (r.1, r.2.1, (pushChildren fetch depth n).2 ++ r.2.2)
  | (some ptr, some n) :: rest =>
    (some ptr, rest ++ (pushChildren fetch depth n).1, (pushChildren fetch depth n).2)
  | (objptr, none) :: rest => (objptr, rest, [])
termination_by q => (q.filter (·.1.isNone)).length
decreasing_by
  simp only [List.filter_append, pushChildren_some, List.append_nil, List.filter_cons,
    Option.isNone_none, if_true, List.length_cons]
  omega

/-- The pointers a consumer of the iterator receives, calling `next` at most `fuel` times
and stopping at the first `None`, and the pointers fetched meanwhile. -/
def TreeIterator.drain (fetch : π → Option (Node π)) (depth : ℕ) :
    ℕ → List (Option π × Option (Node π)) → List π × List π
  | 0, _ => ([], [])
  | fuel + 1, q =>
    match next fetch depth q with
    | (none, _, fetched) => ([], fetched)
    | (some ptr, q, fetched) =>
      let r := drain fetch depth fuel q
      (ptr :: r.1, fetched ++ r.2)

/-- `Tree::depth`: the root's level plus one. -/
def depth (root : Node π) : ℕ := root.level + 1

/-- `Tree::node_iter`: the queue starts with the root, without a pointer. -/
def nodeIter (root : Node π) : TreeIterator π := ⟨depth root, [(none, some root)]⟩

end Betree.Tree
