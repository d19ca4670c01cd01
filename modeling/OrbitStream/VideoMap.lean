/-
OrbitStream/VideoMap.lean

The viewing graph of a conference (`modules/video_map.{h,cc}`).

Every participant is a node.  A node has a current source `src_` (the stream it
is being shown) and an expected source `expected_src_` (the stream it will be
shown as soon as that stream is prepared), and every node keeps the sets of its
current and expected lookers.  One node is the master.

A `Node *` is named by the id of the node it points at: `all_node_` holds one
node per id, and a node taken out of the map is unbound before it is deleted.
The four pointer fields of all nodes are kept as two link tables (`cur` for
`src_`/`lookers_`, `exp` for `expected_src_`/`expected_lookers_`), separate from
`all_node_`, because `Remove` erases a node from the map while the graph still
refers to it.

The callbacks only read the map, so an operation returns the new map and the
list of calls it made, in order.
-/
import Mathlib.Data.Finset.Card
import OrbitStream.Lib.Links

namespace Orbit

open Lib

/-- `VideoMap::id_t`. -/
abbrev Id := Int

/-- `VideoMap::NOID`. -/
def NOID : Id := -1

/-- The state of a `VideoMap`. -/
structure VideoMap where
  /-- `src_` and `lookers_` of every node -/
  cur : Links Id Id
  /-- `expected_src_` and `expected_lookers_` of every node -/
  exp : Links Id Id
  /-- the keys of `all_node_` -/
  allNode : Std.TreeSet Id
  /-- `master_` -/
  master : Id

namespace VideoMap

/-- The calls a `VideoMap` makes to its owner.  The listener of a source change
asks for `GetSrc` at once, so that event carries the answer it gets. -/
inductive Event
  | prepare (id : Id)
  | enabled (id : Id)
  | disabled (id : Id)
  | hasLooker (id : Id)
  | noLooker (id : Id)
  | srcChanged (id src : Id)
  deriving DecidableEq, Repr

/-- A map without nodes. -/
def init : VideoMap where
  cur := Links.empty
  exp := Links.empty
  allNode := ∅
  master := NOID

/-! ### Nodes -/

/-- `Node::src`. -/
def src (vm : VideoMap) (n : Id) : Option Id := vm.cur.fwd n

/-- `Node::expected_src`. -/
def expectedSrc (vm : VideoMap) (n : Id) : Option Id := vm.exp.fwd n

/-- `Node::lookers_`. -/
def lookers (vm : VideoMap) (m : Id) : Finset Id := vm.cur.back m

/-- `Node::expected_lookers_`. -/
def expectedLookers (vm : VideoMap) (m : Id) : Finset Id := vm.exp.back m

/-- `Node::GetLookerCount`. -/
def getLookerCount (vm : VideoMap) (m : Id) : Nat :=
  (vm.lookers m).card + (vm.expectedLookers m).card

/-- `Node::HasCurLooker`. -/
def hasCurLooker (vm : VideoMap) (m : Id) : Bool := decide (0 < (vm.lookers m).card)

/-- `new Node(id)`: a node without links. -/
def newNode (vm : VideoMap) (id : Id) : VideoMap :=
  { vm with cur := vm.cur.blank id, exp := vm.exp.blank id }

/-- `delete node`: its record is gone. -/
def deleteNode (vm : VideoMap) (id : Id) : VideoMap :=
  { vm with cur := vm.cur.blank id, exp := vm.exp.blank id }

/-- `Node::set_src` with a non-null argument. -/
def setSrc (vm : VideoMap) (n m : Id) : VideoMap :=
  { vm with cur := vm.cur.bind n m }

/-- `Node::set_expected_src` with a non-null argument. -/
def setExpectedSrc (vm : VideoMap) (n m : Id) : VideoMap :=
  { vm with exp := vm.exp.bind n m }

/-- `Node::UnbindExpectedSrc`. -/
def unbindExpectedSrc (vm : VideoMap) (n : Id) : VideoMap :=
  { vm with exp := vm.exp.unbind n }

/-- `Node::Unbind`: `UnbindCurrent` and then `UnbindExpected`, each the node's
own source first and its lookers after. -/
def unbind (vm : VideoMap) (n : Id) : VideoMap :=
  { vm with
    cur := (vm.cur.unbind n).release n
    exp := (vm.exp.unbind n).release n }

/-- `Node::GetAllCurrentLooker`.  The set is ordered by node address; the ids
are listed in the order of the map here. -/
def getAllCurrentLooker (vm : VideoMap) (m : Id) : List Id :=
  vm.allNode.toList.filter (· ∈ vm.lookers m)

/-- `Node::GetAllExpectedLooker`. -/
def getAllExpectedLooker (vm : VideoMap) (m : Id) : List Id :=
  vm.allNode.toList.filter (· ∈ vm.expectedLookers m)

/-! ### Queries -/

/-- `VideoMap::Contains`. -/
def contains (vm : VideoMap) (id : Id) : Bool := vm.allNode.contains id

/-- `VideoMap::GetAllId`. -/
def getAllId (vm : VideoMap) : List Id := vm.allNode.toList

/-- `VideoMap::GetSrc`. -/
def getSrc (vm : VideoMap) (id : Id) : Id :=
  if vm.contains id then
    match vm.src id with
    | none => NOID
    | some s => s
  else NOID

/-- `VideoMap::GetMaster`. -/
def getMaster (vm : VideoMap) : Id := vm.master

/-- `VideoMap::SelectNewSrc`.  The last line is the `LOG(FATAL)` after the
loop. -/
def selectNewSrc (vm : VideoMap) (myid : Id) : Id :=
  if vm.allNode.size = 0 then NOID
  else if myid ≠ vm.master then vm.master
  else if vm.allNode.size = 1 then myid
  else
    match vm.allNode.toList.find? (· ≠ myid) with
    | some id => id
    | none => NOID

/-- `VideoMap::SelectNewMaster`: the first id of the map. -/
def selectNewMaster (vm : VideoMap) : Id :=
  match vm.allNode.toList with
  | [] => NOID
  | id :: _ => id

/-! ### Change detectors

A detector is built before an operation, when it copies the looker counts, and
asked after it; the copy is the map as it was. -/

/-- `EnabledDetector::Detect`. -/
def enabledDetect (old now : VideoMap) : List Event :=
  (now.allNode.toList.filter fun id =>
    0 < now.getLookerCount id ∧ (¬ old.contains id ∨ old.getLookerCount id = 0)).map .enabled

/-- `DisabledDetector::Detect`. -/
def disabledDetect (old now : VideoMap) : List Event :=
  (old.allNode.toList.filter fun id =>
    old.getLookerCount id ≠ 0 ∧ (¬ now.contains id ∨ now.getLookerCount id = 0)).map .disabled

/-- `HasLookerDetector::Detect`. -/
def hasLookerDetect (old now : VideoMap) : List Event :=
  (now.allNode.toList.filter fun id =>
    now.hasCurLooker id ∧ (¬ old.contains id ∨ ¬ old.hasCurLooker id)).map .hasLooker

/-- `NoLookerDetector::Detect`. -/
def noLookerDetect (old now : VideoMap) : List Event :=
  (old.allNode.toList.filter fun id =>
    old.hasCurLooker id ∧ now.contains id ∧ ¬ now.hasCurLooker id).map .noLooker

/-- `EventDetector::Detect`. -/
def detect (old now : VideoMap) : List Event :=
  enabledDetect old now ++ disabledDetect old now
    ++ hasLookerDetect old now ++ noLookerDetect old now

/-! ### Operations -/

/-- `VideoMap::Add`. -/
def add (vm : VideoMap) (id : Id) : VideoMap × List Event :=
  if vm.contains id then (vm, [])
  else
    let g := { vm.newNode id with allNode := vm.allNode.insert id }
    if g.allNode.size = 1 then
      -- only one people: he is the master and sees himself
      let g := { g with master := id }
      let g := g.setExpectedSrc id g.master
      (g, .prepare g.master :: detect vm g)
    else if g.allNode.size = 2 then
      -- two people see each other
      let g := g.setExpectedSrc g.master id
      let g := g.setExpectedSrc id g.master
      (g, .prepare id :: .prepare g.master :: detect vm g)
    else
      let g := g.setExpectedSrc id g.master
      (g, .prepare g.master :: detect vm g)

/-- The branch of `VideoMap::Remove` for the master, after the erase. -/
def removeMaster (vm : VideoMap) (id : Id) : VideoMap × List Event :=
  let g := vm.unbind id
  let g := { g with master := g.selectNewMaster }
  let newMasterSrc := g.selectNewSrc g.master
  let g := g.setExpectedSrc g.master newMasterSrc
  let others := g.allNode.toList.filter (· ≠ g.master)
  let g := { g with exp := g.exp.bindEach others fun _ => g.master }
  (g, [.prepare newMasterSrc, .prepare g.master])

/-- The branch of `VideoMap::Remove` for any other node, after the erase.  The
two vectors are the lookers of the removed node. -/
def removeOther (vm : VideoMap) (id : Id) (lookers expectedLookers : List Id) :
    VideoMap × List Event :=
  let prepIds := (lookers ++ expectedLookers).foldl
    (fun (s : Std.TreeSet Id) n => s.insert (vm.selectNewSrc n)) ∅
  let g := { vm with exp := vm.exp.bindEach lookers vm.selectNewSrc }
  let g := { g with exp := g.exp.bindEach expectedLookers vm.selectNewSrc }
  (g.unbind id, prepIds.toList.map .prepare)

/-- `VideoMap::Remove`. -/
def remove (vm : VideoMap) (id : Id) : VideoMap × List Event :=
  if vm.contains id then
    let g := { vm with allNode := vm.allNode.erase id }
    if g.allNode.isEmpty then
      let g := { g with master := NOID }.deleteNode id
      (g, detect vm g)
    else
      let (g, evs) :=
        if id = vm.master then g.removeMaster id
        else g.removeOther id (vm.getAllCurrentLooker id) (vm.getAllExpectedLooker id)
      let g := g.deleteNode id
      (g, evs ++ detect vm g)
  else (vm, [])

/-- `VideoMap::SetMaster`. -/
def setMaster (vm : VideoMap) (id : Id) : VideoMap × List Event :=
  if vm.contains id then
    if id = vm.master then (vm, [])
    else
      let others := vm.allNode.toList.filter (· ≠ id)
      let g := { vm with master := id, exp := vm.exp.bindEach others fun _ => id }
      let evs := if others.isEmpty then [] else [Event.prepare id]
      (g, evs ++ detect vm g)
  else (vm, [])

/-- One turn of the loop of `VideoMap::SetPrepared`. -/
def setPreparedNode (id : Id) (acc : VideoMap × List Event) (n : Id) :
    VideoMap × List Event :=
  let vm := acc.1
  if vm.expectedSrc n = some id then
    let g := (vm.unbindExpectedSrc n).setSrc n id
    if vm.src n ≠ vm.expectedSrc n then (g, acc.2 ++ [.srcChanged n (g.getSrc n)])
    else (g, acc.2)
  else acc

/-- `VideoMap::SetPrepared`. -/
def setPrepared (vm : VideoMap) (id : Id) : VideoMap × List Event :=
  if vm.contains id then
    let (g, evs) := vm.allNode.toList.foldl (setPreparedNode id) (vm, [])
    (g, evs ++ detect vm g)
  else (vm, [])

/-! ### Runs -/

/-- The mutating operations of a `VideoMap`. -/
inductive Op
  | add (id : Id)
  | remove (id : Id)
  | setMaster (id : Id)
  | setPrepared (id : Id)
  deriving DecidableEq, Repr

/-- The id an operation is called with. -/
def Op.id : Op → Id
  | .add id | .remove id | .setMaster id | .setPrepared id => id

/-- One call. -/
def step (vm : VideoMap) : Op → VideoMap × List Event
  | .add id => vm.add id
  | .remove id => vm.remove id
  | .setMaster id => vm.setMaster id
  | .setPrepared id => vm.setPrepared id

/-- The map after a sequence of calls on an empty one. -/
def run (ops : List Op) : VideoMap :=
  ops.foldl (fun vm op => (vm.step op).1) init

end VideoMap

end Orbit
