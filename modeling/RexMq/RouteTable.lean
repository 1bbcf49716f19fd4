import Mathlib.Data.List.AList
import Mathlib.Data.List.Sort
import Mathlib.Tactic.Common
import RexMq.ClockwiseSearch
import RexMq.FiniteRun
import RexMq.ServerState

/-!
# The hash ring and the route table

Every node stands on the ring once for each of its virtual nodes, at the hash
of a key made of its name and a number, and a key belongs to the first
position at or after its own hash. The positions are kept three times: in the
order of insertion with their nodes, by node, and sorted. The hash function is
a parameter, and so is the library's binary search, which among several equal
positions may land on any of them. The route table adds the nodes' addresses.
-/

set_option autoImplicit false

namespace RexMq.RouteTable
open RexMq.ByteWords RexMq.ClientRegistry RexMq.FiniteRun
open RexMq.ClockwiseSearch (visit owner owner_mem owner_isSome)
open RexMq.ServerState (NodeId)

structure HashRing where
  virtualNodes : ℕ
  ring : List (UInt64 × NodeId)
  positions : AList (fun _ : NodeId => List UInt64)
  sortedRing : List UInt64

/-- The bytes of `"{node}-{i}"`. -/
def virtualNodeKey (node : NodeId) (i : ℕ) : Bytes :=
  (node++"-"++toString i).toByteArray.data.toList

/-- `binary_search`: a position of the element, or the place it would take. -/
structure BinarySearch where
  search : List UInt64 → UInt64 → Except ℕ ℕ
  found : ∀ xs x p, search xs x = .ok p → xs[p]? = some x
  place : ∀ xs x p, xs.Pairwise (· ≤ ·) → search xs x = .error p →
    (∀ y ∈ xs.take p, y < x) ∧ ∀ y ∈ xs.drop p, x < y

/-- The search that always finds the first of several equal elements. -/
def BinarySearch.first : BinarySearch where
  search xs x := if x ∈ xs then .ok (xs.idxOf x) else .error (xs.takeWhile (· < x)).length
  found xs x p h := by
    split_ifs at h with hx
    cases h
    exact List.getElem?_idxOf hx
  place xs x p hs h := by
    split_ifs at h with hx
    cases h
    have hsplit := List.takeWhile_append_dropWhile (p := fun y => decide (y < x)) (l := xs)
    have htake := (List.prefix_iff_eq_take.mp (List.takeWhile_prefix (fun y => decide (y < x))
      (l := xs))).symm
    have hdrop : xs.drop (xs.takeWhile (fun y => decide (y < x))).length =
        xs.dropWhile (fun y => decide (y < x)) :=
      List.append_cancel_left
        ((List.take_append_drop _ xs).trans (hsplit.symm.trans (by rw [htake])))
    rw [htake, hdrop]
    refine ⟨fun y hy => by simpa using List.all_eq_true.mp List.all_takeWhile y hy,?_⟩
    have hrest := hs.sublist (List.dropWhile_sublist (fun y => decide (y < x)))
    have hhead := List.head?_dropWhile_not (fun y => decide (y < x)) xs
    have hmem : ∀ y ∈ xs.dropWhile (fun y => decide (y < x)), y ∈ xs :=
      fun y hy => (List.dropWhile_sublist _).mem hy
    cases hd : xs.dropWhile (fun y => decide (y < x)) with
    | nil => exact fun y hy => (List.not_mem_nil hy).elim
    | cons z zs =>
      rw [hd] at hrest hhead hmem
      have hz : x < z := by
        apply UInt64.lt_of_le_of_ne (by simpa using hhead)
        rintro rfl
        exact hx (hmem x List.mem_cons_self)
      intro y hy
      rcases List.mem_cons.mp hy with rfl | hy
      · exact hz
      · exact UInt64.lt_of_lt_of_le hz ((List.pairwise_cons.mp hrest).1 y hy)

/-- What ends a lookup without a result. -/
inductive RingFault where
  | capacityOverflow
  | outOfBounds (pos : ℕ)
  deriving DecidableEq, Repr

/-- The position and the result of the loop of `get_n`; the nodes seen are
those of the result. -/
structure RingWalk where
  currentPos : ℕ
  result : List NodeId
  deriving DecidableEq, Repr

namespace HashRing

def withVirtualNodes (n : ℕ) : HashRing := ⟨n,[],∅,[]⟩

def new : HashRing := withVirtualNodes 150

def rebuildSorted (r : HashRing) : HashRing :=
  { r with sortedRing := (r.ring.map Prod.fst).insertionSort (· ≤ ·) }

section Updates
variable (hash : Bytes → UInt64) (node : NodeId) (r : HashRing)

def hashes : List UInt64 := (List.range r.virtualNodes).map (fun i => hash (virtualNodeKey node i))

def addNode : HashRing :=
  if node ∈ r.positions then r
  else rebuildSorted { r with
    ring := r.ring++(r.hashes hash node).map (fun h => (h,node))
    positions := r.positions.insert node (r.hashes hash node) }

def removeNode : HashRing :=
  if node ∈ r.positions then rebuildSorted { r with
    ring := r.ring.filter (fun e => e.2 ≠ node)
    positions := r.positions.erase node }
  else r

end Updates

section Lookups
variable (hash : Bytes → UInt64) (b : BinarySearch) (r : HashRing)

def startPos (h : UInt64) : ℕ :=
  match b.search r.sortedRing h with
  | .ok p => p
  | .error p => if r.sortedRing.length ≤ p then 0 else p

def getByHash (h : UInt64) : Option NodeId :=
  if r.sortedRing.isEmpty then none
  else (r.sortedRing[r.startPos b h]?).bind
    (fun target => (r.ring.find? (fun e => e.1 = target)).map Prod.snd)

def get (key : Bytes) : Option NodeId :=
  if r.ring.isEmpty then none else r.getByHash b (hash key)

/-- The most string slices, of two machine words each, that a vector can be
asked to hold: `isize::MAX` bytes. -/
def maxCapacity : ℕ := (2^63-1)/16

/-- One round of the loop of `get_n`: its condition, the access to the sorted
ring and the search of the ring for an entry there whose node is not seen. -/
def getNBody (n : ℕ) : Except RingFault RingWalk → Flow (Except RingFault RingWalk)
  | .error e => .leave (.error e)
  | .ok w =>
    if w.result.length < n ∧ w.result.length < r.positions.keys.length then
      match r.sortedRing[w.currentPos]? with
      | none => .leave (.error (.outOfBounds w.currentPos))
      | some target =>
        .again (.ok ⟨(w.currentPos+1)%r.sortedRing.length,visit r.ring w.result target⟩)
    else .leave (.ok w)

/-- `get_n` with at most `fuel` rounds of its loop; no result if that is not
enough. -/
def getN (fuel : ℕ) (key : Bytes) (n : ℕ) : Option (Except RingFault (List NodeId)) :=
  if r.ring.isEmpty then some (.ok [])
  else if maxCapacity < n then some (.error .capacityOverflow)
  else if r.positions.keys.length = 0 then some (.ok [])
  else match loop (r.getNBody n) fuel (.ok ⟨r.startPos b (hash key),[]⟩) with
    | .again _ => none
    | .leave w => some (w.map RingWalk.result)

def nodes : List NodeId := r.positions.keys

end Lookups

/-- The three records of the positions agree. -/
structure Sound (r : HashRing) : Prop where
  sorted : r.sortedRing = (r.ring.map Prod.fst).insertionSort (· ≤ ·)
  listed : ∀ n, (∃ h, (h,n) ∈ r.ring) ↔ n ∈ r.positions ∧ 0 < r.virtualNodes

section Soundness
variable (hash : Bytes → UInt64) (b : BinarySearch) (node : NodeId) (r : HashRing)

theorem sound_empty (n : ℕ) : (withVirtualNodes n).Sound where
  sorted := rfl
  listed m := by
    constructor
    · rintro ⟨h, hm⟩
      cases hm
    · intro h
      cases h.1

@[simp] theorem virtual_nodes_add : (r.addNode hash node).virtualNodes = r.virtualNodes := by
  unfold addNode
  split_ifs <;> rfl

theorem mem_positions_add (n : NodeId) :
    n ∈ (r.addNode hash node).positions ↔ n = node ∨ n ∈ r.positions := by
  unfold addNode
  split_ifs with h
  · exact ⟨Or.inr,fun hn => hn.elim (fun he => he ▸ h) id⟩
  · exact AList.mem_insert _

theorem mem_hashes_iff : (∃ h, h ∈ r.hashes hash node) ↔ 0 < r.virtualNodes := by
  simp only [hashes, List.mem_map, List.mem_range]
  constructor
  · rintro ⟨_, i, hi, _⟩
    exact Nat.zero_lt_of_lt hi
  · intro h
    exact ⟨_,0,h,rfl⟩

theorem sound_add (hr : r.Sound) : (r.addNode hash node).Sound := by
  unfold addNode
  split_ifs with h
  · exact hr
  · apply Sound.mk rfl
    intro n
    have hadded : (∃ x, (x,n) ∈ (r.hashes hash node).map (fun h => (h,node))) ↔
        n = node ∧ 0 < r.virtualNodes := by
      simp only [List.mem_map, Prod.mk.injEq]
      rw [← mem_hashes_iff hash node r]
      constructor
      · rintro ⟨_, y, hy, _, he⟩
        exact ⟨he.symm,y,hy⟩
      · rintro ⟨he, y, hy⟩
        exact ⟨y,y,hy,rfl,he.symm⟩
    simp only [rebuildSorted, List.mem_append, exists_or, AList.mem_insert]
    rw [hr.listed n, hadded, or_comm, ← or_and_right]

@[simp] theorem virtual_nodes_remove :
    (r.removeNode node).virtualNodes = r.virtualNodes := by
  unfold removeNode
  split_ifs <;> rfl

theorem mem_positions_remove (n : NodeId) :
    n ∈ (r.removeNode node).positions ↔ n ≠ node ∧ n ∈ r.positions := by
  unfold removeNode
  split_ifs with h
  · exact AList.mem_erase
  · exact ⟨fun hn => ⟨fun he => h (he ▸ hn),hn⟩,And.right⟩

theorem sound_remove (hr : r.Sound) : (r.removeNode node).Sound := by
  unfold removeNode
  split_ifs with h
  · apply Sound.mk rfl
    intro n
    simp only [rebuildSorted, List.mem_filter, ne_eq, decide_not, Bool.not_eq_eq_eq_not,
      Bool.not_true, decide_eq_false_iff_not, exists_and_right, AList.mem_erase]
    rw [hr.listed n]
    constructor
    · exact fun ⟨⟨hn, hv⟩, hne⟩ => ⟨⟨hne,hn⟩,hv⟩
    · exact fun ⟨⟨hne, hn⟩, hv⟩ => ⟨⟨hn,hv⟩,hne⟩
  · exact hr

theorem start_pos_lt (h : UInt64) (hr : r.sortedRing ≠ []) :
    r.startPos b h < r.sortedRing.length := by
  have hpos : 0 < r.sortedRing.length := List.length_pos_iff.mpr hr
  unfold startPos
  cases hs : b.search r.sortedRing h with
  | ok p => exact (List.getElem?_eq_some_iff.mp (b.found _ _ p hs)).1
  | error p =>
    show (if r.sortedRing.length ≤ p then 0 else p) < _
    split_ifs with hp
    · exact hpos
    · exact Nat.lt_of_not_le hp

theorem mem_sorted_iff (hr : r.Sound) (h : UInt64) : h ∈ r.sortedRing ↔ ∃ n, (h,n) ∈ r.ring := by
  rw [hr.sorted, List.mem_insertionSort, List.mem_map]
  constructor
  · rintro ⟨e, he, rfl⟩
    exact ⟨e.2,he⟩
  · rintro ⟨n, hn⟩
    exact ⟨(h,n),hn,rfl⟩

theorem sorted_ne_nil (hr : r.Sound) (hne : r.ring ≠ []) : r.sortedRing ≠ [] := by
  rw [hr.sorted, ← List.length_pos_iff, List.length_insertionSort, List.length_map]
  exact List.length_pos_iff.mpr hne

theorem get_at_start (key : Bytes) (hr : r.Sound) (hne : r.ring ≠ [])
    (hlt : r.startPos b (hash key) < r.sortedRing.length) :
    ∃ n, owner r.ring r.sortedRing[r.startPos b (hash key)] = some n ∧
      r.get hash b key = some n := by
  obtain ⟨m, hm⟩ := (mem_sorted_iff r hr _).mp (List.getElem_mem hlt)
  obtain ⟨n, hn⟩ := owner_isSome r.ring _ m hm
  refine ⟨n,hn,?_⟩
  rw [get, if_neg (by simpa using hne), getByHash,
    if_neg (by simpa using sorted_ne_nil r hr hne), List.getElem?_eq_getElem hlt,
    Option.bind_some, ← hn, owner]

theorem get_eq_some (key : Bytes) (hr : r.Sound) (hne : r.ring ≠ []) :
    ∃ n ∈ r.positions, r.get hash b key = some n := by
  have hlt := start_pos_lt b r (hash key) (sorted_ne_nil r hr hne)
  obtain ⟨n, hn, hget⟩ := get_at_start hash b r key hr hne hlt
  exact ⟨n,((hr.listed n).mp ⟨_,owner_mem _ _ n hn⟩).1,hget⟩

end Soundness
end HashRing

structure GlobalRouteTable where
  titleToNodes : HashRing
  clientIdToNode : AList (fun _ : ClientId => NodeId)
  nodeIdToAddr : AList (fun _ : NodeId => String)
  localNodeId : Option NodeId
  version : UInt64

structure RouteTableState where
  version : UInt64
  clientIdToNode : List (ClientId × NodeId)
  nodeIdToAddr : List (NodeId × String)

namespace GlobalRouteTable

def new : GlobalRouteTable := ⟨HashRing.new,∅,∅,none,0⟩

def withLocalNode (node : NodeId) : GlobalRouteTable := { new with localNodeId := some node }

section Operations
variable (hash : Bytes → UInt64) (b : BinarySearch)

def addNode (node : NodeId) (addr : String) (t : GlobalRouteTable) : GlobalRouteTable :=
  { t with
    nodeIdToAddr := t.nodeIdToAddr.insert node addr
    titleToNodes := t.titleToNodes.addNode hash node
    version := t.version+1 }

def removeNode (node : NodeId) (t : GlobalRouteTable) : GlobalRouteTable :=
  { t with
    nodeIdToAddr := t.nodeIdToAddr.erase node
    titleToNodes := t.titleToNodes.removeNode node
    version := t.version+1 }

def registerClient (client : ClientId) (node : NodeId) (t : GlobalRouteTable) : GlobalRouteTable :=
  { t with
    clientIdToNode := t.clientIdToNode.insert client node
    version := t.version+1 }

def unregisterClient (client : ClientId) (t : GlobalRouteTable) : GlobalRouteTable :=
  { t with
    clientIdToNode := t.clientIdToNode.erase client
    version := t.version+1 }

def getNodeByTitle (title : Title) (t : GlobalRouteTable) : Option NodeId :=
  t.titleToNodes.get hash b title

def getNodeAddr (node : NodeId) (t : GlobalRouteTable) : Option String := t.nodeIdToAddr.lookup node

def getAllNodes (t : GlobalRouteTable) : List NodeId := t.nodeIdToAddr.keys

def getNodeByClient (client : ClientId) (t : GlobalRouteTable) : Option NodeId :=
  t.clientIdToNode.lookup client

def getNodesByTitle (fuel : ℕ) (title : Title) (n : ℕ) (t : GlobalRouteTable) :
    Option (Except RingFault (List NodeId)) :=
  t.titleToNodes.getN hash b fuel title n

def exportState (t : GlobalRouteTable) : RouteTableState :=
  ⟨t.version,t.clientIdToNode.entries.map (fun e => (e.1,e.2)),
    t.nodeIdToAddr.entries.map (fun e => (e.1,e.2))⟩

def importState (state : RouteTableState) (t : GlobalRouteTable) : GlobalRouteTable :=
  { t with
    titleToNodes := state.nodeIdToAddr.foldl (fun r e => r.addNode hash e.1) HashRing.new
    clientIdToNode := state.clientIdToNode.foldl (fun m e => m.insert e.1 e.2) ∅
    nodeIdToAddr := state.nodeIdToAddr.foldl (fun m e => m.insert e.1 e.2) ∅
    version := state.version }

end Operations

/-- The ring is sound and its nodes are those with an address. -/
structure Sound (t : GlobalRouteTable) : Prop where
  ring : t.titleToNodes.Sound
  spread : 0 < t.titleToNodes.virtualNodes
  nodes : ∀ n, n ∈ t.titleToNodes.positions ↔ n ∈ t.nodeIdToAddr

section Soundness
variable (hash : Bytes → UInt64) (b : BinarySearch) (t : GlobalRouteTable)

theorem sound_with_local_node (node : NodeId) : (withLocalNode node).Sound :=
  ⟨HashRing.sound_empty 150,Nat.succ_pos 149,fun _ => Iff.rfl⟩

theorem sound_add_node (node : NodeId) (addr : String) (ht : t.Sound) :
    (t.addNode hash node addr).Sound where
  ring := HashRing.sound_add hash node _ ht.ring
  spread := by
    rw [addNode, HashRing.virtual_nodes_add]
    exact ht.spread
  nodes n := by
    show n ∈ (t.titleToNodes.addNode hash node).positions ↔ n ∈ t.nodeIdToAddr.insert node addr
    rw [HashRing.mem_positions_add, AList.mem_insert, ht.nodes]

theorem mem_get_all_nodes (n : NodeId) : n ∈ t.getAllNodes ↔ n ∈ t.nodeIdToAddr :=
  AList.mem_keys.symm

theorem owner_known (title : Title) (n : NodeId) (ht : t.Sound) (hn : n ∈ t.nodeIdToAddr) :
    ∃ owner ∈ t.nodeIdToAddr, t.getNodeByTitle hash b title = some owner := by
  obtain ⟨h, hh⟩ := (ht.ring.listed n).mpr ⟨(ht.nodes n).mpr hn,ht.spread⟩
  obtain ⟨owner, ho, hget⟩ := HashRing.get_eq_some hash b t.titleToNodes title ht.ring
    (List.ne_nil_of_mem hh)
  exact ⟨owner,(ht.nodes owner).mp ho,hget⟩

end Soundness
end GlobalRouteTable
end RexMq.RouteTable
