import RexMq.RingReplicas

/-!
# The route table over whole runs

The members of a cluster are kept twice in the route table, as the nodes of
the hash ring and as the keys of the addresses, and five operations change
them, one of which replaces everything by what another node has sent. Over
any run the ring represents the nodes with an address. What is sent does not
hold the ring, so the importing node builds its own; it still answers as the
exporting one does, and nothing it held before has a part in the answers. The
two tables hash with one function: `hash` stands for the hasher of a process,
whose keys are drawn anew when a process starts.
-/

set_option autoImplicit false

namespace RexMq.RouteSync
open RexMq.ByteWords RexMq.ClientRegistry RexMq.RouteTable RexMq.RingOwnership RexMq.RingMembers
open RexMq.ServerState (NodeId)

section Maps
variable {κ ν : Type*} [DecidableEq κ] (pairs : List (κ × ν)) (m : AList (fun _ : κ => ν))

def filled : AList (fun _ : κ => ν) := pairs.foldl (fun m e => m.insert e.1 e.2) m

theorem mem_filled (k : κ) : k ∈ filled pairs m ↔ k ∈ m ∨ k ∈ pairs.map Prod.fst := by
  induction pairs generalizing m with
  | nil => simp [filled]
  | cons e pairs ih =>
    rw [filled, List.foldl_cons, ← filled, ih, AList.mem_insert, List.map_cons, List.mem_cons]
    tauto

theorem lookup_filled_of_not_mem (k : κ) (hk : k ∉ pairs.map Prod.fst) :
    (filled pairs m).lookup k = m.lookup k := by
  induction pairs generalizing m with
  | nil => rfl
  | cons e pairs ih =>
    rw [List.map_cons, List.mem_cons, not_or] at hk
    rw [filled, List.foldl_cons, ← filled, ih _ hk.2, AList.lookup_insert_ne hk.1]

theorem lookup_filled_of_mem (hn : (pairs.map Prod.fst).Nodup) (k : κ) (x : ν)
    (hk : (k,x) ∈ pairs) : (filled pairs m).lookup k = some x := by
  induction pairs generalizing m with
  | nil => cases hk
  | cons e pairs ih =>
    rw [List.map_cons, List.nodup_cons] at hn
    rw [filled, List.foldl_cons, ← filled]
    rcases List.mem_cons.mp hk with rfl | hk
    · rw [lookup_filled_of_not_mem pairs _ k hn.1, AList.lookup_insert]
    · exact ih _ hn.2 hk

def pairsOf : List (κ × ν) := m.entries.map (fun e => (e.1,e.2))

omit [DecidableEq κ] in
theorem map_fst_pairs_of : (pairsOf m).map Prod.fst = m.keys := by
  rw [pairsOf, List.map_map]
  rfl

theorem lookup_filled_pairs (hp : pairs.Perm (pairsOf m)) (k : κ) :
    (filled pairs ∅).lookup k = m.lookup k := by
  have hkeys : (pairs.map Prod.fst).Perm m.keys := by
    rw [← map_fst_pairs_of m]
    exact hp.map _
  cases hx : m.lookup k with
  | none =>
    have hnot : k ∉ m := AList.lookup_eq_none.mp hx
    rw [AList.mem_keys, ← hkeys.mem_iff] at hnot
    rw [lookup_filled_of_not_mem pairs ∅ k hnot, AList.lookup_empty]
  | some x =>
    have hentry : (⟨k,x⟩ : Sigma (fun _ : κ => ν)) ∈ m.entries := AList.mem_lookup_iff.mp hx
    have hpair : (k,x) ∈ pairsOf m := List.mem_map.mpr ⟨_,hentry,rfl⟩
    exact lookup_filled_of_mem pairs ∅ (hkeys.nodup_iff.mpr m.keys_nodup) k x
      (hp.mem_iff.mpr hpair)

end Maps

inductive TableEvent where
  | addNode (node : NodeId) (addr : String)
  | removeNode (node : NodeId)
  | registerClient (client : ClientId) (node : NodeId)
  | unregisterClient (client : ClientId)
  | importState (state : RouteTableState)

section Runs
variable (hash : Bytes → UInt64) (b : BinarySearch)

def tableStep (t : GlobalRouteTable) : TableEvent → GlobalRouteTable
  | .addNode node addr => t.addNode hash node addr
  | .removeNode node => t.removeNode node
  | .registerClient client node => t.registerClient client node
  | .unregisterClient client => t.unregisterClient client
  | .importState state => t.importState hash state

/-- A run from a new table, with or without a local node. -/
def tableAfter (localNode : Option NodeId) (es : List TableEvent) : GlobalRouteTable :=
  es.foldl (tableStep hash) { GlobalRouteTable.new with localNodeId := localNode }

def known (t : GlobalRouteTable) : Finset NodeId := t.nodeIdToAddr.keys.toFinset

theorem mem_known (t : GlobalRouteTable) (n : NodeId) : n ∈ known t ↔ n ∈ t.nodeIdToAddr := by
  rw [known, List.mem_toFinset, AList.mem_keys]

/-- The ring of the table is the one of the nodes with an address. -/
def Mirrors (t : GlobalRouteTable) : Prop := Represents hash 150 (known t) t.titleToNodes

theorem sound_of_mirrors (t : GlobalRouteTable) (ht : Mirrors hash t) : t.Sound where
  ring := ht.placed.toSound
  spread := by
    rw [ht.spread]
    exact Nat.succ_pos 149
  nodes n := by rw [ht.members, mem_known]

theorem import_ring (state : RouteTableState) (t : GlobalRouteTable) :
    (t.importState hash state).titleToNodes =
      ringAfter hash 150 (state.nodeIdToAddr.map (fun e => .addNode e.1)) := by
  rw [ringAfter, List.foldl_map]
  rfl

theorem mem_members_adds (nodes : List NodeId) (all : Finset NodeId) (n : NodeId) :
    n ∈ (nodes.map RingEvent.addNode).foldl memberStep all ↔ n ∈ all ∨ n ∈ nodes := by
  induction nodes generalizing all with
  | nil => simp
  | cons m nodes ih =>
    rw [List.map_cons, List.foldl_cons, ih, memberStep, Finset.mem_insert, List.mem_cons]
    tauto

theorem mirrors_import (state : RouteTableState) (t : GlobalRouteTable) :
    Mirrors hash (t.importState hash state) := by
  have hmembers : known (t.importState hash state) =
      members (state.nodeIdToAddr.map (fun e => .addNode e.1)) := by
    have hmap : state.nodeIdToAddr.map (fun e => RingEvent.addNode e.1) =
        (state.nodeIdToAddr.map Prod.fst).map RingEvent.addNode := by
      rw [List.map_map]
      rfl
    ext n
    rw [mem_known, members, hmap, mem_members_adds]
    show n ∈ filled state.nodeIdToAddr ∅ ↔ _
    rw [mem_filled]
    simp
  rw [Mirrors, hmembers, import_ring]
  exact represents_run hash 150 _

theorem mirrors_step (t : GlobalRouteTable) (e : TableEvent) (ht : Mirrors hash t) :
    Mirrors hash (tableStep hash t e) := by
  cases e with
  | addNode node addr =>
    have hknown : known (t.addNode hash node addr) = insert node (known t) := by
      ext n
      rw [mem_known, Finset.mem_insert, mem_known, GlobalRouteTable.addNode, AList.mem_insert]
    show Represents hash 150 (known (t.addNode hash node addr)) (t.titleToNodes.addNode hash node)
    rw [hknown]
    exact represents_step hash 150 (known t) t.titleToNodes (.addNode node) ht
  | removeNode node =>
    have hknown : known (t.removeNode node) = (known t).erase node := by
      ext n
      rw [mem_known, Finset.mem_erase, mem_known, GlobalRouteTable.removeNode, AList.mem_erase]
    show Represents hash 150 (known (t.removeNode node)) (t.titleToNodes.removeNode node)
    rw [hknown]
    exact represents_step hash 150 (known t) t.titleToNodes (.removeNode node) ht
  | registerClient client node => exact ht
  | unregisterClient client => exact ht
  | importState state => exact mirrors_import hash state t

theorem mirrors_run (localNode : Option NodeId) (es : List TableEvent) :
    Mirrors hash (tableAfter hash localNode es) := by
  have hnew : Mirrors hash { GlobalRouteTable.new with localNodeId := localNode } :=
    ⟨placed_empty hash 150,rfl,fun n => by
      simp [known, GlobalRouteTable.new, HashRing.new, HashRing.withVirtualNodes]⟩
  exact List.foldlRecOn es (tableStep hash) hnew (fun t ht e _ => mirrors_step hash t e ht)

/-- In every state of a run the ring has the nodes with an address, so a title
has an owner when there is one, and an answer names only nodes with an address. -/
theorem routes_have_addresses (localNode : Option NodeId) (es : List TableEvent) (title : Title) :
    (∀ n, n ∈ (tableAfter hash localNode es).titleToNodes.nodes ↔
      n ∈ (tableAfter hash localNode es).nodeIdToAddr.keys) ∧
    (((tableAfter hash localNode es).getNodeByTitle hash b title).isSome ↔
      ∃ n, n ∈ (tableAfter hash localNode es).getAllNodes) ∧
    (∀ n, (tableAfter hash localNode es).getNodeByTitle hash b title = some n →
      ((tableAfter hash localNode es).getNodeAddr n).isSome) ∧
    ∀ fuel count nodes,
      (tableAfter hash localNode es).getNodesByTitle hash b fuel title count = some (.ok nodes) →
      ∀ n ∈ nodes, ((tableAfter hash localNode es).getNodeAddr n).isSome := by
  have hsound := sound_of_mirrors hash _ (mirrors_run hash localNode es)
  generalize tableAfter hash localNode es = t at hsound ⊢
  have howner : ∀ n, t.getNodeByTitle hash b title = some n → n ∈ t.nodeIdToAddr := by
    intro n hn
    by_cases hne : t.titleToNodes.ring = []
    · rw [GlobalRouteTable.getNodeByTitle, get_of_empty hash b _ hne] at hn
      cases hn
    · obtain ⟨m, hm, hget⟩ := HashRing.get_eq_some hash b t.titleToNodes title hsound.ring hne
      rw [GlobalRouteTable.getNodeByTitle, hget] at hn
      cases hn
      exact (hsound.nodes n).mp hm
  refine ⟨fun n => ?_,?_,fun n hn => ?_,fun fuel count nodes h n hn => ?_⟩
  · rw [HashRing.nodes, ← AList.mem_keys, hsound.nodes, AList.mem_keys]
  · constructor
    · intro hsome
      obtain ⟨n, hn⟩ := Option.isSome_iff_exists.mp hsome
      exact ⟨n,(GlobalRouteTable.mem_get_all_nodes t n).mpr (howner n hn)⟩
    · rintro ⟨n, hn⟩
      obtain ⟨owner, -, hget⟩ := GlobalRouteTable.owner_known hash b t title n hsound
        ((GlobalRouteTable.mem_get_all_nodes t n).mp hn)
      rw [hget]
      rfl
  · exact AList.lookup_isSome.mpr (howner n hn)
  · have hin := RingReplicas.get_n_known hash b t.titleToNodes fuel title count nodes hsound.ring
      hsound.spread h n hn
    exact AList.lookup_isSome.mpr ((hsound.nodes n).mp hin)

end Runs

section Sync
variable (hash : Bytes → UInt64) (b : BinarySearch)

/-- What a table may export: its pairs in whatever order the maps list them. -/
structure Exports (t : GlobalRouteTable) (state : RouteTableState) : Prop where
  version : state.version = t.exportState.version
  clients : state.clientIdToNode.Perm t.exportState.clientIdToNode
  nodes : state.nodeIdToAddr.Perm t.exportState.nodeIdToAddr

/-- The two tables answer every query in the same way. -/
structure AnswersLike (t u : GlobalRouteTable) : Prop where
  clients : ∀ c, t.getNodeByClient c = u.getNodeByClient c
  addresses : ∀ n, t.getNodeAddr n = u.getNodeAddr n
  nodes : ∀ n, n ∈ t.getAllNodes ↔ n ∈ u.getAllNodes
  version : t.version = u.version
  titles : HashSeparates hash 150 (known u) → ∀ title,
    t.getNodeByTitle hash b title = u.getNodeByTitle hash b title ∧
      ∀ fuel n, t.getNodesByTitle hash b fuel title n = u.getNodesByTitle hash b fuel title n

theorem import_lookups (t u : GlobalRouteTable) (state : RouteTableState) (hx : Exports u state) :
    (∀ c, (t.importState hash state).getNodeByClient c = u.getNodeByClient c) ∧
      ∀ n, (t.importState hash state).getNodeAddr n = u.getNodeAddr n :=
  ⟨lookup_filled_pairs state.clientIdToNode u.clientIdToNode hx.clients,
    lookup_filled_pairs state.nodeIdToAddr u.nodeIdToAddr hx.nodes⟩

theorem answers_like_import (t u : GlobalRouteTable) (state : RouteTableState)
    (hu : Mirrors hash u) (hx : Exports u state) :
    AnswersLike hash b (t.importState hash state) u := by
  obtain ⟨hclients, haddrs⟩ := import_lookups hash t u state hx
  have hnodes : ∀ n, n ∈ (t.importState hash state).nodeIdToAddr ↔ n ∈ u.nodeIdToAddr := by
    intro n
    rw [← AList.lookup_isSome, ← AList.lookup_isSome]
    exact Bool.eq_iff_iff.mp (congrArg Option.isSome (haddrs n))
  have hknown : known (t.importState hash state) = known u := by
    ext n
    rw [mem_known, mem_known, hnodes]
  have himport := mirrors_import hash state t
  rw [Mirrors, hknown] at himport
  refine ⟨hclients,haddrs,fun n => ?_,hx.version,fun hsep title => ⟨?_,fun fuel n => ?_⟩⟩
  · rw [GlobalRouteTable.mem_get_all_nodes, GlobalRouteTable.mem_get_all_nodes, hnodes]
  · exact same_owner hash b 150 (known u) _ _ himport hu hsep title
  · exact same_replicas hash b 150 (known u) _ _ himport hu hsep fuel title n

/-- A table that imports what another exports answers like it, and what it is
then depends on nothing it held but its local node. -/
theorem import_of_export (localNode : Option NodeId) (es : List TableEvent) (t : GlobalRouteTable)
    (state : RouteTableState) (hx : Exports (tableAfter hash localNode es) state) :
    AnswersLike hash b (t.importState hash state) (tableAfter hash localNode es) ∧
    (t.importState hash state).localNodeId = t.localNodeId ∧
    ∀ other : GlobalRouteTable, other.localNodeId = t.localNodeId →
      other.importState hash state = t.importState hash state := by
  refine ⟨answers_like_import hash b t _ state (mirrors_run hash localNode es) hx,rfl,?_⟩
  intro other hlocal
  rw [GlobalRouteTable.importState, GlobalRouteTable.importState, hlocal]

end Sync

/-- The bytes of a key with a mark after them as a number: a hash that keeps
keys of at most seven bytes apart. -/
def markedNumber (bs : Bytes) : UInt64 := UInt64.ofNat (ofLe (bs++[1]))

theorem of_le_marked_pos (bs : Bytes) : 0 < ofLe (bs++[1]) := by
  induction bs with
  | nil => decide
  | cons b bs ih =>
    rw [List.cons_append, ofLe]
    omega

theorem of_le_marked_inj (bs cs : Bytes) (h : ofLe (bs++[1]) = ofLe (cs++[1])) : bs = cs := by
  induction bs generalizing cs with
  | nil =>
    cases cs with
    | nil => rfl
    | cons c cs =>
      have hpos := of_le_marked_pos cs
      simp only [List.nil_append, List.cons_append, ofLe, UInt8.toNat_one] at h
      omega
  | cons b bs ih =>
    cases cs with
    | nil =>
      have hpos := of_le_marked_pos bs
      simp only [List.nil_append, List.cons_append, ofLe, UInt8.toNat_one] at h
      omega
    | cons c cs =>
      have hb := b.toNat_lt
      have hc := c.toNat_lt
      simp only [List.cons_append, ofLe] at h
      rw [ih cs (by omega), UInt8.toNat_inj.mp (show b.toNat = c.toNat by omega)]

theorem marked_number_inj (bs cs : Bytes) (hb : bs.length ≤ 7) (hc : cs.length ≤ 7)
    (h : markedNumber bs = markedNumber cs) : bs = cs := by
  have hlt : ∀ ds : Bytes, ds.length ≤ 7 → ofLe (ds++[1]) < 2^64 := by
    intro ds hd
    have hpow : 256^(ds++[1]).length ≤ 256^8 := by
      refine Nat.pow_le_pow_right (by omega) ?_
      rw [List.length_append, List.length_singleton]
      omega
    exact (of_le_lt (ds++[1])).trans_le hpow
  apply of_le_marked_inj
  have hnat := congrArg UInt64.toNat h
  rwa [markedNumber, markedNumber, UInt64.toNat_ofNat', UInt64.toNat_ofNat',
    Nat.mod_eq_of_lt (hlt bs hb), Nat.mod_eq_of_lt (hlt cs hc)] at hnat

/-- Two nodes with addresses, and a client of the second. -/
def twoNodes : GlobalRouteTable :=
  tableAfter markedNumber none [.addNode "a" "x", .addNode "b" "y", .registerClient 7 "b"]

theorem two_nodes_separated : HashSeparates markedNumber 150 (known twoNodes) := by
  have hknown : ∀ n ∈ known twoNodes, n = "a" ∨ n = "b" := by decide +kernel
  have hshort : ∀ n ∈ known twoNodes, ∀ i < 150, (virtualNodeKey n i).length ≤ 7 := by
    intro n hn
    rcases hknown n hn with rfl | rfl
    · decide +kernel
    · decide +kernel
  intro n hn m hm i hi j hj h
  exact marked_number_inj _ _ (hshort n hn i hi) (hshort m hm j hj) h

theorem import_of_export_two_nodes :
    HashSeparates markedNumber 150 (known twoNodes) ∧
      AnswersLike markedNumber .first
        (GlobalRouteTable.importState markedNumber twoNodes.exportState
          (tableAfter markedNumber (some "c") [.addNode "c" "z"])) twoNodes ∧
      ∀ title, (GlobalRouteTable.importState markedNumber twoNodes.exportState
          (tableAfter markedNumber (some "c") [.addNode "c" "z"])).getNodeByTitle markedNumber
          .first title = twoNodes.getNodeByTitle markedNumber .first title := by
  have hanswers := (import_of_export markedNumber .first none
    [.addNode "a" "x", .addNode "b" "y", .registerClient 7 "b"]
    (tableAfter markedNumber (some "c") [.addNode "c" "z"]) _
    ⟨rfl,List.Perm.refl _,List.Perm.refl _⟩).1
  exact ⟨two_nodes_separated,hanswers,
    fun title => (hanswers.titles two_nodes_separated title).1⟩

end RexMq.RouteSync
