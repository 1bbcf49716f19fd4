import RexMq.RingMembers

/-!
# The replicas of a key

The loop that collects the nodes of a key has no bound of its own. It walks
the sorted positions from the key's start and takes at each the first entry
whose node it has not seen, so a position that several nodes share gives one
of them each time it is passed. The position stands in the sorted ring as
often as it has entries, so one lap sees every node and ends the loop. The
result is the start of that lap, for every count the result vector can be
asked to hold; a greater count ends the lookup before the walk.
-/

set_option autoImplicit false

namespace RexMq.RingReplicas
open RexMq.ByteWords RexMq.RouteTable RexMq.ClockwiseSearch RexMq.RingOwnership RexMq.FiniteRun
open RexMq.ServerState (NodeId)

section Lap
variable (b : BinarySearch) (r : HashRing) (h : UInt64)

def lapFrom : List UInt64 := r.sortedRing.rotate (r.startPos b h)

/-- All nodes in the order in which the walk meets them. -/
def walkOrder : List NodeId := lap r.ring (lapFrom b r h)

def seenAfter (k : ℕ) : List NodeId := lap r.ring ((lapFrom b r h).take k)

theorem lap_from_length : (lapFrom b r h).length = r.sortedRing.length :=
  List.length_rotate _ _

theorem lap_from_perm (hr : r.Sound) : (lapFrom b r h).Perm (r.ring.map Prod.fst) :=
  (List.rotate_perm r.sortedRing _).trans (sorted_perm r hr)

theorem seen_initial (k : ℕ) : seenAfter b r h k <+: walkOrder b r h := by
  have hsplit := List.take_append_drop k (lapFrom b r h)
  have hfold := prefix_visits r.ring ((lapFrom b r h).drop k) (seenAfter b r h k)
  rw [seenAfter, lap, ← List.foldl_append, hsplit] at hfold
  exact hfold

theorem seen_all (k : ℕ) (hk : r.sortedRing.length ≤ k) :
    seenAfter b r h k = walkOrder b r h := by
  rw [seenAfter, List.take_of_length_le (by rw [lap_from_length]; exact hk), walkOrder]

theorem seen_succ (k : ℕ) (hk : k < r.sortedRing.length) (target : UInt64)
    (ht : r.sortedRing[(r.startPos b h+k)%r.sortedRing.length]? = some target) :
    seenAfter b r h (k+1) = visit r.ring (seenAfter b r h k) target := by
  have hk' : k < (lapFrom b r h).length := by rwa [lap_from_length]
  have hget : (lapFrom b r h)[k] = target := by
    have hrotate := List.getElem_rotate r.sortedRing (r.startPos b h) k hk'
    rw [Nat.add_comm] at ht
    rw [List.getElem?_eq_getElem (Nat.mod_lt _ (Nat.zero_lt_of_lt hk)), Option.some.injEq] at ht
    exact hrotate.trans ht
  rw [seenAfter, List.take_succ_eq_append_getElem hk', lap, List.foldl_append, hget]
  rfl

theorem walk_order_nodup : (walkOrder b r h).Nodup :=
  nodup_visits r.ring (lapFrom b r h) [] List.nodup_nil

theorem mem_walk_order (hr : r.Sound) (n : NodeId) :
    n ∈ walkOrder b r h ↔ ∃ g, (g,n) ∈ r.ring := by
  constructor
  · intro hn
    rcases owner_of_visits r.ring (lapFrom b r h) [] n hn with hnil | ⟨g, -, hg⟩
    · cases hnil
    · exact ⟨g,hg⟩
  · rintro ⟨g, hg⟩
    exact lap_complete r.ring (lapFrom b r h) (lap_from_perm b r h hr) (g,n) hg

theorem walk_order_length (hr : r.Sound) (hv : 0 < r.virtualNodes) :
    (walkOrder b r h).length = r.positions.keys.length := by
  apply List.Perm.length_eq
  apply (List.perm_ext_iff_of_nodup (walk_order_nodup b r h) r.positions.keys_nodup).mpr
  intro n
  rw [mem_walk_order b r h hr, hr.listed n, ← AList.mem_keys]
  exact and_iff_left hv

theorem walk_order_head (hlt : r.startPos b h < r.sortedRing.length) (n : NodeId)
    (ho : owner r.ring r.sortedRing[r.startPos b h] = some n) :
    (walkOrder b r h).head? = some n := by
  have hstart : r.sortedRing[(r.startPos b h+0)%r.sortedRing.length]? =
      some r.sortedRing[r.startPos b h] := by
    rw [Nat.add_zero, Nat.mod_eq_of_lt hlt, List.getElem?_eq_getElem hlt]
  have hfirst := seen_succ b r h 0 (Nat.zero_lt_of_lt hlt) _ hstart
  have hvisit : visit r.ring (seenAfter b r h 0) r.sortedRing[r.startPos b h] = [n] := by
    obtain ⟨e, he, rfl⟩ := Option.map_eq_some_iff.mp ho
    have hnone : seenAfter b r h 0 = [] := rfl
    rw [hnone, visit]
    simp only [List.not_mem_nil, not_false_eq_true, and_true, he, List.nil_append]
  obtain ⟨rest, hrest⟩ := seen_initial b r h 1
  rw [hfirst, hvisit] at hrest
  rw [← hrest]
  rfl

end Lap

section Loop
variable (hash : Bytes → UInt64) (b : BinarySearch) (r : HashRing)

theorem loop_walks (h : UInt64) (n : ℕ) (hr : r.Sound) (hv : 0 < r.virtualNodes)
    (hne : r.ring ≠ []) (left k fuel : ℕ) (hk : k+left = r.sortedRing.length)
    (hfuel : left < fuel) (hlen : (seenAfter b r h k).length ≤ n) :
    ∃ pos, loop (r.getNBody n) fuel
        (.ok ⟨(r.startPos b h+k)%r.sortedRing.length,seenAfter b r h k⟩) =
      .leave (.ok ⟨pos,(walkOrder b r h).take n⟩) := by
  have hpos : 0 < r.sortedRing.length :=
    List.length_pos_iff.mpr (HashRing.sorted_ne_nil r hr hne)
  have htotal := walk_order_length b r h hr hv
  induction left generalizing k fuel with
  | zero =>
    -- the lap is over: every node is seen
    have hall := seen_all b r h k (by omega)
    obtain ⟨fuel, rfl⟩ := Nat.exists_eq_succ_of_ne_zero (Nat.ne_of_gt hfuel)
    refine ⟨(r.startPos b h+k)%r.sortedRing.length,?_⟩
    rw [loop, HashRing.getNBody, if_neg (by rw [hall, htotal]; omega), hall]
    rw [hall] at hlen
    simp only [List.take_of_length_le hlen]
  | succ left ih =>
    obtain ⟨fuel, rfl⟩ := Nat.exists_eq_succ_of_ne_zero (Nat.ne_of_gt (Nat.zero_lt_of_lt hfuel))
    rw [loop, HashRing.getNBody]
    by_cases hgo : (seenAfter b r h k).length < n ∧
        (seenAfter b r h k).length < r.positions.keys.length
    · have hlt := Nat.mod_lt (r.startPos b h+k) hpos
      have htarget := List.getElem?_eq_getElem hlt
      have hnext := seen_succ b r h k (by omega) _ htarget
      have hmove : ((r.startPos b h+k)%r.sortedRing.length+1)%r.sortedRing.length =
          (r.startPos b h+(k+1))%r.sortedRing.length := by
        rw [Nat.mod_add_mod, Nat.add_assoc]
      have hgrow := length_visit_le r.ring (seenAfter b r h k)
        r.sortedRing[(r.startPos b h+k)%r.sortedRing.length]
      simp only [if_pos hgo, htarget, hmove, ← hnext]
      rw [← hnext] at hgrow
      exact ih (k+1) fuel (by omega) (by omega) (by omega)
    · refine ⟨(r.startPos b h+k)%r.sortedRing.length,?_⟩
      have hinitial := (seen_initial b r h k).length_le
      have hresult : seenAfter b r h k = (walkOrder b r h).take n := by
        rw [List.prefix_iff_eq_take.mp (seen_initial b r h k)]
        by_cases hn : (seenAfter b r h k).length = n
        · rw [hn]
        · rw [List.take_of_length_le (by omega), List.take_of_length_le (by omega)]
      simp only [if_neg hgo]
      rw [hresult]

theorem get_n_returns (fuel : ℕ) (key : Bytes) (n : ℕ) (hr : r.Sound) (hv : 0 < r.virtualNodes)
    (hne : r.ring ≠ []) (hcap : n ≤ HashRing.maxCapacity) (hfuel : r.sortedRing.length < fuel) :
    r.getN hash b fuel key n = some (.ok ((walkOrder b r (hash key)).take n)) := by
  have hlt := HashRing.start_pos_lt b r (hash key) (HashRing.sorted_ne_nil r hr hne)
  obtain ⟨pos, hloop⟩ := loop_walks b r (hash key) n hr hv hne r.sortedRing.length 0 fuel
    (Nat.zero_add _) hfuel (Nat.zero_le n)
  rw [Nat.add_zero, Nat.mod_eq_of_lt hlt] at hloop
  have hnone : seenAfter b r (hash key) 0 = [] := rfl
  rw [hnone] at hloop
  have hkeys : r.positions.keys.length ≠ 0 := by
    obtain ⟨⟨g, m⟩, hm⟩ := List.exists_mem_of_ne_nil r.ring hne
    have hin := AList.mem_keys.mp ((hr.listed m).mp ⟨g,hm⟩).1
    exact Nat.ne_of_gt (List.length_pos_of_mem hin)
  rw [HashRing.getN, if_neg (by simpa using hne), if_neg (Nat.not_lt.mpr hcap), if_neg hkeys,
    hloop]
  rfl

theorem get_n_empty (fuel : ℕ) (key : Bytes) (n : ℕ) (hempty : r.ring = []) :
    r.getN hash b fuel key n = some (.ok []) := by
  rw [HashRing.getN, if_pos (by rw [hempty]; rfl)]

theorem get_n_overflow (fuel : ℕ) (key : Bytes) (n : ℕ) (hne : r.ring ≠ [])
    (hcap : HashRing.maxCapacity < n) :
    r.getN hash b fuel key n = some (.error .capacityOverflow) := by
  rw [HashRing.getN, if_neg (by simpa using hne), if_pos hcap]

theorem get_n_mono (fuel more : ℕ) (key : Bytes) (n : ℕ) (x : Except RingFault (List NodeId))
    (h : r.getN hash b fuel key n = some x) (hle : fuel ≤ more) :
    r.getN hash b more key n = some x := by
  unfold HashRing.getN at h ⊢
  split_ifs at h ⊢ with hring hcap hkeys
  · exact h
  · exact h
  · exact h
  · cases hloop : loop (r.getNBody n) fuel (.ok ⟨r.startPos b (hash key),[]⟩) with
    | again w =>
      rw [hloop] at h
      cases h
    | leave w =>
      rw [hloop] at h
      rw [loop_leave_mono _ fuel more _ w hloop hle]
      exact h

theorem get_n_known (fuel : ℕ) (key : Bytes) (n : ℕ) (nodes : List NodeId) (hr : r.Sound)
    (hv : 0 < r.virtualNodes) (h : r.getN hash b fuel key n = some (.ok nodes)) (m : NodeId)
    (hm : m ∈ nodes) : m ∈ r.positions := by
  by_cases hne : r.ring = []
  · rw [get_n_empty hash b r fuel key n hne] at h
    cases h
    cases hm
  · by_cases hcap : n ≤ HashRing.maxCapacity
    · have hmore := get_n_mono hash b r fuel (fuel+r.sortedRing.length+1) key n _ h (by omega)
      rw [get_n_returns hash b r _ key n hr hv hne hcap (by omega)] at hmore
      cases hmore
      obtain ⟨g, hg⟩ := (mem_walk_order b r _ hr m).mp (List.mem_of_mem_take hm)
      exact ((hr.listed m).mp ⟨g,hg⟩).1
    · rw [get_n_overflow hash b r fuel key n hne (Nat.lt_of_not_le hcap)] at h
      cases h

theorem get_eq_walk_head (key : Bytes) (hr : r.Sound) (hne : r.ring ≠ []) :
    r.get hash b key = (walkOrder b r (hash key)).head? := by
  have hlt := HashRing.start_pos_lt b r (hash key) (HashRing.sorted_ne_nil r hr hne)
  obtain ⟨n, hn, hget⟩ := HashRing.get_at_start hash b r key hr hne hlt
  rw [hget, walk_order_head b r (hash key) hlt n hn]

end Loop

section Results
variable (hash : Bytes → UInt64) (b : BinarySearch)

/-- The loop of `get_n` ends, and the lookup with it, in this result. -/
def Returns (r : HashRing) (key : Bytes) (n : ℕ) (nodes : List NodeId) : Prop :=
  ∃ rounds, ∀ fuel, rounds ≤ fuel → r.getN hash b fuel key n = some (.ok nodes)

/-- What is asked of the replicas of a key on a ring with these members. -/
structure Selection (r : HashRing) (all : Finset NodeId) (key : Bytes) (n : ℕ)
    (nodes : List NodeId) : Prop where
  returned : Returns hash b r key n nodes
  count : nodes.length = min n all.card
  distinct : nodes.Nodup
  known : ∀ m ∈ nodes, m ∈ all
  first : 1 ≤ n → r.ring ≠ [] → nodes.head? = r.get hash b key
  fewer : ∀ m ≤ n, ∃ few, Returns hash b r key m few ∧ few <+: nodes

theorem members_card (v : ℕ) (all : Finset NodeId) (r : HashRing)
    (hr : Represents hash v all r) : all.card = r.positions.keys.length := by
  have hset : all = r.positions.keys.toFinset := by
    ext n
    rw [List.mem_toFinset, ← AList.mem_keys, hr.members]
  rw [hset, List.toFinset_card_of_nodup r.positions.keys_nodup]

theorem ring_eq_nil_iff (v : ℕ) (hv : 0 < v) (all : Finset NodeId) (r : HashRing)
    (hr : Represents hash v all r) : r.ring = [] ↔ all = ∅ := by
  rw [List.eq_nil_iff_forall_not_mem, Finset.eq_empty_iff_forall_notMem]
  constructor
  · intro hring n hn
    exact hring _ ((mem_ring_iff_virtual_node hash v all r hr _ n).mpr ⟨hn,0,hv,rfl⟩)
  · rintro hall ⟨h, n⟩ hin
    exact hall n ((mem_ring_iff_virtual_node hash v all r hr h n).mp hin).1

theorem selection_of_empty (v : ℕ) (hv : 0 < v) (all : Finset NodeId) (r : HashRing)
    (hr : Represents hash v all r) (hempty : all = ∅) (key : Bytes) (n : ℕ) :
    Selection hash b r all key n [] := by
  have hring := (ring_eq_nil_iff hash v hv all r hr).mpr hempty
  have hreturns : ∀ m, Returns hash b r key m [] := fun m =>
    ⟨0,fun fuel _ => get_n_empty hash b r fuel key m hring⟩
  refine ⟨hreturns n,?_,List.nodup_nil,fun m hm => (List.not_mem_nil hm).elim,
    fun _ hne => absurd hring hne,fun m _ => ⟨[],hreturns m,List.prefix_refl []⟩⟩
  rw [hempty, Finset.card_empty, Nat.min_zero, List.length_nil]

theorem selection_of_capacity (v : ℕ) (hv : 0 < v) (all : Finset NodeId) (r : HashRing)
    (hr : Represents hash v all r) (hne : all ≠ ∅) (key : Bytes) (n : ℕ)
    (hcap : n ≤ HashRing.maxCapacity) :
    Selection hash b r all key n ((walkOrder b r (hash key)).take n) := by
  have hsound := hr.placed.toSound
  have hring := (not_congr (ring_eq_nil_iff hash v hv all r hr)).mpr hne
  have hspread : 0 < r.virtualNodes := by rwa [hr.spread]
  have hreturns : ∀ m ≤ n, Returns hash b r key m ((walkOrder b r (hash key)).take m) :=
    fun m hm => ⟨r.sortedRing.length+1,fun fuel hfuel =>
      get_n_returns hash b r fuel key m hsound hspread hring (Nat.le_trans hm hcap) hfuel⟩
  refine ⟨hreturns n (Nat.le_refl n),?_,?_,fun m hm => ?_,fun hn _ => ?_,fun m hm => ?_⟩
  · rw [List.length_take, walk_order_length b r _ hsound hspread, members_card hash v all r hr]
  · exact (walk_order_nodup b r _).sublist (List.take_sublist n _)
  · obtain ⟨g, hg⟩ := (mem_walk_order b r _ hsound m).mp (List.mem_of_mem_take hm)
    exact ((mem_ring_iff_virtual_node hash v all r hr g m).mp hg).1
  · rw [get_eq_walk_head hash b r key hsound hring, List.head?_take, if_neg (by omega)]
  · refine ⟨_,hreturns m hm,?_⟩
    exact List.take_prefix_take_left hm

/-- The replicas are selected exactly if the ring has no node or the result
vector can be asked to hold as many. -/
theorem selection_iff_capacity (v : ℕ) (hv : 0 < v) (es : List RingEvent) (key : Bytes) (n : ℕ) :
    (∃ nodes, Selection hash b (ringAfter hash v es) (members es) key n nodes) ↔
      members es = ∅ ∨ n ≤ HashRing.maxCapacity := by
  have hr := represents_run hash v es
  constructor
  · rintro ⟨nodes, hsel⟩
    by_contra hneither
    rw [not_or, Nat.not_le] at hneither
    obtain ⟨rounds, hreturned⟩ := hsel.returned
    have hring := (not_congr (ring_eq_nil_iff hash v hv _ _ hr)).mpr hneither.1
    have hfault := get_n_overflow hash b _ rounds key n hring hneither.2
    rw [hreturned rounds (Nat.le_refl _)] at hfault
    cases hfault
  · rintro (hempty | hcap)
    · exact ⟨[],selection_of_empty hash b v hv _ _ hr hempty key n⟩
    · by_cases hempty : members es = ∅
      · exact ⟨[],selection_of_empty hash b v hv _ _ hr hempty key n⟩
      · exact ⟨_,selection_of_capacity hash b v hv _ _ hr hempty key n hcap⟩

end Results

open RexMq.RingMembers (firstByte)

theorem selection_of_three_on_two_nodes :
    0 < 1 ∧ ∃ nodes,
      Selection firstByte .first (ringAfter firstByte 1 [.addNode "a", .addNode "b"])
        (members [.addNode "a", .addNode "b"]) [98] 3 nodes ∧ nodes.length = 2 := by
  obtain ⟨nodes, hsel⟩ := (selection_iff_capacity firstByte .first 1 Nat.one_pos
    [.addNode "a", .addNode "b"] [98] 3).mpr (.inr (by decide))
  exact ⟨Nat.one_pos,nodes,hsel,hsel.count.trans (by decide +kernel)⟩

/-- One node on the ring, and more replicas asked for than a vector holds. -/
theorem huge_count_overflows :
    ¬ ∃ nodes, Selection firstByte .first (ringAfter firstByte 1 [.addNode "a"])
      (members [.addNode "a"]) [98] (2^59) nodes := by
  rintro ⟨nodes, hsel⟩
  obtain ⟨rounds, hreturned⟩ := hsel.returned
  have hfault := get_n_overflow firstByte .first (ringAfter firstByte 1 [.addNode "a"]) rounds [98]
    (2^59) (by decide +kernel) (by decide)
  rw [hreturned rounds (Nat.le_refl _)] at hfault
  cases hfault

end RexMq.RingReplicas
