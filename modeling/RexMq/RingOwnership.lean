import Mathlib.Data.Finset.Basic
import RexMq.RouteTable

/-!
# Who owns a key

A ring is reached by adding and removing nodes. What it should hold is said
without it: a set of members, each with its virtual nodes, and the owner of a
key is the member at the first position at or after the key's hash. The
vector of entries, the sorted positions and the search for a start are shown
to compute that, whatever hashes coincide. As the entries keep their order of
insertion, a change of one node moves no key between two others.
-/

set_option autoImplicit false

namespace RexMq.RingOwnership
open RexMq.ByteWords RexMq.RouteTable RexMq.ClockwiseSearch
open RexMq.ServerState (NodeId)

inductive RingEvent where
  | addNode (node : NodeId)
  | removeNode (node : NodeId)

section Members

def memberStep (members : Finset NodeId) : RingEvent → Finset NodeId
  | .addNode n => insert n members
  | .removeNode n => members.erase n

def members (es : List RingEvent) : Finset NodeId := es.foldl memberStep ∅

/-- A member with `v` virtual nodes has one of them at `h`. -/
def VirtualNode (hash : Bytes → UInt64) (v : ℕ) (nodes : Finset NodeId) (h : UInt64)
    (n : NodeId) : Prop :=
  n ∈ nodes ∧ ∃ i < v, hash (virtualNodeKey n i) = h

end Members

section Placement
variable (hash : Bytes → UInt64) (b : BinarySearch)

def entriesOf (v : ℕ) (n : NodeId) : List (UInt64 × NodeId) :=
  (List.range v).map (fun i => (hash (virtualNodeKey n i),n))

/-- The ring has the entries of its nodes and no others. -/
structure Placed (r : HashRing) : Prop extends HashRing.Sound r where
  entries : r.ring.Perm (r.positions.keys.flatMap (entriesOf hash r.virtualNodes))

theorem mem_entries_of (v : ℕ) (n m : NodeId) (h : UInt64) :
    (h,m) ∈ entriesOf hash v n ↔ m = n ∧ ∃ i < v, hash (virtualNodeKey n i) = h := by
  simp only [entriesOf, List.mem_map, List.mem_range, Prod.mk.injEq]
  constructor
  · rintro ⟨i, hi, hh, hn⟩
    exact ⟨hn.symm,i,hi,hh⟩
  · rintro ⟨hn, i, hi, hh⟩
    exact ⟨i,hi,hh,hn.symm⟩

theorem mem_ring_iff (r : HashRing) (hr : Placed hash r) (h : UInt64) (n : NodeId) :
    (h,n) ∈ r.ring ↔
      n ∈ r.positions ∧ ∃ i < r.virtualNodes, hash (virtualNodeKey n i) = h := by
  rw [hr.entries.mem_iff, List.mem_flatMap]
  constructor
  · rintro ⟨m, hm, he⟩
    obtain ⟨rfl, hi⟩ := (mem_entries_of hash _ m n h).mp he
    exact ⟨AList.mem_keys.mpr hm,hi⟩
  · rintro ⟨hn, hi⟩
    exact ⟨n,AList.mem_keys.mp hn,(mem_entries_of hash _ n n h).mpr ⟨rfl,hi⟩⟩

theorem placed_empty (v : ℕ) : Placed hash (.withVirtualNodes v) where
  toSound := HashRing.sound_empty v
  entries := List.Perm.refl _

theorem placed_add (r : HashRing) (n : NodeId) (hr : Placed hash r) :
    Placed hash (r.addNode hash n) where
  toSound := HashRing.sound_add hash n r hr.toSound
  entries := by
    unfold HashRing.addNode
    split_ifs with hn
    · exact hr.entries
    · have hkeys : (r.positions.insert n (r.hashes hash n)).keys = n::r.positions.keys := by
        rw [AList.keys_insert, List.erase_of_not_mem (fun h => hn (AList.mem_keys.mpr h))]
      have hnew : (r.hashes hash n).map (fun h => (h,n)) = entriesOf hash r.virtualNodes n := by
        rw [HashRing.hashes, entriesOf, List.map_map]
        rfl
      show (r.ring++(r.hashes hash n).map (fun h => (h,n))).Perm
        ((r.positions.insert n (r.hashes hash n)).keys.flatMap (entriesOf hash r.virtualNodes))
      rw [hkeys, hnew, List.flatMap_cons]
      exact List.perm_append_comm.trans (hr.entries.append_left _)

theorem entries_of_filter (v : ℕ) (n m : NodeId) :
    (entriesOf hash v m).filter (fun e => e.2 ≠ n) = if m = n then [] else entriesOf hash v m := by
  split_ifs with hm
  · apply List.filter_eq_nil_iff.mpr
    rintro ⟨h, k⟩ he
    simp [((mem_entries_of hash v m k h).mp he).1, hm]
  · apply List.filter_eq_self.mpr
    rintro ⟨h, k⟩ he
    simp [((mem_entries_of hash v m k h).mp he).1, hm]

theorem flat_map_filter (v : ℕ) (n : NodeId) (nodes : List NodeId) (hnodup : nodes.Nodup) :
    (nodes.flatMap (entriesOf hash v)).filter (fun e => e.2 ≠ n) =
      (nodes.erase n).flatMap (entriesOf hash v) := by
  induction nodes with
  | nil => rfl
  | cons m nodes ih =>
    have hnot := (List.nodup_cons.mp hnodup).1
    rw [List.flatMap_cons, List.filter_append, entries_of_filter,
      ih (List.nodup_cons.mp hnodup).2]
    split_ifs with hm
    · rw [hm, List.erase_cons_head, List.erase_of_not_mem (hm ▸ hnot), List.nil_append]
    · rw [List.erase_cons_tail (by simpa using hm), List.flatMap_cons]

theorem placed_remove (r : HashRing) (n : NodeId) (hr : Placed hash r) :
    Placed hash (r.removeNode n) where
  toSound := HashRing.sound_remove n r hr.toSound
  entries := by
    unfold HashRing.removeNode
    split_ifs with hn
    · show (r.ring.filter (fun e => e.2 ≠ n)).Perm
        ((r.positions.erase n).keys.flatMap (entriesOf hash r.virtualNodes))
      rw [AList.keys_erase, ← flat_map_filter hash _ n _ r.positions.keys_nodup]
      exact hr.entries.filter _
    · exact hr.entries

def ringStep (r : HashRing) : RingEvent → HashRing
  | .addNode n => r.addNode hash n
  | .removeNode n => r.removeNode n

def ringAfter (v : ℕ) (es : List RingEvent) : HashRing :=
  es.foldl (ringStep hash) (.withVirtualNodes v)

/-- What a ring is when its members are `nodes`. -/
structure Represents (v : ℕ) (nodes : Finset NodeId) (r : HashRing) : Prop where
  placed : Placed hash r
  spread : r.virtualNodes = v
  members : ∀ n, n ∈ r.positions ↔ n ∈ nodes

theorem represents_step (v : ℕ) (nodes : Finset NodeId) (r : HashRing) (e : RingEvent)
    (hr : Represents hash v nodes r) :
    Represents hash v (memberStep nodes e) (ringStep hash r e) := by
  cases e with
  | addNode n =>
    refine ⟨placed_add hash r n hr.placed,?_,fun m => ?_⟩
    · rw [ringStep, HashRing.virtual_nodes_add, hr.spread]
    · rw [ringStep, memberStep, HashRing.mem_positions_add, Finset.mem_insert, hr.members]
  | removeNode n =>
    refine ⟨placed_remove hash r n hr.placed,?_,fun m => ?_⟩
    · rw [ringStep, HashRing.virtual_nodes_remove, hr.spread]
    · rw [ringStep, memberStep, HashRing.mem_positions_remove, Finset.mem_erase, hr.members]

theorem represents_run (v : ℕ) (es : List RingEvent) :
    Represents hash v (members es) (ringAfter hash v es) := by
  have hrun : ∀ nodes r, Represents hash v nodes r →
      Represents hash v (es.foldl memberStep nodes) (es.foldl (ringStep hash) r) := by
    induction es with
    | nil => exact fun nodes r hr => hr
    | cons e es ih => exact fun nodes r hr => ih _ _ (represents_step hash v nodes r e hr)
  apply hrun
  exact ⟨placed_empty hash v,rfl,fun n => by simp [HashRing.withVirtualNodes]⟩

theorem mem_ring_iff_virtual_node (v : ℕ) (nodes : Finset NodeId) (r : HashRing)
    (hr : Represents hash v nodes r) (h : UInt64) (n : NodeId) :
    (h,n) ∈ r.ring ↔ VirtualNode hash v nodes h n := by
  rw [mem_ring_iff hash r hr.placed, hr.members, hr.spread]
  rfl

end Placement

section Successor
variable (hash : Bytes → UInt64) (b : BinarySearch) (r : HashRing)

theorem sorted_pairwise (hr : r.Sound) : r.sortedRing.Pairwise (· ≤ ·) := by
  rw [hr.sorted]
  exact List.pairwise_insertionSort _ _

theorem sorted_perm (hr : r.Sound) : r.sortedRing.Perm (r.ring.map Prod.fst) := by
  rw [hr.sorted]
  exact List.perm_insertionSort _ _

/-- The search starts at the first position at or after the hash, wherever
among equal ones it lands. -/
theorem start_clockwise (hr : r.Sound) (h : UInt64) (hlt : r.startPos b h < r.sortedRing.length) :
    Clockwise (· ∈ r.sortedRing) h r.sortedRing[r.startPos b h] := by
  have hsorted := sorted_pairwise r hr
  refine ⟨List.getElem_mem hlt,?_⟩
  cases hs : b.search r.sortedRing h with
  | ok p =>
    have hp : r.startPos b h = p := by rw [HashRing.startPos, hs]
    have hfound := b.found _ _ p hs
    rw [← hp, List.getElem?_eq_getElem hlt, Option.some.injEq] at hfound
    rw [hfound]
    exact .inl ⟨UInt64.le_refl h,fun _ _ hy => hy⟩
  | error p =>
    obtain ⟨hbefore, hafter⟩ := b.place _ _ p hsorted hs
    by_cases hp : r.sortedRing.length ≤ p
    · have hstart : r.startPos b h = 0 := by
        rw [HashRing.startPos, hs]
        exact if_pos hp
      rw [List.take_of_length_le hp] at hbefore
      refine .inr ⟨hbefore,fun y hy => ?_⟩
      obtain ⟨i, hi, rfl⟩ := List.getElem_of_mem hy
      simp only [hstart]
      rcases Nat.eq_zero_or_pos i with rfl | hpos
      · exact UInt64.le_refl _
      · exact List.pairwise_iff_getElem.mp hsorted 0 i _ hi hpos
    · have hstart : r.startPos b h = p := by
        rw [HashRing.startPos, hs]
        exact if_neg hp
      have hdrop := List.drop_eq_getElem_cons (Nat.lt_of_not_le hp)
      simp only [hstart]
      have hself : r.sortedRing[p] ∈ r.sortedRing.drop p := by
        rw [hdrop]
        exact List.mem_cons_self
      refine .inl ⟨UInt64.le_of_lt (hafter _ hself),fun y hy hle => ?_⟩
      rw [← List.take_append_drop p r.sortedRing, List.mem_append] at hy
      rcases hy with hy | hy
      · exact absurd hle (Std.not_le.mpr (hbefore y hy))
      · have htail := hsorted.sublist (List.drop_sublist p r.sortedRing)
        rw [hdrop] at htail hy
        rcases List.mem_cons.mp hy with rfl | hy
        · exact UInt64.le_refl _
        · exact (List.pairwise_cons.mp htail).1 y hy

def Position (h : UInt64) : Prop := ∃ n, (h,n) ∈ r.ring

theorem get_owner (hr : r.Sound) (hne : r.ring ≠ []) (key : Bytes) :
    ∃ h n, Clockwise (Position r) (hash key) h ∧ owner r.ring h = some n ∧
      r.get hash b key = some n := by
  have hlt := HashRing.start_pos_lt b r (hash key) (HashRing.sorted_ne_nil r hr hne)
  have hfirst := start_clockwise b r hr (hash key) hlt
  obtain ⟨n, hn, hget⟩ := HashRing.get_at_start hash b r key hr hne hlt
  refine ⟨r.sortedRing[r.startPos b (hash key)],n,?_,hn,hget⟩
  exact clockwise_restrict (fun y hy => (HashRing.mem_sorted_iff r hr y).mpr hy) hfirst
    ((HashRing.mem_sorted_iff r hr _).mp hfirst.1)

theorem get_owner_at (hr : r.Sound) (key : Bytes) (h : UInt64) (n : NodeId)
    (hh : Clockwise (Position r) (hash key) h) (ho : owner r.ring h = some n) :
    r.get hash b key = some n := by
  obtain ⟨m, hm⟩ := hh.1
  obtain ⟨g, k, hg, hk, hget⟩ := get_owner hash b r hr (List.ne_nil_of_mem hm) key
  rw [hget, ← hk, clockwise_unique hg hh, ho]

theorem get_of_empty (hne : r.ring = []) (key : Bytes) : r.get hash b key = none := by
  rw [HashRing.get, hne]
  rfl

end Successor

section Results
variable (hash : Bytes → UInt64) (b : BinarySearch)

/-- The owner of a key is the clockwise successor among the members' virtual
nodes, and there is one unless there are none. -/
theorem get_is_successor (v : ℕ) (es : List RingEvent) (key : Bytes) :
    ((ringAfter hash v es).get hash b key = none ↔
      ¬ ∃ h n, VirtualNode hash v (members es) h n) ∧
    ∀ n, (ringAfter hash v es).get hash b key = some n →
      ∃ h, VirtualNode hash v (members es) h n ∧
        Clockwise (fun g => ∃ m, VirtualNode hash v (members es) g m) (hash key) h := by
  have hr := represents_run hash v es
  have hmem := mem_ring_iff_virtual_node hash v (members es) _ hr
  by_cases hne : (ringAfter hash v es).ring = []
  · have hnone := get_of_empty hash b _ hne key
    refine ⟨iff_of_true hnone ?_,fun n hn => ?_⟩
    · rintro ⟨h, n, hvirtual⟩
      have hin := (hmem h n).mpr hvirtual
      rw [hne] at hin
      cases hin
    · rw [hnone] at hn
      cases hn
  · obtain ⟨h, n, hfirst, hn, hget⟩ := get_owner hash b _ hr.placed.toSound hne key
    have hvirtual := (hmem h n).mp (owner_mem _ h n hn)
    refine ⟨iff_of_false ?_ (not_not_intro ⟨h,n,hvirtual⟩),fun k hk => ?_⟩
    · rw [hget]
      exact Option.some_ne_none n
    · rw [hget] at hk
      cases hk
      exact ⟨h,hvirtual,clockwise_restrict (fun g ⟨j, hj⟩ => ⟨j,(hmem g j).mpr hj⟩) hfirst
        ⟨n,hvirtual⟩⟩

/-- A new node takes keys over or leaves them; entries of other nodes stand
before its own, also at a position they share. -/
theorem get_add (r : HashRing) (n : NodeId) (key : Bytes) (hr : Placed hash r) :
    (r.addNode hash n).get hash b key = r.get hash b key ∨
      (r.addNode hash n).get hash b key = some n := by
  by_cases hn : n ∈ r.positions
  · left
    rw [HashRing.addNode, if_pos hn]
  · have hadd := placed_add hash r n hr
    have hring : (r.addNode hash n).ring = r.ring++(r.hashes hash n).map (fun h => (h,n)) := by
      rw [HashRing.addNode, if_neg hn]
      rfl
    by_cases hnew : (r.addNode hash n).ring = []
    · left
      have hold : r.ring = [] := (List.append_eq_nil_iff.mp (hring ▸ hnew)).1
      rw [get_of_empty hash b _ hnew, get_of_empty hash b _ hold]
    obtain ⟨h, m, hfirst, hm, hget⟩ := get_owner hash b _ hadd.toSound hnew key
    by_cases hpos : Position r h
    · left
      have hsub : ∀ g, Position r g → Position (r.addNode hash n) g := by
        rintro g ⟨k, hk⟩
        refine ⟨k,?_⟩
        rw [hring]
        exact List.mem_append_left _ hk
      have hold := clockwise_restrict hsub hfirst hpos
      obtain ⟨k, hk⟩ := hpos
      rw [hring, owner_append r.ring h _ k hk] at hm
      rw [hget, get_owner_at hash b r hr.toSound key h m hold hm]
    · right
      have hin := owner_mem _ h m hm
      rw [hring, List.mem_append] at hin
      rcases hin with hin | hin
      · exact absurd ⟨m,hin⟩ hpos
      · obtain ⟨g, -, he⟩ := List.mem_map.mp hin
        rw [hget, ← (Prod.mk.inj he).2]

theorem get_remove (r : HashRing) (n : NodeId) (key : Bytes) (hr : Placed hash r)
    (hother : r.get hash b key ≠ some n) :
    (r.removeNode n).get hash b key = r.get hash b key := by
  by_cases hn : n ∈ r.positions
  · have hremove := placed_remove hash r n hr
    have hring : (r.removeNode n).ring = r.ring.filter (fun e => e.2 ≠ n) := by
      rw [HashRing.removeNode, if_pos hn]
      rfl
    by_cases hold : r.ring = []
    · have hnew : (r.removeNode n).ring = [] := by
        rw [hring, hold]
        rfl
      rw [get_of_empty hash b _ hnew, get_of_empty hash b _ hold]
    · obtain ⟨h, m, hfirst, hm, hget⟩ := get_owner hash b r hr.toSound hold key
      have hmn : m ≠ n := by
        intro he
        rw [hget, he] at hother
        exact hother rfl
      have hkept := owner_filter r.ring h (fun e => e.2 ≠ n) m hm (decide_eq_true hmn)
      rw [← hring] at hkept
      have hin := owner_mem _ h m hkept
      have hsub : ∀ g, Position (r.removeNode n) g → Position r g := by
        rintro g ⟨j, hj⟩
        rw [hring] at hj
        exact ⟨j,(List.mem_filter.mp hj).1⟩
      rw [hget, get_owner_at hash b _ hremove.toSound key h m
        (clockwise_restrict hsub hfirst ⟨m,hin⟩) hkept]
  · rw [HashRing.removeNode, if_neg hn]

/-- A change of one node moves keys only to it or away from it. -/
theorem keys_move_with_node (v : ℕ) (es : List RingEvent) (n : NodeId) (key : Bytes) :
    (((ringAfter hash v es).addNode hash n).get hash b key = (ringAfter hash v es).get hash b key ∨
      ((ringAfter hash v es).addNode hash n).get hash b key = some n) ∧
    ((ringAfter hash v es).get hash b key ≠ some n →
      ((ringAfter hash v es).removeNode n).get hash b key =
        (ringAfter hash v es).get hash b key) := by
  have hr := (represents_run hash v es).placed
  exact ⟨get_add hash b _ n key hr,get_remove hash b _ n key hr⟩

end Results
end RexMq.RingOwnership
