import RexMq.RingReplicas

/-!
# A ring that is written out and read back

The sorted positions of a ring are not written: their field is skipped and
comes back empty. The lookups take the sorted positions for current and do
not rebuild them, so a ring with any entry on it answers no key after it is
read back, and the walk over its nodes leaves the empty list at its first
access.
-/

set_option autoImplicit false

namespace RexMq.RingSerialization
open RexMq.ByteWords RexMq.FiniteRun RexMq.RouteTable RexMq.RingOwnership RexMq.RingReplicas
open RexMq.ServerState (NodeId)

/-- The fields of a ring that are written. -/
structure SerializedRing where
  virtualNodes : ℕ
  ring : List (UInt64 × NodeId)
  positions : AList (fun _ : NodeId => List UInt64)

def serialize (r : HashRing) : SerializedRing := ⟨r.virtualNodes,r.ring,r.positions⟩

/-- The skipped field takes its default. -/
def deserialize (x : SerializedRing) : HashRing := ⟨x.virtualNodes,x.ring,x.positions,[]⟩

def reread (r : HashRing) : HashRing := deserialize (serialize r)

@[simp] theorem reread_ring (r : HashRing) : (reread r).ring = r.ring := rfl

@[simp] theorem reread_positions (r : HashRing) : (reread r).positions = r.positions := rfl

section Lookups
variable (hash : Bytes → UInt64) (b : BinarySearch) (r : HashRing)

theorem reread_get_by_hash (h : UInt64) : (reread r).getByHash b h = none := rfl

theorem reread_get (key : Bytes) : (reread r).get hash b key = none := by
  rw [HashRing.get, reread_get_by_hash, ite_self]

theorem reread_start (h : UInt64) : (reread r).startPos b h = 0 := by
  rw [HashRing.startPos]
  cases hs : b.search (reread r).sortedRing h with
  | ok p => cases b.found _ _ p hs
  | error p => exact if_pos (Nat.zero_le p)

theorem reread_get_n (fuel : ℕ) (key : Bytes) (n : ℕ) (hr : r.Sound) (hne : r.ring ≠ [])
    (hn : 0 < n) (hcap : n ≤ HashRing.maxCapacity) :
    (reread r).getN hash b (fuel+1) key n = some (.error (.outOfBounds 0)) := by
  have hkeys : 0 < r.positions.keys.length := by
    obtain ⟨⟨g, m⟩, hm⟩ := List.exists_mem_of_ne_nil r.ring hne
    exact List.length_pos_of_mem (AList.mem_keys.mp ((hr.listed m).mp ⟨g,hm⟩).1)
  have hbody : (reread r).getNBody n (.ok ⟨0,[]⟩) = .leave (.error (.outOfBounds 0)) := by
    rw [HashRing.getNBody]
    exact if_pos ⟨hn,hkeys⟩
  rw [HashRing.getN, reread_ring, reread_positions, if_neg (by simpa using hne),
    if_neg (Nat.not_lt.mpr hcap), if_neg (Nat.ne_of_gt hkeys), reread_start, loop, hbody]
  rfl

theorem get_n_zero (fuel : ℕ) (key : Bytes) : r.getN hash b (fuel+1) key 0 = some (.ok []) := by
  have hbody : ∀ p, r.getNBody 0 (.ok ⟨p,[]⟩) = .leave (.ok ⟨p,[]⟩) := by
    intro p
    rw [HashRing.getNBody]
    exact if_neg (fun h => Nat.not_lt_zero _ h.1)
  rw [HashRing.getN, if_neg (Nat.not_lt_zero _), loop, hbody]
  split_ifs <;> rfl

theorem get_n_unfollowed (key : Bytes) (n : ℕ) (hcap : n ≤ HashRing.maxCapacity) :
    (reread r).getN hash b 0 key n = r.getN hash b 0 key n ∧
      ∀ e, (reread r).getN hash b 0 key n ≠ some (.error e) := by
  refine ⟨rfl,fun e he => ?_⟩
  rw [HashRing.getN, if_neg (Nat.not_lt.mpr hcap), loop] at he
  split_ifs at he <;> cases he

theorem reread_get_n_iff (key : Bytes) (n : ℕ) (hr : r.Sound) (hne : r.ring ≠ []) :
    (∀ fuel, (reread r).getN hash b fuel key n = r.getN hash b fuel key n ∧
      ∀ pos, (reread r).getN hash b fuel key n ≠ some (.error (.outOfBounds pos))) ↔
      n = 0 ∨ HashRing.maxCapacity < n := by
  constructor
  · intro hsame
    by_contra hasked
    rw [not_or, Nat.not_lt] at hasked
    exact (hsame 1).2 0 (reread_get_n hash b r 0 key n hr hne (by omega) hasked.2)
  · rintro (rfl | hcap) fuel
    · cases fuel with
      | zero =>
        obtain ⟨heq, hok⟩ := get_n_unfollowed hash b r key 0 (Nat.zero_le _)
        exact ⟨heq,fun pos => hok _⟩
      | succ fuel =>
        rw [get_n_zero, get_n_zero]
        exact ⟨rfl,fun pos hp => by cases hp⟩
    · rw [get_n_overflow hash b r fuel key n hne hcap,
        get_n_overflow hash b (reread r) fuel key n hne hcap]
      exact ⟨rfl,fun pos hp => by cases hp⟩

theorem get_by_hash_some (h : UInt64) (hr : r.Sound) (hne : r.ring ≠ []) :
    ∃ n, r.getByHash b h = some n := by
  obtain ⟨_, n, -, -, hget⟩ := get_owner (fun _ => h) b r hr hne []
  rw [HashRing.get, if_neg (by simpa using hne)] at hget
  exact ⟨n,hget⟩

end Lookups

section Results
variable (hash : Bytes → UInt64) (b : BinarySearch)

theorem ring_nil_iff (v : ℕ) (es : List RingEvent) :
    (ringAfter hash v es).ring = [] ↔ members es = ∅ ∨ v = 0 := by
  have hr := represents_run hash v es
  rcases Nat.eq_zero_or_pos v with hv | hv
  · refine iff_of_true ?_ (.inr hv)
    rw [List.eq_nil_iff_forall_not_mem]
    rintro ⟨h, n⟩ hin
    obtain ⟨-, i, hi, -⟩ := (mem_ring_iff_virtual_node hash v _ _ hr h n).mp hin
    omega
  · rw [ring_eq_nil_iff hash v hv _ _ hr, or_iff_left (by omega)]

/-- The lookups of a ring and of the ring read back agree exactly where there
is no entry to find or, for a count, none is looked for. -/
theorem reread_routes_iff (v : ℕ) (es : List RingEvent) (key : Bytes) (h : UInt64) (n : ℕ) :
    ((reread (ringAfter hash v es)).get hash b key = (ringAfter hash v es).get hash b key ↔
      members es = ∅ ∨ v = 0) ∧
    ((reread (ringAfter hash v es)).getByHash b h = (ringAfter hash v es).getByHash b h ↔
      members es = ∅ ∨ v = 0) ∧
    ((∀ fuel, (reread (ringAfter hash v es)).getN hash b fuel key n =
        (ringAfter hash v es).getN hash b fuel key n ∧
      ∀ pos, (reread (ringAfter hash v es)).getN hash b fuel key n ≠
        some (.error (.outOfBounds pos))) ↔
      (members es = ∅ ∨ v = 0) ∨ n = 0 ∨ HashRing.maxCapacity < n) := by
  have hr := (represents_run hash v es).placed.toSound
  rw [← ring_nil_iff hash v es]
  generalize ringAfter hash v es = r at hr ⊢
  by_cases hne : r.ring = []
  · have hget : r.getByHash b h = none := by
      rw [HashRing.getByHash, hr.sorted, hne]
      rfl
    refine ⟨iff_of_true ?_ hne,iff_of_true (by rw [hget, reread_get_by_hash]) hne,
      iff_of_true (fun fuel => ?_) (.inl hne)⟩
    · rw [reread_get, get_of_empty hash b r hne]
    · rw [get_n_empty hash b r fuel key n hne, get_n_empty hash b (reread r) fuel key n hne]
      exact ⟨rfl,fun pos hp => by cases hp⟩
  · obtain ⟨m, hm⟩ := get_by_hash_some b r h hr hne
    obtain ⟨_, k, -, -, hk⟩ := get_owner hash b r hr hne key
    refine ⟨iff_of_false ?_ hne,iff_of_false ?_ hne,?_⟩
    · rw [reread_get, hk]
      exact fun hs => by cases hs
    · rw [reread_get_by_hash, hm]
      exact fun hs => by cases hs
    · rw [or_iff_right hne]
      exact reread_get_n_iff hash b r key n hr hne

end Results

open RexMq.RingMembers (firstByte)

/-- One node with one virtual node: the ring read back finds no owner and its
walk leaves the list. -/
theorem reread_ring_lost :
    (ringAfter firstByte 1 [.addNode "a"]).get firstByte .first [98] = some "a" ∧
    (reread (ringAfter firstByte 1 [.addNode "a"])).get firstByte .first [98] = none ∧
    (reread (ringAfter firstByte 1 [.addNode "a"])).getByHash .first 98 = none ∧
    (ringAfter firstByte 1 [.addNode "a"]).getN firstByte .first 2 [98] 1 = some (.ok ["a"]) ∧
    (reread (ringAfter firstByte 1 [.addNode "a"])).getN firstByte .first 2 [98] 1 =
      some (.error (.outOfBounds 0)) := by
  decide +kernel

end RexMq.RingSerialization
