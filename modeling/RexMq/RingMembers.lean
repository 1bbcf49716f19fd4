import RexMq.RingOwnership

/-!
# Rings with the same members

Two nodes of a cluster learn of the members in different orders, so their
rings differ as vectors. The text of a virtual node's key tells its node and
its number apart, whatever the name of the node is, since no digit is a
hyphen. If the hash keeps those keys apart, each position has one owner, the
sorted positions are the same list, and no lookup can tell the rings apart.
-/

set_option autoImplicit false

namespace RexMq.RingMembers
open RexMq.ByteWords RexMq.RouteTable RexMq.ClockwiseSearch RexMq.RingOwnership
open RexMq.ServerState (NodeId)

section Keys

theorem append_cons_inj_of_last {α : Type*} (s : α) (as bs xs ys : List α) (hx : s ∉ xs)
    (hy : s ∉ ys) (h : as++s::xs = bs++s::ys) : as = bs ∧ xs = ys := by
  rcases List.append_eq_append_iff.mp h with ⟨cs, rfl, hc⟩ | ⟨cs, rfl, hc⟩
  · cases cs with
    | nil => exact ⟨(List.append_nil as).symm,(List.cons.inj hc).2⟩
    | cons c cs =>
      rw [(List.cons.inj hc).2] at hx
      exact absurd (List.mem_append_right cs List.mem_cons_self) hx
  · cases cs with
    | nil => exact ⟨List.append_nil bs,(List.cons.inj hc).2.symm⟩
    | cons c cs =>
      rw [(List.cons.inj hc).2] at hy
      exact absurd (List.mem_append_right cs List.mem_cons_self) hy

theorem hyphen_not_in_number (i : ℕ) : '-' ∉ (toString i).toList := by
  intro h
  have hdigits : '-' ∈ Nat.toDigits 10 i := by
    rw [← Nat.toList_repr]
    exact h
  have hdigit := Nat.isDigit_of_mem_toDigits (by decide) (by decide) hdigits
  exact absurd hdigit (by decide)

theorem virtual_node_key_inj (n m : NodeId) (i j : ℕ)
    (h : virtualNodeKey n i = virtualNodeKey m j) : n = m ∧ i = j := by
  have hbytes : (n++"-"++toString i).toByteArray = (m++"-"++toString j).toByteArray :=
    ByteArray.ext (Array.toList_inj.mp h)
  have hchars := congrArg String.toList (String.toByteArray_inj.mp hbytes)
  simp only [String.toList_append, List.append_assoc] at hchars
  obtain ⟨hname, hnumber⟩ := append_cons_inj_of_last '-' n.toList m.toList _ _
    (hyphen_not_in_number i) (hyphen_not_in_number j) hchars
  have hdigits : Nat.toDigits 10 i = Nat.toDigits 10 j := by
    rw [← Nat.toList_repr, ← Nat.toList_repr]
    exact hnumber
  refine ⟨String.toList_inj.mp hname,?_⟩
  rw [← Nat.ofDigitChars_ten_toDigits (n := i), hdigits, Nat.ofDigitChars_ten_toDigits]

end Keys

section Lookups
variable (hash : Bytes → UInt64) (b : BinarySearch) (v : ℕ) (nodes : Finset NodeId)

/-- The hash is injective on the keys of the nodes' virtual nodes. -/
def HashSeparates : Prop :=
  ∀ n ∈ nodes, ∀ m ∈ nodes, ∀ i < v, ∀ j < v,
    hash (virtualNodeKey n i) = hash (virtualNodeKey m j) →
      virtualNodeKey n i = virtualNodeKey m j

theorem one_owner (r : HashRing) (hr : Represents hash v nodes r)
    (hsep : HashSeparates hash v nodes) (g : UInt64) (m n : NodeId) (hm : (g,m) ∈ r.ring)
    (hn : (g,n) ∈ r.ring) : m = n := by
  rw [mem_ring_iff_virtual_node hash v nodes r hr] at hm hn
  obtain ⟨hmem, i, hi, hhash⟩ := hm
  obtain ⟨hmem', j, hj, hhash'⟩ := hn
  exact (virtual_node_key_inj m n i j
    (hsep m hmem n hmem' i hi j hj (hhash.trans hhash'.symm))).1

section SameMembers
variable (r s : HashRing) (hr : Represents hash v nodes r) (hs : Represents hash v nodes s)
include hr hs

theorem keys_perm : r.positions.keys.Perm s.positions.keys := by
  apply (List.perm_ext_iff_of_nodup r.positions.keys_nodup s.positions.keys_nodup).mpr
  intro n
  rw [← AList.mem_keys, ← AList.mem_keys, hr.members, hs.members]

theorem ring_perm : r.ring.Perm s.ring := by
  have hentries := hr.placed.entries
  rw [hr.spread] at hentries
  have hentries' := hs.placed.entries
  rw [hs.spread] at hentries'
  exact hentries.trans
    (((keys_perm hash v nodes r s hr hs).flatMap_right _).trans hentries'.symm)

theorem sorted_eq : r.sortedRing = s.sortedRing := by
  apply List.Perm.eq_of_pairwise (fun a b _ _ hab hba => UInt64.le_antisymm hab hba)
    (sorted_pairwise r hr.placed.toSound) (sorted_pairwise s hs.placed.toSound)
  exact (sorted_perm r hr.placed.toSound).trans
    (((ring_perm hash v nodes r s hr hs).map _).trans (sorted_perm s hs.placed.toSound).symm)

theorem start_pos_eq (h : UInt64) : r.startPos b h = s.startPos b h := by
  rw [HashRing.startPos, HashRing.startPos, sorted_eq hash v nodes r s hr hs]

theorem ring_is_empty_eq : r.ring.isEmpty = s.ring.isEmpty := by
  rw [Bool.eq_iff_iff, List.isEmpty_iff_length_eq_zero, List.isEmpty_iff_length_eq_zero,
    (ring_perm hash v nodes r s hr hs).length_eq]

variable (hsep : HashSeparates hash v nodes)
include hsep

theorem same_owner (key : Bytes) : r.get hash b key = s.get hash b key := by
  have howner : ∀ h, owner r.ring h = owner s.ring h := fun h =>
    owner_perm r.ring h s.ring (ring_perm hash v nodes r s hr hs)
      (one_owner hash v nodes r hr hsep)
  have hfind : ∀ t : HashRing, t.get hash b key =
      if t.ring.isEmpty then none
      else if t.sortedRing.isEmpty then none
      else (t.sortedRing[t.startPos b (hash key)]?).bind (owner t.ring) := fun _ => rfl
  rw [hfind, hfind, ring_is_empty_eq hash v nodes r s hr hs,
    start_pos_eq hash b v nodes r s hr hs, sorted_eq hash v nodes r s hr hs, funext howner]

theorem same_round (n : ℕ) : r.getNBody n = s.getNBody n := by
  have hvisit : ∀ met h, visit r.ring met h = visit s.ring met h := fun met h =>
    visit_perm r.ring s.ring (ring_perm hash v nodes r s hr hs)
      (one_owner hash v nodes r hr hsep) met h
  funext w
  cases w with
  | error e => rfl
  | ok w =>
    simp only [HashRing.getNBody, sorted_eq hash v nodes r s hr hs,
      (keys_perm hash v nodes r s hr hs).length_eq, hvisit]

theorem same_replicas (fuel : ℕ) (key : Bytes) (n : ℕ) :
    r.getN hash b fuel key n = s.getN hash b fuel key n := by
  unfold HashRing.getN
  rw [ring_is_empty_eq hash v nodes r s hr hs, (keys_perm hash v nodes r s hr hs).length_eq,
    same_round hash v nodes r s hr hs hsep, start_pos_eq hash b v nodes r s hr hs]

end SameMembers
end Lookups

section Results
variable (hash : Bytes → UInt64) (b : BinarySearch) (v : ℕ) (es fs : List RingEvent)

/-- Two histories with the same members give rings that no lookup tells apart. -/
theorem lookups_by_members (hsame : members es = members fs)
    (hsep : HashSeparates hash v (members es)) :
    (∀ n m i j, virtualNodeKey n i = virtualNodeKey m j → n = m ∧ i = j) ∧
    ∀ key, (ringAfter hash v es).get hash b key = (ringAfter hash v fs).get hash b key ∧
      ∀ fuel n, (ringAfter hash v es).getN hash b fuel key n =
        (ringAfter hash v fs).getN hash b fuel key n := by
  have hr := represents_run hash v es
  have hs := represents_run hash v fs
  rw [← hsame] at hs
  refine ⟨virtual_node_key_inj,fun key => ⟨?_,fun fuel n => ?_⟩⟩
  · exact same_owner hash b v (members es) _ _ hr hs hsep key
  · exact same_replicas hash b v (members es) _ _ hr hs hsep fuel key n

end Results

/-- The first byte of a key as its hash. -/
def firstByte (bs : Bytes) : UInt64 := (bs.headD 0).toUInt64

theorem lookups_by_members_two_nodes :
    members [.addNode "a", .addNode "b"] =
      members [.addNode "b", .addNode "c", .addNode "a", .removeNode "c"] ∧
    (ringAfter firstByte 1 [.addNode "a", .addNode "b"]).get firstByte .first [98] =
      (ringAfter firstByte 1 [.addNode "b", .addNode "c", .addNode "a", .removeNode "c"]).get
        firstByte .first [98] := by
  have hsame : members [.addNode "a", .addNode "b"] =
      members [.addNode "b", .addNode "c", .addNode "a", .removeNode "c"] := by
    decide +kernel
  have hsep : HashSeparates firstByte 1 (members [.addNode "a", .addNode "b"]) := by
    unfold HashSeparates
    decide +kernel
  exact ⟨hsame,((lookups_by_members firstByte .first 1 _ _ hsame hsep).2 [98]).1⟩

end RexMq.RingMembers
