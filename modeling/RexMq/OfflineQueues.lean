import Mathlib.Algebra.BigOperators.Group.Finset.Basic
import Mathlib.Tactic.Common
import RexMq.FiniteRun
import RexMq.PersistentStore
import RexMq.QueueIndex

/-!
# Queues of messages for absent clients

The store keeps the ids of a client's messages in an index and all messages
in one table. As long as no message gets an id that is in use, the two trees
hold one bounded queue for each client, and every operation of the store is
the operation on the queues. The ids are made of the clock and a counter that
starts again with the process, so the queues of a running server are apart
only while the ids happen to be.
-/

set_option autoImplicit false

namespace RexMq.OfflineQueues
open RexMq.ByteWords RexMq.FiniteRun RexMq.ClientRegistry RexMq.PersistentStore
open RexMq.QueueIndex

abbrev Queues := ClientId → List OfflineMessage

namespace Queues

def add (m : OfflineMessage) (q : Queues) : Queues :=
  Function.update q m.clientId (pushBounded maxQueueSize m (q m.clientId))

def clear (k : ClientId) (q : Queues) : Queues := Function.update q k []

def unexpired (now : UInt64) (m : OfflineMessage) : Bool := !m.isExpired now messageTtl

def cleanup (now : UInt64) (q : Queues) : Queues := fun k => (q k).filter (unexpired now)

def room (k : ClientId) (q : Queues) : Queues :=
  Function.update q k (if maxQueueSize ≤ (q k).length then (q k).tail else q k)

theorem add_eq (m : OfflineMessage) (q : Queues) :
    q.add m =
      Function.update (q.room m.clientId) m.clientId (q.room m.clientId m.clientId++[m]) := by
  unfold add room pushBounded
  rw [Function.update_self, Function.update_idem]

theorem mem_room (j k : ClientId) (q : Queues) (m : OfflineMessage) (h : m ∈ q.room k j) :
    m ∈ q j := by
  rw [room, Function.update_apply] at h
  split_ifs at h with hj hfull
  · exact hj ▸ List.mem_of_mem_tail h
  · exact hj ▸ h
  · exact h

theorem mem_add (m n : OfflineMessage) (q : Queues) (j : ClientId) (h : n ∈ q.add m j) :
    n ∈ q j ∨ (j = m.clientId ∧ n = m) := by
  rw [add_eq, Function.update_apply] at h
  split_ifs at h with hj
  · rcases List.mem_append.mp h with h | h
    · exact .inl (hj ▸ mem_room _ _ q n h)
    · exact .inr ⟨hj,List.mem_singleton.mp h⟩
  · exact .inl (mem_room _ _ q n h)

end Queues

/-- The trees hold the queues. -/
abbrev Holds (db : SledDb) (q : Queues) : Prop :=
  Represents OfflineMessage.id (fun k => db.getOfflineMessageIds k)
    (fun i => db.offlineQueue.lookup i) q

section Holding
variable {db : SledDb} {q : Queues} (h : Holds db q)
include h

theorem messages_of_holds (now : UInt64) (k : ClientId) :
    db.getOfflineMessages now k = (q k).filter (Queues.unexpired now) :=
  h.read _ k

theorem count_of_holds (k : ClientId) : db.getOfflineCount k = (q k).length := by
  rw [SledDb.getOfflineCount, h.index, List.length_map]

theorem holds_remove (k : ClientId) (id : BitVec 64) (hin : ∃ m ∈ q k, m.id = id) :
    Holds (db.removeOfflineMessage k id)
      (Function.update q k ((q k).filter (fun m => m.id ≠ id))) := by
  apply h.select k (fun m => decide (m.id ≠ id))
  · intro j
    rw [SledDb.removeOfflineMessage, SledDb.ids_remove_record, SledDb.ids_insert_index, h.index,
      List.filter_map]
    rfl
  · intro i
    rw [SledDb.removeOfflineMessage, SledDb.record_remove_record, SledDb.record_insert_index]
    apply if_congr _ rfl rfl
    constructor
    · rintro rfl
      obtain ⟨m, hm, hid⟩ := hin
      exact List.mem_map.mpr ⟨m,List.mem_filter.mpr ⟨hm,by simp [hid]⟩,hid⟩
    · intro hi
      obtain ⟨m, hm, rfl⟩ := List.mem_map.mp hi
      simpa using (List.mem_filter.mp hm).2

theorem holds_room (k : ClientId) : Holds (db.makeRoom k) (q.room k) := by
  rw [SledDb.makeRoom, SledDb.current_size_eq, count_of_holds h, Queues.room]
  split_ifs with hfull
  · rw [SledDb.removeOldestOffline]
    have hids := h.index k
    cases hq : q k with
    | nil =>
      rw [hq] at hfull
      exact absurd hfull (by decide)
    | cons m ms =>
      rw [hq, List.map_cons] at hids
      rw [hids]
      dsimp only
      rw [List.tail_cons, ← h.filter_head k m ms hq]
      exact holds_remove h k m.id ⟨m,by rw [hq]; exact List.mem_cons_self,rfl⟩
  · rw [Function.update_eq_self]
    exact h

theorem holds_add (m : OfflineMessage)
    (hfresh : ∀ j, ∀ n ∈ q.room m.clientId j, n.id ≠ m.id) :
    Holds (db.addOfflineMessage m) (q.add m) := by
  rw [Queues.add_eq]
  apply (holds_room h m.clientId).push m.clientId m hfresh
  · intro j
    rw [SledDb.addOfflineMessage, SledDb.ids_insert_index]
    rfl
  · intro i
    rw [SledDb.addOfflineMessage, SledDb.record_insert_index, SledDb.record_insert_record]

theorem holds_clear (k : ClientId) : Holds (db.clearOfflineMessages k) (q.clear k) := by
  have hnone : (q k).filter (fun _ => false) = [] := List.filter_false _
  rw [Queues.clear, ← hnone]
  apply h.select k (fun _ => false)
  · intro j
    rw [SledDb.ids_clear, hnone]
    rfl
  · intro i
    rw [SledDb.record_clear, h.index]
    simp

end Holding

section Cleanup
variable (now : UInt64)

def expired (m : OfflineMessage) : Bool := m.isExpired now messageTtl

theorem removes_eq (ids : List (BitVec 64)) (db : SledDb) :
    (ids.foldl (fun db id => db.removeRecord id) db).offlineIndex = db.offlineIndex ∧
      ∀ i, (ids.foldl (fun db id => db.removeRecord id) db).offlineQueue.lookup i =
        if i ∈ ids then none else db.offlineQueue.lookup i := by
  induction ids generalizing db with
  | nil => simp
  | cons id ids ih =>
    rw [List.foldl_cons]
    refine ⟨(ih _).1,fun i => ?_⟩
    rw [(ih _).2, SledDb.record_remove_record]
    by_cases hi : i = id
    · simp [hi]
    · simp [hi]

section Entry
variable {db : SledDb} {q : Queues} (h : Holds db q) (k : ClientId)
include h

theorem removed_ids :
    ((q k).map OfflineMessage.id).filter (fun id =>
      ((db.offlineQueue.lookup id).filter (expired now)).isSome) =
        ((q k).filter (expired now)).map OfflineMessage.id := by
  rw [List.filter_map]
  congr 1
  apply List.filter_congr
  intro m hm
  have hheld := h.held k m hm
  dsimp only [Function.comp] at hheld ⊢
  rw [hheld, Option.filter_some]
  cases expired now m <;> rfl

theorem kept_ids :
    ((q k).map OfflineMessage.id).filter (fun id =>
      id ∉ ((q k).filter (expired now)).map OfflineMessage.id) =
        ((q k).filter (Queues.unexpired now)).map OfflineMessage.id := by
  rw [List.filter_map]
  congr 1
  apply List.filter_congr
  intro m hm
  have hiff : m.id ∈ ((q k).filter (expired now)).map OfflineMessage.id ↔
      expired now m = true := by
    constructor
    · intro hin
      obtain ⟨n, hn, he⟩ := List.mem_map.mp hin
      obtain ⟨hn, hx⟩ := List.mem_filter.mp hn
      rwa [← h.same hn hm he]
    · intro hx
      exact List.mem_map_of_mem (List.mem_filter.mpr ⟨hm,hx⟩)
  dsimp only [Function.comp]
  rw [decide_not, Bool.decide_congr hiff, Bool.decide_eq_true]
  rfl

theorem cleanup_next_spec (n : ℕ) (ids : List (BitVec 64))
    (hids : db.offlineIndex.lookup k = some ids) :
    (SledDb.cleanupNext now (n,db) ⟨k,ids⟩).1 = n+(q k).countP (expired now) ∧
      Holds (SledDb.cleanupNext now (n,db) ⟨k,ids⟩).2
        (Function.update q k ((q k).filter (Queues.unexpired now))) ∧
      ∀ j, j ≠ k → (SledDb.cleanupNext now (n,db) ⟨k,ids⟩).2.offlineIndex.lookup j =
        db.offlineIndex.lookup j := by
  have hq : ids = (q k).map OfflineMessage.id := by
    have hi := h.index k
    dsimp only [SledDb.getOfflineMessageIds] at hi
    rwa [hids] at hi
  have hsplit : (q k).length = ((q k).filter (Queues.unexpired now)).length+
      (q k).countP (expired now) := by
    rw [List.countP_eq_length_filter, Nat.add_comm]
    exact (List.length_eq_length_filter_add (expired now)).trans rfl
  subst hq
  unfold SledDb.cleanupNext
  dsimp only
  rw [show (fun m : OfflineMessage => m.isExpired now messageTtl) = expired now from rfl,
    removed_ids now h k, kept_ids now h k, List.length_map, List.length_map]
  split_ifs with hne
  · obtain ⟨hindex, hrecord⟩ := removes_eq (((q k).filter (expired now)).map OfflineMessage.id)
      (db.insertIndex k (((q k).filter (Queues.unexpired now)).map OfflineMessage.id))
    refine ⟨by dsimp only; omega,?_,fun j hj => ?_⟩
    · apply h.select k (Queues.unexpired now)
      · intro j
        rw [SledDb.getOfflineMessageIds, hindex]
        exact SledDb.ids_insert_index j k db _
      · intro i
        rw [hrecord]
        simp only [SledDb.record_insert_index, Queues.unexpired, Bool.not_not]
        rfl
    · dsimp only
      rw [hindex]
      exact AList.lookup_insert_ne hj
  · have hall : (q k).filter (Queues.unexpired now) = q k := by
      apply List.filter_sublist.eq_of_length
      omega
    refine ⟨by dsimp only; omega,?_,fun _ _ => rfl⟩
    rw [hall, Function.update_eq_self]
    exact h

end Entry

theorem cleanup_entries (es : List (Sigma (fun _ : ClientId => List (BitVec 64)))) (n : ℕ)
    (db : SledDb) (q : Queues) (h : Holds db q) (hnodup : (es.map Sigma.fst).Nodup)
    (hes : ∀ e ∈ es, db.offlineIndex.lookup e.1 = some e.2) :
    (es.foldl (SledDb.cleanupNext now) (n,db)).1 =
        n+(es.map (fun e => (q e.1).countP (expired now))).sum ∧
      Holds (es.foldl (SledDb.cleanupNext now) (n,db)).2 (fun k =>
        if k ∈ es.map Sigma.fst then (q k).filter (Queues.unexpired now) else q k) := by
  induction es generalizing n db q with
  | nil => exact ⟨rfl,by simpa using h⟩
  | cons e es ih =>
    obtain ⟨k, ids⟩ := e
    obtain ⟨hk, hrest⟩ := List.nodup_cons.mp hnodup
    obtain ⟨hcount, hholds, hother⟩ := cleanup_next_spec now h k n ids (hes _ List.mem_cons_self)
    have hne : ∀ e ∈ es, e.1 ≠ k := fun e he hc =>
      hk (List.mem_map.mpr ⟨e,he,hc⟩)
    rw [List.foldl_cons]
    rcases hr : SledDb.cleanupNext now (n,db) ⟨k,ids⟩ with ⟨n', db'⟩
    rw [hr] at hcount hholds hother
    obtain ⟨hsum, hrep⟩ := ih n' db' _ hholds hrest (fun e he => by
      rw [hother e.1 (hne e he)]
      exact hes e (List.mem_cons_of_mem _ he))
    constructor
    · have hsame : es.map (fun e =>
          (Function.update q k ((q k).filter (Queues.unexpired now)) e.1).countP (expired now)) =
            es.map (fun e => (q e.1).countP (expired now)) := by
        apply List.map_congr_left
        intro e he
        rw [Function.update_of_ne (hne e he)]
      dsimp only at hcount
      rw [hsum, hsame, hcount, List.map_cons, List.sum_cons, Nat.add_assoc]
    · have hsame : (fun j => if j ∈ ((⟨k,ids⟩ : Sigma _)::es).map Sigma.fst then
          (q j).filter (Queues.unexpired now) else q j) =
            fun j => if j ∈ es.map Sigma.fst then
              (Function.update q k ((q k).filter (Queues.unexpired now)) j).filter
                (Queues.unexpired now)
            else Function.update q k ((q k).filter (Queues.unexpired now)) j := by
        funext j
        by_cases hj : j = k
        · subst hj
          rw [if_neg hk, Function.update_self]
          exact if_pos List.mem_cons_self
        · rw [Function.update_of_ne hj]
          apply if_congr _ rfl rfl
          show j ∈ k::es.map Sigma.fst ↔ _
          rw [List.mem_cons, or_iff_right hj]
      rw [hsame]
      exact hrep

theorem holds_cleanup (db : SledDb) (q : Queues) (h : Holds db q) :
    Holds (db.cleanupExpired now).2 (q.cleanup now) ∧
      ∀ ks : Finset ClientId, (∀ k, q k ≠ [] → k ∈ ks) →
        (db.cleanupExpired now).1 = ∑ k ∈ ks, (q k).countP (expired now) := by
  have hempty : ∀ k, k ∉ db.offlineIndex.keys → q k = [] := by
    intro k hk
    have hi := h.index k
    dsimp only [SledDb.getOfflineMessageIds] at hi
    rw [AList.lookup_eq_none.mpr (fun hc => hk (AList.mem_keys.mp hc))] at hi
    exact List.map_eq_nil_iff.mp hi.symm
  obtain ⟨hsum, hrep⟩ := cleanup_entries now db.offlineIndex.entries 0 db q h
    db.offlineIndex.keys_nodup (fun e he => AList.mem_lookup_iff.mpr he)
  constructor
  · have hsame : q.cleanup now = fun k =>
        if k ∈ db.offlineIndex.entries.map Sigma.fst then (q k).filter (Queues.unexpired now)
        else q k := by
      funext k
      split_ifs with hk
      · rfl
      · rw [Queues.cleanup, hempty k hk]
        rfl
    rw [hsame]
    exact hrep
  · intro ks hks
    have hkeys : (db.cleanupExpired now).1 =
        ∑ k ∈ db.offlineIndex.keys.toFinset, (q k).countP (expired now) := by
      rw [List.sum_toFinset _ db.offlineIndex.keys_nodup]
      refine hsum.trans ?_
      rw [Nat.zero_add, AList.keys, List.keys, List.map_map]
      rfl
    rw [hkeys]
    apply Finset.sum_congr_of_eq_on_inter
    · intro k _ hk
      have hq : q k = [] := by
        by_contra hc
        exact hk (hks k hc)
      rw [hq]
      rfl
    · intro k _ hk
      rw [hempty k (fun hc => hk (List.mem_toFinset.mpr hc))]
      rfl
    · intro k _ _
      rfl

end Cleanup

section Keeping
variable (k : ClientId) (m : OfflineMessage) (db : SledDb)

/-- The message is returned for the client until it expires. -/
def Returned : Prop :=
  ∀ now, m.isExpired now messageTtl = false → m ∈ db.getOfflineMessages now k

def Kept : Prop :=
  m.id ∈ db.getOfflineMessageIds k ∧ db.offlineQueue.lookup m.id = some m

theorem new_message_unexpired : m.isExpired m.timestamp messageTtl = false := by
  unfold OfflineMessage.isExpired saturatingSub
  rw [if_pos UInt64.le_rfl, UInt64.sub_self]
  decide

theorem mem_messages_iff (now : UInt64) :
    m ∈ db.getOfflineMessages now k ↔ ∃ id ∈ db.getOfflineMessageIds k,
      db.offlineQueue.lookup id = some m ∧ m.isExpired now messageTtl = false := by
  rw [SledDb.getOfflineMessages, List.mem_filterMap]
  apply exists_congr
  intro id
  rw [Option.filter_eq_some_iff, Bool.not_eq_true']

theorem returned_of_kept (h : Kept k m db) : Returned k m db :=
  fun now hnow => (mem_messages_iff k m db now).mpr ⟨m.id,h.1,h.2,hnow⟩

def Filed : Prop := ∀ id n, db.offlineQueue.lookup id = some n → n.id = id

theorem kept_of_returned (hf : Filed db) (h : Returned k m db) : Kept k m db := by
  obtain ⟨id, hid, hrec, -⟩ := (mem_messages_iff k m db _).mp
    (h m.timestamp (new_message_unexpired m))
  obtain rfl := hf id m hrec
  exact ⟨hid,hrec⟩

def inQueue : List OfflineMessage :=
  (db.getOfflineMessageIds k).filterMap (fun id => db.offlineQueue.lookup id)

theorem mem_in_queue_iff (hf : Filed db) : m ∈ inQueue k db ↔ Kept k m db := by
  constructor
  · intro hm
    obtain ⟨id, hid, hrec⟩ := List.mem_filterMap.mp hm
    obtain rfl := hf id m hrec
    exact ⟨hid,hrec⟩
  · intro h
    exact List.mem_filterMap.mpr ⟨m.id,h.1,h.2⟩

end Keeping

inductive OfflineEvent where
  | add (m : OfflineMessage)
  | clear (k : ClientId)
  | cleanup (now : UInt64)
  deriving DecidableEq, Repr

def offlineStep (db : SledDb) : OfflineEvent → SledDb
  | .add m => db.addOfflineMessage m
  | .clear k => db.clearOfflineMessages k
  | .cleanup now => (db.cleanupExpired now).2

def queueStep (q : Queues) : OfflineEvent → Queues
  | .add m => q.add m
  | .clear k => q.clear k
  | .cleanup now => q.cleanup now

def addedMessage : OfflineEvent → Option OfflineMessage
  | .add m => some m
  | _ => none

def addedIds (es : List OfflineEvent) : List (BitVec 64) :=
  (es.filterMap addedMessage).map OfflineMessage.id

section Filing

/-- No record is new or changed. -/
def Fewer (db db' : SledDb) : Prop :=
  ∀ id n, db'.offlineQueue.lookup id = some n → db.offlineQueue.lookup id = some n

theorem filed_of_fewer (db db' : SledDb) (hf : Filed db) (h : Fewer db db') : Filed db' :=
  fun id n hn => hf id n (h id n hn)

theorem fewer_remove (id : BitVec 64) (db : SledDb) : Fewer db (db.removeRecord id) := by
  intro i n hn
  rw [SledDb.record_remove_record] at hn
  split_ifs at hn
  exact hn

theorem fewer_room (k : ClientId) (db : SledDb) : Fewer db (db.makeRoom k) := by
  unfold SledDb.makeRoom SledDb.removeOldestOffline
  dsimp only
  split_ifs
  · split
    · exact fun _ _ hn => hn
    · exact fewer_remove _ (db.insertIndex k _)
  · exact fun _ _ hn => hn

theorem fewer_clear (k : ClientId) (db : SledDb) : Fewer db (db.clearOfflineMessages k) := by
  intro i n hn
  rw [SledDb.record_clear] at hn
  split_ifs at hn
  exact hn

theorem fewer_cleanup_next (now : UInt64) (r : ℕ × SledDb)
    (e : Sigma (fun _ : ClientId => List (BitVec 64))) :
    Fewer r.2 (SledDb.cleanupNext now r e).2 := by
  unfold SledDb.cleanupNext
  dsimp only
  split_ifs
  · intro i n hn
    dsimp only at hn
    rw [(removes_eq _ _).2] at hn
    split_ifs at hn
    exact hn
  · exact fun _ _ hn => hn

theorem fewer_cleanup (now : UInt64) (db : SledDb) : Fewer db (db.cleanupExpired now).2 := by
  unfold SledDb.cleanupExpired
  generalize db.offlineIndex.entries = es
  suffices h : ∀ r : ℕ × SledDb, Fewer r.2 (es.foldl (SledDb.cleanupNext now) r).2 from h (0,db)
  induction es with
  | nil => exact fun _ _ _ hn => hn
  | cons e es ih =>
    intro r i n hn
    exact fewer_cleanup_next now r e i n (ih _ i n hn)

theorem filed_insert (m : OfflineMessage) (db : SledDb) (h : Filed db) :
    Filed (db.insertRecord m) := by
  intro i n hn
  rw [SledDb.record_insert_record] at hn
  split_ifs at hn with hi
  · cases hn
    exact hi.symm
  · exact h i n hn

theorem filed_add (m : OfflineMessage) (db : SledDb) (h : Filed db) :
    Filed (db.addOfflineMessage m) :=
  filed_insert m _ (filed_of_fewer db _ h (fewer_room m.clientId db))

theorem filed_step (db : SledDb) (e : OfflineEvent) (h : Filed db) : Filed (offlineStep db e) := by
  cases e with
  | add m => exact filed_add m db h
  | clear k => exact filed_of_fewer db _ h (fewer_clear k db)
  | cleanup now => exact filed_of_fewer db _ h (fewer_cleanup now db)

def storeAfter (history : List OfflineEvent) : SledDb := history.foldl offlineStep SledDb.empty

theorem filed_after (history : List OfflineEvent) : Filed (storeAfter history) := by
  have hempty : Filed SledDb.empty := by
    intro i n hn
    cases hn
  exact always_last offlineStep Filed _ history
    (always_of_step offlineStep Filed filed_step _ history hempty)

end Filing

/-- What the store answers and holds is what the queues say. -/
structure Refines (db : SledDb) (q : Queues) : Prop where
  messages : ∀ now k, db.getOfflineMessages now k = (q k).filter (Queues.unexpired now)
  count : ∀ k, db.getOfflineCount k = (q k).length
  bounded : ∀ k, (q k).length ≤ maxQueueSize
  cleaned : ∀ now (ks : Finset ClientId), (∀ k, q k ≠ [] → k ∈ ks) →
    (db.cleanupExpired now).1 = ∑ k ∈ ks, (q k).countP (expired now)
  records : ∀ id m, db.offlineQueue.lookup id = some m ↔ m.id = id ∧ ∃ k, m ∈ q k

section Runs

theorem refines_of_holds (db : SledDb) (q : Queues) (h : Holds db q)
    (hb : ∀ k, (q k).length ≤ maxQueueSize) : Refines db q where
  messages := messages_of_holds h
  count := count_of_holds h
  bounded := hb
  cleaned now := (holds_cleanup now db q h).2
  records := h.record_iff

theorem bounded_step (q : Queues) (e : OfflineEvent) (hb : ∀ k, (q k).length ≤ maxQueueSize)
    (k : ClientId) : (queueStep q e k).length ≤ maxQueueSize := by
  cases e with
  | add m =>
    show (Function.update q m.clientId _ k).length ≤ _
    rw [Function.update_apply]
    split_ifs
    · exact push_bounded_length _ _ _ (by decide) (hb _)
    · exact hb k
  | clear j =>
    show (Function.update q j [] k).length ≤ _
    rw [Function.update_apply]
    split_ifs
    · exact Nat.zero_le _
    · exact hb k
  | cleanup now => exact (List.length_filter_le _ _).trans (hb k)

theorem mem_step (q : Queues) (e : OfflineEvent) (k : ClientId) (m : OfflineMessage)
    (h : m ∈ queueStep q e k) : m ∈ q k ∨ addedMessage e = some m := by
  cases e with
  | add n =>
    rcases Queues.mem_add n m q k h with h | ⟨-, rfl⟩
    · exact .inl h
    · exact .inr rfl
  | clear j =>
    have h : m ∈ Function.update q j [] k := h
    rw [Function.update_apply] at h
    split_ifs at h
    · cases h
    · exact .inl h
  | cleanup now => exact .inl (List.mem_of_mem_filter h)

theorem holds_step (db : SledDb) (q : Queues) (e : OfflineEvent) (h : Holds db q)
    (hfresh : ∀ n, addedMessage e = some n → ∀ k, ∀ m ∈ q k, m.id ≠ n.id) :
    Holds (offlineStep db e) (queueStep q e) := by
  cases e with
  | add n =>
    apply holds_add h n
    intro j m hm
    exact hfresh n rfl j m (Queues.mem_room _ _ q m hm)
  | clear k => exact holds_clear h k
  | cleanup now => exact (holds_cleanup now db q h).1

theorem refines_run (es : List OfflineEvent) (db : SledDb) (q : Queues) (h : Holds db q)
    (hb : ∀ k, (q k).length ≤ maxQueueSize) (hd : (addedIds es).Nodup)
    (hq : ∀ k, ∀ m ∈ q k, m.id ∉ addedIds es) :
    Refines (es.foldl offlineStep db) (es.foldl queueStep q) := by
  induction es generalizing db q with
  | nil => exact refines_of_holds db q h hb
  | cons e es ih =>
    have hsub : addedIds es ⊆ addedIds (e::es) := by
      intro i hi
      obtain ⟨m, hm, rfl⟩ := List.mem_map.mp hi
      obtain ⟨e', he', hm⟩ := List.mem_filterMap.mp hm
      exact List.mem_map_of_mem (List.mem_filterMap.mpr ⟨e',List.mem_cons_of_mem e he',hm⟩)
    have hnew : ∀ n, addedMessage e = some n → addedIds (e::es) = n.id::addedIds es := by
      intro n hn
      rw [addedIds, List.filterMap_cons_some hn]
      rfl
    have hrest : (addedIds es).Nodup := by
      cases hn : addedMessage e with
      | none => rwa [addedIds, List.filterMap_cons_none hn] at hd
      | some n =>
        rw [hnew n hn] at hd
        exact (List.nodup_cons.mp hd).2
    apply ih _ _ _ (bounded_step q e hb) hrest
    · intro k m hm hin
      rcases mem_step q e k m hm with hm | hm
      · exact hq k m hm (hsub hin)
      · rw [hnew m hm] at hd
        exact (List.nodup_cons.mp hd).1 hin
    · apply holds_step db q e h
      intro n hn k m hm he
      apply hq k m hm
      rw [hnew n hn, he]
      exact List.mem_cons_self

end Runs

theorem holds_empty (db : SledDb) (hindex : db.offlineIndex = ∅) (hqueue : db.offlineQueue = ∅) :
    Holds db (fun _ => []) := by
  constructor
  case index =>
    intro k
    show (db.offlineIndex.lookup k).getD [] = []
    rw [hindex]
    rfl
  case held =>
    intro k m hm
    cases hm
  case apart =>
    intro j k m n hm
    cases hm
  case nodup =>
    intro k
    exact List.nodup_nil
  case only =>
    intro i m hm
    rw [hqueue] at hm
    cases hm

/-- Whatever is added, cleared and cleaned up, the store answers as one
bounded queue for each client. -/
theorem offline_store_refines_queues (db : SledDb) (hindex : db.offlineIndex = ∅)
    (hqueue : db.offlineQueue = ∅) (es : List OfflineEvent) (hd : (addedIds es).Nodup) :
    Refines (es.foldl offlineStep db) (es.foldl queueStep (fun _ => [])) := by
  exact refines_run es db (fun _ => []) (holds_empty db hindex hqueue) (fun _ => Nat.zero_le _) hd
    (fun _ _ hm => by cases hm)

def queuedFor (k : ClientId) (id : BitVec 64) (stamp : UInt64) : OfflineMessage :=
  ⟨id,k,[116],[1],stamp,0⟩

/-- Two clients, one of them cleared, and one message that expires. -/
theorem two_clients_refined :
    (addedIds [.add (queuedFor 1 7 0),.add (queuedFor 2 8 5),.add (queuedFor 1 9 604805),.clear 2,
        .cleanup 604805]).Nodup ∧
      Refines ([.add (queuedFor 1 7 0),.add (queuedFor 2 8 5),.add (queuedFor 1 9 604805),.clear 2,
          .cleanup 604805].foldl offlineStep SledDb.empty)
        ([.add (queuedFor 1 7 0),.add (queuedFor 2 8 5),.add (queuedFor 1 9 604805),.clear 2,
          .cleanup 604805].foldl queueStep (fun _ => [])) :=
  ⟨by decide,offline_store_refines_queues SledDb.empty rfl rfl _ (by decide)⟩

end RexMq.OfflineQueues
