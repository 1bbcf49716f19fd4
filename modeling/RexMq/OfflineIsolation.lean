import Mathlib.Tactic.Common
import RexMq.OfflineQueues

/-!
# Ids of queued messages and the isolation of clients

A message gets its id when it is queued, from the seconds of the clock and
the low 16 bits of a counter. The counter belongs to the process: after a
restart on the same database it starts at zero again, and after 65536 calls
its low bits repeat. Clients are isolated exactly as long as no message gets
an id that is in the index of some client, and the first message that does
is returned to a client it was not queued for, or returned twice.
-/

set_option autoImplicit false

namespace RexMq.OfflineIsolation
open RexMq.ByteWords RexMq.FiniteRun RexMq.ClientRegistry RexMq.PersistentStore
open RexMq.QueueIndex RexMq.OfflineQueues

def genMessageId (now counter : UInt64) : BitVec 64 :=
  ((now <<< 16) ||| (counter &&& 0xFFFF)).toBitVec

/-- The buffer with the counter of its process and all messages queued since
the database was made. -/
structure Buffer where
  db : SledDb
  counter : UInt64
  queued : List OfflineMessage

/-- The clock is read once for the id and once more for the message. -/
inductive BufferEvent where
  | queue (k : ClientId) (title : Title) (payload : Bytes) (now stamp : UInt64)
  | clear (k : ClientId)
  | restart

def newMessage (counter : UInt64) (k : ClientId) (title : Title) (payload : Bytes)
    (now stamp : UInt64) : OfflineMessage :=
  ⟨genMessageId now counter,k,title,payload,stamp,0⟩

def bufferStep (x : Buffer) : BufferEvent → Buffer
  | .queue k title payload now stamp =>
    let m := newMessage x.counter k title payload now stamp
    ⟨x.db.addOfflineMessage m,x.counter+1,x.queued++[m]⟩
  | .clear k => { x with db := x.db.clearOfflineMessages k }
  | .restart => { x with counter := 0 }

def emptyBuffer : Buffer := ⟨SledDb.empty,0,[]⟩

/-- Clients are returned what was queued for them, each message once, and one
of them being cleared changes nothing for the others. -/
structure Isolated (x : Buffer) : Prop where
  own : ∀ now k, ∀ m ∈ x.db.getOfflineMessages now k, m ∈ x.queued ∧ m.clientId = k
  once : ∀ now k, (x.db.getOfflineMessages now k).Nodup
  apart : ∀ now j k, j ≠ k →
    (x.db.clearOfflineMessages j).getOfflineMessages now k = x.db.getOfflineMessages now k

/-- The id of the next message is in no index, once the queue has room. -/
def Unused (x : Buffer) : BufferEvent → Prop
  | .queue k _ _ now _ =>
    ∀ j, genMessageId now x.counter ∉ (x.db.makeRoom k).getOfflineMessageIds j
  | _ => True

/-- The trees hold queues of messages that were queued for their clients. -/
def Sorted (x : Buffer) : Prop :=
  ∃ q : Queues, Holds x.db q ∧ ∀ k, ∀ m ∈ q k, m ∈ x.queued ∧ m.clientId = k

theorem isolated_of_sorted (x : Buffer) (h : Sorted x) : Isolated x := by
  obtain ⟨q, hq, hown⟩ := h
  constructor
  · intro now k m hm
    rw [messages_of_holds hq] at hm
    exact hown k m (List.mem_of_mem_filter hm)
  · intro now k
    rw [messages_of_holds hq]
    exact (List.Nodup.of_map _ (hq.nodup k)).filter _
  · intro now j k hne
    rw [messages_of_holds (holds_clear hq j), messages_of_holds hq, Queues.clear,
      Function.update_of_ne hne.symm]

theorem sorted_step (x : Buffer) (e : BufferEvent) (h : Sorted x) (he : Unused x e) :
    Sorted (bufferStep x e) := by
  obtain ⟨q, hq, hown⟩ := h
  cases e with
  | queue k title payload now stamp =>
    refine ⟨q.add (newMessage x.counter k title payload now stamp),holds_add hq _ ?_,?_⟩
    · intro j m hm hid
      apply he j
      rw [(holds_room hq k).index]
      exact List.mem_map.mpr ⟨m,hm,hid⟩
    · intro j m hm
      rcases Queues.mem_add _ _ _ _ hm with hm | ⟨hj, rfl⟩
      · exact ⟨List.mem_append_left _ (hown j m hm).1,(hown j m hm).2⟩
      · exact ⟨List.mem_append_right _ (List.mem_singleton_self _),hj.symm⟩
  | clear k =>
    refine ⟨q.clear k,holds_clear hq k,?_⟩
    intro j m hm
    rw [Queues.clear, Function.update_apply] at hm
    split_ifs at hm
    · cases hm
    · exact hown j m hm
  | restart => exact ⟨q,hq,hown⟩

theorem not_isolated_of_used (x : Buffer) (e : BufferEvent) (he : ¬ Unused x e) :
    ¬ Isolated (bufferStep x e) := by
  cases e with
  | clear k => exact absurd trivial he
  | restart => exact absurd trivial he
  | queue k title payload now stamp =>
    intro hi
    obtain ⟨j, hj⟩ := not_forall.mp he
    rw [not_not] at hj
    have hids : ∀ i, (bufferStep x (.queue k title payload now stamp)).db.getOfflineMessageIds i =
        if i = k then (x.db.makeRoom k).getOfflineMessageIds k++[genMessageId now x.counter]
        else (x.db.makeRoom k).getOfflineMessageIds i :=
      fun i => SledDb.ids_insert_index i k _ _
    have hread : ((bufferStep x (.queue k title payload now stamp)).db.offlineQueue.lookup
        (genMessageId now x.counter)).filter (fun m => !m.isExpired stamp messageTtl) =
          some (newMessage x.counter k title payload now stamp) := by
      have hfresh := new_message_unexpired (newMessage x.counter k title payload now stamp)
      have hrec : (bufferStep x (.queue k title payload now stamp)).db.offlineQueue.lookup
          (genMessageId now x.counter) = some (newMessage x.counter k title payload now stamp) :=
        AList.lookup_insert _
      rw [hrec, Option.filter_some, if_pos]
      rw [Bool.not_eq_true']
      exact hfresh
    by_cases hjk : j = k
    · -- the id stands twice in the index of the client
      subst hjk
      have honce := hi.once stamp j
      rw [SledDb.getOfflineMessages, hids, if_pos rfl, List.filterMap_append,
        List.nodup_append] at honce
      apply honce.2.2 (newMessage x.counter j title payload now stamp) _ _ _ rfl
      · exact List.mem_filterMap.mpr ⟨_,hj,hread⟩
      · exact List.mem_filterMap.mpr ⟨_,List.mem_singleton_self _,hread⟩
    · -- the record of client `j` is replaced by the message for `k`
      have hmem : newMessage x.counter k title payload now stamp ∈
          (bufferStep x (.queue k title payload now stamp)).db.getOfflineMessages stamp j := by
        rw [SledDb.getOfflineMessages, hids, if_neg hjk]
        exact List.mem_filterMap.mpr ⟨_,hj,hread⟩
      exact hjk (hi.own stamp j _ hmem).2.symm

/-- Clients stay isolated throughout a run exactly when no message is given
an id in use. -/
theorem isolated_run_iff (es : List BufferEvent) :
    Always bufferStep Isolated emptyBuffer es ↔ Along bufferStep Unused emptyBuffer es := by
  apply always_iff_along bufferStep Unused Sorted Isolated isolated_of_sorted sorted_step
  · intro x e _ he
    exact not_isolated_of_used x e he
  · refine ⟨fun _ => [],?_,fun k m hm => by cases hm⟩
    exact holds_empty SledDb.empty rfl rfl

/-- A message for client 1, a restart, and one for client 2 within a second. -/
theorem message_returned_to_other_client :
    ¬ Isolated ([.queue 1 [97] [1] 1700000000 1700000000,.restart,
      .queue 2 [98] [2] 1700000000 1700000000].foldl bufferStep emptyBuffer) := by
  intro hi
  have h := hi.own 1700000000 1 ⟨genMessageId 1700000000 0,2,[98],[2],1700000000,0⟩
    (by decide +kernel)
  exact absurd h.2 (by decide)

end RexMq.OfflineIsolation
