import Mathlib.Tactic.Common
import Mathlib.Tactic.IntervalCases
import RexMq.FailingOps
import RexMq.PersistentStore

/-!
# An enqueue that fails half-way

`add_offline_message` opens trees, reads and writes in up to fifteen
operations on the database, any of which can fail; what was written before
the failure stays. The first write of an ordinary enqueue is the record, so
a later failure leaves a record without an index entry; with a full queue it
is the shortened index of the oldest message, which is gone then whatever
follows.
-/

set_option autoImplicit false

namespace RexMq.FailedEnqueue
open RexMq.ClientRegistry RexMq.FailingOps RexMq.PersistentStore

inductive PersistenceError where
  | db
  deriving DecidableEq, Repr

abbrev Store (α : Type) := Prog SledDb PersistenceError α

section Operations

def openTree : Store Unit := op .db (fun db => ((),db))

def getIndex (k : ClientId) : Store (Option (List (BitVec 64))) :=
  op .db (fun db => (db.offlineIndex.lookup k,db))

def insertIndex (k : ClientId) (ids : List (BitVec 64)) : Store Unit :=
  op .db (fun db => ((),db.insertIndex k ids))

def insertRecord (m : OfflineMessage) : Store Unit := op .db (fun db => ((),db.insertRecord m))

def removeRecord (id : BitVec 64) : Store Unit := op .db (fun db => ((),db.removeRecord id))

def getOfflineMessageIds (k : ClientId) : Store (List (BitVec 64)) := do
  openTree
  let value ← getIndex k
  return value.getD []

def removeOfflineMessage (k : ClientId) (id : BitVec 64) : Store Unit := do
  openTree
  let ids ← getOfflineMessageIds k
  insertIndex k (ids.filter (fun i => i ≠ id))
  openTree
  removeRecord id

def removeOldestOffline (k : ClientId) : Store Unit := do
  let ids ← getOfflineMessageIds k
  match ids with
  | [] => return ()
  | oldest::_ => removeOfflineMessage k oldest

def makeRoom (k : ClientId) : Store Unit := do
  openTree
  let value ← getIndex k
  if maxQueueSize ≤ (value.map List.length).getD 0 then removeOldestOffline k else return ()

/-- The index tree opened by the check is used again for the last write. -/
def addOfflineMessage (m : OfflineMessage) : Store Unit := do
  makeRoom m.clientId
  openTree
  insertRecord m
  let ids ← getOfflineMessageIds m.clientId
  insertIndex m.clientId (ids++[m.id])

end Operations

section States
variable (k : ClientId) (m : OfflineMessage) (db : SledDb)

theorem ids_traces :
    Traces .db (getOfflineMessageIds k) db (db.getOfflineMessageIds k) [db,db] :=
  traces_bind _ _ _ db _ _ [db] [db] (traces_op ..)
    (traces_bind _ _ _ db _ _ [db] [] (traces_op ..) (traces_pure ..))

theorem remove_traces (id : BitVec 64) (d : SledDb)
    (hd : d = db.insertIndex k ((db.getOfflineMessageIds k).filter (fun i => i ≠ id))) :
    Traces .db (removeOfflineMessage k id) db () [db,db,db,d,d,d.removeRecord id] := by
  subst hd
  refine traces_bind _ _ _ db _ _ [db] _ (traces_op ..) ?_
  refine traces_bind _ _ _ db _ _ [db,db] _ (ids_traces k db) ?_
  refine traces_bind _ _ _ db _ _ [_] _ (traces_op ..) ?_
  exact traces_bind _ _ _ _ _ _ [_] [_] (traces_op ..) (traces_op ..)

/-- The states while room is made: a full queue has its index rewritten, and
then the record of its oldest message removed. -/
def roomStates : List SledDb :=
  if maxQueueSize ≤ db.getOfflineCount k then
    match db.getOfflineMessageIds k with
    | [] => [db,db,db,db]
    | oldest::_ =>
      let d := db.insertIndex k ((db.getOfflineMessageIds k).filter (fun i => i ≠ oldest))
      [db,db,db,db,db,db,db,d,d,d.removeRecord oldest]
  else [db,db]

theorem room_traces : Traces .db (makeRoom k) db () (roomStates k db) := by
  have hcheck : ∀ u, Traces .db (if maxQueueSize ≤ db.getOfflineCount k then
      removeOldestOffline k else return ()) db () u →
      Traces .db (makeRoom k) db () ([db,db]++u) := by
    intro u hu
    rw [← SledDb.current_size_eq] at hu
    refine traces_bind _ _ _ db _ _ [db] _ (traces_op ..) ?_
    exact traces_bind _ _ _ db _ _ [db] _ (traces_op ..) hu
  rw [roomStates]
  by_cases hfull : maxQueueSize ≤ db.getOfflineCount k
  · rw [if_pos hfull] at hcheck ⊢
    have hids := ids_traces k db
    cases he : db.getOfflineMessageIds k with
    | nil =>
      rw [he] at hids
      exact hcheck [db,db] (traces_bind _ _ _ db _ _ [db,db] [] hids (traces_pure ..))
    | cons oldest rest =>
      have hremove := remove_traces k db oldest _ rfl
      rw [he] at hids hremove
      exact hcheck _ (traces_bind _ _ _ db _ _ [db,db] _ hids hremove)
  · rw [if_neg hfull] at hcheck ⊢
    exact hcheck [] (traces_pure ..)

theorem room_last : after db (roomStates k db) (roomStates k db).length = db.makeRoom k := by
  rw [roomStates, SledDb.makeRoom, SledDb.current_size_eq]
  split_ifs
  · rw [SledDb.removeOldestOffline]
    cases he : db.getOfflineMessageIds k with
    | nil => rfl
    | cons oldest rest =>
      dsimp only
      rw [SledDb.removeOfflineMessage, he]
      rfl
  · rfl

/-- The states of an enqueue, one after each operation. -/
def enqueueStates : List SledDb :=
  let d := db.makeRoom m.clientId
  roomStates m.clientId db++
    [d,d.insertRecord m,d.insertRecord m,d.insertRecord m,db.addOfflineMessage m]

theorem enqueue_traces : Traces .db (addOfflineMessage m) db () (enqueueStates m db) := by
  refine traces_bind _ _ _ db _ _ _ _ (room_traces m.clientId db) ?_
  rw [room_last]
  refine traces_bind _ _ _ _ _ _ [_] _ (traces_op ..) ?_
  refine traces_bind _ _ _ _ _ _ [_] _ (traces_op ..) ?_
  exact traces_bind _ _ _ _ _ _ [_,_] [_] (ids_traces ..) (traces_op ..)

/-- A complete enqueue is the one of the store's model. -/
theorem enqueue_complete (n : ℕ) (h : (enqueueStates m db).length ≤ n) :
    (addOfflineMessage m).runWith n db =
      (.ok (),(n-(enqueueStates m db).length,db.addOfflineMessage m)) := by
  have hlast : after db (enqueueStates m db) (enqueueStates m db).length =
      db.addOfflineMessage m := by
    rw [enqueueStates, List.length_append, after_append, if_neg (by omega),
      Nat.add_sub_cancel_left]
    rfl
  rw [(enqueue_traces m db).run, if_neg (Nat.not_lt.mpr h), hlast]

end States

section Effects
variable (m : OfflineMessage) (db : SledDb)

def Unaffected (db db' : SledDb) : Prop :=
  ∀ k, (∀ now, db'.getOfflineMessages now k = db.getOfflineMessages now k) ∧
    db'.getOfflineCount k = db.getOfflineCount k

def NoOrphan (db : SledDb) : Prop :=
  ∀ id r, db.offlineQueue.lookup id = some r → ∃ k, id ∈ db.getOfflineMessageIds k

theorem unaffected_refl : Unaffected db db := fun _ => ⟨fun _ => rfl,rfl⟩

/-- Two selections from a list with the same result, one of which selects
wherever the other does, select the same everywhere. -/
theorem filterMap_eq_dominated {α β : Type*} (f g : α → Option β) (xs : List α)
    (hfg : ∀ x, (f x).isSome → (g x).isSome) (h : xs.filterMap g = xs.filterMap f) :
    ∀ x ∈ xs, g x = f x := by
  have hlen : ∀ ys : List α, (ys.filterMap f).length ≤ (ys.filterMap g).length := by
    intro ys
    rw [List.length_filterMap_eq_countP, List.length_filterMap_eq_countP]
    exact List.countP_mono_left (fun y _ hy => hfg y hy)
  induction xs with
  | nil => exact fun x hx => by cases hx
  | cons y ys ih =>
    have hy := hfg y
    have hle := hlen ys
    cases hf : f y with
    | none =>
      cases hg : g y with
      | none =>
        rw [List.filterMap_cons_none hf, List.filterMap_cons_none hg] at h
        rintro x (_ | ⟨_, hx⟩)
        · rw [hf, hg]
        · exact ih h x hx
      | some b =>
        rw [List.filterMap_cons_none hf, List.filterMap_cons_some hg] at h
        have hn := congrArg List.length h
        rw [List.length_cons] at hn
        omega
    | some a =>
      rw [hf] at hy
      obtain ⟨b, hg⟩ := Option.isSome_iff_exists.mp (hy rfl)
      rw [List.filterMap_cons_some hf, List.filterMap_cons_some hg] at h
      obtain ⟨hab, ht⟩ := List.cons.inj h
      rintro x (_ | ⟨_, hx⟩)
      · rw [hf, hg, hab]
      · exact ih ht x hx

def unexpired (now : UInt64) (db : SledDb) (id : BitVec 64) : Option OfflineMessage :=
  (db.offlineQueue.lookup id).filter (fun r => !r.isExpired now messageTtl)

theorem unexpired_zero (r : OfflineMessage) : r.isExpired 0 messageTtl = false := by
  have hz : saturatingSub 0 r.timestamp = 0 := by
    unfold saturatingSub
    split_ifs with hle
    · rw [UInt64.le_antisymm hle (UInt64.zero_le)]
      rfl
    · rfl
  rw [OfflineMessage.isExpired, hz]
  decide

theorem record_unaffected_iff (k : ClientId) (hk : m.id ∈ db.getOfflineMessageIds k) :
    Unaffected db (db.insertRecord m) ↔ db.offlineQueue.lookup m.id = some m := by
  constructor
  · intro h
    have hsame := filterMap_eq_dominated (unexpired 0 db) (unexpired 0 (db.insertRecord m))
      (db.getOfflineMessageIds k) (fun i hi => by
        rw [unexpired, SledDb.record_insert_record]
        split_ifs
        · simp [unexpired_zero]
        · exact hi) ((h k).1 0) m.id hk
    simp only [unexpired, SledDb.record_insert_record, if_true, Option.filter_some,
      unexpired_zero, Bool.not_false] at hsame
    exact (Option.filter_eq_some_iff.mp hsame.symm).1
  · intro h k
    refine ⟨fun now => ?_,rfl⟩
    have hlookup : ∀ i, (db.insertRecord m).offlineQueue.lookup i =
        db.offlineQueue.lookup i := by
      intro i
      rw [SledDb.record_insert_record]
      split_ifs with hi
      · rw [hi, h]
      · rfl
    simp only [SledDb.getOfflineMessages, hlookup]
    rfl

/-- A record that is stored but not indexed is noticed or an orphan, unless
it was stored and indexed before. -/
theorem record_left_iff :
    Unaffected db (db.insertRecord m) ∧ NoOrphan (db.insertRecord m) ↔
      NoOrphan db ∧ db.offlineQueue.lookup m.id = some m ∧
        ∃ k, m.id ∈ db.getOfflineMessageIds k := by
  constructor
  · rintro ⟨hu, hn⟩
    obtain ⟨k, hk⟩ := hn m.id m (by rw [SledDb.record_insert_record, if_pos rfl])
    refine ⟨fun id r hr => ?_,(record_unaffected_iff m db k hk).mp hu,k,hk⟩
    by_cases hid : id = m.id
    · exact ⟨k,by rw [hid]; exact hk⟩
    · exact hn id r (by rwa [SledDb.record_insert_record, if_neg hid])
  · rintro ⟨hn, hm, k, hk⟩
    refine ⟨(record_unaffected_iff m db k hk).mpr hm,fun id r hr => ?_⟩
    rw [SledDb.record_insert_record] at hr
    split_ifs at hr with hid
    · exact ⟨k,by rw [hid]; exact hk⟩
    · exact hn id r hr

/-- What the first failing operation leaves, if `n` succeeded before it. -/
def leftBehind (n : ℕ) : SledDb := after db (enqueueStates m db) n

theorem left_of_not_full (n : ℕ) (hfull : ¬ maxQueueSize ≤ db.getOfflineCount m.clientId)
    (hn : n < (enqueueStates m db).length) :
    leftBehind m db n = if n < 4 then db else db.insertRecord m := by
  have hroom : db.makeRoom m.clientId = db := by
    rw [SledDb.makeRoom, SledDb.current_size_eq, if_neg hfull]
  have hs : enqueueStates m db = [db,db,db,db.insertRecord m,db.insertRecord m,
      db.insertRecord m,db.addOfflineMessage m] := by
    rw [enqueueStates, roomStates, if_neg hfull, hroom]
    rfl
  rw [hs] at hn
  rw [leftBehind, hs]
  simp only [List.length_cons, List.length_nil] at hn
  interval_cases n <;> rfl

theorem left_of_full (n : ℕ) (hfull : maxQueueSize ≤ db.getOfflineCount m.clientId)
    (hn : n < (enqueueStates m db).length) :
    (n < 8 → leftBehind m db n = db) ∧
      (8 ≤ n → (leftBehind m db n).getOfflineCount m.clientId <
        db.getOfflineCount m.clientId) := by
  cases he : db.getOfflineMessageIds m.clientId with
  | nil =>
    rw [SledDb.getOfflineCount, he] at hfull
    exact absurd hfull (by decide)
  | cons oldest rest =>
    obtain ⟨d, hd⟩ : ∃ d, d = db.insertIndex m.clientId
      ((db.getOfflineMessageIds m.clientId).filter (fun i => i ≠ oldest)) := ⟨_,rfl⟩
    have hcount : d.getOfflineCount m.clientId < db.getOfflineCount m.clientId := by
      have hle := List.length_filter_le (fun i => decide (i ≠ oldest)) rest
      rw [hd, SledDb.getOfflineCount, SledDb.ids_insert_index, if_pos rfl, he,
        List.filter_cons_of_neg (by simp), SledDb.getOfflineCount, he, List.length_cons]
      omega
    have hroom : db.makeRoom m.clientId = d.removeRecord oldest := by
      rw [SledDb.makeRoom, SledDb.current_size_eq, if_pos hfull, SledDb.removeOldestOffline, he]
      dsimp only
      rw [SledDb.removeOfflineMessage, ← hd]
    have hs : enqueueStates m db = [db,db,db,db,db,db,db,d,d,d.removeRecord oldest,
        d.removeRecord oldest,(d.removeRecord oldest).insertRecord m,
        (d.removeRecord oldest).insertRecord m,(d.removeRecord oldest).insertRecord m,
        db.addOfflineMessage m] := by
      rw [enqueueStates, roomStates, if_pos hfull, hroom]
      simp only [he]
      rw [← he, ← hd]
      rfl
    rw [hs] at hn
    rw [leftBehind, hs]
    simp only [List.length_cons, List.length_nil] at hn
    -- record operations leave the index, and with it the count, alone
    interval_cases n <;> first
      | exact ⟨fun _ => rfl,fun h => absurd h (by decide)⟩
      | exact ⟨fun h => absurd h (by decide),fun _ => hcount⟩

end Effects

/-- An enqueue whose (n+1)-th operation fails changes nothing exactly when no
record was without an index before and either nothing was written yet or,
with room in the queue, the very same message was already stored. -/
theorem failed_enqueue_iff (m : OfflineMessage) (db : SledDb) (n : ℕ)
    (h : ((addOfflineMessage m).runWith n db).1 = .error .db) :
    Unaffected db ((addOfflineMessage m).runWith n db).2.2 ∧
        NoOrphan ((addOfflineMessage m).runWith n db).2.2 ↔
      NoOrphan db ∧ (n < 4 ∨ maxQueueSize ≤ db.getOfflineCount m.clientId ∧ n < 8 ∨
        ¬ maxQueueSize ≤ db.getOfflineCount m.clientId ∧
          db.offlineQueue.lookup m.id = some m ∧ ∃ k, m.id ∈ db.getOfflineMessageIds k) := by
  have hn : n < (enqueueStates m db).length := by
    by_contra hge
    rw [(enqueue_traces m db).run, if_neg hge] at h
    cases h
  rw [(enqueue_traces m db).run, if_pos hn]
  show Unaffected db (leftBehind m db n) ∧ NoOrphan (leftBehind m db n) ↔ _
  by_cases hfull : maxQueueSize ≤ db.getOfflineCount m.clientId
  · obtain ⟨hbefore, hafter⟩ := left_of_full m db n hfull hn
    by_cases hw : n < 8
    · rw [hbefore hw, and_iff_right (unaffected_refl db), and_iff_left]
      exact .inr (.inl ⟨hfull,hw⟩)
    · refine iff_of_false (fun hu => ?_) ?_
      · have := (hu.1 m.clientId).2
        have := hafter (by omega)
        omega
      · rintro ⟨-, hlt | ⟨-, hlt⟩ | ⟨hnot, -⟩⟩
        · omega
        · omega
        · exact hnot hfull
  · rw [left_of_not_full m db n hfull hn]
    split_ifs with hw
    · rw [and_iff_right (unaffected_refl db), and_iff_left]
      exact .inl hw
    · rw [record_left_iff]
      constructor
      · rintro ⟨hno, hm⟩
        exact ⟨hno,.inr (.inr ⟨hfull,hm⟩)⟩
      · rintro ⟨hno, hlt | ⟨hf, -⟩ | ⟨-, hm⟩⟩
        · exact absurd hlt hw
        · exact absurd hf hfull
        · exact ⟨hno,hm⟩

/-- A message for client 1. -/
def hello : OfflineMessage := ⟨5,1,[116],[104],0,0⟩

/-- A full queue of client 1, of which the record of message 3 is stored. -/
def fullQueue : SledDb :=
  (SledDb.empty.insertRecord ⟨3,1,[116],[103],0,0⟩).insertIndex 1
    ((List.range maxQueueSize).map (BitVec.ofNat 64))

theorem full_queue_no_orphan : NoOrphan fullQueue := by
  intro id r hr
  have hlookup : fullQueue.offlineQueue.lookup id =
      if id = 3 then some ⟨3,1,[116],[103],0,0⟩ else none := SledDb.record_insert_record ..
  rw [hlookup] at hr
  split_ifs at hr with hid
  exact ⟨1,by rw [hid]; decide +kernel⟩

theorem failed_enqueue_full :
    maxQueueSize ≤ fullQueue.getOfflineCount 1 ∧
      ((addOfflineMessage hello).runWith 7 fullQueue).1 = .error .db ∧
      Unaffected fullQueue ((addOfflineMessage hello).runWith 7 fullQueue).2.2 ∧
      NoOrphan ((addOfflineMessage hello).runWith 7 fullQueue).2.2 := by
  have hfull : maxQueueSize ≤ fullQueue.getOfflineCount hello.clientId := by decide +kernel
  have herr : ((addOfflineMessage hello).runWith 7 fullQueue).1 = .error .db := by
    rw [(enqueue_traces hello fullQueue).run, if_pos (by decide +kernel)]
  exact ⟨hfull,herr,(failed_enqueue_iff hello fullQueue 7 herr).mpr
    ⟨full_queue_no_orphan,.inr (.inl ⟨hfull,by decide⟩)⟩⟩

/-- The tree for the index cannot be opened after the record was stored: the
record stays, and no client's index has it. -/
theorem failed_enqueue_leaves_record :
    ((addOfflineMessage hello).runWith 4 .empty).1 = .error .db ∧
      ((addOfflineMessage hello).runWith 4 .empty).2.2.offlineQueue.lookup 5 = some hello ∧
      (∀ k, ((addOfflineMessage hello).runWith 4 .empty).2.2.getOfflineMessageIds k = []) ∧
      ¬ NoOrphan ((addOfflineMessage hello).runWith 4 .empty).2.2 := by
  have hrecord : ((addOfflineMessage hello).runWith 4 .empty).2.2.offlineQueue.lookup 5 =
      some hello := rfl
  have hids : ∀ k, ((addOfflineMessage hello).runWith 4 .empty).2.2.getOfflineMessageIds k = [] :=
    fun _ => rfl
  refine ⟨rfl,hrecord,hids,fun h => ?_⟩
  obtain ⟨k, hk⟩ := h 5 hello hrecord
  rw [hids k] at hk
  cases hk

end RexMq.FailedEnqueue
