import Mathlib.Data.List.AList
import Mathlib.Tactic.Common
import RexMq.ClientRegistry

/-!
# The persistent store

One database holds the rows of client sessions and the queues of messages
for absent clients, each kind in its own trees. Serialisation is taken to
round-trip and every operation to succeed, so trees are finite maps. A row
is stored under the id it carries; the database type says so, because the
restore loop reads the id from the row and the expiry sweep from the key.
-/

set_option autoImplicit false

namespace RexMq.PersistentStore
open RexMq.ByteWords RexMq.ClientRegistry

structure PersistedClient where
  clientId : ClientId
  titles : List Title
  createdAt : UInt64
  ghostUntil : UInt64
  deriving DecidableEq, Repr

structure OfflineMessage where
  id : BitVec 64
  clientId : ClientId
  title : Title
  payload : Bytes
  timestamp : UInt64
  retries : UInt32
  deriving DecidableEq, Repr

/-- `OfflineQueueConfig::default().message_ttl`. -/
def messageTtl : UInt64 := 86400*7

/-- `OfflineQueueConfig::default().max_queue_size`. -/
def maxQueueSize : ℕ := 1000

def OfflineMessage.isExpired (now ttlSecs : UInt64) (m : OfflineMessage) : Bool :=
  ttlSecs < saturatingSub now m.timestamp

structure SledDb where
  clients : AList (fun _ : ClientId => PersistedClient)
  offlineIndex : AList (fun _ : ClientId => List (BitVec 64))
  offlineQueue : AList (fun _ : BitVec 64 => OfflineMessage)
  keyed : ∀ k p, clients.lookup k = some p → p.clientId = k

theorem lookup_erases {κ : Type*} {β : κ → Type*} [DecidableEq κ] (ks : List κ) (m : AList β)
    (k : κ) : (ks.foldl (fun m k => m.erase k) m).lookup k =
      if k ∈ ks then none else m.lookup k := by
  induction ks generalizing m with
  | nil => simp
  | cons j ks ih =>
    rw [List.foldl_cons, ih]
    by_cases hj : k = j
    · subst hj
      simp [AList.lookup_erase]
    · simp [hj, AList.lookup_erase_ne hj]

namespace SledDb

def empty : SledDb := ⟨∅,∅,∅,by simp⟩

def save (client : PersistedClient) (db : SledDb) : SledDb where
  clients := db.clients.insert client.clientId client
  offlineIndex := db.offlineIndex
  offlineQueue := db.offlineQueue
  keyed := by
    intro k p hp
    by_cases hk : k = client.clientId
    · subst hk
      rw [AList.lookup_insert] at hp
      cases hp
      rfl
    · rw [AList.lookup_insert_ne hk] at hp
      exact db.keyed k p hp

def remove (clientId : ClientId) (db : SledDb) : SledDb where
  clients := db.clients.erase clientId
  offlineIndex := db.offlineIndex
  offlineQueue := db.offlineQueue
  keyed := by
    intro k p hp
    by_cases hk : k = clientId
    · rw [hk, AList.lookup_erase] at hp
      cases hp
    · rw [AList.lookup_erase_ne hk] at hp
      exact db.keyed k p hp

def loadAll (db : SledDb) : List PersistedClient := db.clients.entries.map Sigma.snd

def expired (now : UInt64) (db : SledDb) : List ClientId :=
  (db.clients.entries.filter (fun e => e.2.ghostUntil < now)).map Sigma.fst

/-- Rows strictly past their time are reported by their keys and removed. -/
def takeExpiredGhosts (now : UInt64) (db : SledDb) : List ClientId × SledDb :=
  (db.expired now,
    { clients := (db.expired now).foldl (fun m k => m.erase k) db.clients
      offlineIndex := db.offlineIndex
      offlineQueue := db.offlineQueue
      keyed := by
        intro k p hp
        rw [lookup_erases] at hp
        split_ifs at hp
        exact db.keyed k p hp })

def getOfflineMessageIds (clientId : ClientId) (db : SledDb) : List (BitVec 64) :=
  (db.offlineIndex.lookup clientId).getD []

def getOfflineMessages (now : UInt64) (clientId : ClientId) (db : SledDb) :
    List OfflineMessage :=
  (db.getOfflineMessageIds clientId).filterMap (fun id =>
    (db.offlineQueue.lookup id).filter (fun m => !m.isExpired now messageTtl))

def clearOfflineMessages (clientId : ClientId) (db : SledDb) : SledDb where
  clients := db.clients
  offlineIndex := db.offlineIndex.erase clientId
  offlineQueue := (db.getOfflineMessageIds clientId).foldl (fun m id => m.erase id) db.offlineQueue
  keyed := db.keyed

def insertIndex (clientId : ClientId) (ids : List (BitVec 64)) (db : SledDb) : SledDb :=
  { db with offlineIndex := db.offlineIndex.insert clientId ids }

def insertRecord (m : OfflineMessage) (db : SledDb) : SledDb :=
  { db with offlineQueue := db.offlineQueue.insert m.id m }

def removeRecord (id : BitVec 64) (db : SledDb) : SledDb :=
  { db with offlineQueue := db.offlineQueue.erase id }

def getOfflineCount (clientId : ClientId) (db : SledDb) : ℕ :=
  (db.getOfflineMessageIds clientId).length

def removeOfflineMessage (clientId : ClientId) (id : BitVec 64) (db : SledDb) : SledDb :=
  (db.insertIndex clientId
    ((db.getOfflineMessageIds clientId).filter (fun i => i ≠ id))).removeRecord id

def removeOldestOffline (clientId : ClientId) (db : SledDb) : SledDb :=
  match db.getOfflineMessageIds clientId with
  | [] => db
  | oldest::_ => db.removeOfflineMessage clientId oldest

/-- A full queue loses its oldest message before the new one is stored. -/
def makeRoom (clientId : ClientId) (db : SledDb) : SledDb :=
  let currentSize := ((db.offlineIndex.lookup clientId).map List.length).getD 0
  if maxQueueSize ≤ currentSize then db.removeOldestOffline clientId else db

def addOfflineMessage (m : OfflineMessage) (db : SledDb) : SledDb :=
  let db := (db.makeRoom m.clientId).insertRecord m
  db.insertIndex m.clientId (db.getOfflineMessageIds m.clientId++[m.id])

/-- One entry of the index: a key whose record is missing stays. -/
def cleanupNext (now : UInt64) (r : ℕ × SledDb)
    (e : Sigma (fun _ : ClientId => List (BitVec 64))) : ℕ × SledDb :=
  let toRemove := e.2.filter (fun id =>
    ((r.2.offlineQueue.lookup id).filter (fun m => m.isExpired now messageTtl)).isSome)
  let ids := e.2.filter (fun id => id ∉ toRemove)
  if ids.length ≠ e.2.length then
    (r.1+(e.2.length-ids.length),
      toRemove.foldl (fun db id => db.removeRecord id) (r.2.insertIndex e.1 ids))
  else r

/-- `cleanup_expired`, with the number of messages it drops. -/
def cleanupExpired (now : UInt64) (db : SledDb) : ℕ × SledDb :=
  db.offlineIndex.entries.foldl (cleanupNext now) (0,db)

def row (k : ClientId) (db : SledDb) : Option PersistedClient := db.clients.lookup k

theorem row_save (client : PersistedClient) (db : SledDb) (k : ClientId) :
    (db.save client).row k = if k = client.clientId then some client else db.row k := by
  simp only [row, save]
  split_ifs with hk
  · rw [hk, AList.lookup_insert]
  · rw [AList.lookup_insert_ne hk]

theorem row_remove (j k : ClientId) (db : SledDb) :
    (db.remove j).row k = if k = j then none else db.row k := by
  simp only [row, remove]
  split_ifs with hk
  · rw [hk, AList.lookup_erase]
  · rw [AList.lookup_erase_ne hk]

theorem mem_expired_iff (now : UInt64) (db : SledDb) (k : ClientId) :
    k ∈ db.expired now ↔ ∃ p, db.row k = some p ∧ p.ghostUntil < now := by
  simp only [expired, List.mem_map, List.mem_filter, decide_eq_true_eq, row]
  constructor
  · rintro ⟨⟨j, p⟩, ⟨hp, hlt⟩, rfl⟩
    exact ⟨p,AList.mem_lookup_iff.mpr hp,hlt⟩
  · rintro ⟨p, hp, hlt⟩
    exact ⟨⟨k,p⟩,⟨AList.mem_lookup_iff.mp hp,hlt⟩,rfl⟩

theorem row_take_expired (now : UInt64) (db : SledDb) (k : ClientId) :
    (db.takeExpiredGhosts now).2.row k = if k ∈ db.expired now then none else db.row k :=
  lookup_erases ..

theorem mem_load_all_iff (db : SledDb) (p : PersistedClient) :
    p ∈ db.loadAll ↔ db.row p.clientId = some p := by
  simp only [loadAll, List.mem_map, row]
  constructor
  · rintro ⟨⟨k, q⟩, hq, rfl⟩
    have hl := AList.mem_lookup_iff.mpr hq
    rw [db.keyed k q hl]
    exact hl
  · intro hp
    exact ⟨⟨p.clientId,p⟩,AList.mem_lookup_iff.mp hp,rfl⟩

theorem find_load_all (db : SledDb) (k : ClientId) :
    db.loadAll.find? (fun p => p.clientId = k) = db.row k := by
  cases hf : db.loadAll.find? (fun p => p.clientId = k) with
  | some p =>
    have hm := (mem_load_all_iff db p).mp (List.mem_of_find?_eq_some hf)
    have hk : p.clientId = k := by simpa using List.find?_some hf
    rw [← hk, hm]
  | none =>
    cases hr : db.row k with
    | none => rfl
    | some p =>
      have hk := db.keyed k p hr
      have hm := (mem_load_all_iff db p).mpr (by rw [hk, hr])
      exact absurd hk (by simpa using List.find?_eq_none.mp hf p hm)

section Offline
variable (j k : ClientId) (db : SledDb)

theorem ids_insert_index (ids : List (BitVec 64)) :
    (db.insertIndex k ids).getOfflineMessageIds j =
      if j = k then ids else db.getOfflineMessageIds j := by
  simp only [getOfflineMessageIds, insertIndex]
  split_ifs with hj
  · rw [hj, AList.lookup_insert]
    rfl
  · rw [AList.lookup_insert_ne hj]

@[simp] theorem ids_remove_record (id : BitVec 64) :
    (db.removeRecord id).getOfflineMessageIds j = db.getOfflineMessageIds j := rfl

@[simp] theorem record_insert_index (ids : List (BitVec 64)) :
    (db.insertIndex k ids).offlineQueue = db.offlineQueue := rfl

theorem record_insert_record (m : OfflineMessage) (i : BitVec 64) :
    (db.insertRecord m).offlineQueue.lookup i =
      if i = m.id then some m else db.offlineQueue.lookup i := by
  simp only [insertRecord]
  split_ifs with hi
  · rw [hi, AList.lookup_insert]
  · rw [AList.lookup_insert_ne hi]

theorem record_remove_record (id i : BitVec 64) :
    (db.removeRecord id).offlineQueue.lookup i =
      if i = id then none else db.offlineQueue.lookup i := by
  simp only [removeRecord]
  split_ifs with hi
  · rw [hi, AList.lookup_erase]
  · rw [AList.lookup_erase_ne hi]

theorem ids_clear :
    (db.clearOfflineMessages k).getOfflineMessageIds j =
      if j = k then [] else db.getOfflineMessageIds j := by
  simp only [getOfflineMessageIds, clearOfflineMessages]
  split_ifs with hj
  · rw [hj, AList.lookup_erase]
    rfl
  · rw [AList.lookup_erase_ne hj]

theorem record_clear (i : BitVec 64) :
    (db.clearOfflineMessages k).offlineQueue.lookup i =
      if i ∈ db.getOfflineMessageIds k then none else db.offlineQueue.lookup i :=
  lookup_erases ..

theorem current_size_eq :
    ((db.offlineIndex.lookup k).map List.length).getD 0 = db.getOfflineCount k := by
  unfold getOfflineCount getOfflineMessageIds
  cases db.offlineIndex.lookup k <;> rfl

end Offline

end SledDb

end RexMq.PersistentStore
