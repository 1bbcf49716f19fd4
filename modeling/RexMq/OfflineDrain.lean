import Mathlib.Tactic.Common
import RexMq.HandlerEffects
import RexMq.OfflineQueues

/-!
# Draining the queue of a client that logs in

A login reads the client's queue, sends what it read and clears the queue by
the client's id. The steps are apart, and messages may be queued between
them. The clear takes whatever is in the queue by then: messages whose send
failed, messages that came after the read, and messages the read left out.
Nothing is lost exactly when every clear finds all messages delivered and no
new message pushes out or replaces one that is not.
-/

set_option autoImplicit false

namespace RexMq.OfflineDrain
open RexMq.ByteWords RexMq.FiniteRun RexMq.ClientRegistry RexMq.PersistentStore
open RexMq.ServerState RexMq.FrameData RexMq.Handlers RexMq.HandlerEffects
open RexMq.OfflineQueues

/-- The store during the logins of one client: what a login in progress has
still to send, the messages sent with success and all messages ever queued. -/
structure Drain where
  db : SledDb
  pending : Option (List OfflineMessage)
  delivered : List OfflineMessage
  queued : List OfflineMessage

inductive DrainEvent where
  | read (now : UInt64)
  | send (ok : Bool)
  | clear
  | queue (id : BitVec 64) (title : Title) (payload : Bytes) (stamp : UInt64)
  deriving DecidableEq, Repr

def drainOf (now : UInt64) (outcomes : List Bool) : List DrainEvent :=
  .read now::outcomes.map .send++[.clear]

section Steps
variable (k : ClientId)

/-- Steps of a login that are not next in its program change nothing. -/
def drainStep (x : Drain) : DrainEvent → Drain
  | .read now =>
    match x.pending with
    | some _ => x
    | none =>
      let messages := x.db.getOfflineMessages now k
      if messages.isEmpty then x else { x with pending := some messages }
  | .send ok =>
    match x.pending with
    | some (m::ms) =>
      { x with
        pending := some ms
        delivered := if ok then x.delivered++[m] else x.delivered }
    | _ => x
  | .clear =>
    match x.pending with
    | some [] => { x with db := x.db.clearOfflineMessages k, pending := none }
    | _ => x
  | .queue id title payload stamp =>
    let m : OfflineMessage := ⟨id,k,title,payload,stamp,0⟩
    { x with db := x.db.addOfflineMessage m, queued := x.queued++[m] }

def beforeLogin (db : SledDb) : Drain := ⟨db,none,[],inQueue k db⟩

/-- What was queued was sent with success or is still returned. -/
def Lossless (x : Drain) : Prop :=
  ∀ m ∈ x.queued, m ∈ x.delivered ∨ Returned k m x.db

/-- A clear comes when all is delivered; a new message takes neither the id
nor the place of one that is not. -/
def Spares (x : Drain) : DrainEvent → Prop
  | .clear => x.pending = some [] → ∀ m ∈ x.queued, m ∈ x.delivered
  | .queue id title payload stamp => ∀ m ∈ x.queued, m ∉ x.delivered →
    m = ⟨id,k,title,payload,stamp,0⟩ ∨
      m.id ≠ id ∧ m.id ∈ (x.db.makeRoom k).getOfflineMessageIds k
  | _ => True

structure Intact (x : Drain) : Prop where
  filed : Filed x.db
  kept : ∀ m ∈ x.queued, m ∈ x.delivered ∨ Kept k m x.db

theorem lossless_of_intact (x : Drain) (h : Intact k x) : Lossless k x :=
  fun m hm => (h.kept m hm).imp_right (returned_of_kept k m x.db)

theorem record_room (db : SledDb) (i : BitVec 64)
    (h : i ∈ (db.makeRoom k).getOfflineMessageIds k) :
    (db.makeRoom k).offlineQueue.lookup i = db.offlineQueue.lookup i := by
  unfold SledDb.makeRoom at h ⊢
  dsimp only at h ⊢
  split_ifs at h ⊢
  · unfold SledDb.removeOldestOffline at h ⊢
    split at h
    · rfl
    · -- the oldest id left the index with its record
      rw [SledDb.removeOfflineMessage, SledDb.ids_remove_record, SledDb.ids_insert_index,
        if_pos rfl, List.mem_filter] at h
      rw [SledDb.removeOfflineMessage, SledDb.record_remove_record,
        if_neg (by simpa using h.2)]
      rfl
  · rfl

theorem ids_add (db : SledDb) (m : OfflineMessage) (hk : m.clientId = k) :
    (db.addOfflineMessage m).getOfflineMessageIds k =
      (db.makeRoom k).getOfflineMessageIds k++[m.id] := by
  rw [SledDb.addOfflineMessage, SledDb.ids_insert_index, hk, if_pos rfl]
  rfl

theorem record_add (db : SledDb) (m : OfflineMessage) (i : BitVec 64) (hk : m.clientId = k) :
    (db.addOfflineMessage m).offlineQueue.lookup i =
      if i = m.id then some m else (db.makeRoom k).offlineQueue.lookup i := by
  rw [SledDb.addOfflineMessage, SledDb.record_insert_index, SledDb.record_insert_record, hk]

theorem kept_add (db : SledDb) (m : OfflineMessage) (hk : m.clientId = k) :
    Kept k m (db.addOfflineMessage m) := by
  constructor
  · rw [ids_add k db m hk]
    exact List.mem_append_right _ (List.mem_singleton_self _)
  · rw [record_add k db m m.id hk, if_pos rfl]

theorem kept_add_iff (db : SledDb) (m n : OfflineMessage) (hk : m.clientId = k) (hne : n ≠ m)
    (h : Kept k n db) : Kept k n (db.addOfflineMessage m) ↔
      n.id ≠ m.id ∧ n.id ∈ (db.makeRoom k).getOfflineMessageIds k := by
  unfold Kept
  rw [ids_add k db m hk, record_add k db m n.id hk, List.mem_append, List.mem_singleton]
  constructor
  · rintro ⟨hid, hrec⟩
    split_ifs at hrec with hi
    · exact absurd (Option.some.inj hrec).symm hne
    · exact ⟨hi,hid.resolve_right hi⟩
  · rintro ⟨hi, hid⟩
    rw [if_neg hi, record_room k db n.id hid]
    exact ⟨.inl hid,h.2⟩

theorem not_kept_clear (db : SledDb) (m : OfflineMessage) :
    ¬ Kept k m (db.clearOfflineMessages k) := by
  rintro ⟨hid, -⟩
  rw [SledDb.ids_clear, if_pos rfl] at hid
  cases hid

theorem read_step (x : Drain) (now : UInt64) :
    (drainStep k x (.read now)).db = x.db ∧ (drainStep k x (.read now)).queued = x.queued ∧
      (drainStep k x (.read now)).delivered = x.delivered := by
  unfold drainStep
  dsimp only
  split
  · exact ⟨rfl,rfl,rfl⟩
  · split_ifs
    · exact ⟨rfl,rfl,rfl⟩
    · exact ⟨rfl,rfl,rfl⟩

theorem filed_drain_step (x : Drain) (e : DrainEvent) (h : Filed x.db) :
    Filed (drainStep k x e).db := by
  cases e with
  | read now =>
    rw [(read_step k x now).1]
    exact h
  | send ok =>
    unfold drainStep
    dsimp only
    split
    · exact h
    · exact h
  | clear =>
    unfold drainStep
    dsimp only
    split
    · exact filed_of_fewer x.db _ h (fewer_clear k x.db)
    · exact h
  | queue id title payload stamp => exact filed_add _ x.db h

theorem kept_drain_step (x : Drain) (e : DrainEvent)
    (h : ∀ m ∈ x.queued, m ∈ x.delivered ∨ Kept k m x.db) (he : Spares k x e) :
    ∀ m ∈ (drainStep k x e).queued,
      m ∈ (drainStep k x e).delivered ∨ Kept k m (drainStep k x e).db := by
  cases e with
  | read now =>
    obtain ⟨hdb, hqueued, hdelivered⟩ := read_step k x now
    rw [hdb, hqueued, hdelivered]
    exact h
  | send ok =>
    unfold drainStep
    dsimp only
    split
    · intro m hm
      dsimp only
      split_ifs
      · exact (h m hm).imp_left (List.mem_append_left _)
      · exact h m hm
    · exact h
  | clear =>
    unfold drainStep
    dsimp only
    split
    · rename_i hp
      exact fun m hm => .inl (he hp m hm)
    · exact h
  | queue id title payload stamp =>
    intro m hm
    by_cases hd : m ∈ x.delivered
    · exact .inl hd
    · right
      rcases List.mem_append.mp hm with hm | hm
      · rcases he m hm hd with rfl | hstay
        · exact kept_add k x.db _ rfl
        · have hne : m ≠ ⟨id,k,title,payload,stamp,0⟩ := fun he => hstay.1 (by rw [he])
          exact (kept_add_iff k x.db _ m rfl hne ((h m hm).resolve_left hd)).mpr hstay
      · obtain rfl := List.mem_singleton.mp hm
        exact kept_add k x.db _ rfl

theorem intact_step (x : Drain) (e : DrainEvent) (h : Intact k x) (he : Spares k x e) :
    Intact k (drainStep k x e) :=
  ⟨filed_drain_step k x e h.filed,kept_drain_step k x e h.kept he⟩

theorem lost_step (x : Drain) (e : DrainEvent) (h : Intact k x) (he : ¬ Spares k x e) :
    ¬ Lossless k (drainStep k x e) := by
  intro hl
  cases e with
  | read now => exact he trivial
  | send ok => exact he trivial
  | clear =>
    obtain ⟨hp, hlost⟩ := Classical.not_imp.mp he
    push Not at hlost
    obtain ⟨m, hm, hd⟩ := hlost
    have hfiled := filed_drain_step k x .clear h.filed
    unfold drainStep at hl hfiled
    dsimp only at hl hfiled
    rw [hp] at hl hfiled
    exact not_kept_clear k x.db m
      (kept_of_returned k m _ hfiled ((hl m hm).resolve_left hd))
  | queue id title payload stamp =>
    obtain ⟨m, hlost⟩ := not_forall.mp he
    obtain ⟨hm, hlost⟩ := Classical.not_imp.mp hlost
    obtain ⟨hd, hlost⟩ := Classical.not_imp.mp hlost
    obtain ⟨hne, hgone⟩ := not_or.mp hlost
    apply hgone
    apply (kept_add_iff k x.db ⟨id,k,title,payload,stamp,0⟩ m rfl hne
      ((h.kept m hm).resolve_left hd)).mp
    apply kept_of_returned k m _ (filed_add _ x.db h.filed)
    exact (hl m (List.mem_append_left _ hm)).resolve_left hd

theorem intact_before_login (history : List OfflineEvent) :
    Intact k (beforeLogin k (storeAfter history)) := by
  refine ⟨filed_after history,fun m hm => .inr ?_⟩
  exact (mem_in_queue_iff k m _ (filed_after history)).mp hm

/-- The logins of a client lose nothing in any of the states of a run exactly
when each step spares what is not delivered. -/
theorem drain_lossless_iff (history : List OfflineEvent) (es : List DrainEvent) :
    Always (drainStep k) (Lossless k) (beforeLogin k (storeAfter history)) es ↔
      Along (drainStep k) (Spares k) (beforeLogin k (storeAfter history)) es :=
  always_iff_along (drainStep k) (Spares k) (Intact k) (Lossless k) (lossless_of_intact k)
    (intact_step k) (lost_step k) _ es (intact_before_login k history)

end Steps

/-- One queued message, one send that fails, and the queue is empty. -/
theorem failed_send_loses_message :
    let m : OfflineMessage := ⟨7,1,[97],[1,2],0,0⟩
    let x := (drainOf 0 [false]).foldl (drainStep 1) (beforeLogin 1 (storeAfter [.add m]))
    m ∈ x.queued ∧ m ∉ x.delivered ∧ x.db.getOfflineMessages 0 1 = [] ∧ ¬ Lossless 1 x := by
  refine ⟨by decide +kernel,by decide +kernel,by decide +kernel,fun h => ?_⟩
  rcases h ⟨7,1,[97],[1,2],0,0⟩ (by decide +kernel) with hd | hr
  · revert hd
    decide +kernel
  · have hm := hr 0 (by decide +kernel)
    revert hm
    decide +kernel

section Handler
variable (env : Env) (source : ClientRef) (k : ClientId)

theorem send_queued_store (ms : List OfflineMessage) (s t : Server)
    (h : ms.foldlM (sendQueued env source k) s = .ok t) : t.db = s.db := by
  induction ms generalizing s with
  | nil =>
    cases h
    rfl
  | cons m ms ih =>
    rw [List.foldlM_cons] at h
    obtain ⟨u, hu, h⟩ := bind_ok h
    obtain ⟨f₁, -, hu⟩ := bind_ok hu
    obtain ⟨f₂, -, hu⟩ := bind_ok hu
    cases hu
    rw [ih _ h, Server.sendBuf]
    dsimp only
    split_ifs
    · rfl
    · rfl

theorem sends_run (outcomes : List Bool) (x : Drain) (ms : List OfflineMessage)
    (hp : x.pending = some ms) (hlen : outcomes.length = ms.length) :
    ((outcomes.map DrainEvent.send).foldl (drainStep k) x).db = x.db ∧
      ((outcomes.map DrainEvent.send).foldl (drainStep k) x).pending = some [] := by
  induction outcomes generalizing x ms with
  | nil =>
    obtain rfl := List.length_eq_zero_iff.mp hlen.symm
    exact ⟨rfl,hp⟩
  | cons ok outcomes ih =>
    cases ms with
    | nil => cases hlen
    | cons m ms =>
      have hstep : drainStep k x (.send ok) =
          { x with
            pending := some ms
            delivered := if ok then x.delivered++[m] else x.delivered } := by
        unfold drainStep
        rw [hp]
      rw [List.map_cons, List.foldl_cons, hstep]
      exact ih _ ms rfl (Nat.succ.inj hlen)

/-- The handler's drain is the run of its steps with nothing between them. -/
theorem drain_offline_run (s t : Server) (db : SledDb) (outcomes : List Bool)
    (hdb : s.db = some db) (hlen : outcomes.length = (db.getOfflineMessages env.now k).length)
    (h : drainOffline env source k s = .ok t) :
    t.db = some ((drainOf env.now outcomes).foldl (drainStep k) (beforeLogin k db)).db := by
  have hqueue : s.getOfflineMessages env k = db.getOfflineMessages env.now k := by
    rw [Server.getOfflineMessages, hdb]
  unfold drainOffline at h
  dsimp only at h
  rw [hqueue] at h
  rw [drainOf, List.foldl_append, List.foldl_cons, List.foldl_nil, List.foldl_cons]
  split_ifs at h with hempty
  · cases h
    have hnil := List.isEmpty_iff.mp hempty
    rw [hnil] at hlen
    obtain rfl := List.length_eq_zero_iff.mp hlen
    have hread : drainStep k (beforeLogin k db) (.read env.now) = beforeLogin k db := by
      show (if _ then _ else _) = _
      exact if_pos hempty
    rw [hread]
    exact hdb
  · obtain ⟨u, hu, h⟩ := bind_ok h
    cases h
    have hread : drainStep k (beforeLogin k db) (.read env.now) =
        { beforeLogin k db with pending := some (db.getOfflineMessages env.now k) } := by
      show (if _ then _ else _) = _
      exact if_neg hempty
    obtain ⟨hstore, hpending⟩ := sends_run k outcomes
      { beforeLogin k db with pending := some (db.getOfflineMessages env.now k) } _ rfl hlen
    rw [hread, drainStep, hpending]
    dsimp only
    rw [hstore, Server.clearOfflineMessages, send_queued_store env source k _ s u hu, hdb]
    rfl

end Handler

end RexMq.OfflineDrain
