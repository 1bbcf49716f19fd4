import Mathlib.Tactic.Common
import RexMq.OfflineIsolation
import RexMq.ServerConfig
import RexMq.ServerRun

/-!
# The configured policy for offline messages

The file says whether messages are kept for absent clients and for how long.
Both settings reach the flat configuration of the server and end there: the
buffer is built from the database alone and keeps every message for the seven
days of the store's own default. `queued` remembers the messages queued since
the server was built whose client has not been cleared.
-/

set_option autoImplicit false

namespace RexMq.OfflinePolicy
open RexMq.ByteWords RexMq.FiniteRun RexMq.ClientRegistry RexMq.PersistentStore RexMq.ServerState
open RexMq.ServerRun RexMq.ClusterMessages RexMq.OfflineQueues RexMq.OfflineIsolation
open RexMq.ServerConfig

/-- `queue_offline_message`; the stand-in without a database does nothing. -/
def queueOfflineMessage (m : OfflineMessage) (s : Server) : Server :=
  { s with db := s.db.map (.addOfflineMessage m) }

structure Buffered where
  server : Server
  counter : UInt64
  queued : List OfflineMessage

inductive OfflineCall where
  | queue (k : ClientId) (title : Title) (payload : Bytes) (now stamp : UInt64)
  | get (env : Env) (k : ClientId)
  | clear (k : ClientId)

def callStep (x : Buffered) : OfflineCall → Buffered
  | .queue k title payload now stamp =>
    let m := newMessage x.counter k title payload now stamp
    ⟨queueOfflineMessage m x.server,x.counter+1,x.queued++[m]⟩
  | .get _ _ => x
  | .clear k =>
    { x with
      server := x.server.clearOfflineMessages k
      queued := x.queued.filter (fun m => m.clientId ≠ k) }

/-- A new server on an opened database. The counter of the process goes on. -/
def newBuffer (r : RexConfig) (cluster : ClusterPort) (clients : Clients)
    (opened : String → Option SledDb) (counter : UInt64) : Buffered :=
  ⟨buildServices (.ofRexConfig r) opened cluster clients,counter,[]⟩

section Policy
variable (r : RexConfig)

/-- What the settings ask of one call of `get_offline_messages`. -/
def Honoured (env : Env) (k : ClientId) (x : Buffered) : Prop :=
  if r.persistence.offline.enabled then
    ∀ m ∈ x.queued, m.clientId = k → (m ∈ x.server.getOfflineMessages env k ↔
      elapsed m.timestamp env.now ≤ r.persistence.offline.ttlSecs.toNat)
  else x.server.getOfflineMessages env k = []

def HonouredAt (x : Buffered) : OfflineCall → Prop
  | .get env k => Honoured r env k x
  | _ => True

def held (k : ClientId) (s : Server) : List OfflineMessage :=
  match s.db with
  | none => []
  | some db => inQueue k db

/-- What a call has to find for the settings to be met by chance: nothing
stored that is younger than seven days, or every message of the client in its
place and no age between the configured time and the seven days. -/
def Coincides (env : Env) (k : ClientId) (x : Buffered) : Prop :=
  if r.persistence.offline.enabled then
    ∀ m ∈ x.queued, m.clientId = k →
      (m ∈ held k x.server ∧ elapsed m.timestamp env.now ≤ messageTtl.toNat ↔
        elapsed m.timestamp env.now ≤ r.persistence.offline.ttlSecs.toNat)
  else ∀ m ∈ held k x.server, messageTtl.toNat < elapsed m.timestamp env.now

def CoincidesAt (x : Buffered) : OfflineCall → Prop
  | .get env k => Coincides r env k x
  | _ => True

theorem unexpired_iff (now : UInt64) (m : OfflineMessage) :
    Queues.unexpired now m = true ↔ elapsed m.timestamp now ≤ messageTtl.toNat := by
  rw [Queues.unexpired, OfflineMessage.isExpired, Bool.not_eq_true', decide_eq_false_iff_not,
    lt_saturating_sub_iff, not_lt]

theorem messages_eq_held (env : Env) (k : ClientId) (s : Server) :
    s.getOfflineMessages env k = (held k s).filter (Queues.unexpired env.now) := by
  unfold Server.getOfflineMessages held
  cases s.db with
  | none => rfl
  | some db =>
    dsimp only [inQueue, SledDb.getOfflineMessages]
    rw [List.filter_filterMap]
    rfl

theorem honoured_iff_coincides (env : Env) (k : ClientId) (x : Buffered) :
    Honoured r env k x ↔ Coincides r env k x := by
  unfold Honoured Coincides
  rw [messages_eq_held]
  split_ifs
  · simp only [List.mem_filter, unexpired_iff]
  · simp only [List.filter_eq_nil_iff, unexpired_iff, not_le]

theorem honoured_run_iff (x : Buffered) (es : List OfflineCall) :
    Along callStep (HonouredAt r) x es ↔ Along callStep (CoincidesAt r) x es := by
  induction es generalizing x with
  | nil => exact Iff.rfl
  | cons e es ih =>
    rw [Along, Along, ih]
    apply and_congr_left'
    cases e with
    | get env k => exact honoured_iff_coincides r env k x
    | queue k title payload now stamp => exact Iff.rfl
    | clear k => exact Iff.rfl

end Policy

/-- The queue of the client has room and the id of the message is new. -/
def Fresh (x : Buffered) : OfflineCall → Prop
  | .queue k _ _ now _ => ∀ db, x.server.db = some db → db.getOfflineCount k < maxQueueSize ∧
      ∀ j, genMessageId now x.counter ∉ db.getOfflineMessageIds j
  | _ => True

/-- The message is where it was put, and in no other client's index. -/
def Owned (db : SledDb) (m : OfflineMessage) : Prop :=
  Kept m.clientId m db ∧ ∀ j, m.id ∈ db.getOfflineMessageIds j → j = m.clientId

section Owning
variable (n : OfflineMessage) (db : SledDb)

theorem add_with_room (h : db.getOfflineCount n.clientId < maxQueueSize) :
    (∀ j, (db.addOfflineMessage n).getOfflineMessageIds j =
      if j = n.clientId then db.getOfflineMessageIds n.clientId++[n.id]
      else db.getOfflineMessageIds j) ∧
    ∀ i, (db.addOfflineMessage n).offlineQueue.lookup i =
      if i = n.id then some n else db.offlineQueue.lookup i := by
  have hroom : db.makeRoom n.clientId = db := by
    rw [SledDb.makeRoom, SledDb.current_size_eq, if_neg (Nat.not_le.mpr h)]
  rw [SledDb.addOfflineMessage, hroom]
  exact ⟨fun j => SledDb.ids_insert_index j n.clientId _ _,
    fun i => SledDb.record_insert_record db n i⟩

theorem owned_add_new (hroom : db.getOfflineCount n.clientId < maxQueueSize)
    (hnew : ∀ j, n.id ∉ db.getOfflineMessageIds j) : Owned (db.addOfflineMessage n) n := by
  obtain ⟨hids, hrec⟩ := add_with_room n db hroom
  refine ⟨⟨?_,by rw [hrec, if_pos rfl]⟩,?_⟩
  · rw [hids, if_pos rfl]
    exact List.mem_append_right _ (List.mem_singleton_self _)
  · intro j hj
    by_contra hc
    rw [hids, if_neg hc] at hj
    exact hnew j hj

theorem owned_add_old (m : OfflineMessage) (hroom : db.getOfflineCount n.clientId < maxQueueSize)
    (hnew : ∀ j, n.id ∉ db.getOfflineMessageIds j) (h : Owned db m) :
    Owned (db.addOfflineMessage n) m := by
  obtain ⟨hids, hrec⟩ := add_with_room n db hroom
  obtain ⟨⟨hin, hval⟩, hown⟩ := h
  have hne : m.id ≠ n.id := fun he => hnew m.clientId (he ▸ hin)
  refine ⟨⟨?_,by rw [hrec, if_neg hne, hval]⟩,?_⟩
  · rw [hids]
    split_ifs with hc
    · rw [← hc]
      exact List.mem_append_left _ hin
    · exact hin
  · intro j hj
    rw [hids] at hj
    split_ifs at hj with hc
    · rcases List.mem_append.mp hj with hj | hj
      · rw [hc]
        exact hown n.clientId hj
      · exact absurd (List.mem_singleton.mp hj) hne
    · exact hown j hj

theorem owned_clear (k : ClientId) (m : OfflineMessage) (hne : m.clientId ≠ k)
    (h : Owned db m) : Owned (db.clearOfflineMessages k) m := by
  obtain ⟨⟨hin, hval⟩, hown⟩ := h
  have hout : m.id ∉ db.getOfflineMessageIds k := fun hc => hne (hown k hc).symm
  refine ⟨⟨?_,?_⟩,?_⟩
  · rw [SledDb.ids_clear, if_neg hne]
    exact hin
  · rw [SledDb.record_clear, if_neg hout, hval]
  · intro j hj
    rw [SledDb.ids_clear] at hj
    split_ifs at hj
    · cases hj
    · exact hown j hj

end Owning

def Placed (x : Buffered) : Prop :=
  ∃ db, x.server.db = some db ∧ ∀ m ∈ x.queued, Owned db m

theorem placed_step (x : Buffered) (e : OfflineCall) (h : Placed x) (he : Fresh x e) :
    Placed (callStep x e) := by
  obtain ⟨db, hdb, hplaced⟩ := h
  cases e with
  | get env k => exact ⟨db,hdb,hplaced⟩
  | queue k title payload now stamp =>
    obtain ⟨hroom, hnew⟩ := he db hdb
    refine ⟨db.addOfflineMessage (newMessage x.counter k title payload now stamp),?_,?_⟩
    · simp only [callStep, queueOfflineMessage, hdb, Option.map_some]
    · intro m hm
      rcases List.mem_append.mp hm with hm | hm
      · exact owned_add_old _ db m hroom hnew (hplaced m hm)
      · rw [List.mem_singleton.mp hm]
        exact owned_add_new _ db hroom hnew
  | clear k =>
    refine ⟨db.clearOfflineMessages k,?_,?_⟩
    · simp only [callStep, Server.clearOfflineMessages, hdb, Option.map_some]
    · intro m hm
      obtain ⟨hm, hne⟩ := List.mem_filter.mp hm
      exact owned_clear db k m (by simpa using hne) (hplaced m hm)

def Stored (x : Buffered) : Prop := ∀ m ∈ x.queued, m ∈ held m.clientId x.server

theorem stored_of_placed (x : Buffered) (h : Placed x) : Stored x := by
  obtain ⟨db, hdb, hplaced⟩ := h
  intro m hm
  rw [held, hdb]
  exact List.mem_filterMap.mpr ⟨m.id,(hplaced m hm).1⟩

section Start
variable (r : RexConfig) (cluster : ClusterPort) (clients : Clients)

theorem placed_start (hpersist : r.persistence.enabled = true) (db : SledDb) (counter : UInt64) :
    Placed (newBuffer r cluster clients (fun _ => some db) counter) :=
  ⟨db,if_pos hpersist,fun _ hm => absurd hm List.not_mem_nil⟩

theorem honoured_of_placed (hon : r.persistence.offline.enabled = true)
    (httl : r.persistence.offline.ttlSecs = messageTtl) (x : Buffered) (e : OfflineCall)
    (h : Placed x) : HonouredAt r x e := by
  cases e with
  | get env k =>
    refine (honoured_iff_coincides r env k x).mpr ?_
    rw [Coincides, if_pos hon, httl]
    intro m hm hk
    exact and_iff_right (hk ▸ stored_of_placed x h m hm)
  | queue k title payload now stamp => trivial
  | clear k => trivial

theorem honoured_of_noop (hoff : r.persistence.offline.enabled = false) (x : Buffered)
    (e : OfflineCall) (h : x.server.db = none) : HonouredAt r x e := by
  cases e with
  | get env k =>
    show Honoured r env k x
    rw [Honoured, hoff, Server.getOfflineMessages, h]
    rfl
  | queue k title payload now stamp => trivial
  | clear k => trivial

theorem noop_step (x : Buffered) (e : OfflineCall) (h : x.server.db = none) :
    (callStep x e).server.db = none := by
  cases e with
  | get env k => exact h
  | queue k title payload now stamp => exact Option.map_eq_none_iff.mpr h
  | clear k => exact Option.map_eq_none_iff.mpr h

theorem honoured_of_default
    (h : r.persistence.enabled = true →
      r.persistence.offline.enabled = true ∧ r.persistence.offline.ttlSecs = messageTtl)
    (hstored : r.persistence.offline.enabled = true → r.persistence.enabled = true)
    (db : SledDb) (counter : UInt64) (es : List OfflineCall)
    (hfresh : Along callStep Fresh (newBuffer r cluster clients (fun _ => some db) counter) es) :
    Along callStep (HonouredAt r) (newBuffer r cluster clients (fun _ => some db) counter) es := by
  by_cases hpersist : r.persistence.enabled = true
  · obtain ⟨hon, httl⟩ := h hpersist
    exact along_of_along callStep Fresh (HonouredAt r) Placed
      (fun x e hx _ => honoured_of_placed r hon httl x e hx) placed_step _ es
      (placed_start r cluster clients hpersist db counter) hfresh
  · -- then the settings allow no offline messages either
    have hoff : r.persistence.offline.enabled = false := by
      rw [← Bool.not_eq_true]
      exact fun hon => hpersist (hstored hon)
    exact along_of_along callStep Fresh (HonouredAt r) (fun x => x.server.db = none)
      (fun x e hx _ => honoured_of_noop r hoff x e hx) (fun x e hx _ => noop_step x e hx) _ es
      (if_neg hpersist) hfresh

theorem ages_agree (hon : r.persistence.offline.enabled = true) (env : Env) (m : OfflineMessage)
    (x : Buffered) (hm : m ∈ x.queued) (hstored : Stored x)
    (h : Honoured r env m.clientId x) :
    elapsed m.timestamp env.now ≤ messageTtl.toNat ↔
      elapsed m.timestamp env.now ≤ r.persistence.offline.ttlSecs.toNat := by
  have hc := (honoured_iff_coincides r env m.clientId x).mp h
  rw [Coincides, if_pos hon] at hc
  rw [← hc m hm rfl, and_iff_right (hstored m hm)]

/-- One message at second 0 of an empty database, asked for at any time. -/
def oneMessage (now : UInt64) : List OfflineCall :=
  [.queue 1 [] [] 0 0,.get { quietEnv with now := now } 1]

theorem fresh_one_message (now : UInt64) :
    Along callStep Fresh (newBuffer r cluster clients (fun _ => some .empty) 0)
      (oneMessage now) := by
  refine ⟨fun db hdb => ?_,trivial,trivial⟩
  have hempty : db = .empty := by
    simp only [newBuffer, buildServices, Server.build] at hdb
    split_ifs at hdb
    cases hdb
    rfl
  subst hempty
  exact ⟨by decide,fun j => List.not_mem_nil⟩

theorem default_of_honoured (hpersist : r.persistence.enabled = true)
    (h : ∀ now, Along callStep (HonouredAt r)
      (newBuffer r cluster clients (fun _ => some .empty) 0) (oneMessage now)) :
    r.persistence.offline.enabled = true ∧ r.persistence.offline.ttlSecs = messageTtl := by
  have hstored := stored_of_placed _ (placed_step _ (.queue 1 [] [] 0 0)
    (placed_start r cluster clients hpersist .empty 0) (fresh_one_message r cluster clients 0).1)
  have hqueued := List.mem_singleton_self (newMessage 0 1 [] [] 0 0)
  have hon : r.persistence.offline.enabled = true := by
    by_contra hoff
    have hget := (honoured_iff_coincides r _ _ _).mp (h 0).2.1
    rw [Coincides, if_neg hoff] at hget
    exact absurd (hget _ (hstored _ hqueued)) (by decide)
  have hage : ∀ now : UInt64, (now.toNat : ℤ) ≤ messageTtl.toNat ↔
      (now.toNat : ℤ) ≤ r.persistence.offline.ttlSecs.toNat := by
    intro now
    have hzero : elapsed 0 now = now.toNat := Int.sub_zero _
    rw [← hzero]
    exact ages_agree r hon { quietEnv with now := now } (newMessage 0 1 [] [] 0 0) _ hqueued hstored
      (h now).2.1
  refine ⟨hon,UInt64.toNat_inj.mp ?_⟩
  have hfirst := (hage r.persistence.offline.ttlSecs).mpr (Int.le_refl _)
  have hsecond := (hage messageTtl).mp (Int.le_refl _)
  omega

end Start

/-- A run meets the settings exactly when each of its calls happens to find
nothing that shows the difference. As long as ids are new and queues have
room, every message is in its place, and then the settings are met in all
runs exactly when they are the built-in ones. -/
theorem offline_policy_iff (render : SocketAddr → String) (r : RexConfig) (cluster : ClusterPort)
    (clients : Clients) (haccepted : validate render r = .ok ()) :
    (∀ opened counter es,
      Along callStep (HonouredAt r) (newBuffer r cluster clients opened counter) es ↔
        Along callStep (CoincidesAt r) (newBuffer r cluster clients opened counter) es) ∧
    (r.persistence.enabled = true → ∀ db counter es,
      Along callStep Fresh (newBuffer r cluster clients (fun _ => some db) counter) es →
        Always callStep Stored (newBuffer r cluster clients (fun _ => some db) counter) es) ∧
    ((∀ db counter es,
      Along callStep Fresh (newBuffer r cluster clients (fun _ => some db) counter) es →
        Along callStep (HonouredAt r) (newBuffer r cluster clients (fun _ => some db) counter) es) ↔
      (r.persistence.enabled = true →
        r.persistence.offline.enabled = true ∧ r.persistence.offline.ttlSecs = messageTtl)) := by
  refine ⟨fun opened counter es => honoured_run_iff r _ es,?_,?_⟩
  · intro hpersist db counter es hfresh
    exact always_mono callStep Placed Stored stored_of_placed _ es
      (always_of_along callStep Fresh Placed placed_step _ es
        (placed_start r cluster clients hpersist db counter) hfresh)
  · constructor
    · intro h hpersist
      exact default_of_honoured r cluster clients hpersist
        (fun now => h .empty 0 _ (fresh_one_message r cluster clients now))
    · intro h db counter es hfresh
      exact honoured_of_default r cluster clients h
        (fun hon => ((validate_ok_iff r render).mp haccepted).stored hon) db counter es hfresh

/-- The default configuration, and a message one second too old. -/
theorem offline_policy_default :
    validate (fun _ => "") RexConfig.default = .ok () ∧
      Along callStep (HonouredAt RexConfig.default)
        (newBuffer RexConfig.default .noop unusedClients (fun _ => some .empty) 0)
        (oneMessage 604801) :=
  have hvalid := (validate_ok_iff RexConfig.default (fun _ => "")).mpr default_accepted
  ⟨hvalid,(offline_policy_iff (fun _ => "") RexConfig.default .noop unusedClients
    hvalid).2.2.mpr (fun _ => ⟨rfl,rfl⟩) .empty 0 _ (fresh_one_message _ _ _ _)⟩

def withOffline (offline : OfflineSection) : RexConfig :=
  { RexConfig.default with persistence := ⟨true,"./.rex_sled",offline⟩ }

/-- A message is returned a second after its time of a minute, and at once
although offline messages are switched off. -/
theorem offline_settings_ignored :
    (validate (fun _ => "") (withOffline ⟨true,60,86400⟩) = .ok () ∧
      ¬ Along callStep (HonouredAt (withOffline ⟨true,60,86400⟩))
        (newBuffer (withOffline ⟨true,60,86400⟩) .noop unusedClients (fun _ => some .empty) 0)
        (oneMessage 61)) ∧
    (validate (fun _ => "") (withOffline ⟨false,604800,86400⟩) = .ok () ∧
      ¬ Along callStep (HonouredAt (withOffline ⟨false,604800,86400⟩))
        (newBuffer (withOffline ⟨false,604800,86400⟩) .noop unusedClients
          (fun _ => some .empty) 0) (oneMessage 0)) := by
  refine ⟨⟨?_,fun h => ?_⟩,⟨?_,fun h => ?_⟩⟩
  · apply (validate_ok_iff _ _).mpr
    constructor
    all_goals decide +kernel
  · have hget := (h.2.1 (newMessage 0 1 [] [] 0 0) (List.mem_singleton_self _) rfl).mp
      (by decide +kernel)
    exact absurd hget (by decide)
  · apply (validate_ok_iff _ _).mpr
    constructor
    all_goals decide +kernel
  · have hget : (callStep (newBuffer (withOffline ⟨false,604800,86400⟩) .noop unusedClients
        (fun _ => some .empty) 0) (.queue 1 [] [] 0 0)).server.getOfflineMessages quietEnv 1 = [] :=
      h.2.1
    exact absurd hget (by decide +kernel)

end RexMq.OfflinePolicy
