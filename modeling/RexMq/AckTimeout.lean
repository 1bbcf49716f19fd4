import Mathlib.Tactic.Common
import RexMq.AckResolution
import RexMq.ServerConfig

/-!
# The configured timeout of acknowledgements

The setting is in milliseconds and reaches the tracker of pending
acknowledgements unchanged. The tracker compares it with a difference of two
clock readings in seconds, so an entry is given up a thousand times later than
configured.
-/

set_option autoImplicit false

namespace RexMq.AckTimeout
open RexMq.FiniteRun RexMq.FrameData RexMq.ClientRegistry RexMq.PersistentStore RexMq.ServerState
open RexMq.Handlers RexMq.HandlerEffects RexMq.FrameAccess RexMq.ServerRun RexMq.AckResolution
open RexMq.ClusterMessages RexMq.ServerConfig

section Config

theorem config_step (y : System) (e : Event) : (step y e).server.config = y.server.config := by
  apply step_keeps (fun s => s.config = y.server.config) y e _ _ _ _ _ _ _ _ _ rfl
  · exact fun s t hq hs => hq.config.trans hs
  · exact fun _ _ _ _ _ hs => hs
  · exact fun _ _ _ _ hs => hs
  · exact fun _ _ _ _ _ hs => hs
  · intro s m k title client hl hs
    rw [mutate_some m k title s client hl]
    exact hs
  · exact fun s k hs => (s.config_remove_client k).trans hs
  · intro now _
    exact inactive_sweep_keeps (fun s => s.config = y.server.config)
      (fun s k hs => (s.config_evict k).trans hs) now y.server rfl
  · exact fun s now hs => (s.ghost_sweep_collected now).config.trans hs
  · intro s hs
    exact s.restore_keeps (fun t => t.config = y.server.config)
      (fun _ _ _ hr ht => hr.config.trans ht) hs

theorem config_run (es : List Event) (y : System) :
    (es.foldl step y).server.config = y.server.config := by
  induction es generalizing y with
  | nil => rfl
  | cons e es ih => exact (ih (step y e)).trans (config_step y e)

end Config

section Sweep
variable (env : Env)

theorem pending_timeouts (ps : List (MessageId × ClientId)) (s : Server) :
    ∃ t, ps.foldlM (fun s e => AckRun.sendTimeout env e.1 e.2 s) s = .ok t ∧
      t.pendingAcks = s.pendingAcks := by
  induction ps generalizing s with
  | nil => exact ⟨s,rfl,rfl⟩
  | cons p ps ih =>
    obtain ⟨t, es, ht, -, hp⟩ := send_timeout_trace env s p.1 p.2
    obtain ⟨u, hu, hq⟩ := ih t
    exact ⟨u,by rw [List.foldlM_cons, bind_of_ok ht, hu],hq.trans hp.pending⟩

theorem pending_sweep (s : Server) (hack : s.config.ackEnabled = true) :
    (sweepAcks env s).pendingAcks =
      ((s.expiredAcks env.now).map Prod.fst).foldl (fun a m => a.erase m) s.pendingAcks := by
  obtain ⟨t, ht, hp⟩ := pending_timeouts env (s.expiredAcks env.now)
    { s with pendingAcks := (s.expiredAcks env.now).foldl (fun a e => a.erase e.1) s.pendingAcks }
  have hok : s.cleanupExpiredAcks env = .ok t := by
    unfold Server.cleanupExpiredAcks
    rw [hack]
    exact ht
  rw [sweepAcks, hok, hp, List.foldl_map]

theorem mem_expired_acks_iff (m : MessageId) (i : PendingAckInfo) (now : UInt64) (s : Server)
    (h : s.pendingAcks.lookup m = some i) :
    m ∈ (s.expiredAcks now).map Prod.fst ↔
      s.config.ackTimeout < saturatingSub now i.timestamp := by
  unfold Server.expiredAcks
  simp only [List.map_map, List.mem_map, List.mem_filter, decide_eq_true_eq]
  constructor
  · rintro ⟨⟨j, x⟩, ⟨hx, hlt⟩, rfl⟩
    have hj := AList.mem_lookup_iff.mpr hx
    rw [show s.pendingAcks.lookup j = some i from h] at hj
    cases hj
    exact hlt
  · intro hlt
    exact ⟨⟨m,i⟩,⟨AList.mem_lookup_iff.mp h,hlt⟩,rfl⟩

end Sweep

def Expires (env : Env) (m : MessageId) (s : Server) : Prop :=
  (sweepAcks env s).pendingAcks.lookup m = none

theorem expires_iff (env : Env) (m : MessageId) (i : PendingAckInfo) (s : Server)
    (hack : s.config.ackEnabled = true) (h : s.pendingAcks.lookup m = some i) :
    Expires env m s ↔ s.config.ackTimeout.toNat < elapsed i.timestamp env.now := by
  rw [Expires, pending_sweep env s hack, lookup_erases]
  have hiff := mem_expired_acks_iff m i env.now s h
  rw [lt_saturating_sub_iff] at hiff
  split_ifs with hm
  · exact iff_of_true rfl (hiff.mp hm)
  · rw [h]
    exact iff_of_false (Option.some_ne_none i) (fun hlt => hm (hiff.mpr hlt))

/-- What a timeout of `timeoutMs` asks of a sweep, with a second's tolerance
for the clock. -/
structure Honoured (timeoutMs s now : UInt64) (expires : Prop) : Prop where
  late : (timeoutMs.toNat : ℤ)+1000 < elapsed s now*1000 → expires
  early : elapsed s now*1000 < (timeoutMs.toNat : ℤ)-1000 → ¬ expires

/-- With the setting read as seconds, an entry is never given up early, and
late exactly between the two readings of the setting. -/
theorem honoured_iff (timeoutMs s now : UInt64) :
    Honoured timeoutMs s now (timeoutMs.toNat < elapsed s now) ↔
      elapsed s now*1000 ≤ timeoutMs.toNat+1000 ∨ timeoutMs.toNat < elapsed s now := by
  constructor
  · intro h
    by_cases hlate : (timeoutMs.toNat : ℤ)+1000 < elapsed s now*1000
    · exact .inr (h.late hlate)
    · exact .inl (by omega)
  · intro h
    constructor
    · intro hlate
      omega
    · intro hearly
      omega

/-- A server built from the configuration, as the transports find it. -/
def launch (r : RexConfig) (opened : String → Option SledDb) (cluster : ClusterPort)
    (clients : Clients) : System :=
  ⟨(buildServices (.ofRexConfig r) opened cluster clients).restore,[],[]⟩

theorem config_launch (r : RexConfig) (opened : String → Option SledDb) (cluster : ClusterPort)
    (clients : Clients) : (launch r opened cluster clients).server.config =
      (SystemConfig.ofRexConfig r).toRexSystemConfig :=
  Server.restore_keeps (fun s => s.config = (SystemConfig.ofRexConfig r).toRexSystemConfig)
    (fun _ _ _ hr hs => hr.config.trans hs) _ rfl

/-- A sweep treats an entry as configured exactly when the entry is at most a
second older than the setting in milliseconds, or older than the same number
of seconds. Between the two lies, for every accepted setting, the age of as
many seconds as the setting has milliseconds. -/
theorem ack_timeout_iff (render : SocketAddr → String) (r : RexConfig)
    (opened : String → Option SledDb) (cluster : ClusterPort) (clients : Clients)
    (es : List Event) (env : Env) (m : MessageId) (i : PendingAckInfo)
    (haccepted : validate render r = .ok ()) (hack : r.ack.enabled = true)
    (hpending : (es.foldl step (launch r opened cluster clients)).server.pendingAcks.lookup m =
      some i) :
    (Honoured r.ack.timeoutMs i.timestamp env.now
        (Expires env m (es.foldl step (launch r opened cluster clients)).server) ↔
      elapsed i.timestamp env.now*1000 ≤ r.ack.timeoutMs.toNat+1000 ∨
        r.ack.timeoutMs.toNat < elapsed i.timestamp env.now) ∧
    (elapsed i.timestamp env.now = r.ack.timeoutMs.toNat →
      ¬ Honoured r.ack.timeoutMs i.timestamp env.now
        (Expires env m (es.foldl step (launch r opened cluster clients)).server)) := by
  have hconfig := (config_run es _).trans (config_launch r opened cluster clients)
  have hexp := expires_iff env m i _ (by rw [hconfig]; exact hack) hpending
  rw [hconfig] at hexp
  have hiff := honoured_iff r.ack.timeoutMs i.timestamp env.now
  rw [hexp]
  refine ⟨hiff,fun hage hh => ?_⟩
  have hmin := ((validate_ok_iff r render).mp haccepted).timeoutMs.1
  rw [UInt64.le_iff_toNat_le, show (10 : UInt64).toNat = 10 from rfl] at hmin
  have hcases := hiff.mp hh
  omega

def confirming : RexConfig := { RexConfig.default with ack := ⟨true,5000,3⟩ }

theorem confirming_accepted : Accepted confirming := by
  constructor
  all_goals decide +kernel

/-- Two clients under one title, and a message of the first one. -/
def publishing : List Event :=
  [.accept 1 0 "tcp" 0,.accept 2 0 "tcp" 0,.frame 1 quietEnv (loginFrame 1 [97]),
    .frame 2 quietEnv (loginFrame 2 [97]),.frame 1 quietEnv (titleFrame 1 [97])]

def published : System :=
  publishing.foldl step (launch confirming (fun _ => some .empty) .noop unusedClients)

/-- After five seconds the tolerance still covers the entry. -/
theorem ack_timeout_in_tolerance :
    validate (fun _ => "") confirming = .ok () ∧
      published.server.pendingAcks.lookup 1 = some ⟨1,[97],0,false⟩ ∧
      Honoured confirming.ack.timeoutMs 0 5
        (Expires { quietEnv with now := 5 } 1 published.server) :=
  have hvalid := (validate_ok_iff confirming (fun _ => "")).mpr confirming_accepted
  have hpending : published.server.pendingAcks.lookup 1 = some ⟨1,[97],0,false⟩ := by
    decide +kernel
  ⟨hvalid,hpending,(ack_timeout_iff (fun _ => "") confirming (fun _ => some .empty) .noop
    unusedClients publishing { quietEnv with now := 5 } 1 ⟨1,[97],0,false⟩ hvalid rfl
    hpending).1.mpr (.inl (by decide))⟩

/-- A timeout of five seconds has not passed for the sweep after seven. -/
theorem ack_timeout_in_seconds :
    validate (fun _ => "") confirming = .ok () ∧ confirming.ack.enabled = true ∧
      published.server.pendingAcks.lookup 1 = some ⟨1,[97],0,false⟩ ∧
      ¬ Honoured confirming.ack.timeoutMs 0 7
        (Expires { quietEnv with now := 7 } 1 published.server) := by
  refine ⟨(validate_ok_iff confirming (fun _ => "")).mpr confirming_accepted,rfl,
    by decide +kernel,fun h => ?_⟩
  have hkept : (sweepAcks { quietEnv with now := 7 } published.server).pendingAcks.lookup 1 ≠
      none := by decide +kernel
  exact hkept (h.late (by decide))

end RexMq.AckTimeout
