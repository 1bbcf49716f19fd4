import Mathlib.Tactic.Common
import RexMq.AckPacket
import RexMq.ListWeights
import RexMq.PublishTrace
import RexMq.ServerRun

/-!
# Resolution of pending acknowledgements

Acknowledgement frames and the janitors' sweeps compete for the pending
entries. A sweep is a scan, one removal for each scanned id and then the
timeouts, with any other work in between; as every endpoint has a janitor,
that work may be another sweep. An id that was registered once is worth one
answer: while it is pending, in the hands of a sweep or answered it is
counted once, and no step counts it again.
-/

set_option autoImplicit false

namespace RexMq.AckResolution
open RexMq.ByteWords RexMq.FiniteRun RexMq.FrameData RexMq.FrameFields RexMq.AckPacket
open RexMq.ClientRegistry RexMq.PersistentStore RexMq.ListWeights
open RexMq.ServerState RexMq.Handlers RexMq.HandlerEffects RexMq.PublishTrace RexMq.ServerRun

/-- A sweep under way: its time, the scanned ids not yet removed and the
removed entries whose senders are still to be told. -/
structure Sweep where
  now : UInt64
  scanned : List MessageId
  taken : List (MessageId × ClientId)
  deriving DecidableEq, Repr

/-- The sweeps are numbered in the order of their scans. `registered` remembers
what every id was registered with. -/
structure AckRun where
  server : Server
  sweeps : List Sweep
  registered : AList (fun _ : MessageId => PendingAckInfo)

inductive AckEvent where
  | register (env : Env) (m : MessageId) (source : ClientId) (title : Title) (isGroup : Bool)
  | ack (env : Env) (f : RexData)
  | scan (now : UInt64)
  | remove (n : ℕ)
  | timeout (n : ℕ) (env : Env)
  | sessions (clients : Clients) (registry : ClientRegistryImpl)

namespace AckRun

def pending (m : MessageId) (y : AckRun) : Option PendingAckInfo := y.server.pendingAcks.lookup m

def scan (now : UInt64) (y : AckRun) : AckRun :=
  if !y.server.config.ackEnabled then y
  else { y with sweeps := y.sweeps++[⟨now,(y.server.expiredAcks now).map Prod.fst,[]⟩] }

def remove (n : ℕ) (y : AckRun) : AckRun :=
  match y.sweeps[n]? with
  | some ⟨now,m::ms,taken⟩ =>
    match y.server.takePendingAck m with
    | (none,s) => { y with server := s, sweeps := y.sweeps.set n ⟨now,ms,taken⟩ }
    | (some i,s) =>
      { y with server := s, sweeps := y.sweeps.set n ⟨now,ms,taken++[(m,i.sourceClientId)]⟩ }
  | _ => y

def sendTimeout (env : Env) (m : MessageId) (k : ClientId) (s : Server) : Except Fault Server :=
  match s.live k with
  | none => .ok s
  | some c => do
    let f ← ((⟨m⟩ : AckData).toRexData k .ackReturn).setRetcode .ackTimeout
    return (s.sendBuf env c f.content).2

/-- The timeout for the next entry that the sweep removed, once it has removed
all its ids. -/
def timeout (n : ℕ) (env : Env) (y : AckRun) : AckRun :=
  match y.sweeps[n]? with
  | some ⟨now,[],(m,k)::rest⟩ =>
    match sendTimeout env m k y.server with
    | .ok s => { y with server := s, sweeps := y.sweeps.set n ⟨now,[],rest⟩ }
    | .error _ => { y with sweeps := y.sweeps.set n ⟨now,[],rest⟩ }
  | _ => y

end AckRun

def ackStep (y : AckRun) : AckEvent → AckRun
  | .register env m source title isGroup =>
    { y with
      server := y.server.registerPendingAck env m source title isGroup
      registered := y.registered.insert m ⟨source,title,env.now,isGroup⟩ }
  | .ack env f =>
    match ackHandler env f y.server with
    | .ok s => { y with server := s }
    | .error _ => y
  | .scan now => y.scan now
  | .remove n => y.remove n
  | .timeout n env => y.timeout n env
  | .sessions clients registry =>
    { y with server := { y.server with clients := clients, registry := registry } }

/-- An `AckReturn` for the message `m`. -/
structure IsAckReturn (m : MessageId) (f : RexData) : Prop where
  command : f.command = .ok .ackReturn
  message : AckData.fromRexData f = .ok ⟨m⟩

instance (m : MessageId) (f : RexData) : Decidable (IsAckReturn m f) :=
  decidable_of_iff (f.command = .ok .ackReturn ∧ AckData.fromRexData f = .ok ⟨m⟩)
    ⟨fun h => ⟨h.1,h.2⟩,fun h => ⟨h.command,h.message⟩⟩

theorem ack_return_unique (m j : MessageId) (f : RexData) (hm : IsAckReturn m f)
    (hj : IsAckReturn j f) : m = j := by
  have h := hm.message.symm.trans hj.message
  cases h
  rfl

def answers (m : MessageId) (s : Server) : ℕ := s.sent.countP (fun e => IsAckReturn m ⟨e.buf⟩)

section AckFrames
variable (m : MessageId) (k : ClientId)

def ackReturn : RexData := (⟨m⟩ : AckData).toRexData k .ackReturn

/-- The same frame with any return code. -/
def ackFrame (r : RetCode) : RexData :=
  ⟨RexData.encodeHead ⟨45,RexCommand.ackReturn.asU32,r.asU32,0,k⟩++0::toLe 8 m.toNat⟩

theorem ack_return_eq : ackReturn m k = ackFrame m k .success := rfl

theorem ack_frame_encode (r : RetCode) :
    ackFrame m k r = (ackFields m k .ackReturn r).encode := rfl

theorem set_retcode_ack_return (r : RetCode) :
    (ackReturn m k).setRetcode r = .ok (ackFrame m k r) :=
  apply_encode (ackFields m k .ackReturn .success) (.setRetcode r)

theorem ack_frame_fields (r : RetCode) :
    IsAckReturn m (ackFrame m k r) ∧ (ackFrame m k r).source = .ok k ∧
      (ackFrame m k r).retcode = .ok r := by
  rw [ack_frame_encode]
  obtain ⟨hc, hs, hr, -⟩ := head_fields (ackFields m k .ackReturn r)
  exact ⟨⟨hc,from_ack_fields m k .ackReturn r⟩,hs,hr⟩

end AckFrames

/-- The answer for `m` to the client `k`: one call on the object live under
`k`, or none when there is no such object. -/
inductive Returned (s : Server) (m : MessageId) (k : ClientId) (r : RetCode) : List Sent → Prop
  | absent : s.live k = none → Returned s m k r []
  | called (c : ClientRef) (e : Sent) : s.live k = some c → e.sender = (s.clients c).sender →
      IsAckReturn m ⟨e.buf⟩ → (RexData.mk e.buf).source = .ok k →
      (RexData.mk e.buf).retcode = .ok r → Returned s m k r [e]

theorem returned_count (s : Server) (m : MessageId) (k : ClientId) (r : RetCode) (es : List Sent)
    (h : Returned s m k r es) (j : MessageId) :
    es.countP (fun e => IsAckReturn j ⟨e.buf⟩) ≤ if j = m then 1 else 0 := by
  cases h with
  | absent _ => exact Nat.zero_le _
  | called c e _ _ he _ _ =>
    rw [List.countP_singleton]
    by_cases hj : IsAckReturn j ⟨e.buf⟩
    · rw [ack_return_unique m j _ he hj, if_pos rfl]
      split_ifs <;> omega
    · simp [hj]

section Handling
variable (env : Env) (s t : Server)

theorem returned_send (u : Server) (m : MessageId) (k : ClientId) (r : RetCode) (c : ClientRef)
    (g : RexData) (hu : u.clients = s.clients) (hc : s.live k = some c) (hm : IsAckReturn m g)
    (hk : g.source = .ok k) (hr : g.retcode = .ok r) :
    ∃ es, Returned s m k r es ∧ Posts u (u.sendBuf env c g.content).2 es := by
  refine ⟨[⟨(u.clients c).sender,g.content,env.sendOk u.sent.length⟩],?_,
    posts_send_buf env u c g.content⟩
  exact .called c _ hc (by rw [hu]) hm hk hr

theorem ack_handler_trace (f : RexData) (h : ackHandler env f s = .ok t) :
    t = s ∨ ∃ m, AckData.fromRexData f = .ok ⟨m⟩ ∧
      ((s.pendingAcks.lookup m = none ∧ Posts (s.takePendingAck m).2 t []) ∨
        ∃ i es, s.pendingAcks.lookup m = some i ∧ Returned s m i.sourceClientId .success es ∧
          Posts (s.takePendingAck m).2 t es) := by
  unfold ackHandler at h
  split_ifs at h
  · cases h
    exact .inl rfl
  · obtain ⟨⟨m⟩, hm, h⟩ := bind_ok h
    refine .inr ⟨m,hm,?_⟩
    cases hl : s.pendingAcks.lookup m with
    | none =>
      simp only [Server.takePendingAck, hl] at h
      cases h
      exact .inl ⟨rfl,posts_nil _⟩
    | some i =>
      simp only [Server.takePendingAck, hl] at h
      refine .inr ⟨i,?_⟩
      cases hc : s.live i.sourceClientId with
      | none =>
        have hc' : Server.live i.sourceClientId
            { s with pendingAcks := s.pendingAcks.erase m } = none := hc
        simp only [hc'] at h
        cases h
        exact ⟨[],rfl,.absent hc,posts_nil _⟩
      | some c =>
        have hc' : Server.live i.sourceClientId
            { s with pendingAcks := s.pendingAcks.erase m } = some c := hc
        simp only [hc'] at h
        cases h
        obtain ⟨hm, hk, hr⟩ := ack_frame_fields m i.sourceClientId .success
        rw [← ack_return_eq] at hm hk hr
        obtain ⟨es, hr, hp⟩ := returned_send env s (s.takePendingAck m).2 m i.sourceClientId
          .success c (ackReturn m i.sourceClientId) rfl hc hm hk hr
        exact ⟨es,rfl,hr,hp⟩

theorem send_timeout_trace (m : MessageId) (k : ClientId) :
    ∃ t es, AckRun.sendTimeout env m k s = .ok t ∧ Returned s m k .ackTimeout es ∧
      Posts s t es := by
  unfold AckRun.sendTimeout
  cases hc : s.live k with
  | none => exact ⟨s,[],rfl,.absent hc,posts_nil s⟩
  | some c =>
    obtain ⟨hm, hk, hcode⟩ := ack_frame_fields m k .ackTimeout
    obtain ⟨es, hr, hp⟩ := returned_send env s s m k .ackTimeout c _ rfl hc hm hk hcode
    exact ⟨_,es,bind_of_ok (set_retcode_ack_return m k .ackTimeout),hr,hp⟩

end Handling

/-- What a step can do to the pending entries, the sweep and the record. -/
inductive Moved (y : AckRun) : AckEvent → AckRun → Prop
  | still (e : AckEvent) : (∀ env m k title g, e ≠ .register env m k title g) → Moved y e y
  | registered (env : Env) (m : MessageId) (k : ClientId) (title : Title) (g : Bool) (s : Server) :
      s.sent = y.server.sent → s.config = y.server.config →
      (s.pendingAcks = y.server.pendingAcks ∨
        s.pendingAcks = y.server.pendingAcks.insert m ⟨k,title,env.now,g⟩) →
      Moved y (.register env m k title g)
        { y with server := s, registered := y.registered.insert m ⟨k,title,env.now,g⟩ }
  | unknown (env : Env) (f : RexData) (m : MessageId) (s : Server) :
      y.pending m = none → Posts (y.server.takePendingAck m).2 s [] →
      Moved y (.ack env f) { y with server := s }
  | acked (env : Env) (f : RexData) (m : MessageId) (i : PendingAckInfo) (es : List Sent)
      (s : Server) :
      AckData.fromRexData f = .ok ⟨m⟩ → y.pending m = some i →
      Returned y.server m i.sourceClientId .success es → Posts (y.server.takePendingAck m).2 s es →
      Moved y (.ack env f) { y with server := s }
  | scanned (now : UInt64) :
      Moved y (.scan now)
        { y with sweeps := y.sweeps++[⟨now,(y.server.expiredAcks now).map Prod.fst,[]⟩] }
  | gone (n : ℕ) (now : UInt64) (m : MessageId) (ms : List MessageId)
      (taken : List (MessageId × ClientId)) :
      y.sweeps[n]? = some ⟨now,m::ms,taken⟩ → y.pending m = none →
      Moved y (.remove n) { y with server := (y.server.takePendingAck m).2,
                                   sweeps := y.sweeps.set n ⟨now,ms,taken⟩ }
  | removed (n : ℕ) (now : UInt64) (m : MessageId) (ms : List MessageId)
      (taken : List (MessageId × ClientId)) (i : PendingAckInfo) :
      y.sweeps[n]? = some ⟨now,m::ms,taken⟩ → y.pending m = some i →
      Moved y (.remove n)
        { y with server := (y.server.takePendingAck m).2,
                 sweeps := y.sweeps.set n ⟨now,ms,taken++[(m,i.sourceClientId)]⟩ }
  | timedOut (n : ℕ) (env : Env) (now : UInt64) (m : MessageId) (k : ClientId)
      (rest : List (MessageId × ClientId)) (es : List Sent) (s : Server) :
      y.sweeps[n]? = some ⟨now,[],(m,k)::rest⟩ →
      Returned y.server m k .ackTimeout es → Posts y.server s es →
      Moved y (.timeout n env) { y with server := s, sweeps := y.sweeps.set n ⟨now,[],rest⟩ }
  | sessions (clients : Clients) (registry : ClientRegistryImpl) :
      Moved y (.sessions clients registry)
        { y with server := { y.server with clients := clients, registry := registry } }

theorem moved_remove (n : ℕ) (y : AckRun) : Moved y (.remove n) (y.remove n) := by
  unfold AckRun.remove
  split
  · rename_i now m ms taken hs
    cases hl : y.server.pendingAcks.lookup m with
    | none =>
      simp only [Server.takePendingAck, hl]
      exact .gone n now m ms taken hs hl
    | some i =>
      simp only [Server.takePendingAck, hl]
      exact .removed n now m ms taken i hs hl
  · exact .still _ (by simp)

theorem moved_timeout (n : ℕ) (env : Env) (y : AckRun) :
    Moved y (.timeout n env) (y.timeout n env) := by
  unfold AckRun.timeout
  split
  · rename_i now m k rest hs
    obtain ⟨t, es, ht, hr, hp⟩ := send_timeout_trace env y.server m k
    rw [ht]
    exact .timedOut n env now m k rest es t hs hr hp
  · exact .still _ (by simp)

theorem moved (y : AckRun) (e : AckEvent) : Moved y e (ackStep y e) := by
  cases e with
  | register env m k title g =>
    refine .registered env m k title g _ ?_ ?_ ?_
    · unfold Server.registerPendingAck
      split_ifs <;> rfl
    · unfold Server.registerPendingAck
      split_ifs <;> rfl
    · unfold Server.registerPendingAck
      split_ifs
      · exact .inl rfl
      · exact .inr rfl
  | ack env f =>
    cases ht : ackHandler env f y.server with
    | error x =>
      simp only [ackStep, ht]
      exact .still (.ack env f) (by simp)
    | ok t =>
      simp only [ackStep, ht]
      rcases ack_handler_trace env y.server t f ht with
        rfl | ⟨m, hm, ⟨hl, hp⟩ | ⟨i, es, hl, hr, hp⟩⟩
      · exact .still (.ack env f) (by simp)
      · exact .unknown env f m t hl hp
      · exact .acked env f m i es t hm hl hr hp
  | scan now =>
    simp only [ackStep, AckRun.scan]
    split_ifs
    · exact .still (.scan now) (by simp)
    · exact .scanned now
  | remove n => exact moved_remove n y
  | timeout n env => exact moved_timeout n env y
  | sessions clients registry => exact .sessions clients registry

/-- The time of a sweep is later than the entry's by more than the timeout. -/
def Overdue (y : AckRun) (now : UInt64) (i : PendingAckInfo) : Prop :=
  i.timestamp.toNat+y.server.config.ackTimeout.toNat < now.toNat

def Sweep.holds (m : MessageId) (w : Sweep) : ℕ := w.taken.countP (fun p => p.1 = m)

/-- Every way in which an answer for `m` exists or may still come. -/
def outstanding (m : MessageId) (y : AckRun) : ℕ :=
  (y.pending m).toList.length+(y.sweeps.map (Sweep.holds m)).sum+answers m y.server

structure Tracked (y : AckRun) : Prop where
  pending : ∀ m i, y.pending m = some i → y.registered.lookup m = some i
  scanned : ∀ w ∈ y.sweeps, ∀ m ∈ w.scanned, ∃ i, y.registered.lookup m = some i ∧
    Overdue y w.now i
  taken : ∀ w ∈ y.sweeps, ∀ p ∈ w.taken, ∃ i, y.registered.lookup p.1 = some i ∧
    i.sourceClientId = p.2 ∧ Overdue y w.now i
  once : ∀ m, outstanding m y ≤ if m ∈ y.registered then 1 else 0

def Fresh (y : AckRun) : AckEvent → Prop
  | .register _ m _ _ _ => m ∉ y.registered
  | _ => True

theorem pending_take (s : Server) (m j : MessageId) :
    (s.takePendingAck m).2.pendingAcks.lookup j =
      if j = m then none else s.pendingAcks.lookup j := by
  unfold Server.takePendingAck
  split_ifs with hj
  · rw [hj, AList.lookup_erase]
  · rw [AList.lookup_erase_ne hj]

theorem answers_posts (s t : Server) (es : List Sent) (h : Posts s t es) (m : MessageId) :
    answers m t = answers m s+es.countP (fun e => IsAckReturn m ⟨e.buf⟩) := by
  rw [answers, answers, h.sent, List.countP_append]

theorem answers_take (s : Server) (m j : MessageId) :
    answers j (s.takePendingAck m).2 = answers j s := rfl

theorem pending_posts (y : AckRun) (m : MessageId) (s : Server) (es : List Sent)
    (h : Posts (y.server.takePendingAck m).2 s es) (j : MessageId) :
    s.pendingAcks.lookup j = if j = m then none else y.pending j := by
  rw [h.pending, pending_take]
  rfl

section Step
variable (y y' : AckRun) (e : AckEvent)

theorem outstanding_moved (hm : Moved y e y')
    (hne : ∀ env m k title g, e ≠ .register env m k title g)
    (j : MessageId) : outstanding j y' ≤ outstanding j y := by
  cases hm with
  | still _ _ => exact Nat.le_refl _
  | registered env m k title g s _ _ _ => exact absurd rfl (hne env m k title g)
  | unknown env f m s hl hp =>
    have hpend := pending_posts y m s [] hp j
    have hans := answers_posts _ s [] hp j
    rw [answers_take] at hans
    simp only [outstanding, AckRun.pending, hpend, hans, List.countP_nil]
    split_ifs with hj
    · simp
    · exact Nat.le_refl _
  | acked env f m i es s _ hl hr hp =>
    have hpend := pending_posts y m s es hp j
    have hans := answers_posts _ s es hp j
    have hcount := returned_count y.server m _ _ es hr j
    rw [answers_take] at hans
    simp only [outstanding, AckRun.pending, hpend, hans]
    split_ifs at hcount ⊢ with hj
    · have hlj : y.server.pendingAcks.lookup j = some i := by rw [hj]; exact hl
      rw [hlj]
      simp only [Option.toList_none, Option.toList_some, List.length_nil, List.length_singleton]
      omega
    · omega
  | scanned now =>
    simp [outstanding, AckRun.pending, Sweep.holds]
  | gone n now m ms taken hs hl =>
    have hpend := pending_take y.server m j
    have hsum := sum_set (Sweep.holds j) y.sweeps n ⟨now,ms,taken⟩ _ hs
    simp only [Sweep.holds] at hsum
    simp only [outstanding, AckRun.pending, hpend, answers_take]
    split_ifs with hj
    · simp only [Option.toList_none, List.length_nil]
      omega
    · omega
  | removed n now m ms taken i hs hl =>
    have hpend := pending_take y.server m j
    have hsum := sum_set (Sweep.holds j) y.sweeps n ⟨now,ms,taken++[(m,i.sourceClientId)]⟩ _ hs
    simp only [Sweep.holds, List.countP_append, List.countP_singleton, decide_eq_true_eq,
      eq_comm (a := m)] at hsum
    simp only [outstanding, AckRun.pending, hpend, answers_take]
    split_ifs at hsum ⊢ with hj
    · have hlj : y.server.pendingAcks.lookup j = some i := by rw [hj]; exact hl
      rw [hlj]
      simp only [Option.toList_none, Option.toList_some, List.length_nil, List.length_singleton]
      omega
    · omega
  | timedOut n env now m k rest es s hs hr hp =>
    have hans := answers_posts _ s es hp j
    have hcount := returned_count y.server m k _ es hr j
    have hsum := sum_set (Sweep.holds j) y.sweeps n ⟨now,[],rest⟩ _ hs
    simp only [Sweep.holds, List.countP_cons, decide_eq_true_eq, eq_comm (a := m)] at hsum
    simp only [outstanding, AckRun.pending, hp.pending, hans]
    split_ifs at hcount hsum <;> omega
  | sessions clients registry => exact Nat.le_refl _

theorem lookup_register (m j : MessageId) (i x : PendingAckInfo) (h : m ∉ y.registered)
    (hj : y.registered.lookup j = some i) : (y.registered.insert m x).lookup j = some i := by
  have hne : j ≠ m := by
    rintro rfl
    rw [AList.lookup_eq_none.mpr h] at hj
    cases hj
  rw [AList.lookup_insert_ne hne, hj]

theorem overdue_of_expired (now : UInt64) (m : MessageId)
    (h : m ∈ (y.server.expiredAcks now).map Prod.fst) :
    ∃ i, y.pending m = some i ∧
      i.timestamp.toNat+y.server.config.ackTimeout.toNat < now.toNat := by
  unfold Server.expiredAcks at h
  simp only [List.map_map, List.mem_map, List.mem_filter, decide_eq_true_eq] at h
  obtain ⟨x, ⟨hx, hlt⟩, rfl⟩ := h
  refine ⟨x.2,AList.mem_lookup_iff.mpr hx,?_⟩
  rw [UInt64.lt_iff_toNat_lt, saturating_sub_toNat] at hlt
  omega

theorem tracked_registered (env : Env) (m : MessageId) (k : ClientId) (title : Title) (g : Bool)
    (s : Server) (h : Tracked y) (hfresh : m ∉ y.registered) (hsent : s.sent = y.server.sent)
    (hconfig : s.config = y.server.config)
    (hpend : s.pendingAcks = y.server.pendingAcks ∨
      s.pendingAcks = y.server.pendingAcks.insert m ⟨k,title,env.now,g⟩) :
    Tracked { y with server := s, registered := y.registered.insert m ⟨k,title,env.now,g⟩ } := by
  have hother : ∀ j, j ≠ m → s.pendingAcks.lookup j = y.pending j := by
    intro j hj
    rcases hpend with hp | hp
    · rw [hp]
      rfl
    · rw [hp, AList.lookup_insert_ne hj]
      rfl
  refine ⟨fun j i hi => ?_,fun w hw j hj => ?_,fun w hw p hp => ?_,fun j => ?_⟩
  · by_cases hj : j = m
    · subst hj
      rcases hpend with hp | hp
      · have hold := h.pending j i (by rw [← hi]; exact congrArg (AList.lookup j) hp.symm)
        rw [AList.lookup_eq_none.mpr hfresh] at hold
        cases hold
      · simp only [AckRun.pending, hp, AList.lookup_insert] at hi
        rw [AList.lookup_insert]
        exact hi
    · exact lookup_register y m j i _ hfresh
        (h.pending j i (by rw [← hi]; exact (hother j hj).symm))
  · obtain ⟨i, hi, ho⟩ := h.scanned w hw j hj
    exact ⟨i,lookup_register y m j i _ hfresh hi,by unfold Overdue at ho ⊢; rwa [hconfig]⟩
  · obtain ⟨i, hi, hk, ho⟩ := h.taken w hw p hp
    exact ⟨i,lookup_register y m p.1 i _ hfresh hi,hk,by unfold Overdue at ho ⊢; rwa [hconfig]⟩
  · have honce := h.once j
    by_cases hj : j = m
    · subst hj
      rw [if_neg hfresh] at honce
      rw [if_pos (AList.mem_insert _ |>.mpr (.inl rfl))]
      have hlen : (s.pendingAcks.lookup j).toList.length ≤ 1 := by
        cases s.pendingAcks.lookup j <;> simp
      simp only [outstanding, answers, AckRun.pending, hsent] at honce ⊢
      omega
    · simp only [outstanding, answers, AckRun.pending, hsent, hother j hj, AList.mem_insert, hj,
        false_or] at honce ⊢
      exact honce

theorem pending_of_take (m : MessageId) (s : Server) (es : List Sent)
    (h : Posts (y.server.takePendingAck m).2 s es) (j : MessageId) (i : PendingAckInfo)
    (hi : s.pendingAcks.lookup j = some i) : y.pending j = some i := by
  rw [pending_posts y m s es h j] at hi
  split_ifs at hi
  exact hi

theorem tracked_shrink (h : Tracked y) (hreg : y'.registered = y.registered)
    (hconfig : y'.server.config = y.server.config)
    (hsweeps : ∀ w' ∈ y'.sweeps, ∃ w ∈ y.sweeps, w'.now = w.now ∧ w'.scanned ⊆ w.scanned ∧
      w'.taken ⊆ w.taken)
    (hpend : ∀ j i, y'.pending j = some i → y.pending j = some i)
    (hout : ∀ j, outstanding j y' ≤ outstanding j y) : Tracked y' := by
  have hover : ∀ now i, Overdue y now i → Overdue y' now i := by
    intro now i hi
    unfold Overdue at hi ⊢
    rwa [hconfig]
  refine ⟨fun j i hi => ?_,fun w' hw' j hj => ?_,fun w' hw' p hp => ?_,fun j => ?_⟩
  · rw [hreg]
    exact h.pending j i (hpend j i hi)
  · obtain ⟨w, hw, hnow, hscan, -⟩ := hsweeps w' hw'
    obtain ⟨i, hi, ho⟩ := h.scanned w hw j (hscan hj)
    exact ⟨i,hreg ▸ hi,hnow ▸ hover w.now i ho⟩
  · obtain ⟨w, hw, hnow, -, htaken⟩ := hsweeps w' hw'
    obtain ⟨i, hi, hk, ho⟩ := h.taken w hw p (htaken hp)
    exact ⟨i,hreg ▸ hi,hk,hnow ▸ hover w.now i ho⟩
  · rw [hreg]
    exact le_trans (hout j) (h.once j)

theorem same_sweeps (ws : List Sweep) : ∀ w' ∈ ws, ∃ w ∈ ws, w'.now = w.now ∧
    w'.scanned ⊆ w.scanned ∧ w'.taken ⊆ w.taken :=
  fun w hw => ⟨w,hw,rfl,fun _ h => h,fun _ h => h⟩

theorem shorter_sweep (ws : List Sweep) (n : ℕ) (v v' : Sweep) (hv : ws[n]? = some v)
    (hnow : v'.now = v.now) (hscan : v'.scanned ⊆ v.scanned) (htaken : v'.taken ⊆ v.taken) :
    ∀ w' ∈ ws.set n v', ∃ w ∈ ws, w'.now = w.now ∧ w'.scanned ⊆ w.scanned ∧
      w'.taken ⊆ w.taken := by
  intro w' hw'
  rcases List.mem_or_eq_of_mem_set hw' with hw' | rfl
  · exact same_sweeps ws w' hw'
  · exact ⟨v,List.mem_of_getElem? hv,hnow,hscan,htaken⟩

theorem tracked_moved (h : Tracked y) (hf : Fresh y e) (hm : Moved y e y') : Tracked y' := by
  have hout := outstanding_moved y y' e hm
  cases hm with
  | still _ _ => exact h
  | registered env m k title g s hsent hconfig hpend =>
    exact tracked_registered y env m k title g s h hf hsent hconfig hpend
  | unknown env f m s hl hp =>
    exact tracked_shrink y _ h rfl hp.config (same_sweeps y.sweeps)
      (pending_of_take y m s [] hp) (hout (by simp))
  | acked env f m i es s _ hl hr hp =>
    exact tracked_shrink y _ h rfl hp.config (same_sweeps y.sweeps)
      (pending_of_take y m s es hp) (hout (by simp))
  | scanned now =>
    refine ⟨h.pending,fun w hw j hj => ?_,fun w hw p hp => ?_,fun j => ?_⟩
    · rcases List.mem_append.mp hw with hw | hw
      · exact h.scanned w hw j hj
      · rw [List.mem_singleton.mp hw] at hj ⊢
        obtain ⟨i, hi, ho⟩ := overdue_of_expired y now j hj
        exact ⟨i,h.pending j i hi,ho⟩
    · rcases List.mem_append.mp hw with hw | hw
      · exact h.taken w hw p hp
      · rw [List.mem_singleton.mp hw] at hp
        cases hp
    · exact le_trans (hout (by simp) j) (h.once j)
  | gone n now m ms taken hs hl =>
    exact tracked_shrink y _ h rfl rfl (shorter_sweep y.sweeps n _ _ hs rfl
      (fun j hj => List.mem_cons_of_mem m hj) (fun _ hp => hp))
      (pending_of_take y m _ [] (posts_nil _)) (hout (by simp))
  | removed n now m ms taken i hs hl =>
    have hin := List.mem_of_getElem? hs
    obtain ⟨i', hi', ho⟩ := h.scanned _ hin m List.mem_cons_self
    have hii : i' = i := by
      rw [h.pending m i hl] at hi'
      exact (Option.some.inj hi').symm
    refine ⟨fun j x hx => h.pending j x (pending_of_take y m _ [] (posts_nil _) j x hx),
      fun w hw j hj => ?_,fun w hw p hp => ?_,fun j => le_trans (hout (by simp) j) (h.once j)⟩
    · rcases List.mem_or_eq_of_mem_set hw with hw | rfl
      · exact h.scanned w hw j hj
      · exact h.scanned _ hin j (List.mem_cons_of_mem m hj)
    · rcases List.mem_or_eq_of_mem_set hw with hw | rfl
      · exact h.taken w hw p hp
      · rcases List.mem_append.mp hp with hp | hp
        · exact h.taken _ hin p hp
        · rw [List.mem_singleton.mp hp]
          exact ⟨i,h.pending m i hl,rfl,hii ▸ ho⟩
  | timedOut n env now m k rest es s hs hr hp =>
    refine tracked_shrink y _ h rfl hp.config (shorter_sweep y.sweeps n _ _ hs rfl
      (fun _ hj => hj) (fun p hp => List.mem_cons_of_mem _ hp)) (fun j i hi => ?_) (hout (by simp))
    rw [← hi]
    exact congrArg (AList.lookup j) hp.pending.symm
  | sessions clients registry =>
    exact tracked_shrink y _ h rfl rfl (same_sweeps y.sweeps) (fun _ _ hi => hi) (hout (by simp))

/-- What resolves the entry `i` of `m`: its acknowledgement, or its removal
by a sweep that is late enough. -/
def Resolves (m : MessageId) (i : PendingAckInfo) : AckEvent → Prop
  | .ack _ f => AckData.fromRexData f = .ok ⟨m⟩
  | .remove n => ∃ w, y.sweeps[n]? = some w ∧ w.scanned.head? = some m ∧ Overdue y w.now i
  | _ => False

/-- What an answer for `m` follows from. -/
def Causes (m : MessageId) (i : PendingAckInfo) (r : RetCode) : AckEvent → Prop
  | .ack _ f => AckData.fromRexData f = .ok ⟨m⟩ ∧ y.pending m = some i ∧ r = .success
  | .timeout n _ => r = .ackTimeout ∧ ∃ w, y.sweeps[n]? = some w ∧ Overdue y w.now i
  | _ => False

/-- A call that answers for a registered id, made on the object live under
the client id it was registered with. -/
def Answered (x : Sent) : Prop :=
  ∃ m i c r, IsAckReturn m ⟨x.buf⟩ ∧ (RexData.mk x.buf).retcode = .ok r ∧
    y.registered.lookup m = some i ∧ (RexData.mk x.buf).source = .ok i.sourceClientId ∧
    y.server.live i.sourceClientId = some c ∧ x.sender = (y.server.clients c).sender ∧
    Causes y m i r e

/-- Entries go only by what resolves them, and all calls are answers. -/
structure Resolving : Prop where
  entries : ∀ m i, y.pending m = some i → y'.pending m = some i ∨
    (y'.pending m = none ∧ Resolves y m i e)
  calls : ∀ x ∈ y'.server.sent.drop y.server.sent.length, Answered y e x

theorem answered_of_returned (m : MessageId) (i : PendingAckInfo) (r : RetCode) (es : List Sent)
    (hr : Returned y.server m i.sourceClientId r es) (hi : y.registered.lookup m = some i)
    (hc : Causes y m i r e) (x : Sent) (hx : x ∈ es) : Answered y e x := by
  cases hr with
  | absent _ => cases hx
  | called c z hl hs hz hsource hcode =>
    rw [List.mem_singleton.mp hx]
    exact ⟨m,i,c,r,hz,hcode,hi,hsource,hl,hs,hc⟩

theorem no_calls (h : y'.server.sent = y.server.sent) (x : Sent)
    (hx : x ∈ y'.server.sent.drop y.server.sent.length) : Answered y e x := by
  rw [h, List.drop_length] at hx
  cases hx

theorem new_calls (s t : Server) (es : List Sent) (h : Posts s t es)
    (hs : s.sent = y.server.sent) : t.sent.drop y.server.sent.length = es := by
  rw [h.sent, hs, List.drop_left]

theorem ne_of_pending (m j : MessageId) (i : PendingAckInfo)
    (hm : y.server.pendingAcks.lookup m = none) (hj : y.pending j = some i) : j ≠ m := by
  rintro rfl
  rw [AckRun.pending, hm] at hj
  cases hj

theorem resolving_moved (h : Tracked y) (hf : Fresh y e) (hm : Moved y e y') :
    Resolving y y' e := by
  cases hm with
  | still _ _ => exact ⟨fun _ _ hi => .inl hi,no_calls y y e rfl⟩
  | registered env m k title g s hsent hconfig hpend =>
    refine ⟨fun j i hi => .inl ?_,no_calls y _ _ hsent⟩
    have hj : j ≠ m := by
      rintro rfl
      have hold := h.pending j i hi
      rw [AList.lookup_eq_none.mpr hf] at hold
      cases hold
    rcases hpend with hp | hp
    · rw [AckRun.pending, hp]
      exact hi
    · rw [AckRun.pending, hp, AList.lookup_insert_ne hj]
      exact hi
  | unknown env f m s hl hp =>
    refine ⟨fun j i hi => .inl ?_,no_calls y _ _ (hp.sent.trans (List.append_nil _))⟩
    rw [AckRun.pending, pending_posts y m s [] hp j, if_neg (ne_of_pending y m j i hl hi), hi]
  | acked env f m i es s hfm hl hr hp =>
    refine ⟨fun j x hx => ?_,fun x hx => ?_⟩
    · rw [AckRun.pending, pending_posts y m s es hp j]
      split_ifs with hj
      · rw [hj]
        exact .inr ⟨rfl,hfm⟩
      · exact .inl hx
    · rw [new_calls y _ s es hp rfl] at hx
      exact answered_of_returned y (.ack env f) m i .success es hr (h.pending m i hl)
        ⟨hfm,hl,rfl⟩ x hx
  | scanned now => exact ⟨fun _ _ hi => .inl hi,no_calls y _ _ rfl⟩
  | gone n now m ms taken hs hl =>
    refine ⟨fun j i hi => .inl ?_,no_calls y _ _ rfl⟩
    rw [AckRun.pending, pending_take, if_neg (ne_of_pending y m j i hl hi)]
    exact hi
  | removed n now m ms taken i hs hl =>
    refine ⟨fun j x hx => ?_,no_calls y _ _ rfl⟩
    rw [AckRun.pending, pending_take]
    split_ifs with hj
    · subst hj
      obtain ⟨i', hi', ho⟩ := h.scanned _ (List.mem_of_getElem? hs) j List.mem_cons_self
      rw [h.pending j x hx] at hi'
      cases hi'
      exact .inr ⟨rfl,_,hs,rfl,ho⟩
    · exact .inl hx
  | timedOut n env now m k rest es s hs hr hp =>
    refine ⟨fun j i hi => .inl ?_,fun x hx => ?_⟩
    · rw [AckRun.pending, hp.pending]
      exact hi
    · rw [new_calls y _ s es hp rfl] at hx
      obtain ⟨i, hi, hk, ho⟩ := h.taken _ (List.mem_of_getElem? hs) (m,k) List.mem_cons_self
      subst hk
      exact answered_of_returned y (.timeout n env) m i .ackTimeout es hr hi ⟨rfl,_,hs,ho⟩ x hx
  | sessions clients registry => exact ⟨fun _ _ hi => .inl hi,no_calls y _ _ rfl⟩

end Step

section Undisturbed
variable (env : Env) (ws : List Sweep) (registered : AList (fun _ : MessageId => PendingAckInfo))

theorem set_last (w w' : Sweep) : (ws++[w]).set ws.length w' = ws++[w'] := by
  rw [List.set_append_right _ _ (Nat.le_refl _), Nat.sub_self, List.set_cons_zero]

theorem removals_run (ps taken : List (MessageId × ClientId)) (now : UInt64) (s : Server)
    (hnodup : (ps.map Prod.fst).Nodup)
    (hpend : ∀ p ∈ ps, ∃ i, s.pendingAcks.lookup p.1 = some i ∧ i.sourceClientId = p.2) :
    (List.replicate ps.length (AckEvent.remove ws.length)).foldl ackStep
        ⟨s,ws++[⟨now,ps.map Prod.fst,taken⟩],registered⟩ =
      ⟨{ s with pendingAcks := ps.foldl (fun m e => m.erase e.1) s.pendingAcks },
        ws++[⟨now,[],taken++ps⟩],registered⟩ := by
  induction ps generalizing s taken with
  | nil => simp
  | cons p ps ih =>
    obtain ⟨hp, hrest⟩ := List.nodup_cons.mp hnodup
    obtain ⟨i, hi, hk⟩ := hpend p List.mem_cons_self
    have hstep : ackStep ⟨s,ws++[⟨now,(p::ps).map Prod.fst,taken⟩],registered⟩
          (.remove ws.length) =
        ⟨(s.takePendingAck p.1).2,ws++[⟨now,ps.map Prod.fst,taken++[p]⟩],registered⟩ := by
      simp only [ackStep, AckRun.remove, List.getElem?_concat_length, List.map_cons,
        Server.takePendingAck, hi, hk, set_last]
    rw [List.length_cons, List.replicate_succ, List.foldl_cons, hstep, ih _ _ hrest]
    · rw [List.append_assoc]
      rfl
    · intro q hq
      obtain ⟨j, hj, hkj⟩ := hpend q (List.mem_cons_of_mem p hq)
      have hne : q.1 ≠ p.1 := fun he => hp (he ▸ List.mem_map_of_mem hq)
      exact ⟨j,by rw [pending_take, if_neg hne, hj],hkj⟩

theorem timeouts_run (ps : List (MessageId × ClientId)) (now : UInt64) (s t : Server)
    (h : ps.foldlM (fun s e => AckRun.sendTimeout env e.1 e.2 s) s = .ok t) :
    (List.replicate ps.length (AckEvent.timeout ws.length env)).foldl ackStep
        ⟨s,ws++[⟨now,[],ps⟩],registered⟩ =
      ⟨t,ws++[⟨now,[],[]⟩],registered⟩ := by
  induction ps generalizing s with
  | nil =>
    cases h
    rfl
  | cons p ps ih =>
    rw [List.foldlM_cons] at h
    obtain ⟨u, hu, h⟩ := bind_ok h
    have hstep : ackStep ⟨s,ws++[⟨now,[],p::ps⟩],registered⟩ (.timeout ws.length env) =
        ⟨u,ws++[⟨now,[],ps⟩],registered⟩ := by
      simp only [ackStep, AckRun.timeout, List.getElem?_concat_length, hu, set_last]
    rw [List.length_cons, List.replicate_succ, List.foldl_cons, hstep, ih u h]

theorem expired_pending (now : UInt64) (s : Server) :
    ((s.expiredAcks now).map Prod.fst).Nodup ∧
      ∀ p ∈ s.expiredAcks now, ∃ i, s.pendingAcks.lookup p.1 = some i ∧ i.sourceClientId = p.2 := by
  unfold Server.expiredAcks
  constructor
  · rw [List.map_map]
    exact s.pendingAcks.keys_nodup.sublist (List.filter_sublist.map Sigma.fst)
  · intro p hp
    obtain ⟨x, hx, rfl⟩ := List.mem_map.mp hp
    exact ⟨x.2,AList.mem_lookup_iff.mpr (List.mem_filter.mp hx).1,rfl⟩

/-- Without other work in between, the events of a sweep are the janitor's
`cleanup_expired_acks`. -/
theorem sweep_run (s t : Server) (hack : s.config.ackEnabled = true)
    (h : s.cleanupExpiredAcks env = .ok t) :
    (AckEvent.scan env.now::
        (List.replicate (s.expiredAcks env.now).length (AckEvent.remove ws.length)++
          List.replicate (s.expiredAcks env.now).length (AckEvent.timeout ws.length env))).foldl
        ackStep ⟨s,ws,registered⟩ = ⟨t,ws++[⟨env.now,[],[]⟩],registered⟩ := by
  obtain ⟨hnodup, hpend⟩ := expired_pending env.now s
  have hscan : ackStep ⟨s,ws,registered⟩ (.scan env.now) =
      ⟨s,ws++[⟨env.now,(s.expiredAcks env.now).map Prod.fst,[]⟩],registered⟩ := by
    simp [ackStep, AckRun.scan, hack]
  unfold Server.cleanupExpiredAcks at h
  simp only [hack, Bool.not_true, Bool.false_eq_true, if_false] at h
  rw [List.foldl_cons, hscan, List.foldl_append,
    removals_run ws registered (s.expiredAcks env.now) [] env.now s hnodup hpend, List.nil_append]
  exact timeouts_run env ws registered (s.expiredAcks env.now) env.now _ t h

end Undisturbed

def registeredId : AckEvent → Option MessageId
  | .register _ m _ _ _ => some m
  | _ => none

def registrations (es : List AckEvent) : List MessageId := es.filterMap registeredId

theorem mem_registered_step (y : AckRun) (e : AckEvent) (j : MessageId) :
    j ∈ (ackStep y e).registered ↔ registeredId e = some j ∨ j ∈ y.registered := by
  have hm := moved y e
  generalize ackStep y e = y' at hm
  cases hm with
  | still _ hne =>
    cases e with
    | register env m k title g => exact absurd rfl (hne env m k title g)
    | _ => simp [registeredId]
  | registered env m k title g s _ _ _ => simp [registeredId, AList.mem_insert, eq_comm]
  | _ => simp [registeredId]

theorem fresh_of_distinct (y : AckRun) (es : List AckEvent) (hd : (registrations es).Nodup)
    (hy : ∀ m ∈ registrations es, m ∉ y.registered) : Along ackStep Fresh y es := by
  induction es generalizing y with
  | nil => trivial
  | cons e es ih =>
    have hsub : registrations es ⊆ registrations (e::es) := by
      intro m hm
      obtain ⟨e', he', hm⟩ := List.mem_filterMap.mp hm
      exact List.mem_filterMap.mpr ⟨e',List.mem_cons_of_mem e he',hm⟩
    have hrest : (registrations es).Nodup := by
      cases hr : registeredId e with
      | none => rwa [registrations, List.filterMap_cons_none hr] at hd
      | some m =>
        rw [registrations, List.filterMap_cons_some hr] at hd
        exact hd.of_cons
    refine ⟨?_,ih _ hrest (fun m hm hin => ?_)⟩
    · cases e with
      | register env m k title g => exact hy m (by simp [registrations, registeredId])
      | _ => trivial
    · rcases (mem_registered_step y e m).mp hin with hr | hin
      · rw [registrations, List.filterMap_cons_some hr] at hd
        exact (List.nodup_cons.mp hd).1 hm
      · exact hy m (hsub hm) hin

theorem posts_restore (s : Server) : Posts s s.restore [] := by
  have hrows : ∀ (ps : List PersistedClient) (s : Server),
      Posts s (ps.foldl Server.restoreRow s) [] := by
    intro ps
    induction ps with
    | nil => exact posts_nil
    | cons p ps ih =>
      intro s
      have hrow : Posts s (s.restoreRow p) [] := by
        unfold Server.restoreRow
        split
        · exact posts_nil s
        · exact ⟨(List.append_nil _).symm,rfl,rfl,rfl,fun _ => rfl⟩
      exact posts_append _ _ _ [] [] hrow (ih _)
  unfold Server.restore
  split_ifs
  · cases s.db with
    | none => exact posts_nil s
    | some db => exact hrows db.loadAll s
  · exact posts_nil s

def ackStart (config : RexSystemConfig) (cluster : ClusterPort) (db : Option SledDb)
    (clients : Clients) : AckRun :=
  ⟨(start config cluster db clients).server,[],∅⟩

theorem tracked_start (config : RexSystemConfig) (cluster : ClusterPort) (db : Option SledDb)
    (clients : Clients) : Tracked (ackStart config cluster db clients) := by
  have hp := posts_restore (Server.build config cluster db clients)
  have hpend : ∀ m, (ackStart config cluster db clients).pending m = none := by
    intro m
    exact (congrArg (AList.lookup m) hp.pending).trans (AList.lookup_empty m)
  refine ⟨fun m i hi => ?_,(fun w hw => by cases hw),(fun w hw => by cases hw),fun m => ?_⟩
  · rw [hpend] at hi
    cases hi
  · have hsent : (ackStart config cluster db clients).server.sent = [] := hp.sent
    rw [outstanding, hpend, answers, hsent]
    exact Nat.zero_le _

/-- In a run that registers every id at most once, each step resolves only
what it may, and no id is answered for twice. -/
theorem acks_resolved_once (config : RexSystemConfig) (cluster : ClusterPort)
    (db : Option SledDb) (clients : Clients) (es : List AckEvent)
    (hd : (registrations es).Nodup) :
    Along ackStep (fun y e => Resolving y (ackStep y e) e) (ackStart config cluster db clients) es ∧
      ∀ m, answers m (es.foldl ackStep (ackStart config cluster db clients)).server ≤ 1 := by
  have hstart := tracked_start config cluster db clients
  have hfresh := fresh_of_distinct (ackStart config cluster db clients) es hd
    (fun m _ => AList.notMem_empty m)
  have hstep : ∀ y e, Tracked y → Fresh y e → Tracked (ackStep y e) :=
    fun y e h hf => tracked_moved y _ e h hf (moved y e)
  constructor
  · exact along_of_along ackStep Fresh _ Tracked
      (fun y e h hf => resolving_moved y _ e h hf (moved y e)) hstep _ es hstart hfresh
  · intro m
    have hlast := always_last ackStep Tracked _ es
      (always_of_along ackStep Fresh Tracked hstep _ es hstart hfresh)
    have honce := hlast.once m
    unfold outstanding at honce
    split_ifs at honce <;> omega

/-- Client 7 comes back. One of its messages is acknowledged twice, with two
sweeps that overlap and come too late for it; the other one has expired. -/
def acknowledgedTwice : List AckEvent :=
  [.sessions (fun c => .new 7 [] c 0) (ClientRegistryImpl.new.addClient (fun c => .new 7 [] c 0) 3),
    .register quietEnv 5 7 [] false, .register quietEnv 6 7 [] false, .ack quietEnv (ackReturn 5 7),
    .ack quietEnv (ackReturn 5 7), .scan 100, .scan 100, .remove 1, .remove 0, .timeout 0 quietEnv,
    .timeout 1 quietEnv]

theorem acknowledged_twice_resolved_once :
    (registrations acknowledgedTwice).Nodup ∧
      Along ackStep (fun y e => Resolving y (ackStep y e) e)
        (ackStart { plainConfig with ackEnabled := true } .noop none unusedClients)
        acknowledgedTwice ∧
      (∀ m, answers m (acknowledgedTwice.foldl ackStep
        (ackStart { plainConfig with ackEnabled := true } .noop none unusedClients)).server ≤ 1) ∧
      (acknowledgedTwice.foldl ackStep
        (ackStart { plainConfig with ackEnabled := true } .noop none unusedClients)).server.sent =
        [⟨3,(ackFrame 5 7 .success).content,true⟩,⟨3,(ackFrame 6 7 .ackTimeout).content,true⟩] := by
  obtain ⟨hsteps, honce⟩ := acks_resolved_once { plainConfig with ackEnabled := true } .noop none
    unusedClients acknowledgedTwice (by decide)
  exact ⟨by decide,hsteps,honce,by decide +kernel⟩

end RexMq.AckResolution
