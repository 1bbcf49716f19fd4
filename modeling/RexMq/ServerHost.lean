import Mathlib.Tactic.Common
import RexMq.ListWeights
import RexMq.MannedNetwork

/-!
# The tasks of a server

An endpoint has one accept loop, which takes one connection at a time: for a
WebSocket it waits until the peer has completed the handshake, then for one of
the permits, and only then it starts the connection's task and looks for the
next connection or the shutdown signal. A task builds its driver when it first
runs, and hears the signals sent from then on; it ends with its connection or
with a signal, takes its client out of the registry and gives the permit back.
A frame that makes a handler panic ends the task at once: the permit comes
back, and the client stays where it is. Which of the tasks moves next is not
determined.
-/

set_option autoImplicit false

namespace RexMq.ServerHost
open RexMq.FiniteRun RexMq.ListWeights RexMq.FrameData RexMq.ClientRegistry
open RexMq.PersistentStore RexMq.ServerState RexMq.Handlers RexMq.HandlerEffects
open RexMq.ByteWords RexMq.FrameAccess RexMq.SentFrames RexMq.ServerRun RexMq.SeatedClients
open RexMq.MannedNetwork

/-- How far the task of an accepted connection has come. A driver remembers
how many signals had been sent when it was built. -/
inductive Stage where
  | handling
  | spawned
  | driving (since : ℕ)
  | leaving
  | gone
  | crashed
  deriving DecidableEq, Repr

def Stage.permits : Stage → ℕ
  | .spawned => 1
  | .driving _ => 1
  | .leaving => 1
  | .handling => 0
  | .gone => 0
  | .crashed => 0

/-- The driver of the connection has been built and its client not yet been
taken out. -/
def Stage.entered : Stage → Bool
  | .driving _ => true
  | .leaving => true
  | .crashed => true
  | _ => false

def Stage.crashes : Stage → ℕ
  | .crashed => 1
  | _ => 0

/-- An accept that fails leaves the loop with nothing but the signal to wait
for: the pattern of its arm does not match, and the arm is not polled again. -/
inductive Acceptor where
  | looping
  | shaking
  | busy (i : ℕ)
  | failed
  | stopped
  deriving DecidableEq, Repr

inductive Transport where
  | tcp
  | webSocket
  deriving DecidableEq, Repr

namespace Transport

def label : Transport → String
  | .tcp => "tcp"
  | .webSocket => "websocket"

/-- Where the loop stands when it makes the object of a connection: a WebSocket
has been through its handshake then. -/
def ready : Transport → Acceptor
  | .tcp => .looping
  | .webSocket => .shaking

theorem ready_not_busy (t : Transport) (i : ℕ) : t.ready ≠ .busy i := by
  cases t <;> simp [ready]

end Transport

/-- Connections are numbered in the order in which their objects are made. -/
structure Host where
  transport : Transport
  system : System
  signals : ℕ
  permits : ℕ
  acceptor : Acceptor
  stages : List Stage

inductive Act where
  | greet
  | refuse
  | accept (uuid : ClientId) (now : UInt64)
  | acceptFails
  | reject
  | permit
  | start (i : ℕ)
  | frame (i : ℕ) (env : Env) (f : RexData)
  | finish (i : ℕ)
  | obey (i : ℕ)
  | release (i : ℕ)
  | stop
  | signal
  | inactiveSweep (now : UInt64)
  | ackSweep (env : Env)
  | ghostSweep (now : UInt64)

namespace Host

def toStage (i : ℕ) (stage : Stage) (x : Host) : Host := { x with stages := x.stages.set i stage }

def onSystem (e : Event) (x : Host) : Host := { x with system := ServerRun.step x.system e }

end Host

/-- The receiver of the accept loop is as old as the server, so any signal
reaches it; the loop waits for no signal while it handles a connection. -/
def Enabled (x : Host) : Act → Prop
  | .greet => x.transport = .webSocket ∧ x.acceptor = .looping
  | .refuse => x.acceptor = .shaking
  | .accept _ _ => x.acceptor = x.transport.ready
  | .acceptFails => x.acceptor = .looping
  | .reject => ∃ i, x.acceptor = .busy i
  | .permit => (∃ i, x.acceptor = .busy i) ∧ 0 < x.permits
  | .start i => x.stages[i]? = some .spawned
  | .frame i _ _ => ∃ n, x.stages[i]? = some (.driving n)
  | .finish i => ∃ n, x.stages[i]? = some (.driving n)
  | .obey i => ∃ n < x.signals, x.stages[i]? = some (.driving n)
  | .release i => x.stages[i]? = some .leaving
  | .stop => (x.acceptor = .looping ∨ x.acceptor = .failed) ∧ 0 < x.signals
  | .signal | .inactiveSweep _ | .ackSweep _ | .ghostSweep _ => True

def step (x : Host) : Act → Host
  | .greet => { x with acceptor := .shaking }
  | .refuse => { x with acceptor := .looping }
  | .accept uuid now =>
    { x.onSystem (.accept x.stages.length uuid x.transport.label now) with
      acceptor := .busy x.stages.length
      stages := x.stages++[.handling] }
  | .acceptFails => { x with acceptor := .failed }
  | .reject => match x.acceptor with
    | .busy i => { x.toStage i .gone with acceptor := .looping }
    | _ => x
  | .permit => match x.acceptor with
    | .busy i => { x.toStage i .spawned with acceptor := .looping, permits := x.permits-1 }
    | _ => x
  | .start i => x.toStage i (.driving x.signals)
  | .frame i env f => match handle env i f x.system.server with
    | .ok _ => x.onSystem (.frame i env f)
    | .error _ => { x.toStage i .crashed with permits := x.permits+1 }
  | .finish i => x.toStage i .leaving
  | .obey i => x.toStage i .leaving
  | .release i => { (x.onSystem (.teardown i)).toStage i .gone with permits := x.permits+1 }
  | .stop => { x with acceptor := .stopped }
  | .signal => { x with signals := x.signals+1 }
  | .inactiveSweep now => x.onSystem (.inactiveSweep now)
  | .ackSweep env => x.onSystem (.ackSweep env)
  | .ghostSweep now => x.onSystem (.ghostSweep now)

def opened (transport : Transport) (maxConcurrentHandlers : ℕ) (y : System) : Host :=
  { transport := transport
    system := y
    signals := 0
    permits := maxConcurrentHandlers
    acceptor := .looping
    stages := [] }

def Host.served (x : Host) : ℕ := (x.stages.map Stage.permits).sum

def Host.crashed (x : Host) : ℕ := (x.stages.map Stage.crashes).sum

/-- Who carries the connections, and whose frames they are. -/
def OfParties (N : Naming) (x : Host) : Act → Prop
  | .accept _ _ => x.stages.length ∈ N.parties
  | .frame i _ f => Stamps N i f
  | _ => True

/-- Permits are neither lost nor made, the accept loop handles at most one
connection, and whoever is registered is being served or had a task that a
panic has ended. -/
structure Sound (N : Naming) (total : ℕ) (x : Host) : Prop where
  permits : x.permits+x.served = total
  busy : ∀ i, x.acceptor = .busy i ↔ x.stages[i]? = some .handling
  shaking : x.acceptor = .shaking → x.transport = .webSocket
  since : ∀ i n : ℕ, x.stages[i]? = some (.driving n) → n ≤ x.signals
  hosts : Hosts N x.system
  opened : ∀ c, c ∈ x.system.opened ↔ c < x.stages.length
  closed : ∀ c ∈ x.system.closed, x.stages[c]? = some .gone
  live : ∀ k c, x.system.server.live k = some c → ∃ b, x.stages[c]? = some b ∧ b.entered

section Steps
variable {N : Naming} {total : ℕ} {x : Host}

theorem get_set (i j : ℕ) (a b : Stage) (h : x.stages[i]? = some b) :
    (x.stages.set i a)[j]? = if j = i then some a else x.stages[j]? := by
  obtain ⟨hlt, -⟩ := List.getElem?_eq_some_iff.mp h
  rw [List.getElem?_set]
  by_cases hj : i = j
  · rw [if_pos hj, if_pos hj.symm, if_pos (by omega)]
  · rw [if_neg hj, if_neg fun h => hj h.symm]

/-- A task goes on to its next stage. -/
structure Moves (x y : Host) (i : ℕ) (b a : Stage) : Prop where
  stage : x.stages[i]? = some b
  stages : y.stages = x.stages.set i a
  signals : y.signals = x.signals
  permits : y.permits+a.permits = x.permits+b.permits
  transport : y.transport = x.transport
  acceptor : ∀ j, y.acceptor = .busy j ↔ x.acceptor = .busy j ∧ j ≠ i
  shaking : y.acceptor = .shaking → x.acceptor = .shaking
  handling : a ≠ .handling
  gone : b ≠ .gone
  since : ∀ n, a = .driving n → n ≤ x.signals

theorem Sound.move (h : Sound N total x) (y : Host) (i : ℕ) (b a : Stage) (hm : Moves x y i b a)
    (hosts : Hosts N y.system) (hopened : y.system.opened = x.system.opened)
    (hclosed : ∀ c ∈ y.system.closed, c ∈ x.system.closed ∨ c = i ∧ a = .gone)
    (hlive : ∀ k c, y.system.server.live k = some c → x.system.server.live k = some c)
    (hi : a.entered ∨ ∀ k, y.system.server.live k ≠ some i) : Sound N total y := by
  have hget : ∀ j, y.stages[j]? = if j = i then some a else x.stages[j]? := by
    intro j
    rw [hm.stages, get_set i j a b hm.stage]
  refine ⟨?_,fun j => ?_,fun ha => hm.transport.trans (h.shaking (hm.shaking ha)),fun j n hj => ?_,
    hosts,fun c => ?_,fun c hc => ?_,fun k c hc => ?_⟩
  · have hs := sum_set Stage.permits x.stages i a b hm.stage
    have hp := hm.permits
    have ht := h.permits
    rw [Host.served] at ht ⊢
    rw [hm.stages]
    omega
  · rw [hm.acceptor, h.busy, hget]
    split_ifs with hj
    · simp [hj, hm.handling]
    · simp [hj]
  · rw [hget] at hj
    rw [hm.signals]
    split_ifs at hj
    · exact hm.since n (Option.some.inj hj)
    · exact h.since j n hj
  · rw [hopened, h.opened, hm.stages, List.length_set]
  · rw [hget]
    rcases hclosed c hc with hc | ⟨rfl, rfl⟩
    · have hgone := h.closed c hc
      split_ifs with hj
      · rw [hj, hm.stage] at hgone
        exact absurd (Option.some.inj hgone) hm.gone
      · exact hgone
    · rw [if_pos rfl]
  · rw [hget]
    split_ifs with hj
    · rcases hi with hi | hi
      · exact ⟨a,rfl,hi⟩
      · rw [hj] at hc
        exact absurd hc (hi k)
    · exact h.live k c (hlive k c hc)

theorem Sound.system (h : Sound N total x) (e : Event) (he : SeatedClients.OfParties N e)
    (hopened : (ServerRun.step x.system e).opened = x.system.opened)
    (hclosed : (ServerRun.step x.system e).closed = x.system.closed)
    (hlive : ∀ k c, (ServerRun.step x.system e).server.live k = some c →
      x.system.server.live k = some c ∨ ∃ b, x.stages[c]? = some b ∧ b.entered) :
    Sound N total (x.onSystem e) := by
  refine ⟨h.permits,h.busy,h.shaking,h.since,hosts_step e h.hosts he,fun c => ?_,fun c hc => ?_,
    fun k c hc => ?_⟩
  · rw [Host.onSystem, hopened]
    exact h.opened c
  · rw [Host.onSystem, hclosed] at hc
    exact h.closed c hc
  · rcases hlive k c hc with hc | hc
    · exact h.live k c hc
    · exact hc

theorem Sound.accept (h : Sound N total x) (hx : x.acceptor = x.transport.ready) (uuid : ClientId)
    (now : UInt64) (hp : x.stages.length ∈ N.parties) :
    Sound N total (step x (.accept uuid now)) := by
  have hnew : x.stages.length ∉ x.system.opened := by
    rw [h.opened]
    exact Nat.lt_irrefl _
  have hget : ∀ j < x.stages.length, (x.stages++[Stage.handling])[j]? = x.stages[j]? :=
    fun j hj => List.getElem?_append_left hj
  have hlt : ∀ j b, x.stages[j]? = some b → (x.stages++[Stage.handling])[j]? = some b :=
    fun j b hj => (hget j (List.getElem?_eq_some_iff.mp hj).1).trans hj
  have hstep : ServerRun.step x.system (.accept x.stages.length uuid x.transport.label now) =
      { x.system with
        server := acceptClient x.stages.length uuid x.transport.label now x.system.server
        opened := x.stages.length::x.system.opened } := if_neg hnew
  have hosts := hosts_step (.accept x.stages.length uuid x.transport.label now) h.hosts hp
  refine ⟨?_,fun j => ?_,by simp [step],fun j n hj => ?_,hosts,fun c => ?_,fun c hc => ?_,
    fun k c hc => ?_⟩
  · have ht := h.permits
    rw [Host.served] at ht
    simpa [step, Host.served, Host.onSystem, Stage.permits] using ht
  · have hno : x.stages[j]? ≠ some .handling := by
      rw [Ne, ← h.busy, hx]
      exact x.transport.ready_not_busy j
    simp only [step, Acceptor.busy.injEq]
    rcases Nat.lt_trichotomy j x.stages.length with hj | rfl | hj
    · rw [hget j hj]
      exact ⟨fun he => absurd he (by omega),fun he => absurd he hno⟩
    · simp
    · rw [List.getElem?_eq_none (by rw [List.length_append]; exact hj)]
      exact ⟨fun he => absurd he (by omega),nofun⟩
  · simp only [step, List.getElem?_append] at hj
    split_ifs at hj
    · exact h.since j n hj
    · rw [List.getElem?_singleton] at hj
      split_ifs at hj
      cases hj
  · simp only [step, Host.onSystem, hstep, List.mem_cons, h.opened, List.length_append,
      List.length_singleton]
    exact or_comm.trans Nat.lt_succ_iff_lt_or_eq.symm
  · simp only [step, Host.onSystem, hstep] at hc ⊢
    exact hlt c _ (h.closed c hc)
  · simp only [step, Host.onSystem, hstep] at hc ⊢
    obtain ⟨b, hb, hent⟩ := h.live k c hc
    exact ⟨b,hlt c b hb,hent⟩

theorem Sound.release (h : Sound N total x) (i : ℕ) (hx : x.stages[i]? = some .leaving) :
    Sound N total (step x (.release i)) := by
  have hopen : i ∈ x.system.opened :=
    (h.opened i).mpr (List.getElem?_eq_some_iff.mp hx).1
  have hclosed : i ∉ x.system.closed := by
    intro hi
    have := h.closed i hi
    rw [hx] at this
    cases this
  have hstep : ServerRun.step x.system (.teardown i) =
      { x.system with
        server := teardownClient i x.system.server
        closed := i::x.system.closed } := if_pos ⟨hopen,hclosed⟩
  have hgone : ∀ k, (teardownClient i x.system.server).live k ≠ some i := by
    intro k hk
    rw [teardownClient, Server.live_remove_client] at hk
    split_ifs at hk with hne
    obtain ⟨-, -, hid⟩ := h.hosts.seated.live k i hk
    exact hne hid.symm
  refine h.move _ i .leaving .gone ⟨hx,rfl,rfl,rfl,rfl,fun j => ?_,id,nofun,nofun,nofun⟩
    (hosts_step (.teardown i) h.hosts trivial) ?_ ?_ ?_ ?_
  · refine ⟨fun hj => ⟨hj,?_⟩,And.left⟩
    rintro rfl
    have := (h.busy j).mp hj
    rw [hx] at this
    cases this
  · simp only [step, Host.toStage, Host.onSystem, hstep]
  · intro c hc
    simp only [step, Host.toStage, Host.onSystem, hstep] at hc
    rcases List.mem_cons.mp hc with rfl | hc
    · exact .inr ⟨rfl,rfl⟩
    · exact .inl hc
  · intro k c hc
    simp only [step, Host.toStage, Host.onSystem, hstep] at hc
    exact (fewer_remove x.system.server _).live k c hc
  · refine .inr fun k hk => ?_
    simp only [step, Host.toStage, Host.onSystem, hstep] at hk
    exact hgone k hk

theorem busy_ne (h : Sound N total x) (i j : ℕ) (b : Stage) (hx : x.stages[i]? = some b)
    (hb : b ≠ .handling) : x.acceptor = .busy j ↔ x.acceptor = .busy j ∧ j ≠ i := by
  refine ⟨fun hj => ⟨hj,?_⟩,And.left⟩
  rintro rfl
  have hi := (h.busy j).mp hj
  rw [hx] at hi
  exact hb (Option.some.inj hi)

theorem Sound.toStage (h : Sound N total x) (i : ℕ) (b a : Stage) (hx : x.stages[i]? = some b)
    (hb : b.permits = 1) (ha : a.permits = 1) (hent : a.entered)
    (hn : ∀ n, a = .driving n → n ≤ x.signals) : Sound N total (x.toStage i a) := by
  refine h.move _ i b a ⟨hx,rfl,rfl,by rw [ha, hb, Host.toStage],rfl,fun j => ?_,id,?_,?_,hn⟩
    h.hosts rfl (fun c hc => .inl hc) (fun k c hc => hc) (.inl hent)
  · exact busy_ne h i j b hx (by rintro rfl; cases hb)
  · rintro rfl
    cases ha
  · rintro rfl
    cases hb

/-- A panic unwinds the task: the permit is dropped with it, and nothing else
of what the task does at its end is done. -/
theorem Sound.crash (h : Sound N total x) (i n : ℕ) (hx : x.stages[i]? = some (.driving n)) :
    Sound N total { x.toStage i .crashed with permits := x.permits+1 } :=
  h.move _ i (.driving n) .crashed
    ⟨hx,rfl,rfl,rfl,rfl,fun j => busy_ne h i j _ hx (by simp),id,by simp,by simp,by simp⟩ h.hosts
    rfl (fun c hc => .inl hc) (fun k c hc => hc) (.inl rfl)

theorem Sound.handled (h : Sound N total x) (i : ℕ) (hx : x.acceptor = .busy i) (a : Stage)
    (permits : ℕ) (hp : permits+a.permits = x.permits) (ha : a ≠ .handling)
    (hn : ∀ n, a ≠ .driving n) :
    Sound N total { x.toStage i a with acceptor := .looping, permits := permits } := by
  have hi := (h.busy i).mp hx
  refine h.move _ i .handling a ⟨hi,rfl,rfl,hp,rfl,fun j => ?_,nofun,ha,nofun,
    fun n he => absurd he (hn n)⟩ h.hosts rfl (fun c hc => .inl hc) (fun k c hc => hc)
    (.inr fun k hk => ?_)
  · rw [hx]
    simp [eq_comm]
  · obtain ⟨b, hb, hent⟩ := h.live k i hk
    rw [hi] at hb
    cases hb
    cases hent

theorem Sound.idle (h : Sound N total x) (a : Acceptor) (hx : ∀ i, x.acceptor ≠ .busy i)
    (ha : ∀ i, a ≠ .busy i) (hshaking : a = .shaking → x.transport = .webSocket) :
    Sound N total { x with acceptor := a } := by
  refine ⟨h.permits,fun j => ⟨fun hj => absurd hj (ha j),fun hj => ?_⟩,hshaking,h.since,h.hosts,
    h.opened,h.closed,h.live⟩
  exact absurd ((h.busy j).mpr hj) (hx j)

theorem Sound.step (e : Act) (h : Sound N total x) (hen : Enabled x e) (he : OfParties N x e) :
    Sound N total (ServerHost.step x e) := by
  cases e with
  | greet => exact h.idle .shaking (by simp [hen.2]) (by simp) fun _ => hen.1
  | refuse =>
    have hx : x.acceptor = .shaking := hen
    exact h.idle .looping (by simp [hx]) (by simp) (by simp)
  | accept uuid now => exact h.accept hen uuid now he
  | acceptFails =>
    have hx : x.acceptor = .looping := hen
    exact h.idle .failed (by simp [hx]) (by simp) (by simp)
  | reject =>
    obtain ⟨i, hi⟩ := hen
    simp only [ServerHost.step, hi]
    exact h.handled i hi .gone x.permits rfl (by simp) (by simp)
  | permit =>
    obtain ⟨⟨i, hi⟩, hp⟩ := hen
    simp only [ServerHost.step, hi]
    exact h.handled i hi .spawned _ (Nat.sub_add_cancel hp) (by simp) (by simp)
  | start i =>
    refine h.toStage i .spawned _ hen rfl rfl rfl fun n hn => ?_
    cases hn
    exact Nat.le_refl _
  | frame i env f =>
    obtain ⟨n, hn⟩ := hen
    have hopen : i ∈ x.system.opened := (h.opened i).mpr (List.getElem?_eq_some_iff.mp hn).1
    simp only [ServerHost.step]
    split
    · refine h.system (.frame i env f) he ?_ ?_ fun k c hc => ?_
      · rw [ServerRun.step, if_pos hopen]
      · rw [ServerRun.step, if_pos hopen]
      · rw [ServerRun.step, if_pos hopen] at hc
        rcases receive_live env i f x.system.server k c hc with hc | ⟨rfl, -⟩
        · exact .inl hc
        · exact .inr ⟨_,hn,rfl⟩
    · exact h.crash i n hn
  | finish i =>
    obtain ⟨n, hn⟩ := hen
    exact h.toStage i _ .leaving hn rfl rfl rfl (by simp)
  | obey i =>
    obtain ⟨n, -, hn⟩ := hen
    exact h.toStage i _ .leaving hn rfl rfl rfl (by simp)
  | release i => exact h.release i hen
  | stop =>
    refine h.idle .stopped (fun i => ?_) (by simp) (by simp)
    rcases hen.1 with hx | hx
    · simp [hx]
    · simp [hx]
  | signal =>
    exact ⟨h.permits,h.busy,h.shaking,fun i n hn => Nat.le_succ_of_le (h.since i n hn),h.hosts,
      h.opened,h.closed,h.live⟩
  | inactiveSweep now =>
    exact h.system (.inactiveSweep now) trivial rfl rfl
      fun k c hc => .inl ((fewer_sweep x.system.server now).live k c hc)
  | ackSweep env =>
    exact h.system (.ackSweep env) trivial rfl rfl
      fun k c hc => .inl (((sweep_acks_quiet env x.system.server).live k).symm.trans hc)
  | ghostSweep now =>
    exact h.system (.ghostSweep now) trivial rfl rfl
      fun k c hc => .inl ((fewer_ghosts x.system.server now).live k c hc)

theorem sound_opened (transport : Transport) (total : ℕ) (config : RexSystemConfig)
    (cluster : ClusterPort) (db : Option SledDb) (clients : Clients)
    (hs : ∀ d, (clients d).sender = d) :
    Sound N total (ServerHost.opened transport total (start config cluster db clients)) := by
  refine ⟨rfl,fun i => ⟨nofun,nofun⟩,nofun,nofun,hosts_start config cluster db clients hs,
    fun c => ⟨nofun,nofun⟩,nofun,fun k c hc => ?_⟩
  have hnone := live_start config cluster db clients k
  exact absurd (hnone.symm.trans hc) nofun

end Steps

/-- What the host of parties may do next. -/
def Admitted (N : Naming) (x : Host) (e : Act) : Prop := Enabled x e ∧ OfParties N x e

theorem sound_always (N : Naming) (total : ℕ) (x : Host) (es : List Act) (h : Sound N total x)
    (hes : Along step (Admitted N) x es) : Always step (Sound N total) x es :=
  always_of_along step (Admitted N) (Sound N total) (fun _ e hs he => hs.step e he.1 he.2) x es h
    hes

theorem Sound.count_le {N : Naming} {total : ℕ} {x : Host} (h : Sound N total x) :
    x.system.server.registry.clientCount ≤ x.served+x.crashed := by
  have hlive : ∀ e ∈ x.system.server.registry.id2client.entries,
      x.system.server.live e.1 = some e.2 :=
    fun e he => AList.mem_lookup_iff.mpr he
  have hnodup : (x.system.server.registry.id2client.entries.map Sigma.snd).Nodup := by
    refine List.Nodup.of_map N.idOf ?_
    have hkeys : (x.system.server.registry.id2client.entries.map Sigma.snd).map N.idOf =
        x.system.server.registry.id2client.keys := by
      rw [List.map_map]
      exact List.map_congr_left fun e he => (h.hosts.seated.live e.1 e.2 (hlive e he)).2.1.symm
    rw [hkeys]
    exact x.system.server.registry.id2client.nodupKeys
  rw [ClientRegistryImpl.clientCount, ← List.length_map Sigma.snd, Host.served, Host.crashed,
    ← List.sum_map_add]
  refine length_le_sum (fun b => b.permits+b.crashes) x.stages _ hnodup fun i hi => ?_
  obtain ⟨e, he, rfl⟩ := List.mem_map.mp hi
  obtain ⟨b, hb, hent⟩ := h.live e.1 e.2 (hlive e he)
  refine ⟨b,hb,?_⟩
  cases b with
  | driving n | leaving | crashed => exact Nat.le_refl _
  | handling | spawned | gone => cases hent

section Crashes
variable {x : Host}

theorem uncrashed_set (h : .crashed ∉ x.stages) (i : ℕ) (a : Stage) (ha : a ≠ .crashed) :
    .crashed ∉ (x.toStage i a).stages := by
  intro hmem
  rcases List.mem_or_eq_of_mem_set hmem with hmem | hmem
  · exact h hmem
  · exact ha hmem.symm

theorem uncrashed_step (h : .crashed ∉ x.stages) (e : Act)
    (he : ∀ i env f, e = .frame i env f → Fits f) : .crashed ∉ (step x e).stages := by
  cases e with
  | frame i env f =>
    obtain ⟨t, ht⟩ := handle_ok env i f x.system.server (he i env f rfl)
    simp only [step, ht]
    exact h
  | accept uuid now =>
    intro hmem
    rcases List.mem_append.mp hmem with hmem | hmem
    · exact h hmem
    · cases List.mem_singleton.mp hmem
  | reject =>
    simp only [step]
    split
    · exact uncrashed_set h _ .gone (by simp)
    · exact h
  | permit =>
    simp only [step]
    split
    · exact uncrashed_set h _ .spawned (by simp)
    · exact h
  | start i => exact uncrashed_set h i _ (by simp)
  | finish i | obey i => exact uncrashed_set h i .leaving (by simp)
  | release i => exact uncrashed_set h i .gone (by simp)
  | greet | refuse | acceptFails | stop | signal | inactiveSweep now | ackSweep env
  | ghostSweep now => exact h

theorem crashed_of_not_mem (h : .crashed ∉ x.stages) : x.crashed = 0 := by
  refine List.sum_eq_zero fun n hn => ?_
  obtain ⟨b, hb, rfl⟩ := List.mem_map.mp hn
  cases b with
  | crashed => exact absurd hb h
  | handling | spawned | driving n | leaving | gone => rfl

end Crashes

/-- Where every connection has an id of its own: whatever the tasks do, the
connections being served and the free permits make up the configured number,
and the registered clients are at most the connections being served and those
whose task a panic has ended, of which there are none as long as the frames
fit their fields. -/
theorem clients_within_permits (N : Naming) (transport : Transport) (maxConcurrentHandlers : ℕ)
    (config : RexSystemConfig) (cluster : ClusterPort) (db : Option SledDb) (clients : Clients)
    (hs : ∀ d, (clients d).sender = d) (es : List Act)
    (hes : Along step (Admitted N)
      (opened transport maxConcurrentHandlers (start config cluster db clients)) es) :
    Always step (fun x => x.system.server.registry.clientCount ≤ x.served+x.crashed ∧
        x.permits+x.served = maxConcurrentHandlers)
      (opened transport maxConcurrentHandlers (start config cluster db clients)) es ∧
    ((∀ i env f, .frame i env f ∈ es → Fits f) →
      Always step (fun x => x.crashed = 0)
        (opened transport maxConcurrentHandlers (start config cluster db clients)) es) := by
  refine ⟨always_mono step _ _ (fun _ h => ⟨h.count_le,h.permits⟩) _ es
    (sound_always N maxConcurrentHandlers _ es
      (sound_opened transport _ config cluster db clients hs) hes),fun hfits => ?_⟩
  refine always_mono step _ _ (fun _ h => crashed_of_not_mem h) _ es
    (always_of_along step (fun _ e => ∀ i env f, e = .frame i env f → Fits f)
      (fun x => .crashed ∉ x.stages) (fun _ e h he => uncrashed_step h e he) _ es
      List.not_mem_nil (along_of_forall step _ es (fun _ e he i env f hf => ?_) _))
  exact hfits i env f (hf ▸ he)

/-- With a single permit, a second connection is taken up and has to wait. -/
def crowdedRun : List Act :=
  [.greet,.accept 5 0,.permit,.start 0,.frame 0 quietEnv (loginFrame 100 [65]),.greet,.accept 6 0]

theorem crowded_run_admitted :
    Along step (Admitted pair) (opened .webSocket 1 (start plainConfig .noop none unusedClients))
      crowdedRun := by
  have h0 : 0 ∈ pair.parties := Nat.zero_lt_two
  have h1 : 1 ∈ pair.parties := Nat.one_lt_two
  exact ⟨⟨⟨rfl,rfl⟩,trivial⟩,⟨rfl,h0⟩,⟨⟨⟨0,rfl⟩,Nat.one_pos⟩,trivial⟩,⟨rfl,trivial⟩,
    ⟨⟨0,rfl⟩,.inr (by decide +kernel)⟩,⟨⟨by rfl,by rfl⟩,trivial⟩,⟨by rfl,h1⟩,trivial⟩

/-- A title that is longer than its frame, under the id of the first client. -/
def overlong : RexData := ⟨writeWord 128 20 (pair.idOf 0) titleOutside⟩

/-- The first client sends a title that is longer than its frame, and the
second connection gets its permit and logs in. -/
def panicRun : List Act :=
  crowdedRun++[.frame 0 quietEnv overlong,.permit,.start 1,
    .frame 1 quietEnv (loginFrame 101 [65])]

theorem panic_run_admitted :
    Along step (Admitted pair) (opened .webSocket 1 (start plainConfig .noop none unusedClients))
      panicRun :=
  along_append _ _ _ _ _ crowded_run_admitted
    ⟨⟨⟨0,by rfl⟩,.inr (by decide +kernel)⟩,⟨⟨⟨1,by rfl⟩,by decide +kernel⟩,trivial⟩,
    ⟨by rfl,trivial⟩,⟨⟨0,by rfl⟩,.inr (by decide +kernel)⟩,trivial⟩

def panicked : Host :=
  panicRun.foldl step (opened .webSocket 1 (start plainConfig .noop none unusedClients))

theorem panic_within_permits :
    (panicked.system.server.registry.clientCount = 2 ∧ panicked.served = 1 ∧
      panicked.crashed = 1) ∧
    Always step (fun x => x.system.server.registry.clientCount ≤ x.served+x.crashed ∧
        x.permits+x.served = 1)
      (opened .webSocket 1 (start plainConfig .noop none unusedClients)) panicRun ∧
    Always step (fun x => x.crashed = 0)
      (opened .webSocket 1 (start plainConfig .noop none unusedClients)) crowdedRun := by
  refine ⟨by decide +kernel,(clients_within_permits pair .webSocket 1 plainConfig .noop none
    unusedClients (fun _ => rfl) panicRun panic_run_admitted).1,
    (clients_within_permits pair .webSocket 1 plainConfig .noop none unusedClients (fun _ => rfl)
      crowdedRun crowded_run_admitted).2 fun i env f hf => ?_⟩
  have hf' : f = loginFrame 100 [65] := by
    simp only [crowdedRun, List.mem_cons, List.not_mem_nil, or_false, reduceCtorEq, false_or,
      Act.frame.injEq] at hf
    exact hf.2.2
  rw [hf']
  exact (named_wire (fun _ => True) .login (by decide) 100 [65] (by decide) trivial).fits

end RexMq.ServerHost
