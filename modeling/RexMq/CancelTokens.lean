import Mathlib.Tactic.Common
import RexMq.ServerRun

/-!
# Cancellation tokens of the driver loops

A driver loop registers its token under the id its peer has when the loop
starts and unregisters the id the peer has when the loop ends. A login in
between changes that id, and the streams of one QUIC connection share a
peer. The runs in which an admin can cancel every live client, and in which
ended loops leave nothing behind, are those in which the key never moves
under a running loop.
-/

set_option autoImplicit false

namespace RexMq.CancelTokens
open RexMq.FiniteRun RexMq.FrameData RexMq.ClientRegistry RexMq.PersistentStore
open RexMq.ServerState RexMq.Handlers RexMq.HandlerEffects RexMq.ServerRun

/-- A driver loop and its token share one number. -/
abbrev LoopId := ℕ

structure Drivers where
  system : System
  loops : AList (fun _ : LoopId => ClientRef)
  ended : List LoopId
  clientShutdowns : AList (fun _ : ClientId => LoopId)
  cancelled : List LoopId

namespace Drivers

def server (y : Drivers) : Server := y.system.server

def runningPeer (l : LoopId) (y : Drivers) : Option ClientRef :=
  if l ∈ y.ended then none else y.loops.lookup l

def registerClientShutdown (k : ClientId) (l : LoopId) (y : Drivers) : Drivers :=
  { y with clientShutdowns := y.clientShutdowns.insert k l }

def unregisterClientShutdown (k : ClientId) (y : Drivers) : Drivers :=
  { y with clientShutdowns := y.clientShutdowns.erase k }

def cancelClient (k : ClientId) (y : Drivers) : Bool × Drivers :=
  match y.clientShutdowns.lookup k with
  | some l => (true,{ y with cancelled := l::y.cancelled })
  | none => (false,y)

end Drivers

/-- `finish` is the end of a loop for whatever reason: end of input, error,
shutdown or cancellation. -/
inductive DriverEvent where
  | accept (c : ClientRef) (uuid : ClientId) (transport : String) (now : UInt64)
  | start (l : LoopId) (c : ClientRef)
  | frame (l : LoopId) (env : Env) (f : RexData)
  | finish (l : LoopId)
  | teardown (c : ClientRef)
  | cancel (k : ClientId)

def driverStep (y : Drivers) : DriverEvent → Drivers
  | .accept c uuid transport now =>
    { y with system := step y.system (.accept c uuid transport now) }
  | .start l c =>
    if c ∈ y.system.opened ∧ l ∉ y.loops then
      { y with loops := y.loops.insert l c }.registerClientShutdown (y.server.clients c).id l
    else y
  | .frame l env f =>
    match y.runningPeer l with
    | some c => { y with system := step y.system (.frame c env f) }
    | none => y
  | .finish l =>
    match y.runningPeer l with
    | some c =>
      { y with ended := l::y.ended }.unregisterClientShutdown (y.server.clients c).id
    | none => y
  | .teardown c => { y with system := step y.system (.teardown c) }
  | .cancel k => (y.cancelClient k).2

def driverStart (config : RexSystemConfig) (cluster : ClusterPort) (db : Option SledDb)
    (clients : Clients) : Drivers :=
  ⟨start config cluster db clients,∅,[],∅,[]⟩

/-- Cancelling a live id cancels the token of every running loop of its
connection, and every entry belongs to a connection with a running loop. -/
structure Cancellable (y : Drivers) : Prop where
  reached : ∀ k c l, y.server.live k = some c → y.runningPeer l = some c →
    y.cancelClient k = (true,{ y with cancelled := l::y.cancelled })
  cleared : ∀ c, (∀ l, y.runningPeer l ≠ some c) →
    ∀ k l, y.clientShutdowns.lookup k = some l → y.loops.lookup l ≠ some c

/-- The key of a loop does not move: a loop starts under the id its
connection is registered with and alone, a login takes the key of all
running loops, and a loop ends under the only key of its connection and
leaves no other loop behind that needs it. -/
def Aligned (y : Drivers) : DriverEvent → Prop
  | .start l c => c ∈ y.system.opened → l ∉ y.loops →
      (∀ k, y.server.live k = some c →
        (y.server.clients c).id = k ∧ ∀ l', y.runningPeer l' ≠ some c) ∧
      ∀ d, d ≠ c → y.server.live (y.server.clients c).id = some d →
        ∀ l', y.runningPeer l' ≠ some d
  | .frame l _ f => ∀ c k title, y.runningPeer l = some c → f.command = .ok .login →
      f.source = .ok k → f.title = .ok title → y.server.live k = none →
      ∀ l', y.runningPeer l' = some c → y.clientShutdowns.lookup k = some l'
  | .finish l => ∀ c, y.runningPeer l = some c →
      ((∀ l', y.runningPeer l' = some c → l' = l) → ∀ k l',
        y.clientShutdowns.lookup k = some l' → y.loops.lookup l' = some c →
        k = (y.server.clients c).id) ∧
      ∀ d l', y.server.live (y.server.clients c).id = some d → y.runningPeer l' = some d → l' = l
  | _ => True

theorem cancel_client_iff (k : ClientId) (l : LoopId) (y : Drivers) :
    y.cancelClient k = (true,{ y with cancelled := l::y.cancelled }) ↔
      y.clientShutdowns.lookup k = some l := by
  unfold Drivers.cancelClient
  cases h : y.clientShutdowns.lookup k with
  | none => simp
  | some l' =>
    simp only [Prod.mk.injEq, true_and, Option.some.injEq, Drivers.mk.injEq, List.cons.injEq,
      and_true]

theorem Cancellable.registered {y : Drivers} (h : Cancellable y) (k : ClientId) (c : ClientRef)
    (l : LoopId) (hk : y.server.live k = some c) (hr : y.runningPeer l = some c) :
    y.clientShutdowns.lookup k = some l :=
  (cancel_client_iff k l y).mp (h.reached k c l hk hr)

structure Kept (y : Drivers) : Prop where
  cancellable : Cancellable y
  opened : ∀ l c, y.runningPeer l = some c → c ∈ y.system.opened
  started : ∀ k l, y.clientShutdowns.lookup k = some l → l ∈ y.loops
  finished : ∀ l ∈ y.ended, l ∈ y.loops

section Steps
variable (y : Drivers)

theorem running_peer_iff (l : LoopId) (c : ClientRef) :
    y.runningPeer l = some c ↔ l ∉ y.ended ∧ y.loops.lookup l = some c := by
  unfold Drivers.runningPeer
  split_ifs with hl
  · simp [hl]
  · simp [hl]

theorem loop_of_lookup (l : LoopId) (c : ClientRef) (h : y.loops.lookup l = some c) :
    l ∈ y.loops := AList.lookup_isSome.mp (by rw [h]; rfl)

/-- A change of the sessions alone, to ids that were live already or whose
key every running loop of the object has. -/
theorem kept_system (z : System) (h : Kept y) (ho : ∀ c ∈ y.system.opened, c ∈ z.opened)
    (hl : ∀ k c, z.server.live k = some c → y.server.live k = some c ∨
      ∀ l, y.runningPeer l = some c → y.clientShutdowns.lookup k = some l) :
    Kept { y with system := z } := by
  refine ⟨⟨fun k c l hk hr => ?_,h.cancellable.cleared⟩,fun l c hr => ho c (h.opened l c hr),
    h.started,h.finished⟩
  rw [cancel_client_iff]
  rcases hl k c hk with hk | hall
  · exact h.cancellable.registered k c l hk hr
  · exact hall l hr

theorem kept_accept (c : ClientRef) (uuid : ClientId) (transport : String) (now : UInt64)
    (h : Kept y) : Kept (driverStep y (.accept c uuid transport now)) := by
  refine kept_system y _ h (fun d hd => ?_) (fun k d hk => .inl ?_)
  · simp only [step]
    split_ifs
    · exact hd
    · exact List.mem_cons_of_mem c hd
  · simp only [step] at hk
    split_ifs at hk <;> exact hk

theorem kept_teardown (c : ClientRef) (h : Kept y) : Kept (driverStep y (.teardown c)) := by
  refine kept_system y _ h (fun d hd => ?_) (fun k d hk => .inl ?_)
  · simp only [step]
    split_ifs <;> exact hd
  · simp only [step] at hk
    split_ifs at hk
    · rw [teardownClient, Server.live_remove_client] at hk
      split_ifs at hk
      exact hk
    · exact hk

theorem step_frame (l : LoopId) (env : Env) (f : RexData) (c : ClientRef) (h : Kept y)
    (hr : y.runningPeer l = some c) : driverStep y (.frame l env f) =
      { y with system := { y.system with server := receiveFrame env c f y.server } } := by
  have hopen : c ∈ y.system.opened := h.opened l c hr
  simp only [driverStep, hr, step, hopen, if_true]
  rfl

theorem kept_frame (l : LoopId) (env : Env) (f : RexData) (h : Kept y)
    (ha : Aligned y (.frame l env f)) : Kept (driverStep y (.frame l env f)) := by
  cases hr : y.runningPeer l with
  | none =>
    simp only [driverStep, hr]
    exact h
  | some c =>
    rw [step_frame y l env f c h hr]
    refine kept_system y _ h (fun d hd => hd) (fun k d hk => ?_)
    rcases receive_live env c f y.server k d hk with hk | ⟨rfl, hn, hc, hs, title, ht⟩
    · exact .inl hk
    · exact .inr (ha d k title hr hc hs ht hn)

theorem frame_cancellable (l : LoopId) (env : Env) (f : RexData) (h : Kept y)
    (hc : Cancellable (driverStep y (.frame l env f))) : Aligned y (.frame l env f) := by
  intro c k title hr hcmd hsrc ht hn l' hr'
  rw [step_frame y l env f c h hr] at hc
  have hlive : (receiveFrame env c f y.server).live k = some c := by
    rw [(receive_login env c f y.server k title hcmd hsrc ht).live, login, hn]
    exact (live_enroll env c k title y.server k).trans (if_pos rfl)
  exact hc.registered k c l' hlive hr'

theorem step_start (l : LoopId) (c : ClientRef) (ho : c ∈ y.system.opened) (hl : l ∉ y.loops) :
    driverStep y (.start l c) =
      { y with loops := y.loops.insert l c
               clientShutdowns := y.clientShutdowns.insert (y.server.clients c).id l } :=
  if_pos ⟨ho,hl⟩

theorem running_peer_start (l : LoopId) (c : ClientRef) (h : Kept y)
    (ho : c ∈ y.system.opened) (hl : l ∉ y.loops) (l' : LoopId) :
    (driverStep y (.start l c)).runningPeer l' =
      if l' = l then some c else y.runningPeer l' := by
  have hfresh : l ∉ y.ended := fun he => hl (h.finished l he)
  rw [step_start y l c ho hl]
  unfold Drivers.runningPeer
  by_cases hll : l' = l
  · subst hll
    simp [hfresh]
  · simp [hll, AList.lookup_insert_ne]

theorem ne_of_running (l l' : LoopId) (d : ClientRef) (hl : l ∉ y.loops)
    (hr : y.runningPeer l' = some d) : l' ≠ l := by
  rintro rfl
  exact hl (loop_of_lookup y l' d ((running_peer_iff y l' d).mp hr).2)

theorem kept_start (l : LoopId) (c : ClientRef) (h : Kept y) (ha : Aligned y (.start l c)) :
    Kept (driverStep y (.start l c)) := by
  by_cases hg : c ∈ y.system.opened ∧ l ∉ y.loops
  swap
  · simp only [driverStep, if_neg hg]
    exact h
  obtain ⟨ho, hl⟩ := hg
  obtain ⟨hown, hother⟩ := ha ho hl
  have hpeer := running_peer_start y l c h ho hl
  rw [step_start y l c ho hl] at hpeer ⊢
  refine ⟨⟨fun k d l' hk hr => ?_,fun d hd k l' he => ?_⟩,fun l' d hr => ?_,fun k l' he => ?_,
    fun l' he => AList.mem_insert _ |>.mpr (.inr (h.finished l' he))⟩
  · rw [cancel_client_iff]
    rw [hpeer] at hr
    split_ifs at hr with hll
    · cases hr
      rw [hll, (hown k hk).1]
      exact AList.lookup_insert _
    · by_cases hid : k = (y.server.clients c).id
      · -- a second loop under this key: its peer is neither `c` nor another object
        by_cases hd : d = c
        · rw [hd] at hk hr
          exact absurd hr ((hown k hk).2 l')
        · rw [hid] at hk
          exact absurd hr (hother d hd hk l')
      · rw [AList.lookup_insert_ne hid]
        exact h.cancellable.registered k d l' hk hr
  · have hrest : ∀ l'', y.runningPeer l'' ≠ some d := by
      intro l'' hr
      refine hd l'' ?_
      rw [hpeer, if_neg (ne_of_running y l l'' d hl hr)]
      exact hr
    by_cases hid : k = (y.server.clients c).id
    · rw [hid, AList.lookup_insert, Option.some.injEq] at he
      rw [← he, AList.lookup_insert]
      rintro hcd
      exact hd l (by rw [hpeer, if_pos rfl, hcd])
    · rw [AList.lookup_insert_ne hid] at he
      have hne : l' ≠ l := fun hll => hl (hll ▸ h.started k l' he)
      rw [AList.lookup_insert_ne hne]
      exact h.cancellable.cleared d hrest k l' he
  · rw [hpeer] at hr
    split_ifs at hr
    · cases hr
      exact ho
    · exact h.opened l' d hr
  · by_cases hid : k = (y.server.clients c).id
    · rw [hid, AList.lookup_insert, Option.some.injEq] at he
      exact AList.mem_insert _ |>.mpr (.inl he.symm)
    · rw [AList.lookup_insert_ne hid] at he
      exact AList.mem_insert _ |>.mpr (.inr (h.started k l' he))

theorem start_cancellable (l : LoopId) (c : ClientRef) (h : Kept y)
    (hc : Cancellable (driverStep y (.start l c))) : Aligned y (.start l c) := by
  intro ho hl
  have hpeer := running_peer_start y l c h ho hl
  rw [step_start y l c ho hl] at hpeer hc
  have hnew : ∀ l' d, y.runningPeer l' = some d → l' ≠ l ∧
      ∀ k, y.server.live k = some d →
        (y.clientShutdowns.insert (y.server.clients c).id l).lookup k = some l' := by
    intro l' d hr
    have hll := ne_of_running y l l' d hl hr
    refine ⟨hll,fun k hk => hc.registered k d l' hk ?_⟩
    rw [hpeer, if_neg hll]
    exact hr
  refine ⟨fun k hk => ?_,fun d _ hk l' hr => ?_⟩
  · have hkl := hc.registered k c l hk (by rw [hpeer, if_pos rfl])
    have hid : (y.server.clients c).id = k := by
      by_contra hne
      rw [AList.lookup_insert_ne (Ne.symm hne)] at hkl
      exact hl (h.started k l hkl)
    refine ⟨hid,fun l' hr => ?_⟩
    have hl' := (hnew l' c hr).2 k hk
    rw [hkl] at hl'
    cases hl'
    exact (hnew l c hr).1 rfl
  · have hl' := (hnew l' d hr).2 _ hk
    rw [AList.lookup_insert, Option.some.injEq] at hl'
    exact (hnew l' d hr).1 hl'.symm

theorem step_finish (l : LoopId) (c : ClientRef) (hr : y.runningPeer l = some c) :
    driverStep y (.finish l) =
      { y with ended := l::y.ended
               clientShutdowns := y.clientShutdowns.erase (y.server.clients c).id } := by
  simp only [driverStep, hr]
  rfl

theorem running_peer_finish (l : LoopId) (c : ClientRef) (hr : y.runningPeer l = some c)
    (l' : LoopId) : (driverStep y (.finish l)).runningPeer l' =
      if l' = l then none else y.runningPeer l' := by
  rw [step_finish y l c hr]
  unfold Drivers.runningPeer
  by_cases hll : l' = l
  · simp [hll]
  · simp [hll]

theorem kept_finish (l : LoopId) (h : Kept y) (ha : Aligned y (.finish l)) :
    Kept (driverStep y (.finish l)) := by
  cases hr : y.runningPeer l with
  | none =>
    simp only [driverStep, hr]
    exact h
  | some c =>
    obtain ⟨honly, hneeded⟩ := ha c hr
    have hpeer := running_peer_finish y l c hr
    rw [step_finish y l c hr] at hpeer ⊢
    have hrest : ∀ k l', (y.clientShutdowns.erase (y.server.clients c).id).lookup k = some l' →
        k ≠ (y.server.clients c).id ∧ y.clientShutdowns.lookup k = some l' := by
      intro k l' he
      by_cases hid : k = (y.server.clients c).id
      · rw [hid, AList.lookup_erase] at he
        cases he
      · rw [AList.lookup_erase_ne hid] at he
        exact ⟨hid,he⟩
    refine ⟨⟨fun k d l' hk hr' => ?_,fun d hd k l' he => ?_⟩,fun l' d hr' => ?_,fun k l' he => ?_,
      fun l' he => ?_⟩
    · rw [hpeer] at hr'
      split_ifs at hr' with hll
      have hid : k ≠ (y.server.clients c).id := by
        rintro rfl
        exact hll (hneeded d l' hk hr')
      rw [cancel_client_iff, AList.lookup_erase_ne hid]
      exact h.cancellable.registered k d l' hk hr'
    · obtain ⟨hid, he'⟩ := hrest k l' he
      by_cases hdc : d = c
      · subst hdc
        intro hlk
        refine hid (honly (fun l'' hr'' => ?_) k l' he' hlk)
        by_contra hne
        exact hd l'' (by rw [hpeer, if_neg hne, hr''])
      · refine h.cancellable.cleared d (fun l'' hr'' => ?_) k l' he'
        have hne : l'' ≠ l := by
          rintro rfl
          rw [hr, Option.some.injEq] at hr''
          exact hdc hr''.symm
        exact hd l'' (by rw [hpeer, if_neg hne, hr''])
    · rw [hpeer] at hr'
      split_ifs at hr'
      exact h.opened l' d hr'
    · exact h.started k l' (hrest k l' he).2
    · rcases List.mem_cons.mp he with rfl | he
      · exact loop_of_lookup y l' c ((running_peer_iff y l' c).mp hr).2
      · exact h.finished l' he

theorem finish_cancellable (l : LoopId) (hc : Cancellable (driverStep y (.finish l))) :
    Aligned y (.finish l) := by
  intro c hr
  have hpeer := running_peer_finish y l c hr
  rw [step_finish y l c hr] at hpeer hc
  refine ⟨fun hone k l' he hlk => ?_,fun d l' hk hr' => ?_⟩
  · by_contra hid
    refine hc.cleared c (fun l'' hr'' => ?_) k l' (by rwa [AList.lookup_erase_ne hid]) hlk
    rw [hpeer] at hr''
    split_ifs at hr'' with hll
    exact hll (hone l'' hr'')
  · by_contra hll
    have hl' := hc.registered _ d l' hk (by rw [hpeer, if_neg hll, hr'])
    rw [AList.lookup_erase] at hl'
    cases hl'

theorem kept_cancel (k : ClientId) (h : Kept y) : Kept (driverStep y (.cancel k)) := by
  simp only [driverStep, Drivers.cancelClient]
  cases y.clientShutdowns.lookup k with
  | none => exact h
  | some l =>
    refine ⟨⟨fun j c l' hk hr => ?_,h.cancellable.cleared⟩,h.opened,h.started,h.finished⟩
    exact (cancel_client_iff j l' _).mpr (h.cancellable.registered j c l' hk hr)

theorem kept_driver_step (e : DriverEvent) (h : Kept y) (ha : Aligned y e) :
    Kept (driverStep y e) := by
  cases e with
  | accept c uuid transport now => exact kept_accept y c uuid transport now h
  | start l c => exact kept_start y l c h ha
  | frame l env f => exact kept_frame y l env f h ha
  | finish l => exact kept_finish y l h ha
  | teardown c => exact kept_teardown y c h
  | cancel k => exact kept_cancel y k h

theorem aligned_of_cancellable (e : DriverEvent) (h : Kept y)
    (hc : Cancellable (driverStep y e)) : Aligned y e := by
  cases e with
  | start l c => exact start_cancellable y l c h hc
  | frame l env f => exact frame_cancellable y l env f h hc
  | finish l => exact finish_cancellable y l hc
  | accept c uuid transport now => trivial
  | teardown c => trivial
  | cancel k => trivial

end Steps

theorem kept_driver_start (config : RexSystemConfig) (cluster : ClusterPort) (db : Option SledDb)
    (clients : Clients) : Kept (driverStart config cluster db clients) where
  cancellable :=
    { reached := fun k c _ hk _ => by
        have hn : (driverStart config cluster db clients).server.live k = none :=
          live_start config cluster db clients k
        rw [hn] at hk
        cases hk
      cleared := fun _ _ _ _ he => by cases he }
  opened := fun _ _ hr => by cases hr
  started := fun _ _ he => by cases he
  finished := fun _ he => by cases he

/-- Along the connections' starts, logins and ends the map stays in step with
the running loops exactly as long as no key moves under a running loop. -/
theorem cancellable_run_iff (config : RexSystemConfig) (cluster : ClusterPort)
    (db : Option SledDb) (clients : Clients) (es : List DriverEvent) :
    Always driverStep Cancellable (driverStart config cluster db clients) es ↔
      Along driverStep Aligned (driverStart config cluster db clients) es := by
  apply always_iff_along driverStep Aligned Kept Cancellable
  · exact fun y h => h.cancellable
  · exact fun y e h ha => kept_driver_step y e h ha
  · exact fun y e h hn hc => hn (aligned_of_cancellable y e h hc)
  · exact kept_driver_start config cluster db clients

/-- One connection that logs in: its loop runs, its id is live, and the entry
still stands under the id drawn at accept, where it stays after the loop. -/
theorem login_moves_cancel_key :
    let y := [DriverEvent.accept 0 1 "tcp" 0, .start 0 0, .frame 0 quietEnv (loginFrame 7 [])].foldl
      driverStep (driverStart plainConfig .noop none unusedClients)
    y.server.live 7 = some 0 ∧ y.runningPeer 0 = some 0 ∧ (y.cancelClient 7).1 = false ∧
      (driverStep y (.finish 0)).runningPeer 0 = none ∧
      (driverStep y (.finish 0)).clientShutdowns.lookup 1 = some 0 := by
  decide +kernel

end RexMq.CancelTokens
