import Mathlib.Tactic.Common
import RexMq.ServerHost

/-!
# Shutting a server down

The signal is broadcast once. It reaches the accept loop and every driver
built before it, and their tasks then take their clients out and end. A
connection that was still being handled, or whose task had not run yet, builds
its driver after the signal and is served on as if there had been none; and
while a peer holds up its WebSocket handshake, the accept loop does not hear
the signal.
-/

set_option autoImplicit false

namespace RexMq.GracefulShutdown
open RexMq.FiniteRun RexMq.ListWeights RexMq.ClientRegistry RexMq.PersistentStore
open RexMq.ServerState RexMq.HandlerEffects RexMq.FrameAccess RexMq.SeatedClients
open RexMq.MannedNetwork RexMq.ServerHost
open RexMq.ServerRun hiding step

/-- What the tasks do by themselves, with no peer, timer or signal. -/
def Internal : Act → Prop
  | .permit | .start _ | .obey _ | .release _ | .stop => True
  | _ => False

def Settled (x : Host) : Prop := ∀ e, Internal e → ¬ Enabled x e

/-- The step is a frame of the connection that a handler cannot take. -/
def Panics (i : ℕ) (e : Act) : Prop := ∃ env f, e = .frame i env f ∧ ¬ Fits f

/-- The ways in which one task can be seen to change in a step. -/
inductive Change (signals : ℕ) (panics : Prop) : Option Stage → Option Stage → Prop where
  | same (a : Option Stage) : Change signals panics a a
  | accepted : Change signals panics none (some .handling)
  | rejected : Change signals panics (some .handling) (some .gone)
  | admitted : Change signals panics (some .handling) (some .spawned)
  | started : Change signals panics (some .spawned) (some (.driving signals))
  | ended (n : ℕ) : Change signals panics (some (.driving n)) (some .leaving)
  | released : Change signals panics (some .leaving) (some .gone)
  | crashed (n : ℕ) : panics → Change signals panics (some (.driving n)) (some .crashed)

section Steps
variable {N : Naming} {total : ℕ} {x : Host}

theorem change_set {panics : Prop} (i j : ℕ) (a b : Stage) (h : x.stages[i]? = some b)
    (hc : j = i → Change x.signals panics (some b) (some a)) :
    Change x.signals panics x.stages[j]? (x.stages.set i a)[j]? := by
  rw [get_set i j a b h]
  split_ifs with hj
  · rw [hj, h]
    exact hc hj
  · exact .same _

theorem stage_step (h : Sound N total x) (e : Act) (hen : Enabled x e) (j : ℕ) :
    Change x.signals (Panics j e) x.stages[j]? (step x e).stages[j]? := by
  cases e with
  | accept uuid now =>
    change Change x.signals _ x.stages[j]? (x.stages++[Stage.handling])[j]?
    rcases Nat.lt_trichotomy j x.stages.length with hj | rfl | hj
    · rw [List.getElem?_append_left hj]
      exact .same _
    · rw [List.getElem?_concat_length, List.getElem?_eq_none (Nat.le_refl _)]
      exact .accepted
    · rw [List.getElem?_eq_none (Nat.le_of_lt hj),
        List.getElem?_eq_none (by rw [List.length_append]; exact hj)]
      exact .same _
  | reject =>
    obtain ⟨i, hi⟩ := hen
    simp only [step, hi]
    exact change_set i j _ _ ((h.busy i).mp hi) fun _ => .rejected
  | permit =>
    obtain ⟨⟨i, hi⟩, -⟩ := hen
    simp only [step, hi]
    exact change_set i j _ _ ((h.busy i).mp hi) fun _ => .admitted
  | start i => exact change_set i j _ _ hen fun _ => .started
  | frame i env f =>
    obtain ⟨n, hn⟩ := hen
    simp only [step]
    split
    · exact .same _
    · rename_i fault hfault
      refine change_set i j _ _ hn fun hj => .crashed n ⟨env,f,by rw [hj],fun hf => ?_⟩
      obtain ⟨t, ht⟩ := handle_ok env i f x.system.server hf
      rw [ht] at hfault
      cases hfault
  | finish i =>
    obtain ⟨n, hn⟩ := hen
    exact change_set i j _ _ hn fun _ => .ended n
  | obey i =>
    obtain ⟨n, -, hn⟩ := hen
    exact change_set i j _ _ hn fun _ => .ended n
  | release i => exact change_set i j _ _ hen fun _ => .released
  | greet | refuse | acceptFails | stop | signal | inactiveSweep now | ackSweep env
  | ghostSweep now => exact .same _

def weigh : Stage → ℕ
  | .handling => 4
  | .spawned => 3
  | .driving _ => 2
  | .leaving => 1
  | .gone => 0
  | .crashed => 0

def acceptorWeight : Acceptor → ℕ
  | .stopped => 0
  | _ => 1

def weight (x : Host) : ℕ := (x.stages.map weigh).sum+acceptorWeight x.acceptor

theorem weight_set (i : ℕ) (a b : Stage) (h : x.stages[i]? = some b) (hlt : weigh a < weigh b) :
    ((x.stages.set i a).map weigh).sum < (x.stages.map weigh).sum := by
  have hs := sum_set weigh x.stages i a b h
  omega

theorem internal_lowers (h : Sound N total x) (e : Act) (hi : Internal e) (hen : Enabled x e) :
    weight (step x e) < weight x := by
  cases e with
  | permit =>
    obtain ⟨⟨i, hb⟩, -⟩ := hen
    have hw := weight_set i .spawned .handling ((h.busy i).mp hb) (by decide)
    simp only [step, weight, hb]
    exact Nat.add_lt_add_right hw 1
  | start i =>
    exact Nat.add_lt_add_right
      (weight_set i (.driving x.signals) .spawned hen (by decide : 2 < 3)) _
  | obey i =>
    obtain ⟨n, -, hn⟩ := hen
    exact Nat.add_lt_add_right (weight_set i .leaving _ hn (by decide : 1 < 2)) _
  | release i =>
    exact Nat.add_lt_add_right (weight_set i .gone .leaving hen (by decide : 0 < 1)) _
  | stop =>
    have ha : acceptorWeight x.acceptor = 1 := by
      rcases hen.1 with ha | ha <;> rw [ha] <;> rfl
    simp only [step, weight, ha]
    exact Nat.lt_succ_self _
  | _ => exact absurd hi id

theorem weight_le (x : Host) : weight x ≤ 4*x.stages.length+1 := by
  have hs : (x.stages.map weigh).sum ≤ (x.stages.map weigh).length*4 := by
    refine List.sum_le_card_nsmul _ 4 fun n hn => ?_
    obtain ⟨a, -, rfl⟩ := List.mem_map.mp hn
    cases a <;> simp [weigh]
  have ha : acceptorWeight x.acceptor ≤ 1 := by
    cases x.acceptor <;> simp [acceptorWeight]
  rw [List.length_map] at hs
  rw [weight]
  omega

end Steps

/-- What `y` has kept of the state `x` in which the signal was sent: drivers
that were there are still there, have ended or were ended by one of the
frames, and the others are newer. -/
structure After (es : List Act) (x y : Host) : Prop where
  signals : y.signals = x.signals+1
  old : ∀ i n : ℕ, x.stages[i]? = some (.driving n) →
    y.stages[i]? = some (.driving n) ∨ y.stages[i]? = some .leaving ∨ y.stages[i]? = some .gone ∨
      y.stages[i]? = some .crashed ∧ ∃ e ∈ es, Panics i e
  fresh : ∀ i n : ℕ, y.stages[i]? = some (.driving n) →
    n = x.signals+1 ∨ x.stages[i]? = some (.driving n)

section Runs
variable {N : Naming} {total : ℕ} {x y : Host} {es : List Act}

theorem after_signal (es : List Act) (x : Host) : After es x (step x .signal) :=
  ⟨rfl,fun _ _ h => .inl h,fun _ _ h => .inr h⟩

theorem signals_step (e : Act) (he : e ≠ .signal) : (step y e).signals = y.signals := by
  cases e with
  | signal => exact absurd rfl he
  | reject =>
    rw [step]
    split <;> rfl
  | permit =>
    rw [step]
    split <;> rfl
  | frame i env f =>
    rw [step]
    split <;> rfl
  | _ => rfl

theorem After.step (h : After es x y) (hy : Sound N total y) (e : Act) (hen : Enabled y e)
    (he : e ≠ .signal) (hes : e ∈ es) : After es x (ServerHost.step y e) := by
  refine ⟨(signals_step e he).trans h.signals,fun i n hi => ?_,fun i n hi => ?_⟩
  · have hc := stage_step hy e hen i
    rcases h.old i n hi with ho | ho | ho | ⟨ho, hp⟩ <;> rw [ho] at hc
    · generalize (ServerHost.step y e).stages[i]? = b at hc
      cases hc with
      | same => exact .inl rfl
      | ended => exact .inr (.inl rfl)
      | crashed _ hp => exact .inr (.inr (.inr ⟨rfl,e,hes,hp⟩))
    · generalize (ServerHost.step y e).stages[i]? = b at hc
      cases hc with
      | same => exact .inr (.inl rfl)
      | released => exact .inr (.inr (.inl rfl))
    · generalize (ServerHost.step y e).stages[i]? = b at hc
      cases hc
      exact .inr (.inr (.inl rfl))
    · generalize (ServerHost.step y e).stages[i]? = b at hc
      cases hc
      exact .inr (.inr (.inr ⟨rfl,hp⟩))
  · have hc := stage_step hy e hen i
    rw [hi] at hc
    generalize hb : y.stages[i]? = b at hc
    cases hc with
    | same => exact h.fresh i n hb
    | started => exact .inl h.signals

theorem after_run (x : Host) (hx : Sound N total x) (es : List Act)
    (hes : Along step (Admitted N) (step x .signal) es) (hno : ∀ e ∈ es, e ≠ .signal) :
    (Sound N total (es.foldl step (step x .signal)) ∧
      After es x (es.foldl step (step x .signal))) ∧
      ∀ i, .obey i ∈ es → ∃ n, x.stages[i]? = some (.driving n) := by
  have hstep : ∀ y e, Sound N total y ∧ After es x y → Admitted N y e ∧ e ≠ .signal ∧ e ∈ es →
      Sound N total (step y e) ∧ After es x (step y e) :=
    fun y e h he => ⟨h.1.step e he.1.1 he.1.2,h.2.step h.1 e he.1.1 he.2.1 he.2.2⟩
  have hstart : Sound N total (step x .signal) ∧ After es x (step x .signal) :=
    ⟨hx.step .signal trivial trivial,after_signal es x⟩
  have hboth := along_and_of_forall step (Admitted N) (fun e => e ≠ .signal ∧ e ∈ es)
    (step x .signal) es hes fun e he => ⟨hno e he,he⟩
  refine ⟨always_last step _ _ es (always_of_along step _ _ hstep _ es hstart hboth),fun i hi => ?_⟩
  refine forall_of_along step (fun e => e = .obey i → ∃ n, x.stages[i]? = some (.driving n)) es
    (step x .signal) (along_of_along step _ _ _ ?_ hstep _ es hstart hboth) _ hi rfl
  rintro y - h he rfl
  obtain ⟨⟨n, hn, hi⟩, -⟩ := he.1
  rcases h.2.fresh i n hi with rfl | hold
  · rw [h.2.signals] at hn
    exact absurd hn (Nat.lt_irrefl _)
  · exact ⟨n,hold⟩

theorem gone_not_live (hy : Sound N total y) (i : ℕ) (hi : y.stages[i]? = some .gone)
    (k : ClientId) : y.system.server.live k ≠ some i := by
  intro hk
  obtain ⟨b, hb, hent⟩ := hy.live k i hk
  rw [hi] at hb
  cases hb
  cases hent

theorem Settled.gone (h : Settled y) (hxy : After es x y) (hx : Sound N total x)
    (hy : Sound N total y) (i n : ℕ) (hi : x.stages[i]? = some (.driving n)) :
    (y.stages[i]? = some .gone ∧ ∀ k, y.system.server.live k ≠ some i) ∨
      y.stages[i]? = some .crashed ∧ ∃ e ∈ es, Panics i e := by
  rcases hxy.old i n hi with ho | ho | ho | ho
  · have hlt : n < y.signals := by
      rw [hxy.signals]
      exact Nat.lt_succ_of_le (hx.since i n hi)
    exact absurd ⟨n,hlt,ho⟩ (h (.obey i) trivial)
  · exact absurd ho (h (.release i) trivial)
  · exact .inl ⟨ho,gone_not_live hy i ho⟩
  · exact .inr ho

theorem served_pos (i : ℕ) (b : Stage) (h : y.stages[i]? = some b) : b.permits ≤ y.served :=
  List.le_sum_of_mem (List.mem_map_of_mem (List.mem_of_getElem? h))

theorem Settled.stopped_iff (h : Settled y) (hy : Sound N total y) (hpos : 0 < y.signals)
    (htotal : 0 < total) :
    (∀ i n : ℕ, y.stages[i]? ≠ some (.driving n)) ∧ y.acceptor ≠ .shaking ↔
      y.acceptor = .stopped ∧ y.permits = total := by
  have hp := hy.permits
  constructor
  · rintro ⟨hno, hshaking⟩
    have hserved : y.served = 0 := by
      refine List.sum_eq_zero fun n hn => ?_
      obtain ⟨b, hb, rfl⟩ := List.mem_map.mp hn
      obtain ⟨i, hi⟩ := List.mem_iff_getElem?.mp hb
      cases b with
      | handling | gone | crashed => rfl
      | spawned => exact absurd hi (h (.start i) trivial)
      | leaving => exact absurd hi (h (.release i) trivial)
      | driving n => exact absurd hi (hno i n)
    refine ⟨?_,by omega⟩
    cases ha : y.acceptor with
    | stopped => rfl
    | shaking => exact absurd ha hshaking
    | looping => exact absurd ⟨.inl ha,hpos⟩ (h .stop trivial)
    | failed => exact absurd ⟨.inr ha,hpos⟩ (h .stop trivial)
    | busy i => exact absurd ⟨⟨i,ha⟩,by omega⟩ (h .permit trivial)
  · rintro ⟨hstopped, hfree⟩
    refine ⟨fun i n hi => ?_,by simp [hstopped]⟩
    have := served_pos i _ hi
    simp only [Stage.permits] at this
    omega

end Runs

/-- The states of a server of the parties. -/
def Reachable (N : Naming) (total : ℕ) (x : Host) : Prop :=
  ∃ transport config cluster db clients es, (∀ d, (clients d).sender = d) ∧
    Along step (Admitted N) (opened transport total (start config cluster db clients)) es ∧
    es.foldl step (opened transport total (start config cluster db clients)) = x

theorem Reachable.sound {N : Naming} {total : ℕ} {x : Host} (h : Reachable N total x) :
    Sound N total x := by
  obtain ⟨transport, config, cluster, db, clients, es, hs, hes, rfl⟩ := h
  exact always_last step _ _ es
    (sound_always N total _ es (sound_opened transport total config cluster db clients hs) hes)

/-- The second connection waits for the permit of the first when the signal is
sent, and starts after it. -/
def lateRun : List Act := [.obey 0,.release 0,.permit,.stop,.start 1]

def crowded : Host :=
  crowdedRun.foldl step (opened .webSocket 1 (start plainConfig .noop none unusedClients))

def late : Host := lateRun.foldl step (step crowded .signal)

theorem crowded_reachable : Reachable pair 1 crowded :=
  ⟨.webSocket,plainConfig,.noop,none,unusedClients,crowdedRun,fun _ => rfl,crowded_run_admitted,rfl⟩

theorem late_settled : Settled late := by
  have hstages : late.stages = [.gone,.driving 1] := by decide +kernel
  have hacceptor : late.acceptor = .stopped := by decide +kernel
  have hsignals : late.signals = 1 := by decide +kernel
  have hdriving : ∀ (i : ℕ) (b : Stage), late.stages[i]? = some b → b = .gone ∨ b = .driving 1 := by
    intro i b hb
    have hmem := List.mem_of_getElem? hb
    rw [hstages] at hmem
    simpa using hmem
  intro e hi
  cases e with
  | permit =>
    rintro ⟨⟨i, hb⟩, -⟩
    rw [hacceptor] at hb
    cases hb
  | start i => exact fun hb => by simpa using hdriving i _ hb
  | obey i =>
    rintro ⟨n, hn, hb⟩
    rw [hsignals] at hn
    have := hdriving i _ hb
    simp only [reduceCtorEq, Stage.driving.injEq, false_or] at this
    omega
  | release i => exact fun hb => by simpa using hdriving i _ hb
  | stop =>
    rintro ⟨hb | hb, -⟩ <;>
    · rw [hacceptor] at hb
      cases hb
  | _ => exact absurd hi id

end RexMq.GracefulShutdown
