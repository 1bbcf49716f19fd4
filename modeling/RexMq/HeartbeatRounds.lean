import Mathlib.Tactic.Common
import RexMq.ClientLink
import RexMq.ClientProcess

/-!
# Rounds of the client's heartbeat

The heartbeat task wakes, sends a ping if the last sign of life is old
enough, waits and compares the time of the last sign with what it read before
the ping. Every successful send of the client counts as a sign of life, the
ping's own included. Frames, other sends and other tasks' stores of the
connection state come between the steps of the task in any order, and the
clock shows whatever it shows. While the clock does not go back no round ever
finds the server silent.
-/

set_option autoImplicit false

namespace RexMq.HeartbeatRounds
open RexMq.ByteWords RexMq.FiniteRun RexMq.FrameData RexMq.ClientRegistry
open RexMq.HandlerEffects RexMq.ClientProcess
open RexMq.ClientLink (ConnectionState)

/-- Where the task stands, with what it read of the last receipt before its
ping. -/
inductive Phase where
  | sleeping
  | pinging (before : UInt64)
  | waiting (before : UInt64)
  deriving DecidableEq, Repr

/-- A store of the last receipt: for a frame of the server, or for a send. -/
structure Stamp where
  time : UInt64
  received : Bool
  deriving DecidableEq, Repr

/-- The client with its heartbeat. `stamps` are the stores since the ping was
sent, its own first, and `clock` is the latest reading of the clock; the code
has neither. -/
structure Heart where
  base : ClientBase
  state : ConnectionState
  lastHeartbeat : UInt64
  phase : Phase
  stamps : List Stamp
  clock : UInt64

/-- The task's sleep ends, its ping is sent, its wait for a pong ends; a frame
is handled, the client sends something else, another task stores a state. -/
inductive HeartEvent where
  | wake (now : UInt64)
  | pinged (env : ClientEnv)
  | deadline (now : UInt64)
  | received (env : ClientEnv) (f : RexData)
  | sent (env : ClientEnv) (buf : Bytes)
  | stored (state : ConnectionState)

namespace HeartEvent

def time : HeartEvent → Option UInt64
  | .wake now => some now
  | .pinged env => some env.now
  | .deadline now => some now
  | .received env _ => some env.now
  | .sent env _ => some env.now
  | .stored _ => none

end HeartEvent

section Steps
variable (idleTimeout : UInt64)

def ping : RexData := .new .check [] []

def wakeUp (now : UInt64) (x : Heart) : Heart :=
  if x.state ≠ .connected then x
  else match x.base.client with
    | none => x
    | some client =>
      if saturatingSub now client.lastRecv < idleTimeout then x
      else { x with phase := .pinging client.lastRecv }

def sendPing (env : ClientEnv) (before : UInt64) (x : Heart) : Heart :=
  match x.base.sendBuf env ping.content with
  | (true,base) => { x with base := base, phase := .waiting before, stamps := [⟨env.now,false⟩] }
  | (false,base) => { x with base := base, phase := .sleeping, state := .disconnected }

def judge (now before : UInt64) (x : Heart) : Heart :=
  match x.base.client with
  | none => x
  | some client =>
    if client.lastRecv ≤ before then { x with phase := .sleeping, state := .disconnected }
    else { x with phase := .sleeping, lastHeartbeat := now }

/-- A frame that faults ends its task and is not handled. -/
def receiveFrame (env : ClientEnv) (f : RexData) (x : Heart) : Heart :=
  match x.base.client with
  | none => x
  | some _ => match x.base.handleReceivedData env f with
    | .error _ => x
    | .ok base => { x with base := base, stamps := x.stamps++[⟨env.now,true⟩] }

def sendOther (env : ClientEnv) (buf : Bytes) (x : Heart) : Heart :=
  match x.base.client with
  | none => x
  | some _ => match x.base.sendBuf env buf with
    | (true,base) => { x with base := base, stamps := x.stamps++[⟨env.now,false⟩] }
    | (false,base) => { x with base := base }

def act (x : Heart) : HeartEvent → Heart
  | .wake now => match x.phase with
    | .sleeping => wakeUp idleTimeout now x
    | _ => x
  | .pinged env => match x.phase with
    | .pinging before => sendPing env before x
    | _ => x
  | .deadline now => match x.phase with
    | .waiting before => judge now before x
    | _ => x
  | .received env f => receiveFrame env f x
  | .sent env buf => sendOther env buf x
  | .stored state => { x with state := state }

def heartStep (x : Heart) (e : HeartEvent) : Heart :=
  { act idleTimeout x e with clock := e.time.getD x.clock }

def resting (b : ClientBase) (state : ConnectionState) (now : UInt64) : Heart :=
  ⟨b,state,now,.sleeping,[],now⟩

def heard (x : Heart) : List Stamp := x.stamps.filter Stamp.received

def lastStamp (x : Heart) : UInt64 := (x.stamps.getLast?.map Stamp.time).getD 0

/-- A round of a sent ping ends Disconnected if no frame was handled since, and
does not if one was at a later second than the last receipt before. -/
def Detects (x : Heart) (e : HeartEvent) : Prop :=
  ∀ now before, e = .deadline now → x.phase = .waiting before →
    (heard x = [] → (heartStep idleTimeout x e).state = .disconnected) ∧
    ((∃ r ∈ heard x, before < r.time) → (heartStep idleTimeout x e).state ≠ .disconnected)

/-- What it takes: without a frame the last send is stamped no later than the
receipt before the ping, or Disconnected is stored already; with a later frame
the last stamp is later too, and Disconnected is not stored. -/
def Stamps (x : Heart) (e : HeartEvent) : Prop :=
  ∀ now before, e = .deadline now → x.phase = .waiting before →
    (heard x = [] → lastStamp x ≤ before ∨ x.state = .disconnected) ∧
    ((∃ r ∈ heard x, before < r.time) → before < lastStamp x ∧ x.state ≠ .disconnected)

def Forward (x : Heart) (e : HeartEvent) : Prop := ∀ now, e.time = some now → x.clock ≤ now

end Steps

section Receipts
variable (env : ClientEnv)

def lastReceipt (b : ClientBase) : Option UInt64 := b.client.map RexClientInner.lastRecv

theorem last_receipt_touch (b : ClientBase) (h : b.client.isSome) :
    lastReceipt (b.touch env) = some env.now := by
  obtain ⟨client, hc⟩ := Option.isSome_iff_exists.mp h
  rw [lastReceipt, ClientBase.touch, hc]
  rfl

theorem last_receipt_send (buf : Bytes) (b : ClientBase) (h : b.client.isSome) :
    lastReceipt (b.sendBuf env buf).2 = if env.sendOk then some env.now else lastReceipt b := by
  unfold ClientBase.sendBuf
  dsimp only
  split_ifs
  · exact last_receipt_touch env { b with sent := b.sent++[buf] } h
  · rfl

theorem send_outcome (buf : Bytes) (b : ClientBase) : (b.sendBuf env buf).1 = env.sendOk := by
  unfold ClientBase.sendBuf
  cases env.sendOk <;> rfl

theorem client_send (buf : Bytes) (b : ClientBase) :
    (b.sendBuf env buf).2.client.isSome = b.client.isSome := by
  unfold ClientBase.sendBuf
  dsimp only
  split_ifs
  · exact Option.isSome_map
  · rfl

theorem client_send_ack (m : ServerState.MessageId) (b : ClientBase) :
    (b.sendAck env m).client.isSome = b.client.isSome := by
  unfold ClientBase.sendAck
  cases hc : b.client with
  | none => rw [hc]
  | some client => rw [client_send, hc]

theorem client_command (client : RexClientInner) (f : RexData) (b b' : ClientBase)
    (command : RexCommand) (h : b.client.isSome)
    (hr : b.handleCommand env client f command = .ok b') : b'.client.isSome := by
  cases command with
  | regTitleReturn | delTitleReturn =>
    obtain ⟨title, -, hr⟩ := bind_ok hr
    cases hr
    rfl
  | ackReturn =>
    obtain ⟨b₁, hb, hr⟩ := bind_ok hr
    obtain ⟨ack, -, hb⟩ := bind_ok hb
    obtain ⟨r, -, hb⟩ := bind_ok hb
    cases hb
    cases hr
    exact h
  | title | group | cast =>
    obtain ⟨m, -, hr⟩ := bind_ok hr
    cases hr
    show (if m ≠ 0 then b.sendAck env m else b).client.isSome = true
    split_ifs
    · rwa [client_send_ack]
    · exact h
  | loginReturn | titleReturn | groupReturn | castReturn =>
    cases hr
    exact h
  | login | check | checkReturn | regTitle | delTitle | ack =>
    cases hr
    exact h

theorem last_receipt_received (f : RexData) (b b' : ClientBase) (h : b.client.isSome)
    (hr : b.handleReceivedData env f = .ok b') : lastReceipt b' = some env.now := by
  obtain ⟨client, hc⟩ := Option.isSome_iff_exists.mp h
  unfold ClientBase.handleReceivedData at hr
  rw [hc] at hr
  obtain ⟨command, -, hr⟩ := bind_ok hr
  obtain ⟨b₁, hb, hr⟩ := bind_ok hr
  cases hr
  exact last_receipt_touch env b₁ (client_command env client f b b₁ command h hb)

end Receipts

section Moves
variable (idleTimeout : UInt64)

/-- What an event can do to the last receipt and to the record of stamps. -/
inductive Marks (x : Heart) (e : HeartEvent) (y : Heart) : Prop
  | none : lastReceipt y.base = lastReceipt x.base → y.stamps = x.stamps → Marks x e y
  | one (time : UInt64) (received : Bool) : e.time = some time →
      lastReceipt y.base = some time → y.stamps = x.stamps++[⟨time,received⟩] → Marks x e y

theorem receive_marks (env : ClientEnv) (f : RexData) (x : Heart) :
    Marks x (.received env f) (receiveFrame env f x) ∧
      (receiveFrame env f x).phase = x.phase := by
  unfold receiveFrame
  cases hc : x.base.client with
  | none => exact ⟨.none rfl rfl,rfl⟩
  | some client =>
    cases hr : x.base.handleReceivedData env f with
    | error e => exact ⟨.none rfl rfl,rfl⟩
    | ok base =>
      have hlast := last_receipt_received env f x.base base (by rw [hc]; rfl) hr
      exact ⟨.one env.now true rfl hlast rfl,rfl⟩

theorem send_marks (env : ClientEnv) (buf : Bytes) (x : Heart) :
    Marks x (.sent env buf) (sendOther env buf x) ∧
      (sendOther env buf x).phase = x.phase := by
  unfold sendOther
  cases hc : x.base.client with
  | none => exact ⟨.none rfl rfl,rfl⟩
  | some client =>
    have hlast := last_receipt_send env buf x.base (by rw [hc]; rfl)
    have hout := send_outcome env buf x.base
    rcases hs : x.base.sendBuf env buf with ⟨_ | _, base⟩
    · rw [hs] at hlast hout
      rw [← hout] at hlast
      exact ⟨.none hlast rfl,rfl⟩
    · rw [hs] at hlast hout
      rw [← hout] at hlast
      exact ⟨.one env.now false rfl hlast rfl,rfl⟩

/-- What an event can do: leave the task where it is, or move it on. -/
inductive Moves (x : Heart) (e : HeartEvent) (y : Heart) : Prop
  | between : Marks x e y → y.phase = x.phase → Moves x e y
  | woke (now before : UInt64) : e = .wake now → lastReceipt x.base = some before →
      idleTimeout ≤ saturatingSub now before → y.base = x.base →
      y.phase = .pinging before → Moves x e y
  | pinged (env : ClientEnv) (before : UInt64) : e = .pinged env → x.phase = .pinging before →
      (x.base.client.isSome → lastReceipt y.base = some env.now) →
      y.phase = .waiting before → y.stamps = [⟨env.now,false⟩] → Moves x e y
  | slept : lastReceipt y.base = lastReceipt x.base → y.phase = .sleeping → Moves x e y

theorem wake_moves (now : UInt64) (x : Heart) :
    Moves idleTimeout x (.wake now) (wakeUp idleTimeout now x) := by
  unfold wakeUp
  split_ifs
  · exact .between (.none rfl rfl) rfl
  · cases hc : x.base.client with
    | none => exact .between (.none rfl rfl) rfl
    | some client =>
      dsimp only
      split_ifs with hidle
      · exact .between (.none rfl rfl) rfl
      · refine .woke now client.lastRecv rfl ?_ (Std.not_lt.mp hidle) rfl rfl
        rw [lastReceipt, hc]
        rfl

theorem ping_moves (env : ClientEnv) (before : UInt64) (x : Heart)
    (hx : x.phase = .pinging before) :
    Moves idleTimeout x (.pinged env) (sendPing env before x) := by
  have hlast := last_receipt_send env ping.content x.base
  have hout := send_outcome env ping.content x.base
  have hnone := client_send env ping.content x.base
  unfold sendPing
  rcases hs : x.base.sendBuf env ping.content with ⟨_ | _, base⟩
  · rw [hs] at hlast hout hnone
    rw [← hout] at hlast
    refine .slept ?_ rfl
    cases hc : x.base.client with
    | none =>
      rw [hc, Option.isSome_none, Option.isSome_eq_false_iff, Option.isNone_iff_eq_none] at hnone
      rw [lastReceipt, lastReceipt, hc, hnone]
    | some client => exact hlast (by rw [hc]; rfl)
  · rw [hs] at hlast hout
    rw [← hout] at hlast
    exact .pinged env before rfl hx hlast rfl rfl

theorem judge_moves (now before : UInt64) (x : Heart) (e : HeartEvent) :
    Moves idleTimeout x e (judge now before x) := by
  unfold judge
  cases hc : x.base.client with
  | none => exact .between (.none rfl rfl) rfl
  | some client =>
    dsimp only
    split_ifs
    · exact .slept rfl rfl
    · exact .slept rfl rfl

theorem act_moves (x : Heart) (e : HeartEvent) : Moves idleTimeout x e (act idleTimeout x e) := by
  have hidle : Moves idleTimeout x e x := .between (.none rfl rfl) rfl
  cases e with
  | wake now =>
    unfold act
    cases x.phase with
    | sleeping => exact wake_moves idleTimeout now x
    | pinging before => exact hidle
    | waiting before => exact hidle
  | pinged env =>
    unfold act
    cases hx : x.phase with
    | sleeping => exact hidle
    | pinging before => exact ping_moves idleTimeout env before x hx
    | waiting before => exact hidle
  | deadline now =>
    unfold act
    cases x.phase with
    | sleeping => exact hidle
    | pinging before => exact hidle
    | waiting before => exact judge_moves idleTimeout now before x _
  | received env f =>
    obtain ⟨hm, hp⟩ := receive_marks env f x
    exact .between hm hp
  | sent env buf =>
    obtain ⟨hm, hp⟩ := send_marks env buf x
    exact .between hm hp
  | stored state => exact .between (.none rfl rfl) rfl

end Moves

section Rounds
variable (idleTimeout : UInt64)

theorem is_some_last_receipt (b : ClientBase) : (lastReceipt b).isSome = b.client.isSome :=
  Option.isSome_map

theorem object_of_receipt (b : ClientBase) (t : UInt64) (h : lastReceipt b = some t) :
    b.client.isSome := by
  rw [← is_some_last_receipt, h]
  rfl

/-- Once the task has read a receipt there is an object, and while it waits
the object's last receipt is the last stamp. -/
structure Stamped (x : Heart) : Prop where
  object : x.phase ≠ .sleeping → x.base.client.isSome
  last : ∀ before, x.phase = .waiting before →
    ∃ r, x.stamps.getLast? = some r ∧ lastReceipt x.base = some r.time

theorem Stamped.object_of_pinging {x : Heart} (hx : Stamped x) (before : UInt64)
    (h : x.phase = .pinging before) : x.base.client.isSome := by
  apply hx.object
  rw [h]
  exact nofun

theorem stamped_step (x : Heart) (e : HeartEvent) (hx : Stamped x) :
    Stamped (heartStep idleTimeout x e) := by
  suffices h : Stamped (act idleTimeout x e) from ⟨h.object,h.last⟩
  have hmoves := act_moves idleTimeout x e
  generalize act idleTimeout x e = y at hmoves ⊢
  cases hmoves with
  | between hm hp =>
    cases hm with
    | none hlast hstamps =>
      refine ⟨fun h => ?_,fun before h => ?_⟩
      · rw [hp] at h
        rw [← is_some_last_receipt, hlast, is_some_last_receipt]
        exact hx.object h
      · rw [hp] at h
        rw [hlast, hstamps]
        exact hx.last before h
    | one time received _ hlast hstamps =>
      refine ⟨fun _ => object_of_receipt _ time hlast,
        fun before _ => ⟨⟨time,received⟩,?_,hlast⟩⟩
      rw [hstamps, List.getLast?_append]
      rfl
  | woke now before _ hlast _ hbase hp =>
    refine ⟨fun _ => ?_,fun before' h => ?_⟩
    · rw [hbase]
      exact object_of_receipt _ before hlast
    · rw [hp] at h
      cases h
  | pinged env before _ hphase hlast hp hstamps =>
    have hset := hlast (hx.object_of_pinging before hphase)
    refine ⟨fun _ => object_of_receipt _ env.now hset,
      fun before' _ => ⟨⟨env.now,false⟩,?_,hset⟩⟩
    rw [hstamps]
    rfl
  | slept _ hp => exact ⟨fun h => absurd hp h,fun before h => by rw [hp] at h; cases h⟩

theorem deadline_state (x : Heart) (now before : UInt64) (hx : Stamped x)
    (hw : x.phase = .waiting before) :
    (heartStep idleTimeout x (.deadline now)).state =
      if lastStamp x ≤ before then .disconnected else x.state := by
  obtain ⟨r, hr, hlast⟩ := hx.last before hw
  obtain ⟨client, hc, hrecv⟩ := Option.map_eq_some_iff.mp hlast
  have hstamp : lastStamp x = client.lastRecv := by
    rw [lastStamp, hr, hrecv]
    rfl
  rw [heartStep, act, hw, hstamp]
  simp only [judge, hc]
  split_ifs <;> rfl

theorem detects_iff_stamps (x : Heart) (e : HeartEvent) (hx : Stamped x) :
    Detects idleTimeout x e ↔ Stamps x e := by
  apply forall_congr'
  intro now
  apply forall_congr'
  intro before
  apply imp_congr_right
  rintro rfl
  apply imp_congr_right
  intro hw
  rw [deadline_state idleTimeout x now before hx hw]
  by_cases hle : lastStamp x ≤ before
  · simp [hle, Std.not_lt.mpr hle]
  · simp [hle, Std.not_le.mp hle]

/-- Over any run the heartbeat tells a silent server from a live one exactly
if the stamps of each round do. -/
theorem dead_server_detected_iff (b : ClientBase) (state : ConnectionState) (now : UInt64)
    (es : List HeartEvent) :
    Along (heartStep idleTimeout) (Detects idleTimeout) (resting b state now) es ↔
      Along (heartStep idleTimeout) Stamps (resting b state now) es :=
  along_iff_along (heartStep idleTimeout) (Detects idleTimeout) Stamps Stamped
    (detects_iff_stamps idleTimeout) (fun x e hx _ => stamped_step idleTimeout x e hx)
    (resting b state now) es ⟨fun h => absurd rfl h,nofun⟩

theorem receipt_cases (x : Heart) (e : HeartEvent) (hx : Stamped x) :
    lastReceipt (act idleTimeout x e).base = lastReceipt x.base ∨
      ∃ t, e.time = some t ∧ lastReceipt (act idleTimeout x e).base = some t := by
  cases act_moves idleTimeout x e with
  | between hm _ =>
    cases hm with
    | none hlast _ => exact .inl hlast
    | one time _ ht hlast _ => exact .inr ⟨time,ht,hlast⟩
  | woke now before _ _ _ hbase _ =>
    rw [hbase]
    exact .inl rfl
  | pinged env before hping hphase hlast _ _ =>
    exact .inr ⟨env.now,by rw [hping]; rfl,hlast (hx.object_of_pinging before hphase)⟩
  | slept hlast _ => exact .inl hlast

/-- The task has read the last receipt and not yet judged. -/
def Reading (x : Heart) (before : UInt64) : Prop :=
  x.phase = .pinging before ∨ x.phase = .waiting before

theorem lt_of_idle (now before : UInt64) (hpos : 1 ≤ idleTimeout)
    (h : idleTimeout ≤ saturatingSub now before) : before < now := by
  rw [UInt64.le_iff_toNat_le] at h hpos
  rw [saturating_sub_toNat] at h
  rw [UInt64.lt_iff_toNat_lt]
  have hone : (1 : UInt64).toNat = 1 := rfl
  omega

theorem reading_cases (hpos : 1 ≤ idleTimeout) (x : Heart) (e : HeartEvent) (before : UInt64)
    (h : Reading (act idleTimeout x e) before) :
    Reading x before ∨ ∃ now, e.time = some now ∧ before < now := by
  cases act_moves idleTimeout x e with
  | between _ hp =>
    rw [Reading, hp] at h
    exact .inl h
  | woke now read hwake _ hidle _ hp =>
    rw [Reading, hp] at h
    obtain rfl : read = before := by
      rcases h with h | h
      · exact Phase.pinging.inj h
      · cases h
    exact .inr ⟨now,by rw [hwake]; rfl,lt_of_idle idleTimeout now read hpos hidle⟩
  | pinged env read _ hphase _ hp _ =>
    rw [Reading, hp] at h
    obtain rfl : read = before := by
      rcases h with h | h
      · cases h
      · exact Phase.waiting.inj h
    exact .inl (.inl hphase)
  | slept _ hp =>
    rw [Reading, hp] at h
    rcases h with h | h
    · cases h
    · cases h

theorem waiting_cases (x : Heart) (e : HeartEvent) (before : UInt64) (hx : Stamped x)
    (h : (act idleTimeout x e).phase = .waiting before) :
    x.phase = .waiting before ∨ x.phase = .pinging before ∧
      ∃ t, e.time = some t ∧ lastReceipt (act idleTimeout x e).base = some t := by
  cases act_moves idleTimeout x e with
  | between _ hp => exact .inl (hp.symm.trans h)
  | woke now read _ _ _ _ hp =>
    rw [hp] at h
    cases h
  | pinged env read hping hphase hlast hp _ =>
    rw [hp] at h
    cases h
    exact .inr ⟨hphase,env.now,by rw [hping]; rfl,hlast (hx.object_of_pinging _ hphase)⟩
  | slept _ hp =>
    rw [hp] at h
    cases h

/-- No receipt is stamped in the future, the task reads one that is past, and
while it waits the last one is later. -/
structure Timed (x : Heart) : Prop where
  stamped : Stamped x
  past : ∀ t, lastReceipt x.base = some t → t ≤ x.clock
  ahead : ∀ before, Reading x before → before < x.clock
  later : ∀ before, x.phase = .waiting before → ∀ t, lastReceipt x.base = some t → before < t

theorem clock_step (x : Heart) (e : HeartEvent) (he : Forward x e) :
    x.clock ≤ (heartStep idleTimeout x e).clock ∧
      ∀ now, e.time = some now → (heartStep idleTimeout x e).clock = now := by
  unfold heartStep
  cases ht : e.time with
  | none => exact ⟨UInt64.le_refl _,nofun⟩
  | some now => exact ⟨he now ht,fun _ h => Option.some.inj h⟩

theorem timed_step (hpos : 1 ≤ idleTimeout) (x : Heart) (e : HeartEvent) (hx : Timed x)
    (he : Forward x e) : Timed (heartStep idleTimeout x e) := by
  obtain ⟨hclock, hreading⟩ := clock_step idleTimeout x e he
  have hreceipt := receipt_cases idleTimeout x e hx.stamped
  refine ⟨stamped_step idleTimeout x e hx.stamped,?_,?_,?_⟩
  · intro t ht
    rcases hreceipt with hsame | ⟨now, hnow, hset⟩
    · exact UInt64.le_trans (hx.past t (hsame.symm.trans ht)) hclock
    · have hnt : now = t := Option.some.inj (hset.symm.trans ht)
      rw [hreading now hnow, hnt]
      exact UInt64.le_refl t
  · intro before hread
    rcases reading_cases idleTimeout hpos x e before hread with h | ⟨now, hnow, hlt⟩
    · exact Std.lt_of_lt_of_le (hx.ahead before h) hclock
    · rwa [hreading now hnow]
  · intro before hw t ht
    -- a receipt set now is later than what the task has read before
    have hset : Reading x before → ∀ now, e.time = some now →
        lastReceipt (act idleTimeout x e).base = some now → before < t := by
      intro hread now hnow hset
      have hnt : now = t := Option.some.inj (hset.symm.trans ht)
      rw [← hnt, ← hreading now hnow]
      exact Std.lt_of_lt_of_le (hx.ahead before hread) hclock
    rcases waiting_cases idleTimeout x e before hx.stamped hw with h | ⟨h, now, hnow, hping⟩
    · rcases hreceipt with hsame | ⟨now, hnow, hstamp⟩
      · exact hx.later before h t (hsame.symm.trans ht)
      · exact hset (.inr h) now hnow hstamp
    · exact hset (.inl h) now hnow hping

def Unmoved (x : Heart) (e : HeartEvent) : Prop :=
  ∀ now before, e = .deadline now → x.phase = .waiting before →
    (heartStep idleTimeout x e).state = x.state

/-- While the clock does not go back no verdict ever finds the server silent. -/
theorem silence_never_detected (hpos : 1 ≤ idleTimeout) (b : ClientBase)
    (state : ConnectionState) (now : UInt64)
    (hb : ∀ t, lastReceipt b = some t → t ≤ now) (es : List HeartEvent)
    (hes : Along (heartStep idleTimeout) Forward (resting b state now) es) :
    Along (heartStep idleTimeout) (Unmoved idleTimeout) (resting b state now) es := by
  apply along_of_along (heartStep idleTimeout) Forward (Unmoved idleTimeout) Timed _
    (timed_step idleTimeout hpos) _ es _ hes
  · intro x e hx _ now before he hw
    obtain ⟨r, hr, hlast⟩ := hx.stamped.last before hw
    have hlater := hx.later before hw r.time hlast
    have hstamp : lastStamp x = r.time := by
      rw [lastStamp, hr]
      rfl
    rw [he, deadline_state idleTimeout x now before hx.stamped hw, hstamp,
      if_neg (Std.not_le.mpr hlater)]
  · exact ⟨⟨fun h => absurd rfl h,nofun⟩,hb,fun _ h => h.elim nofun nofun,nofun⟩

end Rounds

/-- A client that was opened at second 0 and hears nothing. -/
def quietClient : Heart :=
  resting (.opened 7 [116] 0 0 false) .connected 0

/-- The heartbeat wakes at second 30 with a limit of 30, sends its ping and
waits for 5 seconds; no frame is handled and the clock only goes forward. -/
def silentRound : List HeartEvent := [.wake 30, .pinged ⟨30,true,1,true⟩, .deadline 35]

theorem silent_server_missed :
    Along (heartStep 30) Forward quietClient silentRound ∧
      ¬ Along (heartStep 30) (Detects 30) quietClient silentRound ∧
      (silentRound.foldl (heartStep 30) quietClient).state = .connected := by
  refine ⟨⟨?_,?_,?_,trivial⟩,fun h => ?_,by decide +kernel⟩
  · rintro now ⟨⟩
    decide
  · rintro now ⟨⟩
    decide
  · rintro now ⟨⟩
    decide
  · have hround := h.2.2.1 35 0 rfl (by decide +kernel)
    exact absurd (hround.1 (by decide +kernel)) (by decide +kernel)

end RexMq.HeartbeatRounds
