import Mathlib.Tactic.Common
import RexMq.AckTimeout
import RexMq.HeartbeatRounds
import RexMq.IdleReaping
import RexMq.MannedNetwork
import RexMq.TimedLine

/-!
# A client that keeps its heartbeat is never reaped

One client of the network is watched together with the clock: when its frames
and the frames for it were put on their links, and when its heartbeat task is
due. The task may be late by a slack, and a link may keep a frame back for a
delay. A server whose timeout covers what these add up to never finds the
client idle, whatever the others do.
-/

set_option autoImplicit false

namespace RexMq.HealthyClient
open RexMq.ByteWords RexMq.FiniteRun RexMq.FrameData RexMq.ClientRegistry RexMq.PersistentStore
open RexMq.ServerState RexMq.Handlers RexMq.HandlerEffects RexMq.FrameAccess RexMq.PublishTrace
open RexMq.SentFrames RexMq.ClientProcess RexMq.StarNetwork RexMq.FrameNetwork RexMq.SeatedClients
open RexMq.MannedNetwork RexMq.FrameFields
open RexMq.ServerRun hiding step
open RexMq.ClientLink (ConnectionState)
open RexMq.HeartbeatRounds (Heart HeartEvent Phase lastReceipt)
open RexMq.IdleReaping (lastRecv)
open RexMq.TimedLine (Line Pace Kept)

/-- Since `n` calls ago, every call that got through to `c` has refreshed its
object at `now`, and nothing else has. -/
structure Signs (c : ClientRef) (now : UInt64) (old : UInt64) (n : ℕ) (s : Server) : Prop where
  sender : ∀ d, (s.clients d).sender = d
  length : n ≤ s.sent.length
  sign : lastRecv s c = now ∨ lastRecv s c = old ∧ forOne c ((s.sent.drop n).filter Sent.ok) = []

section Signs
variable {ok : Bytes → Prop} {c : ClientRef} {old : UInt64} {n : ℕ} {s t : Server}

theorem signs_refl (c : ClientRef) (now : UInt64) (s : Server)
    (hs : ∀ d, (s.clients d).sender = d) :
    Signs c now (lastRecv s c) s.sent.length s := by
  refine ⟨hs,Nat.le_refl _,.inr ⟨rfl,?_⟩⟩
  rw [List.drop_length]
  rfl

theorem Signs.silent {now : UInt64} (h : Signs c now old n s) (hst : Silent s t) :
    Signs c now old n t := by
  refine ⟨fun d => (hst.sender d).trans (h.sender d),by rw [hst.sent]; exact h.length,?_⟩
  rw [lastRecv, hst.lastRecv, hst.sent]
  exact h.sign

theorem Signs.send (env : Env) (h : Signs c env.now old n s) (d : ClientRef) (buf : Bytes) :
    Signs c env.now old n (s.sendBuf env d buf).2 := by
  have hp := posts_send_buf env s d buf
  refine ⟨fun e => (hp.sender e).trans (h.sender e),?_,?_⟩
  · rw [hp.sent, List.length_append]
    exact Nat.le_add_right_of_le h.length
  · rw [IdleReaping.last_recv_send]
    by_cases hd : (s.sendBuf env d buf).1 ∧ c = d
    · exact .inl (if_pos hd)
    · rw [if_neg hd, hp.sent, List.drop_append_of_le_length h.length, List.filter_append,
        for_one_append]
      refine h.sign.imp_right fun hsame => ⟨hsame.1,?_⟩
      rw [hsame.2, List.nil_append, h.sender d]
      rw [send_buf_outcome] at hd
      cases hok : env.sendOk s.sent.length with
      | false => rfl
      | true =>
        have hne : d ≠ c := fun he => hd ⟨hok,he.symm⟩
        simp [forOne, hne]

theorem signs_carried (env : Env) :
    Carried env ok (fun s => Sound ok s ∧ Signs c env.now old n s) where
  silent s t h hst := ⟨(sound_carried env).silent s t h.1 hst,h.2.silent hst⟩
  send s d f h hf := ⟨(sound_carried env).send s d f h.1 hf,h.2.send env d f.content⟩
  forward s node request h hr := ⟨(sound_carried env).forward s node request h.1 hr,
    h.2.sender,h.2.length,h.2.sign⟩
  queued s db i m h := (sound_carried env).queued s db i m h.1

end Signs

def eventTime : Event → Option UInt64
  | .accept _ _ _ now => some now
  | .frame _ env _ => some env.now
  | .inactiveSweep now => some now
  | .ackSweep env => some env.now
  | .ghostSweep now => some now
  | .teardown _ => none
  | .restore => none

section Servers
variable {N : Naming} {ok : Bytes → Prop} {c : ClientRef} {y : System} {now : UInt64}

theorem signs_take_over (hs : Seated N y.server) (source : ClientRef) (hp : source ∈ N.parties)
    (f : RexData) (hf : Stamps N source f) (k : ClientId) (title : Bytes) (client : ClientRef)
    (hk : f.source = .ok k) (hc : f.command = .ok .login) (hl : y.server.live k = some client)
    (old : UInt64) (n : ℕ) (h : Signs c now old n y.server) :
    Signs c now old n (takeOver client source title y.server) := by
  rw [hf.source hc (by decide)] at hk
  obtain rfl := Except.ok.inj hk
  obtain ⟨hclient, hid, -⟩ := hs.live _ client hl
  obtain rfl := N.distinct hp hclient hid
  refine ⟨(hs.take_over source title).sender,h.length,?_⟩
  have hsame : lastRecv (takeOver source source title y.server) c = lastRecv y.server c :=
    modify_field y.server.clients source c _ RexClientInner.lastRecv rfl
  rw [hsame]
  exact h.sign

theorem receive_signs (hack : ∀ m, ok (ackBody m)) (hs : Seated N y.server)
    (hsound : Sound ok y.server) (d : ClientRef) (hd : d ∈ N.parties) (env : Env) (f : RexData)
    (hw : Wire ok f) (hf : Stamps N d f) {old : UInt64} {n : ℕ}
    (h : Signs c env.now old n y.server) :
    Signs c env.now old n (receiveFrame env d f y.server) := by
  unfold receiveFrame
  cases ht : handle env d f y.server with
  | error e => exact h
  | ok t =>
    obtain ⟨-, hsigns⟩ := carried_handle (signs_carried env) d f y.server t ⟨hsound,h⟩ hw hack
      (fun k title client hk hc hl => ⟨hsound.of_same rfl rfl rfl,
        signs_take_over hs d hd f hf k title client hk hc hl old n h⟩) ht
    refine ⟨fun e => ?_,hsigns.length,?_⟩
    · exact (modify_field t.clients d e _ RexClientInner.sender rfl).trans (hsigns.sender e)
    · have htouch := IdleReaping.last_recv_touch env.now d c t
      by_cases hc : c = d
      · exact .inl (htouch.trans (if_pos hc))
      · have hsame := htouch.trans (if_neg hc)
        simp only [IdleReaping.touch] at hsame
        rw [hsame]
        exact hsigns.sign

theorem step_signs (hack : ∀ m, ok (ackBody m)) (h : Hosts N y) (hsound : Sound ok y.server)
    (e : Event) (he : SeatedClients.OfParties N e) (hw : Admits ok y e)
    (hnow : ∀ t, eventTime e = some t → t = now) :
    Signs c now (lastRecv y.server c) y.server.sent.length (ServerRun.step y e).server := by
  have hstart := signs_refl c now y.server h.seated.sender
  obtain ⟨env, henv, rfl⟩ : ∃ env : Env, (∀ env', e = .ackSweep env' → env' = env) ∧
      env.now = now := by
    cases e with
    | ackSweep env => exact ⟨env,fun env' he' => (Event.ackSweep.inj he').symm,hnow _ rfl⟩
    | _ => exact ⟨{ quietEnv with now := now },by simp,rfl⟩
  refine (carried_step (signs_carried env) hack y e henv ?_ ?_ ⟨hsound,hstart⟩).2
  · rintro d uuid transport t rfl
    have hsender := (hosts_step _ h he).seated.sender
    refine ⟨step_sound hack y _ hsound trivial,hsender,?_,?_⟩
    · simp only [ServerRun.step]
      split_ifs <;> exact Nat.le_refl _
    · obtain rfl := hnow t rfl
      simp only [ServerRun.step]
      split_ifs
      · exact hstart.sign
      · rw [IdleReaping.last_recv_accept]
        split_ifs
        · exact .inl rfl
        · exact hstart.sign
  · rintro d env' f rfl
    refine ⟨step_sound hack y _ hsound hw,?_⟩
    rw [← hnow env'.now rfl] at hstart ⊢
    simp only [ServerRun.step]
    split_ifs with hd
    · exact receive_signs hack h.seated hsound d (h.parties d hd) env' f hw he hstart
    · exact hstart

end Servers

/-- A client puts nothing on its link and has no new sign, or it puts one frame
there and takes a sign. -/
inductive Says (env : ClientEnv) (b b' : ClientBase) : Prop
  | nothing : uttered env b b' = [] → lastReceipt b' = lastReceipt b → Says env b b'
  | one (g : Bytes) : uttered env b b' = [g] → lastReceipt b' = some env.now → Says env b b'

section Clients
variable {ok : Bytes → Prop} {n : ℕ} {b : ClientBase} {client : RexClientInner}

theorem says_of_sent (env : ClientEnv) (b' : ClientBase) (g : Bytes)
    (hs : b'.sent = b.sent++[g])
    (hr : lastReceipt b' = if env.sendOk then some env.now else lastReceipt b) : Says env b b' := by
  cases hok : env.sendOk with
  | true =>
    rw [hok] at hr
    refine .one g ?_ hr
    rw [uttered, hok, hs]
    exact List.drop_left
  | false =>
    rw [hok] at hr
    refine .nothing ?_ hr
    rw [uttered, hok]
    rfl

theorem last_receipt_send_data (env : ClientEnv) (f : RexData) (hb : b.client = some client)
    (r : Bool × ClientBase) (hr : b.sendDataWithClient env client f = .ok r) :
    lastReceipt r.2 = if env.sendOk then some env.now else lastReceipt b := by
  have hsome : b.client.isSome := by rw [hb]; rfl
  obtain ⟨f₁, -, hr⟩ := bind_ok hr
  obtain ⟨command, -, hr⟩ := bind_ok hr
  split_ifs at hr
  · obtain ⟨f₂, -, hr⟩ := bind_ok hr
    cases hr
    exact HeartbeatRounds.last_receipt_send env f₂.content
      { b with pendingAcks := b.pendingAcks.insert env.messageId () } hsome
  · cases hr
    exact HeartbeatRounds.last_receipt_send env f₁.content b hsome

theorem send_data_says (env : ClientEnv) (hb : b.client = some client) (f : RexData)
    (hf : Wire ok f) : Says env b (orElse b (b.sendDataWithClient env client f)) := by
  obtain ⟨h, hh⟩ := head_ok f (by have := hf.framed.length; omega)
  obtain ⟨g, -, hspoken⟩ := send_data_spoken env f b client hf h hh
  cases hd : b.sendDataWithClient env client f with
  | error e =>
    have hlen := congrArg List.length (hd ▸ hspoken.sent)
    simp [orElse] at hlen
  | ok r =>
    have hs := hspoken.sent
    rw [hd] at hs
    exact says_of_sent env _ g.content hs (last_receipt_send_data env f hb r hd)

theorem speak_says {p : Party} (hb : p.base.client = some client) (u : Utterance)
    (hp : Proper n p u) : Says u.env p.base (speak p.base u) := by
  cases u with
  | login env =>
    simp only [speak, ClientBase.login, hb]
    exact send_data_says env hb _ (login_wire hp)
  | send env f =>
    simp only [speak, hb]
    exact send_data_says env hb f hp
  | ping env =>
    simp only [speak, hb]
    exact says_of_sent env _ _ (send_buf_spoken env p.base (.new .check [] [])).sent
      (HeartbeatRounds.last_receipt_send env _ p.base (by rw [hb]; rfl))
  | call env =>
    refine .nothing ?_ rfl
    unfold uttered
    split_ifs
    · exact List.drop_length
    · rfl

theorem receive_sign (env : ClientEnv) (f : RexData) (hf : Wire ok f)
    (hb : b.client = some client) :
    (uttered env b (b.receive env f)).length ≤ 1 ∧
      lastReceipt (b.receive env f) = some env.now := by
  obtain ⟨h, hh⟩ := head_ok f (by have := hf.framed.length; omega)
  obtain ⟨⟨b', hdata⟩, hr⟩ := receive_received env hf hb (command_of_head h f hh)
    (message_id_of_head h f hh)
  constructor
  · rw [uttered, hr.sent, List.drop_left]
    unfold reply
    split_ifs <;> simp
  · rw [ClientBase.receive, hdata]
    exact HeartbeatRounds.last_receipt_received env f b b' (by rw [hb]; rfl) hdata

end Clients

/-- The last sign of life at the client's end; `far` is the one at the server's. -/
def near (c : ClientRef) (y : Net) : ℕ := ((lastReceipt (y.spoke c).base).getD 0).toNat

def far (c : ClientRef) (y : Net) : ℕ := (lastRecv y.hub.server c).toNat

/-- What a move of the network means on the line of the client `c`. -/
inductive Felt (c : ClientRef) (now : ℕ) (y z : Net) : Prop
  | none : z.up c = y.up c → z.down c = y.down c → near c z = near c y → far c z = far c y →
      Felt c now y z
  | post (q : List Bytes) : z.up c = y.up c → z.down c = y.down c++q → near c z = near c y →
      far c z = now → Felt c now y z
  | take (f : Bytes) (q : List Bytes) : y.up c = f::z.up c → z.down c = y.down c++q →
      near c z = near c y → far c z = now → Felt c now y z
  | say (g : Bytes) : z.up c = y.up c++[g] → z.down c = y.down c → near c z = now →
      far c z = far c y → Felt c now y z
  | hear (f : Bytes) (q : List Bytes) : y.down c = f::z.down c → z.up c = y.up c++q →
      q.length ≤ 1 → near c z = now → far c z = far c y → Felt c now y z

def reading : NetMove → Option UInt64
  | .act e => eventTime e
  | .speak _ u => some u.env.now
  | .serve _ env => some env.now
  | .hear _ env => some env.now

section Moves
variable {N : Naming} {n : ℕ} {c : ClientRef} {y : Net} {now : UInt64}

theorem felt_of_signs (z : Net)
    (hs : Signs c now (lastRecv y.hub.server c) y.hub.server.sent.length z.hub.server)
    (hup : z.up c = y.up c) (hspoke : z.spoke c = y.spoke c)
    (hdown : z.down c = y.down c++sentTo c (posted y.hub.server z.hub.server)) :
    Felt c now.toNat y z := by
  have hnear : near c z = near c y := by rw [near, hspoke, near]
  rcases hs.sign with hsign | ⟨hsign, hq⟩
  · exact .post _ hup hdown hnear (congrArg UInt64.toNat hsign)
  · have hnone : sentTo c (posted y.hub.server z.hub.server) = [] := by
      rw [← hq, posted, sentTo, forOne, List.filter_map, List.map_map]
      rfl
    rw [hnone, List.append_nil] at hdown
    exact .none hup hdown hnear (congrArg UInt64.toNat hsign)

theorem act_felt (hn : 45 ≤ n) (hy : Manned N n y) (e : Event) (he : Inner y.hub e)
    (ho : SeatedClients.OfParties N e) (hnow : ∀ t, eventTime e = some t → t = now) :
    Felt c now.toNat y (move nodes y (.act e)) := by
  have hadmits : Admits (Short n) y.hub e := by
    cases e with
    | frame d env f => exact absurd rfl (he d env f)
    | _ => trivial
  exact felt_of_signs _ (step_signs (short_ack hn) hy.hosts hy.sound.server e ho hadmits hnow) rfl
    rfl rfl

theorem serve_felt (hn : 45 ≤ n) (hy : Manned N n y) (d : ClientRef) (env : Env)
    (hnow : env.now = now) : Felt c now.toNat y (move nodes y (.serve d env)) := by
  cases hq : y.up d with
  | nil =>
    rw [serve_empty y d env hq]
    exact .none rfl rfl rfl rfl
  | cons f rest =>
    by_cases hopen : d ∈ y.hub.opened
    · subst hnow
      have hmem : f ∈ y.up d := by rw [hq]; exact List.mem_cons_self
      have hw := hy.sound.up d f hmem
      have hsigns := receive_signs (short_ack hn) hy.hosts.seated hy.sound.server d
        (hy.hosts.parties d hopen) env ⟨f⟩ hw (hy.sourced d f hmem)
        (signs_refl c env.now y.hub.server hy.hosts.seated.sender)
      rw [serve_move y d f rest env hq hopen]
      by_cases hd : d = c
      · subst hd
        obtain ⟨t, ht⟩ := handle_ok env d ⟨f⟩ y.hub.server hw.fits
        refine .take f _ ?_ rfl rfl (congrArg UInt64.toNat ?_)
        · simp only [Function.update_self, hq]
        · have htouch := IdleReaping.last_recv_touch env.now d d t
          rw [if_pos rfl] at htouch
          simp only [receiveFrame, ht]
          exact htouch
      · exact felt_of_signs _ hsigns (Function.update_of_ne (Ne.symm hd) _ _) rfl rfl
    · rw [serve_unopened y d env hopen]
      exact .none rfl rfl rfl rfl

theorem speak_felt (hy : Manned N n y) (d : ClientRef) (u : Utterance)
    (hp : Proper n (y.spoke d) u) (hnow : u.env.now = now) :
    Felt c now.toNat y (move nodes y (.speak d u)) := by
  by_cases hd : d = c
  · subst hd
    obtain ⟨client, hb, -⟩ := Option.map_eq_some_iff.mp (hy.object d)
    have hup : (move nodes y (.speak d u)).up d =
        y.up d++uttered u.env (y.spoke d).base (speak (y.spoke d).base u) :=
      Function.update_self ..
    have hspoke : ((move nodes y (.speak d u)).spoke d).base = speak (y.spoke d).base u := by
      rw [← Party.say_base]
      exact congrArg Party.base (Function.update_self ..)
    cases speak_says hb u hp with
    | nothing hout hr =>
      rw [hout, List.append_nil] at hup
      exact .none hup rfl (by rw [near, hspoke, hr, near]) rfl
    | one g hout hr =>
      rw [hout] at hup
      exact .say g hup rfl (by rw [near, hspoke, hr, hnow]; rfl) rfl
  · have hspoke : (move nodes y (.speak d u)).spoke c = y.spoke c :=
      Function.update_of_ne (Ne.symm hd) _ _
    exact .none (Function.update_of_ne (Ne.symm hd) _ _) rfl (by rw [near, hspoke, near]) rfl

theorem hear_felt (hy : Manned N n y) (d : ClientRef) (env : ClientEnv) (hnow : env.now = now) :
    Felt c now.toNat y (move nodes y (.hear d env)) := by
  cases hq : y.down d with
  | nil =>
    rw [hear_empty y d env hq]
    exact .none rfl rfl rfl rfl
  | cons f rest =>
    have hw := hy.sound.down d f (by rw [hq]; exact List.mem_cons_self)
    obtain ⟨client, hb, -⟩ := Option.map_eq_some_iff.mp (hy.object d)
    simp only [move, hq]
    by_cases hd : d = c
    · subst hd
      obtain ⟨hlen, hr⟩ := receive_sign env ⟨f⟩ hw hb
      refine .hear f _ ?_ (Function.update_self ..) hlen ?_ rfl
      · simp only [hq, Function.update_self]
      · simp only [near, Function.update_self, nodes, Party.hear_base, hr, hnow]
        rfl
    · refine .none (Function.update_of_ne (Ne.symm hd) _ _)
        (Function.update_of_ne (Ne.symm hd) _ _) ?_ rfl
      simp only [near, Function.update_of_ne (Ne.symm hd)]

theorem move_felt (hn : 45 ≤ n) (hy : Manned N n y) (mv : NetMove) (ho : Mannered N n y mv)
    (hnow : ∀ t, reading mv = some t → t = now) :
    Felt c now.toNat y (move nodes y mv) := by
  cases mv with
  | act e => exact act_felt hn hy e ho.1 ho.2 hnow
  | speak d u => exact speak_felt hy d u ho.2 (hnow _ rfl)
  | serve d env => exact serve_felt hn hy d env (hnow _ rfl)
  | hear d env => exact hear_felt hy d env (hnow _ rfl)

theorem Felt.near_le {z : Net} {t : ℕ} (h : Felt c t y z) (hle : near c y ≤ t) :
    near c y ≤ near c z := by
  cases h with
  | none _ _ hn _ => rw [hn]
  | post _ _ _ hn _ => rw [hn]
  | take _ _ _ _ hn _ => rw [hn]
  | say _ _ _ hn _ => rwa [hn]
  | hear _ _ _ _ _ hn _ => rwa [hn]

theorem ping_move (y : Net) (c : ClientRef) (env : ClientEnv) {client : RexClientInner}
    (hb : (y.spoke c).base.client = some client) (hok : env.sendOk = true) :
    (move nodes y (.speak c (.ping env))).up c = y.up c++[HeartbeatRounds.ping.content] ∧
      (move nodes y (.speak c (.ping env))).down c = y.down c ∧
      near c (move nodes y (.speak c (.ping env))) = env.now.toNat ∧
      far c (move nodes y (.speak c (.ping env))) = far c y := by
  have hbase : speak (y.spoke c).base (.ping env) =
      ((y.spoke c).base.sendBuf env HeartbeatRounds.ping.content).2 := by
    simp only [speak, hb]
    rfl
  have hsent : (speak (y.spoke c).base (.ping env)).sent =
      (y.spoke c).base.sent++[HeartbeatRounds.ping.content] := by
    rw [hbase]
    exact (send_buf_spoken env (y.spoke c).base HeartbeatRounds.ping).sent
  have hok' : (Utterance.ping env).env.sendOk = true := hok
  rw [speak_move y c (.ping env) _ hsent, if_pos hok']
  refine ⟨Function.update_self ..,rfl,?_,rfl⟩
  simp only [near, Function.update_self, Party.say_base, hbase]
  rw [HeartbeatRounds.last_receipt_send env _ _ (by rw [hb]; rfl), if_pos hok]
  rfl

theorem config_move (y : Net) (mv : NetMove) :
    (move nodes y mv).hub.server.config = y.hub.server.config := by
  cases mv with
  | act e => exact AckTimeout.config_step y.hub e
  | speak d u => rfl
  | serve d env =>
    cases hq : y.up d with
    | nil => rw [serve_empty y d env hq]
    | cons f rest =>
      by_cases hopen : d ∈ y.hub.opened
      · rw [serve_move y d f rest env hq hopen]
        have hstep := AckTimeout.config_step y.hub (.frame d env ⟨f⟩)
        rwa [ServerRun.step, if_pos hopen] at hstep
      · rw [serve_unopened y d env hopen]
  | hear d env =>
    cases hq : y.down d with
    | nil => rw [hear_empty y d env hq]
    | cons f rest => simp only [move, hq]

end Moves

def restamp (old new clock : ℕ) (times : List ℕ) : List ℕ :=
  times.drop (old-new)++List.replicate (new-old) clock

section Restamp
variable (l k clock : ℕ) (times : List ℕ)

theorem restamp_self : restamp l l clock times = times := by simp [restamp]

theorem restamp_append : restamp l (l+k) clock times = times++List.replicate k clock := by
  simp [restamp]

theorem restamp_tail (t : ℕ) : restamp (l+1) l clock (t::times) = times := by simp [restamp]

theorem restamp_length (h : times.length = l) : (restamp l k clock times).length = k := by
  rw [restamp, List.length_append, List.length_drop, List.length_replicate]
  omega

end Restamp

/-- The network with the clock, in seconds, and the heartbeat task of one
client. `upAt` and `downAt` are the times at which what is on the client's
links was put there, and `due` is when the sleep of the task ends. -/
structure Watch where
  net : Net
  clock : ℕ
  due : ℕ
  phase : Phase
  state : ConnectionState
  lastHeartbeat : UInt64
  upAt : List ℕ
  downAt : List ℕ

namespace Watch

def now (x : Watch) : UInt64 := UInt64.ofNat x.clock

def heart (c : ClientRef) (x : Watch) : Heart :=
  ⟨(x.net.spoke c).base,x.state,x.lastHeartbeat,x.phase,[],x.now⟩

def moved (c : ClientRef) (z : Net) (x : Watch) : Watch :=
  { x with
    net := z
    upAt := restamp (x.net.up c).length (z.up c).length x.clock x.upAt
    downAt := restamp (x.net.down c).length (z.down c).length x.clock x.downAt }

end Watch

/-- A second goes by, the network moves, or the heartbeat task does. -/
inductive Moment where
  | tick
  | move (mv : NetMove)
  | wake
  | ping (env : ClientEnv)
  | deadline

def heartbeatInterval : ℕ := 15

section Watching
variable (c : ClientRef) (idleTimeout pongWait : UInt64)

def sleep : Phase → ℕ
  | .sleeping => heartbeatInterval
  | .pinging _ => 0
  | .waiting _ => pongWait.toNat

def advance (e : HeartEvent) (x : Watch) : Watch :=
  let h := HeartbeatRounds.act idleTimeout (x.heart c) e
  { x with
    phase := h.phase
    state := h.state
    lastHeartbeat := h.lastHeartbeat
    due := x.clock+sleep pongWait h.phase }

/-- The task's ping is the network's too. -/
def pass (x : Watch) : Moment → Watch
  | .tick => { x with clock := x.clock+1 }
  | .move mv => x.moved c (move nodes x.net mv)
  | .wake => advance c idleTimeout pongWait (.wake x.now) x
  | .ping env => (advance c idleTimeout pongWait (.pinged env) x).moved c
      (move nodes x.net (.speak c (.ping env)))
  | .deadline => advance c idleTimeout pongWait (.deadline x.now) x

def watchStart (y : Net) (clock : ℕ) : Watch :=
  ⟨y,clock,clock+heartbeatInterval,.sleeping,.connected,UInt64.ofNat clock,[],[]⟩

/-- All tasks read one clock. A link of the client keeps a frame back for
`delay` seconds at most, its heartbeat task is late by `slack` at most and its
pings go through. -/
def Timely (N : Naming) (n slack delay : ℕ) (x : Watch) : Moment → Prop
  | .tick => x.clock+1 < 2^64 ∧ (∀ t ∈ x.upAt, x.clock+1 ≤ t+delay) ∧
      (∀ t ∈ x.downAt, x.clock+1 ≤ t+delay) ∧ x.clock+1 ≤ x.due+slack
  | .move mv => Mannered N n x.net mv ∧ ∀ t, reading mv = some t → t = x.now
  | .wake => x.phase = .sleeping
  | .ping env => (∃ before, x.phase = .pinging before) ∧ env.now = x.now ∧ env.sendOk = true
  | .deadline => ∃ before, x.phase = .waiting before

def pace (slack delay : ℕ) : Pace :=
  ⟨heartbeatInterval,idleTimeout.toNat,pongWait.toNat,slack,delay⟩

end Watching

def linePhase : Phase → TimedLine.Phase
  | .sleeping => .resting
  | .pinging _ => .sending
  | .waiting _ => .waiting

def line (c : ClientRef) (x : Watch) : Line :=
  ⟨x.clock,near c x.net,far c x.net,x.due,linePhase x.phase,x.upAt,x.downAt⟩

section Lines
variable {c : ClientRef} {x : Watch} {z : Net} {p : Pace}

theorem felt_steps (hup : x.upAt.length = (x.net.up c).length)
    (hdown : x.downAt.length = (x.net.down c).length) (h : Felt c x.clock x.net z) :
    Relation.ReflTransGen (TimedLine.Step p) (line c x) (line c (x.moved c z)) := by
  cases h with
  | none hu hd hn hf =>
    simp only [line, Watch.moved, hu, hd, hn, hf, restamp_self]
    exact .refl
  | post q hu hd hn hf =>
    simp only [line, Watch.moved, hu, hd, hn, hf, restamp_self, List.length_append,
      restamp_append]
    exact .single (.post (line c x) q.length)
  | take f q hu hd hn hf =>
    rw [hu] at hup
    obtain ⟨t, ts, hts⟩ := List.exists_cons_of_length_eq_add_one hup
    have htake := TimedLine.Step.take (p := p) (line c x) t ts hts
    simp only [line, Watch.moved, hu, hd, hn, hf, hts, List.length_cons, restamp_tail,
      List.length_append, restamp_append] at htake ⊢
    exact (Relation.ReflTransGen.single htake).tail (.post _ q.length)
  | say g hu hd hn hf =>
    simp only [line, Watch.moved, hu, hd, hn, hf, restamp_self, List.length_append,
      restamp_append]
    exact .single (.say (line c x))
  | hear f q hd hu hq hn hf =>
    rw [hd] at hdown
    obtain ⟨t, ts, hts⟩ := List.exists_cons_of_length_eq_add_one hdown
    have hhear := TimedLine.Step.hear (p := p) (line c x) t ts hts
    simp only [line, Watch.moved, hu, hd, hn, hf, hts, List.length_cons, restamp_tail,
      List.length_append, restamp_append] at hhear ⊢
    -- the reply, if there is one, goes up at once
    rcases Nat.le_one_iff_eq_zero_or_eq_one.mp hq with hq | hq
    · rw [hq, List.replicate_zero, List.append_nil]
      exact .single hhear
    · rw [hq]
      exact (Relation.ReflTransGen.single hhear).tail (.say _)

end Lines

/-- The watched client in good order: its line is kept, and what its task read
before a ping is older than the sign it has since. -/
structure Healthy (N : Naming) (n : ℕ) (c : ClientRef) (p : Pace) (timeout : UInt64)
    (x : Watch) : Prop where
  manned : Manned N n x.net
  timeout : x.net.hub.server.config.clientTimeout = timeout
  clock : x.clock < 2^64
  up : x.upAt.length = (x.net.up c).length
  down : x.downAt.length = (x.net.down c).length
  kept : Kept p (line c x)
  state : x.state = .connected
  pinging : ∀ b, x.phase = .pinging b → b.toNat < x.clock
  waiting : ∀ b, x.phase = .waiting b → b.toNat < near c x.net

section Health
variable {N : Naming} {n slack delay : ℕ} {c : ClientRef} {idleTimeout pongWait timeout : UInt64}
  {x : Watch}

theorem now_to_nat (h : x.clock < 2^64) : x.now.toNat = x.clock :=
  UInt64.toNat_ofNat_of_lt h

theorem Healthy.client {p : Pace} (h : Healthy N n c p timeout x) :
    ∃ client, (x.net.spoke c).base.client = some client ∧
      client.lastRecv.toNat = near c x.net := by
  obtain ⟨client, hb, -⟩ := Option.map_eq_some_iff.mp (h.manned.object c)
  exact ⟨client,hb,by simp [near, lastReceipt, hb]⟩

theorem Healthy.moved {p : Pace} (h : Healthy N n c p timeout x) (z : Net) (hz : Manned N n z)
    (hconfig : z.hub.server.config = x.net.hub.server.config) (hf : Felt c x.clock x.net z) :
    Healthy N n c p timeout (x.moved c z) where
  manned := hz
  timeout := (congrArg RexSystemConfig.clientTimeout hconfig).trans h.timeout
  clock := h.clock
  up := restamp_length _ _ _ _ h.up
  down := restamp_length _ _ _ _ h.down
  kept := h.kept.steps (felt_steps h.up h.down hf)
  state := h.state
  pinging := h.pinging
  waiting b hb := Nat.lt_of_lt_of_le (h.waiting b hb) (hf.near_le h.kept.near)

theorem healthy_wake (hidle : 0 < idleTimeout)
    (h : Healthy N n c (pace idleTimeout pongWait slack delay) timeout x)
    (hp : x.phase = .sleeping) :
    Healthy N n c (pace idleTimeout pongWait slack delay) timeout
      (pass c idleTimeout pongWait x .wake) := by
  obtain ⟨client, hb, hnear⟩ := h.client
  have hage := saturating_sub_toNat x.now client.lastRecv
  rw [now_to_nat h.clock, hnear] at hage
  have hphase : (line c x).phase = .resting := congrArg linePhase hp
  simp only [pass, advance, HeartbeatRounds.act, Watch.heart, hp, HeartbeatRounds.wakeUp, h.state,
    hb, ne_eq, not_true, if_false]
  split_ifs with hyoung
  · rw [UInt64.lt_iff_toNat_lt, hage] at hyoung
    have hlook := h.kept.step (.look (line c x) hphase (by
      show x.clock < near c x.net+idleTimeout.toNat
      omega))
    simp only [line, hp] at hlook
    exact ⟨h.manned,h.timeout,h.clock,h.up,h.down,hlook,rfl,by simp,by simp⟩
  · rw [UInt64.lt_iff_toNat_lt, hage] at hyoung
    rw [UInt64.lt_iff_toNat_lt] at hidle
    have hwake := h.kept.step (.wake (line c x) hphase)
    refine ⟨h.manned,h.timeout,h.clock,h.up,h.down,hwake,rfl,fun b hb' => ?_,by simp⟩
    obtain rfl := Phase.pinging.inj hb'
    have hzero : (0 : UInt64).toNat = 0 := rfl
    show client.lastRecv.toNat < x.clock
    omega

theorem healthy_ping (hc : c ∈ N.parties) (hn : 45 ≤ n) (env : ClientEnv)
    (h : Healthy N n c (pace idleTimeout pongWait slack delay) timeout x)
    (ho : Timely N n slack delay x (.ping env)) :
    Healthy N n c (pace idleTimeout pongWait slack delay) timeout
      (pass c idleTimeout pongWait x (.ping env)) := by
  obtain ⟨⟨before, hp⟩, hnow, hok⟩ := ho
  obtain ⟨client, hb, -⟩ := h.client
  obtain ⟨hup, hdown, hnear, hfar⟩ := ping_move x.net c env hb hok
  rw [hnow, now_to_nat h.clock] at hnear
  have htask : advance c idleTimeout pongWait (.pinged env) x =
      { x with phase := .waiting before, due := x.clock+pongWait.toNat } := by
    simp [advance, HeartbeatRounds.act, Watch.heart, hp, HeartbeatRounds.sendPing,
      ClientBase.sendBuf, hok, sleep]
  have hsend := h.kept.step (.send (line c x) (congrArg linePhase hp))
  simp only [pass, htask]
  refine ⟨manned_move hn (.speak c (.ping env)) h.manned ⟨hc,trivial⟩,h.timeout,h.clock,
    restamp_length _ _ _ _ h.up,restamp_length _ _ _ _ h.down,?_,h.state,by simp [Watch.moved],
    fun b hb' => ?_⟩
  · simp only [line, Watch.moved, hup, hdown, hnear, hfar, List.length_append, restamp_append,
      restamp_self, linePhase]
    exact hsend
  · obtain rfl := Phase.waiting.inj hb'
    exact (h.pinging before hp).trans_eq hnear.symm

theorem healthy_deadline (h : Healthy N n c (pace idleTimeout pongWait slack delay) timeout x)
    (before : UInt64) (hp : x.phase = .waiting before) :
    Healthy N n c (pace idleTimeout pongWait slack delay) timeout
      (pass c idleTimeout pongWait x .deadline) := by
  obtain ⟨client, hb, hnear⟩ := h.client
  have hfresh : ¬ client.lastRecv ≤ before := by
    have := h.waiting before hp
    rw [UInt64.le_iff_toNat_le, hnear]
    omega
  have htask : pass c idleTimeout pongWait x .deadline =
      { x with phase := .sleeping, lastHeartbeat := x.now, due := x.clock+heartbeatInterval } := by
    simp [pass, advance, HeartbeatRounds.act, Watch.heart, hp, HeartbeatRounds.judge, hb, hfresh,
      sleep]
  rw [htask]
  exact ⟨h.manned,h.timeout,h.clock,h.up,h.down,
    h.kept.step (.settle (line c x) (congrArg linePhase hp)),h.state,by simp,by simp⟩

theorem healthy_pass (hidle : 0 < idleTimeout) (hc : c ∈ N.parties) (hn : 45 ≤ n) (m : Moment)
    (h : Healthy N n c (pace idleTimeout pongWait slack delay) timeout x)
    (ho : Timely N n slack delay x m) :
    Healthy N n c (pace idleTimeout pongWait slack delay) timeout
      (pass c idleTimeout pongWait x m) := by
  cases m with
  | tick =>
    obtain ⟨hclock, hup, hdown, hlate⟩ := ho
    exact ⟨h.manned,h.timeout,hclock,h.up,h.down,
      h.kept.step (.tick (line c x) hup hdown hlate),h.state,
      fun b hb => Nat.lt_succ_of_lt (h.pinging b hb),h.waiting⟩
  | move mv =>
    have hfelt := move_felt (c := c) hn h.manned mv ho.1 ho.2
    rw [now_to_nat h.clock] at hfelt
    exact h.moved _ (manned_move hn mv h.manned ho.1) (config_move x.net mv) hfelt
  | wake => exact healthy_wake hidle h ho
  | ping env => exact healthy_ping hc hn env h ho
  | deadline =>
    obtain ⟨before, hp⟩ := ho
    exact healthy_deadline h before hp

theorem Healthy.survives {p : Pace} (h : Healthy N n c p timeout x) (hc : c ∈ N.parties)
    (hp : p.far ≤ timeout.toNat) :
    (x.net.hub.server.cleanupInactiveClients x.now).live (N.idOf c) =
      x.net.hub.server.live (N.idOf c) := by
  have hout : N.idOf c ∉ x.net.hub.server.inactive x.now := by
    rw [Server.mem_inactive_iff]
    rintro ⟨d, hl, hlate⟩
    obtain ⟨hd, hid, -⟩ := h.manned.hosts.seated.live _ d hl
    obtain rfl := N.distinct hc hd hid
    have hbound : x.clock ≤ far c x.net+p.far := h.kept.far_bound
    rw [h.timeout, UInt64.lt_iff_toNat_lt, saturating_sub_toNat, now_to_nat h.clock] at hlate
    have hfar : far c x.net = (x.net.hub.server.clients c).lastRecv.toNat := rfl
    omega
  rw [(Server.inactive_sweep_evicted x.now x.net.hub.server).live, if_neg hout]

end Health

/-- The client `c` has connected in this second, and nothing is under way. -/
structure Joined (c : ClientRef) (now : ℕ) (y : Net) : Prop where
  opened : c ∈ y.hub.opened
  clock : now < 2^64
  receipt : near c y = now
  accepted : far c y = now
  up : y.up c = []
  down : y.down c = []

theorem healthy_start {N : Naming} {n : ℕ} {c : ClientRef} {y : Net} {now : ℕ}
    (idleTimeout pongWait : UInt64) (slack delay : ℕ) (hy : Manned N n y)
    (h : Joined c now y) :
    Healthy N n c (pace idleTimeout pongWait slack delay) y.hub.server.config.clientTimeout
      (watchStart y now) where
  manned := hy
  timeout := rfl
  clock := h.clock
  up := (congrArg List.length h.up).symm
  down := (congrArg List.length h.down).symm
  kept := by
    simp only [line, watchStart, h.receipt, h.accepted]
    exact TimedLine.kept_fresh (pace idleTimeout pongWait slack delay) now
  state := rfl
  pinging := by simp [watchStart]
  waiting := by simp [watchStart]

/-- At any moment after a client has connected, whatever it and the others do,
its heartbeat task has not given the connection up and an idle sweep at that
moment leaves its session, if the timeout of the server covers the longest
silence that the client's settings, the delay of its links and the slack of
its task can add up to. -/
theorem heartbeat_keeps_session (N : Naming) (n : ℕ) (hn : 45 ≤ n) (config : RexSystemConfig)
    (cluster : ClusterPort) (db : Option SledDb) (clients : Clients)
    (hsender : ∀ d, (clients d).sender = d)
    (hstored : ∀ store i m, db = some store → store.offlineQueue.lookup i = some m →
      m.title.length ≤ 255 ∧ Short n (queuedBody m))
    (process : ClientRef → ClientBase)
    (hprocess : ∀ c, ∃ title sender now ack, process c = .opened (N.idOf c) title sender now ack)
    (mvs : List NetMove)
    (ho : Along (move nodes) (Mannered N n)
      (idleNet (start config cluster db clients) process) mvs)
    (y : Net) (hy : y = mvs.foldl (move nodes) (idleNet (start config cluster db clients) process))
    (c : ClientRef) (now : ℕ) (hjoined : Joined c now y)
    (idleTimeout pongWait : UInt64) (slack delay : ℕ) (hidle : 0 < idleTimeout)
    (hpace : (pace idleTimeout pongWait slack delay).far ≤ config.clientTimeout.toNat)
    (ms : List Moment)
    (ht : Along (pass c idleTimeout pongWait) (Timely N n slack delay) (watchStart y now) ms) :
    Always (pass c idleTimeout pongWait)
      (fun x => x.state = .connected ∧
        (x.net.hub.server.cleanupInactiveClients x.now).live (N.idOf c) =
          x.net.hub.server.live (N.idOf c))
      (watchStart y now) ms := by
  have hconfig : (start config cluster db clients).server.config = config :=
    Server.restore_keeps (fun s => s.config = config) (fun _ _ _ hr hs => hr.config.trans hs) _ rfl
  have hrun := always_of_along (move nodes) (Mannered N n)
    (fun z => Manned N n z ∧ z.hub.server.config.clientTimeout = config.clientTimeout)
    (fun z mv hz hmv => ⟨manned_move hn mv hz.1 hmv,by rw [config_move, hz.2]⟩) _ mvs
    ⟨manned_start cluster hsender hstored hprocess,
      congrArg RexSystemConfig.clientTimeout hconfig⟩ ho
  obtain ⟨hmanned, htimeout⟩ := always_last _ _ _ _ hrun
  rw [← hy] at hmanned htimeout
  have hc := hmanned.hosts.parties c hjoined.opened
  refine always_mono _ _ _ (fun x hx => ⟨hx.state,hx.survives hc ?_⟩) _ _
    (always_of_along _ _ _ (fun x m hx hm => healthy_pass hidle hc hn m hx hm) _ ms
      (healthy_start idleTimeout pongWait slack delay hmanned hjoined) ht)
  rw [htimeout]
  exact hpace

section Seconds
variable {N : Naming} {n slack delay : ℕ} {c : ClientRef} {idleTimeout pongWait : UInt64}

theorem seconds_timely (k : ℕ) (x : Watch) (hclock : x.clock+k < 2^64) (hup : x.upAt = [])
    (hdown : x.downAt = []) (hdue : x.clock+k ≤ x.due+slack) :
    Along (pass c idleTimeout pongWait) (Timely N n slack delay) x
      (List.replicate k .tick) := by
  induction k generalizing x with
  | zero => trivial
  | succ k ih =>
    refine ⟨⟨by omega,by simp [hup],by simp [hdown],by omega⟩,ih _ ?_ hup hdown ?_⟩
    · simp only [pass]
      omega
    · simp only [pass]
      omega

end Seconds

/-- A client that has connected in second zero. -/
def joined : Net :=
  [.act (.accept 0 5 "tcp" 0)].foldl (move nodes)
    (idleNet (start plainConfig .noop none unusedClients) processes)

/-- It logs in, is silent for an interval and takes a round of its heartbeat
in second fifteen. -/
def entry : List Moment :=
  [.move (.speak 0 (.login (calmEnv 1))),.move (.serve 0 quietEnv),.move (.hear 0 (calmEnv 1))]

def round : List Moment :=
  [.wake,.ping ⟨15,true,1,true⟩,.move (.serve 0 { quietEnv with now := 15 }),
    .move (.hear 0 ⟨15,true,1,true⟩)]

def beating : List Moment :=
  entry++(List.replicate 15 .tick++(round++(List.replicate 5 .tick++[.deadline])))

theorem beating_timely :
    Along (pass 0 10 5) (Timely pair 1024 1 9) (watchStart joined 0) beating := by
  have h0 : 0 ∈ pair.parties := Nat.zero_lt_two
  refine along_append _ _ _ _ _ ?_ (along_append _ _ _ _ _ ?_ (along_append _ _ _ _ _ ?_
    (along_append _ _ _ _ _ ?_ ?_)))
  · refine ⟨⟨⟨h0,by decide +kernel,by decide +kernel⟩,?_⟩,⟨trivial,?_⟩,⟨trivial,?_⟩,trivial⟩
    all_goals
      rintro t ht
      cases ht
      rfl
  · exact seconds_timely 15 _ (by decide +kernel) (by decide +kernel) (by decide +kernel)
      (by decide +kernel)
  · have hsleeping : Watch.phase ((List.replicate 15 Moment.tick).foldl (pass 0 10 5)
        (entry.foldl (pass 0 10 5) (watchStart joined 0))) = .sleeping := by decide +kernel
    refine ⟨hsleeping,⟨⟨0,by decide +kernel⟩,by decide +kernel,rfl⟩,⟨trivial,?_⟩,⟨trivial,?_⟩,
      trivial⟩
    all_goals
      rintro t ht
      cases ht
      decide +kernel
  · exact seconds_timely 5 _ (by decide +kernel) (by decide +kernel) (by decide +kernel)
      (by decide +kernel)
  · exact ⟨⟨0,by decide +kernel⟩,trivial⟩

theorem beating_session_kept :
    ((beating.foldl (pass 0 10 5) (watchStart joined 0)).net.hub.server.live 100 = some 0 ∧
      (pace 10 5 1 9).far = 45) ∧
    Always (pass 0 10 5)
      (fun x => x.state = .connected ∧
        (x.net.hub.server.cleanupInactiveClients x.now).live (pair.idOf 0) =
          x.net.hub.server.live (pair.idOf 0))
      (watchStart joined 0) beating :=
  ⟨⟨by decide +kernel,rfl⟩,heartbeat_keeps_session pair 1024 (by decide) plainConfig .noop none
    unusedClients (fun _ => rfl) (by simp) processes (fun c => ⟨[65],c,0,true,rfl⟩)
    [.act (.accept 0 5 "tcp" 0)] ⟨⟨by simp [FrameNetwork.Inner],Nat.zero_lt_two⟩,trivial⟩ joined rfl
    0 0 ⟨by decide +kernel,by decide,by decide +kernel,by decide +kernel,rfl,rfl⟩ 10 5 1 9
    (by decide) (by decide) beating beating_timely⟩

end RexMq.HealthyClient
