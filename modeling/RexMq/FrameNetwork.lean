import Mathlib.Tactic.Common
import RexMq.ClientProcess
import RexMq.FrameFields
import RexMq.SentFrames
import RexMq.StarNetwork

/-!
# A server and its clients on the wire

Every connection joins one client process to the server, with a stream of
bytes each way. A send that fails puts nothing on its stream; otherwise
nothing is lost or reordered, but bytes arrive in pieces of any size. A client
acknowledges a message first and calls the application's handler then, so the
call is a step of its own. As long as applications hand over well-formed
frames within the limits of both sides, such a network behaves as one that
exchanges whole frames through queues, and no frame on its way makes a
handler fault.
-/

set_option autoImplicit false

namespace RexMq.FrameNetwork
open RexMq.ByteWords RexMq.FiniteRun RexMq.SelfDelimiting RexMq.FrameData RexMq.FrameFields
open RexMq.FrameParser RexMq.FrameStream
open RexMq.ClientRegistry RexMq.PersistentStore RexMq.ServerState RexMq.Handlers
open RexMq.HandlerEffects RexMq.FrameAccess RexMq.PublishTrace RexMq.ServerRun RexMq.SentFrames
open RexMq.ClientProcess RexMq.StarNetwork

/-- The buffers a step of the server got through, with their connections. -/
def posted (s t : Server) : List (ClientRef × Bytes) :=
  ((t.sent.drop s.sent.length).filter Sent.ok).map (fun e => (e.sender,e.buf))

/-- The buffers a step of a client got through. -/
def uttered (env : ClientEnv) (b b' : ClientBase) : List Bytes :=
  if env.sendOk then b'.sent.drop b.sent.length else []

/-- The buffers among the calls that were for one connection. -/
def forOne (c : ClientRef) (es : List Sent) : List Bytes :=
  (es.filter (fun e => e.sender = c)).map Sent.buf

theorem for_one_append (c : ClientRef) (es fs : List Sent) :
    forOne c (es++fs) = forOne c es++forOne c fs := by
  simp [forOne]

theorem sent_to_posted (c : ClientRef) (s t : Server) (es : List Sent)
    (h : t.sent = s.sent++es) : sentTo c (posted s t) = forOne c (es.filter Sent.ok) := by
  rw [posted, h, List.drop_left, sentTo, forOne, List.filter_map, List.map_map]
  rfl

/-- What a client does without a frame: it sends the login after connecting,
what the application hands over and the heartbeat, and it calls the handler
with what it received last. -/
inductive Utterance where
  | login (env : ClientEnv)
  | send (env : ClientEnv) (f : RexData)
  | ping (env : ClientEnv)
  | call (env : ClientEnv)

def Utterance.env : Utterance → ClientEnv
  | .login env => env
  | .send env _ => env
  | .ping env => env
  | .call env => env

/-- A fault ends the task before it changes anything. -/
def orElse (b : ClientBase) (r : Except Fault (Bool × ClientBase)) : ClientBase :=
  match r with
  | .ok r => r.2
  | .error _ => b

def speak (b : ClientBase) : Utterance → ClientBase
  | .login env => orElse b (b.login env)
  | .send env f => match b.client with
    | none => b
    | some client => orElse b (b.sendDataWithClient env client f)
  | .ping env => match b.client with
    | none => b
    | some _ => (b.sendBuf env (RexData.new .check [] []).content).2
  | .call _ => b

/-- A client process and the calls of its handler that were made. The record
of its base is ahead by what the handler is still to be called with. -/
structure Party where
  base : ClientBase
  called : List Callback

namespace Party

def of (b : ClientBase) : Party := ⟨b,b.callbacks⟩

/-- The receive task takes the next frame when the calls for the ones before
have returned. -/
def hear (env : ClientEnv) (f : RexData) (p : Party) : Party :=
  ⟨p.base.receive env f,p.base.callbacks⟩

def say (u : Utterance) (p : Party) : Party :=
  ⟨speak p.base u,match u with
    | .call _ => p.base.callbacks
    | _ => p.called⟩

@[simp]
theorem of_base (b : ClientBase) : (of b).base = b := rfl

@[simp]
theorem hear_base (env : ClientEnv) (f : RexData) (p : Party) :
    (p.hear env f).base = p.base.receive env f := rfl

@[simp]
theorem say_base (u : Utterance) (p : Party) : (p.say u).base = speak p.base u := rfl

end Party

def nodes : Nodes ClientRef System Party UInt8 Env ClientEnv Event Utterance where
  ready y c := decide (c ∈ y.opened)
  serve y c env f :=
    let y' := ServerRun.step y (.frame c env ⟨f⟩)
    (y',posted y.server y'.server)
  hear p env f :=
    let p' := p.hear env ⟨f⟩
    (p',uttered env p.base p'.base)
  act y e :=
    let y' := ServerRun.step y e
    (y',posted y.server y'.server)
  speak p u :=
    let p' := p.say u
    (p',uttered u.env p.base p'.base)

abbrev Net := Queues ClientRef System Party UInt8
abbrev ByteNet := Wires ClientRef System Party UInt8
abbrev NetMove := Move ClientRef Env ClientEnv Event Utterance
abbrev NetRead := Read ClientRef Env ClientEnv Event Utterance

/-- Before any connection: a started server and client processes. -/
def idleNet (y : System) (process : ClientRef → ClientBase) : Net :=
  ⟨y,fun c => .of (process c),fun _ => [],fun _ => []⟩

def idleByteNet (y : System) (process : ClientRef → ClientBase) : ByteNet :=
  ⟨y,fun c => .of (process c),fun _ => [],fun _ => [],fun _ => [],fun _ => []⟩

section Moves
variable (y : Net) (c : ClientRef) (f : Bytes) (rest : List Bytes)

theorem serve_move (env : Env) (hq : y.up c = f::rest) (hopen : c ∈ y.hub.opened) :
    move nodes y (.serve c env) =
      { y with
        hub := { y.hub with server := receiveFrame env c ⟨f⟩ y.hub.server }
        up := Function.update y.up c rest
        down := fun j => y.down j++
          sentTo j (posted y.hub.server (receiveFrame env c ⟨f⟩ y.hub.server)) } := by
  have hstep : ServerRun.step y.hub (.frame c env ⟨f⟩) =
      { y.hub with server := receiveFrame env c ⟨f⟩ y.hub.server } := by
    simp only [ServerRun.step, if_pos hopen]
  have hready : nodes.ready y.hub c = true := decide_eq_true hopen
  simp only [move, hq, hready, if_true]
  simp only [nodes, hstep]

theorem serve_unopened (env : Env) (hopen : c ∉ y.hub.opened) :
    move nodes y (.serve c env) = y := by
  have hready : nodes.ready y.hub c = false := decide_eq_false hopen
  simp only [move, hready, Bool.false_eq_true, if_false]
  split <;> rfl

theorem serve_empty (env : Env) (hq : y.up c = []) : move nodes y (.serve c env) = y := by
  simp only [move, hq]

theorem hear_empty (env : ClientEnv) (hq : y.down c = []) : move nodes y (.hear c env) = y := by
  simp only [move, hq]

theorem hear_move (env : ClientEnv) (hq : y.down c = f::rest) (gs : List Bytes)
    (hs : ((y.spoke c).base.receive env ⟨f⟩).sent = (y.spoke c).base.sent++gs) :
    move nodes y (.hear c env) =
      { y with
        spoke := Function.update y.spoke c ((y.spoke c).hear env ⟨f⟩)
        down := Function.update y.down c rest
        up := Function.update y.up c (y.up c++if env.sendOk then gs else []) } := by
  have hut : uttered env (y.spoke c).base ((y.spoke c).hear env ⟨f⟩).base =
      if env.sendOk then gs else [] := by
    rw [uttered, Party.hear_base, hs, List.drop_left]
  simp only [move, hq, nodes, hut]

theorem speak_move (u : Utterance) (gs : List Bytes)
    (hs : (speak (y.spoke c).base u).sent = (y.spoke c).base.sent++gs) :
    move nodes y (.speak c u) =
      { y with
        spoke := Function.update y.spoke c ((y.spoke c).say u)
        up := Function.update y.up c (y.up c++if u.env.sendOk then gs else []) } := by
  have hut : uttered u.env (y.spoke c).base ((y.spoke c).say u).base =
      if u.env.sendOk then gs else [] := by
    rw [uttered, Party.say_base, hs, List.drop_left]
  simp only [move, nodes, hut]

end Moves

def ackId (f : RexData) : MessageId := readWord 64 37 f.content

def reply (client : RexClientInner) (command : RexCommand) (m : MessageId) : List Bytes :=
  if ClientBase.expectsAck command ∧ m ≠ 0 then
    [((⟨m⟩ : AckData).toRexData client.id .ack).content]
  else []

def heard (f : RexData) : RexCommand → List Callback
  | .loginReturn => [.loginOk f]
  | .title | .group | .cast | .ackReturn | .titleReturn | .groupReturn | .castReturn => [.handle f]
  | _ => []

/-- The frame the application was handed, if it was its handler that was called. -/
def handled : Callback → Option Bytes
  | .handle f => some f.content
  | .loginOk _ => none

/-- All that one received frame does to a client, its titles apart. -/
structure Received (client : RexClientInner) (f : RexData) (command : RexCommand) (m : MessageId)
    (b b' : ClientBase) : Prop where
  sent : b'.sent = b.sent++reply client command m
  pending : b'.pendingAcks =
    if command = .ackReturn then b.pendingAcks.erase (ackId f) else b.pendingAcks
  callbacks : b'.callbacks = b.callbacks++heard f command
  ackEnabled : b'.ackEnabled = b.ackEnabled
  id : b'.client.map RexClientInner.id = some client.id

section Client
variable (env : ClientEnv) (f : RexData) (b : ClientBase)

theorem sent_send_buf (buf : Bytes) : (b.sendBuf env buf).2.sent = b.sent++[buf] := by
  unfold ClientBase.sendBuf
  dsimp only
  split_ifs <;> rfl

theorem send_buf_keeps (buf : Bytes) :
    (b.sendBuf env buf).2.pendingAcks = b.pendingAcks ∧
      (b.sendBuf env buf).2.callbacks = b.callbacks ∧
      (b.sendBuf env buf).2.ackEnabled = b.ackEnabled ∧
      (b.sendBuf env buf).2.client.map RexClientInner.id = b.client.map RexClientInner.id := by
  refine ⟨?_,?_,?_,(ClientBase.same_send_buf env buf b).id⟩ <;>
  · unfold ClientBase.sendBuf
    dsimp only
    split_ifs <;> rfl

variable {ok : Bytes → Prop} {f b} {client : RexClientInner} {command : RexCommand}
  {m : MessageId} (hf : Wire ok f) (hb : b.client = some client)

include hf in
theorem ack_data_ok (hc : f.command = .ok .ack ∨ f.command = .ok .ackReturn) :
    AckData.fromRexData f = .ok ⟨ackId f⟩ := by
  have hlen := hf.acked hc
  rw [AckData.fromRexData, if_neg (by simp only [rexHeadLen, titleLenSize]; omega)]
  rfl

include hb

theorem received_message (hm : f.messageId = .ok m) (hcmd : ClientBase.expectsAck command) :
    ∃ b', b.handleMessage env f = .ok b' ∧ Received client f command m b b' := by
  have hheard : heard f command = [.handle f] := by
    cases command <;> first | rfl | cases hcmd
  have hne : command ≠ .ackReturn := by
    rintro rfl
    cases hcmd
  refine ⟨_,bind_of_ok hm,?_⟩
  by_cases h0 : m = 0
  · subst h0
    simp only [ne_eq, not_true_eq_false, if_false]
    exact ⟨by simp [reply, ClientBase.call],by rw [if_neg hne]; rfl,by rw [hheard]; rfl,rfl,
      by simp [ClientBase.call, hb]⟩
  · simp only [ne_eq, h0, not_false_eq_true, if_true, ClientBase.sendAck, hb]
    obtain ⟨hp, hcb, he, hid⟩ := send_buf_keeps env b
      ((⟨m⟩ : AckData).toRexData client.id .ack).content
    refine ⟨?_,by rw [if_neg hne]; exact hp,?_,he,?_⟩
    · rw [reply, if_pos ⟨hcmd,h0⟩]
      exact sent_send_buf env b _
    · rw [hheard, ← hcb]
      rfl
    · rw [hb] at hid
      exact hid

include hf in
theorem received_command (hc : f.command = .ok command) (hm : f.messageId = .ok m) :
    ∃ b', b.handleCommand env client f command = .ok b' ∧ Received client f command m b b' := by
  have hquiet : ¬ ClientBase.expectsAck command → reply client command m = [] := by
    intro h
    rw [reply, if_neg (fun h' => h h'.1)]
  obtain ⟨title, ht⟩ := title_ok f hf.framed.titled
  have hid : b.client.map RexClientInner.id = some client.id := by rw [hb]; rfl
  cases command with
  | title | group | cast => exact received_message env hb hm rfl
  | loginReturn | titleReturn | groupReturn | castReturn =>
    exact ⟨_,rfl,by rw [hquiet (by decide)]; exact (List.append_nil _).symm,rfl,rfl,rfl,hid⟩
  | regTitleReturn | delTitleReturn =>
    exact ⟨_,bind_of_ok ht,by rw [hquiet (by decide)]; exact (List.append_nil _).symm,rfl,
      (List.append_nil _).symm,rfl,rfl⟩
  | ackReturn =>
    obtain ⟨r, hr⟩ : ∃ r, f.retcode = .ok r := by
      obtain ⟨x, hx⟩ := head_ok f (by have := hf.framed.length; omega)
      exact ⟨_,by rw [RexData.retcode, hx]; rfl⟩
    have hack : b.handleAckReturn f =
        .ok { b with pendingAcks := b.pendingAcks.erase (ackId f) } :=
      (bind_of_ok (ack_data_ok hf (.inr hc))).trans (bind_of_ok hr)
    exact ⟨_,bind_of_ok hack,by rw [hquiet (by decide)]; exact (List.append_nil _).symm,rfl,rfl,
      rfl,hid⟩
  | login | check | checkReturn | regTitle | delTitle | ack =>
    exact ⟨_,rfl,by rw [hquiet (by decide)]; exact (List.append_nil _).symm,rfl,
      (List.append_nil _).symm,rfl,hid⟩

include hf in
theorem receive_received (hc : f.command = .ok command) (hm : f.messageId = .ok m) :
    (∃ b', b.handleReceivedData env f = .ok b') ∧
      Received client f command m b (b.receive env f) := by
  obtain ⟨b', hb', hr⟩ := received_command env hf hb hc hm
  have hdata : b.handleReceivedData env f = .ok (b'.touch env) := by
    rw [ClientBase.handleReceivedData, hb]
    exact (bind_of_ok hc).trans (bind_of_ok hb')
  refine ⟨⟨_,hdata⟩,?_⟩
  rw [ClientBase.receive, hdata]
  exact ⟨hr.sent,hr.pending,hr.callbacks,hr.ackEnabled,
    (ClientBase.same_touch env b').id.trans hr.id⟩

end Client

/-- Whether a client registers a frame as waiting for its acknowledgement. -/
def Tracked (b : ClientBase) (command : RexCommand) : Prop :=
  b.ackEnabled ∧ ClientBase.expectsAck command

instance (b : ClientBase) (command : RexCommand) : Decidable (Tracked b command) := by
  unfold Tracked
  infer_instance

/-- A frame `g` was put on the record, and waits for an acknowledgement if it is tracked. -/
structure Spoken (env : ClientEnv) (tracked : Prop) [Decidable tracked] (g : RexData)
    (b b' : ClientBase) : Prop where
  sent : b'.sent = b.sent++[g.content]
  pending : b'.pendingAcks =
    if tracked then b.pendingAcks.insert env.messageId () else b.pendingAcks
  callbacks : b'.callbacks = b.callbacks
  ackEnabled : b'.ackEnabled = b.ackEnabled
  id : b'.client.map RexClientInner.id = b.client.map RexClientInner.id

/-- What goes out for a frame handed over: the frame with the client's id,
and with a message id of its own when it is tracked. -/
structure Stamped (ok : Bytes → Prop) (env : ClientEnv) (client : RexClientInner) (h : RexHead)
    (tracked : Prop) [Decidable tracked] (g : RexData) : Prop where
  wire : Wire ok g
  head : g.head = .ok
    { h with source := client.id, messageId := if tracked then env.messageId else h.messageId }

section Speaking
variable {ok : Bytes → Prop} (env : ClientEnv) (f : RexData) (b : ClientBase)
  (client : RexClientInner)

theorem send_buf_spoken (g : RexData) :
    Spoken env False g b (b.sendBuf env g.content).2 := by
  obtain ⟨hp, hcb, he, hid⟩ := send_buf_keeps env b g.content
  exact ⟨sent_send_buf env b g.content,by rw [hp, if_neg not_false],hcb,he,hid⟩

theorem send_data_spoken (hf : Wire ok f) (h : RexHead) (hh : f.head = .ok h) :
    ∃ g, Stamped ok env client h (Tracked b (.fromU32 h.command)) g ∧
      Spoken env (Tracked b (.fromU32 h.command)) g b
        (orElse b (b.sendDataWithClient env client f)) := by
  have hlen : 36 ≤ f.content.length := by have := hf.framed.length; omega
  obtain ⟨f₁, h₁, hlen₁⟩ := head_mut_ok f 128 20 client.id hlen (by omega)
  have hhead₁ := head_set_source f f₁ h hh client.id h₁
  have hw₁ : Wire ok f₁ := wire_head_mut 128 20 _ (by omega) (by omega) hf h₁
  have hc₁ := command_of_head _ f₁ hhead₁
  unfold ClientBase.sendDataWithClient
  rw [RexData.setSource, bind_of_ok h₁, bind_of_ok hc₁]
  dsimp only
  by_cases ht : Tracked b (.fromU32 h.command)
  · obtain ⟨f₂, h₂, -⟩ := head_mut_ok f₁ 64 12 env.messageId hlen₁ (by omega)
    have hhead₂ := head_set_message_id f₁ f₂ _ hhead₁ env.messageId h₂
    refine ⟨f₂,⟨wire_head_mut 64 12 _ (by omega) (by omega) hw₁ h₂,?_⟩,?_⟩
    · rw [hhead₂, if_pos ht]
    · have hcond : (b.ackEnabled && ClientBase.expectsAck (.fromU32 h.command)) = true := by
        rw [ht.1, ht.2]
        rfl
      rw [if_pos hcond, RexData.setMessageId, bind_of_ok h₂]
      have hs := send_buf_spoken env
        { b with pendingAcks := b.pendingAcks.insert env.messageId () } f₂
      exact ⟨hs.sent,hs.pending.trans (by rw [if_pos ht, if_neg not_false]),hs.callbacks,
        hs.ackEnabled,hs.id⟩
  · refine ⟨f₁,⟨hw₁,?_⟩,?_⟩
    · rw [hhead₁, if_neg ht]
    · have hcond : ¬ (b.ackEnabled && ClientBase.expectsAck (.fromU32 h.command)) = true := by
        intro hc
        exact ht ((Bool.and_eq_true _ _).mp hc)
      rw [if_neg hcond]
      have hs := send_buf_spoken env b f₁
      exact ⟨hs.sent,hs.pending.trans (by rw [if_neg ht, if_neg not_false]),hs.callbacks,
        hs.ackEnabled,hs.id⟩

end Speaking

def Short (n : ℕ) (b : Bytes) : Prop := rexHeadLen+b.length ≤ n

structure NetSound (n : ℕ) (y : Net) : Prop where
  server : Sound (Short n) y.hub.server
  up : ∀ c, ∀ f ∈ y.up c, Wire (Short n) ⟨f⟩
  down : ∀ c, ∀ f ∈ y.down c, Wire (Short n) ⟨f⟩

/-- Frames reach the server over its links only. -/
def Inner (_ : System) (e : Event) : Prop := ∀ c env f, e ≠ .frame c env f

/-- What applications hand over is well formed and within the limit, and so is
the title string at a login. -/
def Proper (n : ℕ) (p : Party) : Utterance → Prop
  | .login _ => p.base.title.length ≤ 255 ∧ 37+p.base.title.length ≤ n
  | .send _ f => Wire (Short n) f
  | .ping _ => True
  | .call _ => True

section Network
variable {n : ℕ}

theorem short_length {f : RexData} (h : Wire (Short n) f) : f.content.length ≤ n := by
  have hb := h.body
  have hl := h.framed.length
  simp only [Short, body, List.length_drop, rexHeadLen] at hb
  omega

theorem short_ack (hn : 45 ≤ n) (m : MessageId) : Short n (ackBody m) := by
  simp only [Short, ackBody, List.length_cons, to_le_length, rexHeadLen]
  omega

theorem posted_wire {ok : Bytes → Prop} (s t : Server) (h : Sound ok t) (c : ClientRef)
    (f : Bytes) (hf : f ∈ sentTo c (posted s t)) : Wire ok ⟨f⟩ := by
  simp only [sentTo, posted, List.mem_map, List.mem_filter] at hf
  obtain ⟨_, ⟨⟨e, ⟨he, -⟩, rfl⟩, -⟩, rfl⟩ := hf
  exact h.sent e (List.mem_of_mem_drop he)

theorem uttered_mem (env : ClientEnv) (b b' : ClientBase) (gs : List Bytes)
    (h : b'.sent = b.sent++gs) (f : Bytes) (hf : f ∈ uttered env b b') : f ∈ gs := by
  unfold uttered at hf
  split_ifs at hf
  · rwa [h, List.drop_left] at hf
  · cases hf

theorem receive_wire (hn : 45 ≤ n) (env : ClientEnv) (f : RexData) (b : ClientBase)
    (hf : Wire (Short n) f) (g : Bytes) (hg : g ∈ uttered env b (b.receive env f)) :
    Wire (Short n) ⟨g⟩ := by
  have hlen : 36 ≤ f.content.length := by have := hf.framed.length; omega
  obtain ⟨command, hc⟩ := command_ok f hlen
  obtain ⟨m, hm⟩ := message_id_ok f hlen
  cases hb : b.client with
  | none =>
    have hsame : b.receive env f = b := by
      simp [ClientBase.receive, ClientBase.handleReceivedData, hb]
    have := uttered_mem env b _ [] (by rw [hsame, List.append_nil]) g hg
    cases this
  | some client =>
    have hr := (receive_received env hf hb hc hm).2
    have hmem := uttered_mem env b _ _ hr.sent g hg
    unfold reply at hmem
    split_ifs at hmem
    · obtain rfl := List.mem_singleton.mp hmem
      exact wire_ack m client.id .ack (short_ack hn m)
    · cases hmem

theorem speak_wire (hn : 45 ≤ n) (u : Utterance) (p : Party) (hu : Proper n p u) (g : Bytes)
    (hg : g ∈ uttered u.env p.base (p.say u).base) : Wire (Short n) ⟨g⟩ := by
  obtain ⟨b, called⟩ := p
  replace hg : g ∈ uttered u.env b (speak b u) := hg
  have hnone : speak b u = b → Wire (Short n) ⟨g⟩ := fun hsame =>
    absurd (uttered_mem u.env b _ [] (by rw [hsame, List.append_nil]) g hg) List.not_mem_nil
  have hsend : ∀ f env client, Wire (Short n) f → u.env = env →
      speak b u = orElse b (b.sendDataWithClient env client f) → Wire (Short n) ⟨g⟩ := by
    rintro f env client hf rfl hs
    obtain ⟨h, hh⟩ := head_ok f (by have := hf.framed.length; omega)
    obtain ⟨f', hstamp, hspoken⟩ := send_data_spoken u.env f b client hf h hh
    rw [hs] at hg
    have hmem := uttered_mem u.env b _ _ hspoken.sent g hg
    obtain rfl := List.mem_singleton.mp hmem
    exact hstamp.wire
  have hcheck : ∀ c : RexCommand, c ≠ .ack ∧ c ≠ .ackReturn → ∀ t : Bytes, t.length ≤ 255 →
      37+t.length ≤ n → Wire (Short n) (.new c t []) := by
    intro c hc t ht hle
    refine wire_new c t [] hc ht ?_
    simp only [Short, rexHeadLen, List.length_cons, List.append_nil]
    omega
  cases u with
  | login env =>
    cases hb : b.client with
    | none => exact hnone (by simp [speak, ClientBase.login, hb, orElse])
    | some client =>
      refine hsend (.new .login b.title []) env client
        (hcheck .login (by decide) _ hu.1 hu.2) rfl ?_
      simp [speak, ClientBase.login, hb]
  | send env f =>
    cases hb : b.client with
    | none => exact hnone (by simp [speak, hb])
    | some client => exact hsend f env client hu rfl (by simp [speak, hb])
  | ping env =>
    cases hb : b.client with
    | none => exact hnone (by simp [speak, hb])
    | some client =>
      have hs := (send_buf_spoken env b (.new .check [] [])).sent
      have hmem := uttered_mem env b _ [(RexData.new .check [] []).content]
        (by simpa [speak, hb] using hs) g hg
      obtain rfl := List.mem_singleton.mp hmem
      exact hcheck .check (by decide) [] (by decide) (by simp; omega)
  | call env => exact hnone rfl

theorem mem_update_append {ι α : Type*} [DecidableEq ι] (q : ι → List α) (i : ι) (gs : List α)
    (P : ι → α → Prop) (hq : ∀ j, ∀ f ∈ q j, P j f) (hgs : ∀ f ∈ gs, P i f) (j : ι) :
    ∀ f ∈ Function.update q i (q i++gs) j, P j f := by
  intro f hf
  by_cases hj : j = i
  · subst hj
    rw [Function.update_self] at hf
    rcases List.mem_append.mp hf with hf | hf
    · exact hq j f hf
    · exact hgs f hf
  · rw [Function.update_of_ne hj] at hf
    exact hq j f hf

theorem mem_update_tail {ι α : Type*} [DecidableEq ι] (q : ι → List α) (i : ι) (f : α)
    (rest : List α) (h : q i = f::rest) (P : ι → α → Prop) (hq : ∀ j, ∀ f ∈ q j, P j f) (j : ι) :
    ∀ g ∈ Function.update q i rest j, P j g := by
  intro g hg
  by_cases hj : j = i
  · subst hj
    rw [Function.update_self] at hg
    exact hq j g (by rw [h]; exact List.mem_cons_of_mem f hg)
  · rw [Function.update_of_ne hj] at hg
    exact hq j g hg

theorem mem_posted (q : ClientRef → List Bytes) (s t : Server) {ok : Bytes → Prop}
    (hq : ∀ j, ∀ f ∈ q j, Wire ok ⟨f⟩) (h : Sound ok t) (j : ClientRef) :
    ∀ f ∈ q j++sentTo j (posted s t), Wire ok ⟨f⟩ := by
  intro f hf
  rcases List.mem_append.mp hf with hf | hf
  · exact hq j f hf
  · exact posted_wire s t h j f hf

theorem net_sound_move (hn : 45 ≤ n) (y : Net) (m : NetMove) (hy : NetSound n y)
    (hm : Allowed Inner (Proper n) y m) : NetSound n (move nodes y m) := by
  cases m with
  | act e =>
    have ht : Sound (Short n) (ServerRun.step y.hub e).server := by
      refine step_sound (short_ack hn) y.hub e hy.server ?_
      cases e with
      | frame c env f => exact absurd rfl (hm c env f)
      | _ => trivial
    exact ⟨ht,hy.up,mem_posted y.down _ _ hy.down ht⟩
  | speak c u =>
    exact ⟨hy.server,mem_update_append y.up c _ _ hy.up (speak_wire hn u (y.spoke c) hm),hy.down⟩
  | serve c env =>
    simp only [move]
    split
    · exact hy
    · rename_i f rest hq
      split_ifs
      · have hf := hy.up c f (by rw [hq]; exact List.mem_cons_self)
        have ht : Sound (Short n) (ServerRun.step y.hub (.frame c env ⟨f⟩)).server :=
          step_sound (short_ack hn) y.hub _ hy.server hf
        exact ⟨ht,mem_update_tail y.up c f rest hq _ hy.up,mem_posted y.down _ _ hy.down ht⟩
      · exact hy
  | hear c env =>
    simp only [move]
    split
    · exact hy
    · rename_i f rest hq
      have hf := hy.down c f (by rw [hq]; exact List.mem_cons_self)
      exact ⟨hy.server,
        mem_update_append y.up c _ _ hy.up (receive_wire hn env ⟨f⟩ (y.spoke c).base hf),
        mem_update_tail y.down c f rest hq _ hy.down⟩

theorem stays_ready : StaysReady nodes := by
  intro y c env f d hd
  simp only [nodes, decide_eq_true_eq] at hd ⊢
  simp only [ServerRun.step]
  split_ifs
  · exact hd
  · exact hd

theorem net_framing (hn : 45 ≤ n) (hubLimit spokeLimit : ℕ) (hh : n ≤ hubLimit)
    (hs : n ≤ spokeLimit) (h32 : n < 2^32) :
    Framing nodes splitFrame hubLimit spokeLimit Counted Inner (Proper n) (NetSound n) where
  delimits := split_delimits
  ready := stays_ready
  keeps := net_sound_move hn
  up y hy c f hf := by
    have hw := hy.up c f hf
    have hle := short_length hw
    exact ⟨framed_counted ⟨f⟩ hw.framed (by omega),by dsimp only at hle; omega⟩
  down y hy c f hf := by
    have hw := hy.down c f hf
    have hle := short_length hw
    exact ⟨framed_counted ⟨f⟩ hw.framed (by omega),by dsimp only at hle; omega⟩

/-- A read of the server is one round of its driver. -/
theorem serve_read_drives (c : ClientRef) (es : ℕ → Env) (limit fuel : ℕ)
    (i : Inbox (System × List (ClientRef × Bytes) × ℕ) UInt8) (chunk : Bytes) :
    receive splitFrame (serveNext nodes c es) limit fuel i chunk =
      drive (fun r f => serveNext nodes c es r f.content) id limit fuel i chunk :=
  (parse_frames_receive (fun r f => serveNext nodes c es r f.content) limit fuel i chunk).symm

/-- A read of a client is one round of its receive task. -/
theorem hear_read_receives (ds : ℕ → ClientEnv) (limit fuel : ℕ)
    (i : Inbox (Party × List Bytes × ℕ) UInt8) (chunk : Bytes) :
    receive splitFrame (hearNext nodes ds) limit fuel i chunk =
      receiveData (fun r f => hearNext nodes ds r f.content) limit fuel i chunk :=
  (parse_frames_receive (fun r f => hearNext nodes ds r f.content) limit fuel i chunk).symm

/-- No frame on its way can make a handler fault, whatever state it meets. -/
structure Handled (y : Net) : Prop where
  served : ∀ c, ∀ f ∈ y.up c, ∀ env d s, ∃ t, handle env d ⟨f⟩ s = .ok t
  heard : ∀ c, ∀ f ∈ y.down c, ∀ env (b : ClientBase), ∃ b', b.handleReceivedData env ⟨f⟩ = .ok b'

theorem NetSound.handled {y : Net} (h : NetSound n y) : Handled y := by
  refine ⟨fun c f hf env d s => handle_ok env d ⟨f⟩ s (h.up c f hf).fits,fun c f hf env b => ?_⟩
  have hw := h.down c f hf
  have hlen : 36 ≤ (RexData.mk f).content.length := by have := hw.framed.length; omega
  obtain ⟨command, hc⟩ := command_ok ⟨f⟩ hlen
  obtain ⟨m, hm⟩ := message_id_ok ⟨f⟩ hlen
  cases hb : b.client with
  | none => exact ⟨b,by simp [ClientBase.handleReceivedData, hb]⟩
  | some client => exact (receive_received env hw hb hc hm).1

end Network

/-- A network that starts empty and whose applications keep to the limit runs
by bytes as it would by frames, however the bytes are cut: every read ends,
no buffer is cleared, and every frame sent is handled whole, once and in the
order of its link, without a fault. -/
theorem byte_network_refines_frames (n hubLimit spokeLimit : ℕ) (hn : 45 ≤ n) (hh : n ≤ hubLimit)
    (hs : n ≤ spokeLimit) (h32 : n < 2^32) (config : RexSystemConfig) (cluster : ClusterPort)
    (db : Option SledDb) (clients : Clients)
    (hdb : ∀ store i m, db = some store → store.offlineQueue.lookup i = some m →
      m.title.length ≤ 255 ∧ Short n (queuedBody m))
    (process : ClientRef → ClientBase) (rs : List NetRead)
    (hr : Permits nodes splitFrame hubLimit spokeLimit Inner (Proper n)
      (idleByteNet (start config cluster db clients) process) rs) :
    ∃ x ms, rs.foldlM (StarNetwork.step nodes splitFrame hubLimit spokeLimit)
        (idleByteNet (start config cluster db clients) process) = some x ∧
      Along (move nodes) (Allowed Inner (Proper n))
        (idleNet (start config cluster db clients) process) ms ∧
      Refines splitFrame x (ms.foldl (move nodes)
        (idleNet (start config cluster db clients) process)) ∧
      Handled (ms.foldl (move nodes) (idleNet (start config cluster db clients) process)) := by
  have hF := net_framing hn hubLimit spokeLimit hh hs h32
  have hstart : NetSound n (idleNet (start config cluster db clients) process) := by
    refine ⟨sound_start config cluster db clients hdb,?_,?_⟩
    · exact fun c f hf => absurd hf List.not_mem_nil
    · exact fun c f hf => absurd hf List.not_mem_nil
  have hidle : Refines splitFrame (idleByteNet (start config cluster db clients) process)
      (idleNet (start config cluster db clients) process) :=
    ⟨rfl,rfl,fun _ => ⟨rfl,rfl⟩,fun _ => ⟨rfl,rfl⟩⟩
  obtain ⟨x, ms, hx, ha, hxy⟩ := hF.refine_run rs _ _ hstart hidle hr
  exact ⟨x,ms,hx,ha,hxy,(hF.run _ ms hstart ha).handled⟩

def calmEnv (m : MessageId) : ClientEnv := ⟨0,true,m,true⟩

/-- Processes with the ids 100, 101, ... and the title `A`. -/
def processes (c : ClientRef) : ClientBase := .opened (BitVec.ofNat 128 (100+c)) [65] c 0 true

/-- A login cut after ten bytes. -/
theorem cut_login_refines :
    ∃ x ms, [.act (.accept 0 5 "tcp" 0),.speak 0 (.login (calmEnv 1)),
          .serve 0 10 (fun _ => quietEnv),.serve 0 100 (fun _ => quietEnv),
          .hear 0 100 (fun _ => calmEnv 1)].foldlM
        (StarNetwork.step nodes splitFrame 1024 1024)
        (idleByteNet (start plainConfig .noop none unusedClients) processes) = some x ∧
      Along (move nodes) (Allowed Inner (Proper 1024))
        (idleNet (start plainConfig .noop none unusedClients) processes) ms ∧
      Refines splitFrame x (ms.foldl (move nodes)
        (idleNet (start plainConfig .noop none unusedClients) processes)) ∧
      Handled (ms.foldl (move nodes)
        (idleNet (start plainConfig .noop none unusedClients) processes)) := by
  refine byte_network_refines_frames 1024 1024 1024 (by decide) le_rfl le_rfl (by decide)
    plainConfig .noop none unusedClients (fun _ _ _ h => by cases h) processes _ ?_
  refine ⟨fun _ _ _ => by simp,fun x hx => ⟨?_,fun _ _ => ⟨trivial,fun _ _ =>
    ⟨trivial,fun _ _ => ⟨trivial,fun _ _ => trivial⟩⟩⟩⟩⟩
  cases hx
  exact ⟨by decide,by decide⟩

end RexMq.FrameNetwork
