import Mathlib.Tactic.Common
import RexMq.AckOutcomes
import RexMq.MessageAccount

/-!
# Acknowledged messages across the network

A message with an id is published by one client, passed on by the server to
its targets, acknowledged by each of them, and the first acknowledgement is
returned to the publisher. While no send fails, no connection ends and no
sweep finds anything, the frames about one id on all links, the records of
all clients and the server's pending acknowledgements keep a balanced
account. A client acknowledges a message before it calls the handler, so what
is heard and told counts what clients took, and the calls of their handlers
follow. Once the links are empty and no call is due, the handlers have been
called with every message that has a target, and those of all publishers with
its return.
-/

set_option autoImplicit false

namespace RexMq.AckRoundTrip
open RexMq.ByteWords RexMq.FiniteRun RexMq.FrameData RexMq.FrameFields RexMq.ClientRegistry
open RexMq.PersistentStore RexMq.ServerState RexMq.Handlers RexMq.HandlerEffects RexMq.FrameAccess
open RexMq.PublishTrace RexMq.ServerRun RexMq.SentFrames RexMq.ClientProcess RexMq.StarNetwork
open RexMq.FrameNetwork RexMq.SeatedClients RexMq.MannedNetwork RexMq.AckOutcomes
open RexMq.MessageAccount

def messages (m : MessageId) (q : List Bytes) : List Bytes :=
  q.filter (fun f => kind f = .message m)

def tally (k : Kind) (q : List Bytes) : ℕ := q.countP (fun f => kind f = k)

def calls (k : Kind) (cs : List Callback) : ℕ := tally k (cs.filterMap handled)

/-- All there is about one message id in the network. -/
def account (y : Net) (m : MessageId) : Account ClientRef ClientId Bytes where
  published c := messages m (y.spoke c).base.sent
  upMessages c := messages m (y.up c)
  copies c := tally (.message m) (forOne c y.hub.server.sent)
  downMessages c := tally (.message m) (y.down c)
  heard c := calls (.message m) (y.spoke c).base.callbacks
  upAcks c := tally (.ack m) (y.up c)
  owed := (y.hub.server.pendingAcks.lookup m).map PendingAckInfo.sourceClientId
  downReturns c := tally (.ackReturn m) (y.down c)
  told c := calls (.ackReturn m) (y.spoke c).base.callbacks
  waiting c := decide (m ∈ (y.spoke c).base.pendingAcks)

/-- The account by the calls of the handlers that were made. -/
def callAccount (y : Net) (m : MessageId) : Account ClientRef ClientId Bytes :=
  { account y m with
    heard := fun c => calls (.message m) (y.spoke c).called
    told := fun c => calls (.ackReturn m) (y.spoke c).called }

theorem call_account_of_none_due (y : Net) (m : MessageId)
    (h : ∀ c, (y.spoke c).called = (y.spoke c).base.callbacks) :
    callAccount y m = account y m := by
  simp only [callAccount, h]
  rfl

/-- Broadcasts may have several targets. -/
def wide (f : Bytes) : Prop := (RexData.mk f).command = .ok .cast

section Counting
variable (m : MessageId) (k : Kind)

theorem messages_append (q r : List Bytes) : messages m (q++r) = messages m q++messages m r := by
  simp [messages]

theorem tally_append (q r : List Bytes) : tally k (q++r) = tally k q+tally k r := by
  simp [tally]

theorem tally_cons (f : Bytes) (q : List Bytes) :
    tally k (f::q) = tally k q+if kind f = k then 1 else 0 := by
  simp [tally, List.countP_cons]

@[simp] theorem tally_nil : tally k [] = 0 := rfl

@[simp] theorem messages_nil : messages m [] = [] := rfl

theorem messages_cons (f : Bytes) (q : List Bytes) :
    messages m (f::q) = if kind f = .message m then f::messages m q else messages m q := by
  simp only [messages, List.filter_cons, decide_eq_true_eq]

theorem tally_replicate (f : Bytes) (i : ℕ) :
    tally k (List.replicate i f) = if kind f = k then i else 0 := by
  induction i with
  | zero => simp
  | succ i ih =>
    rw [List.replicate_succ, tally_cons, ih]
    split_ifs <;> rfl

theorem calls_append (cs : List Callback) (ds : List Callback) :
    calls k (cs++ds) = calls k cs+calls k ds := by
  simp [calls, tally_append]

theorem update_entry {ι α β : Type*} [DecidableEq ι] (g : α → β) (q : ι → α) (c : ι) (v : α) :
    (fun d => g (Function.update q c v d)) = Function.update (fun d => g (q d)) c (g v) := by
  funext d
  by_cases hd : d = c
  · subst hd
    simp
  · simp [hd]

theorem for_one_copies (c : ClientRef) (ts : List ClientRef) (buf : Bytes) :
    forOne c (ts.map fun d => ⟨d,buf,true⟩) = List.replicate (ts.count c) buf := by
  induction ts with
  | nil => rfl
  | cons d ts ih =>
    rw [List.map_cons, ← List.singleton_append, for_one_append, ih, List.count_cons]
    by_cases hd : d = c
    · subst hd
      simp [forOne, List.replicate_succ]
    · simp [forOne, hd]

end Counting

section Moves
variable (y : Net) (c : ClientRef) (m : MessageId)

theorem account_serve (env : Env) (f : Bytes) (rest : List Bytes) (hq : y.up c = f::rest)
    (hopen : c ∈ y.hub.opened) (es : List Sent)
    (hs : (receiveFrame env c ⟨f⟩ y.hub.server).sent = y.hub.server.sent++es) :
    account (move nodes y (.serve c env)) m =
      { account y m with
        upMessages := Function.update (account y m).upMessages c (messages m rest)
        upAcks := Function.update (account y m).upAcks c (tally (.ack m) rest)
        copies := fun d => (account y m).copies d+tally (.message m) (forOne d es)
        downMessages := fun d =>
          (account y m).downMessages d+tally (.message m) (forOne d (es.filter Sent.ok))
        downReturns := fun d =>
          (account y m).downReturns d+tally (.ackReturn m) (forOne d (es.filter Sent.ok))
        owed := ((receiveFrame env c ⟨f⟩ y.hub.server).pendingAcks.lookup m).map
          PendingAckInfo.sourceClientId } := by
  rw [serve_move y c f rest env hq hopen]
  simp only [account, update_entry, sent_to_posted _ _ _ es hs, tally_append, hs, for_one_append]

theorem spoke_entries (p : Party) (b : ClientBase) (hb : p.base = b) :
    (fun d => messages m (Function.update y.spoke c p d).base.sent) =
        Function.update (account y m).published c (messages m b.sent) ∧
      (fun d => calls (.message m) (Function.update y.spoke c p d).base.callbacks) =
        Function.update (account y m).heard c (calls (.message m) b.callbacks) ∧
      (fun d => calls (.ackReturn m) (Function.update y.spoke c p d).base.callbacks) =
        Function.update (account y m).told c (calls (.ackReturn m) b.callbacks) ∧
      (fun d => decide (m ∈ (Function.update y.spoke c p d).base.pendingAcks)) =
        Function.update (account y m).waiting c (decide (m ∈ b.pendingAcks)) := by
  subst hb
  exact ⟨update_entry (fun p : Party => messages m p.base.sent) y.spoke c p,
    update_entry (fun p : Party => calls (.message m) p.base.callbacks) y.spoke c p,
    update_entry (fun p : Party => calls (.ackReturn m) p.base.callbacks) y.spoke c p,
    update_entry (fun p : Party => decide (m ∈ p.base.pendingAcks)) y.spoke c p⟩

theorem account_hear (env : ClientEnv) (f : Bytes) (rest : List Bytes) (hq : y.down c = f::rest)
    (hok : env.sendOk = true) (gs : List Bytes)
    (hs : ((y.spoke c).base.receive env ⟨f⟩).sent = (y.spoke c).base.sent++gs) :
    account (move nodes y (.hear c env)) m =
      { account y m with
        published := Function.update (account y m).published c
          ((account y m).published c++messages m gs)
        upMessages := Function.update (account y m).upMessages c
          ((account y m).upMessages c++messages m gs)
        upAcks := Function.update (account y m).upAcks c
          ((account y m).upAcks c+tally (.ack m) gs)
        downMessages := Function.update (account y m).downMessages c (tally (.message m) rest)
        downReturns := Function.update (account y m).downReturns c (tally (.ackReturn m) rest)
        heard := Function.update (account y m).heard c
          (calls (.message m) ((y.spoke c).base.receive env ⟨f⟩).callbacks)
        told := Function.update (account y m).told c
          (calls (.ackReturn m) ((y.spoke c).base.receive env ⟨f⟩).callbacks)
        waiting := Function.update (account y m).waiting c
          (decide (m ∈ ((y.spoke c).base.receive env ⟨f⟩).pendingAcks)) } := by
  obtain ⟨hpub, hheard, htold, hwait⟩ :=
    spoke_entries y c m ((y.spoke c).hear env ⟨f⟩) _ (Party.hear_base env ⟨f⟩ _)
  rw [hear_move y c f rest env hq gs hs, if_pos hok]
  simp only [account, update_entry, tally_append, messages_append, hpub, hheard, htold, hwait, hs]

theorem account_speak (u : Utterance) (gs : List Bytes)
    (hs : (speak (y.spoke c).base u).sent = (y.spoke c).base.sent++gs)
    (hcb : (speak (y.spoke c).base u).callbacks = (y.spoke c).base.callbacks) :
    account (move nodes y (.speak c u)) m =
      { account y m with
        published := Function.update (account y m).published c
          ((account y m).published c++messages m gs)
        upMessages := Function.update (account y m).upMessages c
          ((account y m).upMessages c++messages m (if u.env.sendOk then gs else []))
        upAcks := Function.update (account y m).upAcks c
          ((account y m).upAcks c+tally (.ack m) (if u.env.sendOk then gs else []))
        waiting := Function.update (account y m).waiting c
          (decide (m ∈ (speak (y.spoke c).base u).pendingAcks)) } := by
  obtain ⟨hpub, hheard, htold, hwait⟩ :=
    spoke_entries y c m ((y.spoke c).say u) _ (Party.say_base u _)
  rw [hcb] at hheard htold
  rw [speak_move y c u gs hs]
  simp only [account, update_entry, tally_append, messages_append, hpub, hheard, htold, hwait, hs,
    Function.update_eq_self]

end Moves

/-- A network whose processes have different ids and wait for
acknowledgements, on the way through an orderly run. -/
structure Ready (N : Naming) (n : ℕ) (y : Net) : Prop where
  manned : Manned N n y
  debts : Debts y.hub.server
  acks : ∀ c, (y.spoke c).base.ackEnabled = true
  named : ∀ c, ∀ f ∈ y.up c, kind f ≠ .message 0 ∧ ∀ m, kind f ≠ .ackReturn m
  passed : ∀ c, ∀ f ∈ y.down c, kind f ≠ .message 0

/-- An application's send: acknowledgements are left to the client, a message
gets through and draws an id that is not zero and not used before. -/
structure Sendable (y : Net) (env : ClientEnv) (f : RexData) : Prop where
  command : f.command ≠ .ok .ack ∧ f.command ≠ .ok .ackReturn
  message : ∀ command, f.command = .ok command → ClientBase.expectsAck command →
    env.sendOk = true ∧ env.messageId ≠ 0 ∧
      ∀ d, messages env.messageId (y.spoke d).base.sent = []

/-- Orderly moves: no send fails, no connection ends and no sweep finds
anything, and messages are published by clients that are logged in and have a
listener. -/
def Orderly (N : Naming) (n : ℕ) (y : Net) : NetMove → Prop
  | .act (.accept c _ _ _) => c ∈ N.parties
  | .act (.inactiveSweep now) =>
    y.hub.server.registry.takeInactive y.hub.server.clients now
      y.hub.server.config.clientTimeout = []
  | .act (.ackSweep env) => y.hub.server.expiredAcks env.now = []
  | .act _ => False
  | .speak c u =>
    c ∈ N.parties ∧ Proper n (y.spoke c) u ∧ ∀ env f, u = .send env f → Sendable y env f
  | .serve c env => ∀ f rest, y.up c = f::rest → Awaited env c ⟨f⟩ y.hub.server
  | .hear _ env => env.sendOk = true

section Speaking
variable {N : Naming} {n : ℕ} {y : Net}

/-- What a client puts on its link by itself: at most one frame. -/
inductive Speech (y : Net) (c : ClientRef) (u : Utterance) (b : ClientBase) : Prop
  | aside (gs : List Bytes) : b.sent = (y.spoke c).base.sent++gs → (∀ g ∈ gs, kind g = .other) →
      b.pendingAcks = (y.spoke c).base.pendingAcks → Speech y c u b
  | message (g : Bytes) : b.sent = (y.spoke c).base.sent++[g] → kind g = .message u.env.messageId →
      u.env.sendOk = true → u.env.messageId ≠ 0 →
      (∀ d, messages u.env.messageId (y.spoke d).base.sent = []) →
      b.pendingAcks = (y.spoke c).base.pendingAcks.insert u.env.messageId () → Speech y c u b

theorem speech_of_send {ok : Bytes → Prop} (c : ClientRef) (u : Utterance)
    (client : RexClientInner) (hack : (y.spoke c).base.ackEnabled = true) (f : RexData)
    (hf : Wire ok f)
    (hcommand : f.command ≠ .ok .ack ∧ f.command ≠ .ok .ackReturn)
    (hmessage : ∀ command, f.command = .ok command → ClientBase.expectsAck command →
      u.env.sendOk = true ∧ u.env.messageId ≠ 0 ∧
        ∀ d, messages u.env.messageId (y.spoke d).base.sent = []) :
    Speech y c u
      (orElse (y.spoke c).base ((y.spoke c).base.sendDataWithClient u.env client f)) := by
  obtain ⟨h, hh⟩ := head_ok f (by have := hf.framed.length; omega)
  obtain ⟨g, hstamp, hspoken⟩ := send_data_spoken u.env f (y.spoke c).base client hf h hh
  have hc := command_of_head h f hh
  have hkind := kind_of_head g _ hstamp.head
  rw [hc] at hcommand hmessage
  dsimp only at hkind
  by_cases hexp : ClientBase.expectsAck (.fromU32 h.command)
  · have ht : Tracked (y.spoke c).base (.fromU32 h.command) := ⟨hack,hexp⟩
    obtain ⟨hsend, hne, hnew⟩ := hmessage _ rfl hexp
    have hp := hspoken.pending
    rw [if_pos ht] at hp hkind
    refine .message g.content hspoken.sent ?_ hsend hne hnew hp
    rw [hkind]
    generalize RexCommand.fromU32 h.command = command at hexp ⊢
    cases command <;> first | rfl | cases hexp
  · have ht : ¬ Tracked (y.spoke c).base (.fromU32 h.command) := fun ht => hexp ht.2
    have hp := hspoken.pending
    rw [if_neg ht] at hp
    refine .aside [g.content] hspoken.sent (fun g' hg => ?_) hp
    obtain rfl := List.mem_singleton.mp hg
    rw [hkind]
    generalize RexCommand.fromU32 h.command = command at hexp hcommand ⊢
    cases command with
    | title | group | cast => exact absurd rfl hexp
    | ack => exact absurd rfl hcommand.1
    | ackReturn => exact absurd rfl hcommand.2
    | _ => rfl

theorem speak_speech (hy : Ready N n y) (c : ClientRef) (u : Utterance)
    (ho : Orderly N n y (.speak c u)) : Speech y c u (speak (y.spoke c).base u) := by
  obtain ⟨client, hb, -⟩ := Option.map_eq_some_iff.mp (hy.manned.object c)
  cases u with
  | login env =>
    have hc := new_command .login (y.spoke c).base.title []
    have hs := speech_of_send c (.login env) client (hy.acks c) _ (login_wire ho.2.1)
      (by rw [hc]; exact ⟨by simp,by simp⟩) (by rw [hc]; rintro _ ⟨⟩ ⟨⟩)
    simp only [speak, ClientBase.login, hb]
    exact hs
  | send env f =>
    have hf := ho.2.2 env f rfl
    have hs := speech_of_send c (.send env f) client (hy.acks c) f ho.2.1 hf.command hf.message
    simp only [speak, hb]
    exact hs
  | ping env =>
    have hs := send_buf_spoken env (y.spoke c).base (.new .check [] [])
    have hp := hs.pending
    rw [if_neg not_false] at hp
    simp only [speak, hb]
    refine .aside _ hs.sent (fun g hg => ?_) hp
    obtain rfl := List.mem_singleton.mp hg
    exact kind_of_aside _ .check (fun _ _ => rfl) (new_command .check [] [])
  | call env =>
    exact .aside [] (List.append_nil _).symm (fun g hg => absurd hg List.not_mem_nil) rfl

end Speaking

section Steps
variable {N : Naming} {n : ℕ} {y : Net}

theorem Orderly.mannered {mv : NetMove} (ho : Orderly N n y mv) : Mannered N n y mv := by
  cases mv with
  | act e =>
    cases e with
    | frame c env f => exact ho.elim
    | accept c uuid transport now => exact ⟨nofun,ho⟩
    | teardown c | inactiveSweep now | ackSweep env | ghostSweep now | restore =>
      exact ⟨nofun,trivial⟩
  | speak c u => exact ⟨ho.1,ho.2.1⟩
  | serve c env => trivial
  | hear c env => trivial

/-- Orderly acts of the server send nothing, settle nothing and end no session. -/
structure Calm (s t : Server) : Prop where
  sent : t.sent = s.sent
  pending : t.pendingAcks = s.pendingAcks
  config : t.config = s.config
  live : ∀ k, t.live k = s.live k

theorem act_calm (e : Event) (ho : Orderly N n y (.act e)) :
    Calm y.hub.server (ServerRun.step y.hub e).server := by
  have hsame : ∀ t : Server, t = y.hub.server → Calm y.hub.server t := by
    rintro t rfl
    exact ⟨rfl,rfl,rfl,fun _ => rfl⟩
  cases e with
  | accept c uuid transport now =>
    simp only [ServerRun.step]
    split_ifs
    · exact hsame _ rfl
    · exact ⟨rfl,rfl,rfl,fun _ => rfl⟩
  | inactiveSweep now =>
    apply hsame
    simp only [ServerRun.step, Server.cleanupInactiveClients]
    rw [show y.hub.server.registry.takeInactive y.hub.server.clients now
      y.hub.server.config.clientTimeout = [] from ho]
    rfl
  | ackSweep env =>
    apply hsame
    have he : y.hub.server.expiredAcks env.now = [] := ho
    simp only [ServerRun.step, sweepAcks, Server.cleanupExpiredAcks, he]
    split_ifs <;> rfl
  | frame c env f => exact ho.elim
  | teardown c => exact ho.elim
  | ghostSweep now => exact ho.elim
  | restore => exact ho.elim

theorem posted_same (s t : Server) (h : t.sent = s.sent) : posted s t = [] := by
  rw [posted, h, List.drop_length]
  rfl

theorem ready_move (hn : 45 ≤ n) (mv : NetMove) (hy : Ready N n y) (ho : Orderly N n y mv) :
    Ready N n (move nodes y mv) := by
  have hmanned := manned_move hn mv hy.manned ho.mannered
  have hacks : ∀ c (p : Party), p.base.ackEnabled = (y.spoke c).base.ackEnabled →
      ∀ d, (Function.update y.spoke c p d).base.ackEnabled = true := by
    intro c p hp d
    by_cases hd : d = c
    · subst hd
      simpa [hp] using hy.acks d
    · simpa [hd] using hy.acks d
  cases mv with
  | act e =>
    have hcalm := act_calm e ho
    refine ⟨hmanned,⟨hcalm.config ▸ hy.debts.ack,fun m info hm => ?_⟩,hy.acks,hy.named,?_⟩
    · obtain ⟨d, hd⟩ := hy.debts.live m info (hcalm.pending ▸ hm)
      exact ⟨d,(hcalm.live _).trans hd⟩
    · simp only [move, nodes, posted_same _ _ hcalm.sent]
      simpa using hy.passed
  | speak c u =>
    obtain ⟨-, -, -, hkept⟩ := speak_stamps (hy.manned.object c) u ho.2.1
    have hup : ∀ gs, (speak (y.spoke c).base u).sent = (y.spoke c).base.sent++gs →
        (∀ g ∈ gs, kind g ≠ .message 0 ∧ ∀ m, kind g ≠ .ackReturn m) →
        Ready N n (move nodes y (.speak c u)) := by
      intro gs hs hgs
      refine ⟨hmanned,hy.debts,hacks c _ hkept.ackEnabled,?_,hy.passed⟩
      exact mem_update_append y.up c _ _ hy.named
        fun g hg => hgs g (uttered_mem u.env _ _ gs hs g hg)
    cases speak_speech hy c u ho with
    | aside gs hs hgs _ =>
      refine hup gs hs fun g hg => ?_
      rw [hgs g hg]
      exact ⟨by simp,by simp⟩
    | message g hs hk _ hne _ _ =>
      refine hup [g] hs fun g' hg => ?_
      obtain rfl := List.mem_singleton.mp hg
      rw [hk]
      refine ⟨fun h0 => hne ?_,by simp⟩
      injection h0
  | serve c env =>
    cases hq : y.up c with
    | nil => rwa [serve_empty y c env hq]
    | cons f rest =>
      by_cases hopen : c ∈ y.hub.opened
      · have hmem : f ∈ y.up c := by rw [hq]; exact List.mem_cons_self
        obtain ⟨hout, hdebts⟩ := serve_outcome hy.manned.hosts.seated hy.debts
          (hy.manned.sound.up c f hmem) (ho f rest hq) (hy.named c f hmem).1 (hy.named c f hmem).2
        obtain ⟨es, hsent, hes⟩ := hout.sent (hy.named c f hmem).1
        rw [serve_move y c f rest env hq hopen] at hmanned ⊢
        refine ⟨hmanned,hdebts,hy.acks,mem_update_tail y.up c f rest hq _ hy.named,
          fun d g hg => ?_⟩
        dsimp only at hg
        rw [sent_to_posted d _ _ es hsent] at hg
        rcases List.mem_append.mp hg with hg | hg
        · exact hy.passed d g hg
        · obtain ⟨e, he, rfl⟩ := List.mem_map.mp hg
          exact hes e (List.mem_of_mem_filter (List.mem_of_mem_filter he))
      · rwa [serve_unopened y c env hopen]
  | hear c env =>
    cases hq : y.down c with
    | nil => rwa [hear_empty y c env hq]
    | cons f rest =>
      obtain ⟨client, head, -, -, hr⟩ :=
        hy.manned.received c env f (by rw [hq]; exact List.mem_cons_self)
      have hreply : ∀ g ∈ reply client (.fromU32 head.command) head.messageId,
          kind g ≠ .message 0 ∧ ∀ m, kind g ≠ .ackReturn m := by
        intro g hg
        unfold reply at hg
        split_ifs at hg
        · obtain rfl := List.mem_singleton.mp hg
          rw [ack_kind]
          exact ⟨by simp [kindOf],by simp [kindOf]⟩
        · cases hg
      simp only [move, hq] at hmanned ⊢
      refine ⟨hmanned,hy.debts,hacks c _ hr.ackEnabled,?_,
        mem_update_tail y.down c f rest hq _ hy.passed⟩
      exact mem_update_append y.up c _ _ hy.named
        fun g hg => hreply g (uttered_mem env _ _ _ hr.sent g hg)

end Steps

def Turned (N : Naming) (x x' : Account ClientRef ClientId Bytes) : Prop :=
  x' = x ∨ ∃ t, Enabled N.parties N.idOf wide x t ∧ x' = turn N.idOf x t

section Accounts
variable {N : Naming} {n : ℕ} {y : Net} (m : MessageId)

theorem turned_act (e : Event) (ho : Orderly N n y (.act e)) :
    Turned N (account y m) (account (move nodes y (.act e)) m) := by
  left
  have hcalm := act_calm e ho
  simp only [account, move, nodes, posted_same _ _ hcalm.sent, hcalm.sent, hcalm.pending,
    sent_to_nil, List.append_nil]

theorem turned_speak (c : ClientRef) (u : Utterance) (hy : Ready N n y)
    (ho : Orderly N n y (.speak c u)) :
    Turned N (account y m) (account (move nodes y (.speak c u)) m) := by
  obtain ⟨-, -, -, hkept⟩ := speak_stamps (hy.manned.object c) u ho.2.1
  have hsame : ∀ gs, (speak (y.spoke c).base u).sent = (y.spoke c).base.sent++gs →
      messages m gs = [] → tally (.ack m) gs = 0 →
      decide (m ∈ (speak (y.spoke c).base u).pendingAcks) = (account y m).waiting c →
      account (move nodes y (.speak c u)) m = account y m := by
    intro gs hs hmsg hack hwait
    have hmsg' : messages m (if u.env.sendOk then gs else []) = [] := by
      split_ifs
      · exact hmsg
      · rfl
    have hack' : tally (.ack m) (if u.env.sendOk then gs else []) = 0 := by
      split_ifs
      · exact hack
      · rfl
    rw [account_speak y c m u gs hs hkept.callbacks, hmsg, hmsg', hack', hwait]
    simp only [List.append_nil, Nat.add_zero, Function.update_eq_self]
  cases speak_speech hy c u ho with
  | aside gs hs hgs hp =>
    left
    refine hsame gs hs ?_ ?_ (by rw [hp]; rfl)
    · rw [messages, List.filter_eq_nil_iff]
      intro g hg
      simp [hgs g hg]
    · rw [tally, List.countP_eq_zero]
      intro g hg
      simp [hgs g hg]
  | message g hs hk hsend hne hnew hp =>
    by_cases hm : m = u.env.messageId
    · refine .inr ⟨.publish c g,?_,?_⟩
      · rw [hm]
        exact ⟨ho.1,hnew⟩
      · rw [account_speak y c m u [g] hs hkept.callbacks, hp, hsend]
        simp [messages_cons, hk, hm, tally_cons, turn, AList.mem_insert]
    · left
      refine hsame [g] hs ?_ ?_ ?_
      · simp [messages_cons, hk, Ne.symm hm]
      · simp [tally_cons, hk]
      · rw [hp]
        simp [account, AList.mem_insert, hm]

theorem serve_unrelated (c : ClientRef) (env : Env) (f : Bytes) (rest : List Bytes)
    (hq : y.up c = f::rest) (hopen : c ∈ y.hub.opened) (es : List Sent)
    (hs : (receiveFrame env c ⟨f⟩ y.hub.server).sent = y.hub.server.sent++es)
    (hf : kind f ≠ .message m ∧ kind f ≠ .ack m)
    (hes : ∀ e ∈ es, kind e.buf ≠ .message m ∧ kind e.buf ≠ .ackReturn m)
    (hp : (receiveFrame env c ⟨f⟩ y.hub.server).pendingAcks.lookup m =
      y.hub.server.pendingAcks.lookup m) :
    account (move nodes y (.serve c env)) m = account y m := by
  have hmessages : messages m rest = (account y m).upMessages c := by
    simp only [account, hq, messages_cons, if_neg hf.1]
  have hacks : tally (.ack m) rest = (account y m).upAcks c := by
    simp only [account, hq, tally_cons, if_neg hf.2, Nat.add_zero]
  have hzero : ∀ k d (fs : List Sent), (∀ e ∈ fs, kind e.buf ≠ k) → tally k (forOne d fs) = 0 := by
    intro k d fs h
    rw [tally, List.countP_eq_zero]
    intro g hg
    obtain ⟨e, he, rfl⟩ := List.mem_map.mp hg
    simpa using h e (List.mem_of_mem_filter he)
  rw [account_serve y c m env f rest hq hopen es hs, hp, hmessages, hacks]
  simp only [hzero (.message m) _ es fun e he => (hes e he).1,
    hzero (.message m) _ (es.filter Sent.ok) fun e he => (hes e (List.mem_of_mem_filter he)).1,
    hzero (.ackReturn m) _ (es.filter Sent.ok) fun e he => (hes e (List.mem_of_mem_filter he)).2,
    Nat.add_zero, Function.update_eq_self]
  rfl

theorem filter_all_ok {α : Type} (ts : List α) (g : α → Sent) (hg : ∀ a, (g a).ok = true) :
    (ts.map g).filter Sent.ok = ts.map g := by
  rw [List.filter_eq_self]
  intro e he
  obtain ⟨a, -, rfl⟩ := List.mem_map.mp he
  exact hg a

theorem turned_message (c : ClientRef) (env : Env) (f : Bytes) (rest : List Bytes)
    (hq : y.up c = f::rest) (hopen : c ∈ y.hub.opened) (hk : kind f = .message m)
    (ts : List ClientRef) (info : PendingAckInfo) (hne : ts ≠ [])
    (hone : (RexData.mk f).command ≠ .ok .cast → ts.length = 1)
    (hs : (receiveFrame env c ⟨f⟩ y.hub.server).sent =
      y.hub.server.sent++ts.map (fun d => ⟨d,f,true⟩))
    (hp : (receiveFrame env c ⟨f⟩ y.hub.server).pendingAcks =
      y.hub.server.pendingAcks.insert m info)
    (hinfo : info.sourceClientId = N.idOf c) :
    Turned N (account y m) (account (move nodes y (.serve c env)) m) := by
  have hmessages : (account y m).upMessages c = f::messages m rest := by
    simp only [account, hq, messages_cons, hk, if_true]
  have hacks : tally (.ack m) rest = (account y m).upAcks c := by
    simp [account, hq, tally_cons, hk]
  refine .inr ⟨.serve c ts,⟨f,messages m rest,hmessages,hne,hone⟩,?_⟩
  rw [account_serve y c m env f rest hq hopen _ hs, hp, AList.lookup_insert,
    filter_all_ok ts _ fun _ => rfl, hacks]
  simp only [turn, hmessages, List.tail_cons, for_one_copies, tally_replicate, hk, if_true,
    reduceCtorEq, if_false, Nat.add_zero, Function.update_eq_self, Option.map_some, hinfo]

theorem turned_ack (c : ClientRef) (env : Env) (f : Bytes) (rest : List Bytes)
    (hq : y.up c = f::rest) (hopen : c ∈ y.hub.opened) (hk : kind f = .ack m)
    (back : Option ClientRef)
    (hback : back.map N.idOf =
      (y.hub.server.pendingAcks.lookup m).map PendingAckInfo.sourceClientId)
    (hparty : ∀ a ∈ back, a ∈ N.parties)
    (hs : (receiveFrame env c ⟨f⟩ y.hub.server).sent =
      y.hub.server.sent++back.toList.map (fun a =>
        ⟨a,((⟨m⟩ : AckData).toRexData (N.idOf a) .ackReturn).content,true⟩))
    (hp : (receiveFrame env c ⟨f⟩ y.hub.server).pendingAcks =
      y.hub.server.pendingAcks.erase m) :
    Turned N (account y m) (account (move nodes y (.serve c env)) m) := by
  have hmessages : messages m rest = (account y m).upMessages c := by
    simp [account, hq, messages_cons, hk]
  have hacks : (account y m).upAcks c = tally (.ack m) rest+1 := by
    simp [account, hq, tally_cons, hk]
  have hreturn : ∀ d, tally (.ackReturn m) (forOne d (back.toList.map (fun a =>
      ⟨a,((⟨m⟩ : AckData).toRexData (N.idOf a) .ackReturn).content,true⟩))) =
        if back = some d then 1 else 0 := by
    intro d
    cases back with
    | none => rfl
    | some a =>
      by_cases ha : a = d
      · simp [forOne, ha, tally_cons, ack_kind, kindOf, ack_id]
      · simp [forOne, ha]
  have hcopy : ∀ d, tally (.message m) (forOne d (back.toList.map (fun a =>
      ⟨a,((⟨m⟩ : AckData).toRexData (N.idOf a) .ackReturn).content,true⟩))) = 0 := by
    intro d
    cases back with
    | none => rfl
    | some a =>
      by_cases ha : a = d
      · simp [forOne, ha, tally_cons, ack_kind, kindOf]
      · simp [forOne, ha]
  refine .inr ⟨.acknowledge c back,⟨by rw [hacks]; omega,hback,hparty⟩,?_⟩
  rw [account_serve y c m env f rest hq hopen _ hs, hp, AList.lookup_erase,
    filter_all_ok _ _ fun _ => rfl, hmessages]
  simp only [turn, hcopy, hreturn, Nat.add_zero, Function.update_eq_self, Option.map_none, lower,
    hacks, Nat.add_sub_cancel]

theorem turned_serve (c : ClientRef) (env : Env)
    (hy : Ready N n y) (ho : Orderly N n y (.serve c env)) :
    Turned N (account y m) (account (move nodes y (.serve c env)) m) := by
  cases hq : y.up c with
  | nil => exact .inl (by rw [serve_empty y c env hq])
  | cons f rest =>
    by_cases hopen : c ∈ y.hub.opened
    · have hmem : f ∈ y.up c := by rw [hq]; exact List.mem_cons_self
      have hout := (serve_outcome hy.manned.hosts.seated hy.debts (hy.manned.sound.up c f hmem)
        (ho f rest hq) (hy.named c f hmem).1 (hy.named c f hmem).2).1
      dsimp only at hout
      generalize hk : kind f = k at hout
      cases hout with
      | message m' ts info hne hone hs hp hinfo =>
        by_cases hm : m' = m
        · subst hm
          exact turned_message m' c env f rest hq hopen hk ts info hne hone hs hp hinfo
        · refine .inl (serve_unrelated m c env f rest hq hopen _ hs ?_ (fun e he => ?_) ?_)
          · rw [hk]
            exact ⟨fun h => hm (Kind.message.inj h),nofun⟩
          · obtain ⟨d, -, rfl⟩ := List.mem_map.mp he
            rw [hk]
            exact ⟨fun h => hm (Kind.message.inj h),nofun⟩
          · rw [hp, AList.lookup_insert_ne (Ne.symm hm)]
      | ack m' back hback hparty hs hp =>
        by_cases hm : m' = m
        · subst hm
          exact turned_ack m' c env f rest hq hopen hk back hback hparty hs hp
        · refine .inl (serve_unrelated m c env f rest hq hopen _ hs ?_ (fun e he => ?_) ?_)
          · rw [hk]
            exact ⟨nofun,fun h => hm (Kind.ack.inj h)⟩
          · obtain ⟨a, -, rfl⟩ := List.mem_map.mp he
            rw [ack_kind]
            refine ⟨nofun,fun h => hm ?_⟩
            rw [kindOf, ack_id] at h
            exact Kind.ackReturn.inj h
          · rw [hp, AList.lookup_erase_ne (Ne.symm hm)]
      | other hmute =>
        obtain ⟨es, hs, hes⟩ := hmute.sent
        refine .inl (serve_unrelated m c env f rest hq hopen es hs ?_ (fun e he => ?_) ?_)
        · rw [hk]
          exact ⟨by simp,by simp⟩
        · rw [hes e he]
          exact ⟨by simp,by simp⟩
        · rw [hmute.pending]
    · exact .inl (by rw [serve_unopened y c env hopen])

theorem calls_heard (f : RexData) (m' : MessageId) (command : RexCommand) (k : Kind)
    (hk : kind f.content = kindOf f m' command) (hne : k ≠ .other) (hack : ∀ m, k ≠ .ack m) :
    calls k (heard f command) = if kind f.content = k then 1 else 0 := by
  cases command with
  | title | group | cast | ackReturn => simp [calls, heard, handled, tally_cons]
  | titleReturn | groupReturn | castReturn =>
    have hother : kind f.content = .other := hk
    simp [calls, heard, handled, tally_cons, hother, Ne.symm hne]
  | ack =>
    rw [hk, kindOf, if_neg (Ne.symm (hack _))]
    rfl
  | login | loginReturn | check | checkReturn | regTitle | regTitleReturn | delTitle
  | delTitleReturn =>
    have hother : kind f.content = .other := hk
    rw [hother, if_neg (Ne.symm hne)]
    rfl

theorem tally_reply (client : RexClientInner) (f : RexData) (m' : MessageId)
    (command : RexCommand) (hk : kind f.content = kindOf f m' command)
    (h0 : kind f.content ≠ .message 0) :
    tally (.ack m) (reply client command m') = if kind f.content = .message m then 1 else 0 := by
  have hquiet : ¬ ClientBase.expectsAck command → kind f.content ≠ .message m →
      tally (.ack m) (reply client command m') = if kind f.content = .message m then 1 else 0 := by
    intro hc hm
    rw [reply, if_neg (fun h => hc h.1), if_neg hm]
    rfl
  cases command with
  | title | group | cast =>
    have hm' : m' ≠ 0 := fun h => h0 (by rw [hk, h]; rfl)
    rw [reply, if_pos ⟨rfl,hm'⟩, hk, tally_cons, ack_kind]
    simp [kindOf, ack_id]
  | ack | ackReturn | login | loginReturn | check | checkReturn | regTitle | regTitleReturn
  | delTitle | delTitleReturn | titleReturn | groupReturn | castReturn =>
    exact hquiet (by decide) (by simp [hk, kindOf])

theorem messages_reply (client : RexClientInner) (command : RexCommand) (m' : MessageId) :
    messages m (reply client command m') = [] := by
  unfold reply
  split_ifs
  · simp [messages_cons, ack_kind, kindOf]
  · rfl

theorem waiting_received (f : RexData) (m' : MessageId) (command : RexCommand)
    (pending : AList fun _ : MessageId => Unit) (hk : kind f.content = kindOf f m' command) :
    decide (m ∈ if command = .ackReturn then pending.erase (ackId f) else pending) =
      if kind f.content = .ackReturn m then false else decide (m ∈ pending) := by
  have hsame : command ≠ .ackReturn → kind f.content ≠ .ackReturn m →
      decide (m ∈ if command = .ackReturn then pending.erase (ackId f) else pending) =
        if kind f.content = .ackReturn m then false else decide (m ∈ pending) := by
    intro hc hm
    rw [if_neg hc, if_neg hm]
  cases command with
  | ackReturn =>
    rw [hk, kindOf]
    by_cases hm : ackId f = m
    · simp [hm, AList.mem_erase]
    · simp [hm, AList.mem_erase, Ne.symm hm]
  | title | group | cast | ack | login | loginReturn | check | checkReturn | regTitle
  | regTitleReturn | delTitle | delTitleReturn | titleReturn | groupReturn | castReturn =>
    exact hsame nofun (by rw [hk]; exact nofun)

theorem turned_hear (c : ClientRef) (env : ClientEnv) (hy : Ready N n y)
    (ho : Orderly N n y (.hear c env)) :
    Turned N (account y m) (account (move nodes y (.hear c env)) m) := by
  cases hq : y.down c with
  | nil => exact .inl (by rw [hear_empty y c env hq])
  | cons f rest =>
    have hmem : f ∈ y.down c := by rw [hq]; exact List.mem_cons_self
    obtain ⟨client, h, -, hh, hr⟩ := hy.manned.received c env f hmem
    have hk := kind_of_head ⟨f⟩ h hh
    have hmessages : (account y m).downMessages c =
        tally (.message m) rest+if kind f = .message m then 1 else 0 := by
      simp only [account, hq, tally_cons]
    have hreturns : (account y m).downReturns c =
        tally (.ackReturn m) rest+if kind f = .ackReturn m then 1 else 0 := by
      simp only [account, hq, tally_cons]
    have hheard : calls (.message m) (y.spoke c).base.callbacks = (account y m).heard c := rfl
    have htold : calls (.ackReturn m) (y.spoke c).base.callbacks = (account y m).told c := rfl
    have hwaiting : decide (m ∈ (y.spoke c).base.pendingAcks) = (account y m).waiting c := rfl
    have haccount := account_hear y c m env f rest hq ho _ hr.sent
    rw [hr.callbacks, hr.pending, calls_append, calls_append,
      calls_heard _ _ _ (.message m) hk nofun nofun,
      calls_heard _ _ _ (.ackReturn m) hk nofun nofun, waiting_received m _ _ _ _ hk,
      messages_reply, tally_reply m _ _ _ _ hk (hy.passed c f hmem), hheard, htold,
      hwaiting] at haccount
    by_cases hm : kind f = .message m
    · refine .inr ⟨.hear c,by simp [Enabled, hmessages, hm],?_⟩
      rw [haccount]
      simp [turn, lower, raise, hmessages, hreturns, hm]
    · by_cases hm' : kind f = .ackReturn m
      · refine .inr ⟨.tell c,by simp [Enabled, hreturns, hm'],?_⟩
        rw [haccount]
        simp [turn, lower, raise, hmessages, hreturns, hm']
      · left
        rw [haccount]
        have hsame : tally (.message m) rest = (account y m).downMessages c ∧
            tally (.ackReturn m) rest = (account y m).downReturns c := by
          simp [hmessages, hreturns, hm, hm']
        simp [hsame, hm, hm']

end Accounts

/-- How an orderly run starts: every process has its id, the server and the
clients track acknowledgements, and what the server has stored fits the limit
on frames. -/
structure Prepared (N : Naming) (n : ℕ) (config : RexSystemConfig)
    (db : Option SledDb) (clients : Clients) (process : ClientRef → ClientBase) : Prop where
  limit : 45 ≤ n
  ack : config.ackEnabled = true
  sender : ∀ d, (clients d).sender = d
  stored : ∀ store i m, db = some store → store.offlineQueue.lookup i = some m →
    m.title.length ≤ 255 ∧ Short n (queuedBody m)
  process : ∀ c, ∃ title sender now, process c = .opened (N.idOf c) title sender now true

section Runs
variable {N : Naming} {n : ℕ} {config : RexSystemConfig}
  {db : Option SledDb} {clients : Clients} {process : ClientRef → ClientBase}

theorem ready_start (cluster : ClusterPort) (h : Prepared N n config db clients process) :
    Ready N n (idleNet (start config cluster db clients) process) := by
  have hpending : (start config cluster db clients).server.pendingAcks = ∅ :=
    (restore_calm (Server.build config cluster db clients)).2
  have hconfig : (start config cluster db clients).server.config = config :=
    (Server.build config cluster db clients).restore_keeps (fun s => s.config = config)
      (fun _ _ _ hr hs => hr.config.trans hs) rfl
  refine ⟨?_,⟨?_,?_⟩,fun c => ?_,?_,?_⟩
  · refine manned_start cluster h.sender h.stored fun c => ?_
    obtain ⟨title, sender, now, hp⟩ := h.process c
    exact ⟨title,sender,now,true,hp⟩
  · exact (congrArg RexSystemConfig.ackEnabled hconfig).trans h.ack
  · intro m info hm
    rw [show (idleNet (start config cluster db clients) process).hub.server.pendingAcks = ∅ from
      hpending] at hm
    cases hm
  · obtain ⟨title, sender, now, hp⟩ := h.process c
    simp only [idleNet, hp]
    rfl
  · exact fun c f hf => absurd hf List.not_mem_nil
  · exact fun c f hf => absurd hf List.not_mem_nil

theorem account_start (cluster : ClusterPort) (h : Prepared N n config db clients process)
    (m : MessageId) :
    account (idleNet (start config cluster db clients) process) m = fresh := by
  obtain ⟨hsent, hpending⟩ := restore_calm (Server.build config cluster db clients)
  have hprocess : ∀ c, (process c).sent = [] ∧ (process c).callbacks = [] ∧
      (process c).pendingAcks = ∅ := by
    intro c
    obtain ⟨title, sender, now, hp⟩ := h.process c
    rw [hp]
    exact ⟨rfl,rfl,rfl⟩
  simp only [account, idleNet, start, hsent, hpending, Party.of_base, hprocess]
  rfl

theorem alist_empty {α : Type} {β : α → Type} [DecidableEq α] (s : AList β)
    (h : ∀ a, a ∉ s) : s = ∅ := by
  apply AList.ext
  cases he : s.entries with
  | nil => rfl
  | cons e es =>
    refine absurd ?_ (h e.1)
    rw [AList.mem_keys, AList.keys, he]
    exact List.mem_cons_self

theorem turned_move (y : Net) (mv : NetMove) (m : MessageId)
    (hy : Ready N n y) (ho : Orderly N n y mv) :
    Turned N (account y m) (account (move nodes y mv) m) := by
  cases mv with
  | act e => exact turned_act m e ho
  | speak c u => exact turned_speak m c u hy ho
  | serve c env => exact turned_serve m c env hy ho
  | hear c env => exact turned_hear m c env hy ho

theorem balanced_run (cluster : ClusterPort) (h : Prepared N n config db clients process)
    (mvs : List NetMove)
    (ho : Along (move nodes) (Orderly N n)
      (idleNet (start config cluster db clients) process) mvs) :
    Always (move nodes) (fun y => Ready N n y ∧ ∀ m, Balanced N.parties N.idOf wide (account y m))
      (idleNet (start config cluster db clients) process) mvs := by
  refine always_of_along _ (Orderly N n) _ (fun y mv hy hmv => ⟨?_,fun m => ?_⟩) _ _
    ⟨ready_start cluster h,fun m => .fresh (account_start cluster h m)⟩ ho
  · exact ready_move h.limit mv hy.1 hmv
  · rcases turned_move y mv m hy.1 hmv with hsame | ⟨t, ht, hturn⟩
    · rw [hsame]
      exact hy.2 m
    · rw [hturn]
      exact balanced_turn N.distinct t (hy.2 m) ht

end Runs

def ackConfig : RexSystemConfig := { plainConfig with ackEnabled := true }

/-- The first of two clients publishes a message that the second acknowledges. -/
def ackRun : List NetMove :=
  logins++[.speak 0 (.send (calmEnv 7) hello),.serve 0 quietEnv,.hear 0 (calmEnv 1),
    .hear 1 (calmEnv 1),.hear 1 (calmEnv 1),.serve 1 quietEnv,.speak 1 (.call (calmEnv 1)),
    .hear 0 (calmEnv 1),.speak 0 (.call (calmEnv 1))]

theorem pair_prepared : Prepared pair 1024 ackConfig none unusedClients processes :=
  ⟨by decide,rfl,fun _ => rfl,nofun,fun c => ⟨[65],c,0,rfl⟩⟩

theorem orderly_serve {N : Naming} {n : ℕ} {y : Net} (c : ClientRef) (f : Bytes)
    (rest : List Bytes) (hq : y.up c = f::rest) (h : Awaited quietEnv c ⟨f⟩ y.hub.server) :
    Orderly N n y (.serve c quietEnv) := by
  intro g r hg
  rw [hq] at hg
  cases hg
  exact h

theorem awaited_aside (c : ClientRef) (f : RexData) (s : Server) (command : RexCommand)
    (hc : f.command = .ok command) (hne : ClientBase.expectsAck command = false)
    (hdb : s.db = none) : Awaited quietEnv c f s where
  sends _ := rfl
  publisher h hh he := by
    rw [command_of_head h f hh] at hc
    rw [Except.ok.inj hc, hne] at he
    cases he
  queue _ k := by simp [Server.getOfflineMessages, hdb]

theorem ack_run_orderly :
    Along (move nodes) (Orderly pair 1024)
      (idleNet (start ackConfig .noop none unusedClients) processes) ackRun := by
  have h0 : 0 ∈ pair.parties := Nat.zero_lt_two
  have h1 : 1 ∈ pair.parties := Nat.one_lt_two
  refine ⟨h0,h1,⟨h0,⟨by decide +kernel,by decide +kernel⟩,by simp⟩,
    ⟨h1,⟨by decide +kernel,by decide +kernel⟩,by simp⟩,?_,?_,⟨h0,?_,?_⟩,?_,rfl,rfl,rfl,?_,
    ⟨h1,trivial,by simp⟩,rfl,⟨h0,trivial,by simp⟩,trivial⟩
  · exact orderly_serve 0 _ _ rfl (awaited_aside 0 _ _ .login (by decide +kernel) rfl rfl)
  · exact orderly_serve 1 _ _ rfl (awaited_aside 1 _ _ .login (by decide +kernel) rfl rfl)
  · exact wire_new .title [65] [104,105] (by decide) (by decide) (by simp [Short, rexHeadLen])
  · rintro env f ⟨⟩
    refine ⟨by decide +kernel,fun _ _ _ => ⟨rfl,by decide,fun d => ?_⟩⟩
    rcases d with - | - | d
    · decide +kernel
    · decide +kernel
    · rfl
  · refine orderly_serve 0 _ _ rfl ⟨fun _ => rfl,?_,?_⟩
    · rintro h hh -
      cases hh
      exact ⟨by rfl,[65],by decide +kernel,1,by rfl⟩
    · intro hc k
      rfl
  · exact orderly_serve 1 _ _ rfl (awaited_aside 1 _ _ .ack (by decide +kernel) rfl rfl)

theorem each_client {P : ClientRef → Prop} (h0 : P 0) (h1 : P 1) (h : ∀ c, P (c+2))
    (c : ClientRef) : P c := by
  rcases c with - | - | c
  · exact h0
  · exact h1
  · exact h c

end RexMq.AckRoundTrip
