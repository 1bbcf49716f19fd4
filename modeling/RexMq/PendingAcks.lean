import Mathlib.Data.Finset.Basic
import Mathlib.Tactic.Common
import RexMq.ClientProcess
import RexMq.FiniteRun
import RexMq.PublishTrace

/-!
# The acknowledgements a client waits for

A client enters a message into its table before the send and takes it out
when an `AckReturn` names it. A send that fails leaves the entry, and so does
the answer that nobody was reached, so the table holds messages for which
nothing will ever come. The run keeps next to the client the set of messages
that are still owed an answer.
-/

set_option autoImplicit false

namespace RexMq.PendingAcks
open RexMq.ByteWords RexMq.FiniteRun RexMq.FrameData RexMq.ClientRegistry
open RexMq.HandlerEffects RexMq.FrameAccess RexMq.PublishTrace RexMq.ClientProcess
open RexMq.ServerState (MessageId)

/-- The application sends a frame, or a frame comes in. -/
inductive Event where
  | send (env : ClientEnv) (f : RexData)
  | receive (env : ClientEnv) (f : RexData)

structure Run where
  base : ClientBase
  owed : Finset MessageId

def expecting (f : RexData) : Bool :=
  match f.command with
  | .ok command => ClientBase.expectsAck command
  | .error _ => false

/-- The message whose acknowledgement a frame brings or denies. -/
def acked (f : RexData) : Option MessageId :=
  match f.command with
  | .ok .ackReturn => (AckData.fromRexData f).toOption.map AckData.messageId
  | _ => none

def isReturn : RexCommand → Bool
  | .titleReturn | .groupReturn | .castReturn => true
  | _ => false

def refused (f : RexData) : Option MessageId :=
  match f.command, f.retcode, f.messageId with
  | .ok command, .ok .noTarget, .ok m => if isReturn command then some m else none
  | _, _, _ => none

def settle (owed : Finset MessageId) (answered : Option MessageId) : Finset MessageId :=
  answered.elim owed owed.erase

def step (r : Run) : Event → Run
  | .send env f =>
    match r.base.client with
    | none => r
    | some client =>
      match r.base.sendDataWithClient env client f with
      | .error _ => r
      | .ok (ok,b) =>
        ⟨b,if ok && expecting f then insert env.messageId r.owed else r.owed⟩
  | .receive env f => ⟨r.base.receive env f,settle (settle r.owed (acked f)) (refused f)⟩

def Exact (r : Run) : Prop := ∀ m, m ∈ r.base.pendingAcks ↔ m ∈ r.owed

/-- No tracked send of a new message fails, and nobody is reached only with
messages that are not waited for. -/
def Good (r : Run) : Event → Prop
  | .send env f => expecting f → env.sendOk = false → env.messageId ∈ r.base.pendingAcks
  | .receive _ f => ∀ m, refused f = some m → m ∉ r.base.pendingAcks

/-- A client with an object and acknowledgements switched on. -/
structure Ready (b : ClientBase) : Prop where
  object : b.client.isSome
  enabled : b.ackEnabled = true

section Client
variable (env : ClientEnv) (f : RexData) (b b' : ClientBase)

theorem ready_touch (h : Ready b) : Ready (b.touch env) :=
  ⟨Option.isSome_map.trans h.object,h.enabled⟩

theorem pending_send_buf (buf : Bytes) : (b.sendBuf env buf).2.pendingAcks = b.pendingAcks := by
  unfold ClientBase.sendBuf
  cases env.sendOk <;> rfl

theorem ready_send_buf (buf : Bytes) (h : Ready b) : Ready (b.sendBuf env buf).2 := by
  unfold ClientBase.sendBuf
  cases env.sendOk with
  | false => exact ⟨h.object,h.enabled⟩
  | true => exact ready_touch env _ ⟨h.object,h.enabled⟩

theorem outcome_send_buf (buf : Bytes) : (b.sendBuf env buf).1 = env.sendOk := by
  unfold ClientBase.sendBuf
  cases env.sendOk <;> rfl

theorem send_effect (client : RexClientInner) (ok : Bool) (h : Ready b)
    (hs : b.sendDataWithClient env client f = .ok (ok,b')) :
    ok = env.sendOk ∧ Ready b' ∧ b'.pendingAcks =
      if expecting f then b.pendingAcks.insert env.messageId () else b.pendingAcks := by
  obtain ⟨g, hg, hs⟩ := bind_ok hs
  obtain ⟨command, hc, hs⟩ := bind_ok hs
  have hf : expecting f = ClientBase.expectsAck command := by
    rw [expecting, ← command_head_mut f g 128 20 _ (by decide) (by decide) hg, hc]
  rw [hf]
  rw [h.enabled, Bool.true_and] at hs
  cases he : ClientBase.expectsAck command with
  | false =>
    rw [he] at hs
    have hb := congrArg Prod.snd (Except.ok.inj hs)
    have ho := congrArg Prod.fst (Except.ok.inj hs)
    subst hb ho
    exact ⟨outcome_send_buf env b _,ready_send_buf env b _ h,pending_send_buf env b _⟩
  | true =>
    rw [he] at hs
    obtain ⟨g', hg', hs⟩ := bind_ok hs
    have hb := congrArg Prod.snd (Except.ok.inj hs)
    have ho := congrArg Prod.fst (Except.ok.inj hs)
    subst hb ho
    refine ⟨outcome_send_buf env _ _,ready_send_buf env _ _ ⟨h.object,rfl⟩,?_⟩
    exact pending_send_buf env _ _

theorem acked_of_command (command : RexCommand) (hc : f.command = .ok command)
    (hne : command ≠ .ackReturn) : acked f = none := by
  rw [acked, hc]
  cases command <;> first | rfl | exact absurd rfl hne

theorem acked_of_return (hc : f.command = .ok .ackReturn) :
    acked f = (AckData.fromRexData f).toOption.map AckData.messageId := by
  rw [acked, hc]

theorem message_effect (h : Ready b) (hr : b.handleMessage env f = .ok b') :
    Ready b' ∧ b'.pendingAcks = b.pendingAcks := by
  obtain ⟨m, -, hr⟩ := bind_ok hr
  cases hr
  have hack : Ready (b.sendAck env m) ∧ (b.sendAck env m).pendingAcks = b.pendingAcks := by
    unfold ClientBase.sendAck
    cases b.client with
    | none => exact ⟨h,rfl⟩
    | some client => exact ⟨ready_send_buf env b _ h,pending_send_buf env b _⟩
  by_cases hm : m ≠ 0
  · rw [if_pos hm]
    exact ⟨⟨hack.1.object,hack.1.enabled⟩,hack.2⟩
  · rw [if_neg hm]
    exact ⟨⟨h.object,h.enabled⟩,rfl⟩

theorem command_effect (client : RexClientInner) (command : RexCommand) (h : Ready b)
    (hc : f.command = .ok command) (hr : b.handleCommand env client f command = .ok b') :
    Ready b' ∧ b'.pendingAcks = (acked f).elim b.pendingAcks b.pendingAcks.erase := by
  by_cases hcommand : command = .ackReturn
  · subst hcommand
    obtain ⟨b₁, hb, hr⟩ := bind_ok hr
    obtain ⟨ack, ha, hb⟩ := bind_ok hb
    obtain ⟨r, -, hb⟩ := bind_ok hb
    cases hb
    cases hr
    rw [acked_of_return f hc, ha]
    exact ⟨⟨h.object,h.enabled⟩,rfl⟩
  · rw [acked_of_command f command hc hcommand]
    cases command with
    | regTitleReturn | delTitleReturn =>
      obtain ⟨title, -, hr⟩ := bind_ok hr
      cases hr
      exact ⟨⟨rfl,h.enabled⟩,rfl⟩
    | ackReturn => exact absurd rfl hcommand
    | title | group | cast => exact message_effect env f b b' h hr
    | loginReturn | titleReturn | groupReturn | castReturn =>
      cases hr
      exact ⟨⟨h.object,h.enabled⟩,rfl⟩
    | login | check | checkReturn | regTitle | delTitle | ack =>
      cases hr
      exact ⟨h,rfl⟩

theorem acked_handled (client : RexClientInner) (command : RexCommand) (e : Fault)
    (hc : f.command = .ok command) (hr : b.handleCommand env client f command = .error e) :
    acked f = none := by
  by_cases hcommand : command = .ackReturn
  · subst hcommand
    rw [acked_of_return f hc]
    cases ha : AckData.fromRexData f with
    | error e => rfl
    | ok ack =>
      obtain ⟨head, hh⟩ : ∃ head, f.head = .ok head := by
        cases hh : f.head with
        | error e =>
          rw [RexData.command, hh] at hc
          cases hc
        | ok head => exact ⟨head,rfl⟩
      have hret : f.retcode = .ok (.fromU32 head.retcode) := by
        rw [RexData.retcode, hh]
        rfl
      rw [ClientBase.handleCommand, ClientBase.handleAckReturn, bind_of_ok ha,
        bind_of_ok hret] at hr
      cases hr
  · exact acked_of_command f command hc hcommand

theorem receive_effect (h : Ready b) :
    Ready (b.receive env f) ∧
      (b.receive env f).pendingAcks = (acked f).elim b.pendingAcks b.pendingAcks.erase := by
  obtain ⟨client, hclient⟩ := Option.isSome_iff_exists.mp h.object
  unfold ClientBase.receive ClientBase.handleReceivedData
  rw [hclient]
  cases hc : f.command with
  | error e =>
    have hnone : acked f = none := by rw [acked, hc]
    rw [hnone]
    exact ⟨h,rfl⟩
  | ok command =>
    dsimp only
    rw [bind_of_ok rfl]
    cases hr : b.handleCommand env client f command with
    | error e =>
      rw [acked_handled env f b client command e hc hr]
      exact ⟨h,rfl⟩
    | ok b₁ =>
      obtain ⟨hready, hpending⟩ := command_effect env f b b₁ client command h hc hr
      exact ⟨ready_touch env b₁ hready,hpending⟩

end Client

/-- Table and set agree, at a client that is ready. -/
structure Kept (r : Run) : Prop where
  ready : Ready r.base
  exact : Exact r

section Steps
variable (r : Run)

theorem mem_settle (owed : Finset MessageId) (answered : Option MessageId) (m : MessageId) :
    m ∈ settle owed answered ↔ m ∈ owed ∧ answered ≠ some m := by
  cases answered with
  | none => simp [settle]
  | some a =>
    simp only [settle, Option.elim_some, Finset.mem_erase, ne_eq, Option.some.injEq]
    rw [and_comm, eq_comm]

theorem mem_pending_receive (env : ClientEnv) (f : RexData) (h : Ready r.base) (m : MessageId) :
    m ∈ (r.base.receive env f).pendingAcks ↔ m ∈ r.base.pendingAcks ∧ acked f ≠ some m := by
  rw [(receive_effect env f r.base h).2]
  cases acked f with
  | none => simp
  | some a =>
    simp only [Option.elim_some, AList.mem_erase, ne_eq, Option.some.injEq]
    rw [and_comm, eq_comm]

theorem refused_not_acked (f : RexData) (m : MessageId) (h : refused f = some m) :
    acked f = none := by
  unfold refused at h
  cases hc : f.command with
  | error e =>
    rw [hc] at h
    cases h
  | ok command =>
    apply acked_of_command f command hc
    rintro rfl
    rw [hc] at h
    split at h
    · rename_i he _ _
      cases he
      cases h
    · cases h

theorem receive_exact_iff (env : ClientEnv) (f : RexData) (h : Kept r) :
    Exact (step r (.receive env f)) ↔ Good r (.receive env f) := by
  have hm : ∀ m, (m ∈ (step r (.receive env f)).base.pendingAcks ↔
      m ∈ r.base.pendingAcks ∧ acked f ≠ some m) := mem_pending_receive r env f h.ready
  constructor
  · intro he m hr hin
    have hne : acked f ≠ some m := by
      rw [refused_not_acked f m hr]
      exact fun ha => by cases ha
    have hstill := (he m).mp ((hm m).mpr ⟨hin,hne⟩)
    exact ((mem_settle _ _ m).mp hstill).2 hr
  · intro hn m
    rw [hm m]
    show _ ↔ m ∈ settle (settle r.owed (acked f)) (refused f)
    rw [mem_settle, mem_settle, ← h.exact m]
    constructor
    · rintro ⟨hin, hne⟩
      exact ⟨⟨hin,hne⟩,fun hr => hn m hr hin⟩
    · exact fun hin => hin.1

theorem expecting_sends (env : ClientEnv) (f : RexData) (client : RexClientInner)
    (b : ClientBase) (he : expecting f = true) :
    ∃ ok b', b.sendDataWithClient env client f = .ok (ok,b') := by
  have hlen : 36 ≤ f.content.length := by
    by_contra hlt
    rw [expecting, RexData.command, RexData.head,
      if_pos (by simp only [rexHeadLen]; omega)] at he
    cases he
  obtain ⟨g, hg, hglen⟩ := head_mut_ok f 128 20 client.id hlen (by omega)
  obtain ⟨command, hc⟩ := command_ok g hglen
  obtain ⟨g', hg', -⟩ := head_mut_ok g 64 12 env.messageId hglen (by omega)
  rw [ClientBase.sendDataWithClient, RexData.setSource, bind_of_ok hg, bind_of_ok hc]
  split_ifs
  · rw [RexData.setMessageId, bind_of_ok hg']
    exact ⟨_,_,rfl⟩
  · exact ⟨_,_,rfl⟩

theorem send_exact_iff (env : ClientEnv) (f : RexData) (h : Kept r) :
    Exact (step r (.send env f)) ↔ Good r (.send env f) := by
  obtain ⟨client, hclient⟩ := Option.isSome_iff_exists.mp h.ready.object
  unfold step
  rw [hclient]
  dsimp only
  cases hs : r.base.sendDataWithClient env client f with
  | error e =>
    refine iff_of_true h.exact (fun he => ?_)
    obtain ⟨ok, b, hok⟩ := expecting_sends env f client r.base he
    rw [hs] at hok
    cases hok
  | ok sent =>
    obtain ⟨hok, -, hpending⟩ := send_effect env f r.base sent.2 client sent.1 h.ready hs
    unfold Exact Good
    dsimp only
    rw [hok, hpending]
    cases expecting f with
    | false =>
      simp only [Bool.and_false, Bool.false_eq_true, if_false]
      exact iff_of_true h.exact (fun he => by cases he)
    | true =>
      cases env.sendOk with
      | true =>
        simp only [Bool.and_self, if_true, AList.mem_insert, Finset.mem_insert]
        exact iff_of_true (fun m => or_congr_right (h.exact m)) (fun _ hf => by cases hf)
      | false =>
        -- the entry is made, but the message was never sent
        simp only [Bool.and_true, Bool.false_eq_true, if_false, if_true, AList.mem_insert,
          forall_const]
        constructor
        · intro he
          exact (h.exact _).mpr ((he env.messageId).mp (.inl rfl))
        · intro hin m
          rw [← h.exact m]
          constructor
          · rintro (rfl | hm)
            · exact hin
            · exact hm
          · exact .inr

theorem step_ready (e : Event) (h : Ready r.base) : Ready (step r e).base := by
  cases e with
  | receive env f => exact (receive_effect env f r.base h).1
  | send env f =>
    obtain ⟨client, hclient⟩ := Option.isSome_iff_exists.mp h.object
    unfold step
    rw [hclient]
    dsimp only
    cases hs : r.base.sendDataWithClient env client f with
    | error e => exact h
    | ok sent => exact (send_effect env f r.base sent.2 client sent.1 h hs).2.1

theorem step_exact_iff (e : Event) (h : Kept r) : Exact (step r e) ↔ Good r e := by
  cases e with
  | send env f => exact send_exact_iff r env f h
  | receive env f => exact receive_exact_iff r env f h

end Steps

/-- The client after its first connection, with acknowledgements on. -/
def start (id : ClientId) (title : Bytes) (sender : SenderRef) (now : UInt64) : Run :=
  ⟨.opened id title sender now true,∅⟩

/-- The table is exact throughout a run exactly when no send of a new message
fails and no message waited for is answered with `NoTarget`. -/
theorem pending_acks_exact_iff (id : ClientId) (title : Bytes) (sender : SenderRef)
    (now : UInt64) (es : List Event) :
    Always step Exact (start id title sender now) es ↔
      Along step Good (start id title sender now) es := by
  refine always_iff_along step Good Kept Exact (fun r h => h.exact) (fun r e h hg => ?_)
    (fun r e h hn => ?_) _ es ⟨⟨rfl,rfl⟩,fun m => ?_⟩
  · exact ⟨step_ready r e h.ready,(step_exact_iff r e h).mpr hg⟩
  · exact fun he => hn ((step_exact_iff r e h).mp he)
  · simp [start, ClientBase.opened]

/-- A message for title `t` that nobody was reached with. -/
def refusal (m : MessageId) : RexData :=
  ⟨RexData.encodeHead ⟨38,RexCommand.titleReturn.asU32,RetCode.noTarget.asU32,m,1⟩++[1,116]⟩

/-- A send that fails leaves its message in the table, and so does the answer
that nobody was reached. -/
theorem dead_messages_pending :
    let failing := [Event.send ⟨0,false,5,true⟩ (.new .title [116] [])]
    let answered := [Event.send ⟨0,true,6,true⟩ (.new .title [116] []),
      .receive ⟨0,true,7,true⟩ (refusal 6)]
    5 ∈ (failing.foldl step (start 1 [] 0 0)).base.pendingAcks ∧
      ¬ Always step Exact (start 1 [] 0 0) failing ∧
      refused (refusal 6) = some 6 ∧
      6 ∈ (answered.foldl step (start 1 [] 0 0)).base.pendingAcks ∧
      ¬ Always step Exact (start 1 [] 0 0) answered := by
  intro failing answered
  have hfailed : 5 ∈ (failing.foldl step (start 1 [] 0 0)).base.pendingAcks ∧
      5 ∉ (failing.foldl step (start 1 [] 0 0)).owed := by decide +kernel
  have hanswered : 6 ∈ (answered.foldl step (start 1 [] 0 0)).base.pendingAcks ∧
      6 ∉ (answered.foldl step (start 1 [] 0 0)).owed := by decide +kernel
  refine ⟨hfailed.1,fun h => ?_,by decide +kernel,hanswered.1,fun h => ?_⟩
  · exact hfailed.2 ((always_last step Exact _ failing h 5).mp hfailed.1)
  · exact hanswered.2 ((always_last step Exact _ answered h 6).mp hanswered.1)

end RexMq.PendingAcks
