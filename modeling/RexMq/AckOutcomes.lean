import Mathlib.Tactic.Common
import RexMq.MannedNetwork

/-!
# What a server does with messages and acknowledgements

While no send fails and every publisher is logged in and has a listener, a
message goes to its targets unchanged and its id becomes pending, an
acknowledgement is returned to the publisher of its message, and any other
frame leads to nothing about either.
-/

set_option autoImplicit false

namespace RexMq.AckOutcomes
open RexMq.ByteWords RexMq.FrameData RexMq.FrameFields RexMq.ClientRegistry
open RexMq.PersistentStore RexMq.ServerState RexMq.Handlers RexMq.HandlerEffects RexMq.FrameAccess
open RexMq.PublishTrace RexMq.ServerRun RexMq.SentFrames RexMq.ClientProcess RexMq.FrameNetwork
open RexMq.SeatedClients RexMq.MannedNetwork

/-- What a frame has to do with acknowledgements. -/
inductive Kind where
  | message (m : MessageId)
  | ack (m : MessageId)
  | ackReturn (m : MessageId)
  | other
  deriving DecidableEq, Repr

def kindOf (f : RexData) (m : MessageId) : RexCommand → Kind
  | .title | .group | .cast => .message m
  | .ack => .ack (ackId f)
  | .ackReturn => .ackReturn (ackId f)
  | _ => .other

def kind (f : Bytes) : Kind :=
  match (RexData.mk f).head with
  | .ok h => kindOf ⟨f⟩ h.messageId (.fromU32 h.command)
  | .error _ => .other

theorem kind_of_head (f : RexData) (h : RexHead) (hh : f.head = .ok h) :
    kind f.content = kindOf f h.messageId (.fromU32 h.command) := by
  rw [kind, show RexData.mk f.content = f from rfl, hh]

theorem ack_id (m : MessageId) (k : ClientId) (command : RexCommand) :
    ackId ((⟨m⟩ : AckData).toRexData k command) = m := by
  rw [ackId, AckData.toRexData]
  dsimp only
  rw [← List.singleton_append, ← List.append_assoc, ← List.append_nil (toLe 8 m.toNat)]
  exact read_word_append 8 37 m _ _ (by simp [RexData.encodeHead])

theorem ack_kind (m : MessageId) (k : ClientId) (command : RexCommand) :
    kind ((⟨m⟩ : AckData).toRexData k command).content =
      kindOf ((⟨m⟩ : AckData).toRexData k command) 0 command := by
  rw [kind_of_head _ _ (ack_head m k command), from_as_u32]

section Calm
variable (env : Env) (hall : ∀ i, env.sendOk i = true) (c : ClientRef) (f : RexData) (s : Server)
variable (h : RexHead) (hh : f.head = .ok h) (title : Title)

def noted (isGroup : Bool) : Server :=
  { s with pendingAcks := s.pendingAcks.insert h.messageId ⟨h.source,title,env.now,isGroup⟩ }

include hh in
theorem set_message_id_same : f.setMessageId h.messageId = .ok f := by
  have hc := content_of_head f h hh
  have hm := head_mut_message_id h (f.content.drop rexHeadLen) h.messageId
  rw [← hc] at hm
  exact hm

include hh in
theorem setup_ack_same (hm : h.messageId ≠ 0) (hack : s.config.ackEnabled = true)
    (isGroup : Bool) :
    s.setupMessageAck env f h.source title isGroup = .ok (f,noted env s h title isGroup) := by
  unfold Server.setupMessageAck
  rw [hack, message_id_of_head h f hh]
  change (do
    let g ← f.setMessageId (if h.messageId ≠ 0 then h.messageId else env.messageId)
    return (g,_)) = _
  rw [if_pos hm, set_message_id_same f h hh]
  simp only [Server.registerPendingAck, hack]
  rfl

def Listened (command : RexCommand) : Prop :=
  match command with
  | .title => ∃ target, s.route env title (some h.source) = .here target
  | _ => s.registry.findAllByTitle s.clients title (some h.source) ≠ []

include hall

theorem send_all_calm (buf : Bytes) (targets : List ClientRef) :
    (sendAll env buf targets s).1 = [] ∧
      Posts s (sendAll env buf targets s).2
        (targets.map fun d => ⟨(s.clients d).sender,buf,true⟩) := by
  have hcopies : ∀ k (ts : List ClientRef), copies env s buf k ts =
      ts.map fun d => ⟨(s.clients d).sender,buf,true⟩ := by
    intro k ts
    induction ts generalizing k with
    | nil => rfl
    | cons d ts ih => rw [copies, ih, hall]; rfl
  obtain ⟨hp, hn⟩ := send_all_trace env s buf targets
  rw [hcopies] at hp hn
  refine ⟨List.length_eq_zero_iff.mp ?_,hp⟩
  rw [hn, List.countP_eq_zero]
  intro e he
  obtain ⟨d, -, rfl⟩ := List.mem_map.mp he
  simp

theorem send_one_calm (buf : Bytes) (d : ClientRef) :
    s.sendBuf env d buf = (true,(sendAll env buf [d] s).2) := by
  have hout := send_buf_outcome env s d buf
  rw [hall] at hout
  simp only [sendAll, List.foldl_cons, List.foldl_nil, sendNext, hout, if_true]
  exact Prod.ext hout rfl

variable (ht : f.title = .ok title) (hm : h.messageId ≠ 0) (hack : s.config.ackEnabled = true)
include hh ht hm hack

theorem title_calm (hid : (s.clients c).id = h.source) (target : ClientRef)
    (hr : s.route env title (some h.source) = .here target) (hfit : Fits f) :
    titleHandler env c f s =
      .ok (sendAll env f.content [target] (noted env s h title false)).2 := by
  obtain ⟨data, hd⟩ := data_ok f hfit.titled
  have hdeliver : deliverMessage env c f target s =
      .ok (true,f,(sendAll env f.content [target] (noted env s h title false)).2) := by
    rw [deliverMessage, bind_of_ok ht, hid,
      bind_of_ok (setup_ack_same env f s h hh title hm hack false)]
    dsimp only
    rw [send_one_calm env hall]
    rfl
  rw [titleHandler, bind_of_ok ht, bind_of_ok hd, bind_of_ok (source_of_head h f hh), hr]
  dsimp only
  rw [bind_of_ok hdeliver]
  rfl

theorem group_calm (hl : s.registry.findAllByTitle s.clients title (some h.source) ≠ []) :
    ∃ target i, groupHandler env c f s =
      .ok (sendAll env f.content [target] { noted env s h title true with groupIndex := i }).2 := by
  have hpos := List.length_pos_iff.mpr hl
  rw [groupHandler, bind_of_ok ht, bind_of_ok (source_of_head h f hh)]
  dsimp only
  rw [if_neg (by rwa [List.isEmpty_iff]),
    bind_of_ok (setup_ack_same env f s h hh title hm hack true)]
  dsimp only
  rw [List.getElem?_eq_getElem (Nat.mod_lt _ hpos)]
  dsimp only
  rw [send_one_calm env hall]
  exact ⟨_,_,rfl⟩

theorem cast_calm (hl : s.registry.findAllByTitle s.clients title (some h.source) ≠ []) :
    castHandler env c f s =
      .ok (sendAll env f.content (s.registry.findAllByTitle s.clients title (some h.source))
        (noted env s h title false)).2 := by
  have hpos := List.length_pos_iff.mpr hl
  have hnone := (send_all_calm env hall (noted env s h title false) f.content
    (s.registry.findAllByTitle s.clients title (some h.source))).1
  rw [castHandler, bind_of_ok ht, bind_of_ok (source_of_head h f hh)]
  dsimp only
  rw [if_neg (by rwa [List.isEmpty_iff]),
    bind_of_ok (setup_ack_same env f s h hh title hm hack false)]
  dsimp only
  rw [hnone, if_neg (by rw [List.length_nil]; omega)]
  rfl

theorem message_calm (hfit : Fits f) (hid : (s.clients c).id = h.source)
    (hexp : ClientBase.expectsAck (.fromU32 h.command))
    (hl : Listened env s h title (.fromU32 h.command)) :
    ∃ ts isGroup i, ts ≠ [] ∧ (RexCommand.fromU32 h.command ≠ .cast → ts.length = 1) ∧
      handle env c f s =
        .ok (sendAll env f.content ts { noted env s h title isGroup with groupIndex := i }).2 := by
  rw [handle, bind_of_ok (command_of_head h f hh)]
  generalize RexCommand.fromU32 h.command = command at hexp hl ⊢
  cases command with
  | title =>
    obtain ⟨target, hr⟩ := hl
    exact ⟨[target],false,s.groupIndex,by simp,fun _ => rfl,
      title_calm env hall c f s h hh title ht hm hack hid target hr hfit⟩
  | group =>
    obtain ⟨target, i, hg⟩ := group_calm env hall c f s h hh title ht hm hack hl
    exact ⟨[target],true,i,by simp,fun _ => rfl,hg⟩
  | cast =>
    exact ⟨_,false,s.groupIndex,hl,fun hne => absurd rfl hne,
      cast_calm env hall c f s h hh title ht hm hack hl⟩
  | _ => cases hexp

end Calm

/-- Only frames that have nothing to do with messages were sent. -/
structure Mute (s t : Server) : Prop where
  pending : t.pendingAcks = s.pendingAcks
  sent : ∃ es, t.sent = s.sent++es ∧ ∀ e ∈ es, kind e.buf = .other

section Others
variable (env : Env) (c : ClientRef) (f : RexData) (s t : Server)

theorem mute_of_eq (hp : t.pendingAcks = s.pendingAcks) (hs : t.sent = s.sent) : Mute s t :=
  ⟨hp,[],by rw [hs, List.append_nil],fun _ he => absurd he List.not_mem_nil⟩

/-- Commands of frames that are no messages and no acknowledgements. -/
def Aside (command : RexCommand) : Prop :=
  ∀ (f : RexData) (m : MessageId), kindOf f m command = .other

theorem kind_of_aside (command : RexCommand) (ha : Aside command) (hc : f.command = .ok command) :
    kind f.content = .other := by
  obtain ⟨h, hh, hc⟩ := bind_ok hc
  cases hc
  rw [kind_of_head f h hh]
  exact ha f h.messageId

theorem mute_send (command : RexCommand) (ha : Aside command) (hc : f.command = .ok command)
    (hp : t.pendingAcks = s.pendingAcks) (hs : t.sent = s.sent) :
    Mute s (t.sendBuf env c f.content).2 := by
  have hpost := posts_send_buf env t c f.content
  refine ⟨hpost.pending.trans hp,_,by rw [hpost.sent, hs],fun e he => ?_⟩
  obtain rfl := List.mem_singleton.mp he
  exact kind_of_aside f command ha hc

theorem mute_answer (g : RexData) (command : RexCommand) (ha : Aside command)
    (hg : f.setCommand command = .ok g) (hp : t.pendingAcks = s.pendingAcks)
    (hs : t.sent = s.sent) : Mute s (t.sendBuf env c g.content).2 :=
  mute_send env c g s t command ha (command_set_command f g command hg) hp hs

theorem queue_enroll (k k' : ClientId) (title : Bytes) :
    (enroll env c k title s).getOfflineMessages env k' = s.getOfflineMessages env k' := by
  simp only [Server.getOfflineMessages, enroll, Server.addClient]
  cases s.db <;> rfl

theorem mute_login (hq : ∀ k, s.getOfflineMessages env k = [])
    (h : loginHandler env c f s = .ok t) : Mute s t := by
  obtain ⟨k, -, h⟩ := bind_ok h
  obtain ⟨title, -, h⟩ := bind_ok h
  cases hl : s.live k with
  | some client =>
    simp only [hl] at h
    obtain ⟨g, hg, h⟩ := bind_ok h
    cases h
    exact mute_answer env client f s _ g .loginReturn (fun _ _ => rfl) hg rfl rfl
  | none =>
    simp only [hl] at h
    obtain ⟨u, hu, h⟩ := bind_ok h
    obtain ⟨g, hg, h⟩ := bind_ok h
    cases h
    have hdrain : u = enroll env c k title s := by
      rw [drainOffline, queue_enroll, hq] at hu
      exact (Except.ok.inj hu).symm
    rw [hdrain]
    exact mute_answer env c f s _ g .loginReturn (fun _ _ => rfl) hg rfl rfl

theorem mute_check (h : checkHandler env c f s = .ok t) : Mute s t := by
  obtain ⟨k, -, h⟩ := bind_ok h
  obtain ⟨g, hg, h⟩ := bind_ok h
  cases h
  exact mute_answer env c f s s g .checkReturn (fun _ _ => rfl) hg rfl rfl

theorem mute_mutator (h : sessionMutator env c f s = .ok t) : Mute s t := by
  have haside : ∀ m : Mutation, Aside m.returnCommand := by
    rintro (_ | _) <;> exact fun _ _ => rfl
  obtain ⟨k, -, h⟩ := bind_ok h
  obtain ⟨title, -, h⟩ := bind_ok h
  obtain ⟨command, -, h⟩ := bind_ok h
  cases hm : Mutation.fromCommand command with
  | none =>
    simp only [hm] at h
    cases h
    exact mute_of_eq _ _ rfl rfl
  | some m =>
    simp only [hm] at h
    cases hl : s.live k with
    | some client =>
      simp only [hl] at h
      obtain ⟨g, hg, h⟩ := bind_ok h
      cases h
      exact mute_answer env client f s _ g _ (haside m) hg rfl rfl
    | none =>
      simp only [hl] at h
      obtain ⟨g, hg, h⟩ := bind_ok h
      obtain ⟨g', hg', h⟩ := bind_ok h
      cases h
      refine mute_send env c g' s s m.returnCommand (haside m) ?_ rfl rfl
      rw [command_head_mut g g' 32 8 _ (by omega) (by decide) hg']
      exact command_set_command f g _ hg

theorem mute_handle (command : RexCommand) (hc : f.command = .ok command) (ha : Aside command)
    (hq : f.command = .ok .login → ∀ k, s.getOfflineMessages env k = [])
    (h : handle env c f s = .ok t) : Mute s t := by
  rw [handle, bind_of_ok hc] at h
  cases command with
  | login => exact mute_login env c f s t (hq hc) h
  | check => exact mute_check env c f s t h
  | regTitle | delTitle => exact mute_mutator env c f s t h
  | title | group | cast | ack => cases ha f 0
  | titleReturn | groupReturn | castReturn | loginReturn | checkReturn | regTitleReturn
  | delTitleReturn | ackReturn =>
    cases h
    exact mute_of_eq _ _ rfl rfl

end Others

theorem restore_calm (s : Server) :
    s.restore.sent = s.sent ∧ s.restore.pendingAcks = s.pendingAcks := by
  have hrow : ∀ (s : Server) p, (s.restoreRow p).sent = s.sent ∧
      (s.restoreRow p).pendingAcks = s.pendingAcks := by
    intro s p
    unfold Server.restoreRow
    split <;> exact ⟨rfl,rfl⟩
  have hrows : ∀ (ps : List PersistedClient) (s : Server),
      (ps.foldl Server.restoreRow s).sent = s.sent ∧
        (ps.foldl Server.restoreRow s).pendingAcks = s.pendingAcks := by
    intro ps
    induction ps with
    | nil => exact fun s => ⟨rfl,rfl⟩
    | cons p ps ih =>
      exact fun s => ⟨(ih _).1.trans (hrow s p).1,(ih _).2.trans (hrow s p).2⟩
  unfold Server.restore
  split_ifs
  · cases s.db with
    | none => exact ⟨rfl,rfl⟩
    | some db => exact hrows db.loadAll s
  · exact ⟨rfl,rfl⟩

/-- Acknowledgements are tracked, and whoever is owed one is logged in. -/
structure Debts (s : Server) : Prop where
  ack : s.config.ackEnabled = true
  live : ∀ m info, s.pendingAcks.lookup m = some info →
    ∃ d, s.live info.sourceClientId = some d

section Sessions
variable {s t : Server}

theorem Debts.quiet (h : Debts s) (hq : Quiet s t)
    (hlive : ∀ m info, t.pendingAcks.lookup m = some info →
      ∃ d, s.live info.sourceClientId = some d) : Debts t := by
  refine ⟨hq.config ▸ h.ack,fun m info hm => ?_⟩
  obtain ⟨d, hd⟩ := hlive m info hm
  exact ⟨d,(hq.live _).trans hd⟩

theorem Debts.aside (h : Debts s) (env : Env) (c : ClientRef) (f : RexData)
    (command : RexCommand) (hc : f.command = .ok command) (ha : Aside command)
    (hp : t.pendingAcks = s.pendingAcks) (ht : handle env c f s = .ok t) : Debts t := by
  obtain ⟨u, he, hq⟩ := handle_effect c f s t ht
  have hkept : u.config = s.config ∧ ∀ k d, s.live k = some d → ∃ d', u.live k = some d' := by
    cases he with
    | quiet _ => exact ⟨rfl,fun k d hd => ⟨d,hd⟩⟩
    | takeOver k title client _ _ _ _ => exact ⟨rfl,fun k d hd => ⟨d,hd⟩⟩
    | enroll k title _ _ _ _ =>
      refine ⟨rfl,fun j d hd => ?_⟩
      rw [live_enroll]
      split_ifs
      · exact ⟨c,rfl⟩
      · exact ⟨d,hd⟩
    | mutate m command' k title client _ _ _ _ hl =>
      rw [mutate_some m k title s client hl]
      exact ⟨rfl,fun j d hd => ⟨d,hd⟩⟩
    | remove u ks hcast _ =>
      rw [hc] at hcast
      cases hcast
      cases ha f 0
  refine ⟨(hq.config.trans hkept.1) ▸ h.ack,fun m info hm => ?_⟩
  rw [hp] at hm
  obtain ⟨d, hd⟩ := h.live m info hm
  obtain ⟨d', hd'⟩ := hkept.2 _ d hd
  exact ⟨d',(hq.live _).trans hd'⟩

end Sessions

/-- What the server does with a frame, by its kind. -/
inductive Outcome (N : Naming) (c : ClientRef) (f : Bytes) (s t : Server) :
    Kind → Prop
  | message (m : MessageId) (ts : List ClientRef) (info : PendingAckInfo) : ts ≠ [] →
      ((RexData.mk f).command ≠ .ok .cast → ts.length = 1) →
      t.sent = s.sent++ts.map (fun d => ⟨d,f,true⟩) →
      t.pendingAcks = s.pendingAcks.insert m info → info.sourceClientId = N.idOf c →
      Outcome N c f s t (.message m)
  | ack (m : MessageId) (back : Option ClientRef) :
      back.map N.idOf = (s.pendingAcks.lookup m).map PendingAckInfo.sourceClientId →
      (∀ a ∈ back, a ∈ N.parties) →
      t.sent = s.sent++back.toList.map (fun a =>
        ⟨a,((⟨m⟩ : AckData).toRexData (N.idOf a) .ackReturn).content,true⟩) →
      t.pendingAcks = s.pendingAcks.erase m → Outcome N c f s t (.ack m)
  | other : Mute s t → Outcome N c f s t .other

theorem Outcome.sent {N : Naming} {c : ClientRef} {f : Bytes} {s t : Server}
    (h : Outcome N c f s t (kind f)) (hf : kind f ≠ .message 0) :
    ∃ es, t.sent = s.sent++es ∧ ∀ e ∈ es, kind e.buf ≠ .message 0 := by
  generalize hk : kind f = k at h hf
  cases h with
  | message m ts info _ _ hs _ _ =>
    refine ⟨_,hs,fun e he => ?_⟩
    obtain ⟨d, -, rfl⟩ := List.mem_map.mp he
    rwa [hk]
  | ack m back _ _ hs _ =>
    refine ⟨_,hs,fun e he => ?_⟩
    obtain ⟨a, -, rfl⟩ := List.mem_map.mp he
    rw [ack_kind]
    exact nofun
  | other hm =>
    obtain ⟨es, hs, hes⟩ := hm.sent
    refine ⟨es,hs,fun e he => ?_⟩
    rw [hes e he]
    exact nofun

/-- What an orderly network asks of the frame a server takes next: publishers
are logged in and heard by somebody, and no message is queued for a login. -/
structure Awaited (env : Env) (c : ClientRef) (f : RexData) (s : Server) : Prop where
  sends : ∀ i, env.sendOk i = true
  publisher : ∀ h, f.head = .ok h → ClientBase.expectsAck (.fromU32 h.command) →
    s.live h.source = some c ∧ ∃ title, f.title = .ok title ∧
      Listened env s h title (.fromU32 h.command)
  queue : f.command = .ok .login → ∀ k, s.getOfflineMessages env k = []

section Serving
variable {N : Naming} {ok : Bytes → Prop} {env : Env} {c : ClientRef}
  {f : RexData} {s : Server}

theorem touched (t : Server) (hok : handle env c f s = .ok t) :
    Quiet t (receiveFrame env c f s) ∧ (receiveFrame env c f s).sent = t.sent ∧
      (receiveFrame env c f s).pendingAcks = t.pendingAcks := by
  rw [receiveFrame, hok]
  exact ⟨quiet_touch t c env.now,rfl,rfl⟩

theorem serve_message (hs : Seated N s) (hd : Debts s) (hw : Wire ok f)
    (ha : Awaited env c f s) (h : RexHead) (hh : f.head = .ok h)
    (hexp : ClientBase.expectsAck (.fromU32 h.command)) (hm : h.messageId ≠ 0) :
    Outcome N c f.content s (receiveFrame env c f s) (.message h.messageId) ∧
      Debts (receiveFrame env c f s) := by
  obtain ⟨hlive, title, ht, hl⟩ := ha.publisher h hh hexp
  obtain ⟨-, hk, hid⟩ := hs.live _ c hlive
  obtain ⟨ts, isGroup, i, hne, hone, hok⟩ :=
    message_calm env ha.sends c f s h hh title ht hm hd.ack hw.fits hid hexp hl
  obtain ⟨hq, hsent, hpend⟩ := touched _ hok
  have hpost := (send_all_calm env ha.sends
    { noted env s h title isGroup with groupIndex := i } f.content ts).2
  have hquiet := quiet_trans _ _ _ ((quiet_follows env).send_all f.content ts
    { noted env s h title isGroup with groupIndex := i }) hq
  rw [hpost.pending] at hpend
  constructor
  · refine .message h.messageId ts ⟨h.source,title,env.now,isGroup⟩ hne (fun hc => hone ?_) ?_
      hpend hk
    · rintro hcast
      rw [show RexData.mk f.content = f from rfl, command_of_head h f hh, hcast] at hc
      exact hc rfl
    · rw [hsent, hpost.sent]
      refine congrArg (s.sent++·) (List.map_congr_left fun d _ => ?_)
      exact congrArg (fun x => Sent.mk x f.content true) (hs.sender d)
  · refine Debts.quiet (s := s) hd (quiet_trans _ _ _ ?_ hquiet) fun m info hm' => ?_
    · exact quiet_plain _ _ ⟨rfl,rfl,rfl,rfl,rfl,fun _ => rfl,rfl⟩
    · rw [hpend] at hm'
      by_cases he : m = h.messageId
      · subst he
        rw [noted, AList.lookup_insert] at hm'
        cases hm'
        exact ⟨c,hlive⟩
      · rw [noted, AList.lookup_insert_ne he] at hm'
        exact hd.live m info hm'

theorem handle_ack_absent (env : Env) (c : ClientRef) (hd : Debts s) (hw : Wire ok f)
    (hc : f.command = .ok .ack) (hl : s.pendingAcks.lookup (ackId f) = none) :
    handle env c f s = .ok { s with pendingAcks := s.pendingAcks.erase (ackId f) } := by
  have hack := ack_data_ok hw (.inl hc)
  simp [handle, bind_of_ok hc, ackHandler, hd.ack, bind_of_ok hack, Server.takePendingAck, hl, pure,
    Except.pure]

theorem handle_ack_pending (env : Env) (c : ClientRef) (hd : Debts s) (hw : Wire ok f)
    (hc : f.command = .ok .ack) (info : PendingAckInfo) (a : ClientRef)
    (hl : s.pendingAcks.lookup (ackId f) = some info)
    (hlive : s.live info.sourceClientId = some a) :
    handle env c f s =
      .ok (Server.sendBuf env a
        ((⟨ackId f⟩ : AckData).toRexData info.sourceClientId .ackReturn).content
        { s with pendingAcks := s.pendingAcks.erase (ackId f) }).2 := by
  have hack := ack_data_ok hw (.inl hc)
  have hlive' : Server.live info.sourceClientId
      { s with pendingAcks := s.pendingAcks.erase (ackId f) } = some a := hlive
  simp [handle, bind_of_ok hc, ackHandler, hd.ack, bind_of_ok hack, Server.takePendingAck, hl,
    hlive', pure, Except.pure]

theorem serve_ack (hs : Seated N s) (hd : Debts s) (hw : Wire ok f) (ha : Awaited env c f s)
    (hc : f.command = .ok .ack) :
    Outcome N c f.content s (receiveFrame env c f s) (.ack (ackId f)) ∧
      Debts (receiveFrame env c f s) := by
  have hquiet : ∀ t, handle env c f s = .ok t → Quiet s (receiveFrame env c f s) := by
    intro t ht
    have hq := (touched t ht).1
    rw [handle, bind_of_ok hc] at ht
    exact quiet_trans _ _ _ (ack_follows (quiet_follows env) f s t ht) hq
  have hdebts : ∀ t, handle env c f s = .ok t →
      (receiveFrame env c f s).pendingAcks = s.pendingAcks.erase (ackId f) →
      Debts (receiveFrame env c f s) := by
    intro t ht hp
    refine hd.quiet (hquiet t ht) fun m info hm => ?_
    rw [hp] at hm
    by_cases he : m = ackId f
    · rw [he, AList.lookup_erase] at hm
      cases hm
    · rw [AList.lookup_erase_ne he] at hm
      exact hd.live m info hm
  cases hl : s.pendingAcks.lookup (ackId f) with
  | none =>
    have hhandle := handle_ack_absent env c hd hw hc hl
    obtain ⟨-, hsent, hpend⟩ := touched _ hhandle
    exact ⟨.ack _ none (by rw [hl]; rfl) (by simp) (by rw [hsent]; simp) hpend,
      hdebts _ hhandle hpend⟩
  | some info =>
    obtain ⟨a, hlive⟩ := hd.live _ info hl
    obtain ⟨hp, hka, -⟩ := hs.live _ a hlive
    have hhandle := handle_ack_pending env c hd hw hc info a hl hlive
    obtain ⟨-, hsent, hpend⟩ := touched _ hhandle
    have hpost := posts_send_buf env { s with pendingAcks := s.pendingAcks.erase (ackId f) } a
      ((⟨ackId f⟩ : AckData).toRexData info.sourceClientId .ackReturn).content
    rw [hpost.pending] at hpend
    refine ⟨.ack _ (some a) (by rw [hl]; simp [hka]) (by rintro _ ⟨⟩; exact hp) ?_ hpend,
      hdebts _ hhandle hpend⟩
    rw [hsent, hpost.sent, ha.sends, hs.sender a, hka]
    rfl

theorem serve_other (hd : Debts s) (hw : Wire ok f)
    (ha : Awaited env c f s) (command : RexCommand) (hc : f.command = .ok command)
    (haside : Aside command) :
    Mute s (receiveFrame env c f s) ∧ Debts (receiveFrame env c f s) := by
  obtain ⟨t, ht⟩ := handle_ok env c f s hw.fits
  have hmute := mute_handle env c f s t command hc haside ha.queue ht
  have hdebts := hd.aside env c f command hc haside hmute.pending ht
  obtain ⟨hq, hsent, hpend⟩ := touched t ht
  obtain ⟨es, he, hes⟩ := hmute.sent
  refine ⟨⟨hpend.trans hmute.pending,es,hsent.trans he,hes⟩,hdebts.quiet hq fun m info h => ?_⟩
  rw [hpend] at h
  exact hdebts.live m info h

theorem serve_outcome (hs : Seated N s) (hd : Debts s) (hw : Wire ok f)
    (ha : Awaited env c f s)
    (hnamed : kind f.content ≠ .message 0) (hreturn : ∀ m, kind f.content ≠ .ackReturn m) :
    Outcome N c f.content s (receiveFrame env c f s) (kind f.content) ∧
      Debts (receiveFrame env c f s) := by
  obtain ⟨h, hh⟩ := head_ok f (by have := hw.framed.length; omega)
  have hc := command_of_head h f hh
  have hkind := kind_of_head f h hh
  have hmessage : ClientBase.expectsAck (.fromU32 h.command) →
      kindOf f h.messageId (.fromU32 h.command) = .message h.messageId →
      Outcome N c f.content s (receiveFrame env c f s) (kind f.content) ∧
        Debts (receiveFrame env c f s) := by
    intro hexp hk
    rw [hkind, hk] at hnamed ⊢
    exact serve_message hs hd hw ha h hh hexp fun h0 => hnamed (by rw [h0])
  have haside : Aside (.fromU32 h.command) →
      Outcome N c f.content s (receiveFrame env c f s) (kind f.content) ∧
        Debts (receiveFrame env c f s) := by
    intro has
    obtain ⟨hm, hdebts⟩ := serve_other hd hw ha _ hc has
    rw [hkind, has]
    exact ⟨.other hm,hdebts⟩
  generalize RexCommand.fromU32 h.command = command at hc hkind hmessage haside
  cases command with
  | title | group | cast => exact hmessage rfl rfl
  | ack =>
    rw [hkind]
    exact serve_ack hs hd hw ha hc
  | ackReturn => exact absurd hkind (hreturn _)
  | titleReturn | groupReturn | castReturn | login | loginReturn | check | checkReturn | regTitle
  | regTitleReturn | delTitle | delTitleReturn => exact haside fun _ _ => rfl

end Serving

end RexMq.AckOutcomes
