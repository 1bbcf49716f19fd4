import Mathlib.Tactic.Common
import RexMq.FrameAccess

/-!
# What a publish sends

The message side of a handler, next to its effect on the sessions: the calls
of senders it adds to the record, the acknowledgements it leaves pending and
the requests it hands to the forwarder. A publish sends copies of its frame
under the frame's own command and answers its publisher, if at all, with the
matching return command and `NoTarget`.
-/

set_option autoImplicit false

namespace RexMq.PublishTrace
open RexMq.ByteWords RexMq.FrameData RexMq.ClientRegistry RexMq.PersistentStore
open RexMq.ServerState RexMq.Handlers RexMq.HandlerEffects RexMq.FrameAccess

/-- The calls `es` were made and nothing else happened to the messages. -/
structure Posts (s t : Server) (es : List Sent) : Prop where
  sent : t.sent = s.sent++es
  pending : t.pendingAcks = s.pendingAcks
  forwards : t.forwards = s.forwards
  config : t.config = s.config
  sender : ∀ c, (t.clients c).sender = (s.clients c).sender

theorem posts_nil (s : Server) : Posts s s [] :=
  ⟨(List.append_nil _).symm,rfl,rfl,rfl,fun _ => rfl⟩

theorem posts_append (s t u : Server) (es fs : List Sent) (h : Posts s t es) (g : Posts t u fs) :
    Posts s u (es++fs) :=
  ⟨by rw [g.sent, h.sent, List.append_assoc],g.pending.trans h.pending,
    g.forwards.trans h.forwards,g.config.trans h.config,fun c => (g.sender c).trans (h.sender c)⟩

def Carries (c : RexCommand) (e : Sent) : Prop := (RexData.mk e.buf).command = .ok c

/-- The answer that nobody was reached. -/
structure IsReturn (command : RexCommand) (dest : SenderRef) (e : Sent) : Prop where
  sender : e.sender = dest
  command : Carries command e
  retcode : (RexData.mk e.buf).retcode = .ok .noTarget

instance (c : RexCommand) (e : Sent) : Decidable (Carries c e) := by
  unfold Carries
  infer_instance

instance (command : RexCommand) (dest : SenderRef) (e : Sent) :
    Decidable (IsReturn command dest e) :=
  decidable_of_iff
    (e.sender = dest ∧ Carries command e ∧ (RexData.mk e.buf).retcode = .ok .noTarget)
    ⟨fun h => ⟨h.1,h.2.1,h.2.2⟩,fun h => ⟨h.sender,h.command,h.retcode⟩⟩

section Fields
variable (f g : RexData)

theorem head_mut_eq (w off : ℕ) (x : BitVec w) (h : f.headMut w off x = .ok g) :
    rexHeadLen ≤ f.content.length ∧ g.content = writeWord w off x f.content := by
  unfold RexData.headMut at h
  split_ifs at h with hlen
  cases h
  exact ⟨Nat.le_of_not_lt hlen,rfl⟩

theorem command_eq (h : rexHeadLen ≤ f.content.length) :
    f.command = .ok (.fromU32 (readWord 32 4 f.content)) := by
  rw [RexData.command, RexData.head, if_neg (Nat.not_lt.mpr h)]
  rfl

theorem retcode_eq (h : rexHeadLen ≤ f.content.length) :
    f.retcode = .ok (.fromU32 (readWord 32 8 f.content)) := by
  rw [RexData.retcode, RexData.head, if_neg (Nat.not_lt.mpr h)]
  rfl

theorem head_mut_length (w off : ℕ) (x : BitVec w) (hw : off+w/8 ≤ rexHeadLen)
    (h : f.headMut w off x = .ok g) : rexHeadLen ≤ g.content.length := by
  obtain ⟨hlen, hg⟩ := head_mut_eq f g w off x h
  rw [hg, write_word_length w off x f.content (by omega)]
  exact hlen

theorem command_head_mut (w off : ℕ) (x : BitVec w) (ho : 8 ≤ off) (hw : off+w/8 ≤ rexHeadLen)
    (h : f.headMut w off x = .ok g) : g.command = f.command := by
  obtain ⟨hlen, hg⟩ := head_mut_eq f g w off x h
  rw [command_eq f hlen, command_eq g (head_mut_length f g w off x hw h), hg,
    read_write_before _ _ _ _ _ _ (by omega) (by omega)]

theorem command_set_command (c : RexCommand) (h : f.setCommand c = .ok g) : g.command = .ok c := by
  obtain ⟨hlen, hg⟩ := head_mut_eq f g 32 4 c.asU32 h
  have hin : 4+4 ≤ f.content.length := le_trans (by decide) hlen
  rw [command_eq g (head_mut_length f g 32 4 c.asU32 (by decide) h), hg,
    read_write_same 4 4 c.asU32 f.content hin, from_as_u32]

theorem retcode_set_retcode (r : RetCode) (h : f.setRetcode r = .ok g) : g.retcode = .ok r := by
  obtain ⟨hlen, hg⟩ := head_mut_eq f g 32 8 r.asU32 h
  have hin : 8+4 ≤ f.content.length := le_trans (by decide) hlen
  rw [retcode_eq g (head_mut_length f g 32 8 r.asU32 (by decide) h), hg,
    read_write_same 4 8 r.asU32 f.content hin, ret_code_from_as]

end Fields

section Services
variable (env : Env) (s t : Server)

@[simp] theorem send_buf_outcome (c : ClientRef) (buf : Bytes) :
    (s.sendBuf env c buf).1 = env.sendOk s.sent.length := by
  unfold Server.sendBuf
  cases env.sendOk s.sent.length <;> rfl

theorem posts_send_buf (c : ClientRef) (buf : Bytes) :
    Posts s (s.sendBuf env c buf).2 [⟨(s.clients c).sender,buf,env.sendOk s.sent.length⟩] := by
  have hq := quiet_send_buf env c buf s
  unfold Server.sendBuf at hq ⊢
  cases hok : env.sendOk s.sent.length with
  | false => exact ⟨rfl,rfl,rfl,rfl,fun _ => rfl⟩
  | true =>
    rw [hok] at hq
    exact ⟨rfl,rfl,rfl,rfl,hq.sender⟩

theorem posts_no_target (source : ClientRef) (f : RexData) (command : RexCommand)
    (h : sendNoTarget env source f command s = .ok t) :
    ∃ e, IsReturn command (s.clients source).sender e ∧ Posts s t [e] := by
  obtain ⟨f₁, h₁, h⟩ := bind_ok h
  obtain ⟨f₂, h₂, h⟩ := bind_ok h
  cases h
  refine ⟨_,⟨rfl,?_,?_⟩,posts_send_buf env s source f₂.content⟩
  · exact (command_head_mut f₁ f₂ 32 8 _ (by decide) (by decide) h₂).trans
      (command_set_command f f₁ command h₁)
  · exact retcode_set_retcode f₁ f₂ .noTarget h₂

def givenId (f : RexData) : MessageId :=
  match f.messageId with
  | .ok m => if m ≠ 0 then m else env.messageId
  | .error _ => env.messageId

/-- The acknowledgements pending once the message is set up for one. -/
def awaiting (f : RexData) (k : ClientId) (title : Title) (isGroup : Bool) :
    AList (fun _ : MessageId => PendingAckInfo) :=
  if s.config.ackEnabled then s.pendingAcks.insert (givenId env f) ⟨k,title,env.now,isGroup⟩
  else s.pendingAcks

theorem setup_ack_eq (f g : RexData) (k : ClientId) (title : Title) (isGroup : Bool)
    (h : s.setupMessageAck env f k title isGroup = .ok (g,t)) :
    g.command = f.command ∧ t = { s with pendingAcks := awaiting env s f k title isGroup } := by
  unfold Server.setupMessageAck at h
  cases hack : s.config.ackEnabled with
  | false =>
    simp only [hack, Bool.not_false, if_true] at h
    cases h
    simp [awaiting, hack]
  | true =>
    simp only [hack, Bool.not_true, Bool.false_eq_true, if_false] at h
    obtain ⟨m, hm, h⟩ := bind_ok h
    obtain ⟨f₁, hf, h⟩ := bind_ok h
    cases h
    refine ⟨command_head_mut f g 64 12 _ (by decide) (by decide) hf,?_⟩
    simp [Server.registerPendingAck, awaiting, hack, givenId, hm]

theorem posts_remove_client (k : ClientId) : Posts s (s.removeClient k).2 [] := by
  rw [Server.remove_client_eq]
  cases s.live k with
  | none => exact posts_nil s
  | some c => exact ⟨(List.append_nil _).symm,rfl,rfl,rfl,fun _ => rfl⟩

theorem posts_remove_all (ks : List ClientId) : Posts s (removeAll ks s) [] := by
  induction ks generalizing s with
  | nil => exact posts_nil s
  | cons k ks ih =>
    exact posts_append s _ _ [] [] (posts_remove_client s k) (ih (s.removeClient k).2)

def copies (buf : Bytes) : ℕ → List ClientRef → List Sent
  | _, [] => []
  | n, c::cs => ⟨(s.clients c).sender,buf,env.sendOk n⟩::copies buf (n+1) cs

theorem copies_congr (buf : Bytes) (n : ℕ) (cs : List ClientRef)
    (h : ∀ c, (t.clients c).sender = (s.clients c).sender) :
    copies env t buf n cs = copies env s buf n cs := by
  induction cs generalizing n with
  | nil => rfl
  | cons c cs ih => rw [copies, copies, h c, ih]

theorem copies_length (buf : Bytes) (n : ℕ) (cs : List ClientRef) :
    (copies env s buf n cs).length = cs.length := by
  induction cs generalizing n with
  | nil => rfl
  | cons c cs ih => rw [copies, List.length_cons, List.length_cons, ih]

theorem buf_of_copies (buf : Bytes) (n : ℕ) (cs : List ClientRef) (e : Sent)
    (h : e ∈ copies env s buf n cs) : e.buf = buf := by
  induction cs generalizing n with
  | nil => cases h
  | cons c cs ih =>
    rcases List.mem_cons.mp h with rfl | h
    · rfl
    · exact ih (n+1) h

theorem all_copies_iff (buf : Bytes) (b : Bool) (n : ℕ) (cs : List ClientRef) :
    (∀ e ∈ copies env s buf n cs, e.ok = b) ↔ ∀ i < cs.length, env.sendOk (n+i) = b := by
  induction cs generalizing n with
  | nil => simp [copies]
  | cons c cs ih =>
    rw [copies, List.forall_mem_cons, ih, List.length_cons]
    constructor
    · rintro ⟨h₀, h⟩ (_ | i) hi
      · exact h₀
      · rw [← Nat.succ_add_eq_add_succ]
        exact h i (by omega)
    · intro h
      refine ⟨h 0 (by omega),fun i hi => ?_⟩
      rw [show n+1+i = n+(i+1) by omega]
      exact h (i+1) (by omega)

theorem any_copies_eq (buf : Bytes) (n : ℕ) (cs : List ClientRef) :
    (copies env s buf n cs).any Sent.ok =
      decide (∃ i < cs.length, env.sendOk (n+i) = true) := by
  rw [Bool.eq_iff_iff, List.any_eq_true, decide_eq_true_eq, ← not_iff_not]
  simpa only [not_exists, not_and, Bool.not_eq_true] using all_copies_iff env s buf false n cs

theorem send_next_trace (buf : Bytes) (r : List ClientId × Server) (c : ClientRef) :
    Posts r.2 (sendNext env buf r c).2
        [⟨(r.2.clients c).sender,buf,env.sendOk r.2.sent.length⟩] ∧
      (sendNext env buf r c).1.length =
        r.1.length+if env.sendOk r.2.sent.length then 0 else 1 := by
  have hp := posts_send_buf env r.2 c buf
  unfold sendNext
  dsimp only
  rw [send_buf_outcome]
  split_ifs
  · exact ⟨hp,rfl⟩
  · exact ⟨hp,by rw [List.length_append, List.length_singleton]⟩

theorem send_all_trace (buf : Bytes) (targets : List ClientRef) :
    Posts s (sendAll env buf targets s).2 (copies env s buf s.sent.length targets) ∧
      (sendAll env buf targets s).1.length =
        (copies env s buf s.sent.length targets).countP (fun e => !e.ok) := by
  suffices hs : ∀ r : List ClientId × Server,
      Posts r.2 (targets.foldl (sendNext env buf) r).2
          (copies env r.2 buf r.2.sent.length targets) ∧
        (targets.foldl (sendNext env buf) r).1.length = r.1.length+
          (copies env r.2 buf r.2.sent.length targets).countP (fun e => !e.ok) by
    have h := hs ([],s)
    rwa [List.length_nil, Nat.zero_add] at h
  induction targets with
  | nil => exact fun r => ⟨posts_nil r.2,rfl⟩
  | cons c targets ih =>
    intro r
    obtain ⟨hp, hn⟩ := send_next_trace env buf r c
    obtain ⟨hps, hns⟩ := ih (sendNext env buf r c)
    rw [copies_congr env r.2 _ buf _ targets hp.sender, hp.sent, List.length_append,
      List.length_singleton] at hps hns
    rw [List.foldl_cons, copies]
    refine ⟨posts_append _ _ _ _ _ hp hps,?_⟩
    rw [hns, hn, List.countP_cons]
    cases env.sendOk r.2.sent.length
    · simp only [Bool.false_eq_true, if_false, Bool.not_false, if_true]
      omega
    · simp

theorem send_all_failed (buf : Bytes) (targets : List ClientRef) :
    targets.length-(sendAll env buf targets s).1.length = 0 ↔
      ∀ i < targets.length, env.sendOk (s.sent.length+i) = false := by
  have hn := (send_all_trace env s buf targets).2
  have hlen := copies_length env s buf s.sent.length targets
  have hle := List.countP_le_length (p := fun e : Sent => !e.ok)
    (l := copies env s buf s.sent.length targets)
  have hall := List.countP_eq_length (p := fun e : Sent => !e.ok)
    (l := copies env s buf s.sent.length targets)
  simp only [Bool.not_eq_true'] at hall
  rw [hn, ← all_copies_iff env s buf false, ← hall]
  omega

end Services

/-- The publisher is told exactly when nobody was reached. -/
inductive Answers (command : RexCommand) (dest : SenderRef) : Bool → List Sent → Prop
  | silent : Answers command dest true []
  | told (e : Sent) : IsReturn command dest e → Answers command dest false [e]

section Publishing
variable (env : Env) (source : ClientRef) (f : RexData) (s t : Server)
variable (title : Title) (k : ClientId)

def titleRequest : ForwardRequest := ⟨k,0,title,f.content,.unicast⟩

inductive TitleTrace : Server.RoutePlan → Prop
  | here (target : ClientRef) (g : RexData) (back : List Sent) :
      g.command = f.command →
      Answers .titleReturn (s.clients source).sender (env.sendOk s.sent.length) back →
      Posts { s with pendingAcks := awaiting env s f (s.clients source).id title false } t
        (⟨(s.clients target).sender,g.content,env.sendOk s.sent.length⟩::back) →
      TitleTrace (.here target)
  | remote (node : NodeId) (back : List Sent) :
      Answers .titleReturn (s.clients source).sender
        (env.forward node (titleRequest f title k) == .delivered) back →
      Posts { s with forwards := s.forwards++[(node,titleRequest f title k)] } t back →
      TitleTrace (.remote node)
  | nowhere (back : List Sent) :
      Answers .titleReturn (s.clients source).sender false back → Posts s t back →
      TitleTrace .nowhere

theorem answers_no_target (u : Server) (g : RexData) (command : RexCommand)
    (hu : (u.clients source).sender = (s.clients source).sender)
    (h : sendNoTarget env source g command u = .ok t) :
    ∃ back, Answers command (s.clients source).sender false back ∧ Posts u t back := by
  obtain ⟨e, he, hp⟩ := posts_no_target env u t source g command h
  rw [hu] at he
  exact ⟨[e],.told e he,hp⟩

theorem deliver_trace (target : ClientRef) (ok : Bool) (g : RexData) (ht : f.title = .ok title)
    (h : deliverMessage env source f target s = .ok (ok,g,t)) :
    g.command = f.command ∧ ok = env.sendOk s.sent.length ∧
      Posts { s with pendingAcks := awaiting env s f (s.clients source).id title false } t
        [⟨(s.clients target).sender,g.content,env.sendOk s.sent.length⟩] := by
  rw [deliverMessage, bind_of_ok ht] at h
  obtain ⟨⟨g', u⟩, hu, h⟩ := bind_ok h
  obtain ⟨hg, hueq⟩ := setup_ack_eq env s u f g' _ _ _ hu
  have hsend := posts_send_buf env u target g'.content
  have hout := send_buf_outcome env u target g'.content
  rcases hs : u.sendBuf env target g'.content with ⟨ok', v⟩
  rw [hs] at hsend hout
  simp only [hs] at h
  cases h
  rw [hueq] at hsend hout
  exact ⟨hg,hout,hsend⟩

theorem title_trace (ht : f.title = .ok title) (hk : f.source = .ok k)
    (h : titleHandler env source f s = .ok t) :
    TitleTrace env source f s t title k (s.route env title (some k)) := by
  rw [titleHandler, bind_of_ok ht] at h
  obtain ⟨data, -, h⟩ := bind_ok h
  rw [bind_of_ok hk] at h
  cases hr : s.route env title (some k) with
  | here target =>
    simp only [hr] at h
    obtain ⟨⟨ok, g, u⟩, hd, h⟩ := bind_ok h
    obtain ⟨hg, hok, hsend⟩ := deliver_trace env source f s u title target ok g ht hd
    cases ok with
    | true =>
      cases h
      exact .here target g [] hg (hok ▸ .silent) hsend
    | false =>
      obtain ⟨back, ha, hp⟩ := answers_no_target env source s t u g _ (hsend.sender source) h
      exact .here target g back hg (hok ▸ ha) (posts_append _ _ _ _ _ hsend hp)
  | remote node =>
    simp only [hr] at h
    cases ho : env.forward node (titleRequest f title k) with
    | delivered =>
      rw [titleRequest] at ho
      simp only [ho] at h
      cases h
      refine .remote node [] ?_ (posts_nil _)
      rw [titleRequest, ho]
      exact .silent
    | noPeerForTitle | peerUnreachable =>
      rw [titleRequest] at ho
      simp only [ho] at h
      obtain ⟨back, ha, hp⟩ := answers_no_target env source s t _ f _ (by exact rfl) h
      refine .remote node back ?_ hp
      rw [titleRequest, ho]
      exact ha
  | nowhere =>
    simp only [hr] at h
    obtain ⟨back, ha, hp⟩ := answers_no_target env source s t s f _ rfl h
    exact .nowhere back ha hp

theorem group_index_send_buf (c : ClientRef) (buf : Bytes) :
    (s.sendBuf env c buf).2.groupIndex = s.groupIndex := by
  unfold Server.sendBuf
  cases env.sendOk s.sent.length <;> rfl

theorem group_index_no_target (command : RexCommand)
    (h : sendNoTarget env source f command s = .ok t) : t.groupIndex = s.groupIndex := by
  obtain ⟨f₁, -, h⟩ := bind_ok h
  obtain ⟨f₂, -, h⟩ := bind_ok h
  cases h
  exact group_index_send_buf env s source f₂.content

def Unheard (command : RexCommand) : Prop :=
  ∃ back, Answers command (s.clients source).sender false back ∧ Posts s t back

/-- The message is set up for an acknowledgement and sent to the targets, and
the publisher hears of it unless it counts as reached. -/
def Fanned (command : RexCommand) (isGroup : Bool) (targets : List ClientRef) (reached : Bool) :
    Prop :=
  ∃ g : RexData, g.command = f.command ∧ ∃ back,
    Answers command (s.clients source).sender reached back ∧
    Posts { s with pendingAcks := awaiting env s f k title isGroup } t
      (copies env s g.content s.sent.length targets++back)

/-- The counter chooses the target, and counts only messages that have one. A
group message whose send failed is left to its acknowledgement. -/
theorem group_turn (ht : f.title = .ok title) (hk : f.source = .ok k)
    (h : groupHandler env source f s = .ok t) :
    (s.registry.findAllByTitle s.clients title (some k) = [] ∧ t.groupIndex = s.groupIndex ∧
      Unheard source s t .groupReturn) ∨
    ∃ target, (s.registry.findAllByTitle s.clients title (some k))[s.groupIndex.toNat%
        (s.registry.findAllByTitle s.clients title (some k)).length]? = some target ∧
      t.groupIndex = s.groupIndex+1 ∧
      Fanned env source f s t title k .groupReturn true [target]
        (env.sendOk s.sent.length || s.config.ackEnabled) := by
  rw [groupHandler, bind_of_ok ht, bind_of_ok hk] at h
  dsimp only at h
  split_ifs at h with hm
  · exact .inl ⟨List.isEmpty_iff.mp hm,group_index_no_target env source f s t _ h,
      answers_no_target env source s t s f _ rfl h⟩
  · obtain ⟨⟨g, u⟩, hu, h⟩ := bind_ok h
    obtain ⟨hg, hueq⟩ := setup_ack_eq env s u f g _ _ _ hu
    have hindex : u.groupIndex = s.groupIndex := by rw [hueq]
    dsimp only at h
    rw [hindex] at h
    split at h
    · cases h
    · rename_i target htarget
      refine .inr ⟨target,htarget,?_⟩
      have hout := send_buf_outcome env { u with groupIndex := s.groupIndex+1 } target g.content
      have hpost := posts_send_buf env { u with groupIndex := s.groupIndex+1 } target g.content
      have hcount := group_index_send_buf env { u with groupIndex := s.groupIndex+1 } target
        g.content
      rcases hs : Server.sendBuf env target g.content { u with groupIndex := s.groupIndex+1 } with
        ⟨ok, v⟩
      rw [hs] at h hout hpost hcount
      have hsend : Posts { s with pendingAcks := awaiting env s f k title true } v
          [⟨(s.clients target).sender,g.content,env.sendOk s.sent.length⟩] := by
        rw [hueq] at hpost
        exact ⟨hpost.sent,hpost.pending,hpost.forwards,hpost.config,hpost.sender⟩
      have hreached : (!ok && !v.config.ackEnabled) =
          !(env.sendOk s.sent.length || s.config.ackEnabled) := by
        dsimp only at hout
        rw [hout, hsend.config, hueq, Bool.not_or]
      dsimp only at h
      rw [hreached] at h
      cases hr : env.sendOk s.sent.length || s.config.ackEnabled with
      | true =>
        rw [hr] at h
        cases h
        exact ⟨hcount,g,hg,[],.silent,hsend⟩
      | false =>
        rw [hr] at h
        obtain ⟨back, ha, hp⟩ := answers_no_target env source s t v g _ (hsend.sender source) h
        exact ⟨(group_index_no_target env source g v t _ h).trans hcount,g,hg,back,ha,
          posts_append _ _ _ _ _ hsend hp⟩

theorem group_trace (ht : f.title = .ok title) (hk : f.source = .ok k)
    (h : groupHandler env source f s = .ok t) :
    (s.registry.findAllByTitle s.clients title (some k) = [] ∧
      Unheard source s t .groupReturn) ∨
    ∃ target ∈ s.registry.findAllByTitle s.clients title (some k),
      Fanned env source f s t title k .groupReturn true [target]
        (env.sendOk s.sent.length || s.config.ackEnabled) := by
  rcases group_turn env source f s t title k ht hk h with
    ⟨hnone, -, hback⟩ | ⟨target, htarget, -, hfan⟩
  · exact .inl ⟨hnone,hback⟩
  · exact .inr ⟨target,List.mem_of_getElem? htarget,hfan⟩

theorem cast_trace (ht : f.title = .ok title) (hk : f.source = .ok k)
    (h : castHandler env source f s = .ok t) :
    (s.registry.findAllByTitle s.clients title (some k) = [] ∧
      Unheard source s t .castReturn) ∨
    (s.registry.findAllByTitle s.clients title (some k) ≠ [] ∧
      Fanned env source f s t title k .castReturn false
        (s.registry.findAllByTitle s.clients title (some k))
        (decide (∃ i < (s.registry.findAllByTitle s.clients title (some k)).length,
          env.sendOk (s.sent.length+i) = true))) := by
  rw [castHandler, bind_of_ok ht, bind_of_ok hk] at h
  dsimp only at h
  generalize s.registry.findAllByTitle s.clients title (some k) = matching at h ⊢
  split_ifs at h with hm
  · exact .inl ⟨List.isEmpty_iff.mp hm,answers_no_target env source s t s f _ rfl h⟩
  · obtain ⟨⟨g, u⟩, hu, h⟩ := bind_ok h
    obtain ⟨hg, hueq⟩ := setup_ack_eq env s u f g _ _ _ hu
    refine .inr ⟨fun he => hm (List.isEmpty_iff.mpr he),g,hg,?_⟩
    have hfail := send_all_failed env u g.content matching
    have hsend := (send_all_trace env u g.content matching).1
    rw [copies_congr env s u g.content _ matching (fun c => by rw [hueq])] at hsend
    dsimp only at h
    rcases hs : sendAll env g.content matching u with ⟨failed, v⟩
    rw [hs] at h hfail hsend
    dsimp only at h hfail hsend
    have hgone := posts_append _ _ _ _ _ hsend (posts_remove_all v failed)
    rw [List.append_nil] at hgone
    have hn : u.sent.length = s.sent.length := by rw [hueq]
    rw [hueq] at hgone
    rw [hn] at hfail
    split_ifs at h with hzero
    · have hall := hfail.mp hzero
      have hno : ¬ ∃ i < matching.length, env.sendOk (s.sent.length+i) = true := by
        rintro ⟨i, hi, hok⟩
        rw [hall i hi] at hok
        cases hok
      obtain ⟨back, ha, hp⟩ := answers_no_target env source s t _ g _ (hgone.sender source) h
      exact ⟨back,by rwa [decide_eq_false hno],posts_append _ _ _ _ _ hgone hp⟩
    · have hsome : ∃ i < matching.length, env.sendOk (s.sent.length+i) = true := by
        by_contra hno
        refine hzero (hfail.mpr (fun i hi => ?_))
        by_contra hok
        exact hno ⟨i,hi,by simpa using hok⟩
      cases h
      exact ⟨[],by rw [decide_eq_true hsome]; exact .silent,by rwa [List.append_nil]⟩

end Publishing

end RexMq.PublishTrace
