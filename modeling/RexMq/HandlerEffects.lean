import Mathlib.Tactic.Common
import RexMq.Handlers

/-!
# What a handler can do to the sessions

Sending, acknowledgement bookkeeping and the offline queue leave the
sessions alone: `Quiet` is agreement on registry, cluster registrations,
rows and the identity of every client object. Up to quiet changes a frame
has one of five effects, and every invariant of the sessions is checked
against these instead of against the handlers. The handlers are gone through
once, for any relation that follows bookkeeping and sends.
-/

set_option autoImplicit false

namespace RexMq.HandlerEffects
open RexMq.ByteWords RexMq.FrameData RexMq.ClientRegistry RexMq.PersistentStore
open RexMq.ServerState RexMq.Handlers

structure Quiet (s t : Server) : Prop where
  config : t.config = s.config
  registry : t.registry = s.registry
  cluster : t.cluster = s.cluster
  closed : t.closedSenders = s.closedSenders
  row : ∀ k, t.row k = s.row k
  stored : t.db.isSome = s.db.isSome
  id : ∀ c, (t.clients c).id = (s.clients c).id
  titles : ∀ c, (t.clients c).subscribedTitles = (s.clients c).subscribedTitles
  sender : ∀ c, (t.clients c).sender = (s.clients c).sender

theorem quiet_refl (s : Server) : Quiet s s :=
  ⟨rfl,rfl,rfl,rfl,fun _ => rfl,rfl,fun _ => rfl,fun _ => rfl,fun _ => rfl⟩

theorem quiet_trans (s t u : Server) (h : Quiet s t) (g : Quiet t u) : Quiet s u :=
  ⟨g.config.trans h.config,g.registry.trans h.registry,g.cluster.trans h.cluster,
    g.closed.trans h.closed,fun k => (g.row k).trans (h.row k),g.stored.trans h.stored,
    fun c => (g.id c).trans (h.id c),fun c => (g.titles c).trans (h.titles c),
    fun c => (g.sender c).trans (h.sender c)⟩

theorem Quiet.live {s t : Server} (h : Quiet s t) (k : ClientId) : t.live k = s.live k := by
  rw [Server.live_def, h.registry, Server.live_def]

theorem Quiet.ghost {s t : Server} (h : Quiet s t) (k : ClientId) : t.ghost k = s.ghost k := by
  rw [Server.ghost, h.registry, Server.ghost]

theorem Quiet.node {s t : Server} (h : Quiet s t) (k : ClientId) : t.node k = s.node k := by
  rw [Server.node, h.cluster, Server.node]

theorem quiet_touch (s : Server) (c : ClientRef) (now : UInt64) :
    Quiet s { s with clients := modify s.clients c (.updateLastRecv now) } :=
  ⟨rfl,rfl,rfl,rfl,fun _ => rfl,rfl,fun d => modify_field s.clients c d _ _ rfl,
    fun d => modify_field s.clients c d _ _ rfl,fun d => modify_field s.clients c d _ _ rfl⟩

theorem quiet_send_buf (env : Env) (c : ClientRef) (buf : Bytes) (s : Server) :
    Quiet s (s.sendBuf env c buf).2 := by
  have hsent : Quiet s
      { s with sent := s.sent++[⟨(s.clients c).sender,buf,env.sendOk s.sent.length⟩] } :=
    ⟨rfl,rfl,rfl,rfl,fun _ => rfl,rfl,fun _ => rfl,fun _ => rfl,fun _ => rfl⟩
  unfold Server.sendBuf
  cases hok : env.sendOk s.sent.length with
  | false =>
    rw [hok] at hsent
    exact hsent
  | true =>
    rw [hok] at hsent
    exact quiet_trans _ _ _ hsent (quiet_touch _ c env.now)

theorem bind_ok {ε α β : Type} {x : Except ε α} {g : α → Except ε β} {b : β}
    (h : (x >>= g) = .ok b) : ∃ a, x = .ok a ∧ g a = .ok b := by
  cases x with
  | error e => cases h
  | ok a => exact ⟨a,rfl,h⟩

theorem bind_of_ok {ε α β : Type} {x : Except ε α} {g : α → Except ε β} {a : α}
    (h : x = .ok a) : (x >>= g) = g a := by
  rw [h]
  rfl

/-- Only bookkeeping changed: acknowledgements, queues, counters and records. -/
structure Plain (s t : Server) : Prop where
  config : t.config = s.config
  clients : t.clients = s.clients
  registry : t.registry = s.registry
  cluster : t.cluster = s.cluster
  closed : t.closedSenders = s.closedSenders
  row : ∀ k, t.row k = s.row k
  stored : t.db.isSome = s.db.isSome

theorem plain_refl (s : Server) : Plain s s := ⟨rfl,rfl,rfl,rfl,rfl,fun _ => rfl,rfl⟩

/-- A relation that follows every bookkeeping step and every send follows
whatever the handlers build from these. -/
structure Follows (env : Env) (R : Server → Server → Prop) : Prop where
  plain : ∀ s t, Plain s t → R s t
  trans : ∀ s t u, R s t → R t u → R s u
  send : ∀ s c buf, R s (s.sendBuf env c buf).2

theorem quiet_plain (s t : Server) (h : Plain s t) : Quiet s t :=
  ⟨h.config,h.registry,h.cluster,h.closed,h.row,h.stored,fun c => by rw [h.clients],
    fun c => by rw [h.clients],fun c => by rw [h.clients]⟩

theorem quiet_follows (env : Env) : Follows env Quiet :=
  ⟨quiet_plain,quiet_trans,fun s c buf => quiet_send_buf env c buf s⟩

namespace Follows

variable {env : Env} {R : Server → Server → Prop} (hR : Follows env R)
include hR

theorem refl (s : Server) : R s s := hR.plain s s (plain_refl s)

theorem no_target (source : ClientRef) (f : RexData) (command : RexCommand) (s t : Server)
    (h : sendNoTarget env source f command s = .ok t) : R s t := by
  obtain ⟨f₁, -, h⟩ := bind_ok h
  obtain ⟨f₂, -, h⟩ := bind_ok h
  cases h
  exact hR.send s source f₂.content

theorem setup_ack (f g : RexData) (source : ClientId) (title : Title) (isGroup : Bool)
    (s t : Server) (h : s.setupMessageAck env f source title isGroup = .ok (g,t)) : R s t := by
  unfold Server.setupMessageAck at h
  cases hack : s.config.ackEnabled with
  | false =>
    simp only [hack, Bool.not_false, if_true] at h
    cases h
    exact hR.refl s
  | true =>
    simp only [hack, Bool.not_true, Bool.false_eq_true, if_false] at h
    obtain ⟨m, -, h⟩ := bind_ok h
    obtain ⟨f₁, -, h⟩ := bind_ok h
    cases h
    simp only [Server.registerPendingAck, hack, Bool.not_true, Bool.false_eq_true, if_false]
    exact hR.plain s _ ⟨rfl,rfl,rfl,rfl,rfl,fun _ => rfl,rfl⟩

theorem foldlM {α : Type} (step : Server → α → Except Fault Server)
    (hstep : ∀ s a t, step s a = .ok t → R s t) (as : List α) (s t : Server)
    (h : as.foldlM step s = .ok t) : R s t := by
  induction as generalizing s with
  | nil =>
    cases h
    exact hR.refl _
  | cons a as ih =>
    rw [List.foldlM_cons] at h
    obtain ⟨u, hu, h⟩ := bind_ok h
    exact hR.trans s u t (hstep s a u hu) (ih u h)

theorem foldl {α β : Type} (g : β × Server → α → β × Server) (hg : ∀ r a, R r.2 (g r a).2)
    (as : List α) (r : β × Server) : R r.2 (as.foldl g r).2 := by
  induction as generalizing r with
  | nil => exact hR.refl r.2
  | cons a as ih => exact hR.trans r.2 _ _ (hg r a) (ih (g r a))

theorem clear (k : ClientId) (s : Server) : R s (s.clearOfflineMessages k) := by
  refine hR.plain s _ ⟨rfl,rfl,rfl,rfl,rfl,fun j => ?_,?_⟩
  · cases hd : s.db with
    | none => simp [Server.row, Server.clearOfflineMessages, hd]
    | some db =>
      simp [Server.row, Server.clearOfflineMessages, hd, SledDb.row, SledDb.clearOfflineMessages]
  · simp [Server.clearOfflineMessages]

theorem drain (source : ClientRef) (k : ClientId) (s t : Server)
    (h : drainOffline env source k s = .ok t) : R s t := by
  unfold drainOffline at h
  cases hq : (s.getOfflineMessages env k).isEmpty with
  | true =>
    simp only [hq, if_true] at h
    cases h
    exact hR.refl s
  | false =>
    simp only [hq, Bool.false_eq_true, if_false] at h
    obtain ⟨u, hu, h⟩ := bind_ok h
    cases h
    refine hR.trans s u _ (hR.foldlM _ (fun s m t hs => ?_) _ s u hu) (hR.clear k u)
    obtain ⟨f₁, -, hs⟩ := bind_ok hs
    obtain ⟨f₂, -, hs⟩ := bind_ok hs
    cases hs
    exact hR.send s source f₂.content

theorem send_next (buf : Bytes) (r : List ClientId × Server) (c : ClientRef) :
    R r.2 (sendNext env buf r c).2 := by
  have hc := hR.send r.2 c buf
  unfold sendNext
  dsimp only
  split_ifs
  · exact hc
  · exact hc

theorem send_all (buf : Bytes) (targets : List ClientRef) (s : Server) :
    R s (sendAll env buf targets s).2 :=
  hR.foldl (sendNext env buf) (hR.send_next buf) targets ([],s)

end Follows

/-- The effects of a frame on the sessions. -/
inductive Effect (env : Env) (source : ClientRef) (f : RexData) (s : Server) : Server → Prop
  | quiet : f.command ≠ .ok .login → Effect env source f s s
  | takeOver (k : ClientId) (title : Bytes) (client : ClientRef) :
      f.command = .ok .login → f.source = .ok k → f.title = .ok title →
      s.live k = some client → Effect env source f s (takeOver client source title s)
  | enroll (k : ClientId) (title : Bytes) :
      f.command = .ok .login → f.source = .ok k → f.title = .ok title →
      s.live k = none → Effect env source f s (enroll env source k title s)
  | mutate (m : Mutation) (command : RexCommand) (k : ClientId) (title : Bytes)
      (client : ClientRef) :
      f.command = .ok command → Mutation.fromCommand command = some m → f.source = .ok k →
      f.title = .ok title → s.live k = some client → Effect env source f s (mutate m k title s)
  | remove (t : Server) (ks : List ClientId) :
      f.command = .ok .cast → Quiet s t → Effect env source f s (removeAll ks t)

section Handlers
variable {env : Env} {R : Server → Server → Prop} (hR : Follows env R)
variable (source : ClientRef) (f : RexData) (s t : Server)
include hR

theorem login_found_follows (k : ClientId) (title : Bytes) (found : Option ClientRef)
    (h : loginFound env source k title f s found = .ok t) :
    R (found.elim (enroll env source k title s) fun client => takeOver client source title s)
      t := by
  cases found with
  | some client =>
    obtain ⟨f₁, -, h⟩ := bind_ok h
    cases h
    exact hR.send _ client f₁.content
  | none =>
    obtain ⟨u, hu, h⟩ := bind_ok h
    obtain ⟨f₁, -, h⟩ := bind_ok h
    cases h
    exact hR.trans _ u _ (hR.drain source k _ u hu) (hR.send u source f₁.content)

theorem login_effect (hc : f.command = .ok .login) (h : loginHandler env source f s = .ok t) :
    ∃ u, Effect env source f s u ∧ R u t := by
  obtain ⟨k, hk, h⟩ := bind_ok h
  obtain ⟨title, ht, h⟩ := bind_ok h
  have hfound := login_found_follows hR source f s t k title _ h
  cases hl : s.live k with
  | some client =>
    rw [hl] at hfound
    exact ⟨_,.takeOver k title client hc hk ht hl,hfound⟩
  | none =>
    rw [hl] at hfound
    exact ⟨_,.enroll k title hc hk ht hl,hfound⟩

theorem check_follows (h : checkHandler env source f s = .ok t) : R s t := by
  obtain ⟨k, -, h⟩ := bind_ok h
  obtain ⟨f₁, -, h⟩ := bind_ok h
  cases h
  exact hR.send s source f₁.content

theorem mutator_effect (command : RexCommand) (m : Mutation) (hc : f.command = .ok command)
    (hm : Mutation.fromCommand command = some m) (h : sessionMutator env source f s = .ok t) :
    ∃ u, Effect env source f s u ∧ R u t := by
  have hne : f.command ≠ .ok .login := by
    rw [hc]
    rintro ⟨⟩
    cases hm
  obtain ⟨k, hk, h⟩ := bind_ok h
  obtain ⟨title, ht, h⟩ := bind_ok h
  obtain ⟨command', hc', h⟩ := bind_ok h
  rw [hc] at hc'
  cases hc'
  simp only [hm] at h
  cases hl : s.live k with
  | some client =>
    simp only [hl] at h
    obtain ⟨f₁, -, h⟩ := bind_ok h
    cases h
    refine ⟨_,.mutate m command k title client hc hm hk ht hl,?_⟩
    refine hR.trans _ _ _ (hR.plain _ _ ?_) (hR.send _ client f₁.content)
    exact ⟨rfl,rfl,rfl,rfl,rfl,fun _ => rfl,rfl⟩
  | none =>
    simp only [hl] at h
    exact ⟨s,.quiet hne,hR.no_target source f _ s t h⟩

theorem title_follows (h : titleHandler env source f s = .ok t) : R s t := by
  obtain ⟨title, -, h⟩ := bind_ok h
  obtain ⟨_, -, h⟩ := bind_ok h
  obtain ⟨k, -, h⟩ := bind_ok h
  cases hr : s.route env title (some k) with
  | here target =>
    simp only [hr] at h
    obtain ⟨⟨ok, f₁, u⟩, hd, h⟩ := bind_ok h
    have hu : R s u := by
      obtain ⟨title', -, hd⟩ := bind_ok hd
      obtain ⟨⟨f₂, v⟩, hv, hd⟩ := bind_ok hd
      have hsend := hR.trans s v _ (hR.setup_ack f f₂ _ _ _ s v hv) (hR.send v target f₂.content)
      cases hd
      exact hsend
    cases ok with
    | true =>
      cases h
      exact hu
    | false => exact hR.trans s u t hu (hR.no_target source f₁ _ u t h)
  | remote node =>
    simp only [hr] at h
    have hf : R s { s with forwards := s.forwards++[(node,⟨k,0,title,f.content,.unicast⟩)] } :=
      hR.plain s _ ⟨rfl,rfl,rfl,rfl,rfl,fun _ => rfl,rfl⟩
    cases ho : env.forward node ⟨k,0,title,f.content,.unicast⟩ with
    | delivered =>
      simp only [ho] at h
      cases h
      exact hf
    | noPeerForTitle =>
      simp only [ho] at h
      exact hR.trans s _ t hf (hR.no_target source f _ _ t h)
    | peerUnreachable reason =>
      simp only [ho] at h
      exact hR.trans s _ t hf (hR.no_target source f _ _ t h)
  | nowhere =>
    simp only [hr] at h
    exact hR.no_target source f _ s t h

theorem group_follows (h : groupHandler env source f s = .ok t) : R s t := by
  obtain ⟨title, -, h⟩ := bind_ok h
  obtain ⟨k, -, h⟩ := bind_ok h
  dsimp only at h
  split_ifs at h
  · exact hR.no_target source f _ s t h
  · obtain ⟨⟨f₁, u⟩, hu, h⟩ := bind_ok h
    have hcount : R s { u with groupIndex := u.groupIndex+1 } :=
      hR.trans s u _ (hR.setup_ack f f₁ _ _ _ s u hu)
        (hR.plain u _ ⟨rfl,rfl,rfl,rfl,rfl,fun _ => rfl,rfl⟩)
    dsimp only at h
    split at h
    · cases h
    · rename_i target _
      have hsend := hR.trans s _ _ hcount (hR.send _ target f₁.content)
      split_ifs at h
      · exact hR.trans s _ t hsend (hR.no_target source f₁ _ _ t h)
      · cases h
        exact hsend

theorem cast_follows (h : castHandler env source f s = .ok t) :
    ∃ u ks, R s u ∧ R (removeAll ks u) t := by
  obtain ⟨title, -, h⟩ := bind_ok h
  obtain ⟨k, -, h⟩ := bind_ok h
  dsimp only at h
  split_ifs at h
  · exact ⟨s,[],hR.refl s,hR.no_target source f _ s t h⟩
  · obtain ⟨⟨f₁, u⟩, hu, h⟩ := bind_ok h
    have hall := hR.trans s u _ (hR.setup_ack f f₁ _ _ _ s u hu)
      (hR.send_all f₁.content (s.registry.findAllByTitle s.clients title (some k)) u)
    dsimp only at h
    rcases hsent : sendAll env f₁.content
      (s.registry.findAllByTitle s.clients title (some k)) u with ⟨failed, v⟩
    rw [hsent] at h hall
    refine ⟨v,failed,hall,?_⟩
    split_ifs at h
    · exact hR.no_target source f₁ _ _ t h
    · cases h
      exact hR.refl _

theorem ack_follows (h : ackHandler env f s = .ok t) : R s t := by
  unfold ackHandler at h
  split_ifs at h
  · cases h
    exact hR.refl s
  · obtain ⟨ack, -, h⟩ := bind_ok h
    have htake : R s (s.takePendingAck ack.messageId).2 :=
      hR.plain s _ ⟨rfl,rfl,rfl,rfl,rfl,fun _ => rfl,rfl⟩
    rcases hp : s.takePendingAck ack.messageId with ⟨_ | pending, u⟩
    · rw [hp] at h htake
      cases h
      exact htake
    · rw [hp] at h htake
      dsimp only at h
      cases hl : u.live pending.sourceClientId with
      | none =>
        rw [hl] at h
        cases h
        exact htake
      | some sender =>
        rw [hl] at h
        cases h
        exact hR.trans s u _ htake (hR.send u sender _)

theorem handle_follows (heffect : ∀ u, Effect env source f s u → f.command ≠ .ok .cast → R s u)
    (hremove : ∀ s ks, R s (removeAll ks s)) (h : handle env source f s = .ok t) : R s t := by
  obtain ⟨command, hc, h⟩ := bind_ok h
  have effect : command ≠ .cast → (∃ u, Effect env source f s u ∧ R u t) → R s t := by
    rintro hne ⟨u, he, hu⟩
    exact hR.trans s u t (heffect u he (by rw [hc]; simpa using hne)) hu
  cases command with
  | title => exact title_follows hR source f s t h
  | group => exact group_follows hR source f s t h
  | cast =>
    obtain ⟨u, ks, hu, ht⟩ := cast_follows hR source f s t h
    exact hR.trans s u t hu (hR.trans u _ t (hremove u ks) ht)
  | login => exact effect (by simp) (login_effect hR source f s t hc h)
  | check => exact check_follows hR source f s t h
  | regTitle => exact effect (by simp) (mutator_effect hR source f s t _ .register hc rfl h)
  | delTitle => exact effect (by simp) (mutator_effect hR source f s t _ .unregister hc rfl h)
  | ack => exact ack_follows hR f s t h
  | titleReturn | groupReturn | castReturn | loginReturn | checkReturn | regTitleReturn
  | delTitleReturn | ackReturn =>
    cases h
    exact hR.refl s

omit hR in
theorem handle_effect (h : handle env source f s = .ok t) :
    ∃ u, Effect env source f s u ∧ Quiet u t := by
  have hQ := quiet_follows env
  obtain ⟨command, hc, h⟩ := bind_ok h
  have quiet : Quiet s t → command ≠ .login → ∃ u, Effect env source f s u ∧ Quiet u t :=
    fun hq hne => ⟨s,.quiet (by rw [hc]; simpa using hne),hq⟩
  cases command with
  | title => exact quiet (title_follows hQ source f s t h) (by simp)
  | group => exact quiet (group_follows hQ source f s t h) (by simp)
  | cast =>
    obtain ⟨u, ks, hu, ht⟩ := cast_follows hQ source f s t h
    exact ⟨_,.remove u ks hc hu,ht⟩
  | login => exact login_effect hQ source f s t hc h
  | check => exact quiet (check_follows hQ source f s t h) (by simp)
  | regTitle => exact mutator_effect hQ source f s t .regTitle .register hc rfl h
  | delTitle => exact mutator_effect hQ source f s t .delTitle .unregister hc rfl h
  | ack => exact quiet (ack_follows hQ f s t h) (by simp)
  | titleReturn | groupReturn | castReturn | loginReturn | checkReturn | regTitleReturn
  | delTitleReturn | ackReturn =>
    cases h
    exact quiet (quiet_refl s) (by simp)

end Handlers

section Logins
variable (env : Env) (c : ClientRef) (k : ClientId) (title : Bytes) (s : Server)

theorem id_take_over (client d : ClientRef) :
    ((takeOver client c title s).clients d).id = (s.clients d).id :=
  modify_field s.clients client d _ RexClientInner.id rfl

theorem sender_take_over (client d : ClientRef) :
    ((takeOver client c title s).clients d).sender =
      if d = client then (s.clients c).sender else (s.clients d).sender := by
  by_cases hd : d = client
  · rw [if_pos hd, hd, takeOver]
    dsimp only
    rw [modify_same]
    rfl
  · rw [if_neg hd, takeOver]
    dsimp only
    rw [modify_other s.clients client d _ hd]

theorem enroll_object : ((enroll env c k title s).clients c) =
    ((s.clients c).setId k).insertTitle title := by
  simp only [enroll, Server.clients_add_client, modify_same]

theorem enroll_other (d : ClientRef) (hd : d ≠ c) :
    (enroll env c k title s).clients d = s.clients d := by
  simp only [enroll, Server.clients_add_client, modify_other s.clients c d _ hd]

theorem id_enroll (d : ClientRef) :
    ((enroll env c k title s).clients d).id = if d = c then k else (s.clients d).id := by
  by_cases hd : d = c
  · rw [if_pos hd, hd, enroll_object]
    rfl
  · rw [if_neg hd, enroll_other env c k title s d hd]

theorem sender_enroll (d : ClientRef) :
    ((enroll env c k title s).clients d).sender = (s.clients d).sender :=
  modify_field s.clients c d _ RexClientInner.sender rfl

theorem live_enroll (j : ClientId) :
    (enroll env c k title s).live j = if j = k then some c else s.live j := by
  simp only [enroll, Server.live_add_client, modify_same]
  rfl

theorem ghost_enroll (j : ClientId) :
    (enroll env c k title s).ghost j = if j = k then none else s.ghost j := by
  simp only [enroll, Server.ghost_add_client, modify_same]
  rfl

theorem node_enroll_other (j : ClientId) (hj : j ≠ k) :
    (enroll env c k title s).node j = s.node j := by
  rw [enroll, Server.node_add_client_other]
  · rfl
  · simp only [modify_same]
    exact hj

theorem row_enroll (j : ClientId) :
    (enroll env c k title s).row j =
      if j = k ∧ s.db.isSome then
        some ⟨j,((enroll env c k title s).clients c).subscribedTitles,env.now,
          saturatingAdd env.now s.config.ghostTtlSecs⟩
      else s.row j := by
  have hrow := Server.row_add_client env c { s with
    clients := modify s.clients c (fun o => (o.setId k).insertTitle title) } j
  simp only [modify_same] at hrow
  rw [enroll_object]
  exact hrow

theorem mem_subscribers_enroll_iff (d : ClientRef) (t : Title) :
    d ∈ (enroll env c k title s).registry.subscribers t ↔ d ∈ s.registry.subscribers t ∨
      d = c ∧ t ∈ ((enroll env c k title s).clients c).subscribedTitles ∧
        ∀ e ∈ s.registry.subscribers t, ((enroll env c k title s).clients e).id ≠ k := by
  have hid : (modify s.clients c (fun o => (o.setId k).insertTitle title) c).id = k := by
    rw [modify_same]
    rfl
  refine (ClientRegistryImpl.mem_subscribers_add_client _ c d _ t).trans ?_
  rw [hid]
  exact Iff.rfl

theorem mem_subscribers_enroll (d : ClientRef) (t : Title)
    (h : d ∈ (enroll env c k title s).registry.subscribers t) :
    d ∈ s.registry.subscribers t ∨
      d = c ∧ t ∈ ((enroll env c k title s).clients c).subscribedTitles := by
  rcases (mem_subscribers_enroll_iff env c k title s d t).mp h with h | ⟨h, ht, -⟩
  · exact .inl h
  · exact .inr ⟨h,ht⟩

end Logins

section Mutations
open RexMq.RelationIndex
variable (m : Mutation) (k : ClientId) (title : Bytes) (s : Server)

def onClient : Mutation → RexClientInner → RexClientInner
  | .register => .insertTitle title
  | .unregister => .removeTitle title

def onIndex (key : ClientRef → ClientId) (client : ClientRef) (x : Index Title ClientRef) :
    Mutation → Index Title ClientRef
  | .register => enlist key k client x title
  | .unregister => delist key k x title

theorem mutate_some (client : ClientRef) (h : s.live k = some client) :
    mutate m k title s =
      { s with
        clients := modify s.clients client (onClient title m)
        registry := { s.registry with
          title2clients := onIndex k title (fun d => (s.clients d).id) client
            s.registry.title2clients m } } := by
  rw [Server.live_def] at h
  cases m with
  | register => simp only [mutate, ClientRegistryImpl.register_title_some _ _ _ _ _ h]; rfl
  | unregister => simp only [mutate, ClientRegistryImpl.unregister_title_some _ _ _ _ _ h]; rfl

theorem id_on_client (o : RexClientInner) : (onClient title m o).id = o.id := by
  cases m <;> rfl

theorem mem_listed_on_index (key : ClientRef → ClientId) (client d : ClientRef)
    (x : Index Title ClientRef) (t : Title) (h : d ∈ listed (onIndex k title key client x m) t) :
    d ∈ listed x t ∨ d = client := by
  cases m with
  | register =>
    rcases (mem_listed_enlist ..).mp h with h | ⟨h, -⟩
    · exact .inl h
    · exact .inr h
  | unregister => exact .inl ((mem_listed_delist ..).mp h).1

end Mutations

end RexMq.HandlerEffects
