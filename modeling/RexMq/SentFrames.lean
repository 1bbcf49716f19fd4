import Mathlib.Tactic.Common
import RexMq.ClusterWiring
import RexMq.FrameStream

/-!
# Everything a server sends is a frame

The body of a frame is what follows its header: title length, title and
data. Handlers store into the header only, so a body leaves the server as it
came in, from a connection, from a peer or from the database; the one kind of
body the server makes itself is that of an acknowledgement. Whatever holds of
all bodies that come in holds of all that go out, to clients and to the
forwarder, and the frames around them stay well formed.
-/

set_option autoImplicit false

namespace RexMq.SentFrames
open RexMq.ByteWords RexMq.FiniteRun RexMq.FrameData RexMq.FrameStream RexMq.ClientRegistry
open RexMq.PersistentStore RexMq.ServerState RexMq.Handlers RexMq.HandlerEffects RexMq.FrameAccess
open RexMq.PublishTrace RexMq.ServerRun RexMq.ClusterMessages RexMq.PeerForwarder
open RexMq.ClusterManager RexMq.ClusterWiring

def body (f : RexData) : Bytes := f.content.drop rexHeadLen

def queuedBody (m : OfflineMessage) : Bytes := UInt8.ofNat m.title.length::(m.title++m.payload)

def ackBody (m : MessageId) : Bytes := 0::toLe 8 m.toNat

/-- A frame both sides can take apart, with an admitted body. -/
structure Wire (ok : Bytes → Prop) (f : RexData) : Prop where
  framed : Framed f
  body : ok (body f)
  acked : f.command = .ok .ack ∨ f.command = .ok .ackReturn → 45 ≤ f.content.length

section Frames
variable {ok : Bytes → Prop} {f g : RexData}

theorem Wire.fits (h : Wire ok f) : Fits f :=
  ⟨h.framed.length,h.framed.titled,fun hc => h.acked (.inl hc)⟩

theorem body_head_mut (w off : ℕ) (x : BitVec w) (hw : off+w/8 ≤ 36)
    (h : f.headMut w off x = .ok g) :
    body g = body f ∧ g.content.length = f.content.length := by
  obtain ⟨hlen, hg⟩ := head_mut_eq f g w off x h
  simp only [rexHeadLen] at hlen
  rw [body, body, hg, writeWord]
  exact ⟨drop_patch _ _ _ _ (by simpa [rexHeadLen] using hw) (by simp; omega),
    patch_length _ _ _ (by simp; omega)⟩

theorem wire_head_mut (w off : ℕ) (x : BitVec w) (ho : 8 ≤ off) (hw : off+w/8 ≤ 36)
    (hf : Wire ok f) (h : f.headMut w off x = .ok g) : Wire ok g := by
  obtain ⟨hb, hlen⟩ := body_head_mut w off x hw h
  refine ⟨head_mut_framed w off x f g hf.framed (by omega) hw h,hb ▸ hf.body,?_⟩
  rw [command_head_mut f g w off x ho hw h, hlen]
  exact hf.acked

theorem wire_set_command (c : RexCommand) (hc : c ≠ .ack ∧ c ≠ .ackReturn) (hf : Wire ok f)
    (h : f.setCommand c = .ok g) : Wire ok g := by
  obtain ⟨hb, -⟩ := body_head_mut 32 4 c.asU32 (by omega) h
  refine ⟨head_mut_framed 32 4 _ f g hf.framed (by omega) (by omega) h,hb ▸ hf.body,?_⟩
  rw [command_set_command f g c h]
  rintro (h | h)
  · exact absurd (Except.ok.inj h) hc.1
  · exact absurd (Except.ok.inj h) hc.2

theorem new_command (c : RexCommand) (title data : Bytes) :
    (RexData.new c title data).command = .ok c := by
  have hlen : rexHeadLen ≤ (RexData.new c title data).content.length :=
    new_length c title data
  rw [command_eq _ hlen, RexData.new, RexData.encodeHead]
  simp only [List.append_assoc]
  rw [read_word_append 4 4 c.asU32 _ _ (by simp), from_as_u32]

theorem wire_new (c : RexCommand) (title data : Bytes) (hc : c ≠ .ack ∧ c ≠ .ackReturn)
    (ht : title.length ≤ 255) (hb : ok (UInt8.ofNat title.length::(title++data))) :
    Wire ok (.new c title data) := by
  refine ⟨new_framed c title data ht,?_,?_⟩
  · have he : body (.new c title data) = UInt8.ofNat title.length::(title++data) := by
      rw [body, RexData.new]
      exact List.drop_left' (encode_head_length _)
    rwa [he]
  · rw [new_command]
    rintro (h | h)
    · exact absurd (Except.ok.inj h) hc.1
    · exact absurd (Except.ok.inj h) hc.2

theorem ack_framed (m : MessageId) (k : ClientId) (c : RexCommand) :
    Framed ((⟨m⟩ : AckData).toRexData k c) ∧
      ((⟨m⟩ : AckData).toRexData k c).content.length = 45 := by
  have hlen : ((⟨m⟩ : AckData).toRexData k c).content.length = 45 := by
    simp [AckData.toRexData, encode_head_length]
  refine ⟨⟨by omega,?_,0,?_,by rw [hlen]; decide⟩,hlen⟩
  · rw [hlen, AckData.toRexData, encode_head_total]
    rfl
  · rw [AckData.toRexData, List.getElem?_append_right (by rw [encode_head_length]),
      encode_head_length]
    rfl

theorem wire_ack (m : MessageId) (k : ClientId) (c : RexCommand) (hb : ok (ackBody m)) :
    Wire ok ((⟨m⟩ : AckData).toRexData k c) := by
  obtain ⟨hf, hlen⟩ := ack_framed m k c
  refine ⟨hf,?_,fun _ => by omega⟩
  have he : body ((⟨m⟩ : AckData).toRexData k c) = ackBody m := by
    rw [body, AckData.toRexData]
    exact List.drop_left' (encode_head_length _)
  rwa [he]

end Frames

/-- All buffers passed to senders or to the forwarder so far, and all messages
queued in the database, have admitted bodies. -/
structure Sound (ok : Bytes → Prop) (s : Server) : Prop where
  sent : ∀ e ∈ s.sent, Wire ok ⟨e.buf⟩
  forwarded : ∀ p ∈ s.forwards, Wire ok ⟨p.2.payload⟩
  queued : ∀ db, s.db = some db → ∀ i m, db.offlineQueue.lookup i = some m →
    m.title.length ≤ 255 ∧ ok (queuedBody m)

/-- Nothing was sent or forwarded, the objects of clients have their senders and
clocks, and no message was added to the database. -/
structure Silent (s t : Server) : Prop where
  sent : t.sent = s.sent
  forwards : t.forwards = s.forwards
  lastRecv : ∀ d, (t.clients d).lastRecv = (s.clients d).lastRecv
  sender : ∀ d, (t.clients d).sender = (s.clients d).sender
  queued : ∀ db', t.db = some db' → ∃ db, s.db = some db ∧
    ∀ i m, db'.offlineQueue.lookup i = some m → db.offlineQueue.lookup i = some m

theorem silent_of_db (s t : Server) (hs : t.sent = s.sent) (hf : t.forwards = s.forwards)
    (hc : t.clients = s.clients) (hd : t.db = s.db) : Silent s t :=
  ⟨hs,hf,fun d => by rw [hc],fun d => by rw [hc],fun db' h => ⟨db',hd ▸ h,fun _ _ h => h⟩⟩

theorem queued_of_map (s t : Server) (g : SledDb → SledDb) (hd : t.db = s.db.map g)
    (hg : ∀ db i m, (g db).offlineQueue.lookup i = some m → db.offlineQueue.lookup i = some m)
    (db' : SledDb) (h : t.db = some db') : ∃ db, s.db = some db ∧
      ∀ i m, db'.offlineQueue.lookup i = some m → db.offlineQueue.lookup i = some m := by
  rw [hd] at h
  obtain ⟨db, hdb, rfl⟩ := Option.map_eq_some_iff.mp h
  exact ⟨db,hdb,hg db⟩

theorem silent_of_map (s t : Server) (g : SledDb → SledDb) (hs : t.sent = s.sent)
    (hf : t.forwards = s.forwards) (hc : t.clients = s.clients) (hd : t.db = s.db.map g)
    (hg : ∀ db i m, (g db).offlineQueue.lookup i = some m → db.offlineQueue.lookup i = some m) :
    Silent s t :=
  ⟨hs,hf,fun d => by rw [hc],fun d => by rw [hc],queued_of_map s t g hd hg⟩

/-- What is kept by everything silent and by every send or forward of a frame
with an admitted body, and lets only such bodies into the database. -/
structure Carried (env : Env) (ok : Bytes → Prop) (I : Server → Prop) : Prop where
  silent : ∀ s t, I s → Silent s t → I t
  send : ∀ s c f, I s → Wire ok f → I (s.sendBuf env c f.content).2
  forward : ∀ s node request, I s → Wire ok ⟨request.payload⟩ →
    I { s with forwards := s.forwards++[(node,request)] }
  queued : ∀ s db i m, I s → s.db = some db → db.offlineQueue.lookup i = some m →
    m.title.length ≤ 255 ∧ ok (queuedBody m)

theorem clear_lookup (k : ClientId) (db : SledDb) (i : BitVec 64) (m : OfflineMessage)
    (h : (db.clearOfflineMessages k).offlineQueue.lookup i = some m) :
    db.offlineQueue.lookup i = some m := by
  simp only [SledDb.clearOfflineMessages, lookup_erases] at h
  split_ifs at h
  exact h

theorem silent_clear (k : ClientId) (s : Server) : Silent s (s.clearOfflineMessages k) :=
  silent_of_map s _ _ rfl rfl rfl rfl (clear_lookup k)

theorem silent_remove_client (k : ClientId) (s : Server) : Silent s (s.removeClient k).2 := by
  rw [Server.remove_client_eq]
  cases s.live k with
  | none => exact silent_of_db _ _ rfl rfl rfl rfl
  | some c => exact silent_of_map s _ (.remove k) rfl rfl rfl rfl fun _ _ _ h => h

theorem silent_enroll (env : Env) (c : ClientRef) (k : ClientId) (title : Bytes) (s : Server) :
    Silent s (enroll env c k title s) := by
  refine ⟨rfl,rfl,fun d => ?_,fun d => ?_,queued_of_map s _ _ rfl fun _ _ _ h => h⟩
  · exact modify_field s.clients c d _ RexClientInner.lastRecv rfl
  · exact modify_field s.clients c d _ RexClientInner.sender rfl

theorem silent_mutate (m : Mutation) (k : ClientId) (title : Bytes) (s : Server)
    (client : ClientRef) (hl : s.live k = some client) : Silent s (mutate m k title s) := by
  rw [mutate_some m k title s client hl]
  refine ⟨rfl,rfl,fun d => ?_,fun d => ?_,fun db' h => ⟨db',h,fun _ _ h => h⟩⟩
  · refine modify_field s.clients client d _ RexClientInner.lastRecv ?_
    cases m <;> rfl
  · refine modify_field s.clients client d _ RexClientInner.sender ?_
    cases m <;> rfl

section Services
variable {ok : Bytes → Prop} {env : Env} {I : Server → Prop} (hI : Carried env ok I)
include hI

theorem carried_no_target (source : ClientRef) (f : RexData) (command : RexCommand)
    (hc : command ≠ .ack ∧ command ≠ .ackReturn) (s t : Server) (h : I s)
    (hf : Wire ok f) (ht : sendNoTarget env source f command s = .ok t) : I t := by
  obtain ⟨f₁, h₁, ht⟩ := bind_ok ht
  obtain ⟨f₂, h₂, ht⟩ := bind_ok ht
  cases ht
  exact hI.send s source f₂ h (wire_head_mut 32 8 _ (by omega) (by omega)
    (wire_set_command command hc hf h₁) h₂)

theorem carried_setup_ack (f g : RexData) (k : ClientId) (title : Title)
    (isGroup : Bool) (s t : Server) (h : I s) (hf : Wire ok f)
    (ht : s.setupMessageAck env f k title isGroup = .ok (g,t)) : Wire ok g ∧ I t := by
  have hts := (setup_ack_eq env s t f g k title isGroup ht).2
  refine ⟨?_,hI.silent s t h (by rw [hts]; exact silent_of_db _ _ rfl rfl rfl rfl)⟩
  unfold Server.setupMessageAck at ht
  split_ifs at ht
  · cases ht
    exact hf
  · obtain ⟨m, -, ht⟩ := bind_ok ht
    obtain ⟨f₁, hf₁, ht⟩ := bind_ok ht
    cases ht
    exact wire_head_mut 64 12 _ (by omega) (by omega) hf hf₁

omit hI in
theorem carried_foldlM {α : Type} (step : Server → α → Except Fault Server) (as : List α)
    (hstep : ∀ s a t, a ∈ as → I s → step s a = .ok t → I t) (s t : Server)
    (h : I s) (ht : as.foldlM step s = .ok t) : I t := by
  induction as generalizing s with
  | nil =>
    cases ht
    exact h
  | cons a as ih =>
    rw [List.foldlM_cons] at ht
    obtain ⟨u, hu, ht⟩ := bind_ok ht
    exact ih (fun s b t hb => hstep s b t (List.mem_cons_of_mem a hb)) u
      (hstep s a u (by simp) h hu) ht

theorem carried_drain (source : ClientRef) (k : ClientId) (s t : Server)
    (h : I s) (ht : drainOffline env source k s = .ok t) : I t := by
  have hqueued : ∀ m ∈ s.getOfflineMessages env k, m.title.length ≤ 255 ∧ ok (queuedBody m) := by
    intro m hm
    unfold Server.getOfflineMessages at hm
    cases hd : s.db with
    | none =>
      rw [hd] at hm
      cases hm
    | some db =>
      rw [hd] at hm
      obtain ⟨i, -, hi⟩ := List.mem_filterMap.mp hm
      exact hI.queued s db i m h hd (Option.filter_eq_some_iff.mp hi).1
  unfold drainOffline at ht
  dsimp only at ht
  split_ifs at ht
  · cases ht
    exact h
  · obtain ⟨u, hu, ht⟩ := bind_ok ht
    cases ht
    refine hI.silent u _ ?_ (silent_clear k u)
    refine carried_foldlM (sendQueued env source k) _ (fun s m t hm hs ht => ?_) s u h hu
    obtain ⟨f₁, h₁, ht⟩ := bind_ok ht
    obtain ⟨f₂, h₂, ht⟩ := bind_ok ht
    cases ht
    obtain ⟨hlen, hbody⟩ := hqueued m hm
    have hw := wire_new .title m.title m.payload (by decide) hlen hbody
    exact hI.send s source f₂ hs (wire_head_mut 64 12 _ (by omega) (by omega)
      (wire_head_mut 128 20 _ (by omega) (by omega) hw h₁) h₂)

theorem carried_send_all (f : RexData) (targets : List ClientRef) (s : Server)
    (h : I s) (hf : Wire ok f) : I (sendAll env f.content targets s).2 := by
  unfold sendAll
  suffices hs : ∀ r : List ClientId × Server, I r.2 →
      I (targets.foldl (sendNext env f.content) r).2 from hs ([],s) h
  induction targets with
  | nil => exact fun r hr => hr
  | cons c targets ih =>
    intro r hr
    refine ih _ ?_
    have hc := hI.send r.2 c f hr hf
    unfold sendNext
    dsimp only
    split_ifs
    · exact hc
    · exact hc

theorem carried_remove_all (ks : List ClientId) (s : Server) (h : I s) : I (removeAll ks s) := by
  induction ks generalizing s with
  | nil => exact h
  | cons k ks ih => exact ih _ (hI.silent s _ h (silent_remove_client k s))

end Services

section Handlers
variable {ok : Bytes → Prop} {env : Env} {I : Server → Prop} (hI : Carried env ok I)
variable (source : ClientRef) (f : RexData) (s t : Server) (h : I s) (hf : Wire ok f)
include hI h hf

theorem carried_login (htake : ∀ k title client, f.source = .ok k → s.live k = some client →
      I (takeOver client source title s)) (ht : loginHandler env source f s = .ok t) : I t := by
  obtain ⟨k, hk, ht⟩ := bind_ok ht
  obtain ⟨title, -, ht⟩ := bind_ok ht
  cases hl : s.live k with
  | some client =>
    simp only [hl] at ht
    obtain ⟨f₁, h₁, ht⟩ := bind_ok ht
    cases ht
    exact hI.send _ client f₁ (htake k title client hk hl) (wire_set_command _ (by decide) hf h₁)
  | none =>
    simp only [hl] at ht
    obtain ⟨u, hu, ht⟩ := bind_ok ht
    obtain ⟨f₁, h₁, ht⟩ := bind_ok ht
    cases ht
    exact hI.send u source f₁
      (carried_drain hI source k _ u (hI.silent s _ h (silent_enroll env source k title s)) hu)
      (wire_set_command _ (by decide) hf h₁)

theorem carried_check (ht : checkHandler env source f s = .ok t) : I t := by
  obtain ⟨k, -, ht⟩ := bind_ok ht
  obtain ⟨f₁, h₁, ht⟩ := bind_ok ht
  cases ht
  exact hI.send s source f₁ h (wire_set_command _ (by decide) hf h₁)

theorem carried_mutator (ht : sessionMutator env source f s = .ok t) : I t := by
  have hreturn : ∀ m : Mutation, m.returnCommand ≠ .ack ∧ m.returnCommand ≠ .ackReturn := by
    rintro (_ | _) <;> decide
  obtain ⟨k, -, ht⟩ := bind_ok ht
  obtain ⟨title, -, ht⟩ := bind_ok ht
  obtain ⟨command, -, ht⟩ := bind_ok ht
  cases hm : Mutation.fromCommand command with
  | none =>
    simp only [hm] at ht
    cases ht
    exact h
  | some m =>
    simp only [hm] at ht
    cases hl : s.live k with
    | some client =>
      simp only [hl] at ht
      obtain ⟨f₁, h₁, ht⟩ := bind_ok ht
      cases ht
      have hmut := hI.silent s _ h (silent_mutate m k title s client hl)
      exact hI.send _ client f₁ (hI.silent _ _ hmut (silent_of_db _ _ rfl rfl rfl rfl))
        (wire_set_command _ (hreturn m) hf h₁)
    | none =>
      simp only [hl] at ht
      exact carried_no_target hI source f _ (hreturn m) s t h hf ht

theorem carried_title (ht : titleHandler env source f s = .ok t) : I t := by
  obtain ⟨title, htitle, ht⟩ := bind_ok ht
  obtain ⟨_, -, ht⟩ := bind_ok ht
  obtain ⟨k, -, ht⟩ := bind_ok ht
  have hback : ∀ u g, I u → Wire ok g →
      sendNoTarget env source g .titleReturn u = .ok t → I t :=
    fun u g hu hg => carried_no_target hI source g _ (by decide) u t hu hg
  cases hr : s.route env title (some k) with
  | here target =>
    simp only [hr] at ht
    obtain ⟨⟨reached, g, u⟩, hd, ht⟩ := bind_ok ht
    rw [deliverMessage, bind_of_ok htitle] at hd
    obtain ⟨⟨g', v⟩, hv, hd⟩ := bind_ok hd
    obtain ⟨hg, hsv⟩ := carried_setup_ack hI f g' _ _ _ s v h hf hv
    have hu := hI.send v target g' hsv hg
    rcases hs : v.sendBuf env target g'.content with ⟨reached', w⟩
    rw [hs] at hu
    simp only [hs] at hd
    cases hd
    cases reached with
    | true =>
      cases ht
      exact hu
    | false => exact hback u g hu hg ht
  | remote node =>
    simp only [hr] at ht
    have hu : I { s with forwards := s.forwards++[(node,⟨k,0,title,f.content,.unicast⟩)] } :=
      hI.forward s node _ h hf
    cases ho : env.forward node ⟨k,0,title,f.content,.unicast⟩ with
    | delivered =>
      simp only [ho] at ht
      cases ht
      exact hu
    | noPeerForTitle | peerUnreachable =>
      simp only [ho] at ht
      exact hback _ f hu hf ht
  | nowhere =>
    simp only [hr] at ht
    exact hback s f h hf ht

theorem carried_group (ht : groupHandler env source f s = .ok t) : I t := by
  obtain ⟨title, -, ht⟩ := bind_ok ht
  obtain ⟨k, -, ht⟩ := bind_ok ht
  dsimp only at ht
  split_ifs at ht
  · exact carried_no_target hI source f _ (by decide) s t h hf ht
  · obtain ⟨⟨g, u⟩, hu, ht⟩ := bind_ok ht
    obtain ⟨hg, hsu⟩ := carried_setup_ack hI f g _ _ _ s u h hf hu
    dsimp only at ht
    split at ht
    · cases ht
    · rename_i target _
      have hsend := hI.send { u with groupIndex := u.groupIndex+1 } target g
        (hI.silent u _ hsu (silent_of_db _ _ rfl rfl rfl rfl)) hg
      split_ifs at ht
      · exact carried_no_target hI source g _ (by decide) _ t hsend hg ht
      · cases ht
        exact hsend

theorem carried_cast (ht : castHandler env source f s = .ok t) : I t := by
  obtain ⟨title, -, ht⟩ := bind_ok ht
  obtain ⟨k, -, ht⟩ := bind_ok ht
  dsimp only at ht
  split_ifs at ht
  · exact carried_no_target hI source f _ (by decide) s t h hf ht
  · obtain ⟨⟨g, u⟩, hu, ht⟩ := bind_ok ht
    obtain ⟨hg, hsu⟩ := carried_setup_ack hI f g _ _ _ s u h hf hu
    dsimp only at ht
    have hall := carried_remove_all hI
      (sendAll env g.content (s.registry.findAllByTitle s.clients title (some k)) u).1 _
      (carried_send_all hI g (s.registry.findAllByTitle s.clients title (some k)) u hsu hg)
    split_ifs at ht
    · exact carried_no_target hI source g _ (by decide) _ t hall hg ht
    · cases ht
      exact hall

omit hf in
theorem carried_ack (hack : ∀ m, ok (ackBody m)) (ht : ackHandler env f s = .ok t) : I t := by
  unfold ackHandler at ht
  split_ifs at ht
  · cases ht
    exact h
  · obtain ⟨ack, -, ht⟩ := bind_ok ht
    have htake : I (s.takePendingAck ack.messageId).2 :=
      hI.silent s _ h (silent_of_db _ _ rfl rfl rfl rfl)
    rcases hp : s.takePendingAck ack.messageId with ⟨_ | pending, u⟩
    · rw [hp] at ht htake
      cases ht
      exact htake
    · rw [hp] at ht htake
      dsimp only at ht
      cases hl : u.live pending.sourceClientId with
      | none =>
        rw [hl] at ht
        cases ht
        exact htake
      | some sender =>
        rw [hl] at ht
        cases ht
        exact hI.send u sender _ htake (wire_ack ack.messageId _ _ (hack _))

theorem carried_handle (hack : ∀ m, ok (ackBody m))
    (htake : ∀ k title client, f.source = .ok k → f.command = .ok .login →
      s.live k = some client → I (takeOver client source title s))
    (ht : handle env source f s = .ok t) : I t := by
  obtain ⟨command, hc, ht⟩ := bind_ok ht
  cases command with
  | title => exact carried_title hI source f s t h hf ht
  | group => exact carried_group hI source f s t h hf ht
  | cast => exact carried_cast hI source f s t h hf ht
  | login =>
    exact carried_login hI source f s t h hf
      (fun k title client hk => htake k title client hk hc) ht
  | check => exact carried_check hI source f s t h hf ht
  | regTitle => exact carried_mutator hI source f s t h hf ht
  | delTitle => exact carried_mutator hI source f s t h hf ht
  | ack => exact carried_ack hI f s t h hack ht
  | titleReturn | groupReturn | castReturn | loginReturn | checkReturn | regTitleReturn
  | delTitleReturn | ackReturn =>
    cases ht
    exact h

end Handlers

section Sweeps
variable {ok : Bytes → Prop} {env : Env} {I : Server → Prop} (hI : Carried env ok I)
include hI

theorem carried_sweep_acks (hack : ∀ m, ok (ackBody m)) (s : Server) (h : I s) :
    I (sweepAcks env s) := by
  unfold sweepAcks
  cases ht : s.cleanupExpiredAcks env with
  | error e => exact h
  | ok t =>
    unfold Server.cleanupExpiredAcks at ht
    split_ifs at ht
    · cases ht
      exact h
    · dsimp only at ht
      have hs : I { s with pendingAcks :=
          (s.expiredAcks env.now).foldl (fun m e => m.erase e.1) s.pendingAcks } :=
        hI.silent s _ h (silent_of_db _ _ rfl rfl rfl rfl)
      refine carried_foldlM _ _ (fun s e t _ hs ht => ?_) _ t hs ht
      cases hl : s.live e.2 with
      | none =>
        simp only [hl] at ht
        cases ht
        exact hs
      | some d =>
        simp only [hl] at ht
        obtain ⟨g, hg, ht⟩ := bind_ok ht
        cases ht
        exact hI.send s d g hs (wire_head_mut 32 8 _ (by omega) (by omega)
          (wire_ack e.1 e.2 .ackReturn (hack e.1)) hg)

theorem carried_evict (k : ClientId) (s : Server) (h : I s) : I (s.evict k) := by
  refine hI.silent s _ h
    (silent_of_db _ _ ?_ ?_ (Server.clients_evict k s) (Server.db_evict k s)) <;>
  · rw [Server.evict_eq]
    cases s.live k <;> rfl

theorem carried_ghost_sweep (now : UInt64) (s : Server) (h : I s) :
    I (s.cleanupExpiredGhosts now) := by
  unfold Server.cleanupExpiredGhosts
  cases hd : s.db with
  | none => exact h
  | some db =>
    dsimp only
    have hs : I { s with db := some (db.takeExpiredGhosts now).2 } :=
      hI.silent s _ h (silent_of_map s _ (fun db => (db.takeExpiredGhosts now).2) rfl rfl
        rfl (by rw [hd]; rfl) fun _ _ _ hm => hm)
    generalize { s with db := some (db.takeExpiredGhosts now).2 } = u at hs ⊢
    induction (db.takeExpiredGhosts now).1 generalizing u with
    | nil => exact hs
    | cons k ks ih =>
      exact ih _ (hI.silent u _ hs (silent_of_map u _ (.clearOfflineMessages k) rfl rfl rfl rfl
        (clear_lookup k)))

theorem carried_restore (s : Server) (h : I s) : I s.restore := by
  have hrow : ∀ (s : Server) (p : PersistedClient),
      (s.restoreRow p).sent = s.sent ∧ (s.restoreRow p).forwards = s.forwards := by
    intro s p
    unfold Server.restoreRow
    split <;> exact ⟨rfl,rfl⟩
  have hrows : ∀ (ps : List PersistedClient) (s : Server), I s →
      I (ps.foldl Server.restoreRow s) := by
    intro ps
    induction ps with
    | nil => exact fun s h => h
    | cons p ps ih =>
      intro s h
      have hr := Server.restore_row_restored s p
      exact ih _ (hI.silent s _ h 
        (silent_of_db _ _ (hrow s p).1 (hrow s p).2 hr.clients hr.db))
  unfold Server.restore
  split_ifs
  · cases s.db with
    | none => exact h
    | some db => exact hrows db.loadAll s h
  · exact h

omit hI in
theorem sweep_env (e : Event) : ∃ env, ∀ env', e = .ackSweep env' → env' = env := by
  cases e with
  | ackSweep env => exact ⟨env,fun env' h => (Event.ackSweep.inj h).symm⟩
  | _ => exact ⟨quietEnv,by simp⟩

theorem carried_step (hack : ∀ m, ok (ackBody m)) (y : System) (e : Event)
    (henv : ∀ env', e = .ackSweep env' → env' = env)
    (haccept : ∀ c uuid transport now, e = .accept c uuid transport now →
      I (ServerRun.step y e).server)
    (hframe : ∀ c env' f, e = .frame c env' f → I (ServerRun.step y e).server)
    (h : I y.server) : I (ServerRun.step y e).server := by
  cases e with
  | accept c uuid transport now => exact haccept c uuid transport now rfl
  | frame c env' f => exact hframe c env' f rfl
  | teardown c =>
    simp only [step]
    split_ifs
    · exact hI.silent _ _ h (silent_remove_client _ _)
    · exact h
  | inactiveSweep now =>
    exact inactive_sweep_keeps I (fun s k => carried_evict hI k s) now y.server h
  | ackSweep env' =>
    rw [henv env' rfl]
    exact carried_sweep_acks hI hack y.server h
  | ghostSweep now => exact carried_ghost_sweep hI now y.server h
  | restore => exact carried_restore hI y.server h

end Sweeps

section Bodies
variable {ok : Bytes → Prop}

theorem Sound.of_same {s t : Server} (h : Sound ok s) (hs : t.sent = s.sent)
    (hf : t.forwards = s.forwards) (hd : t.db = s.db) : Sound ok t :=
  ⟨fun e he => h.sent e (hs ▸ he),fun p hp => h.forwarded p (hf ▸ hp),
    fun db hdb => h.queued db (hd ▸ hdb)⟩

theorem sound_carried (env : Env) : Carried env ok (Sound ok) where
  silent s t h hst := by
    refine ⟨fun e he => h.sent e (hst.sent ▸ he),
      fun p hp => h.forwarded p (hst.forwards ▸ hp),fun db' hd i m hm => ?_⟩
    obtain ⟨db, hdb, hle⟩ := hst.queued db' hd
    exact h.queued db hdb i m (hle i m hm)
  send s c f h hf := by
    have hdb : (s.sendBuf env c f.content).2.db = s.db := by
      unfold Server.sendBuf
      cases env.sendOk s.sent.length <;> rfl
    have hp := posts_send_buf env s c f.content
    refine ⟨fun e he => ?_,fun p hp' => h.forwarded p (hp.forwards ▸ hp'),
      fun db hd => h.queued db (hdb ▸ hd)⟩
    rw [hp.sent] at he
    rcases List.mem_append.mp he with he | he
    · exact h.sent e he
    · obtain rfl := List.mem_singleton.mp he
      exact hf
  forward s node request h hr := by
    refine ⟨h.sent,fun p hp => ?_,h.queued⟩
    rcases List.mem_append.mp hp with hp | hp
    · exact h.forwarded p hp
    · obtain rfl := List.mem_singleton.mp hp
      exact hr
  queued s db i m h hd hm := h.queued db hd i m hm

theorem sound_receive (hack : ∀ m, ok (ackBody m)) (env : Env) (source : ClientRef) (f : RexData)
    (s : Server) (h : Sound ok s) (hf : Wire ok f) : Sound ok (receiveFrame env source f s) := by
  unfold receiveFrame
  cases ht : handle env source f s with
  | error e => exact h
  | ok t =>
    refine Sound.of_same (carried_handle (sound_carried env) source f s t h hf hack ?_ ht)
      rfl rfl rfl
    exact fun k title client _ _ _ => h.of_same rfl rfl rfl

/-- What an event brings in from a connection is well formed and admitted. -/
def Admits (ok : Bytes → Prop) (_ : System) : Event → Prop
  | .frame _ _ f => Wire ok f
  | _ => True

theorem step_sound (hack : ∀ m, ok (ackBody m)) (y : System) (e : Event) (h : Sound ok y.server)
    (he : Admits ok y e) : Sound ok (step y e).server := by
  obtain ⟨env, henv⟩ := sweep_env e
  refine carried_step (sound_carried env) hack y e henv ?_ ?_ h
  · rintro c uuid transport now rfl
    simp only [step]
    split_ifs
    · exact h
    · exact h.of_same rfl rfl rfl
  · rintro c env' f rfl
    simp only [step]
    split_ifs
    · exact sound_receive hack env' c f y.server h he
    · exact h

end Bodies

theorem named_wire (ok : Bytes → Prop) (c : RexCommand) (hc : c ≠ .ack ∧ c ≠ .ackReturn)
    (k : ClientId) (title : Title) (ht : title.length ≤ 255)
    (hb : ok (UInt8.ofNat title.length::title)) :
    Wire ok ⟨writeWord 128 20 k (RexData.new c title []).content⟩ := by
  have hw : Wire ok (.new c title []) := wire_new c title [] hc ht (by rwa [List.append_nil])
  refine wire_head_mut 128 20 k (by omega) (by omega) hw ?_
  have hlen : ¬ (RexData.new c title []).content.length < rexHeadLen :=
    Nat.not_lt.mpr (new_length c title [])
  rw [RexData.headMut, if_neg hlen]

section Runs
variable (config : RexSystemConfig) (cluster : ClusterPort) (db : Option SledDb) (clients : Clients)

theorem sound_start {ok : Bytes → Prop}
    (hdb : ∀ store i m, db = some store → store.offlineQueue.lookup i = some m →
      m.title.length ≤ 255 ∧ ok (queuedBody m)) :
    Sound ok (start config cluster db clients).server := by
  apply carried_restore (sound_carried quietEnv)
  refine ⟨fun e he => (List.not_mem_nil he).elim,fun p hp => (List.not_mem_nil hp).elim,
    fun store hs i m hm => ?_⟩
  have hstore : db = some store := by
    simp only [Server.build] at hs
    split_ifs at hs
    exact hs
  exact hdb store i m hstore hm

end Runs

section Processes
variable {ok : Bytes → Prop}

theorem sound_deliver (env : Env) (m : ForwardMessage) (s : Server) (h : Sound ok s)
    (hm : Wire ok ⟨m.payload⟩) : Sound ok (deliver env m s).2 := by
  have hnext : ∀ (r : DeliveryOutcome × Server) c, Sound ok r.2 →
      Sound ok (deliverNext env m.payload r c).2 := by
    intro r c hr
    have hsend := (sound_carried env).send r.2 c ⟨m.payload⟩ hr hm
    unfold deliverNext
    dsimp only
    split_ifs <;> exact hsend
  have hall : ∀ (cs : List ClientRef) (r : DeliveryOutcome × Server), Sound ok r.2 →
      Sound ok (cs.foldl (deliverNext env m.payload) r).2 := by
    intro cs
    induction cs with
    | nil => exact fun r hr => hr
    | cons c cs ih => exact fun r hr => ih _ (hnext r c hr)
  unfold deliver
  dsimp only
  split_ifs
  · exact hall _ _ h
  · split
    · exact h
    · exact hnext _ _ h

/-- What a process takes in from its connections and from its peers. -/
def Takes (ok : Bytes → Prop) : ProcessEvent → Prop
  | .server (.frame _ _ f) _ => Wire ok f
  | .message _ _ (.forward m) => Wire ok ⟨m.payload⟩
  | _ => True

variable (hash : Bytes → UInt64) (render : SocketAddr → String)
variable (parse : String → Option SocketAddr)

theorem process_step_sound (hack : ∀ m, ok (ackBody m)) (y : Process) (e : ProcessEvent)
    (h : Sound ok y.system.server) (he : Takes ok e) :
    Sound ok (processStep hash render parse y e).system.server := by
  cases e with
  | server e w =>
    refine step_sound hack y.system _ h ?_
    cases e with
    | frame c env f => exact he
    | accept c uuid transport now | teardown c | inactiveSweep now | ackSweep env
    | ghostSweep now | restore => trivial
  | message env w m =>
    simp only [processStep]
    split
    · exact h
    · cases m with
      | forward m =>
        simp only [handleMessage, handleForward]
        have hd := sound_deliver env m y.system.server h he
        split_ifs
        · exact hd
        · exact hd
        · exact h
      | _ => exact h
  | wire shared => exact h

end Processes

/-- The bodies that a process can take from outside, and those of
acknowledgements. -/
inductive Known (db : Option SledDb) (es : List ProcessEvent) : Bytes → Prop
  | received (c : ClientRef) (env : Env) (f : RexData) (w : PeerForwarder.Wire) :
      ProcessEvent.server (.frame c env f) w ∈ es → Known db es (body f)
  | delivered (env : Env) (w : PeerForwarder.Wire) (m : ForwardMessage) :
      ProcessEvent.message env w (.forward m) ∈ es → Known db es (body ⟨m.payload⟩)
  | queued (store : SledDb) (i : BitVec 64) (m : OfflineMessage) : db = some store →
      store.offlineQueue.lookup i = some m → Known db es (queuedBody m)
  | ack (m : MessageId) : Known db es (ackBody m)

/-- A message on title 65 waits for client 7. -/
def oneQueued : SledDb :=
  { SledDb.empty with
    offlineIndex := (∅ : AList _).insert 7 [1]
    offlineQueue := (∅ : AList _).insert 1 ⟨1,7,[65],[104],0,0⟩ }

/-- Client 7 connects and logs in, a peer forwards a message on its title, and
the client publishes on a title that nobody here wants. -/
def relayRun : List ProcessEvent :=
  [.server (.accept 0 5 "tcp" 0) .still,.server (.frame 0 quietEnv (loginFrame 7 [65])) .still,
    .message quietEnv .still (.forward ⟨1,8,0,[65],(RexData.new .title [65] [105]).content,false,
      true,false⟩),
    .server (.frame 0 quietEnv (titleFrame 7 [66])) .still]

theorem relay_run_framed : ∀ e ∈ relayRun, Takes (fun _ => True) e := by
  simp only [relayRun, List.mem_cons, List.not_mem_nil, or_false, forall_eq_or_imp, forall_eq]
  refine ⟨trivial,?_,?_,?_⟩
  · exact named_wire _ .login (by decide) 7 [65] (by decide) trivial
  · exact wire_new .title [65] [105] (by decide) (by decide) trivial
  · exact named_wire _ .title (by decide) 7 [66] (by decide) trivial

def relayed : Server :=
  (relayRun.foldl (processStep firstByte (fun _ => "10.0.0.1:7000") (fun _ => none))
    (openServer firstByte (fun _ => "10.0.0.1:7000") .still 0 0
      (buildServices storedConfig (some oneQueued) unusedClients none)
      (some ⟨true,anAddr,[],some "a"⟩) ⟨fun _ => ∅,fun _ => .new⟩)).system.server

end RexMq.SentFrames
