import Mathlib.Tactic.Common
import RexMq.ClusterManager
import RexMq.RegistryIndex
import RexMq.ServerRun

/-!
# Delivery of forwarded messages by kind

A request carries its kind as a variant, the message on the wire as two
flags. The receiving node reads both flags the same way: a group message
goes to every local subscriber, like a broadcast, where the handler of the
publisher's own node would have chosen one.
-/

set_option autoImplicit false

namespace RexMq.ForwardedGroup
open RexMq.ByteWords RexMq.FrameData RexMq.ClientRegistry RexMq.RelationIndex
open RexMq.RegistryIndex RexMq.PublishTrace RexMq.Handlers
open RexMq.ServerState (Env Server Sent ForwardType ForwardRequest)
open RexMq.ClusterMessages RexMq.PeerForwarder RexMq.ClusterManager
open RexMq.ServerRun (quietEnv plainConfig)

section Delivery
variable (env : Env) (buf : Bytes)

theorem deliver_next_trace (r : DeliveryOutcome × Server) (c : ClientRef) :
    Posts r.2 (deliverNext env buf r c).2
        [⟨(r.2.clients c).sender,buf,env.sendOk r.2.sent.length⟩] ∧
      (deliverNext env buf r c).1.deliveredTo+(deliverNext env buf r c).1.failed =
        r.1.deliveredTo+r.1.failed+1 := by
  refine ⟨posts_deliver_next env buf r c,?_⟩
  unfold deliverNext
  dsimp only
  split_ifs
  · dsimp only
    omega
  · dsimp only
    omega

theorem deliver_all_trace (cs : List ClientRef) (r : DeliveryOutcome × Server) :
    Posts r.2 (cs.foldl (deliverNext env buf) r).2 (copies env r.2 buf r.2.sent.length cs) ∧
      (cs.foldl (deliverNext env buf) r).1.deliveredTo+
        (cs.foldl (deliverNext env buf) r).1.failed = r.1.deliveredTo+r.1.failed+cs.length := by
  induction cs generalizing r with
  | nil => exact ⟨posts_nil r.2,rfl⟩
  | cons c cs ih =>
    obtain ⟨hp, hn⟩ := deliver_next_trace env buf r c
    obtain ⟨hps, hns⟩ := ih (deliverNext env buf r c)
    rw [copies_congr env r.2 _ buf _ cs hp.sender, hp.sent, List.length_append,
      List.length_singleton] at hps
    rw [List.foldl_cons, copies, List.length_cons]
    refine ⟨posts_append _ _ _ _ _ hp hps,?_⟩
    omega

def attempted (m : ForwardMessage) (s : Server) : List ClientRef :=
  if m.isBroadcast || m.isGroup then s.registry.findAllByTitle s.clients m.title none
  else (unicastTarget env m s).toList

theorem deliver_eq (m : ForwardMessage) (s : Server) :
    deliver env m s =
      (attempted env m s).foldl (deliverNext env m.payload) (⟨0,0,m.requireAck⟩,s) := by
  unfold deliver attempted
  cases m.isBroadcast || m.isGroup with
  | true => rfl
  | false => cases unicastTarget env m s <;> rfl

theorem deliver_attempts (m : ForwardMessage) (s : Server) :
    Posts s (deliver env m s).2
        (copies env s m.payload s.sent.length (attempted env m s)) ∧
      (deliver env m s).1.deliveredTo+(deliver env m s).1.failed =
        (attempted env m s).length := by
  rw [deliver_eq]
  have h := deliver_all_trace env m.payload (attempted env m s) (⟨0,0,m.requireAck⟩,s)
  dsimp only at h
  rwa [Nat.zero_add] at h

end Delivery

section Kinds
variable (env : Env) (s : Server)

/-- The calls are one to one of the clients, or none if there is no client. -/
def Single (buf : Bytes) (cs : List ClientRef) (calls : List Sent) : Prop :=
  ∃ ts, (∀ c ∈ ts, c ∈ cs) ∧ ts.length = min 1 cs.length ∧
    calls = copies env s buf s.sent.length ts

def Each (buf : Bytes) (cs : List ClientRef) (calls : List Sent) : Prop :=
  ∃ ts, ts.Nodup ∧ (∀ c, c ∈ ts ↔ c ∈ cs) ∧ calls = copies env s buf s.sent.length ts

theorem single_copies_iff (buf : Bytes) (cs : List ClientRef) :
    Single env s buf cs (copies env s buf s.sent.length cs) ↔ cs.length ≤ 1 := by
  constructor
  · rintro ⟨ts, -, hlen, hcalls⟩
    have hn := congrArg List.length hcalls
    rw [copies_length, copies_length] at hn
    omega
  · intro h
    exact ⟨cs,fun _ hc => hc,by omega,rfl⟩

theorem each_copies_iff (buf : Bytes) (cs : List ClientRef) :
    Each env s buf cs (copies env s buf s.sent.length cs) ↔ cs.Nodup := by
  constructor
  · rintro ⟨ts, hnodup, hmem, hcalls⟩
    have hn := congrArg List.length hcalls
    rw [copies_length, copies_length] at hn
    have hsub : ts.Subperm cs := hnodup.subperm (fun c hc => (hmem c).mp hc)
    exact (hsub.perm_of_length_le hn.le).nodup_iff.mp hnodup
  · intro h
    exact ⟨cs,h,fun _ => Iff.rfl,rfl⟩

/-- What a message made from the request should do at the receiving node. -/
structure DeliversAs (req : ForwardRequest) (m : ForwardMessage) : Prop where
  group : req.msgType = .group → ∃ calls, Posts s (deliver env m s).2 calls ∧
    Single env s req.payload (s.registry.findAllByTitle s.clients req.title none) calls
  broadcast : req.msgType = .broadcast → ∃ calls, Posts s (deliver env m s).2 calls ∧
    Each env s req.payload (s.registry.findAllByTitle s.clients req.title none) calls
  counted : ∃ calls, Posts s (deliver env m s).2 calls ∧
    (deliver env m s).1.deliveredTo+(deliver env m s).1.failed = calls.length

theorem posts_unique (t : Server) (xs ys : List Sent) (hx : Posts s t xs) (hy : Posts s t ys) :
    xs = ys :=
  List.append_cancel_left (hx.sent.symm.trans hy.sent)

theorem posts_exists_iff (t : Server) (xs : List Sent) (hx : Posts s t xs)
    (P : List Sent → Prop) : (∃ ys, Posts s t ys ∧ P ys) ↔ P xs := by
  constructor
  · rintro ⟨ys, hy, hP⟩
    rwa [posts_unique s t xs ys hx hy]
  · exact fun hP => ⟨xs,hx,hP⟩

theorem delivers_as_iff (id : BitVec 64) (req : ForwardRequest) :
    DeliversAs env s req (forwardMessage id req) ↔
      (req.msgType = .group →
        (s.registry.findAllByTitle s.clients req.title none).length ≤ 1) ∧
      (req.msgType = .broadcast →
        (s.registry.findAllByTitle s.clients req.title none).Nodup) := by
  obtain ⟨hp, hn⟩ := deliver_attempts env (forwardMessage id req) s
  have hfan : req.msgType = .group ∨ req.msgType = .broadcast →
      attempted env (forwardMessage id req) s =
        s.registry.findAllByTitle s.clients req.title none := by
    intro hk
    rw [attempted, if_pos]
    · rfl
    · rcases hk with hk | hk <;> simp [forwardMessage, hk]
  have hg : req.msgType = .group → ((∃ calls,
      Posts s (deliver env (forwardMessage id req) s).2 calls ∧ Single env s req.payload
        (s.registry.findAllByTitle s.clients req.title none) calls) ↔
      (s.registry.findAllByTitle s.clients req.title none).length ≤ 1) := by
    intro hk
    rw [hfan (.inl hk)] at hp
    rw [posts_exists_iff s _ _ hp, ← single_copies_iff env s req.payload]
    rfl
  have hb : req.msgType = .broadcast → ((∃ calls,
      Posts s (deliver env (forwardMessage id req) s).2 calls ∧ Each env s req.payload
        (s.registry.findAllByTitle s.clients req.title none) calls) ↔
      (s.registry.findAllByTitle s.clients req.title none).Nodup) := by
    intro hk
    rw [hfan (.inr hk)] at hp
    rw [posts_exists_iff s _ _ hp, ← each_copies_iff env s req.payload]
    rfl
  constructor
  · intro h
    exact ⟨fun hk => (hg hk).mp (h.group hk),fun hk => (hb hk).mp (h.broadcast hk)⟩
  · intro h
    refine ⟨fun hk => (hg hk).mpr (h.1 hk),fun hk => (hb hk).mpr (h.2 hk),_,hp,?_⟩
    rw [hn, copies_length]

end Kinds

theorem find_all_nodup (h : Clients) (r : ClientRegistryImpl) (ha : Agrees h r) (t : Title) :
    (r.findAllByTitle h t none).Nodup := by
  rw [ClientRegistryImpl.find_all_by_title_eq]
  exact (List.Nodup.of_map _ (ha.index.distinct t)).filter _

/-- The handler of the publisher's own node called one of the other local
subscribers, or none if there is none; what it sent besides are answers. -/
def SingleHere (env : Env) (source : ClientRef) (f : RexData) (s t : Server) (title : Title)
    (k : ClientId) : Prop :=
  ∃ (g : RexData) (calls back : List Sent), g.command = f.command ∧
    t.sent = s.sent++(calls++back) ∧
    Single env s g.content (s.registry.findAllByTitle s.clients title (some k)) calls ∧
    ∀ e ∈ back, IsReturn .groupReturn (s.clients source).sender e

theorem group_single_here (env : Env) (source : ClientRef) (f : RexData) (s t : Server)
    (title : Title) (k : ClientId) (ht : f.title = .ok title) (hk : f.source = .ok k)
    (h : groupHandler env source f s = .ok t) : SingleHere env source f s t title k := by
  have hback : ∀ reached back, Answers .groupReturn (s.clients source).sender reached back →
      ∀ e ∈ back, IsReturn .groupReturn (s.clients source).sender e := by
    rintro reached back (_ | ⟨e', he⟩) e hin
    · cases hin
    · rwa [List.mem_singleton.mp hin]
  rcases group_trace env source f s t title k ht hk h with
    ⟨hnone, back, ha, hp⟩ | ⟨target, hin, g, hg, back, ha, hp⟩
  · refine ⟨f,[],back,rfl,hp.sent,⟨[],by simp,?_,rfl⟩,hback _ _ ha⟩
    rw [hnone]
    rfl
  · refine ⟨g,_,back,hg,hp.sent,⟨[target],?_,?_,rfl⟩,hback _ _ ha⟩
    · intro c hc
      rwa [List.mem_singleton.mp hc]
    · have := List.length_pos_of_mem hin
      rw [List.length_singleton]
      omega

/-- The message survives the wire, and then does what its kind says exactly
when a group has at most one local subscriber and no subscriber of a
broadcast is listed twice. A group message handled where it was published
always goes to one. -/
theorem forwarded_kind_iff (codec : Codec) (env : Env) (s : Server) (id : BitVec 64)
    (req : ForwardRequest) (h : codec.fits (.forward (forwardMessage id req))) :
    (∃ m, codec.deserialize (codec.serialize (.forward (forwardMessage id req))) =
        some (.forward m) ∧
      (DeliversAs env s req m ↔
        (req.msgType = .group →
          (s.registry.findAllByTitle s.clients req.title none).length ≤ 1) ∧
        (req.msgType = .broadcast →
          (s.registry.findAllByTitle s.clients req.title none).Nodup))) ∧
    ∀ source f t k, f.title = .ok req.title → f.source = .ok k →
      groupHandler env source f s = .ok t → SingleHere env source f s t req.title k := by
  constructor
  · exact ⟨forwardMessage id req,codec.deserialize_serialize _ h,delivers_as_iff env s id req⟩
  · intro source f t k ht hk hok
    exact group_single_here env source f s t req.title k ht hk hok

/-- Two clients subscribed to one title. -/
def twoSubscribers : Server :=
  { Server.build plainConfig .noop none (fun c => .new c [97] c 0) with
    registry := ((ClientRegistryImpl.new.addClient (fun c => .new c [97] c 0) 1).addClient
      (fun c => .new c [97] c 0) 2) }

def request (kind : ForwardType) : ForwardRequest :=
  ⟨9,0,[97],(RexData.new .group [97] [5]).content,kind⟩

/-- A broadcast to the two reaches each of them once. -/
theorem forwarded_broadcast_two :
    ∃ m, bincode.deserialize (bincode.serialize
        (.forward (forwardMessage 7 (request .broadcast)))) = some (.forward m) ∧
      DeliversAs quietEnv twoSubscribers (request .broadcast) m := by
  have hfits : bincode.fits (.forward (forwardMessage 7 (request .broadcast))) := by
    refine ⟨⟨?_,by decide +kernel⟩,?_⟩
    · show List.length _ < _
      decide
    · show List.length _ < _
      decide +kernel
  obtain ⟨m, hm, hiff⟩ :=
    (forwarded_kind_iff bincode quietEnv twoSubscribers 7 (request .broadcast) hfits).1
  have hgroup : (request .broadcast).msgType ≠ .group := by decide
  have ha : Agrees twoSubscribers.clients twoSubscribers.registry :=
    add_client_agrees _ _ (add_client_agrees _ _ (new_agrees _) 1 rfl) 2 (by decide +kernel)
  exact ⟨m,hm,hiff.mpr ⟨fun hk => absurd hk hgroup,fun _ => find_all_nodup _ _ ha [97]⟩⟩

/-- A group message for the two is sent to both. -/
theorem forwarded_group_doubled :
    bincode.deserialize (bincode.serialize (.forward (forwardMessage 7 (request .group)))) =
        some (.forward (forwardMessage 7 (request .group))) ∧
      (deliver quietEnv (forwardMessage 7 (request .group)) twoSubscribers).2.sent =
        [⟨1,(request .group).payload,true⟩,⟨2,(request .group).payload,true⟩] ∧
      ¬ DeliversAs quietEnv twoSubscribers (request .group)
        (forwardMessage 7 (request .group)) := by
  have hsent : (deliver quietEnv (forwardMessage 7 (request .group)) twoSubscribers).2.sent =
      [⟨1,(request .group).payload,true⟩,⟨2,(request .group).payload,true⟩] := by
    decide +kernel
  refine ⟨by decide +kernel,hsent,fun h => ?_⟩
  obtain ⟨calls, hp, ts, -, hlen, rfl⟩ := h.group rfl
  have hn := congrArg List.length (hp.sent.symm.trans hsent)
  rw [List.length_append, copies_length, hlen] at hn
  revert hn
  decide +kernel

end RexMq.ForwardedGroup
