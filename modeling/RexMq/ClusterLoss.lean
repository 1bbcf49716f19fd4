import Mathlib.Tactic.Common
import RexMq.ClusterPublish
import RexMq.RegistryIndex

/-!
# A title message in a connected cluster

All nodes know each other and are connected, every send succeeds, and nothing
disturbs the publish. The publishing node serves its own subscribers first.
Without one it forwards the message to the node the ring names, or, where the
ring names the node itself, to the first other node it is connected to, and
that node alone decides what becomes of the message. The publisher is not told
when nobody listens there, and no other node is asked.
-/

set_option autoImplicit false

namespace RexMq.ClusterLoss
open RexMq.ByteWords RexMq.FrameData RexMq.ClientRegistry
open RexMq.ServerState (NodeId Env Server ForwardRequest FwdResult)
open RexMq.HandlerEffects RexMq.FrameAccess RexMq.ServerRun RexMq.PublishTrace
open RexMq.ClusterMessages RexMq.RouteTable RexMq.PeerForwarder RexMq.ClusterManager
open RexMq.ClusterPublish

section Forwarding
variable (parse : String → Option SocketAddr) (w : Wire) (i : TransportRef) (j : TableRef)
variable (me : NodeId) (req : ForwardRequest) (net : Net)

def Eligible (table : GlobalRouteTable) (exclude : Option NodeId) (n : NodeId) : Prop :=
  n ≠ me ∧ some n ≠ exclude ∧ ((table.getNodeAddr n).bind parse).isSome

instance (table : GlobalRouteTable) (exclude : Option NodeId) (n : NodeId) :
    Decidable (Eligible parse me table exclude n) := by
  unfold Eligible
  infer_instance

/-- The node that gets the message: the one named if it is connected, else
the first other one. -/
def nextHop (peers : Connections) (table : GlobalRouteTable) (target : NodeId) : Option NodeId :=
  if target ∈ peers then some target
  else (w.listing 0 peers).find? (fun n => Eligible parse me table (some target) n)

/-- The task leaves the shared objects alone and has put the frame into the
channel of the node, if there is one. -/
def SentVia (node : Option NodeId) (r : Bool × Net) : Prop :=
  match node.bind (fun n => (net.shared.connections i).lookup n) with
  | some ch => r.1 = true ∧ ∃ id, r.2.queued = net.queued++[(ch,.forward (forwardMessage id req))]
  | none => r.1 = false ∧ r.2.shared = net.shared ∧ r.2.queued = net.queued

theorem try_send_calm (hw : Calm w) (node : NodeId) (addr : SocketAddr) :
    SentVia i req net (some node) (trySend w i node addr req net) := by
  unfold SentVia trySend Net.isConnected
  simp only [access_calm w _ hw, Option.bind_some]
  cases hl : (net.shared.connections i).lookup node with
  | none =>
    rw [decide_eq_false (AList.lookup_eq_none.mp hl)]
    exact ⟨rfl,rfl,rfl⟩
  | some ch =>
    rw [decide_eq_true (AList.lookup_isSome.mp (Option.isSome_of_eq_some hl))]
    dsimp only
    rw [send_to_calm w i ⟨net.shared,net.clock+1,net.queued⟩ hw node ch _ hl]
    exact ⟨rfl,_,rfl⟩

theorem sent_via_congr (net' : Net) (node : Option NodeId) (r : Bool × Net)
    (hs : net'.shared = net.shared) (hq : net'.queued = net.queued)
    (h : SentVia i req net' node r) : SentVia i req net node r := by
  unfold SentVia at h ⊢
  rwa [hs, hq] at h

theorem walk_calm (hw : Calm w) (exclude : Option NodeId) (nodes : List NodeId)
    (hn : ∀ n ∈ nodes, n ∈ net.shared.connections i) :
    SentVia i req net
      (nodes.find? (fun n => Eligible parse me (net.shared.tables j) exclude n))
      (walk parse w i j me exclude req nodes net) := by
  induction nodes generalizing net with
  | nil => exact ⟨rfl,rfl,rfl⟩
  | cons other rest ih =>
    have hrest : ∀ net' : Net, net'.shared = net.shared → net'.queued = net.queued →
        SentVia i req net
          (rest.find? (fun n => Eligible parse me (net.shared.tables j) exclude n))
          (walk parse w i j me exclude req rest net') := by
      intro net' hs hq
      apply sent_via_congr i req net net' _ _ hs hq
      rw [← hs]
      exact ih net' (fun n h => hs ▸ hn n (List.mem_cons_of_mem _ h))
    rw [walk]
    by_cases hskip : other = me ∨ some other = exclude
    · have hno : ¬ Eligible parse me (net.shared.tables j) exclude other :=
        fun he => hskip.elim he.1 he.2.1
      rw [if_pos hskip, List.find?_cons_of_neg (by simpa using hno)]
      exact hrest net rfl rfl
    · rw [if_neg hskip, access_calm w _ hw]
      dsimp only
      cases ha : ((net.shared.tables j).getNodeAddr other).bind parse with
      | none =>
        have hno : ¬ Eligible parse me (net.shared.tables j) exclude other := by
          intro he
          have hsome := he.2.2
          rw [ha] at hsome
          cases hsome
        rw [List.find?_cons_of_neg (by simpa using hno)]
        exact hrest _ rfl rfl
      | some addr =>
        have hyes : Eligible parse me (net.shared.tables j) exclude other := by
          rw [not_or] at hskip
          exact ⟨hskip.1,hskip.2,by rw [ha]; rfl⟩
        obtain ⟨ch, hch⟩ := Option.isSome_iff_exists.mp
          (AList.lookup_isSome.mpr (hn other List.mem_cons_self))
        have hsent := try_send_calm w i req ⟨net.shared,net.clock+1,net.queued⟩ hw other addr
        rw [List.find?_cons_of_pos (by simpa using hyes)]
        rcases hr : trySend w i other addr req ⟨net.shared,net.clock+1,net.queued⟩ with ⟨ok, net'⟩
        rw [hr] at hsent
        unfold SentVia at hsent ⊢
        simp only [Option.bind_some, hch, hr] at hsent ⊢
        cases hsent.1
        exact hsent

theorem forward_calm (hw : Calm w) (target : NodeId)
    (ht : (((net.shared.tables j).getNodeAddr target).bind parse).isSome) :
    SentVia i req net
      (nextHop parse w me (net.shared.connections i) (net.shared.tables j) target)
      ((forward parse w ⟨some i,some j,me⟩ target req net).1 == .delivered,
        (forward parse w ⟨some i,some j,me⟩ target req net).2) := by
  obtain ⟨addr, haddr⟩ := Option.isSome_iff_exists.mp ht
  obtain ⟨text, htext, hparse⟩ := Option.bind_eq_some_iff.mp haddr
  have hsent := try_send_calm w i req ⟨net.shared,net.clock+1,net.queued⟩ hw target addr
  unfold forward nextHop
  simp only [access_calm w _ hw, htext, hparse]
  rcases hr : trySend w i target addr req ⟨net.shared,net.clock+1,net.queued⟩ with ⟨ok, net'⟩
  rw [hr] at hsent
  by_cases hin : target ∈ net.shared.connections i
  · obtain ⟨ch, hch⟩ := Option.isSome_iff_exists.mp (AList.lookup_isSome.mpr hin)
    rw [if_pos hin]
    unfold SentVia at hsent ⊢
    simp only [Option.bind_some, hch] at hsent ⊢
    cases hsent.1
    exact hsent
  · have hch := AList.lookup_eq_none.mpr hin
    rw [if_neg hin]
    simp only [SentVia, Option.bind_some, hch] at hsent
    obtain ⟨hok, hshared, hqueued⟩ := hsent
    cases hok
    dsimp only
    have hnodes : ∀ n ∈ w.listing (net'.clock+1) (net'.shared.connections i),
        n ∈ net'.shared.connections i :=
      fun n h => AList.mem_keys.mpr ((w.listing_perm _ _).mem_iff.mp h)
    have hwalk := walk_calm parse w i j me req ⟨net'.shared,net'.clock+1,net'.queued⟩ hw
      (some target) (w.listing (net'.clock+1) (net'.shared.connections i)) hnodes
    unfold fallbackExcluding Net.connectedNodes
    simp only [access_calm w _ hw]
    rcases hr : walk parse w i j me (some target) req
      (w.listing (net'.clock+1) (net'.shared.connections i))
      ⟨net'.shared,net'.clock+1,net'.queued⟩ with ⟨ok, last⟩
    rw [hr] at hwalk
    apply sent_via_congr i req net ⟨net'.shared,net'.clock+1,net'.queued⟩ _ _ hshared hqueued
    rw [← hw.listing (net'.clock+1), ← hshared]
    cases ok with
    | false => exact hwalk
    | true => exact hwalk

end Forwarding

/-- The members of a cluster, with their names and transports. -/
structure Formation where
  hosts : List Host
  ident : Host → NodeId
  transport : Host → TransportRef

def tableOf (x : Cluster) (h : Host) : GlobalRouteTable :=
  x.shared.tables (x.nodes h).manager.routeTable

def peersOf (form : Formation) (x : Cluster) (h : Host) : Connections :=
  x.shared.connections (form.transport h)

/-- Every node runs a started manager with its services, has all members and
no others in its route table, and is connected to each of the others; a
connection leads to the node it is named for. -/
structure Formed (parse : String → Option SocketAddr) (form : Formation) (x : Cluster) : Prop where
  named : ∀ g ∈ form.hosts, ∀ h ∈ form.hosts, form.ident g = form.ident h → g = h
  port : ∀ h ∈ form.hosts, ∃ m, (x.nodes h).server.cluster = .manager (form.ident h) m
  slots : ∀ h ∈ form.hosts, (x.nodes h).forwarder =
    ⟨some (form.transport h),some (x.nodes h).manager.routeTable,form.ident h⟩
  serving : ∀ h ∈ form.hosts, (x.nodes h).manager.services = true
  sound : ∀ h ∈ form.hosts, (tableOf x h).Sound
  members : ∀ h ∈ form.hosts, ∀ n,
    n ∈ (tableOf x h).nodeIdToAddr ↔ ∃ g ∈ form.hosts, form.ident g = n
  addressed : ∀ h ∈ form.hosts, ∀ n ∈ (tableOf x h).nodeIdToAddr,
    (((tableOf x h).getNodeAddr n).bind parse).isSome
  connected : ∀ h ∈ form.hosts, ∀ g ∈ form.hosts, g ≠ h → form.ident g ∈ peersOf form x h
  leads : ∀ h ∈ form.hosts, ∀ g ∈ form.hosts, ∀ ch,
    (peersOf form x h).lookup (form.ident g) = some ch → x.ends ch = g

/-- The sender belongs to a subscriber of the title on the host whose id is
not the publisher's. -/
def Listens (form : Formation) (x : Cluster) (title : Title) (k : ClientId) (host : Host)
    (sender : SenderRef) : Prop :=
  host ∈ form.hosts ∧ ∃ c ∈ (x.nodes host).server.registry.subscribers title,
    ((x.nodes host).server.clients c).id ≠ k ∧
    ((x.nodes host).server.clients c).sender = sender

/-- A listener got the message, or there is none and the publisher was told. -/
def Heard (form : Formation) (x : Cluster) (title : Title) (k : ClientId) (tag : ℕ)
    (z : Cluster) : Prop :=
  (∃ d ∈ z.deliveries, d.tag = tag ∧ Listens form x title k d.host d.sender) ∨
    (∀ host sender, ¬ Listens form x title k host sender) ∧ tag ∈ z.returned

def destination (hash : Bytes → UInt64) (b : BinarySearch) (parse : String → Option SocketAddr)
    (w : Wire) (form : Formation) (x : Cluster) (host : Host) (title : Title) : Option Host :=
  ((tableOf x host).getNodeByTitle hash b title).bind (fun owner =>
    (nextHop parse w (form.ident host) (peersOf form x host) (tableOf x host) owner).bind (fun n =>
      ((peersOf form x host).lookup n).map x.ends))

section Loss
variable (hash : Bytes → UInt64) (b : BinarySearch)
variable (render : SocketAddr → String) (parse : String → Option SocketAddr)
variable (form : Formation) (x : Cluster) (host : Host)
variable (env : Env) (w : Wire) (source : ClientRef) (f : RexData)
variable (title : Title) (k : ClientId)

theorem local_listener_iff (hh : host ∈ form.hosts) :
    (∃ sender, Listens form x title k host sender) ↔
      (x.nodes host).server.registry.findAllByTitle (x.nodes host).server.clients title
        (some k) ≠ [] := by
  rw [ClientRegistryImpl.find_all_by_title_eq, ne_eq, List.filter_eq_nil_iff]
  push Not
  constructor
  · rintro ⟨sender, -, c, hc, hid, -⟩
    exact ⟨c,hc,by simpa using Ne.symm hid⟩
  · rintro ⟨c, hc, hid⟩
    exact ⟨_,hh,c,hc,Ne.symm (by simpa using hid),rfl⟩

theorem plan_remote (hx : Formed parse form x) (hh : host ∈ form.hosts)
    (hnone : ∀ sender, ¬ Listens form x title k host sender) :
    ∃ owner ∈ (tableOf x host).nodeIdToAddr,
      (tableOf x host).getNodeByTitle hash b title = some owner ∧
      plan hash b parse host env w x title k = .remote owner := by
  obtain ⟨m, hm⟩ := hx.port host hh
  obtain ⟨owner, hmem, howner⟩ := GlobalRouteTable.owner_known hash b (tableOf x host) title
    (form.ident host) (hx.sound host hh) ((hx.members host hh _).mpr ⟨host,hh,rfl⟩)
  refine ⟨owner,hmem,howner,?_⟩
  have hempty : (x.nodes host).server.registry.findAllByTitle (x.nodes host).server.clients title
      (some k) = [] := by
    by_contra hne
    obtain ⟨sender, hs⟩ := (local_listener_iff form x host title k hh).mpr hne
    exact hnone sender hs
  rw [plan, Server.route, (RegistryIndex.find_one_none_iff _ _ _ _ _).mpr hempty]
  unfold tableOf at howner
  simp only [hm, ServerState.ClusterPort.findNodeForTitle, nodeEnv, howner]

theorem next_hop_mem (peers : Connections) (table : GlobalRouteTable) (me target n : NodeId)
    (h : nextHop parse w me peers table target = some n) : n ∈ peers := by
  unfold nextHop at h
  split_ifs at h with hin
  · cases h
    exact hin
  · exact AList.mem_keys.mpr ((w.listing_perm 0 peers).mem_iff.mp (List.mem_of_find?_eq_some h))

section Forwarded
variable (hx : Formed parse form x) (hh : host ∈ form.hosts) (hw : Calm w)
include hx hh hw

theorem sent_off_calm (owner : NodeId) (hmem : owner ∈ (tableOf x host).nodeIdToAddr) :
    SentVia (form.transport host) (titleRequest f title k) ⟨x.shared,0,[]⟩
      (nextHop parse w (form.ident host) (peersOf form x host) (tableOf x host) owner)
      ((sentOff parse host w f x owner title k).1 == .delivered,
        (sentOff parse host w f x owner title k).2) := by
  rw [sentOff, hx.slots host hh]
  exact forward_calm parse w _ _ _ _ ⟨x.shared,0,[]⟩ hw owner (hx.addressed host hh owner hmem)

theorem sent_off_destination (owner : NodeId) (d : Host)
    (hmem : owner ∈ (tableOf x host).nodeIdToAddr)
    (howner : (tableOf x host).getNodeByTitle hash b title = some owner)
    (hd : destination hash b parse w form x host title = some d) :
    (sentOff parse host w f x owner title k).1 = .delivered ∧
      ∃ ch id, x.ends ch = d ∧ (sentOff parse host w f x owner title k).2.queued =
        [(ch,.forward (forwardMessage id (titleRequest f title k)))] := by
  have hsent := sent_off_calm parse form x host w f title k hx hh hw owner hmem
  rw [destination, howner, Option.bind_some] at hd
  obtain ⟨n, hn, hd⟩ := Option.bind_eq_some_iff.mp hd
  obtain ⟨ch, hch, hend⟩ := Option.map_eq_some_iff.mp hd
  unfold peersOf at hch
  simp only [SentVia, hn, Option.bind_some, hch] at hsent
  obtain ⟨hok, id, hq⟩ := hsent
  exact ⟨by simpa using hok,ch,id,hend,hq⟩

theorem sent_off_nowhere (owner : NodeId) (hmem : owner ∈ (tableOf x host).nodeIdToAddr)
    (howner : (tableOf x host).getNodeByTitle hash b title = some owner)
    (hd : destination hash b parse w form x host title = none) :
    (sentOff parse host w f x owner title k).2.queued = [] ∧
      nextHop parse w (form.ident host) (peersOf form x host) (tableOf x host) owner = none := by
  have hsent := sent_off_calm parse form x host w f title k hx hh hw owner hmem
  rw [destination, howner, Option.bind_some] at hd
  cases hn : nextHop parse w (form.ident host) (peersOf form x host) (tableOf x host) owner with
  | none =>
    simp only [SentVia, hn, Option.bind_none] at hsent
    exact ⟨hsent.2.2,rfl⟩
  | some n =>
    -- a next hop is connected, so there would be a destination
    obtain ⟨ch, hch⟩ := Option.isSome_iff_exists.mp
      (AList.lookup_isSome.mpr (next_hop_mem parse w _ _ _ _ n hn))
    rw [hn, Option.bind_some, hch] at hd
    cases hd

omit hw in
theorem destination_mem (d : Host) (owner : NodeId)
    (hmem : owner ∈ (tableOf x host).nodeIdToAddr)
    (howner : (tableOf x host).getNodeByTitle hash b title = some owner)
    (hd : destination hash b parse w form x host title = some d) : d ∈ form.hosts := by
  rw [destination, howner, Option.bind_some] at hd
  obtain ⟨n, hn, hd⟩ := Option.bind_eq_some_iff.mp hd
  obtain ⟨ch, hch, hend⟩ := Option.map_eq_some_iff.mp hd
  have hmember : n ∈ (tableOf x host).nodeIdToAddr := by
    unfold nextHop at hn
    split_ifs at hn with hin
    · cases hn
      exact hmem
    · have he : Eligible parse (form.ident host) (tableOf x host) (some owner) n := by
        simpa using List.find?_some hn
      obtain ⟨_, htext, -⟩ := Option.bind_eq_some_iff.mp
        (Option.isSome_iff_exists.mp he.2.2).choose_spec
      exact AList.lookup_isSome.mp (Option.isSome_of_eq_some htext)
  obtain ⟨g, hg, rfl⟩ := (hx.members host hh n).mp hmember
  rw [hx.leads host hh g hg ch hch] at hend
  exact hend ▸ hg

omit hw in
theorem alone_of_no_hop (owner : NodeId)
    (hhop : nextHop parse w (form.ident host) (peersOf form x host) (tableOf x host) owner = none) :
    ∀ g ∈ form.hosts, g = host := by
  intro g hg
  by_contra hne
  have hin := hx.connected host hh g hg hne
  unfold nextHop at hhop
  split_ifs at hhop with howner
  have hnot := List.find?_eq_none.mp hhop (form.ident g)
    ((w.listing_perm 0 _).mem_iff.mpr (AList.mem_keys.mp hin))
  apply hnot
  simp only [decide_eq_true_eq]
  refine ⟨fun he => hne (hx.named g hg host hh he),fun he => ?_,
    hx.addressed host hh _ ((hx.members host hh _).mpr ⟨g,hg,rfl⟩)⟩
  cases he
  exact howner hin

end Forwarded

theorem publish_quiet (hc : f.command = .ok .title) (d : Host) :
    Quiet (x.nodes d).server ((publish hash b parse host env w source f x).nodes d).server ∧
      ((publish hash b parse host env w source f x).nodes d).manager = (x.nodes d).manager := by
  rw [publish, if_pos hc]
  rcases eq_or_ne d host with rfl | hne
  · simp only [Function.update_self, and_true]
    unfold receiveFrame
    cases h : Handlers.handle (nodeEnv hash b parse env w (x.nodes d) x.shared) source f
      (x.nodes d).server with
    | error e => exact quiet_refl _
    | ok t =>
      rw [Handlers.handle, bind_of_ok hc] at h
      exact quiet_trans _ t _ (title_follows (quiet_follows _) source f _ t h)
        (quiet_touch t source _)
  · simp only [Function.update_of_ne hne]
    exact ⟨quiet_refl _,trivial⟩

theorem unicast_target_quiet (m : ForwardMessage) (s t : Server) (hq : Quiet s t)
    (hm : m.targetClientId = 0) :
    unicastTarget env m t = s.registry.findOneByTitle s.clients env.draw m.title none := by
  have hfilter : (fun c => decide ((none : Option ClientId) ≠ some (t.clients c).id)) =
      fun c => decide (none ≠ some (s.clients c).id) := by
    funext c
    rw [hq.id]
  rw [unicastTarget, if_neg (not_not.mpr hm), ClientRegistryImpl.find_one_by_title_eq,
    ClientRegistryImpl.find_one_by_title_eq, ClientRegistryImpl.find_all_by_title_eq,
    ClientRegistryImpl.find_all_by_title_eq, hq.registry, hfilter]

/-- The frame of a unicast, received where the sends succeed, is delivered to
the client that the node chooses for the title. -/
theorem receive_delivers (y : Cluster) (tag : ℕ) (ch : Channel) (m : ForwardMessage)
    (hsend : ∀ n, env.sendOk n = true) (hm : m.targetClientId = 0) (hr : m.requireAck = false)
    (hu : (m.isBroadcast || m.isGroup) = false) (hy : y.flights = [⟨tag,ch,.forward m⟩])
    (hq : Quiet (x.nodes (y.ends ch)).server (y.nodes (y.ends ch)).server)
    (hs : (y.nodes (y.ends ch)).manager.services = true) :
    (receive hash render 0 env w y).deliveries = y.deliveries++
        ((x.nodes (y.ends ch)).server.registry.findOneByTitle
          (x.nodes (y.ends ch)).server.clients env.draw m.title none).toList.map
            (fun c => ⟨tag,y.ends ch,((x.nodes (y.ends ch)).server.clients c).sender⟩) ∧
      (receive hash render 0 env w y).returned = y.returned := by
  have hfirst : y.flights[0]? = some ⟨tag,ch,.forward m⟩ := by rw [hy]; rfl
  have hposts := posts_deliver env m (y.nodes (y.ends ch)).server hu
  unfold receive
  rw [hfirst]
  dsimp only
  rw [handle_forward_eq _ _ _ _ _ _ _ hr, if_pos hs, hposts.sent, List.drop_left,
    unicast_target_quiet env m _ _ hq hm]
  refine ⟨?_,rfl⟩
  cases (x.nodes (y.ends ch)).server.registry.findOneByTitle
    (x.nodes (y.ends ch)).server.clients env.draw m.title none with
  | none => rfl
  | some c => simp [copies, delivered, hsend, hq.sender]

end Loss

/-- No publish has been recorded yet. -/
structure Unused (x : Cluster) : Prop where
  flights : x.flights = []
  deliveries : x.deliveries = []
  returned : x.returned = []

section Hearing
variable (hash : Bytes → UInt64) (b : BinarySearch)
variable (render : SocketAddr → String) (parse : String → Option SocketAddr)
variable (form : Formation) (x : Cluster) (host : Host)
variable (env env' : Env) (w w' : Wire) (source : ClientRef) (f : RexData)
variable (title : Title) (k : ClientId)

/-- A publish and the receipt of its forward, if there is one. -/
def afterReceipt : Cluster :=
  [ClusterEvent.publish host env w source f,.receive 0 env' w'].foldl
    (clusterStep hash b render parse) x

theorem added_by_plan (r : Entries) (hc : f.command = .ok .title) (ht : f.title = .ok title)
    (hk : f.source = .ok k) (hr : Added hash b parse host env w source f x r) :
    (∃ target, plan hash b parse host env w x title k = .here target ∧
        env.sendOk (x.nodes host).server.sent.length = true ∧
        r = ⟨[⟨x.publishes,host,((x.nodes host).server.clients target).sender⟩],[],[]⟩) ∨
      (∃ target ch id, plan hash b parse host env w x title k = .remote target ∧
        (sentOff parse host w f x target title k).2.queued =
          [(ch,.forward (forwardMessage id (titleRequest f title k)))] ∧
        r = ⟨[],[⟨x.publishes,ch,.forward (forwardMessage id (titleRequest f title k))⟩],[]⟩) ∨
      (Unserved parse host env w f x title k (plan hash b parse host env w x title k) ∧
        r = ⟨[],[],[x.publishes]⟩) := by
  have hsame : ∀ title' k', f.title = .ok title' → f.source = .ok k' → title' = title ∧ k' = k := by
    intro title' k' ht' hk'
    rw [ht] at ht'
    rw [hk] at hk'
    cases ht'
    cases hk'
    exact ⟨rfl,rfl⟩
  cases hr with
  | fault e he =>
    obtain ⟨t, hok⟩ := handle_ok (nodeEnv hash b parse env w (x.nodes host) x.shared) source f
      (x.nodes host).server (fits_of_title f title ht (by rw [hc]; simp))
    rw [he] at hok
    cases hok
  | here title' k' target ht' hk' hp hok =>
    obtain ⟨rfl, rfl⟩ := hsame title' k' ht' hk'
    exact .inl ⟨target,hp,hok,rfl⟩
  | flown title' k' target ch id ht' hk' hp hq =>
    obtain ⟨rfl, rfl⟩ := hsame title' k' ht' hk'
    exact .inr (.inl ⟨target,ch,id,hp,hq,rfl⟩)
  | told title' k' ht' hk' hn =>
    obtain ⟨rfl, rfl⟩ := hsame title' k' ht' hk'
    exact .inr (.inr ⟨hn,rfl⟩)

theorem received_none (y : Cluster) (h : y.flights = []) : receive hash render 0 env' w' y = y := by
  rw [receive, h]
  rfl

section Routes
variable (hu : Unused x) (hh : host ∈ form.hosts)
variable (hc : f.command = .ok .title) (ht : f.title = .ok title) (hk : f.source = .ok k)
include hu hh hc ht hk

theorem heard_locally (hsend : ∀ n, env.sendOk n = true)
    (hl : ∃ sender, Listens form x title k host sender) :
    Heard form x title k x.publishes
      (afterReceipt hash b render parse x host env env' w w' source f) := by
  have hne := (local_listener_iff form x host title k hh).mp hl
  obtain ⟨target, htarget⟩ : ∃ target, (x.nodes host).server.registry.findOneByTitle
      (x.nodes host).server.clients env.draw title (some k) = some target :=
    Option.ne_none_iff_exists'.mp (fun h => hne ((RegistryIndex.find_one_none_iff _ _ _ _ _).mp h))
  have hlisten : Listens form x title k host ((x.nodes host).server.clients target).sender := by
    rw [ClientRegistryImpl.find_one_by_title_eq] at htarget
    have hm := List.mem_of_getElem? htarget
    rw [ClientRegistryImpl.find_all_by_title_eq, List.mem_filter] at hm
    exact ⟨hh,target,hm.1,Ne.symm (by simpa using hm.2),rfl⟩
  have hplan : plan hash b parse host env w x title k = .here target := by
    simp only [plan, Server.route, nodeEnv, htarget]
  obtain ⟨r, hr, -, hf, hd, -⟩ := publish_added hash b parse host env w source f x hc
  have hcases := added_by_plan hash b parse x host env w source f title k r hc ht hk hr
  rw [hplan] at hcases
  have hentry : r = ⟨[⟨x.publishes,host,((x.nodes host).server.clients target).sender⟩],[],[]⟩ := by
    rcases hcases with ⟨target', hp, -, hr⟩ | ⟨_, _, _, hp, -⟩ | ⟨hun, -⟩
    · cases hp
      exact hr
    · cases hp
    · cases hun with
      | here _ hno => cases (hsend _).symm.trans hno
  subst hentry
  left
  refine ⟨⟨x.publishes,host,((x.nodes host).server.clients target).sender⟩,?_,rfl,hlisten⟩
  show _ ∈ (receive hash render 0 env' w' (publish hash b parse host env w source f x)).deliveries
  rw [received_none hash render env' w' _ (by rw [hf, hu.flights]; rfl), hd]
  exact List.mem_append_right _ (List.mem_singleton.mpr rfl)

section Remote
variable (hx : Formed parse form x) (hw : Calm w)
variable (hnone : ∀ sender, ¬ Listens form x title k host sender)
include hx hw hnone

theorem heard_alone (hd : destination hash b parse w form x host title = none) :
    Heard form x title k x.publishes
      (afterReceipt hash b render parse x host env env' w w' source f) := by
  obtain ⟨owner, hmem, howner, hplan⟩ := plan_remote hash b parse form x host env w title k hx hh
    hnone
  obtain ⟨hq, hhop⟩ := sent_off_nowhere hash b parse form x host w f title k hx hh hw owner hmem
    howner hd
  obtain ⟨r, hr, -, hf, -, hret⟩ := publish_added hash b parse host env w source f x hc
  have hcases := added_by_plan hash b parse x host env w source f title k r hc ht hk hr
  rw [hplan] at hcases
  have hentry : r = ⟨[],[],[x.publishes]⟩ := by
    rcases hcases with ⟨_, hp, -⟩ | ⟨_, ch, id, hp, hq', -⟩ | ⟨-, hr⟩
    · cases hp
    · cases hp
      rw [hq] at hq'
      cases hq'
    · exact hr
  subst hentry
  right
  constructor
  · intro g sender hl
    have hg := alone_of_no_hop parse form x host w hx hh owner hhop g hl.1
    exact hnone sender (hg ▸ hl)
  · show _ ∈ (receive hash render 0 env' w' (publish hash b parse host env w source f x)).returned
    rw [received_none hash render env' w' _ (by rw [hf, hu.flights]; rfl), hret]
    exact List.mem_append_right _ (List.mem_singleton.mpr rfl)

theorem heard_there_iff (d : Host) (hsend' : ∀ n, env'.sendOk n = true)
    (hd : destination hash b parse w form x host title = some d) :
    Heard form x title k x.publishes
        (afterReceipt hash b render parse x host env env' w w' source f) ↔
      ∃ c, (x.nodes d).server.registry.findOneByTitle (x.nodes d).server.clients env'.draw title
          none = some c ∧
        Listens form x title k d ((x.nodes d).server.clients c).sender := by
  obtain ⟨owner, hmem, howner, hplan⟩ := plan_remote hash b parse form x host env w title k hx hh
    hnone
  obtain ⟨hok, ch, id, hend, hq⟩ := sent_off_destination hash b parse form x host w f title k hx hh
    hw owner d hmem howner hd
  have hdmem := destination_mem hash b parse form x host w title hx hh d owner hmem howner hd
  obtain ⟨r, hr, -, hf, hdel, hret⟩ := publish_added hash b parse host env w source f x hc
  have hcases := added_by_plan hash b parse x host env w source f title k r hc ht hk hr
  rw [hplan] at hcases
  have hentry : r =
      ⟨[],[⟨x.publishes,ch,.forward (forwardMessage id (titleRequest f title k))⟩],[]⟩ := by
    rcases hcases with ⟨_, hp, -⟩ | ⟨_, ch', id', hp, hq', hr⟩ | ⟨hun, -⟩
    · cases hp
    · cases hp
      rw [hq] at hq'
      cases hq'
      exact hr
    · cases hun with
      | remote _ hno => exact absurd hok hno
  subst hentry
  have hends : (publish hash b parse host env w source f x).ends ch = d := by
    rw [publish, if_pos hc]
    exact hend
  obtain ⟨hquiet, hmanager⟩ := publish_quiet hash b parse x host env w source f hc d
  have hreceived := receive_delivers hash render x env' w'
    (publish hash b parse host env w source f x)
    x.publishes ch (forwardMessage id (titleRequest f title k)) hsend' rfl rfl rfl
    (by rw [hf, hu.flights]; rfl) (by rw [hends]; exact hquiet)
    (by rw [hends, hmanager]; exact hx.serving d hdmem)
  rw [hends, hdel, hret, hu.deliveries, hu.returned] at hreceived
  rw [Heard, show afterReceipt hash b render parse x host env env' w w' source f =
    receive hash render 0 env' w' (publish hash b parse host env w source f x) from rfl,
    hreceived.1, hreceived.2]
  constructor
  · rintro (⟨dl, hdl, -, hl⟩ | ⟨-, hno⟩)
    · obtain ⟨c, hchosen, rfl⟩ := List.mem_map.mp hdl
      exact ⟨c,Option.mem_toList.mp hchosen,hl⟩
    · cases hno
  · rintro ⟨c, hchosen, hl⟩
    exact .inl ⟨⟨x.publishes,d,((x.nodes d).server.clients c).sender⟩,
      List.mem_map.mpr ⟨c,Option.mem_toList.mpr hchosen,rfl⟩,rfl,hl⟩

end Remote
end Routes

/-- In a formed cluster a publish is heard or answered exactly when the node
has a listener of its own, or is alone, or forwards to a node that chooses a
listener. -/
theorem unicast_heard_iff (hu : Unused x) (hx : Formed parse form x) (hh : host ∈ form.hosts)
    (hw : Calm w) (hsend : ∀ n, env.sendOk n = true) (hsend' : ∀ n, env'.sendOk n = true)
    (hc : f.command = .ok .title) (ht : f.title = .ok title) (hk : f.source = .ok k) :
    Heard form x title k x.publishes
        (afterReceipt hash b render parse x host env env' w w' source f) ↔
      (∃ sender, Listens form x title k host sender) ∨
      destination hash b parse w form x host title = none ∨
      ∃ d, destination hash b parse w form x host title = some d ∧
        ∃ c, (x.nodes d).server.registry.findOneByTitle (x.nodes d).server.clients env'.draw title
            none = some c ∧
          Listens form x title k d ((x.nodes d).server.clients c).sender := by
  by_cases hl : ∃ sender, Listens form x title k host sender
  · exact iff_of_true (heard_locally hash b render parse form x host env env' w w' source f title k
      hu hh hc ht hk hsend hl) (.inl hl)
  · have hnone := not_exists.mp hl
    rw [or_iff_right hl]
    cases hd : destination hash b parse w form x host title with
    | none =>
      exact iff_of_true (heard_alone hash b render parse form x host env env' w w' source f title k
        hu hh hc ht hk hx hw hnone hd) (.inl rfl)
    | some d =>
      rw [heard_there_iff hash b render parse form x host env env' w w' source f title k hu hh hc ht
        hk hx hw hnone d hsend' hd]
      constructor
      · intro h
        exact .inr ⟨d,rfl,h⟩
      · rintro (h | ⟨d', hd', h⟩)
        · cases h
        · cases hd'
          exact h

end Hearing

def sameHash (_ : Bytes) : UInt64 := 0

def anyAddr (_ : String) : Option SocketAddr := some (.v4 [10,0,0,1] 7000)

def nodeName (h : Host) : NodeId := if h = 0 then "a" else if h = 1 then "b" else "c"

def threeNodes : Formation := ⟨[0,1,2],nodeName,id⟩

/-- The title that the only client of a node is logged in with. -/
def nodeTitle (h : Host) : Title := if h = 0 then [] else if h = 1 then [117] else [116]

def nodeServer (h : Host) : Server :=
  ([Event.accept 0 9 "tcp" 0,
    .frame 0 quietEnv (loginFrame (BitVec.ofNat 128 (h+1)) (nodeTitle h))].foldl step
      (ServerRun.start plainConfig (.manager (nodeName h) ∅) none unusedClients)).server

/-- All titles hash alike, so the node entered first owns them. -/
def agreedTable (h : Host) : GlobalRouteTable :=
  [1,0,2].foldl (fun t g => t.addNode sameHash (nodeName g) "10.0.0.1:7000")
    (GlobalRouteTable.withLocalNode (nodeName h))

/-- Channel `g` leads to host `g`. -/
def otherNodes (h : Host) : Connections :=
  ([0,1,2].foldl (fun (c : Connections) g => c.insert (nodeName g) g) ∅).erase (nodeName h)

def threeNodeCluster : Cluster :=
  ClusterPublish.start
    (fun h => ⟨nodeServer h,⟨some h,some h,nodeName h⟩,
      ⟨some h,h,nodeName h,.v4 [10,0,0,1] 7000,true,true⟩⟩)
    ⟨otherNodes,agreedTable⟩ id

theorem agreed_sound (h : Host) : (agreedTable h).Sound := by
  unfold agreedTable
  simp only [List.foldl_cons, List.foldl_nil]
  apply GlobalRouteTable.sound_add_node
  apply GlobalRouteTable.sound_add_node
  apply GlobalRouteTable.sound_add_node
  exact GlobalRouteTable.sound_with_local_node (nodeName h)

theorem mem_agreed (h : Host) (n : NodeId) :
    n ∈ (agreedTable h).nodeIdToAddr ↔ ∃ g ∈ threeNodes.hosts, nodeName g = n := by
  show n ∈ (((∅ : AList (fun _ : NodeId => String)).insert (nodeName 1) _).insert (nodeName 0)
    _).insert (nodeName 2) _ ↔ _
  rw [AList.mem_insert, AList.mem_insert, AList.mem_insert]
  simp only [AList.notMem_empty, or_false, threeNodes, List.mem_cons, List.not_mem_nil,
    exists_eq_or_imp, exists_eq_left, eq_comm]
  tauto

theorem three_nodes_formed : Formed anyAddr threeNodes threeNodeCluster where
  named := by decide +kernel
  port h hh := by
    have : h = 0 ∨ h = 1 ∨ h = 2 := by simpa [threeNodes] using hh
    rcases this with rfl | rfl | rfl
    · exact ⟨_,rfl⟩
    · exact ⟨_,rfl⟩
    · exact ⟨_,rfl⟩
  slots _ _ := rfl
  serving _ _ := rfl
  sound h _ := agreed_sound h
  members h _ n := by
    rw [show tableOf threeNodeCluster h = agreedTable h from rfl]
    exact mem_agreed h n
  addressed h _ n hn := by
    obtain ⟨text, htext⟩ := Option.isSome_iff_exists.mp (AList.lookup_isSome.mpr hn)
    rw [GlobalRouteTable.getNodeAddr, htext]
    rfl
  connected := by decide +kernel
  leads h hh g hg ch hch := by
    have hall : ∀ h ∈ threeNodes.hosts, ∀ g ∈ threeNodes.hosts,
        ∀ ch ∈ (peersOf threeNodes threeNodeCluster h).lookup (threeNodes.ident g),
          threeNodeCluster.ends ch = g := by decide +kernel
    exact hall h hh g hg ch hch

/-- The client of node `a` publishes a title and the forward is received. -/
def publishedFrom (title : Title) : Cluster :=
  afterReceipt sameHash .first (fun _ => "") anyAddr threeNodeCluster 0 quietEnv quietEnv .still
    .still 0 (titleFrame 1 title)

theorem title_heard_at_owner : Heard threeNodes threeNodeCluster [117] 1 0 (publishedFrom [117]) :=
  (unicast_heard_iff sameHash .first (fun _ => "") anyAddr threeNodes threeNodeCluster 0 quietEnv
    quietEnv .still .still 0 (titleFrame 1 [117]) [117] 1 ⟨rfl,rfl,rfl⟩ three_nodes_formed
    (by decide) still_calm (fun _ => rfl) (fun _ => rfl) (by decide +kernel) (by decide +kernel)
    (by decide +kernel)).mpr
      (.inr (.inr ⟨1,by decide +kernel,0,by decide +kernel,by decide,0,by decide +kernel,
        by decide +kernel,by decide +kernel⟩))

/-- The only subscriber of the title is on node `c`, the ring names `b`, and
the publisher on `a` hears nothing. -/
theorem third_node_missed :
    Unused threeNodeCluster ∧ Formed anyAddr threeNodes threeNodeCluster ∧ Calm .still ∧
      (titleFrame 1 [116]).command = .ok .title ∧ (titleFrame 1 [116]).title = .ok [116] ∧
      (titleFrame 1 [116]).source = .ok 1 ∧
      Listens threeNodes threeNodeCluster [116] 1 2 0 ∧
      ¬ Heard threeNodes threeNodeCluster [116] 1 0 (publishedFrom [116]) := by
  refine ⟨⟨rfl,rfl,rfl⟩,three_nodes_formed,still_calm,by decide +kernel,by decide +kernel,
    by decide +kernel,⟨by decide,0,by decide +kernel,by decide +kernel,by decide +kernel⟩,?_⟩
  have hd : (publishedFrom [116]).deliveries = [] := by decide +kernel
  have hr : (publishedFrom [116]).returned = [] := by decide +kernel
  rintro (⟨d, hmem, -⟩ | ⟨-, hmem⟩)
  · rw [hd] at hmem
    cases hmem
  · rw [hr] at hmem
    cases hmem

end RexMq.ClusterLoss
