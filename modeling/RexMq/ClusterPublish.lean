import Mathlib.Tactic.Common
import RexMq.ClusterManager
import RexMq.ServerRun

/-!
# Title publishes in a cluster

Nodes handle publishes, and channels carry the frames their forwarders queue
to other nodes, which receive them in any order or not at all. Every other
thing that happens in the cluster may change any node, any shared object and
where a channel leads, and is one kind of step. Publishes are numbered, and
their frames in flight, their deliveries to clients and the answers to their
publishers are recorded under the number. A frame leaves the flight when it is
received, so no link delivers it twice, and a failed send delivers nothing.
-/

set_option autoImplicit false

namespace RexMq.ClusterPublish
open RexMq.ByteWords RexMq.FiniteRun RexMq.FrameData RexMq.ClientRegistry
open RexMq.ServerState (NodeId Env Server ForwardRequest FwdResult)
open RexMq.Handlers RexMq.HandlerEffects RexMq.ServerRun RexMq.PublishTrace
open RexMq.ClusterMessages RexMq.RouteTable RexMq.PeerForwarder RexMq.ClusterManager

abbrev Host := ℕ

structure Flight where
  tag : ℕ
  channel : Channel
  message : ClusterMessage
  deriving DecidableEq, Repr

structure Delivery where
  tag : ℕ
  host : Host
  sender : SenderRef
  deriving DecidableEq, Repr

structure Cluster where
  nodes : Host → Node
  shared : Shared
  ends : Channel → Host
  publishes : ℕ
  flights : List Flight
  deliveries : List Delivery
  returned : List ℕ

def start (nodes : Host → Node) (shared : Shared) (ends : Channel → Host) : Cluster :=
  ⟨nodes,shared,ends,0,[],[],[]⟩

inductive ClusterEvent where
  | publish (host : Host) (env : Env) (w : Wire) (source : ClientRef) (f : RexData)
  | receive (i : ℕ) (env : Env) (w : Wire)
  | lose (i : ℕ)
  | other (nodes : Host → Node) (shared : Shared) (ends : Channel → Host)

/-- What a step adds to the record. -/
structure Entries where
  deliveries : List Delivery
  flights : List Flight
  returned : List ℕ

def delivered (tag : ℕ) (host : Host) (calls : List ServerState.Sent) : List Delivery :=
  (calls.filter (fun e => e.ok)).map (fun e => ⟨tag,host,e.sender⟩)

/-- The entries of a publish: its calls that carry the message and succeeded,
the frames it queued, and whether it answered that there is no target. -/
def publishEntries (tag : ℕ) (host : Host) (publisher : SenderRef)
    (calls : List ServerState.Sent) (queued : List (Channel × ClusterMessage)) : Entries :=
  { deliveries := delivered tag host (calls.filter (fun e => Carries .title e))
    flights := queued.map (fun q => ⟨tag,q.1,q.2⟩)
    returned := if ∃ e ∈ calls, IsReturn .titleReturn publisher e then [tag] else [] }

section Steps
variable (hash : Bytes → UInt64) (b : BinarySearch)
variable (render : SocketAddr → String) (parse : String → Option SocketAddr)

/-- The ring and the forwarder that the services of a node use. -/
def nodeEnv (env : Env) (w : Wire) (node : Node) (shared : Shared) : Env :=
  { env with
    ring := fun title => (shared.tables node.manager.routeTable).getNodeByTitle hash b title
    forward := fun target req => (forward parse w node.forwarder target req ⟨shared,0,[]⟩).1 }

/-- The forwards a handler asked for, run on the shared objects. -/
def runForwards (w : Wire) (fw : NetworkForwarder) (requests : List (NodeId × ForwardRequest))
    (net : Net) : Net :=
  requests.foldl (fun net r => (forward parse w fw r.1 r.2 net).2) net

def publish (host : Host) (env : Env) (w : Wire) (source : ClientRef) (f : RexData)
    (x : Cluster) : Cluster :=
  if f.command = .ok .title then
    let node := x.nodes host
    let s := node.server
    let t := receiveFrame (nodeEnv hash b parse env w node x.shared) source f s
    let net := runForwards parse w node.forwarder (t.forwards.drop s.forwards.length)
      ⟨x.shared,0,[]⟩
    let entries := publishEntries x.publishes host (s.clients source).sender
      (t.sent.drop s.sent.length) net.queued
    { x with
      nodes := Function.update x.nodes host { node with server := t }
      shared := net.shared
      publishes := x.publishes+1
      flights := x.flights++entries.flights
      deliveries := x.deliveries++entries.deliveries
      returned := x.returned++entries.returned }
  else x

def receive (i : ℕ) (env : Env) (w : Wire) (x : Cluster) : Cluster :=
  match x.flights[i]? with
  | none => x
  | some fl =>
    let host := x.ends fl.channel
    let node := x.nodes host
    let r := handleMessage hash render w env fl.message node ⟨x.shared,0,[]⟩
    let calls := r.server.sent.drop node.server.sent.length
    { x with
      nodes := Function.update x.nodes host { node with server := r.server }
      shared := r.net.shared
      flights := x.flights.eraseIdx i++r.net.queued.map (fun q => ⟨fl.tag,q.1,q.2⟩)
      deliveries := x.deliveries++delivered fl.tag host calls }

def clusterStep (x : Cluster) : ClusterEvent → Cluster
  | .publish host env w source f => publish hash b parse host env w source f x
  | .receive i env w => receive hash render i env w x
  | .lose i => { x with flights := x.flights.eraseIdx i }
  | .other nodes shared ends => { x with nodes := nodes, shared := shared, ends := ends }

end Steps

/-- Every message reached at most one client, and none if its publisher was
told that there is no target. -/
def AtMostOnce (x : Cluster) : Prop :=
  ∀ tag, x.deliveries.countP (fun d => d.tag = tag) ≤ 1 ∧
    (tag ∈ x.returned → ∀ d ∈ x.deliveries, d.tag ≠ tag)

section Publishing
variable (hash : Bytes → UInt64) (b : BinarySearch) (parse : String → Option SocketAddr)
variable (host : Host) (env : Env) (w : Wire) (source : ClientRef) (f : RexData) (x : Cluster)

/-- Where the publishing node routes a title. -/
def plan (title : Title) (k : ClientId) : Server.RoutePlan :=
  (x.nodes host).server.route (nodeEnv hash b parse env w (x.nodes host) x.shared) title (some k)

/-- The forward of a publish to a node. -/
def sentOff (target : NodeId) (title : Title) (k : ClientId) : FwdResult × Net :=
  forward parse w (x.nodes host).forwarder target (titleRequest f title k) ⟨x.shared,0,[]⟩

/-- A plan that came to nothing. -/
inductive Unserved (title : Title) (k : ClientId) : Server.RoutePlan → Prop
  | here (target : ClientRef) :
      env.sendOk (x.nodes host).server.sent.length = false → Unserved title k (.here target)
  | remote (target : NodeId) :
      (sentOff parse host w f x target title k).1 ≠ .delivered → Unserved title k (.remote target)
  | nowhere : Unserved title k .nowhere

/-- What a publish adds to the record, by the way its message is routed. -/
inductive Added : Entries → Prop
  | fault (e : Fault) :
      handle (nodeEnv hash b parse env w (x.nodes host) x.shared) source f
        (x.nodes host).server = .error e → Added ⟨[],[],[]⟩
  | here (title : Title) (k : ClientId) (target : ClientRef) :
      f.title = .ok title → f.source = .ok k →
      plan hash b parse host env w x title k = .here target →
      env.sendOk (x.nodes host).server.sent.length = true →
      Added ⟨[⟨x.publishes,host,((x.nodes host).server.clients target).sender⟩],[],[]⟩
  | flown (title : Title) (k : ClientId) (target : NodeId) (ch : Channel) (id : BitVec 64) :
      f.title = .ok title → f.source = .ok k →
      plan hash b parse host env w x title k = .remote target →
      (sentOff parse host w f x target title k).2.queued =
        [(ch,.forward (forwardMessage id (titleRequest f title k)))] →
      Added ⟨[],[⟨x.publishes,ch,.forward (forwardMessage id (titleRequest f title k))⟩],[]⟩
  | told (title : Title) (k : ClientId) :
      f.title = .ok title → f.source = .ok k →
      Unserved parse host env w f x title k (plan hash b parse host env w x title k) →
      Added ⟨[],[],[x.publishes]⟩

end Publishing

section Entering
variable (tag : ℕ) (host : Host) (publisher : SenderRef)

theorem not_carried_of_return (e : ServerState.Sent) (he : IsReturn .titleReturn publisher e) :
    ¬ Carries .title e := by
  intro hc
  have h := hc.symm.trans he.command
  cases h

theorem entries_silent (queued : List (Channel × ClusterMessage)) :
    publishEntries tag host publisher [] queued =
      ⟨[],queued.map (fun q => ⟨tag,q.1,q.2⟩),[]⟩ := by
  simp [publishEntries, delivered]

theorem entries_told (e : ServerState.Sent) (he : IsReturn .titleReturn publisher e) :
    publishEntries tag host publisher [e] [] = ⟨[],[],[tag]⟩ := by
  have hn := not_carried_of_return publisher e he
  simp [publishEntries, delivered, hn, he]

theorem entries_copy (e : ServerState.Sent) (back : List ServerState.Sent)
    (hc : Carries .title e) (hb : Answers .titleReturn publisher e.ok back) :
    publishEntries tag host publisher (e::back) [] =
      if e.ok then ⟨[⟨tag,host,e.sender⟩],[],[]⟩ else ⟨[],[],[tag]⟩ := by
  have hr : ¬ IsReturn .titleReturn publisher e :=
    fun he => not_carried_of_return publisher e he hc
  cases hok : e.ok with
  | true =>
    rw [hok] at hb
    cases hb
    simp [publishEntries, delivered, hc, hr, hok]
  | false =>
    rw [hok] at hb
    cases hb with
    | told e' he' =>
      have hn := not_carried_of_return publisher e' he'
      simp [publishEntries, delivered, hc, hn, hr, he', hok]

end Entering

section Publishing
variable (hash : Bytes → UInt64) (b : BinarySearch) (parse : String → Option SocketAddr)
variable (host : Host) (env : Env) (w : Wire) (source : ClientRef) (f : RexData) (x : Cluster)

section Routed
variable (title : Title) (k : ClientId) (ht : f.title = .ok title) (hk : f.source = .ok k)
include ht hk

theorem added_here (target : ClientRef) (g : RexData) (back : List ServerState.Sent)
    (hp : plan hash b parse host env w x title k = .here target) (hg : g.command = .ok .title)
    (hback : Answers .titleReturn ((x.nodes host).server.clients source).sender
      (env.sendOk (x.nodes host).server.sent.length) back) :
    Added hash b parse host env w source f x
      (publishEntries x.publishes host ((x.nodes host).server.clients source).sender
        (⟨((x.nodes host).server.clients target).sender,g.content,
          env.sendOk (x.nodes host).server.sent.length⟩::back) []) := by
  rw [entries_copy _ _ _ ⟨_,g.content,_⟩ back hg hback]
  show Added hash b parse host env w source f x
    (if env.sendOk (x.nodes host).server.sent.length then _ else _)
  split_ifs with hok
  · exact .here title k target ht hk hp hok
  · apply Added.told title k ht hk
    rw [hp]
    exact .here target (by simpa using hok)

/-- One frame in flight if the forward reports a delivery, and the answer that
there is no target if it does not. -/
theorem added_remote (target : NodeId) (back : List ServerState.Sent)
    (hp : plan hash b parse host env w x title k = .remote target)
    (hback : Answers .titleReturn ((x.nodes host).server.clients source).sender
      ((sentOff parse host w f x target title k).1 == .delivered) back) :
    Added hash b parse host env w source f x
      (publishEntries x.publishes host ((x.nodes host).server.clients source).sender back
        (sentOff parse host w f x target title k).2.queued) := by
  have hq : Queues (titleRequest f title k) ⟨x.shared,0,[]⟩
      (sentOff parse host w f x target title k).2
      ((sentOff parse host w f x target title k).1 == .delivered) :=
    forward_queues parse w _ _ (x.nodes host).forwarder target
  cases hd : (sentOff parse host w f x target title k).1 == .delivered with
  | true =>
    rw [hd] at hback hq
    cases hback
    cases hq with
    | one ch id hq =>
      rw [hq, entries_silent]
      exact .flown title k target ch id ht hk hp hq
  | false =>
    rw [hd] at hback hq
    cases hback with
    | told e he =>
      cases hq with
      | none hq =>
        rw [hq, entries_told _ _ _ e he]
        apply Added.told title k ht hk
        rw [hp]
        exact .remote target (by simpa using hd)

theorem added_nowhere (back : List ServerState.Sent)
    (hp : plan hash b parse host env w x title k = .nowhere)
    (hback : Answers .titleReturn ((x.nodes host).server.clients source).sender false back) :
    Added hash b parse host env w source f x
      (publishEntries x.publishes host ((x.nodes host).server.clients source).sender back []) := by
  cases hback with
  | told e he =>
    rw [entries_told _ _ _ e he]
    apply Added.told title k ht hk
    rw [hp]
    exact .nowhere

end Routed

theorem handled_added (t : Server) (hc : f.command = .ok .title)
    (h : handle (nodeEnv hash b parse env w (x.nodes host) x.shared) source f
      (x.nodes host).server = .ok t) :
    Added hash b parse host env w source f x
      (publishEntries x.publishes host ((x.nodes host).server.clients source).sender
        (t.sent.drop (x.nodes host).server.sent.length)
        (runForwards parse w (x.nodes host).forwarder
          (t.forwards.drop (x.nodes host).server.forwards.length) ⟨x.shared,0,[]⟩).queued) := by
  rw [handle, bind_of_ok hc] at h
  obtain ⟨title, ht, -⟩ := bind_ok h
  obtain ⟨k, hk⟩ : ∃ k, f.source = .ok k := by
    rw [titleHandler, bind_of_ok ht] at h
    obtain ⟨data, -, h⟩ := bind_ok h
    obtain ⟨k, hk, -⟩ := bind_ok h
    exact ⟨k,hk⟩
  have htrace := title_trace _ source f _ t title k ht hk h
  have hsent : ∀ es, t.sent = (x.nodes host).server.sent++es →
      t.sent.drop (x.nodes host).server.sent.length = es := by
    intro es hes
    rw [hes, List.drop_left]
  have hkept : t.forwards = (x.nodes host).server.forwards →
      t.forwards.drop (x.nodes host).server.forwards.length = [] := by
    intro hf
    rw [hf, List.drop_length]
  cases hp : (x.nodes host).server.route
    (nodeEnv hash b parse env w (x.nodes host) x.shared) title (some k) with
  | here target =>
    rw [hp] at htrace
    cases htrace with
    | here _ g back hg hback hposts =>
      rw [hsent _ hposts.sent, hkept hposts.forwards]
      exact added_here hash b parse host env w source f x title k ht hk target g back hp
        (hg.trans hc) hback
  | remote target =>
    rw [hp] at htrace
    cases htrace with
    | remote _ back hback hposts =>
      rw [hsent _ hposts.sent, hposts.forwards, List.drop_left]
      exact added_remote hash b parse host env w source f x title k ht hk target back hp hback
  | nowhere =>
    rw [hp] at htrace
    cases htrace with
    | nowhere back hback hposts =>
      rw [hsent _ hposts.sent, hkept hposts.forwards]
      exact added_nowhere hash b parse host env w source f x title k ht hk back hp hback

theorem publish_added (hc : f.command = .ok .title) :
    ∃ r, Added hash b parse host env w source f x r ∧
      (publish hash b parse host env w source f x).publishes = x.publishes+1 ∧
      (publish hash b parse host env w source f x).flights = x.flights++r.flights ∧
      (publish hash b parse host env w source f x).deliveries = x.deliveries++r.deliveries ∧
      (publish hash b parse host env w source f x).returned = x.returned++r.returned := by
  rw [publish, if_pos hc]
  refine ⟨_,?_,rfl,rfl,rfl,rfl⟩
  unfold receiveFrame
  cases h : handle (nodeEnv hash b parse env w (x.nodes host) x.shared) source f
    (x.nodes host).server with
  | error e =>
    dsimp only
    rw [List.drop_length, List.drop_length, entries_silent]
    exact .fault e h
  | ok t => exact handled_added hash b parse host env w source f x t hc h

end Publishing

/-- Deliveries of a message and its frames still in flight. -/
def copiesOf (tag : ℕ) (ds : List Delivery) (fs : List Flight) : ℕ :=
  ds.countP (fun d => d.tag = tag)+fs.countP (fun fl => fl.tag = tag)

/-- The frame of a message for one client that asks for no acknowledgement. -/
def Single (m : ClusterMessage) : Prop :=
  ∃ id req, m = .forward (forwardMessage id req) ∧ req.msgType = .unicast

structure Once (x : Cluster) : Prop where
  single : ∀ fl ∈ x.flights, Single fl.message
  once : ∀ tag, copiesOf tag x.deliveries x.flights ≤ 1
  silent : ∀ tag ∈ x.returned, copiesOf tag x.deliveries x.flights = 0
  fresh : ∀ tag, x.publishes ≤ tag → copiesOf tag x.deliveries x.flights = 0 ∧ tag ∉ x.returned

theorem copies_append (tag : ℕ) (ds es : List Delivery) (fs gs : List Flight) :
    copiesOf tag (ds++es) (fs++gs) = copiesOf tag ds fs+copiesOf tag es gs := by
  simp only [copiesOf, List.countP_append]
  omega

theorem countP_delivered (tag t : ℕ) (host : Host) (calls : List ServerState.Sent) :
    (delivered t host calls).countP (fun d => d.tag = tag) ≤
      if t = tag then calls.length else 0 := by
  have hlen : (delivered t host calls).length ≤ calls.length := by
    rw [delivered, List.length_map]
    exact List.length_filter_le _ _
  split_ifs with h
  · exact List.countP_le_length.trans hlen
  · simp [delivered, List.countP_eq_zero, h]

theorem countP_erase_flight (tag : ℕ) (fs : List Flight) (i : ℕ) (fl : Flight)
    (h : fs[i]? = some fl) :
    fs.countP (fun g => g.tag = tag) =
      (fs.eraseIdx i).countP (fun g => g.tag = tag)+if fl.tag = tag then 1 else 0 := by
  obtain ⟨hi, rfl⟩ := List.getElem?_eq_some_iff.mp h
  rw [← (List.getElem_cons_eraseIdx_perm hi).countP_eq, List.countP_cons]
  simp

section Keeping
variable (hash : Bytes → UInt64) (b : BinarySearch)
variable (render : SocketAddr → String) (parse : String → Option SocketAddr)
variable (x : Cluster)

theorem added_copies (host : Host) (env : Env) (w : Wire) (source : ClientRef) (f : RexData)
    (r : Entries) (h : Added hash b parse host env w source f x r) :
    (∀ fl ∈ r.flights, Single fl.message) ∧
      (∀ tag, tag ≠ x.publishes → copiesOf tag r.deliveries r.flights = 0 ∧ tag ∉ r.returned) ∧
      copiesOf x.publishes r.deliveries r.flights ≤ 1 ∧
      (x.publishes ∈ r.returned → copiesOf x.publishes r.deliveries r.flights = 0) := by
  cases h with
  | fault e h => simp [copiesOf]
  | here title k target ht hk hp hok => simp [copiesOf, eq_comm]
  | flown title k target ch id ht hk hp hq =>
    simp only [List.mem_singleton, forall_eq]
    refine ⟨⟨id,_,rfl,rfl⟩,?_⟩
    simp [copiesOf, eq_comm]
  | told title k ht hk hu => simp [copiesOf]

theorem once_publish (host : Host) (env : Env) (w : Wire) (source : ClientRef) (f : RexData)
    (hx : Once x) : Once (publish hash b parse host env w source f x) := by
  by_cases hc : f.command = .ok .title
  · obtain ⟨r, hr, hn, hf, hd, ht⟩ := publish_added hash b parse host env w source f x hc
    obtain ⟨hs, hother, hone, hsilent⟩ := added_copies hash b parse x host env w source f r hr
    have hnew := hx.fresh x.publishes le_rfl
    constructor
    · rw [hf]
      exact List.forall_mem_append.mpr ⟨hx.single,hs⟩
    · intro tag
      rw [hd, hf, copies_append]
      rcases eq_or_ne tag x.publishes with rfl | hne
      · rw [hnew.1, Nat.zero_add]
        exact hone
      · rw [(hother tag hne).1]
        exact hx.once tag
    · intro tag
      rw [ht, hd, hf, copies_append, List.mem_append]
      rcases eq_or_ne tag x.publishes with rfl | hne
      · intro h
        rw [hnew.1, Nat.zero_add]
        exact hsilent (h.resolve_left hnew.2)
      · intro h
        rw [(hother tag hne).1]
        exact hx.silent tag (h.resolve_right (hother tag hne).2)
    · intro tag hle
      rw [hn] at hle
      have hne : tag ≠ x.publishes := by omega
      have hold := hx.fresh tag (by omega)
      rw [ht, hd, hf, copies_append, hold.1, (hother tag hne).1, List.mem_append]
      exact ⟨rfl,fun h => h.elim hold.2 (hother tag hne).2⟩
  · rw [publish, if_neg hc]
    exact hx

theorem once_of_le (y : Cluster) (hx : Once x) (hs : ∀ fl ∈ y.flights, Single fl.message)
    (hle : ∀ tag, copiesOf tag y.deliveries y.flights ≤ copiesOf tag x.deliveries x.flights)
    (hr : y.returned = x.returned) (hn : y.publishes = x.publishes) : Once y where
  single := hs
  once tag := (hle tag).trans (hx.once tag)
  silent tag ht := Nat.eq_zero_of_le_zero ((hle tag).trans (hx.silent tag (hr ▸ ht)).le)
  fresh tag ht := by
    obtain ⟨hc, hm⟩ := hx.fresh tag (hn ▸ ht)
    exact ⟨Nat.eq_zero_of_le_zero ((hle tag).trans hc.le),hr ▸ hm⟩

theorem calls_single (env : Env) (w : Wire) (m : ClusterMessage) (node : Node) (net : Net)
    (hm : Single m) :
    (handleMessage hash render w env m node net).net = net ∧
      ((handleMessage hash render w env m node net).server.sent.drop
        node.server.sent.length).length ≤ 1 := by
  obtain ⟨id, req, rfl, hreq⟩ := hm
  rw [handle_forward_eq _ _ _ _ _ _ _ (by exact rfl)]
  refine ⟨rfl,?_⟩
  have hp := posts_deliver env (forwardMessage id req) node.server (by simp [forwardMessage, hreq])
  dsimp only
  split_ifs
  · rw [hp.sent, List.drop_left, copies_length]
    cases unicastTarget env (forwardMessage id req) node.server <;> simp
  · rw [List.drop_length]
    exact Nat.zero_le 1

theorem once_receive (i : ℕ) (env : Env) (w : Wire) (hx : Once x) :
    Once (receive hash render i env w x) := by
  unfold receive
  cases hi : x.flights[i]? with
  | none => exact hx
  | some fl =>
    have hmem := List.mem_of_getElem? hi
    obtain ⟨hnet, hcalls⟩ := calls_single hash render env w fl.message
      (x.nodes (x.ends fl.channel)) ⟨x.shared,0,[]⟩ (hx.single fl hmem)
    dsimp only
    rw [hnet]
    rw [List.map_nil, List.append_nil]
    apply once_of_le x _ hx
    · intro g hg
      exact hx.single g (List.mem_of_mem_eraseIdx hg)
    · intro tag
      -- the frame leaves the flight and becomes at most one delivery
      have hflight := countP_erase_flight tag x.flights i fl hi
      have hdelivered := countP_delivered tag fl.tag (x.ends fl.channel)
        ((handleMessage hash render w env fl.message (x.nodes (x.ends fl.channel))
          ⟨x.shared,0,[]⟩).server.sent.drop
            (x.nodes (x.ends fl.channel)).server.sent.length)
      simp only [copiesOf, List.countP_append]
      split_ifs at hflight hdelivered <;> omega
    · rfl
    · rfl

theorem once_step (e : ClusterEvent) (hx : Once x) :
    Once (clusterStep hash b render parse x e) := by
  cases e with
  | publish host env w source f => exact once_publish hash b parse x host env w source f hx
  | receive i env w => exact once_receive hash render x i env w hx
  | lose i =>
    apply once_of_le x _ hx
    · intro fl hfl
      exact hx.single fl (List.mem_of_mem_eraseIdx hfl)
    · intro tag
      exact Nat.add_le_add_left (List.Sublist.countP_le (List.eraseIdx_sublist x.flights i)) _
    · rfl
    · rfl
  | other nodes shared ends => exact ⟨hx.single,hx.once,hx.silent,hx.fresh⟩

theorem once_start (nodes : Host → Node) (shared : Shared) (ends : Channel → Host) :
    Once (start nodes shared ends) where
  single _ h := (List.not_mem_nil h).elim
  once _ := Nat.zero_le 1
  silent _ h := (List.not_mem_nil h).elim
  fresh _ _ := ⟨rfl,List.not_mem_nil⟩

/-- Over every run, from any nodes and connections, with any failures of
sends and connection attempts and any order of the forwarded frames, a title
message reaches at most one client of the cluster, and none if its publisher
is told that there is no target. -/
theorem title_delivered_at_most_once (nodes : Host → Node) (shared : Shared)
    (ends : Channel → Host) (es : List ClusterEvent) :
    Always (clusterStep hash b render parse) AtMostOnce (start nodes shared ends) es := by
  have hinv := always_of_step (clusterStep hash b render parse) Once
    (once_step hash b render parse) _ es (once_start nodes shared ends)
  apply always_mono _ Once AtMostOnce _ _ es hinv
  intro x hx tag
  have hone := hx.once tag
  refine ⟨by unfold copiesOf at hone; omega,fun ht d hd htag => ?_⟩
  have hzero := hx.silent tag ht
  have hpos : 0 < x.deliveries.countP (fun d => d.tag = tag) :=
    List.countP_pos_iff.mpr ⟨d,hd,by simpa using htag⟩
  unfold copiesOf at hzero
  omega

end Keeping
end RexMq.ClusterPublish
