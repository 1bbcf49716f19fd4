import Mathlib.Tactic.Common
import RexMq.ClusterPublish
import RexMq.LinkNetwork

/-!
# Nodes that join a cluster

Every node starts once: it enters itself into its table, listens, dials its
seeds one after the other with a Join, and is ready when the seeds are done.
The reader of an accepted connection stores it under the name in the first Join.
A Join is answered by a node that is ready, and a NodeList makes its receiver
dial the nodes in it. The steps of all nodes interleave in any order; a dial
waits until its address is listened to, so every connection succeeds.
Heartbeats change no table and no connection and are left out.
-/

set_option autoImplicit false

namespace RexMq.ClusterJoin
open RexMq.ByteWords RexMq.LinkNetwork
open RexMq.ServerState (NodeId Env Server)
open RexMq.ClusterMessages RexMq.RouteTable RexMq.PeerForwarder RexMq.ClusterManager
open RexMq.ClusterPublish (Host)

structure Plan where
  hosts : List Host
  ident : Host → NodeId
  addr : Host → SocketAddr
  seeds : Host → List SocketAddr

/-- How far a node is with its start. -/
inductive Phase where
  | off
  | dialing (rest : List SocketAddr)
  | ready
  deriving DecidableEq, Repr

/-- A node with the connection tasks that it spawned, and those of them that
found no connection and wait for their stream. -/
structure Seat where
  node : Node
  phase : Phase
  dials : List (NodeId × SocketAddr)
  opening : List (NodeId × SocketAddr)

/-- Table and transport of a host are the objects of its number. The first
channel of a connection leads to the side that accepted it; its reader stores
the connection once. A node's answer to a Join is recorded with the name it
goes to. -/
structure Gathering where
  seats : Host → Seat
  shared : Shared
  post : Network ClusterMessage
  stored : Channel → Bool
  answered : List (Host × NodeId)

inductive GatherEvent where
  | start (h : Host)
  | dial (h : Host)
  | ready (h : Host)
  | arrive (ch : Channel)
  | process (h : Host) (env : Env)
  | check (h : Host) (k : ℕ)
  | connect (h : Host) (k : ℕ)

def wire (post : Network ClusterMessage) : Wire :=
  { Wire.still with opens := fun _ _ => some post.opened }

def newManager (plan : Plan) (h : Host) : ServerClusterManager :=
  ⟨none,h,plan.ident h,.v4 [0,0,0,0] 0,true,false⟩

/-- Before any node has started. -/
def gathering (plan : Plan) (servers : Host → Server) (forwarders : Host → NetworkForwarder) :
    Gathering where
  seats h := ⟨⟨servers h,forwarders h,newManager plan h⟩,.off,[],[]⟩
  shared := ⟨fun _ => ∅,fun h => .withLocalNode (plan.ident h)⟩
  post := .empty
  stored _ := false
  answered := []

def queueAll (queued : List (Channel × ClusterMessage)) (post : Network ClusterMessage) :
    Network ClusterMessage :=
  queued.foldl (fun post q => post.put q.1 q.2) post

def putConnection (i : Host) (node : NodeId) (ch : Channel) (s : Shared) : Shared :=
  { s with
    connections := Function.update s.connections i ((s.connections i).insert node ch) }

def putRoute (hash : Bytes → UInt64) (j : TableRef) (node : NodeId) (text : String)
    (s : Shared) : Shared :=
  { s with tables := Function.update s.tables j ((s.tables j).addNode hash node text) }

section Steps
variable (hash : Bytes → UInt64) (render : SocketAddr → String) (plan : Plan)
variable (h : Host) (g : Gathering)

def Gathering.setSeat (s : Seat) : Gathering := { g with seats := Function.update g.seats h s }

def listener (a : SocketAddr) : Option Host :=
  plan.hosts.find? (fun j => decide (plan.addr j = a ∧ (g.seats j).phase ≠ .off))

def startNode : Gathering :=
  if h ∈ plan.hosts ∧ (g.seats h).phase = .off then
    let s := g.seats h
    let r := startLocal hash render (wire g.post) ⟨plan.addr h,plan.seeds h⟩ s.node.manager
      ⟨g.shared,0,[]⟩
    { g with shared := r.2.shared }.setSeat h
      { s with node := { s.node with manager := r.1 }, phase := .dialing (plan.seeds h) }
  else g

def dialSeed : Gathering :=
  match (g.seats h).phase with
  | .dialing (a::rest) => match listener plan g a with
    | none => g
    | some j =>
      let s := g.seats h
      let net := connectToSeed render (wire g.post) h (localInfo s.node.manager) a ⟨g.shared,0,[]⟩
      -- a seed whose key is taken gets the Join on the connection there is
      let post := if seedKey render a ∈ g.shared.connections h then g.post
        else g.post.connect h j
      { g with shared := net.shared, post := queueAll net.queued post }.setSeat h
        { s with phase := .dialing rest }
  | _ => g

def finishStart : Gathering :=
  let s := g.seats h
  if s.phase = .dialing [] then
    g.setSeat h { s with
      node := { s.node with manager := startDone h s.node.manager }, phase := .ready }
  else g

def storeSender (ch : Channel) : Gathering :=
  match (g.post.links ch).queue.head? with
  | some (.join info) =>
    if ch%2 = 0 ∧ g.stored ch = false then
      { g with
        shared := putConnection (g.post.links ch).dest info.nodeId (ch+1) g.shared
        stored := Function.update g.stored ch true }
    else g
  | _ => g

def arrive (ch : Channel) : Gathering :=
  { storeSender g ch with post := g.post.carry ch }

def answers (m : ClusterMessage) (x : ServerClusterManager) : List (Host × NodeId) :=
  match m with
  | .join info =>
    if info.nodeId ≠ x.localNodeId ∧ x.nodeManager.isSome then [(h,info.nodeId)] else []
  | _ => []

def processMessage (env : Env) : Gathering :=
  match (g.post.inbox h).head? with
  | none => g
  | some m =>
    let s := g.seats h
    let r := handleMessage hash render (wire g.post) env m s.node ⟨g.shared,0,[]⟩
    { g with
      shared := r.net.shared
      post := queueAll r.net.queued (g.post.take h)
      answered := g.answered++answers h m s.node.manager }.setSeat h
      { s with node := { s.node with server := r.server }, dials := s.dials++r.dials }

def checkDial (k : ℕ) : Gathering :=
  let s := g.seats h
  match s.dials[k]? with
  | none => g
  | some d => g.setSeat h { s with
      dials := s.dials.eraseIdx k
      opening := if d.1 ∈ g.shared.connections h then s.opening else s.opening++[d] }

def openDial (k : ℕ) : Gathering :=
  let s := g.seats h
  match s.opening[k]? with
  | none => g
  | some d => match listener plan g d.2 with
    | none => g
    | some j =>
      { g with
        shared := putConnection h d.1 g.post.opened g.shared
        post := g.post.connect h j }.setSeat h
        { s with opening := s.opening.eraseIdx k }

def gatherStep : GatherEvent → Gathering
  | .start h => startNode hash render plan h g
  | .dial h => dialSeed render plan h g
  | .ready h => finishStart h g
  | .arrive ch => arrive g ch
  | .process h env => processMessage hash render h g env
  | .check h k => checkDial h g k
  | .connect h k => openDial plan h g k

end Steps

section Calls
variable (hash : Bytes → UInt64) (render : SocketAddr → String) (post : Network ClusterMessage)
variable (i : Host) (info : NodeInfo) (a : SocketAddr) (s : Shared) (n : ℕ)
variable (x : ServerClusterManager) (ch : Channel)

theorem wire_calm : Calm (wire post) := ⟨fun _ _ => rfl,fun _ => rfl,fun _ _ => rfl⟩

theorem add_route_eq (j : TableRef) (node : NodeId) :
    addRoute hash render (wire post) j node a ⟨s,n,[]⟩ =
      ⟨putRoute hash j node (render a) s,n+1,[]⟩ := rfl

theorem connect_to_seed_taken
    (h : (s.connections i).lookup (seedKey render a) = some ch) :
    connectToSeed render (wire post) i info a ⟨s,n,[]⟩ = ⟨s,n+2,[(ch,.join info)]⟩ := by
  have hmem : seedKey render a ∈ s.connections i :=
    AList.lookup_isSome.mp (Option.isSome_of_eq_some h)
  have hc : (Net.mk s n []).connect (wire post) i (seedKey render a) a = (true,⟨s,n+1,[]⟩) :=
    if_pos hmem
  rw [connectToSeed, hc]
  dsimp only
  rw [send_to_calm _ i ⟨s,n+1,[]⟩ (wire_calm post) _ ch _ h]
  rfl

theorem connect_to_seed_new (h : seedKey render a ∉ s.connections i) :
    connectToSeed render (wire post) i info a ⟨s,n,[]⟩ =
      ⟨putConnection i (seedKey render a) post.opened s,n+3,[(post.opened,.join info)]⟩ := by
  have hc : (Net.mk s n []).connect (wire post) i (seedKey render a) a =
      (true,⟨putConnection i (seedKey render a) post.opened s,n+2,[]⟩) := if_neg h
  rw [connectToSeed, hc]
  dsimp only
  rw [send_to_calm _ i ⟨_,n+2,[]⟩ (wire_calm post) _ post.opened _
    (by simp [putConnection])]
  rfl

theorem handle_join_unready (hid : info.nodeId ≠ x.localNodeId) (hx : x.nodeManager = none) :
    handleJoin hash render (wire post) info x ⟨s,n,[]⟩ =
      addRoute hash render (wire post) x.routeTable info.nodeId info.listenAddr ⟨s,n,[]⟩ := by
  rw [handleJoin, if_neg hid]
  simp only [sendToNode, hx]

theorem handle_join_ready (hid : info.nodeId ≠ x.localNodeId) (hx : x.nodeManager = some i)
    (h : (s.connections i).lookup info.nodeId = some ch) :
    handleJoin hash render (wire post) info x ⟨s,n,[]⟩ =
      ⟨putRoute hash x.routeTable info.nodeId (render info.listenAddr) s,n+3,
        [(ch,.nodeList [localInfo x])]⟩ := by
  have hmem : info.nodeId ∈ s.connections i :=
    AList.lookup_isSome.mp (Option.isSome_of_eq_some h)
  rw [handleJoin, if_neg hid, add_route_eq]
  simp only [sendToNode, hx, Net.isConnected, access_calm _ _ (wire_calm post), putRoute, hmem,
    decide_true]
  exact congrArg Prod.snd
    (send_to_calm _ i ⟨putRoute hash x.routeTable _ _ s,n+2,[]⟩ (wire_calm post) _ ch _ h)

theorem list_node_eq (hid : info.nodeId ≠ x.localNodeId) :
    ∃ n' dials, (∀ d ∈ dials, d = (info.nodeId,info.listenAddr)) ∧
      listNode hash render (wire post) x (⟨s,n,[]⟩,[]) info =
        (⟨putRoute hash x.routeTable info.nodeId (render info.listenAddr) s,n',[]⟩,dials) := by
  rw [listNode, if_neg hid, add_route_eq]
  cases x.nodeManager with
  | none => exact ⟨n+1,[],by simp,rfl⟩
  | some i =>
    by_cases hmem : info.nodeId ∈ s.connections i
    · refine ⟨n+2,[],by simp,?_⟩
      simp only [Net.isConnected, access_calm _ _ (wire_calm post), putRoute, hmem, decide_true]
    · refine ⟨n+2,[(info.nodeId,info.listenAddr)],by simp,?_⟩
      simp only [Net.isConnected, access_calm _ _ (wire_calm post), putRoute, hmem, decide_false,
        List.nil_append]

end Calls
end RexMq.ClusterJoin
