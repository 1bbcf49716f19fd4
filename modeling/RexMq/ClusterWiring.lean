import Mathlib.Tactic.Common
import RexMq.ClusterPublish
import RexMq.RegistryIndex

/-!
# How a server is wired to its cluster

The services are built first, with an empty pair of slots in their forwarder
and, unless a cluster port is given, with the port of a server without a
cluster. Opening the server then makes a manager with a route table and a
transport of its own, starts it and hands it the services. Nothing hands the
manager, its table or its transport to the services: the port stays the one
they were built with, and no code fills the slots.
-/

set_option autoImplicit false

namespace RexMq.ClusterWiring
open RexMq.ByteWords RexMq.FiniteRun RexMq.FrameData RexMq.ClientRegistry RexMq.PersistentStore
open RexMq.ServerState (NodeId Env Server RexSystemConfig ClusterPort ForwardRequest)
open RexMq.Handlers RexMq.HandlerEffects RexMq.FrameAccess RexMq.ServerRun RexMq.PublishTrace
open RexMq.ClusterMessages RexMq.RouteTable RexMq.PeerForwarder RexMq.ClusterManager
open RexMq.ClusterPublish

structure ClusterConfig where
  enabled : Bool
  clusterAddr : SocketAddr
  seedNodes : List SocketAddr
  nodeId : Option NodeId
  deriving DecidableEq, Repr

structure Process where
  system : System
  forwarder : NetworkForwarder
  manager : Option ServerClusterManager
  shared : Shared

/-- The part of `Services` that is built here: the server's state with its
port, and the forwarder. -/
structure Services where
  server : Server
  forwarder : NetworkForwarder

def buildServices (config : RexSystemConfig) (db : Option SledDb) (clients : Clients)
    (cluster : Option ClusterPort) : Services :=
  let port := cluster.getD .noop
  ⟨Server.build config port db clients,⟨none,none,port.getLocalNodeId.getD "local"⟩⟩

def newManager (node : NodeId) (enabled : Bool) (j : TableRef) (net : Net) :
    ServerClusterManager × Net :=
  (⟨none,j,node,.v4 [0,0,0,0] 0,enabled,false⟩,
    { net with shared := { net.shared with
        tables := Function.update net.shared.tables j (.withLocalNode node) } })

inductive ProcessEvent where
  | server (e : Event) (w : Wire)
  | message (env : Env) (w : Wire) (m : ClusterMessage)
  | wire (shared : Shared)

section Wiring
variable (hash : Bytes → UInt64) (render : SocketAddr → String)
variable (parse : String → Option SocketAddr) (w : Wire)

/-- The new table and the new transport are the objects `j` and `i`. -/
def startClusterManager (i : TransportRef) (j : TableRef) (config : ClusterConfig) (net : Net) :
    ServerClusterManager × Net :=
  let made := newManager (config.nodeId.getD "rex-node") true j net
  let started := ClusterManager.start hash render w i ⟨config.clusterAddr,config.seedNodes⟩ made.1
    (made.2.setConnections i ∅)
  ({ started.1 with services := true },started.2)

def openServer (i : TransportRef) (j : TableRef) (services : Services)
    (cluster : Option ClusterConfig) (shared : Shared) : Process :=
  let system : System := ⟨services.server.restore,[],[]⟩
  match cluster.filter (fun c => c.enabled) with
  | none => ⟨system,services.forwarder,none,shared⟩
  | some config =>
    let r := startClusterManager hash render w i j config ⟨shared,0,[]⟩
    ⟨system,services.forwarder,some r.1,r.2.shared⟩

/-- The environment of a handler, with the forwarder of the services. -/
def servicesEnv (y : Process) (env : Env) : Env :=
  { env with
    forward := fun target req => (forward parse w y.forwarder target req ⟨y.shared,0,[]⟩).1 }

def withForwarder (y : Process) : Event → Event
  | .frame c env f => .frame c (servicesEnv parse w y env) f
  | e => e

def processStep (y : Process) : ProcessEvent → Process
  | .server e w =>
    let system := step y.system (withForwarder parse w y e)
    let net := runForwards parse w y.forwarder
      (system.server.forwards.drop y.system.server.forwards.length) ⟨y.shared,0,[]⟩
    { y with system := system, shared := net.shared }
  | .message env w m => match y.manager with
    | none => y
    | some manager =>
      let r := handleMessage hash render w env m ⟨y.system.server,y.forwarder,manager⟩
        ⟨y.shared,0,[]⟩
      { y with system := { y.system with server := r.server }, shared := r.net.shared }
  | .wire shared => { y with shared := shared }

/-- The server after a publish, and what the publish puts into channels. -/
def published (y : Process) (env : Env) (source : ClientRef) (f : RexData) : Server :=
  receiveFrame (servicesEnv parse w y env) source f y.system.server

def publishQueue (y : Process) (env : Env) (source : ClientRef) (f : RexData) :
    List (Channel × ClusterMessage) :=
  (runForwards parse w y.forwarder
    ((published parse w y env source f).forwards.drop y.system.server.forwards.length)
    ⟨y.shared,0,[]⟩).queued

end Wiring

/-- The route table of the started manager gives the title to a peer with a
known address, the transport is connected to that peer by the channel, and no
local client subscribes to the title. -/
structure Routable (hash : Bytes → UInt64) (b : BinarySearch) (y : Process) (title : Title)
    (peer : NodeId) (ch : Channel) : Prop where
  owned : ∃ m i, y.manager = some m ∧ m.nodeManager = some i ∧ peer ≠ m.localNodeId ∧
    (y.shared.tables m.routeTable).getNodeByTitle hash b title = some peer ∧
    ((y.shared.tables m.routeTable).getNodeAddr peer).isSome ∧
    (y.shared.connections i).lookup peer = some ch
  unheard : y.system.server.registry.subscribers title = []

section Port
variable (Q : ClusterPort → Prop) (hreg : ∀ p k, Q p → Q (p.registerClient k))
variable (hun : ∀ p k, Q p → Q (p.unregisterClient k))

theorem foldl_port {α : Type} (g : Server → α → Server)
    (hg : ∀ s a, Q s.cluster → Q (g s a).cluster) (as : List α) (s : Server) (hs : Q s.cluster) :
    Q (as.foldl g s).cluster := by
  induction as generalizing s with
  | nil => exact hs
  | cons a as ih => exact ih (g s a) (hg s a hs)

include hreg in
theorem restore_port (s : Server) (hs : Q s.cluster) : Q s.restore.cluster := by
  have hrow : ∀ (s : Server) p, Q s.cluster → Q (s.restoreRow p).cluster := by
    intro s p hs
    unfold Server.restoreRow
    split
    · exact hs
    · exact hreg _ _ hs
  unfold Server.restore
  split_ifs
  · split
    · exact hs
    · exact foldl_port Q Server.restoreRow hrow _ s hs
  · exact hs

include hun in
theorem ghost_sweep_port (now : UInt64) (s : Server) (hs : Q s.cluster) :
    Q (s.cleanupExpiredGhosts now).cluster := by
  unfold Server.cleanupExpiredGhosts
  split
  · exact hs
  · exact foldl_port Q _ (fun s k hs => hun _ k hs) _ _ hs

include hreg hun in
theorem step_port (y : System) (e : Event) (hy : Q y.server.cluster) :
    Q (step y e).server.cluster := by
  have hremove : ∀ (s : Server) k, Q s.cluster → Q (s.removeClient k).2.cluster := by
    intro s k hs
    rw [Server.remove_client_eq]
    cases s.live k with
    | none => exact hs
    | some c => exact hun _ k hs
  apply step_keeps (fun s => Q s.cluster) y e _ _ _ _ _ hremove _ _ _ hy
  · intro s t hq hs
    rw [hq.cluster]
    exact hs
  · exact fun _ _ _ _ _ hs => hs
  · exact fun _ _ _ _ hs => hs
  · exact fun s env c k title hs => hreg _ _ hs
  · exact fun _ _ _ _ _ _ hs => hs
  · intro now _
    apply inactive_sweep_keeps (fun s => Q s.cluster) _ now y.server hy
    intro s k hs
    rw [Server.cluster_evict]
    exact hs
  · exact fun s now hs => ghost_sweep_port Q hun now s hs
  · exact restore_port Q hreg

end Port

/-- The services are those of a server without a cluster. -/
structure Unwired (y : Process) : Prop where
  manager : y.forwarder.nodeManager = none
  port : y.system.server.cluster = .noop

section Runs
variable (hash : Bytes → UInt64) (b : BinarySearch) (render : SocketAddr → String)
variable (parse : String → Option SocketAddr)

theorem noop_register (p : ClusterPort) (k : ClientId) (h : p = .noop) :
    p.registerClient k = .noop := by
  rw [h]
  rfl

theorem noop_unregister (p : ClusterPort) (k : ClientId) (h : p = .noop) :
    p.unregisterClient k = .noop := by
  rw [h]
  rfl

theorem unwired_open (w : Wire) (i : TransportRef) (j : TableRef) (config : RexSystemConfig)
    (db : Option SledDb) (clients : Clients) (cluster : Option ClusterConfig) (shared : Shared) :
    Unwired
      (openServer hash render w i j (buildServices config db clients none) cluster shared) := by
  have hport : (buildServices config db clients none).server.restore.cluster = .noop :=
    restore_port (fun p => p = .noop) noop_register _ rfl
  unfold openServer
  dsimp only
  split
  · exact ⟨rfl,hport⟩
  · exact ⟨rfl,hport⟩

theorem cluster_handled (w : Wire) (env : Env) (m : ClusterMessage) (x : Node) (net : Net) :
    (handleMessage hash render w env m x net).server.cluster = x.server.cluster := by
  cases m with
  | forward m =>
    have hq := quiet_deliver env m x.server
    simp only [handleMessage, handleForward]
    split_ifs
    · exact hq.cluster
    · exact hq.cluster
    · rfl
  | _ => rfl

theorem unwired_step (y : Process) (e : ProcessEvent) (hy : Unwired y) :
    Unwired (processStep hash render parse y e) := by
  cases e with
  | server e w =>
    exact ⟨hy.manager,
      step_port (fun p => p = .noop) noop_register noop_unregister y.system _ hy.port⟩
  | message env w m =>
    simp only [processStep]
    cases y.manager with
    | none => exact hy
    | some manager => exact ⟨hy.manager,(cluster_handled hash render w env m _ _).trans hy.port⟩
  | wire shared => exact ⟨hy.manager,hy.port⟩

theorem forward_unwired (w : Wire) (fw : NetworkForwarder) (h : fw.nodeManager = none)
    (target : NodeId) (req : ForwardRequest) (net : Net) :
    forward parse w fw target req net = (.peerUnreachable "cluster-not-started",net) := by
  rw [forward, h]

theorem run_forwards_unwired (w : Wire) (fw : NetworkForwarder) (h : fw.nodeManager = none)
    (requests : List (NodeId × ForwardRequest)) (net : Net) :
    runForwards parse w fw requests net = net := by
  induction requests generalizing net with
  | nil => rfl
  | cons r requests ih =>
    rw [runForwards, List.foldl_cons, forward_unwired parse w fw h]
    exact ih net

theorem unheard_title_answered (w : Wire) (y : Process) (hun : Unwired y) (env : Env)
    (source : ClientRef) (f : RexData) (title : Title)
    (hempty : y.system.server.registry.subscribers title = [])
    (hc : f.command = .ok .title) (ht : f.title = .ok title) :
    ∃ e ∈ (published parse w y env source f).sent.drop y.system.server.sent.length,
      IsReturn .titleReturn (y.system.server.clients source).sender e := by
  have hfits := fits_of_title f title ht (by rw [hc]; simp)
  obtain ⟨k, hk⟩ := source_ok f (by have := hfits.length; omega)
  unfold published receiveFrame
  obtain ⟨t, hok⟩ := handle_ok (servicesEnv parse w y env) source f y.system.server hfits
  rw [hok]
  rw [handle, bind_of_ok hc] at hok
  have htrace := title_trace _ source f _ t title k ht hk hok
  have hroute : y.system.server.route (servicesEnv parse w y env) title (some k) =
      .remote "local" := by
    have hnone := (RegistryIndex.find_one_none_iff y.system.server.clients
      y.system.server.registry title (some k) env.draw).mpr
        (by rw [ClientRegistryImpl.find_all_by_title_eq, hempty]; rfl)
    simp only [Server.route, servicesEnv, hnone, hun.port, ClusterPort.findNodeForTitle]
  rw [hroute] at htrace
  cases htrace with
  | remote _ back hback hposts =>
    have hrefused : (servicesEnv parse w y env).forward "local" (titleRequest f title k) =
        .peerUnreachable "cluster-not-started" := by
      simp only [servicesEnv, forward_unwired parse w y.forwarder hun.manager]
    rw [hrefused] at hback
    cases hback with
    | told e he =>
      refine ⟨e,?_,he⟩
      show e ∈ t.sent.drop _
      rw [hposts.sent, List.drop_left]
      exact List.mem_singleton.mpr rfl

/-- However a server with an enabled cluster has run since it was opened, a
publish of a title that its manager would route to a connected peer puts
nothing into any channel, and the publisher is told that there is no target. -/
theorem routable_title_not_forwarded (w w₀ : Wire) (i : TransportRef) (j : TableRef)
    (config : RexSystemConfig) (db : Option SledDb) (clients : Clients) (cluster : ClusterConfig)
    (shared : Shared) (es : List ProcessEvent) (env : Env) (source : ClientRef) (f : RexData)
    (title : Title) (peer : NodeId) (ch : Channel) (y : Process)
    (hy : y = es.foldl (processStep hash render parse)
      (openServer hash render w₀ i j (buildServices config db clients none) (some cluster) shared))
    (hroute : Routable hash b y title peer ch)
    (hc : f.command = .ok .title) (ht : f.title = .ok title) :
    publishQueue parse w y env source f = [] ∧
      ∃ e ∈ (published parse w y env source f).sent.drop y.system.server.sent.length,
        IsReturn .titleReturn (y.system.server.clients source).sender e := by
  have hun : Unwired y := by
    rw [hy]
    exact always_last _ Unwired _ es (always_of_step _ Unwired (unwired_step hash render parse) _ es
      (unwired_open hash render w₀ i j config db clients (some cluster) shared))
  constructor
  · rw [publishQueue, run_forwards_unwired parse w y.forwarder hun.manager]
  · exact unheard_title_answered parse w y hun env source f title hroute.unheard hc ht

end Runs

def firstByte (key : Bytes) : UInt64 := (key.headD 0).toUInt64

def anAddr : SocketAddr := .v4 [10,0,0,1] 7000

def openedAlone : Process :=
  openServer firstByte (fun _ => "10.0.0.1:7000") .still 0 0
    (buildServices plainConfig none unusedClients none) (some ⟨true,anAddr,[],some "a"⟩)
    ⟨fun _ => ∅,fun _ => .new⟩

/-- A client connects, and node `b` joins over channel 5. -/
def joinedByPeer : List ProcessEvent :=
  [.server (.accept 0 1 "tcp" 0) .still,
    .wire { openedAlone.shared with connections := fun _ => (∅ : Connections).insert "b" 5 },
    .message quietEnv .still (.join ⟨"b",anAddr,0⟩)]

def openedWithPeer : Process :=
  joinedByPeer.foldl (processStep firstByte (fun _ => "10.0.0.1:7000") (fun _ => some anAddr))
    openedAlone

theorem peer_title_routable : Routable firstByte .first openedWithPeer [98] "b" 5 where
  owned := ⟨⟨some 0,0,"a",anAddr,true,true⟩,0,by decide +kernel,rfl,by decide +kernel,
    by decide +kernel,by decide +kernel,by decide +kernel⟩
  unheard := by decide +kernel

theorem peer_title_answered :
    publishQueue (fun _ => some anAddr) .still openedWithPeer quietEnv 0 (titleFrame 7 [98]) = [] ∧
      ∃ e ∈ (published (fun _ => some anAddr) .still openedWithPeer quietEnv 0
          (titleFrame 7 [98])).sent.drop openedWithPeer.system.server.sent.length,
        IsReturn .titleReturn (openedWithPeer.system.server.clients 0).sender e :=
  routable_title_not_forwarded firstByte .first (fun _ => "10.0.0.1:7000") (fun _ => some anAddr)
    .still .still 0 0 plainConfig none unusedClients ⟨true,anAddr,[],some "a"⟩
    ⟨fun _ => ∅,fun _ => .new⟩ joinedByPeer quietEnv 0 (titleFrame 7 [98]) [98] "b" 5
    openedWithPeer rfl peer_title_routable (by decide +kernel) (by decide +kernel)

/-- The owner of the title is a connected peer with a known address, and
nothing is forwarded to it. -/
theorem connected_peer_not_used :
    Routable firstByte .first openedWithPeer [98] "b" 5 ∧
      (titleFrame 7 [98]).command = .ok .title ∧ (titleFrame 7 [98]).title = .ok [98] ∧
      ¬ ∃ fm, (5,ClusterMessage.forward fm) ∈
        publishQueue (fun _ => some anAddr) .still openedWithPeer quietEnv 0
          (titleFrame 7 [98]) := by
  have hq : publishQueue (fun _ => some anAddr) .still openedWithPeer quietEnv 0
      (titleFrame 7 [98]) = [] := by decide +kernel
  refine ⟨peer_title_routable,by decide +kernel,by decide +kernel,?_⟩
  rintro ⟨fm, hfm⟩
  rw [hq] at hfm
  cases hfm

end RexMq.ClusterWiring
