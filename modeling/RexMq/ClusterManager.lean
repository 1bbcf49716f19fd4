import Mathlib.Tactic.Common
import RexMq.PeerForwarder
import RexMq.PublishTrace

/-!
# The cluster manager of a node

A node consists of a server, the forwarder of its services and the manager
that handles what other nodes send. The manager answers a join with the one
node it speaks for, enters the nodes of a list into its route table and dials
those it has no connection to, and hands a forwarded message to the local
subscribers. Its start enters the node itself and joins the seeds one by one;
only then can the manager send. Heartbeats and the announcements of titles
change nothing that is modelled here.
-/

set_option autoImplicit false

namespace RexMq.ClusterManager
open RexMq.ByteWords RexMq.FrameData RexMq.ClientRegistry
open RexMq.ServerState (NodeId Env Server)
open RexMq.HandlerEffects RexMq.PublishTrace
open RexMq.ClusterMessages RexMq.RouteTable RexMq.PeerForwarder

structure DeliveryOutcome where
  deliveredTo : ℕ
  failed : ℕ
  ackedBack : Bool
  deriving DecidableEq, Repr

section Delivery
variable (env : Env)

def deliverNext (buf : Bytes) (r : DeliveryOutcome × Server) (c : ClientRef) :
    DeliveryOutcome × Server :=
  let sent := r.2.sendBuf env c buf
  if sent.1 then ({ r.1 with deliveredTo := r.1.deliveredTo+1 },sent.2)
  else ({ r.1 with failed := r.1.failed+1 },sent.2)

/-- The client of a message for one: by id if it names one, else by title. -/
def unicastTarget (m : ForwardMessage) (s : Server) : Option ClientRef :=
  if m.targetClientId ≠ 0 then s.live m.targetClientId
  else s.registry.findOneByTitle s.clients env.draw m.title none

def deliver (m : ForwardMessage) (s : Server) : DeliveryOutcome × Server :=
  let buf := (RexData.unpack m.payload).content
  let outcome : DeliveryOutcome := ⟨0,0,m.requireAck⟩
  if m.isBroadcast || m.isGroup then
    (s.registry.findAllByTitle s.clients m.title none).foldl (deliverNext env buf) (outcome,s)
  else match unicastTarget env m s with
    | none => (outcome,s)
    | some c => deliverNext env buf (outcome,s) c

theorem posts_deliver_next (buf : Bytes) (r : DeliveryOutcome × Server) (c : ClientRef) :
    Posts r.2 (deliverNext env buf r c).2
      [⟨(r.2.clients c).sender,buf,env.sendOk r.2.sent.length⟩] := by
  have hp := posts_send_buf env r.2 c buf
  unfold deliverNext
  dsimp only
  split_ifs
  · exact hp
  · exact hp

theorem quiet_deliver_next (buf : Bytes) (r : DeliveryOutcome × Server) (c : ClientRef) :
    Quiet r.2 (deliverNext env buf r c).2 := by
  have hq := quiet_send_buf env c buf r.2
  unfold deliverNext
  dsimp only
  split_ifs
  · exact hq
  · exact hq

theorem quiet_deliver (m : ForwardMessage) (s : Server) : Quiet s (deliver env m s).2 := by
  unfold deliver
  dsimp only
  split_ifs
  · exact (quiet_follows env).foldl _ (quiet_deliver_next env _) _ (_,s)
  · split
    · exact quiet_refl s
    · exact quiet_deliver_next env _ (_,s) _

theorem posts_deliver (m : ForwardMessage) (s : Server)
    (h : (m.isBroadcast || m.isGroup) = false) :
    Posts s (deliver env m s).2
      (copies env s m.payload s.sent.length (unicastTarget env m s).toList) := by
  unfold deliver
  rw [h]
  cases unicastTarget env m s with
  | none => exact posts_nil s
  | some c => exact posts_deliver_next env m.payload (⟨0,0,m.requireAck⟩,s) c

end Delivery

def forwardAck (localNodeId : NodeId) (m : ForwardMessage) (o : DeliveryOutcome) :
    ForwardAckMessage :=
  let success : Bool := 0 < o.deliveredTo && o.failed == 0
  { forwardId := m.forwardId
    fromNodeId := localNodeId
    originalSource := m.originalSource
    success := success
    error :=
      if success then none
      else if 0 < o.failed then
        some ("Failed to deliver to "++toString o.failed++" local subscriber(s)")
      else some "No local subscriber" }

/-- `services` tells whether the node's services were handed to the manager. -/
structure ServerClusterManager where
  nodeManager : Option TransportRef
  routeTable : TableRef
  localNodeId : NodeId
  localAddr : SocketAddr
  enabled : Bool
  services : Bool
  deriving DecidableEq, Repr

structure Node where
  server : Server
  forwarder : NetworkForwarder
  manager : ServerClusterManager

/-- `ClusterConfig` as far as the start reads it. -/
structure StartConfig where
  listenAddr : SocketAddr
  seedNodes : List SocketAddr
  deriving DecidableEq, Repr

/-- What a message leaves behind, with the nodes it sets out to dial. -/
structure Handled where
  server : Server
  net : Net
  dials : List (NodeId × SocketAddr)

section Messages
variable (hash : Bytes → UInt64) (render : SocketAddr → String) (w : Wire)

def announceAck (fw : NetworkForwarder) (ack : ForwardAckMessage) (net : Net) : Net :=
  match fw.nodeManager with
  | none => net
  | some i =>
    let nodes := net.connectedNodes w i
    nodes.1.foldl (fun net node =>
      if node = fw.localNodeId then net
      else (net.sendTo w i node (.forwardAck ack)).2) nodes.2

def addRoute (j : TableRef) (node : NodeId) (addr : SocketAddr) (net : Net) : Net :=
  let net := net.access w
  { net with shared := { net.shared with
      tables := Function.update net.shared.tables j
        ((net.shared.tables j).addNode hash node (render addr)) } }

def sendToNode (x : ServerClusterManager) (node : NodeId) (m : ClusterMessage) (net : Net) :
    Bool × Net :=
  match x.nodeManager with
  | none => (false,net)
  | some i => match net.isConnected w i node with
    | (false,net) => (false,net)
    | (true,net) => net.sendTo w i node m

def localInfo (x : ServerClusterManager) : NodeInfo := ⟨x.localNodeId,x.localAddr,0⟩

def handleJoin (info : NodeInfo) (x : ServerClusterManager) (net : Net) : Net :=
  if info.nodeId = x.localNodeId then net
  else
    let net := addRoute hash render w x.routeTable info.nodeId info.listenAddr net
    (sendToNode w x info.nodeId (.nodeList [localInfo x]) net).2

def listNode (x : ServerClusterManager) (r : Net × List (NodeId × SocketAddr)) (info : NodeInfo) :
    Net × List (NodeId × SocketAddr) :=
  if info.nodeId = x.localNodeId then r
  else
    let net := addRoute hash render w x.routeTable info.nodeId info.listenAddr r.1
    match x.nodeManager with
    | none => (net,r.2)
    | some i => match net.isConnected w i info.nodeId with
      | (true,net) => (net,r.2)
      | (false,net) => (net,r.2++[(info.nodeId,info.listenAddr)])

def handleForward (env : Env) (m : ForwardMessage) (x : Node) (net : Net) : Server × Net :=
  if x.manager.services then
    let r := deliver env m x.server
    if m.requireAck && r.1.ackedBack then
      (r.2,announceAck w x.forwarder (forwardAck x.manager.localNodeId m r.1) net)
    else (r.2,net)
  else (x.server,net)

def handleMessage (env : Env) (m : ClusterMessage) (x : Node) (net : Net) : Handled :=
  match m with
  | .join info => ⟨x.server,handleJoin hash render w info x.manager net,[]⟩
  | .nodeList infos =>
    let r := infos.foldl (listNode hash render w x.manager) (net,[])
    ⟨x.server,r.1,r.2⟩
  | .forward m =>
    let r := handleForward w env m x net
    ⟨r.1,r.2,[]⟩
  | _ => ⟨x.server,net,[]⟩

/-- A forwarded message that asks for no acknowledgement only reaches the
server, once the manager has the services. -/
theorem handle_forward_eq (env : Env) (m : ForwardMessage) (x : Node) (net : Net)
    (h : m.requireAck = false) :
    handleMessage hash render w env (.forward m) x net =
      ⟨if x.manager.services then (deliver env m x.server).2 else x.server,net,[]⟩ := by
  rw [handleMessage, handleForward, h]
  cases x.manager.services <;> rfl

/-- The name a seed is connected under while its own is not known. -/
def seedKey (addr : SocketAddr) : NodeId := "seed-"++render addr

def connectToSeed (i : TransportRef) (info : NodeInfo) (addr : SocketAddr) (net : Net) : Net :=
  match net.connect w i (seedKey render addr) addr with
  | (false,net) => net
  | (true,net) => (net.sendTo w i (seedKey render addr) (.join info)).2

def startLocal (config : StartConfig) (x : ServerClusterManager) (net : Net) :
    ServerClusterManager × Net :=
  let x := { x with localAddr := config.listenAddr }
  (x,addRoute hash render w x.routeTable x.localNodeId config.listenAddr net)

def startDone (i : TransportRef) (x : ServerClusterManager) : ServerClusterManager :=
  { x with nodeManager := some i }

/-- `ServerClusterManager::start` on a new transport. No connection error
stops the loop over the seeds. -/
def start (i : TransportRef) (config : StartConfig) (x : ServerClusterManager) (net : Net) :
    ServerClusterManager × Net :=
  if !x.enabled then (x,net)
  else
    let r := startLocal hash render w config x net
    (startDone i r.1,
      config.seedNodes.foldl (fun net a => connectToSeed render w i (localInfo r.1) a net) r.2)

end Messages
end RexMq.ClusterManager
