import Mathlib.Tactic.Common
import RexMq.ClusterMessages
import RexMq.RouteTable

/-!
# Forwarding to another node

A transport keeps one connection for each node name, and a message is sent by
putting it into the connection's channel. The forwarder tries the node it is
told, once more on a new connection after a failed send, and then the other
connected nodes in turn. Transports and route tables are shared objects: other
tasks may change them before every access of a forward, and the environment
says what they made of them, along with the outcome of every send and every
connection attempt.
-/

set_option autoImplicit false

namespace RexMq.PeerForwarder
open RexMq.ByteWords RexMq.ClientRegistry RexMq.ClusterMessages RexMq.RouteTable
open RexMq.ServerState (NodeId ForwardType ForwardRequest FwdResult)

abbrev Channel := ℕ
abbrev TransportRef := ℕ
abbrev TableRef := ℕ
abbrev Connections := AList (fun _ : NodeId => Channel)

structure Shared where
  connections : TransportRef → Connections
  tables : TableRef → GlobalRouteTable

/-- What a task meets at its n-th access to the shared objects. -/
structure Wire where
  others : ℕ → Shared → Shared
  accepts : ℕ → Bool
  opens : ℕ → SocketAddr → Option Channel
  forwardId : ℕ → BitVec 64
  listing : ℕ → Connections → List NodeId
  listing_perm : ∀ n c, (listing n c).Perm c.keys

/-- Nobody interferes, every channel accepts, and no new connection is had. -/
def Wire.still : Wire where
  others _ s := s
  accepts _ := true
  opens _ _ := none
  forwardId _ := 0
  listing _ c := c.keys
  listing_perm _ _ := .refl _

/-- The shared objects, the accesses so far and what the channels accepted
from the task. -/
structure Net where
  shared : Shared
  clock : ℕ
  queued : List (Channel × ClusterMessage)

namespace Net
variable (w : Wire) (i : TransportRef) (node : NodeId) (net : Net)

def access : Net :=
  { net with shared := w.others net.clock net.shared, clock := net.clock+1 }

def setConnections (c : Connections) : Net :=
  { net with shared := { net.shared with
      connections := Function.update net.shared.connections i c } }

def isConnected : Bool × Net :=
  let net := net.access w
  (decide (node ∈ net.shared.connections i),net)

def connectedNodes : List NodeId × Net :=
  let net := net.access w
  (w.listing net.clock (net.shared.connections i),net)

def sendTo (m : ClusterMessage) : Bool × Net :=
  let net := net.access w
  match (net.shared.connections i).lookup node with
  | none => (false,net)
  | some ch =>
    if w.accepts net.clock then (true,{ net with queued := net.queued++[(ch,m)] })
    else (false,net)

def removeConnection : Net :=
  let net := net.access w
  net.setConnections i ((net.shared.connections i).erase node)

/-- An existing connection is kept; the map is accessed again once the new
one stands. -/
def connect (addr : SocketAddr) : Bool × Net :=
  let net := net.access w
  if node ∈ net.shared.connections i then (true,net)
  else match w.opens net.clock addr with
    | none => (false,net)
    | some ch =>
      let net := net.access w
      (true,net.setConnections i ((net.shared.connections i).insert node ch))

end Net

/-- No other task interferes, every channel accepts, and the connections are
listed in one order. -/
structure Calm (w : Wire) : Prop where
  others : ∀ n s, w.others n s = s
  accepts : ∀ n, w.accepts n = true
  listing : ∀ n c, w.listing n c = w.listing 0 c

section Calm
variable (w : Wire) (i : TransportRef) (net : Net)

theorem access_calm (hw : Calm w) : net.access w = { net with clock := net.clock+1 } := by
  rw [Net.access, hw.others]

theorem send_to_calm (hw : Calm w) (node : NodeId) (ch : Channel) (m : ClusterMessage)
    (h : (net.shared.connections i).lookup node = some ch) :
    net.sendTo w i node m =
      (true,{ net with clock := net.clock+1, queued := net.queued++[(ch,m)] }) := by
  unfold Net.sendTo
  simp only [access_calm w _ hw, hw.accepts, h, if_true]

theorem still_calm : Calm .still := ⟨fun _ _ => rfl,fun _ => rfl,fun _ _ => rfl⟩

end Calm

structure NetworkForwarder where
  nodeManager : Option TransportRef
  routeTable : Option TableRef
  localNodeId : NodeId
  deriving DecidableEq, Repr

def forwardMessage (id : BitVec 64) (req : ForwardRequest) : ForwardMessage :=
  { forwardId := id
    originalSource := req.sourceClientId
    targetClientId := req.targetClientId
    title := req.title
    payload := req.payload
    isGroup := req.msgType = .group
    isBroadcast := req.msgType = .broadcast
    requireAck := false }

section Forwarding
variable (parse : String → Option SocketAddr) (w : Wire)

def tryReconnectAndSend (i : TransportRef) (node : NodeId) (addr : SocketAddr)
    (m : ClusterMessage) (net : Net) : Bool × Net :=
  match (net.removeConnection w i node).connect w i node addr with
  | (true,net) => net.sendTo w i node m
  | (false,net) => (false,net)

def trySend (i : TransportRef) (node : NodeId) (addr : SocketAddr) (req : ForwardRequest)
    (net : Net) : Bool × Net :=
  match net.isConnected w i node with
  | (false,net) => (false,net)
  | (true,net) =>
    let m := ClusterMessage.forward (forwardMessage (w.forwardId net.clock) req)
    match net.sendTo w i node m with
    | (true,net) => (true,net)
    | (false,net) => tryReconnectAndSend w i node addr m net

def walk (i : TransportRef) (j : TableRef) (localNodeId : NodeId) (exclude : Option NodeId)
    (req : ForwardRequest) : List NodeId → Net → Bool × Net
  | [], net => (false,net)
  | other::rest, net =>
    if other = localNodeId ∨ some other = exclude then walk i j localNodeId exclude req rest net
    else
      let net := net.access w
      match ((net.shared.tables j).getNodeAddr other).bind parse with
      | none => walk i j localNodeId exclude req rest net
      | some addr => match trySend w i other addr req net with
        | (true,net) => (true,net)
        | (false,net) => walk i j localNodeId exclude req rest net

def fallbackExcluding (fw : NetworkForwarder) (req : ForwardRequest) (exclude : Option NodeId)
    (net : Net) : FwdResult × Net :=
  match fw.nodeManager with
  | none => (.noPeerForTitle,net)
  | some i => match fw.routeTable with
    | none => (.noPeerForTitle,net)
    | some j =>
      let nodes := net.connectedNodes w i
      match walk parse w i j fw.localNodeId exclude req nodes.1 nodes.2 with
      | (true,net) => (.delivered,net)
      | (false,net) => match exclude with
        | some node => (.peerUnreachable node,net)
        | none => (.noPeerForTitle,net)

def forward (fw : NetworkForwarder) (target : NodeId) (req : ForwardRequest) (net : Net) :
    FwdResult × Net :=
  match fw.nodeManager with
  | none => (.peerUnreachable "cluster-not-started",net)
  | some i => match fw.routeTable with
    | none => (.peerUnreachable "cluster-not-started",net)
    | some j =>
      let net := net.access w
      match (net.shared.tables j).getNodeAddr target with
      | none => fallbackExcluding parse w fw req none net
      | some text => match parse text with
        | none => fallbackExcluding parse w fw req (some target) net
        | some addr => match trySend w i target addr req net with
          | (true,net) => (.delivered,net)
          | (false,net) => fallbackExcluding parse w fw req (some target) net

/-- A task put one frame of the request into a channel, or none. -/
inductive Queues (req : ForwardRequest) (net net' : Net) : Bool → Prop
  | one (ch : Channel) (id : BitVec 64) :
      net'.queued = net.queued++[(ch,.forward (forwardMessage id req))] → Queues req net net' true
  | none : net'.queued = net.queued → Queues req net net' false

section Queueing
variable (i : TransportRef) (j : TableRef) (node : NodeId) (addr : SocketAddr)
variable (req : ForwardRequest) (net : Net)

theorem queues_after (net₁ net₂ : Net) (b : Bool) (h₁ : net₁.queued = net.queued)
    (h : Queues req net₁ net₂ b) : Queues req net net₂ b := by
  cases h with
  | one ch id h => exact .one ch id (h.trans (by rw [h₁]))
  | none h => exact .none (h.trans h₁)

theorem queued_connect : (net.connect w i node addr).2.queued = net.queued := by
  unfold Net.connect
  dsimp only
  split_ifs
  · rfl
  · split <;> rfl

theorem send_to_queues (id : BitVec 64) :
    Queues req net (net.sendTo w i node (.forward (forwardMessage id req))).2
      (net.sendTo w i node (.forward (forwardMessage id req))).1 := by
  unfold Net.sendTo
  dsimp only
  split
  · exact .none rfl
  · split_ifs
    · exact .one _ id rfl
    · exact .none rfl

theorem reconnect_queues (id : BitVec 64) :
    Queues req net (tryReconnectAndSend w i node addr (.forward (forwardMessage id req)) net).2
      (tryReconnectAndSend w i node addr (.forward (forwardMessage id req)) net).1 := by
  have hq := queued_connect w i node addr (net.removeConnection w i node)
  unfold tryReconnectAndSend
  rcases hc : (net.removeConnection w i node).connect w i node addr with ⟨_ | _, net'⟩
  · rw [hc] at hq
    exact .none hq
  · rw [hc] at hq
    exact queues_after req net net' _ _ hq (send_to_queues w i node req net' id)

theorem try_send_queues :
    Queues req net (trySend w i node addr req net).2 (trySend w i node addr req net).1 := by
  unfold trySend
  rcases hc : net.isConnected w i node with ⟨_ | _, net₁⟩
  all_goals
    have hq₁ : net₁.queued = net.queued := by
      rw [show net₁ = (net.isConnected w i node).2 from by rw [hc]]
      rfl
  · exact .none hq₁
  · dsimp only
    have hs := send_to_queues w i node req net₁ (w.forwardId net₁.clock)
    rcases hr : net₁.sendTo w i node (.forward (forwardMessage (w.forwardId net₁.clock) req)) with
      ⟨_ | _, net₂⟩
    · rw [hr] at hs
      cases hs with
      | none hq₂ =>
        exact queues_after req net net₂ _ _ (hq₂.trans hq₁)
          (reconnect_queues w i node addr req net₂ _)
    · rw [hr] at hs
      exact queues_after req net net₁ _ _ hq₁ hs

theorem walk_queues (localNodeId : NodeId) (exclude : Option NodeId) (nodes : List NodeId) :
    Queues req net (walk parse w i j localNodeId exclude req nodes net).2
      (walk parse w i j localNodeId exclude req nodes net).1 := by
  induction nodes generalizing net with
  | nil => exact .none rfl
  | cons other rest ih =>
    rw [walk]
    split_ifs
    · exact ih net
    · dsimp only
      split
      · exact queues_after req net (net.access w) _ _ rfl (ih (net.access w))
      · rename_i addr _
        have hs := try_send_queues w i other addr req (net.access w)
        rcases hr : trySend w i other addr req (net.access w) with ⟨_ | _, net'⟩
        · rw [hr] at hs
          cases hs with
          | none hq => exact queues_after req net net' _ _ hq (ih net')
        · rw [hr] at hs
          exact queues_after req net (net.access w) _ _ rfl hs

theorem fallback_queues (fw : NetworkForwarder) (exclude : Option NodeId) :
    Queues req net (fallbackExcluding parse w fw req exclude net).2
      ((fallbackExcluding parse w fw req exclude net).1 == .delivered) := by
  unfold fallbackExcluding
  cases fw.nodeManager with
  | none => exact .none rfl
  | some i =>
    cases fw.routeTable with
    | none => exact .none rfl
    | some j =>
      dsimp only
      have hw := walk_queues parse w i j req (net.connectedNodes w i).2 fw.localNodeId exclude
        (net.connectedNodes w i).1
      rcases hr : walk parse w i j fw.localNodeId exclude req (net.connectedNodes w i).1
        (net.connectedNodes w i).2 with ⟨_ | _, net'⟩
      · rw [hr] at hw
        cases hw with
        | none hq =>
          cases exclude with
          | none => exact .none hq
          | some node => exact .none hq
      · rw [hr] at hw
        exact queues_after req net (net.connectedNodes w i).2 _ _ rfl hw

theorem forward_queues (fw : NetworkForwarder) (target : NodeId) :
    Queues req net (forward parse w fw target req net).2
      ((forward parse w fw target req net).1 == .delivered) := by
  unfold forward
  cases fw.nodeManager with
  | none => exact .none rfl
  | some i =>
    cases fw.routeTable with
    | none => exact .none rfl
    | some j =>
      dsimp only
      have hback := fun net' exclude (hq : net'.queued = net.queued) =>
        queues_after req net net' _ _ hq (fallback_queues parse w req net' fw exclude)
      split
      · exact hback _ _ rfl
      · split
        · exact hback _ _ rfl
        · rename_i addr _
          have hs := try_send_queues w i target addr req (net.access w)
          rcases hr : trySend w i target addr req (net.access w) with ⟨_ | _, net'⟩
          · rw [hr] at hs
            cases hs with
            | none hq => exact hback net' _ hq
          · rw [hr] at hs
            exact queues_after req net (net.access w) _ _ rfl hs

end Queueing
end Forwarding
end RexMq.PeerForwarder
