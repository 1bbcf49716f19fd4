import Mathlib.Tactic.Common
import RexMq.FrameData
import RexMq.PersistentStore

/-!
# The services of one server

The state behind the handlers: client objects, registry, cluster
registrations, database, pending acknowledgements and a record of what was
sent. The composite operations of the services and the sweeps of the janitor
act on all of it. What a step takes from outside (the clock, the outcome of
every send, random choices, the cluster's hash ring) is an environment.
Metrics and logs are left out.
-/

set_option autoImplicit false

namespace RexMq.ServerState
open RexMq.ByteWords RexMq.FrameData RexMq.ClientRegistry RexMq.PersistentStore

abbrev NodeId := String
abbrev MessageId := BitVec 64

structure RexSystemConfig where
  clientTimeout : UInt64
  persistenceEnabled : Bool
  ackEnabled : Bool
  ackTimeout : UInt64
  ghostTtlSecs : UInt64
  deriving DecidableEq, Repr

/-- The stand-in without a cluster, or the manager with its route table. -/
inductive ClusterPort where
  | noop
  | manager (localNodeId : NodeId) (clientIdToNode : AList (fun _ : ClientId => NodeId))

namespace ClusterPort

def registerClient (k : ClientId) : ClusterPort → ClusterPort
  | .noop => .noop
  | .manager n m => .manager n (m.insert k n)

def unregisterClient (k : ClientId) : ClusterPort → ClusterPort
  | .noop => .noop
  | .manager n m => .manager n (m.erase k)

def getNodeForClient (k : ClientId) : ClusterPort → Option NodeId
  | .noop => none
  | .manager _ m => m.lookup k

def getLocalNodeId : ClusterPort → Option NodeId
  | .noop => some "local"
  | .manager n _ => some n

def findNodeForTitle (ring : Title → Option NodeId) (title : Title) :
    ClusterPort → Option NodeId
  | .noop => some "local"
  | .manager _ _ => ring title

theorem node_register_other (p : ClusterPort) (j k : ClientId) (h : k ≠ j) :
    (p.registerClient j).getNodeForClient k = p.getNodeForClient k := by
  cases p with
  | noop => rfl
  | manager n m => exact AList.lookup_insert_ne h

theorem node_unregister (p : ClusterPort) (j k : ClientId) :
    (p.unregisterClient j).getNodeForClient k =
      if k = j then none else p.getNodeForClient k := by
  cases p with
  | noop => simp [unregisterClient, getNodeForClient]
  | manager n m =>
    simp only [unregisterClient, getNodeForClient]
    split_ifs with hk
    · rw [hk, AList.lookup_erase]
    · rw [AList.lookup_erase_ne hk]

end ClusterPort

structure PendingAckInfo where
  sourceClientId : ClientId
  title : Title
  timestamp : UInt64
  isGroup : Bool
  deriving DecidableEq, Repr

inductive ForwardType where
  | unicast | group | broadcast
  deriving DecidableEq, Repr

structure ForwardRequest where
  sourceClientId : ClientId
  targetClientId : ClientId
  title : Title
  payload : Bytes
  msgType : ForwardType
  deriving DecidableEq, Repr

inductive FwdResult where
  | delivered
  | noPeerForTitle
  | peerUnreachable (reason : String)
  deriving DecidableEq, Repr

inductive ClusterMessage where
  | titleRegister (nodeId : NodeId) (title : Title) (clientId : ClientId)
  | titleUnregister (nodeId : NodeId) (title : Title)
  deriving DecidableEq, Repr

/-- One call of a sender, with its outcome. -/
structure Sent where
  sender : SenderRef
  buf : Bytes
  ok : Bool
  deriving DecidableEq, Repr

structure Env where
  now : UInt64
  /-- The outcome of the n-th call of a sender since the server started. -/
  sendOk : ℕ → Bool
  draw : ℕ
  messageId : MessageId
  ring : Title → Option NodeId
  forward : NodeId → ForwardRequest → FwdResult

/-- `db` is absent when persistence is disabled or the store did not open. -/
structure Server where
  config : RexSystemConfig
  clients : Clients
  registry : ClientRegistryImpl
  cluster : ClusterPort
  db : Option SledDb
  pendingAcks : AList (fun _ : MessageId => PendingAckInfo)
  groupIndex : BitVec 64
  sent : List Sent
  closedSenders : List SenderRef
  broadcasts : List ClusterMessage
  forwards : List (NodeId × ForwardRequest)

namespace Server

def live (k : ClientId) (s : Server) : Option ClientRef := s.registry.findSomeById k

def ghost (k : ClientId) (s : Server) : Option (List Title × UInt64) := s.registry.ghosts.lookup k

def node (k : ClientId) (s : Server) : Option NodeId := s.cluster.getNodeForClient k

def row (k : ClientId) (s : Server) : Option PersistedClient := s.db.bind (fun db => db.row k)

/-- A client's send: the object's present sender is called, and a success
counts as a sign of life. -/
def sendBuf (env : Env) (c : ClientRef) (buf : Bytes) (s : Server) : Bool × Server :=
  let ok := env.sendOk s.sent.length
  let s := { s with sent := s.sent++[⟨(s.clients c).sender,buf,ok⟩] }
  if ok then (true,{ s with clients := modify s.clients c (.updateLastRecv env.now) })
  else (false,s)

def closeClient (c : ClientRef) (s : Server) : Server :=
  { s with closedSenders := s.closedSenders++[(s.clients c).sender] }

def addClient (env : Env) (c : ClientRef) (s : Server) : Server :=
  let id := (s.clients c).id
  let ghostUntil := saturatingAdd env.now s.config.ghostTtlSecs
  { s with
    registry := (s.registry.claimGhost id).addClient s.clients c
    cluster := s.cluster.registerClient id
    db := s.db.map (.save ⟨id,(s.clients c).subscribedTitles,env.now,ghostUntil⟩) }

def removeClient (k : ClientId) (s : Server) : Option ClientRef × Server :=
  match s.registry.removeClient s.clients k with
  | (none,_) => (none,s)
  | (some c,registry) =>
    let s := { s with registry := registry, cluster := s.cluster.unregisterClient k }
    let s := s.closeClient c
    (some c,{ s with db := s.db.map (.remove k) })

def registerPendingAck (env : Env) (m : MessageId) (source : ClientId) (title : Title)
    (isGroup : Bool) (s : Server) : Server :=
  if !s.config.ackEnabled then s
  else { s with pendingAcks := s.pendingAcks.insert m ⟨source,title,env.now,isGroup⟩ }

def takePendingAck (m : MessageId) (s : Server) : Option PendingAckInfo × Server :=
  (s.pendingAcks.lookup m,{ s with pendingAcks := s.pendingAcks.erase m })

def setupMessageAck (env : Env) (f : RexData) (source : ClientId) (title : Title)
    (isGroup : Bool) (s : Server) : Except Fault (RexData × Server) := do
  if !s.config.ackEnabled then return (f,s)
  let present ← f.messageId
  let m := if present ≠ 0 then present else env.messageId
  let f ← f.setMessageId m
  return (f,s.registerPendingAck env m source title isGroup)

def getOfflineMessages (env : Env) (k : ClientId) (s : Server) : List OfflineMessage :=
  match s.db with
  | none => []
  | some db => db.getOfflineMessages env.now k

def clearOfflineMessages (k : ClientId) (s : Server) : Server :=
  { s with db := s.db.map (.clearOfflineMessages k) }

inductive RoutePlan where
  | here (target : ClientRef)
  | remote (node : NodeId)
  | nowhere

/-- `ClusterRouter::route`: local subscribers first, then the route table. -/
def route (env : Env) (title : Title) (exclude : Option ClientId) (s : Server) : RoutePlan :=
  match s.registry.findOneByTitle s.clients env.draw title exclude with
  | some c => .here c
  | none => match s.cluster.findNodeForTitle env.ring title with
    | some n => .remote n
    | none => .nowhere

def expireGhost (k : ClientId) (s : Server) : Server :=
  { s with
    registry := s.registry.removeGhost k
    cluster := s.cluster.unregisterClient k
    db := s.db.map (.clearOfflineMessages k) }

/-- The janitor's sweep over expired rows. -/
def cleanupExpiredGhosts (now : UInt64) (s : Server) : Server :=
  match s.db with
  | none => s
  | some db =>
    let taken := db.takeExpiredGhosts now
    taken.1.foldl (fun s k => s.expireGhost k) { s with db := some taken.2 }

/-- Removal of one stale client by the janitor, through the bare registry. -/
def evict (k : ClientId) (s : Server) : Server :=
  match s.registry.removeClient s.clients k with
  | (none,_) => s
  | (some c,registry) => { s with registry := registry }.closeClient c

def cleanupInactiveClients (now : UInt64) (s : Server) : Server :=
  (s.registry.takeInactive s.clients now s.config.clientTimeout).foldl (fun s k => s.evict k) s

def expiredAcks (now : UInt64) (s : Server) : List (MessageId × ClientId) :=
  (s.pendingAcks.entries.filter
    (fun e => s.config.ackTimeout < saturatingSub now e.2.timestamp)).map
      (fun e => (e.1,e.2.sourceClientId))

def cleanupExpiredAcks (env : Env) (s : Server) : Except Fault Server :=
  if !s.config.ackEnabled then .ok s
  else
    let expired := s.expiredAcks env.now
    let s := { s with pendingAcks := expired.foldl (fun m e => m.erase e.1) s.pendingAcks }
    expired.foldlM (fun s e => match s.live e.2 with
      | none => .ok s
      | some c => do
        let f ← ((⟨e.1⟩ : AckData).toRexData e.2 .ackReturn).setRetcode .ackTimeout
        return (s.sendBuf env c f.content).2) s

def restoreRow (s : Server) (p : PersistedClient) : Server :=
  match s.registry.addGhost p.clientId p.titles p.ghostUntil with
  | .error _ => s
  | .ok registry =>
    { s with registry := registry, cluster := s.cluster.registerClient p.clientId }

/-- The restore loop of `open_server`. -/
def restore (s : Server) : Server :=
  if s.config.persistenceEnabled then
    match s.db with
    | none => s
    | some db => db.loadAll.foldl restoreRow s
  else s

/-- A freshly built server on a database left by earlier ones. -/
def build (config : RexSystemConfig) (cluster : ClusterPort) (db : Option SledDb)
    (clients : Clients) : Server :=
  { config := config
    clients := clients
    registry := .new
    cluster := cluster
    db := if config.persistenceEnabled then db else none
    pendingAcks := ∅
    groupIndex := 0
    sent := []
    closedSenders := []
    broadcasts := []
    forwards := [] }

theorem live_def (k : ClientId) (s : Server) : s.live k = s.registry.findSomeById k := rfl

theorem remove_client_eq (k : ClientId) (s : Server) :
    (s.removeClient k).2 = match s.live k with
      | none => s
      | some c =>
        { s with
          registry := (s.registry.removeClient s.clients k).2
          cluster := s.cluster.unregisterClient k
          closedSenders := s.closedSenders++[(s.clients c).sender]
          db := s.db.map (.remove k) } := by
  have hfst := ClientRegistryImpl.removed_client s.clients k s.registry
  unfold removeClient
  rw [live_def, ← hfst]
  rcases s.registry.removeClient s.clients k with ⟨_ | c, r⟩
  · rfl
  · rfl

theorem evict_eq (k : ClientId) (s : Server) :
    s.evict k = match s.live k with
      | none => s
      | some c =>
        { s with
          registry := (s.registry.removeClient s.clients k).2
          closedSenders := s.closedSenders++[(s.clients c).sender] } := by
  have hfst := ClientRegistryImpl.removed_client s.clients k s.registry
  unfold evict
  rw [live_def, ← hfst]
  rcases s.registry.removeClient s.clients k with ⟨_ | c, r⟩
  · rfl
  · rfl

section Removal
variable (k : ClientId) (s : Server)

theorem remove_client_none (h : s.live k = none) : (s.removeClient k).2 = s := by
  rw [remove_client_eq, h]

@[simp] theorem clients_remove_client : (s.removeClient k).2.clients = s.clients := by
  rw [remove_client_eq]
  cases s.live k <;> rfl

@[simp] theorem config_remove_client : (s.removeClient k).2.config = s.config := by
  rw [remove_client_eq]
  cases s.live k <;> rfl

theorem registry_remove_client :
    (s.removeClient k).2.registry = (s.registry.removeClient s.clients k).2 := by
  rw [remove_client_eq]
  cases h : s.live k with
  | none => exact (ClientRegistryImpl.remove_client_none s.clients k s.registry h).symm
  | some c => rfl

theorem live_remove_client (j : ClientId) :
    (s.removeClient k).2.live j = if j = k then none else s.live j := by
  rw [live_def, registry_remove_client, ClientRegistryImpl.find_remove_client, live_def]

@[simp] theorem ghost_remove_client (j : ClientId) : (s.removeClient k).2.ghost j = s.ghost j := by
  rw [ghost, registry_remove_client, ClientRegistryImpl.ghosts_remove_client, ghost]

theorem node_remove_client (j : ClientId) :
    (s.removeClient k).2.node j =
      if j = k ∧ s.live k ≠ none then none else s.node j := by
  rw [remove_client_eq]
  cases h : s.live k with
  | none => simp
  | some c => simp [node, ClusterPort.node_unregister]

theorem row_remove_client (j : ClientId) :
    (s.removeClient k).2.row j =
      if j = k ∧ s.live k ≠ none then none else s.row j := by
  rw [remove_client_eq]
  cases h : s.live k with
  | none => simp
  | some c =>
    cases hd : s.db with
    | none => simp [row, hd]
    | some db => simp [row, hd, SledDb.row_remove]

@[simp] theorem stored_remove_client :
    (s.removeClient k).2.db.isSome = s.db.isSome := by
  rw [remove_client_eq]
  cases s.live k <;> simp

theorem closed_remove_client :
    (s.removeClient k).2.closedSenders =
      s.closedSenders++((s.live k).map (fun c => (s.clients c).sender)).toList := by
  rw [remove_client_eq]
  cases s.live k with
  | none => simp
  | some c => simp

@[simp] theorem clients_evict : (s.evict k).clients = s.clients := by
  rw [evict_eq]
  cases s.live k <;> rfl

@[simp] theorem config_evict : (s.evict k).config = s.config := by
  rw [evict_eq]
  cases s.live k <;> rfl

@[simp] theorem cluster_evict : (s.evict k).cluster = s.cluster := by
  rw [evict_eq]
  cases s.live k <;> rfl

@[simp] theorem db_evict : (s.evict k).db = s.db := by
  rw [evict_eq]
  cases s.live k <;> rfl

theorem registry_evict : (s.evict k).registry = (s.registry.removeClient s.clients k).2 := by
  rw [evict_eq]
  cases h : s.live k with
  | none => exact (ClientRegistryImpl.remove_client_none s.clients k s.registry h).symm
  | some c => rfl

theorem live_evict (j : ClientId) :
    (s.evict k).live j = if j = k then none else s.live j := by
  rw [live_def, registry_evict, ClientRegistryImpl.find_remove_client, live_def]

@[simp] theorem ghost_evict (j : ClientId) : (s.evict k).ghost j = s.ghost j := by
  rw [ghost, registry_evict, ClientRegistryImpl.ghosts_remove_client, ghost]

end Removal

section Addition
variable (env : Env) (c : ClientRef) (s : Server)

@[simp] theorem clients_add_client : (s.addClient env c).clients = s.clients := rfl

theorem live_add_client (k : ClientId) :
    (s.addClient env c).live k = if k = (s.clients c).id then some c else s.live k :=
  ClientRegistryImpl.find_add_client s.clients c _ k

theorem ghost_add_client (k : ClientId) :
    (s.addClient env c).ghost k = if k = (s.clients c).id then none else s.ghost k := by
  simp only [ghost, addClient, ClientRegistryImpl.addClient, ClientRegistryImpl.claimGhost]
  split_ifs with hk
  · rw [hk, AList.lookup_erase]
  · rw [AList.lookup_erase_ne hk]

theorem node_add_client_other (k : ClientId) (hk : k ≠ (s.clients c).id) :
    (s.addClient env c).node k = s.node k :=
  ClusterPort.node_register_other s.cluster _ k hk

theorem row_add_client (k : ClientId) :
    (s.addClient env c).row k =
      if k = (s.clients c).id ∧ s.db.isSome then
        some ⟨k,(s.clients c).subscribedTitles,env.now,
          saturatingAdd env.now s.config.ghostTtlSecs⟩
      else s.row k := by
  simp only [row, addClient]
  cases hd : s.db with
  | none => simp
  | some db =>
    simp only [Option.map_some, Option.bind_some, Option.isSome_some, and_true, SledDb.row_save]
    split_ifs with hk
    · rw [hk]
    · rfl

@[simp] theorem stored_add_client : (s.addClient env c).db.isSome = s.db.isSome := by
  simp [addClient]

end Addition

end Server

end RexMq.ServerState
