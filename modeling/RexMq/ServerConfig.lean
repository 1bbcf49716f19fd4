import Mathlib.Tactic.Common
import RexMq.ClusterMessages
import RexMq.ServerState

/-!
# The configuration of a server

The configuration file has sections; `validate` looks at them one after the
other and reports the first setting that is out of range. What a server is
built from is a second, flat record, filled from the sections without looking
at their units. The address is printed by a function of the standard library,
which is left open.
-/

set_option autoImplicit false

namespace RexMq.ServerConfig
open RexMq.ClientRegistry RexMq.PersistentStore RexMq.ServerState RexMq.ClusterMessages

inductive Protocol where
  | tcp
  | quic
  | webSocket
  deriving DecidableEq, Repr

def SocketAddr.port : SocketAddr → BitVec 16
  | .v4 _ port => port
  | .v6 _ port => port

structure ServerSection where
  serverId : String
  shutdownGrace : UInt64
  checkInterval : UInt64
  clientTimeout : UInt64
  deriving DecidableEq, Repr

structure EndpointConfig where
  protocol : Protocol
  address : SocketAddr
  enabled : Bool
  maxBufferSize : UInt64
  maxConcurrentHandlers : UInt64
  deriving DecidableEq, Repr

structure ClusterSection where
  enabled : Bool
  clusterAddr : Option SocketAddr
  nodeId : String
  seedNodes : List SocketAddr
  deriving DecidableEq, Repr

structure OfflineSection where
  enabled : Bool
  ttlSecs : UInt64
  ghostTtlSecs : UInt64
  deriving DecidableEq, Repr

structure PersistenceSection where
  enabled : Bool
  path : String
  offline : OfflineSection
  deriving DecidableEq, Repr

structure AckSection where
  enabled : Bool
  timeoutMs : UInt64
  retries : UInt32
  deriving DecidableEq, Repr

structure ObservabilityConfig where
  adminAddr : SocketAddr
  deriving DecidableEq, Repr

structure RexConfig where
  server : ServerSection
  endpoints : List EndpointConfig
  cluster : ClusterSection
  persistence : PersistenceSection
  ack : AckSection
  observability : ObservabilityConfig
  deriving DecidableEq, Repr

/-- The errors of the validation pass. -/
inductive ConfigError where
  | invalidValue (table key value reason : String)
  | missingRequired (table key : String)
  | semantic (text : String)
  deriving DecidableEq, Repr

/-- An early return: the error, if the condition is met. -/
structure Check where
  bad : Bool
  error : ConfigError

def firstError : List Check → Except ConfigError Unit
  | [] => .ok ()
  | c::cs => if c.bad then .error c.error else firstError cs

theorem first_error_ok_iff (cs : List Check) :
    firstError cs = .ok () ↔ ∀ c ∈ cs, c.bad = false := by
  induction cs with
  | nil => simp [firstError]
  | cons c cs ih => cases hc : c.bad <;> simp [firstError, hc, ih]

theorem first_error_mem (cs : List Check) (e : ConfigError) (h : firstError cs = .error e) :
    ∃ c ∈ cs, c.bad = true ∧ c.error = e := by
  induction cs with
  | nil => cases h
  | cons c cs ih =>
    rw [firstError] at h
    split_ifs at h with hc
    · cases h
      exact ⟨c,List.mem_cons_self,hc,rfl⟩
    · obtain ⟨d, hd, hrest⟩ := ih h
      exact ⟨d,List.mem_cons_of_mem c hd,hrest⟩

section Validation
variable (render : SocketAddr → String) (r : RexConfig)

def serverChecks : List Check :=
  [⟨r.server.serverId.isEmpty || decide (64 < r.server.serverId.utf8ByteSize),
      .invalidValue "server" "server_id" r.server.serverId "must be non-empty and ≤ 64 chars"⟩,
    ⟨600 < r.server.shutdownGrace,
      .invalidValue "server" "shutdown_grace" (toString r.server.shutdownGrace) "must be ≤ 600"⟩,
    ⟨r.server.checkInterval == 0 || decide (3600 < r.server.checkInterval),
      .invalidValue "server" "check_interval" (toString r.server.checkInterval)
        "must be in [1, 3600]"⟩,
    ⟨r.server.clientTimeout == 0 || decide (86400 < r.server.clientTimeout),
      .invalidValue "server" "client_timeout" (toString r.server.clientTimeout)
        "must be in [1, 86400]"⟩,
    ⟨r.server.clientTimeout < r.server.checkInterval,
      .semantic ("server.check_interval ("++toString r.server.checkInterval++
        ") must be ≤ client_timeout ("++toString r.server.clientTimeout++")")⟩]

def validateServer : Except ConfigError Unit := firstError (serverChecks r)

def endpointTable (idx : ℕ) : String := "endpoints["++toString idx++"]"

def endpointChecks (ep : EndpointConfig × ℕ) : List Check :=
  [⟨decide (ep.1.maxBufferSize < 1024) || decide (64*1024*1024 < ep.1.maxBufferSize),
      .invalidValue (endpointTable ep.2) "max_buffer_size" (toString ep.1.maxBufferSize)
        "must be in [1024, 64 MiB]"⟩,
    ⟨ep.1.maxConcurrentHandlers == 0 || decide (65535 < ep.1.maxConcurrentHandlers),
      .invalidValue (endpointTable ep.2) "max_concurrent_handlers"
        (toString ep.1.maxConcurrentHandlers) "must be in [1, 65535]"⟩]

def validateEndpoints : Except ConfigError Unit :=
  let enabledCount := r.endpoints.countP EndpointConfig.enabled
  firstError (⟨enabledCount == 0,
    .semantic "at least one [[endpoints]] entry must have enabled = true"⟩::
      r.endpoints.zipIdx.flatMap endpointChecks)

def clusterChecks : List Check :=
  [⟨r.cluster.enabled && r.cluster.clusterAddr.isNone,
      .semantic "cluster.enabled = true but cluster.cluster_addr is not set"⟩,
    ⟨64 < r.cluster.seedNodes.length,
      .invalidValue "cluster" "seed_nodes" (toString r.cluster.seedNodes.length)
        "must be ≤ 64 entries"⟩,
    ⟨decide (64 < r.cluster.nodeId.utf8ByteSize) || decide (' ' ∈ r.cluster.nodeId.toList),
      .invalidValue "cluster" "node_id" r.cluster.nodeId
        "must be ≤ 64 chars and contain no whitespace"⟩]

def validateCluster : Except ConfigError Unit := firstError (clusterChecks r)

def ttlRange (secs : UInt64) : Bool := decide (60 ≤ secs) && decide (secs ≤ 30*86400)

def persistenceChecks : List Check :=
  [⟨r.persistence.path.isEmpty, .missingRequired "persistence" "path"⟩,
    ⟨!ttlRange r.persistence.offline.ttlSecs,
      .invalidValue "persistence.offline" "ttl_secs" (toString r.persistence.offline.ttlSecs)
        "must be in [60, 30d]"⟩,
    ⟨!ttlRange r.persistence.offline.ghostTtlSecs,
      .invalidValue "persistence.offline" "ghost_ttl_secs"
        (toString r.persistence.offline.ghostTtlSecs) "must be in [60, 30d]"⟩]

def validatePersistence : Except ConfigError Unit := firstError (persistenceChecks r)

def ackChecks : List Check :=
  [⟨decide (r.ack.timeoutMs < 10) || decide (60000 < r.ack.timeoutMs),
      .invalidValue "ack" "timeout_ms" (toString r.ack.timeoutMs) "must be in [10, 60000]"⟩,
    ⟨16 < r.ack.retries,
      .invalidValue "ack" "retries" (toString r.ack.retries) "must be ≤ 16"⟩]

def validateAck : Except ConfigError Unit := firstError (ackChecks r)

def validateObservability : Except ConfigError Unit :=
  firstError [⟨SocketAddr.port r.observability.adminAddr == 0,
    .invalidValue "observability" "admin_addr" (render r.observability.adminAddr)
      "port 0 (any) is not allowed for the admin server"⟩]

def validateCrossSection : Except ConfigError Unit :=
  firstError [⟨!r.persistence.enabled && r.persistence.offline.enabled,
    .semantic "persistence.offline.enabled requires persistence.enabled = true"⟩]

def validate : Except ConfigError Unit := do
  validateServer r
  validateEndpoints r
  validateCluster r
  validatePersistence r
  validateAck r
  validateObservability render r
  validateCrossSection r

end Validation

/-- What a configuration has to satisfy, setting by setting. -/
structure Accepted (r : RexConfig) : Prop where
  serverId : r.server.serverId ≠ "" ∧ r.server.serverId.utf8ByteSize ≤ 64
  shutdownGrace : r.server.shutdownGrace ≤ 600
  checkInterval : r.server.checkInterval ≠ 0 ∧ r.server.checkInterval ≤ 3600
  clientTimeout : r.server.clientTimeout ≠ 0 ∧ r.server.clientTimeout ≤ 86400
  checkedInTime : r.server.checkInterval ≤ r.server.clientTimeout
  served : ∃ ep ∈ r.endpoints, ep.enabled = true
  bufferSizes : ∀ ep ∈ r.endpoints, 1024 ≤ ep.maxBufferSize ∧ ep.maxBufferSize ≤ 64*1024*1024
  handlers : ∀ ep ∈ r.endpoints,
    ep.maxConcurrentHandlers ≠ 0 ∧ ep.maxConcurrentHandlers ≤ 65535
  clusterAddr : r.cluster.enabled = true → r.cluster.clusterAddr.isSome
  seedNodes : r.cluster.seedNodes.length ≤ 64
  nodeId : r.cluster.nodeId.utf8ByteSize ≤ 64 ∧ ' ' ∉ r.cluster.nodeId.toList
  path : r.persistence.path ≠ ""
  ttlSecs : ttlRange r.persistence.offline.ttlSecs = true
  ghostTtlSecs : ttlRange r.persistence.offline.ghostTtlSecs = true
  timeoutMs : 10 ≤ r.ack.timeoutMs ∧ r.ack.timeoutMs ≤ 60000
  retries : r.ack.retries ≤ 16
  adminPort : SocketAddr.port r.observability.adminAddr ≠ 0
  stored : r.persistence.offline.enabled = true → r.persistence.enabled = true

theorem bind_unit_ok_iff {ε : Type} (x y : Except ε Unit) :
    (x >>= fun _ => y) = .ok () ↔ x = .ok () ∧ y = .ok () := by
  cases x with
  | error e => simp [bind, Except.bind]
  | ok u => simp [bind, Except.bind]

section Acceptance
variable (r : RexConfig)

theorem server_ok_iff : validateServer r = .ok () ↔
    (r.server.serverId ≠ "" ∧ r.server.serverId.utf8ByteSize ≤ 64) ∧
    r.server.shutdownGrace ≤ 600 ∧
    (r.server.checkInterval ≠ 0 ∧ r.server.checkInterval ≤ 3600) ∧
    (r.server.clientTimeout ≠ 0 ∧ r.server.clientTimeout ≤ 86400) ∧
    r.server.checkInterval ≤ r.server.clientTimeout := by
  rw [validateServer, first_error_ok_iff]
  simp [serverChecks]

theorem endpoint_checks_pass_iff (ep : EndpointConfig × ℕ) :
    (∀ c ∈ endpointChecks ep, c.bad = false) ↔
      (1024 ≤ ep.1.maxBufferSize ∧ ep.1.maxBufferSize ≤ 64*1024*1024) ∧
        ep.1.maxConcurrentHandlers ≠ 0 ∧ ep.1.maxConcurrentHandlers ≤ 65535 := by
  simp [endpointChecks]

theorem endpoints_ok_iff : validateEndpoints r = .ok () ↔
    (∃ ep ∈ r.endpoints, ep.enabled = true) ∧
    (∀ ep ∈ r.endpoints, 1024 ≤ ep.maxBufferSize ∧ ep.maxBufferSize ≤ 64*1024*1024) ∧
    ∀ ep ∈ r.endpoints, ep.maxConcurrentHandlers ≠ 0 ∧ ep.maxConcurrentHandlers ≤ 65535 := by
  have hcount : (r.endpoints.countP EndpointConfig.enabled == 0) = false ↔
      ∃ ep ∈ r.endpoints, ep.enabled = true := by simp
  have hloop : (∀ c ∈ r.endpoints.zipIdx.flatMap endpointChecks, c.bad = false) ↔
      ∀ ep ∈ r.endpoints, (1024 ≤ ep.maxBufferSize ∧ ep.maxBufferSize ≤ 64*1024*1024) ∧
        ep.maxConcurrentHandlers ≠ 0 ∧ ep.maxConcurrentHandlers ≤ 65535 := by
    rw [List.forall_mem_flatMap]
    simp only [endpoint_checks_pass_iff]
    -- the index is only in the text of the errors
    nth_rewrite 2 [← List.zipIdx_map_fst 0 r.endpoints]
    rw [List.forall_mem_map]
  rw [validateEndpoints, first_error_ok_iff, List.forall_mem_cons, hcount, hloop, ← forall₂_and]

theorem cluster_ok_iff : validateCluster r = .ok () ↔
    (r.cluster.enabled = true → r.cluster.clusterAddr.isSome) ∧
    r.cluster.seedNodes.length ≤ 64 ∧
    r.cluster.nodeId.utf8ByteSize ≤ 64 ∧ ' ' ∉ r.cluster.nodeId.toList := by
  rw [validateCluster, first_error_ok_iff]
  simp [clusterChecks]

theorem persistence_ok_iff : validatePersistence r = .ok () ↔
    r.persistence.path ≠ "" ∧ ttlRange r.persistence.offline.ttlSecs = true ∧
    ttlRange r.persistence.offline.ghostTtlSecs = true := by
  rw [validatePersistence, first_error_ok_iff]
  simp [persistenceChecks]

theorem ack_ok_iff : validateAck r = .ok () ↔
    (10 ≤ r.ack.timeoutMs ∧ r.ack.timeoutMs ≤ 60000) ∧ r.ack.retries ≤ 16 := by
  rw [validateAck, first_error_ok_iff]
  simp [ackChecks]

theorem validate_ok_iff (render : SocketAddr → String) :
    validate render r = .ok () ↔ Accepted r := by
  have hobs : validateObservability render r = .ok () ↔
      SocketAddr.port r.observability.adminAddr ≠ 0 := by
    rw [validateObservability, first_error_ok_iff]
    simp
  have hcross : validateCrossSection r = .ok () ↔
      (r.persistence.offline.enabled = true → r.persistence.enabled = true) := by
    rw [validateCrossSection, first_error_ok_iff]
    cases r.persistence.enabled <;> simp
  rw [validate]
  simp only [bind_unit_ok_iff, server_ok_iff, endpoints_ok_iff, cluster_ok_iff, persistence_ok_iff,
    ack_ok_iff, hobs, hcross]
  constructor
  · rintro ⟨⟨h1, h2, h3, h4, h5⟩, ⟨h6, h7, h8⟩, ⟨h9, h10, h11⟩, ⟨h12, h13, h14⟩, ⟨h15, h16⟩, h17,
      h18⟩
    exact ⟨h1,h2,h3,h4,h5,h6,h7,h8,h9,h10,h11,h12,h13,h14,h15,h16,h17,h18⟩
  · intro h
    exact ⟨⟨h.1,h.2,h.3,h.4,h.5⟩,⟨h.6,h.7,h.8⟩,⟨h.9,h.10,h.11⟩,⟨h.12,h.13,h.14⟩,
      ⟨h.15,h.16⟩,h.17,h.18⟩

end Acceptance

section Rejection
variable (render : SocketAddr → String) (r : RexConfig)

/-- The settings with a range: section, key and the text of the value. -/
def settings : List (String × String × String) :=
  [("server","server_id",r.server.serverId),
    ("server","shutdown_grace",toString r.server.shutdownGrace),
    ("server","check_interval",toString r.server.checkInterval),
    ("server","client_timeout",toString r.server.clientTimeout)]++
  r.endpoints.zipIdx.flatMap (fun ep =>
    [(endpointTable ep.2,"max_buffer_size",toString ep.1.maxBufferSize),
      (endpointTable ep.2,"max_concurrent_handlers",toString ep.1.maxConcurrentHandlers)])++
  [("cluster","seed_nodes",toString r.cluster.seedNodes.length),
    ("cluster","node_id",r.cluster.nodeId),
    ("persistence.offline","ttl_secs",toString r.persistence.offline.ttlSecs),
    ("persistence.offline","ghost_ttl_secs",toString r.persistence.offline.ghostTtlSecs),
    ("ack","timeout_ms",toString r.ack.timeoutMs),
    ("ack","retries",toString r.ack.retries),
    ("observability","admin_addr",render r.observability.adminAddr)]

theorem bind_unit_error {ε : Type} (x y : Except ε Unit) (e : ε)
    (h : (x >>= fun _ => y) = .error e) : x = .error e ∨ y = .error e := by
  cases x with
  | error e' => exact .inl h
  | ok u => exact .inr h

/-- A rejected value is reported under its own section and key, and as it
stands in the configuration. -/
theorem invalid_value_is_setting (table key value reason : String)
    (h : validate render r = .error (.invalidValue table key value reason)) :
    (table,key,value) ∈ settings render r := by
  have hmem : ∀ cs : List Check, firstError cs = .error (.invalidValue table key value reason) →
      ∃ c ∈ cs, c.error = .invalidValue table key value reason := by
    intro cs hcs
    obtain ⟨c, hc, -, he⟩ := first_error_mem cs _ hcs
    exact ⟨c,hc,he⟩
  unfold settings
  rcases bind_unit_error _ _ _ h with h | h
  · obtain ⟨c, hc, he⟩ := hmem _ h
    simp only [serverChecks, List.mem_cons, List.not_mem_nil, or_false] at hc
    rcases hc with rfl | rfl | rfl | rfl | rfl <;> cases he <;> simp
  rcases bind_unit_error _ _ _ h with h | h
  · obtain ⟨c, hc, he⟩ := hmem _ h
    rcases List.mem_cons.mp hc with rfl | hc
    · cases he
    · obtain ⟨ep, hep, hc⟩ := List.mem_flatMap.mp hc
      simp only [endpointChecks, List.mem_cons, List.not_mem_nil, or_false] at hc
      apply List.mem_append_left
      apply List.mem_append_right
      refine List.mem_flatMap.mpr ⟨ep,hep,?_⟩
      rcases hc with rfl | rfl <;> cases he <;> simp
  rcases bind_unit_error _ _ _ h with h | h
  · obtain ⟨c, hc, he⟩ := hmem _ h
    simp only [clusterChecks, List.mem_cons, List.not_mem_nil, or_false] at hc
    rcases hc with rfl | rfl | rfl <;> cases he <;> simp
  rcases bind_unit_error _ _ _ h with h | h
  · obtain ⟨c, hc, he⟩ := hmem _ h
    simp only [persistenceChecks, List.mem_cons, List.not_mem_nil, or_false] at hc
    rcases hc with rfl | rfl | rfl <;> cases he <;> simp
  rcases bind_unit_error _ _ _ h with h | h
  · obtain ⟨c, hc, he⟩ := hmem _ h
    simp only [ackChecks, List.mem_cons, List.not_mem_nil, or_false] at hc
    rcases hc with rfl | rfl <;> cases he <;> simp
  rcases bind_unit_error _ _ _ h with h | h
  · obtain ⟨c, hc, he⟩ := hmem _ h
    cases List.mem_singleton.mp hc
    cases he
    simp
  · obtain ⟨c, hc, he⟩ := hmem _ h
    cases List.mem_singleton.mp hc
    cases he

end Rejection

def unspecified (port : BitVec 16) : SocketAddr := .v4 [0,0,0,0] port

def defaultEndpoint (protocol : Protocol) (port : BitVec 16) : EndpointConfig :=
  ⟨protocol,unspecified port,true,8*1024*1024,1000⟩

def RexConfig.default : RexConfig :=
  { server := ⟨"rex-server",10,15,45⟩
    endpoints := [defaultEndpoint .tcp 8881,defaultEndpoint .quic 8882,
      defaultEndpoint .webSocket 8883]
    cluster := ⟨false,some (unspecified 19882),"auto",[]⟩
    persistence := ⟨true,"./.rex_sled",⟨true,7*86400,86400⟩⟩
    ack := ⟨false,5000,3⟩
    observability := ⟨.v4 [127,0,0,1] 9090⟩ }

theorem default_accepted : Accepted RexConfig.default := by
  constructor
  all_goals decide +kernel

/-- `RexSystemConfig` with the fields that only some of its users read. -/
structure SystemConfig extends RexSystemConfig where
  serverId : String
  checkInterval : UInt64
  persistencePath : String
  offlineEnabled : Bool
  offlineTtl : UInt64
  ackRetries : UInt32
  deriving DecidableEq, Repr

/-- `From<&RexConfig> for RexSystemConfig`. -/
def SystemConfig.ofRexConfig (r : RexConfig) : SystemConfig :=
  { serverId := r.server.serverId
    checkInterval := r.server.checkInterval
    clientTimeout := r.server.clientTimeout
    persistenceEnabled := r.persistence.enabled
    persistencePath := r.persistence.path
    offlineEnabled := r.persistence.offline.enabled
    offlineTtl := r.persistence.offline.ttlSecs
    ackEnabled := r.ack.enabled
    ackTimeout := r.ack.timeoutMs
    ackRetries := r.ack.retries
    ghostTtlSecs := r.persistence.offline.ghostTtlSecs }

/-- `build_services`: of the paths and times of the configuration, the offline
buffer is given none. `opened` is what opening the database gives. -/
def buildServices (config : SystemConfig) (opened : String → Option SledDb)
    (cluster : ClusterPort) (clients : Clients) : Server :=
  Server.build config.toRexSystemConfig cluster (opened config.persistencePath) clients

end RexMq.ServerConfig
