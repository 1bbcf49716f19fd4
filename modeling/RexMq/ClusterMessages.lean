import Mathlib.Tactic.Common
import RexMq.ByteCodec
import RexMq.ServerState

/-!
# Messages between cluster nodes

The message type of the cluster with its encoding: variant numbers are words
of four bytes, integers are little-endian, and strings and lists carry their
length in eight bytes. Decoding ignores bytes behind the message. The values
that fit are those of the source's types, whose lengths are machine words.
-/

set_option autoImplicit false

namespace RexMq.ClusterMessages
open RexMq.ByteWords RexMq.ByteCodec RexMq.ClientRegistry
open RexMq.ServerState (NodeId)

inductive SocketAddr where
  | v4 (ip : Bytes) (port : BitVec 16)
  | v6 (ip : Bytes) (port : BitVec 16)
  deriving DecidableEq, Repr

structure NodeInfo where
  nodeId : NodeId
  listenAddr : SocketAddr
  lastHeartbeat : BitVec 64
  deriving DecidableEq, Repr

structure ForwardMessage where
  forwardId : BitVec 64
  originalSource : ClientId
  targetClientId : ClientId
  title : Title
  payload : Bytes
  isGroup : Bool
  isBroadcast : Bool
  requireAck : Bool
  deriving DecidableEq, Repr

structure ForwardAckMessage where
  forwardId : BitVec 64
  fromNodeId : NodeId
  originalSource : ClientId
  success : Bool
  error : Option String
  deriving DecidableEq, Repr

inductive ClusterMessage where
  | join (node : NodeInfo)
  | nodeList (nodes : List NodeInfo)
  | heartbeat (leaderId : NodeId)
  | forward (msg : ForwardMessage)
  | forwardAck (ack : ForwardAckMessage)
  | ping (nodeId : String) (timestamp : BitVec 64)
  | titleRegister (nodeId : String) (title : Title) (clientId : ClientId)
  | titleUnregister (nodeId : String) (title : Title)
  deriving DecidableEq, Repr

namespace Coders
open Coder

variable {α β : Type}

def variant (n : ℕ) (c : Coder α) (a : α) : Bytes := (word 4).put (BitVec.ofNat 32 n)++c.put a

/-- Reading a variant number and handing over to the arm it names. -/
def getVariant (arm : ℕ → Bytes → Option (β × Bytes)) (bs : Bytes) : Option (β × Bytes) :=
  ((word 4).get bs).bind (fun r => arm r.1.toNat r.2)

def getAs (c : Coder α) (k : α → β) (bs : Bytes) : Option (β × Bytes) :=
  (c.get bs).map (fun r => (k r.1,r.2))

theorem get_variant (arm : ℕ → Bytes → Option (β × Bytes)) (n : ℕ) (hn : n < 2^32) (c : Coder α)
    (k : α → β) (a : α) (h : c.fits a) (ha : arm n = getAs c k) (rest : Bytes) :
    getVariant arm (variant n c a++rest) = some (k a,rest) := by
  have htag : (BitVec.ofNat 32 n).toNat = n := by rw [BitVec.toNat_ofNat, Nat.mod_eq_of_lt hn]
  rw [getVariant, variant, List.append_assoc, (word 4).get_put _ trivial]
  simp only [Option.bind_some]
  rw [show ((BitVec.ofNat 32 n : BitVec (8*4))).toNat = n from htag, ha, getAs, c.get_put a h]
  rfl

def endpoint (octets : ℕ) : Coder (Bytes × BitVec 16) := (fixed octets).pair (word 2)

def socketArm : ℕ → Bytes → Option (SocketAddr × Bytes)
  | 0 => getAs (endpoint 4) (fun x => .v4 x.1 x.2)
  | 1 => getAs (endpoint 16) (fun x => .v6 x.1 x.2)
  | _ => fun _ => none

def socketAddr : Coder SocketAddr where
  put x := match x with
    | .v4 ip port => variant 0 (endpoint 4) (ip,port)
    | .v6 ip port => variant 1 (endpoint 16) (ip,port)
  get := getVariant socketArm
  fits x := match x with
    | .v4 ip _ => ip.length = 4
    | .v6 ip _ => ip.length = 16
  get_put x h rest := by
    cases x with
    | v4 ip port =>
      exact get_variant socketArm 0 (by decide) (endpoint 4) (fun x => .v4 x.1 x.2) (ip,port)
        ⟨h,trivial⟩ rfl rest
    | v6 ip port =>
      exact get_variant socketArm 1 (by decide) (endpoint 16) (fun x => .v6 x.1 x.2) (ip,port)
        ⟨h,trivial⟩ rfl rest

def nodeInfo : Coder NodeInfo :=
  (string.pair (socketAddr.pair (word 8))).imap (fun x => some ⟨x.1,x.2.1,x.2.2⟩)
    (fun n => (n.nodeId,n.listenAddr,n.lastHeartbeat))
    (fun n => string.fits n.nodeId ∧ socketAddr.fits n.listenAddr)
    (fun _ h => ⟨⟨h.1,h.2,trivial⟩,rfl⟩)

def forwardMessage : Coder ForwardMessage :=
  ((word 8).pair ((word 16).pair ((word 16).pair (utf8.pair (counted.pair
      (bool.pair (bool.pair bool))))))).imap
    (fun x => some ⟨x.1,x.2.1,x.2.2.1,x.2.2.2.1,x.2.2.2.2.1,x.2.2.2.2.2.1,x.2.2.2.2.2.2.1,
      x.2.2.2.2.2.2.2⟩)
    (fun m => (m.forwardId,m.originalSource,m.targetClientId,m.title,m.payload,m.isGroup,
      m.isBroadcast,m.requireAck))
    (fun m => utf8.fits m.title ∧ counted.fits m.payload)
    (fun _ h => ⟨⟨trivial,trivial,trivial,h.1,h.2,trivial,trivial,trivial⟩,rfl⟩)

def forwardAck : Coder ForwardAckMessage :=
  ((word 8).pair (string.pair ((word 16).pair (bool.pair string.option)))).imap
    (fun x => some ⟨x.1,x.2.1,x.2.2.1,x.2.2.2.1,x.2.2.2.2⟩)
    (fun a => (a.forwardId,a.fromNodeId,a.originalSource,a.success,a.error))
    (fun a => string.fits a.fromNodeId ∧ string.option.fits a.error)
    (fun _ h => ⟨⟨trivial,h.1,trivial,trivial,h.2⟩,rfl⟩)

def ping : Coder (String × BitVec 64) := string.pair (word 8)

def titleRegister : Coder (String × Title × ClientId) := string.pair (utf8.pair (word 16))

def titleUnregister : Coder (String × Title) := string.pair utf8

def messageArm : ℕ → Bytes → Option (ClusterMessage × Bytes)
  | 0 => getAs nodeInfo .join
  | 1 => getAs nodeInfo.list .nodeList
  | 2 => getAs string .heartbeat
  | 3 => getAs forwardMessage .forward
  | 4 => getAs forwardAck .forwardAck
  | 5 => getAs ping (fun x => .ping x.1 x.2)
  | 6 => getAs titleRegister (fun x => .titleRegister x.1 x.2.1 x.2.2)
  | 7 => getAs titleUnregister (fun x => .titleUnregister x.1 x.2)
  | _ => fun _ => none

def clusterMessage : Coder ClusterMessage where
  put m := match m with
    | .join n => variant 0 nodeInfo n
    | .nodeList ns => variant 1 nodeInfo.list ns
    | .heartbeat k => variant 2 string k
    | .forward f => variant 3 forwardMessage f
    | .forwardAck a => variant 4 forwardAck a
    | .ping k t => variant 5 ping (k,t)
    | .titleRegister n t k => variant 6 titleRegister (n,t,k)
    | .titleUnregister n t => variant 7 titleUnregister (n,t)
  get := getVariant messageArm
  fits m := match m with
    | .join n => nodeInfo.fits n
    | .nodeList ns => nodeInfo.list.fits ns
    | .heartbeat k => string.fits k
    | .forward f => forwardMessage.fits f
    | .forwardAck a => forwardAck.fits a
    | .ping k t => ping.fits (k,t)
    | .titleRegister n t k => titleRegister.fits (n,t,k)
    | .titleUnregister n t => titleUnregister.fits (n,t)
  get_put m h rest := by
    cases m with
    | join n => exact get_variant messageArm 0 (by decide) _ _ n h rfl rest
    | nodeList ns => exact get_variant messageArm 1 (by decide) _ _ ns h rfl rest
    | heartbeat k => exact get_variant messageArm 2 (by decide) _ _ k h rfl rest
    | forward f => exact get_variant messageArm 3 (by decide) _ _ f h rfl rest
    | forwardAck a => exact get_variant messageArm 4 (by decide) _ _ a h rfl rest
    | ping k t =>
      exact get_variant messageArm 5 (by decide) _ (fun x => .ping x.1 x.2) (k,t) h rfl rest
    | titleRegister n t k =>
      exact get_variant messageArm 6 (by decide) _ (fun x => .titleRegister x.1 x.2.1 x.2.2)
        (n,t,k) h rfl rest
    | titleUnregister n t =>
      exact get_variant messageArm 7 (by decide) _ (fun x => .titleUnregister x.1 x.2)
        (n,t) h rfl rest

end Coders

/-- Serialisation with its inverse; `fits` are the values of the type. -/
structure Codec where
  serialize : ClusterMessage → Bytes
  deserialize : Bytes → Option ClusterMessage
  fits : ClusterMessage → Prop
  deserialize_serialize : ∀ m, fits m → deserialize (serialize m) = some m

def bincode : Codec where
  serialize := Coders.clusterMessage.put
  deserialize := Coders.clusterMessage.decode
  fits := Coders.clusterMessage.fits
  deserialize_serialize := Coders.clusterMessage.decode_put

example : bincode.deserialize (bincode.serialize (.ping "n" 5)) = some (.ping "n" 5) := by
  decide +kernel

end RexMq.ClusterMessages
