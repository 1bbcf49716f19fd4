import Mathlib.Tactic.Common
import RexMq.ServerState

/-!
# Command handlers

One function for each handler, from the frame and the state to the next
state. Accesses to the frame can fault; every other failure is logged by the
code and shows here only in its effect. In each handler the accesses that
can fault come before the first change of the state, so a faulting frame
changes nothing.
-/

set_option autoImplicit false

namespace RexMq.Handlers
open RexMq.ByteWords RexMq.FrameData RexMq.ClientRegistry RexMq.PersistentStore RexMq.ServerState

/-- The frame goes back to its sender with another command and `NoTarget`. -/
def sendNoTarget (env : Env) (source : ClientRef) (f : RexData) (command : RexCommand)
    (s : Server) : Except Fault Server := do
  let f ← f.setCommand command
  let f ← f.setRetcode .noTarget
  return (s.sendBuf env source f.content).2

def sendQueued (env : Env) (source : ClientRef) (clientId : ClientId) (s : Server)
    (msg : OfflineMessage) : Except Fault Server := do
  let f ← (RexData.new .title msg.title msg.payload).setSource clientId
  let f ← f.setMessageId msg.id
  return (s.sendBuf env source f.content).2

/-- Messages queued for the id are sent, then the queue is cleared whatever
the outcome of the sends. -/
def drainOffline (env : Env) (source : ClientRef) (clientId : ClientId) (s : Server) :
    Except Fault Server := do
  let queued := s.getOfflineMessages env clientId
  if queued.isEmpty then return s
  let s ← queued.foldlM (sendQueued env source clientId) s
  return s.clearOfflineMessages clientId

/-- The registered object gets the sender of the new connection. -/
def takeOver (client source : ClientRef) (title : Bytes) (s : Server) : Server :=
  let clients := modify s.clients client
    (fun o => (o.setSender (s.clients source).sender).insertTitle title)
  { s with clients := clients }

/-- The connection's own object gets the id and is registered. -/
def enroll (env : Env) (source : ClientRef) (clientId : ClientId) (title : Bytes) (s : Server) :
    Server :=
  let clients := modify s.clients source (fun o => (o.setId clientId).insertTitle title)
  { s with clients := clients }.addClient env source

/-- The login handler once it has looked the id up. The registry is not locked
in between: `found` can be out of date when a handler of another connection
ran meanwhile. -/
def loginFound (env : Env) (source : ClientRef) (clientId : ClientId) (title : Bytes)
    (f : RexData) (s : Server) (found : Option ClientRef) : Except Fault Server :=
  match found with
  | some client => do
    let s := takeOver client source title s
    let f ← f.setCommand .loginReturn
    return (s.sendBuf env client f.content).2
  | none => do
    let s := enroll env source clientId title s
    let s ← drainOffline env source clientId s
    let f ← f.setCommand .loginReturn
    return (s.sendBuf env source f.content).2

def loginHandler (env : Env) (source : ClientRef) (f : RexData) (s : Server) :
    Except Fault Server := do
  let clientId ← f.source
  let title ← f.title
  loginFound env source clientId title f s (s.live clientId)

def checkHandler (env : Env) (source : ClientRef) (f : RexData) (s : Server) :
    Except Fault Server := do
  let _ ← f.source
  let f ← f.setCommand .checkReturn
  return (s.sendBuf env source f.content).2

inductive Mutation where
  | register | unregister
  deriving DecidableEq, Repr

namespace Mutation

def fromCommand : RexCommand → Option Mutation
  | .regTitle => some .register
  | .delTitle => some .unregister
  | _ => none

def returnCommand : Mutation → RexCommand
  | .register => .regTitleReturn
  | .unregister => .delTitleReturn

def message (nodeId : NodeId) (title : Title) (clientId : ClientId) : Mutation → ClusterMessage
  | .register => .titleRegister nodeId title clientId
  | .unregister => .titleUnregister nodeId title

end Mutation

def mutate (m : Mutation) (clientId : ClientId) (title : Bytes) (s : Server) : Server :=
  let changed := match m with
    | .register => s.registry.registerTitle s.clients clientId title
    | .unregister => s.registry.unregisterTitle s.clients clientId title
  { s with clients := changed.1, registry := changed.2 }

/-- Another command than the two is an error that changes nothing. -/
def sessionMutator (env : Env) (source : ClientRef) (f : RexData) (s : Server) :
    Except Fault Server := do
  let clientId ← f.source
  let title ← f.title
  let command ← f.command
  match Mutation.fromCommand command with
  | none => return s
  | some m =>
    match s.live clientId with
    | some client =>
      let s := mutate m clientId title s
      let nodeId := s.cluster.getLocalNodeId.getD ""
      let s := { s with broadcasts := s.broadcasts++[m.message nodeId title clientId] }
      let f ← f.setCommand m.returnCommand
      return (s.sendBuf env client f.content).2
    | none => sendNoTarget env source f m.returnCommand s

/-- The acknowledgement is owed to the id of the source's object, not to the
id in the frame. -/
def deliverMessage (env : Env) (source : ClientRef) (f : RexData) (target : ClientRef)
    (s : Server) : Except Fault (Bool × RexData × Server) := do
  let title ← f.title
  let (f,s) ← s.setupMessageAck env f (s.clients source).id title false
  let (ok,s) := s.sendBuf env target f.content
  return (ok,f,s)

def titleHandler (env : Env) (source : ClientRef) (f : RexData) (s : Server) :
    Except Fault Server := do
  let title ← f.title
  let _ ← f.data
  let clientId ← f.source
  match s.route env title (some clientId) with
  | .here target =>
    let (success,f,s) ← deliverMessage env source f target s
    if success then return s else sendNoTarget env source f .titleReturn s
  | .remote node =>
    let request : ForwardRequest := ⟨clientId,0,title,f.content,.unicast⟩
    let s := { s with forwards := s.forwards++[(node,request)] }
    match env.forward node request with
    | .delivered => return s
    | .noPeerForTitle => sendNoTarget env source f .titleReturn s
    | .peerUnreachable _ => sendNoTarget env source f .titleReturn s
  | .nowhere => sendNoTarget env source f .titleReturn s

def sendNext (env : Env) (buf : Bytes) (r : List ClientId × Server) (c : ClientRef) :
    List ClientId × Server :=
  let id := (r.2.clients c).id
  let sent := r.2.sendBuf env c buf
  if sent.1 then (r.1,sent.2) else (r.1++[id],sent.2)

/-- Sends to every target; the ids whose send failed. -/
def sendAll (env : Env) (buf : Bytes) (targets : List ClientRef) (s : Server) :
    List ClientId × Server :=
  targets.foldl (sendNext env buf) ([],s)

def removeAll (ks : List ClientId) (s : Server) : Server :=
  ks.foldl (fun s k => (s.removeClient k).2) s

def castHandler (env : Env) (source : ClientRef) (f : RexData) (s : Server) :
    Except Fault Server := do
  let title ← f.title
  let clientId ← f.source
  let matching := s.registry.findAllByTitle s.clients title (some clientId)
  if matching.isEmpty then sendNoTarget env source f .castReturn s
  else
    let (f,s) ← s.setupMessageAck env f clientId title false
    let (failed,s) := sendAll env f.content matching s
    let s := removeAll failed s
    if matching.length-failed.length = 0 then sendNoTarget env source f .castReturn s
    else return s

def groupHandler (env : Env) (source : ClientRef) (f : RexData) (s : Server) :
    Except Fault Server := do
  let title ← f.title
  let clientId ← f.source
  let matching := s.registry.findAllByTitle s.clients title (some clientId)
  if matching.isEmpty then sendNoTarget env source f .groupReturn s
  else
    let (f,s) ← s.setupMessageAck env f clientId title true
    let index := s.groupIndex.toNat%matching.length
    let s := { s with groupIndex := s.groupIndex+1 }
    match matching[index]? with
    | none => throw (.outOfBounds index 1)
    | some target =>
      let (ok,s) := s.sendBuf env target f.content
      if !ok && !s.config.ackEnabled then sendNoTarget env source f .groupReturn s
      else return s

def ackHandler (env : Env) (f : RexData) (s : Server) : Except Fault Server := do
  if !s.config.ackEnabled then return s
  let ack ← AckData.fromRexData f
  match s.takePendingAck ack.messageId with
  | (none,s) => return s
  | (some pending,s) =>
    match s.live pending.sourceClientId with
    | none => return s
    | some sender =>
      let f := ack.toRexData pending.sourceClientId .ackReturn
      return (s.sendBuf env sender f.content).2

def handle (env : Env) (source : ClientRef) (f : RexData) (s : Server) : Except Fault Server := do
  let command ← f.command
  match command with
  | .title => titleHandler env source f s
  | .group => groupHandler env source f s
  | .cast => castHandler env source f s
  | .login => loginHandler env source f s
  | .check => checkHandler env source f s
  | .regTitle => sessionMutator env source f s
  | .delTitle => sessionMutator env source f s
  | .ack => ackHandler env f s
  | _ => return s

end RexMq.Handlers
