import Mathlib.Tactic.Common
import RexMq.HandlerEffects

/-!
# The client's side of a connection

A client process keeps one client object and the title string of its
configuration, which every login sends. Replies to title requests change the
object's own list of titles, and the string is then joined from the list
anew and stored. The store goes through a shared reference to a value the
compiler may take for constant, so whether it takes effect is up to the
build. The return code of a reply is not looked at. What the application's
handler is given and what is put on the wire are kept in order.
-/

set_option autoImplicit false

namespace RexMq.ClientProcess
open RexMq.ByteWords RexMq.FrameData RexMq.ClientRegistry RexMq.ServerState
open RexMq.HandlerEffects

/-- The clock, the outcome of a send, a random number, and whether the store of
`force_set_value` takes effect. -/
structure ClientEnv where
  now : UInt64
  sendOk : Bool
  messageId : MessageId
  storeKept : Bool

inductive Callback where
  | loginOk (f : RexData)
  | handle (f : RexData)
  deriving DecidableEq, Repr

structure ClientBase where
  client : Option RexClientInner
  title : Bytes
  ackEnabled : Bool
  pendingAcks : AList (fun _ : MessageId => Unit)
  sent : List Bytes
  callbacks : List Callback

namespace ClientBase

def opened (id : ClientId) (title : Bytes) (sender : SenderRef) (now : UInt64)
    (ackEnabled : Bool) : ClientBase where
  client := some (.new id title sender now)
  title := title
  ackEnabled := ackEnabled
  pendingAcks := ∅
  sent := []
  callbacks := []

def touch (env : ClientEnv) (b : ClientBase) : ClientBase :=
  { b with client := b.client.map (.updateLastRecv env.now) }

def sendBuf (env : ClientEnv) (buf : Bytes) (b : ClientBase) : Bool × ClientBase :=
  let b := { b with sent := b.sent++[buf] }
  if env.sendOk then (true,b.touch env) else (false,b)

def expectsAck : RexCommand → Bool
  | .title | .group | .cast => true
  | _ => false

def sendDataWithClient (env : ClientEnv) (client : RexClientInner) (f : RexData)
    (b : ClientBase) : Except Fault (Bool × ClientBase) := do
  let f ← f.setSource client.id
  let command ← f.command
  if b.ackEnabled && expectsAck command then
    let f ← f.setMessageId env.messageId
    let b := { b with pendingAcks := b.pendingAcks.insert env.messageId () }
    return b.sendBuf env f.content
  return b.sendBuf env f.content

def login (env : ClientEnv) (b : ClientBase) : Except Fault (Bool × ClientBase) :=
  match b.client with
  | none => .ok (true,b)
  | some client => b.sendDataWithClient env client (.new .login b.title [])

def call (c : Callback) (b : ClientBase) : ClientBase := { b with callbacks := b.callbacks++[c] }

def sendAck (env : ClientEnv) (m : MessageId) (b : ClientBase) : ClientBase :=
  match b.client with
  | none => b
  | some client => (b.sendBuf env ((⟨m⟩ : AckData).toRexData client.id .ack).content).2

def handleAckReturn (f : RexData) (b : ClientBase) : Except Fault ClientBase := do
  let ack ← AckData.fromRexData f
  let _ ← f.retcode
  return { b with pendingAcks := b.pendingAcks.erase ack.messageId }

def setTitle (env : ClientEnv) (title : Bytes) (b : ClientBase) : ClientBase :=
  { b with title := if env.storeKept then title else b.title }

/-- A change of the object's titles, and of the string for the next login. -/
def retitle (env : ClientEnv) (client : RexClientInner) (b : ClientBase) : ClientBase :=
  { b with client := some client }.setTitle env client.titleStr

def handleMessage (env : ClientEnv) (f : RexData) (b : ClientBase) : Except Fault ClientBase := do
  let m ← f.messageId
  let b := if m ≠ 0 then b.sendAck env m else b
  return b.call (.handle f)

def handleCommand (env : ClientEnv) (client : RexClientInner) (f : RexData) (b : ClientBase) :
    RexCommand → Except Fault ClientBase
  | .loginReturn => return b.call (.loginOk f)
  | .regTitleReturn => do
    let title ← f.title
    return b.retitle env (client.insertTitle title)
  | .delTitleReturn => do
    let title ← f.title
    return b.retitle env (client.removeTitle title)
  | .title | .group | .cast => b.handleMessage env f
  | .ackReturn => do
    let b ← b.handleAckReturn f
    return b.call (.handle f)
  | .titleReturn | .groupReturn | .castReturn => return b.call (.handle f)
  | _ => return b

def handleReceivedData (env : ClientEnv) (f : RexData) (b : ClientBase) :
    Except Fault ClientBase :=
  match b.client with
  | none => .ok b
  | some client => do
    let command ← f.command
    let b ← b.handleCommand env client f command
    return b.touch env

/-- One received frame; a fault ends the task before it changes anything. -/
def receive (env : ClientEnv) (b : ClientBase) (f : RexData) : ClientBase :=
  match b.handleReceivedData env f with
  | .ok b => b
  | .error _ => b

def ownTitles (b : ClientBase) : List Title :=
  (b.client.map RexClientInner.subscribedTitles).getD []

/-- The process has an object with the id, and its titles are single ones. -/
structure Titled (id : ClientId) (b : ClientBase) : Prop where
  object : b.client.map RexClientInner.id = some id
  single : ∀ t ∈ b.ownTitles, SingleTitle t

/-- The string for the next login splits into the titles of the object. -/
def Stringed (b : ClientBase) : Prop := ∀ t, t ∈ splitTitles b.title ↔ t ∈ b.ownTitles

/-- Neither the id nor the titles are touched. -/
structure SameTitles (b b' : ClientBase) : Prop where
  id : b'.client.map RexClientInner.id = b.client.map RexClientInner.id
  own : b'.ownTitles = b.ownTitles
  title : b'.title = b.title

theorem same_refl (b : ClientBase) : SameTitles b b := ⟨rfl,rfl,rfl⟩

theorem same_trans (b₁ b₂ b₃ : ClientBase) (h : SameTitles b₁ b₂) (g : SameTitles b₂ b₃) :
    SameTitles b₁ b₃ :=
  ⟨g.id.trans h.id,g.own.trans h.own,g.title.trans h.title⟩

theorem titled_of_same (id : ClientId) (b b' : ClientBase) (h : Titled id b)
    (hs : SameTitles b b') : Titled id b' := by
  refine ⟨hs.id.trans h.object,?_⟩
  rw [hs.own]
  exact h.single

theorem stringed_of_same (b b' : ClientBase) (h : Stringed b) (hs : SameTitles b b') :
    Stringed b' := by
  unfold Stringed
  rw [hs.own, hs.title]
  exact h

theorem same_touch (env : ClientEnv) (b : ClientBase) : SameTitles b (b.touch env) := by
  refine ⟨?_,?_,rfl⟩
  · cases hc : b.client <;> simp [touch, hc, RexClientInner.updateLastRecv]
  · cases hc : b.client <;> simp [ownTitles, touch, hc, RexClientInner.updateLastRecv]

theorem same_send_buf (env : ClientEnv) (buf : Bytes) (b : ClientBase) :
    SameTitles b (b.sendBuf env buf).2 := by
  have ht := same_touch env { b with sent := b.sent++[buf] }
  unfold sendBuf
  dsimp only
  split_ifs
  · exact ⟨ht.id,ht.own,ht.title⟩
  · exact ⟨rfl,rfl,rfl⟩

theorem same_send_ack (env : ClientEnv) (m : MessageId) (b : ClientBase) :
    SameTitles b (b.sendAck env m) := by
  unfold sendAck
  split
  · exact same_refl b
  · exact same_send_buf env _ b

theorem titled_opened (id : ClientId) (title : Bytes) (sender : SenderRef) (now : UInt64)
    (ackEnabled : Bool) : Titled id (opened id title sender now ackEnabled) :=
  ⟨rfl,fun t ht => single_of_split title t ht⟩

theorem stringed_opened (id : ClientId) (title : Bytes) (sender : SenderRef) (now : UInt64)
    (ackEnabled : Bool) : Stringed (opened id title sender now ackEnabled) :=
  fun _ => Iff.rfl

section Retitled
variable (env : ClientEnv) (client : RexClientInner) (b : ClientBase)

theorem retitle_title :
    (b.retitle env client).title = if env.storeKept then client.titleStr else b.title := rfl

theorem retitle_own : (b.retitle env client).ownTitles = client.subscribedTitles := rfl

theorem titled_retitle (hs : ∀ t ∈ client.subscribedTitles, SingleTitle t) :
    Titled client.id (b.retitle env client) :=
  ⟨rfl,hs⟩

theorem stringed_retitle (hs : ∀ t ∈ client.subscribedTitles, SingleTitle t)
    (hkept : env.storeKept = true) : Stringed (b.retitle env client) := by
  intro t
  rw [retitle_title, retitle_own, if_pos hkept, RexClientInner.titleStr, split_join _ hs]

end Retitled

section Received
variable (env : ClientEnv) (id : ClientId) (client : RexClientInner) (f : RexData)
  (b b' : ClientBase) (h : Titled id b) (hc : b.client = some client)
include h hc

theorem titled_client : client.id = id ∧ client.subscribedTitles = b.ownTitles := by
  have hid := h.object
  rw [hc] at hid
  refine ⟨Option.some.inj hid,?_⟩
  rw [ownTitles, hc]
  rfl

theorem single_insert (title : Bytes) (t : Title)
    (ht : t ∈ (client.insertTitle title).subscribedTitles) : SingleTitle t := by
  rcases (RexClientInner.mem_insert_title title client t).mp ht with ht | ht
  · exact h.single t ((titled_client id client b h hc).2 ▸ ht)
  · exact single_of_split title t ht

theorem single_remove (title : Bytes) (t : Title)
    (ht : t ∈ (client.removeTitle title).subscribedTitles) : SingleTitle t :=
  h.single t ((titled_client id client b h hc).2 ▸
    ((RexClientInner.mem_remove_title title client t).mp ht).1)

theorem command_titles (command : RexCommand)
    (hr : b.handleCommand env client f command = .ok b') : SameTitles b b' ∨
      ∃ client', client'.id = id ∧ (∀ t ∈ client'.subscribedTitles, SingleTitle t) ∧
        b' = b.retitle env client' := by
  have hid := (titled_client id client b h hc).1
  have hcall : ∀ b₁ c, SameTitles b b₁ → SameTitles b (b₁.call c) :=
    fun b₁ c hs => ⟨hs.id,hs.own,hs.title⟩
  cases command with
  | regTitleReturn =>
    obtain ⟨title, -, hr⟩ := bind_ok hr
    cases hr
    exact .inr ⟨client.insertTitle title,hid,single_insert id client b h hc title,rfl⟩
  | delTitleReturn =>
    obtain ⟨title, -, hr⟩ := bind_ok hr
    cases hr
    exact .inr ⟨client.removeTitle title,hid,single_remove id client b h hc title,rfl⟩
  | ackReturn =>
    obtain ⟨b₁, hb, hr⟩ := bind_ok hr
    obtain ⟨ack, -, hb⟩ := bind_ok hb
    obtain ⟨r, -, hb⟩ := bind_ok hb
    cases hb
    cases hr
    exact .inl ⟨rfl,rfl,rfl⟩
  | title | group | cast =>
    obtain ⟨m, -, hr⟩ := bind_ok hr
    cases hr
    refine .inl (hcall _ _ ?_)
    split_ifs
    · exact same_send_ack env m b
    · exact same_refl b
  | loginReturn | titleReturn | groupReturn | castReturn =>
    cases hr
    exact .inl (hcall b _ (same_refl b))
  | login | check | checkReturn | regTitle | delTitle | ack =>
    cases hr
    exact .inl (same_refl b)

end Received

section Receive
variable (env : ClientEnv) (id : ClientId) (f : RexData) (b : ClientBase) (h : Titled id b)
include h

theorem receive_titles : SameTitles b (b.receive env f) ∨
    ∃ client', client'.id = id ∧ (∀ t ∈ client'.subscribedTitles, SingleTitle t) ∧
      SameTitles (b.retitle env client') (b.receive env f) := by
  unfold receive
  cases hr : b.handleReceivedData env f with
  | error e => exact .inl (same_refl b)
  | ok b' =>
    unfold handleReceivedData at hr
    cases hc : b.client with
    | none =>
      rw [hc] at hr
      cases hr
      exact .inl (same_refl b)
    | some client =>
      rw [hc] at hr
      obtain ⟨command, -, hr⟩ := bind_ok hr
      obtain ⟨b₁, hb, hr⟩ := bind_ok hr
      cases hr
      rcases command_titles env id client f b b₁ h hc command hb with hs | ⟨client', hid, hs, rfl⟩
      · exact .inl (same_trans b b₁ _ hs (same_touch env b₁))
      · exact .inr ⟨client',hid,hs,same_touch env _⟩

theorem titled_receive : Titled id (b.receive env f) := by
  rcases receive_titles env id f b h with hs | ⟨client', rfl, hsingle, hs⟩
  · exact titled_of_same id b _ h hs
  · exact titled_of_same _ _ _ (titled_retitle env client' b hsingle) hs

theorem stringed_receive (hstring : Stringed b) (hkept : env.storeKept = true) :
    Stringed (b.receive env f) := by
  rcases receive_titles env id f b h with hs | ⟨client', -, hsingle, hs⟩
  · exact stringed_of_same b _ hstring hs
  · exact stringed_of_same _ _ (stringed_retitle env client' b hsingle hkept) hs

end Receive

end ClientBase

end RexMq.ClientProcess
