import Mathlib.Tactic.Common
import RexMq.FrameNetwork
import RexMq.SeatedClients

/-!
# A network of processes with ids of their own

Whatever a client process sends bears its id, so in a network whose processes
have different ids the server knows every client by its own connection, and
every frame on a link says whose link it is. A process calls its handler with
what it takes, in that order and with one message due at most.
-/

set_option autoImplicit false

namespace RexMq.MannedNetwork
open RexMq.ByteWords RexMq.FrameData RexMq.FrameFields RexMq.ClientRegistry RexMq.PersistentStore
open RexMq.ServerState RexMq.Handlers RexMq.FrameAccess RexMq.ServerRun RexMq.SentFrames
open RexMq.ClientProcess RexMq.StarNetwork RexMq.FrameNetwork RexMq.SeatedClients

/-- Nothing of a client that speaking leaves alone has changed. -/
structure Unmoved (b b' : ClientBase) : Prop where
  callbacks : b'.callbacks = b.callbacks
  ackEnabled : b'.ackEnabled = b.ackEnabled
  id : b'.client.map RexClientInner.id = b.client.map RexClientInner.id

/-- The calls of the handler follow what the client took, by one at most. -/
def Trails (p : Party) : Prop :=
  ∃ due, p.base.callbacks = p.called++due ∧ due.length ≤ 1

structure Manned (N : Naming) (n : ℕ) (y : Net) : Prop where
  sound : NetSound n y
  hosts : Hosts N y.hub
  object : ∀ c, (y.spoke c).base.client.map RexClientInner.id = some (N.idOf c)
  trails : ∀ c, Trails (y.spoke c)
  sourced : ∀ c, ∀ f ∈ y.up c, Stamps N c ⟨f⟩

/-- Connections and utterances are those of parties, and what applications
hand over is well formed. -/
def Mannered (N : Naming) (n : ℕ) (y : Net) : NetMove → Prop
  | .act e => Inner y.hub e ∧ OfParties N e
  | .speak c u => c ∈ N.parties ∧ Proper n (y.spoke c) u
  | .serve _ _ => True
  | .hear _ _ => True

section Speaking
variable {ok : Bytes → Prop} {N : Naming} {n : ℕ} {c : ClientRef} {b : ClientBase}

theorem ack_head (m : MessageId) (k : ClientId) (command : RexCommand) :
    ((⟨m⟩ : AckData).toRexData k command).head =
      .ok ⟨BitVec.ofNat 32 45,command.asU32,RetCode.success.asU32,0,k⟩ :=
  head_encode _ _

theorem login_wire (hp : b.title.length ≤ 255 ∧ 37+b.title.length ≤ n) :
    Wire (Short n) (.new .login b.title []) := by
  refine wire_new .login _ [] (by decide) hp.1 ?_
  simp only [Short, rexHeadLen, List.length_cons, List.append_nil]
  omega

theorem send_stamps (env : ClientEnv) (client : RexClientInner) (hid : client.id = N.idOf c)
    (f : RexData) (hf : Wire ok f) :
    ∃ gs, (orElse b (b.sendDataWithClient env client f)).sent = b.sent++gs ∧
      (∀ g ∈ gs, Stamps N c ⟨g⟩) ∧ Unmoved b (orElse b (b.sendDataWithClient env client f)) := by
  obtain ⟨h, hh⟩ := head_ok f (by have := hf.framed.length; omega)
  obtain ⟨g, hstamp, hspoken⟩ := send_data_spoken env f b client hf h hh
  refine ⟨[g.content],hspoken.sent,fun g' hg => ?_,hspoken.callbacks,hspoken.ackEnabled,hspoken.id⟩
  obtain rfl := List.mem_singleton.mp hg
  right
  rw [show RexData.mk g.content = g from rfl, source_of_head _ g hstamp.head, hid]

theorem speak_stamps {p : Party} (hb : p.base.client.map RexClientInner.id = some (N.idOf c))
    (u : Utterance) (hp : Proper n p u) :
    ∃ gs, (speak p.base u).sent = p.base.sent++gs ∧ (∀ g ∈ gs, Stamps N c ⟨g⟩) ∧
      Unmoved p.base (speak p.base u) := by
  obtain ⟨client, hb, hid⟩ := Option.map_eq_some_iff.mp hb
  cases u with
  | login env =>
    simp only [speak, ClientBase.login, hb]
    exact send_stamps env client hid _ (login_wire hp)
  | send env f =>
    simp only [speak, hb]
    exact send_stamps env client hid f hp
  | ping env =>
    have hs := send_buf_spoken env p.base (.new .check [] [])
    simp only [speak, hb]
    refine ⟨_,hs.sent,fun g hg => ?_,hs.callbacks,hs.ackEnabled,hs.id⟩
    obtain rfl := List.mem_singleton.mp hg
    exact .inl (new_command .check [] [])
  | call env =>
    exact ⟨[],(List.append_nil _).symm,fun g hg => absurd hg List.not_mem_nil,rfl,rfl,rfl⟩

theorem reply_stamps (client : RexClientInner) (hid : client.id = N.idOf c) (command : RexCommand)
    (m : MessageId) (g : Bytes) (hg : g ∈ reply client command m) : Stamps N c ⟨g⟩ := by
  unfold reply at hg
  split_ifs at hg
  · obtain rfl := List.mem_singleton.mp hg
    right
    rw [← hid]
    exact source_of_head _ _ (ack_head m client.id .ack)
  · cases hg

theorem heard_length (f : RexData) (command : RexCommand) : (heard f command).length ≤ 1 := by
  cases command <;> simp [heard]

theorem trails_of (b : ClientBase) : Trails (.of b) :=
  ⟨[],(List.append_nil _).symm,Nat.zero_le _⟩

theorem trails_hear {env : ClientEnv} {f : RexData} {p : Party} {cs : List Callback}
    (hcs : (p.base.receive env f).callbacks = p.base.callbacks++cs) (hlen : cs.length ≤ 1) :
    Trails (p.hear env f) :=
  ⟨cs,hcs,hlen⟩

theorem trails_say {u : Utterance} {p : Party} (hp : Trails p)
    (hcs : (speak p.base u).callbacks = p.base.callbacks) : Trails (p.say u) := by
  obtain ⟨due, hdue, hlen⟩ := hp
  cases u with
  | call env => exact ⟨[],(List.append_nil _).symm,Nat.zero_le _⟩
  | login env | send env f | ping env => exact ⟨due,hcs.trans hdue,hlen⟩

end Speaking

section Moves
variable {N : Naming} {n : ℕ} {y : Net}

theorem Mannered.allowed {mv : NetMove} (h : Mannered N n y mv) :
    Allowed Inner (Proper n) y mv := by
  cases mv with
  | act e => exact h.1
  | speak c u => exact h.2
  | serve c env => trivial
  | hear c env => trivial

theorem Manned.received (h : Manned N n y) (c : ClientRef) (env : ClientEnv) (f : Bytes)
    (hf : f ∈ y.down c) :
    ∃ client head, client.id = N.idOf c ∧ (RexData.mk f).head = .ok head ∧
      Received client ⟨f⟩ (.fromU32 head.command) head.messageId (y.spoke c).base
        ((y.spoke c).base.receive env ⟨f⟩) := by
  have hw := h.sound.down c f hf
  obtain ⟨client, hb, hid⟩ := Option.map_eq_some_iff.mp (h.object c)
  obtain ⟨head, hh⟩ := head_ok ⟨f⟩ (by have := hw.framed.length; omega)
  exact ⟨client,head,hid,hh,(receive_received env hw hb (command_of_head head _ hh)
    (message_id_of_head head _ hh)).2⟩

theorem manned_move (hn : 45 ≤ n) (mv : NetMove) (hy : Manned N n y) (ho : Mannered N n y mv) :
    Manned N n (move nodes y mv) := by
  have hsound := net_sound_move hn y mv hy.sound ho.allowed
  have hobject : ∀ c (p : Party), p.base.client.map RexClientInner.id = some (N.idOf c) →
      ∀ d, (Function.update y.spoke c p d).base.client.map RexClientInner.id =
        some (N.idOf d) := by
    intro c p hp d
    by_cases hd : d = c
    · subst hd
      simpa using hp
    · simpa [hd] using hy.object d
  have htrails : ∀ c (p : Party), Trails p → ∀ d, Trails (Function.update y.spoke c p d) := by
    intro c p hp d
    by_cases hd : d = c
    · subst hd
      simpa using hp
    · simpa [hd] using hy.trails d
  cases mv with
  | act e => exact ⟨hsound,hosts_step e hy.hosts ho.2,hy.object,hy.trails,hy.sourced⟩
  | speak c u =>
    obtain ⟨gs, hs, hgs, hkept⟩ := speak_stamps (hy.object c) u ho.2
    refine ⟨hsound,hy.hosts,hobject c _ (hkept.id.trans (hy.object c)),
      htrails c _ (trails_say (hy.trails c) hkept.callbacks),?_⟩
    exact mem_update_append y.up c _ _ hy.sourced
      fun g hg => hgs g (uttered_mem u.env _ _ gs hs g hg)
  | serve c env =>
    simp only [move] at hsound ⊢
    split
    · exact hy
    · rename_i f rest hq
      simp only [hq] at hsound
      split_ifs at hsound ⊢
      · have hf := hy.sourced c f (by rw [hq]; exact List.mem_cons_self)
        exact ⟨hsound,hosts_step (.frame c env ⟨f⟩) hy.hosts hf,hy.object,hy.trails,
          mem_update_tail y.up c f rest hq _ hy.sourced⟩
      · exact hy
  | hear c env =>
    simp only [move] at hsound ⊢
    split
    · exact hy
    · rename_i f rest hq
      simp only [hq] at hsound
      obtain ⟨client, head, hid, -, hr⟩ :=
        hy.received c env f (by rw [hq]; exact List.mem_cons_self)
      refine ⟨hsound,hy.hosts,hobject c _ (hr.id.trans (by rw [hid])),
        htrails c _ (trails_hear hr.callbacks (heard_length _ _)),?_⟩
      exact mem_update_append y.up c _ _ hy.sourced
        fun g hg => reply_stamps client hid _ _ g (uttered_mem env _ _ _ hr.sent g hg)

theorem manned_start {config : RexSystemConfig} (cluster : ClusterPort) {db : Option SledDb}
    {clients : Clients} {process : ClientRef → ClientBase}
    (hsender : ∀ d, (clients d).sender = d)
    (hstored : ∀ store i m, db = some store → store.offlineQueue.lookup i = some m →
      m.title.length ≤ 255 ∧ Short n (queuedBody m))
    (hprocess : ∀ c, ∃ title sender now ack, process c = .opened (N.idOf c) title sender now ack) :
    Manned N n (idleNet (start config cluster db clients) process) := by
  refine ⟨⟨sound_start config cluster db clients hstored,?_,?_⟩,
    hosts_start config cluster db clients hsender,fun c => ?_,fun c => trails_of _,?_⟩
  · exact fun c f hf => absurd hf List.not_mem_nil
  · exact fun c f hf => absurd hf List.not_mem_nil
  · obtain ⟨title, sender, now, ack, hp⟩ := hprocess c
    simp only [idleNet, hp]
    rfl
  · exact fun c f hf => absurd hf List.not_mem_nil

end Moves

theorem process_ids (a b : ℕ) (ha : a < 2) (hb : b < 2)
    (h : BitVec.ofNat 128 (100+a) = BitVec.ofNat 128 (100+b)) : a = b := by
  have h' := congrArg BitVec.toNat h
  rw [BitVec.toNat_ofNat, BitVec.toNat_ofNat] at h'
  omega

def pair : Naming where
  idOf c := BitVec.ofNat 128 (100+c)
  parties := {c | c < 2}
  distinct a ha b hb h := process_ids a b ha hb h

/-- Two clients connect and log in with one title. -/
def logins : List NetMove :=
  [.act (.accept 0 5 "tcp" 0),.act (.accept 1 6 "tcp" 0),.speak 0 (.login (calmEnv 1)),
    .speak 1 (.login (calmEnv 1)),.serve 0 quietEnv,.serve 1 quietEnv]

def hello : RexData := .new .title [65] [104,105]

end RexMq.MannedNetwork
