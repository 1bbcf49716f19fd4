import Mathlib.Tactic.Common
import RexMq.FrameFields
import RexMq.MultiTitles

/-!
# Frames with an unknown command

The decoder has no value for an unknown command word and answers with the
login. Such a frame therefore logs its source in: an unknown id is
registered, and the registered object of a known id gets the sender of the
connection and the titles of the frame.
-/

set_option autoImplicit false

namespace RexMq.UnknownCommands
open RexMq.ByteWords RexMq.FrameData RexMq.ClientRegistry RexMq.PersistentStore
open RexMq.ServerState RexMq.Handlers RexMq.HandlerEffects RexMq.FrameAccess RexMq.ServerRun
open RexMq.MultiTitles RexMq.FrameFields

def Unknown (word : BitVec 32) : Prop := ∀ c : RexCommand, c.asU32 ≠ word

theorem from_u32_known (word : BitVec 32) :
    (RexCommand.fromU32 word).asU32 = word ∨ RexCommand.fromU32 word = .login := by
  unfold RexCommand.fromU32
  split <;> first
    | exact .inr rfl
    | exact .inl (BitVec.eq_of_toNat_eq (Eq.symm ‹_›))

theorem from_u32_unknown (word : BitVec 32) (h : Unknown word) :
    RexCommand.fromU32 word = .login :=
  (from_u32_known word).resolve_left (h _)

/-- The registry with the clients it refers to, the cluster registrations and
the database with rows and queues are as before. A client's time of last
receipt is not part of it: any frame sets it. -/
structure Untouched (s t : Server) : Prop where
  registry : t.registry = s.registry
  id : ∀ k c, s.live k = some c → (t.clients c).id = (s.clients c).id
  titles : ∀ k c, s.live k = some c →
    (t.clients c).subscribedTitles = (s.clients c).subscribedTitles
  sender : ∀ k c, s.live k = some c → (t.clients c).sender = (s.clients c).sender
  cluster : t.cluster = s.cluster
  db : t.db = s.db

theorem untouched_refl (s : Server) : Untouched s s :=
  ⟨rfl,fun _ _ _ => rfl,fun _ _ _ => rfl,fun _ _ _ => rfl,rfl,rfl⟩

theorem untouched_of_quiet (s t : Server) (h : Quiet s t) (hdb : t.db = s.db) : Untouched s t :=
  ⟨h.registry,fun _ c _ => h.id c,fun _ c _ => h.titles c,fun _ c _ => h.sender c,h.cluster,hdb⟩

section Login
variable (env : Env) (c client : ClientRef) (f : RexData) (s : Server) (k : ClientId)
variable (title : Bytes)

theorem db_send_buf (buf : Bytes) : (s.sendBuf env c buf).2.db = s.db := by
  unfold Server.sendBuf
  dsimp only
  split_ifs <;> rfl

theorem db_receive_take_over (hc : f.command = .ok .login) (hk : f.source = .ok k)
    (ht : f.title = .ok title) (hl : s.live k = some client) :
    (receiveFrame env c f s).db = s.db := by
  obtain ⟨t, hok⟩ := handle_ok env c f s (fits_of_title f title ht (by rw [hc]; simp))
  have hlogin : loginHandler env c f s = .ok t := by
    rw [handle, bind_of_ok hc] at hok
    exact hok
  rw [loginHandler, bind_of_ok hk, bind_of_ok ht] at hlogin
  simp only [hl] at hlogin
  obtain ⟨g, -, hlogin⟩ := bind_ok hlogin
  cases hlogin
  rw [receiveFrame, hok]
  exact db_send_buf env client _ g.content

theorem titles_take_over :
    ((takeOver client c title s).clients client).subscribedTitles =
      ((s.clients client).insertTitle title).subscribedTitles := by
  simp only [takeOver, modify_same]
  rfl

theorem take_over_same (hs : (s.clients client).sender = (s.clients c).sender)
    (ht : ∀ t ∈ splitTitles title, t ∈ (s.clients client).subscribedTitles) :
    takeOver client c title s = s := by
  have hobject : ((s.clients client).setSender (s.clients c).sender).insertTitle title =
      s.clients client := by
    rw [← hs]
    exact insert_title_present title (s.clients client) ht
  have hclients : modify s.clients client
      (fun o => (o.setSender (s.clients c).sender).insertTitle title) = s.clients := by
    rw [ClientRegistry.modify, hobject, Function.update_eq_self]
  rw [takeOver, hclients]

/-- A login leaves the stores alone exactly for an id whose registered client
already has the connection's sender and the titles. -/
theorem untouched_login_iff (hc : f.command = .ok .login) (hk : f.source = .ok k)
    (ht : f.title = .ok title) :
    Untouched s (receiveFrame env c f s) ↔ ∃ client, s.live k = some client ∧
      (s.clients client).sender = (s.clients c).sender ∧
      ∀ t ∈ splitTitles title, t ∈ (s.clients client).subscribedTitles := by
  have hq := receive_login env c f s k title hc hk ht
  cases hl : s.live k with
  | none =>
    refine iff_of_false (fun h => ?_) (fun ⟨_, h, _⟩ => by cases h)
    rw [login, hl] at hq
    have hlive := hq.live k
    rw [live_enroll, if_pos rfl, Server.live_def, h.registry, ← Server.live_def, hl] at hlive
    cases hlive
  | some client =>
    have hdb := db_receive_take_over env c client f s k title hc hk ht hl
    simp only [login, hl] at hq
    constructor
    · intro h
      refine ⟨client,rfl,?_,fun t ht => ?_⟩
      · rw [← h.sender k client hl, hq.sender, sender_take_over, if_pos rfl]
      · rw [← h.titles k client hl, hq.titles, titles_take_over]
        exact (RexClientInner.mem_insert_title title _ t).mpr (.inr ht)
    · rintro ⟨_, ⟨⟩, hs, ht⟩
      rw [take_over_same c client s title hs ht] at hq
      exact untouched_of_quiet s _ hq hdb

end Login

/-- A frame with an unknown command word changes nothing exactly when its
title cannot be read, or when the login it is taken for has nothing to
change. -/
theorem unknown_command_untouched_iff (env : Env) (c : ClientRef) (f : RexData) (s : Server)
    (h : RexHead) (hh : f.head = .ok h) (hu : Unknown h.command) :
    Untouched s (receiveFrame env c f s) ↔
      (∀ title, f.title ≠ .ok title) ∨
      ∃ title client, f.title = .ok title ∧ s.live h.source = some client ∧
        (s.clients client).sender = (s.clients c).sender ∧
        ∀ t ∈ splitTitles title, t ∈ (s.clients client).subscribedTitles := by
  have hc : f.command = .ok .login := by
    rw [command_of_head h f hh, from_u32_unknown h.command hu]
  have hk := source_of_head h f hh
  cases ht : f.title with
  | error e =>
    refine iff_of_true ?_ (.inl (fun title h => by cases h))
    have hfault : handle env c f s = .error e := by
      rw [handle, bind_of_ok hc]
      show loginHandler env c f s = _
      rw [loginHandler, bind_of_ok hk, ht]
      rfl
    rw [receiveFrame, hfault]
    exact untouched_refl s
  | ok title =>
    rw [untouched_login_iff env c f s h.source title hc hk ht]
    constructor
    · rintro ⟨client, hclient⟩
      exact .inr ⟨title,client,rfl,hclient⟩
    · rintro (hnone | ⟨_, client, ⟨⟩, hclient⟩)
      · exact absurd rfl (hnone title)
      · exact ⟨client,hclient⟩

def wordFrame (word : BitVec 32) (k : ClientId) (title : Title) : RexData :=
  ⟨writeWord 32 4 word (loginFrame k title).content⟩

theorem zero_unknown : Unknown 0 := by
  intro c
  cases c <;> decide

/-- The client that sent the frame is logged in on the same connection and
names no title. -/
theorem unknown_command_of_session :
    let s := ([Event.accept 0 1 "tcp" 0,.frame 0 quietEnv (loginFrame 1 [])].foldl step
      (start plainConfig .noop none unusedClients)).server
    (wordFrame 0 1 []).head = .ok ⟨37,0,0,0,1⟩ ∧
      Untouched s (receiveFrame quietEnv 0 (wordFrame 0 1 []) s) := by
  intro s
  have hh : (wordFrame 0 1 []).head = .ok ⟨37,0,0,0,1⟩ := by decide +kernel
  refine ⟨hh,(unknown_command_untouched_iff quietEnv 0 (wordFrame 0 1 []) s ⟨37,0,0,0,1⟩ hh
    zero_unknown).mpr (.inr ⟨[],0,?_⟩)⟩
  decide +kernel

/-- Command word 0 from a connection that never logged in: the id in the
frame is registered, with the title, in registry, cluster and database. -/
theorem unknown_command_logs_in :
    let s := ([Event.accept 0 9 "tcp" 0].foldl step
      (start storedConfig (.manager "n" ∅) (some .empty) unusedClients)).server
    let t := receiveFrame quietEnv 0 (wordFrame 0 1 [97]) s
    (wordFrame 0 1 [97]).head = .ok ⟨38,0,0,0,1⟩ ∧ Unknown 0 ∧
      s.live 1 = none ∧ t.live 1 = some 0 ∧ t.registry.subscribers [97] = [0] ∧
      s.node 1 = none ∧ t.node 1 = some "n" ∧ (s.row 1).isSome = false ∧
      (t.row 1).isSome = true ∧ ¬ Untouched s t := by
  intro s t
  have hs : s.live 1 = none := by decide +kernel
  have ht : t.live 1 = some 0 := by decide +kernel
  refine ⟨by decide +kernel,zero_unknown,hs,ht,by decide +kernel,by decide +kernel,
    by decide +kernel,by decide +kernel,by decide +kernel,fun h => ?_⟩
  rw [Server.live_def, h.registry, ← Server.live_def, hs] at ht
  cases ht

end RexMq.UnknownCommands
