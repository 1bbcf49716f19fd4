import Mathlib.Tactic.Common
import RexMq.ServerRun

/-!
# Two ways out of the registry

A disconnect removes a client from registry, cluster and database together.
The inactivity sweep removes it from the registry alone, and the teardown
that follows finds the id gone and stops. The two ways agree exactly on
clients of which cluster and database know nothing, and an id that is
neither live nor a ghost leaves a trace exactly after a sweep over any other
client.
-/

set_option autoImplicit false

namespace RexMq.RemovalPaths
open RexMq.FiniteRun RexMq.FrameData RexMq.ClientRegistry RexMq.PersistentStore
open RexMq.ServerState RexMq.Handlers RexMq.HandlerEffects RexMq.ServerRun

/-- Agreement of registry, cluster registrations and rows. -/
structure SameSessions (s t : Server) : Prop where
  registry : t.registry = s.registry
  node : ∀ k, t.node k = s.node k
  row : ∀ k, t.row k = s.row k

/-- The sweep's removal of an id, followed by the teardown of the connection
whose object the id held. -/
def sweptThenClosed (k : ClientId) (o : ClientRef) (s : Server) : Server :=
  teardownClient o (s.evict k)

theorem swept_then_closed_eq (k : ClientId) (o : ClientRef) (s : Server) :
    sweptThenClosed k o s = ((s.evict k).removeClient (s.clients o).id).2 := by
  rw [sweptThenClosed, teardownClient, Server.clients_evict]

/-- The sweep and the teardown amount to a removal exactly for a client
without cluster registration and row, whose object names no other live id. -/
theorem same_sessions_iff (k : ClientId) (o : ClientRef) (s : Server) (hl : s.live k = some o) :
    SameSessions (s.removeClient k).2 (sweptThenClosed k o s) ↔
      s.node k = none ∧ s.row k = none ∧
        ((s.clients o).id = k ∨ s.live (s.clients o).id = none) := by
  have hev : ∀ j, (s.evict k).node j = s.node j ∧ (s.evict k).row j = s.row j :=
    fun j => ⟨by rw [Server.node, Server.cluster_evict, Server.node],
      by rw [Server.row, Server.db_evict, Server.row]⟩
  have hgone : (s.clients o).id = k ∨ s.live (s.clients o).id = none →
      ((s.evict k).removeClient (s.clients o).id).2 = s.evict k := by
    intro hother
    refine Server.remove_client_none _ _ ?_
    rw [Server.live_evict]
    split_ifs with hk
    · rfl
    · exact hother.resolve_left hk
  rw [swept_then_closed_eq]
  constructor
  · intro h
    have hother : (s.clients o).id = k ∨ s.live (s.clients o).id = none := by
      by_contra hn
      rw [not_or] at hn
      have hreg := congrArg (ClientRegistryImpl.findSomeById (s.clients o).id) h.registry
      simp only [← Server.live_def, Server.live_remove_client, if_pos, if_neg hn.1] at hreg
      exact hn.2 hreg.symm
    rw [hgone hother] at h
    have hnode := h.node k
    have hrow := h.row k
    rw [Server.node_remove_client, if_pos ⟨rfl,by simp [hl]⟩, (hev k).1] at hnode
    rw [Server.row_remove_client, if_pos ⟨rfl,by simp [hl]⟩, (hev k).2] at hrow
    exact ⟨hnode,hrow,hother⟩
  · rintro ⟨hnode, hrow, hother⟩
    rw [hgone hother]
    refine ⟨by rw [Server.registry_evict, Server.registry_remove_client],fun j => ?_,fun j => ?_⟩
    · rw [Server.node_remove_client, (hev j).1]
      split_ifs with hj
      · rw [hj.1, hnode]
      · rfl
    · rw [Server.row_remove_client, (hev j).2]
      split_ifs with hj
      · rw [hj.1, hrow]
      · rfl

/-- Only live ids and ghosts are known to cluster and database. -/
def Accounted (s : Server) : Prop :=
  ∀ k, s.live k = none → s.ghost k = none → s.node k = none ∧ s.row k = none

structure Booked (s : Server) : Prop where
  accounted : Accounted s
  apart : ∀ k, s.live k ≠ none → s.ghost k = none

section Changes
variable (s t : Server)

theorem booked_of_same (h : Booked s) (hl : ∀ k, t.live k = s.live k)
    (hg : ∀ k, t.ghost k = s.ghost k) (hn : ∀ k, t.node k = s.node k)
    (hr : ∀ k, t.row k = s.row k) : Booked t := by
  refine ⟨fun k hk hgk => ?_,fun k hk => ?_⟩
  · rw [hl] at hk
    rw [hg] at hgk
    rw [hn, hr]
    exact h.accounted k hk hgk
  · rw [hl] at hk
    rw [hg]
    exact h.apart k hk

theorem booked_quiet (hq : Quiet s t) (h : Booked s) : Booked t :=
  booked_of_same s t h hq.live hq.ghost hq.node hq.row

theorem booked_enroll (env : Env) (c : ClientRef) (k : ClientId) (title : Title)
    (h : Booked s) : Booked (enroll env c k title s) := by
  refine ⟨fun j hj hg => ?_,fun j hj => ?_⟩
  · rw [live_enroll] at hj
    rw [ghost_enroll] at hg
    split_ifs at hj hg with hjk
    rw [node_enroll_other env c k title s j hjk, row_enroll, if_neg (fun hc => hjk hc.1)]
    exact h.accounted j hj hg
  · rw [live_enroll] at hj
    rw [ghost_enroll]
    split_ifs at hj ⊢ with hjk
    · rfl
    · exact h.apart j hj

theorem booked_mutate (m : Mutation) (k : ClientId) (title : Title) (client : ClientRef)
    (hl : s.live k = some client) (h : Booked s) : Booked (mutate m k title s) := by
  rw [mutate_some m k title s client hl]
  exact booked_of_same s _ h (fun _ => rfl) (fun _ => rfl) (fun _ => rfl) (fun _ => rfl)

theorem booked_remove (k : ClientId) (h : Booked s) : Booked (s.removeClient k).2 := by
  refine ⟨fun j hj hg => ?_,fun j hj => ?_⟩
  · rw [Server.live_remove_client] at hj
    rw [Server.ghost_remove_client] at hg
    rw [Server.node_remove_client, Server.row_remove_client]
    split_ifs with hjk
    · exact ⟨rfl,rfl⟩
    · refine h.accounted j ?_ hg
      split_ifs at hj with hjk'
      · rw [hjk']
        by_contra hn
        exact hjk ⟨hjk',hn⟩
      · exact hj
  · rw [Server.live_remove_client] at hj
    rw [Server.ghost_remove_client]
    split_ifs at hj
    · exact absurd rfl hj
    · exact h.apart j hj

theorem booked_sweep_ghosts (now : UInt64) (h : Booked s) :
    Booked (s.cleanupExpiredGhosts now) := by
  have hcol := s.ghost_sweep_collected now
  refine ⟨fun k hk hg => ?_,fun k hk => ?_⟩
  · rw [hcol.live] at hk
    rw [hcol.ghost] at hg
    rw [hcol.node, hcol.row]
    split_ifs at hg ⊢
    · exact ⟨rfl,rfl⟩
    · exact h.accounted k hk hg
  · rw [hcol.live] at hk
    rw [hcol.ghost]
    split_ifs
    · rfl
    · exact h.apart k hk

theorem booked_restored (p : PersistedClient) (hr : Server.Restored p s t) (h : Booked s) :
    Booked t := by
  refine ⟨fun k hk hg => ?_,fun k hk => ?_⟩
  · have hnode := (hr.node k).resolve_right (fun hn => hn hg)
    rw [hr.live] at hk
    rw [hr.ghost] at hg
    rw [hnode, hr.row]
    split_ifs at hg
    exact h.accounted k hk hg
  · rw [hr.live] at hk
    rw [hr.ghost, if_neg (fun hc => hk hc.2.1)]
    exact h.apart k hk

theorem booked_inactive_sweep (now : UInt64) (h : Booked s)
    (hs : ∀ k ∈ s.inactive now, s.node k = none ∧ s.row k = none) :
    Booked (s.cleanupInactiveClients now) := by
  have hev := s.inactive_sweep_evicted now
  refine ⟨fun k hk hg => ?_,fun k hk => ?_⟩
  · rw [hev.live] at hk
    rw [hev.ghost] at hg
    rw [hev.node, hev.row]
    split_ifs at hk with hm
    · exact hs k hm
    · exact h.accounted k hk hg
  · rw [hev.live] at hk
    rw [hev.ghost]
    split_ifs at hk
    · exact absurd rfl hk
    · exact h.apart k hk

end Changes

/-- The sweep meets only clients unknown to cluster and database. -/
def SweepsUnknown (y : System) : Event → Prop
  | .inactiveSweep now => ∀ k ∈ y.server.inactive now,
      y.server.node k = none ∧ y.server.row k = none
  | _ => True

theorem step_booked (y : System) (e : Event) (h : Booked y.server) (hs : SweepsUnknown y e) :
    Booked (step y e).server := by
  apply step_keeps Booked y e booked_quiet _ _ _ _ booked_remove _ _ _ h
  · intro s c uuid transport now hb
    exact booked_of_same s _ hb (fun _ => rfl) (fun _ => rfl) (fun _ => rfl) (fun _ => rfl)
  · intro s client c title hb
    exact booked_of_same s _ hb (fun _ => rfl) (fun _ => rfl) (fun _ => rfl) (fun _ => rfl)
  · exact fun s env c k title hb => booked_enroll s env c k title hb
  · exact fun s m k title client hl hb => booked_mutate s m k title client hl hb
  · rintro now rfl
    exact booked_inactive_sweep y.server now h hs
  · exact fun s now hb => booked_sweep_ghosts s now hb
  · exact fun s hb => s.restore_keeps Booked booked_restored hb

theorem step_not_accounted (y : System) (e : Event) (h : Booked y.server)
    (hs : ¬ SweepsUnknown y e) : ¬ Accounted (step y e).server := by
  cases e with
  | inactiveSweep now =>
    simp only [SweepsUnknown, not_forall] at hs
    obtain ⟨k, hk, hknown⟩ := hs
    have hev := y.server.inactive_sweep_evicted now
    intro ha
    refine hknown ?_
    have hl : (y.server.cleanupInactiveClients now).live k = none := by
      rw [hev.live, if_pos hk]
    have hg : (y.server.cleanupInactiveClients now).ghost k = none := by
      rw [hev.ghost]
      exact h.apart k (y.server.inactive_live now k hk)
    have hnone := ha k hl hg
    exact ⟨(hev.node k).symm.trans hnone.1,(hev.row k).symm.trans hnone.2⟩
  | accept | frame | teardown | ackSweep | ghostSweep | restore => exact absurd trivial hs

/-- The cluster port of a starting server, which knows no client yet. -/
def freshCluster : Option NodeId → ClusterPort
  | none => .noop
  | some localNodeId => .manager localNodeId ∅

/-- Restoring makes a ghost of every row, so nothing is unaccounted for when
the transports start. -/
theorem start_booked (config : RexSystemConfig) (localNode : Option NodeId)
    (db : Option SledDb) (clients : Clients) :
    Booked (start config (freshCluster localNode) db clients).server := by
  set s₀ := Server.build config (freshCluster localNode) db clients with hs₀
  have hnode : ∀ k, s₀.restore.ghost k = none → s₀.restore.node k = none := by
    refine s₀.restore_keeps (fun s => ∀ k, s.ghost k = none → s.node k = none)
      (fun s t p hr h k hk => ?_) (fun k _ => ?_)
    · rw [(hr.node k).resolve_right (fun hn => hn hk)]
      refine h k ?_
      rw [hr.ghost] at hk
      split_ifs at hk
      exact hk
    · cases localNode <;> rfl
  have hrows : ∀ k, s₀.restore.row k = s₀.row k := by
    refine s₀.restore_keeps (fun s => ∀ k, s.row k = s₀.row k) (fun s t p hr h k => ?_)
      (fun k => rfl)
    rw [hr.row, h]
  refine ⟨fun k _ hg => ⟨hnode k hg,?_⟩,fun k hk => absurd (live_start _ _ _ _ k) hk⟩
  have hghost := Server.ghost_restore_build config (freshCluster localNode) db clients k
  rw [← hs₀] at hghost
  change s₀.restore.ghost k = none at hg
  rw [hghost, Option.map_eq_none_iff] at hg
  exact (hrows k).trans hg

/-- After every run, sweep and teardown amount to a removal exactly for a
client unknown to cluster and database, and unknown ids stay without a trace
throughout a run exactly if its sweeps meet only such clients. -/
theorem removal_paths_agree_iff (config : RexSystemConfig) (localNode : Option NodeId)
    (db : Option SledDb) (clients : Clients) (es : List Event) :
    let y₀ := start config (freshCluster localNode) db clients
    let s := (es.foldl step y₀).server
    (∀ k o, s.live k = some o →
      (SameSessions (s.removeClient k).2 (sweptThenClosed k o s) ↔
        s.node k = none ∧ s.row k = none ∧
          ((s.clients o).id = k ∨ s.live (s.clients o).id = none))) ∧
      (Always step (fun y => Accounted y.server) y₀ es ↔ Along step SweepsUnknown y₀ es) :=
  ⟨fun k o hl => same_sessions_iff k o _ hl,
    always_iff_along step SweepsUnknown (fun y => Booked y.server) _
      (fun _ h => h.accounted) step_booked step_not_accounted _ es
      (start_booked config localNode db clients)⟩

/-- Without cluster and database the two ways agree. -/
theorem paths_agree_without_store :
    let s := ([Event.accept 0 1 "tcp" 0,.frame 0 quietEnv (loginFrame 7 [])].foldl step
      (start plainConfig (freshCluster none) none unusedClients)).server
    s.live 7 = some 0 ∧ SameSessions (s.removeClient 7).2 (sweptThenClosed 7 0 s) :=
  ⟨by decide +kernel,
    ((removal_paths_agree_iff plainConfig none none unusedClients _).1 7 0
      (by decide +kernel)).mpr (by decide +kernel)⟩

/-- A client that logs in at second 0 and is silent until second 100 keeps
its registration and its row after sweep and teardown. -/
theorem swept_client_leaves_trace :
    let y := [Event.accept 0 1 "tcp" 0,.frame 0 quietEnv (loginFrame 7 [])].foldl step
      (start storedConfig (freshCluster (some "n1")) (some SledDb.empty) unusedClients)
    let z := [Event.inactiveSweep 100,.teardown 0].foldl step y
    let w := step y (.teardown 0)
    y.server.live 7 = some 0 ∧
      (z.server.live 7 = none ∧ z.server.ghost 7 = none) ∧
      (z.server.node 7 = some "n1" ∧ (z.server.row 7).isSome) ∧
      (w.server.node 7 = none ∧ w.server.row 7 = none) := by
  decide +kernel

end RexMq.RemovalPaths
