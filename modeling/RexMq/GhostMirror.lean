import Mathlib.Tactic.Common
import RexMq.FiniteRun
import RexMq.ServerSweeps

/-!
# Ghosts and their rows

A ghost stands for a client that a database row remembers and that has not
come back. Ghosts are made by the restore loop only, from rows, and never for
a live id. A row changes only by a save or a removal for an id that is live
then, or by the sweep that takes its ghost as well. So the ghosts mirror
their rows, and the sweep, which decides by the rows, collects exactly the
ghosts whose time is over.
-/

set_option autoImplicit false

namespace RexMq.GhostMirror
open RexMq.ByteWords RexMq.FiniteRun RexMq.ClientRegistry RexMq.PersistentStore
open RexMq.ServerState

/-- Whole operations on the services. Between them the client objects change
freely. -/
inductive GhostEvent where
  | restore
  | add (env : Env) (c : ClientRef)
  | remove (k : ClientId)
  | inactiveSweep (now : UInt64)
  | ghostSweep (now : UInt64)
  | objects (clients : Clients)

/-- Only clients whose id is not registered are added. -/
def ghostStep (s : Server) : GhostEvent → Server
  | .restore => s.restore
  | .add env c => if s.live (s.clients c).id = none then s.addClient env c else s
  | .remove k => (s.removeClient k).2
  | .inactiveSweep now => s.cleanupInactiveClients now
  | .ghostSweep now => s.cleanupExpiredGhosts now
  | .objects clients => { s with clients := clients }

/-- No ghost is live, and each has its row. -/
structure Mirrored (s : Server) : Prop where
  apart : ∀ k, s.ghost k ≠ none → s.live k = none
  rows : ∀ k g, s.ghost k = some g →
    ∃ p, s.row k = some p ∧ p.titles = g.1 ∧ p.ghostUntil = g.2

theorem mirrored_of_fewer (s t : Server) (h : Mirrored s)
    (hghost : ∀ k g, t.ghost k = some g → s.ghost k = some g)
    (hlive : ∀ k, t.ghost k ≠ none → s.live k = none → t.live k = none)
    (hrow : ∀ k, t.ghost k ≠ none → t.row k = s.row k) : Mirrored t := by
  constructor
  · intro k hk
    obtain ⟨g, hg⟩ := Option.ne_none_iff_exists'.mp hk
    exact hlive k hk (h.apart k (by rw [hghost k g hg]; simp))
  · intro k g hg
    rw [hrow k (by rw [hg]; simp)]
    exact h.rows k g (hghost k g hg)

theorem mirrored_restored (s t : Server) (p : PersistedClient) (hr : Server.Restored p s t)
    (hp : s.row p.clientId = some p) (h : Mirrored s) : Mirrored t := by
  constructor
  · intro k hk
    rw [hr.ghost] at hk
    rw [hr.live]
    split_ifs at hk with hnew
    · exact hnew.2.1
    · exact h.apart k hk
  · intro k g hg
    rw [hr.ghost] at hg
    rw [hr.row]
    split_ifs at hg with hnew
    · cases hg
      rw [hnew.1]
      exact ⟨p,hp,rfl,rfl⟩
    · exact h.rows k g hg

theorem mirrored_add (env : Env) (c : ClientRef) (s : Server) (h : Mirrored s) :
    Mirrored (s.addClient env c) := by
  have hne : ∀ k, (s.addClient env c).ghost k ≠ none → k ≠ (s.clients c).id := by
    rintro k hk rfl
    rw [Server.ghost_add_client, if_pos rfl] at hk
    exact hk rfl
  apply mirrored_of_fewer s _ h
  · intro k g hg
    have hk := hne k (by rw [hg]; simp)
    rwa [Server.ghost_add_client, if_neg hk] at hg
  · intro k hk hl
    rw [Server.live_add_client, if_neg (hne k hk)]
    exact hl
  · intro k hk
    rw [Server.row_add_client, if_neg (fun hc => hne k hk hc.1)]

theorem mirrored_remove (j : ClientId) (s : Server) (h : Mirrored s) :
    Mirrored (s.removeClient j).2 := by
  apply mirrored_of_fewer s _ h
  · intro k g hg
    rwa [Server.ghost_remove_client] at hg
  · intro k _ hl
    rw [Server.live_remove_client, hl, ite_self]
  · intro k hk
    rw [Server.ghost_remove_client] at hk
    -- a ghost is not live, and only the row of a live id is removed
    rw [Server.row_remove_client, if_neg]
    rintro ⟨rfl, hl⟩
    exact hl (h.apart k hk)

theorem mirrored_inactive_sweep (now : UInt64) (s : Server) (h : Mirrored s) :
    Mirrored (s.cleanupInactiveClients now) := by
  have he := s.inactive_sweep_evicted now
  apply mirrored_of_fewer s _ h
  · intro k g hg
    rwa [he.ghost] at hg
  · intro k _ hl
    rw [he.live, hl, ite_self]
  · intro k _
    exact he.row k

theorem mirrored_ghost_sweep (now : UInt64) (s : Server) (h : Mirrored s) :
    Mirrored (s.cleanupExpiredGhosts now) := by
  have hc := s.ghost_sweep_collected now
  have hkept : ∀ k, (s.cleanupExpiredGhosts now).ghost k ≠ none → k ∉ s.expired now := by
    intro k hk hexp
    rw [hc.ghost, if_pos hexp] at hk
    exact hk rfl
  apply mirrored_of_fewer s _ h
  · intro k g hg
    rw [hc.ghost] at hg
    split_ifs at hg
    exact hg
  · intro k _ hl
    rw [hc.live, hl]
  · intro k hk
    rw [hc.row, if_neg (hkept k hk)]

theorem mirrored_step (s : Server) (e : GhostEvent) (h : Mirrored s) :
    Mirrored (ghostStep s e) := by
  cases e with
  | restore => exact s.restore_keeps_rows Mirrored mirrored_restored h
  | add env c =>
    unfold ghostStep
    dsimp only
    split_ifs
    · exact mirrored_add env c s h
    · exact h
  | remove k => exact mirrored_remove k s h
  | inactiveSweep now => exact mirrored_inactive_sweep now s h
  | ghostSweep now => exact mirrored_ghost_sweep now s h
  | objects clients => exact ⟨h.apart,h.rows⟩

theorem ghost_sweep_exact (now : UInt64) (s : Server) (h : Mirrored s) (k : ClientId) :
    (s.cleanupExpiredGhosts now).ghost k = (s.ghost k).filter (fun g => now ≤ g.2) := by
  rw [(s.ghost_sweep_collected now).ghost]
  cases hg : s.ghost k with
  | none =>
    rw [ite_self]
    rfl
  | some g =>
    obtain ⟨p, hp, -, huntil⟩ := h.rows k g hg
    have hexp : k ∈ s.expired now ↔ ¬ now ≤ g.2 := by
      rw [Server.mem_expired_iff, hp, ← huntil, UInt64.not_le]
      constructor
      · rintro ⟨q, hq, hlt⟩
        cases hq
        exact hlt
      · intro hlt
        exact ⟨p,rfl,hlt⟩
    rw [Option.filter_some]
    by_cases hk : k ∈ s.expired now
    · rw [if_pos hk, if_neg (by simpa using hexp.mp hk)]
    · rw [if_neg hk, if_pos (by simpa using fun hlt => hk (hexp.mpr hlt))]

/-- In every state of every run from a new process, ghosts mirror their rows
and a sweep at any time keeps exactly the ghosts whose time is not over. -/
theorem ghosts_mirror_rows (config : RexSystemConfig) (cluster : ClusterPort)
    (db : Option SledDb) (clients : Clients) (es : List GhostEvent) :
    Always ghostStep (fun s => Mirrored s ∧ ∀ now k,
        (s.cleanupExpiredGhosts now).ghost k = (s.ghost k).filter (fun g => now ≤ g.2))
      (Server.build config cluster db clients) es := by
  have hbuild : Mirrored (Server.build config cluster db clients) := by
    have hnone : ∀ k, (Server.build config cluster db clients).ghost k = none := fun _ => rfl
    constructor
    · intro k hk
      exact absurd (hnone k) hk
    · intro k g hg
      rw [hnone] at hg
      cases hg
  apply always_mono ghostStep Mirrored
  · intro s h
    exact ⟨h,fun now k => ghost_sweep_exact now s h k⟩
  · exact always_of_step ghostStep Mirrored mirrored_step _ es hbuild

end RexMq.GhostMirror
