import Mathlib.Tactic.Common
import RexMq.ServerState

/-!
# The janitor's sweeps and the restore loop

Each of them repeats one small change over a list: ids whose row has
expired, ids that were silent too long, rows of the database. What a whole
loop does to every table is stated once, as a relation between the states
before and after.
-/

set_option autoImplicit false

namespace RexMq.ServerState.Server
open RexMq.ClientRegistry RexMq.PersistentStore

def queue (k : ClientId) (s : Server) : Option (List MessageId) :=
  s.db.bind (fun db => db.offlineIndex.lookup k)

def expired (now : UInt64) (s : Server) : List ClientId :=
  (s.db.map (fun db => db.expired now)).getD []

theorem mem_expired_iff (now : UInt64) (s : Server) (k : ClientId) :
    k ∈ s.expired now ↔ ∃ p, s.row k = some p ∧ p.ghostUntil < now := by
  cases hd : s.db with
  | none => simp [expired, row, hd]
  | some db => simp [expired, row, hd, SledDb.mem_expired_iff]

/-- The change by a ghost sweep: ghost entry, cluster registration and queue
go for the ids `ks`, the row for the ids `rows`. -/
structure Collected (ks rows : List ClientId) (s t : Server) : Prop where
  config : t.config = s.config
  clients : t.clients = s.clients
  closed : t.closedSenders = s.closedSenders
  id2client : t.registry.id2client = s.registry.id2client
  title2clients : t.registry.title2clients = s.registry.title2clients
  stored : t.db.isSome = s.db.isSome
  ghost : ∀ k, t.ghost k = if k ∈ ks then none else s.ghost k
  node : ∀ k, t.node k = if k ∈ ks then none else s.node k
  queue : ∀ k, t.queue k = if k ∈ ks then none else s.queue k
  row : ∀ k, t.row k = if k ∈ rows then none else s.row k

theorem Collected.live {ks rows : List ClientId} {s t : Server} (h : Collected ks rows s t)
    (k : ClientId) : t.live k = s.live k := by
  rw [live_def, ClientRegistryImpl.findSomeById, h.id2client, live_def,
    ClientRegistryImpl.findSomeById]

theorem Collected.subscribers {ks rows : List ClientId} {s t : Server}
    (h : Collected ks rows s t) (u : Title) :
    t.registry.subscribers u = s.registry.subscribers u := by
  rw [ClientRegistryImpl.subscribers, h.title2clients, ClientRegistryImpl.subscribers]

theorem expire_ghost_collected (k : ClientId) (s : Server) :
    Collected [k] [] s (s.expireGhost k) where
  config := rfl
  clients := rfl
  closed := rfl
  id2client := rfl
  title2clients := rfl
  stored := by simp [expireGhost]
  ghost := by
    intro j
    simp only [Server.ghost, expireGhost, ClientRegistryImpl.removeGhost, List.mem_singleton]
    split_ifs with hj
    · rw [hj, AList.lookup_erase]
    · rw [AList.lookup_erase_ne hj]
  node := by
    intro j
    simp only [Server.node, expireGhost, List.mem_singleton]
    exact ClusterPort.node_unregister s.cluster k j
  queue := by
    intro j
    cases hd : s.db with
    | none => simp [Server.queue, expireGhost, hd]
    | some db =>
      simp only [Server.queue, expireGhost, hd, Option.map_some, Option.bind_some,
        SledDb.clearOfflineMessages, List.mem_singleton]
      split_ifs with hj
      · rw [hj, AList.lookup_erase]
      · rw [AList.lookup_erase_ne hj]
  row := by
    intro j
    cases hd : s.db with
    | none => simp [Server.row, expireGhost, hd]
    | some db => simp [Server.row, expireGhost, hd, SledDb.row, SledDb.clearOfflineMessages]

theorem none_of_mem_append {β : Type*} (ks js : List ClientId) (k : ClientId) (x : Option β) :
    (if k ∈ js then none else if k ∈ ks then none else x) =
      if k ∈ ks++js then none else x := by
  by_cases hk : k ∈ ks <;> by_cases hj : k ∈ js <;> simp [hk, hj]

theorem Collected.trans {ks js rows rows' : List ClientId} {s t u : Server}
    (h : Collected ks rows s t) (g : Collected js rows' t u) :
    Collected (ks++js) (rows++rows') s u where
  config := g.config.trans h.config
  clients := g.clients.trans h.clients
  closed := g.closed.trans h.closed
  id2client := g.id2client.trans h.id2client
  title2clients := g.title2clients.trans h.title2clients
  stored := g.stored.trans h.stored
  ghost := by
    intro k
    rw [g.ghost, h.ghost, none_of_mem_append]
  node := by
    intro k
    rw [g.node, h.node, none_of_mem_append]
  queue := by
    intro k
    rw [g.queue, h.queue, none_of_mem_append]
  row := by
    intro k
    rw [g.row, h.row, none_of_mem_append]

theorem expire_ghosts_collected (ks : List ClientId) (s : Server) :
    Collected ks [] s (ks.foldl (fun s k => s.expireGhost k) s) := by
  induction ks generalizing s with
  | nil => exact ⟨rfl,rfl,rfl,rfl,rfl,rfl,by simp,by simp,by simp,by simp⟩
  | cons k ks ih => exact (expire_ghost_collected k s).trans (ih (s.expireGhost k))

theorem ghost_sweep_collected (now : UInt64) (s : Server) :
    Collected (s.expired now) (s.expired now) s (s.cleanupExpiredGhosts now) := by
  unfold cleanupExpiredGhosts
  cases hd : s.db with
  | none =>
    have he : s.expired now = [] := by simp [expired, hd]
    rw [he]
    exact ⟨rfl,rfl,rfl,rfl,rfl,rfl,by simp,by simp,by simp,by simp⟩
  | some db =>
    have he : s.expired now = db.expired now := by simp [expired, hd]
    have htake : Collected [] (db.expired now) s
        { s with db := some (db.takeExpiredGhosts now).2 } :=
      ⟨rfl,rfl,rfl,rfl,rfl,by simp [hd],fun k => by simp [Server.ghost],
        fun k => by simp [Server.node],
        fun k => by simp [Server.queue, hd, SledDb.takeExpiredGhosts],
        fun k => by simp [Server.row, hd, SledDb.row_take_expired]⟩
    have hall := htake.trans (expire_ghosts_collected (db.expired now) _)
    rw [List.append_nil, List.nil_append] at hall
    rw [he]
    exact hall

/-- One round of the restore loop adds at most the ghost of its row. -/
structure Restored (p : PersistedClient) (s t : Server) : Prop where
  config : t.config = s.config
  clients : t.clients = s.clients
  closed : t.closedSenders = s.closedSenders
  id2client : t.registry.id2client = s.registry.id2client
  title2clients : t.registry.title2clients = s.registry.title2clients
  db : t.db = s.db
  ghost : ∀ k, t.ghost k =
    if k = p.clientId ∧ s.live k = none ∧ s.ghost k = none then some (p.titles,p.ghostUntil)
    else s.ghost k
  node : ∀ k, t.node k = s.node k ∨ t.ghost k ≠ none

theorem restore_row_restored (s : Server) (p : PersistedClient) :
    Restored p s (s.restoreRow p) := by
  unfold restoreRow ClientRegistryImpl.addGhost
  by_cases hl : s.live p.clientId = none
  · by_cases hg : s.ghost p.clientId = none
    · rw [if_neg (AList.lookup_eq_none.mp hl), if_neg (AList.lookup_eq_none.mp hg)]
      have hghost : ∀ k, (s.registry.ghosts.insert p.clientId (p.titles,p.ghostUntil)).lookup k =
          if k = p.clientId ∧ s.live k = none ∧ s.ghost k = none then
            some (p.titles,p.ghostUntil) else s.ghost k := by
        intro k
        by_cases hk : k = p.clientId
        · subst hk
          rw [if_pos ⟨rfl,hl,hg⟩, AList.lookup_insert]
        · rw [if_neg (fun h => hk h.1), AList.lookup_insert_ne hk, Server.ghost]
      refine ⟨rfl,rfl,rfl,rfl,rfl,rfl,hghost,fun k => ?_⟩
      by_cases hk : k = p.clientId
      · right
        rw [Server.ghost, hghost, if_pos (by rw [hk]; exact ⟨rfl,hl,hg⟩)]
        simp
      · exact .inl (ClusterPort.node_register_other s.cluster _ k hk)
    · rw [if_neg (AList.lookup_eq_none.mp hl),
        if_pos (AList.lookup_isSome.mp (Option.isSome_iff_ne_none.mpr hg))]
      refine ⟨rfl,rfl,rfl,rfl,rfl,rfl,fun k => ?_,fun _ => .inl rfl⟩
      rw [if_neg]
      rintro ⟨rfl, -, hn⟩
      exact hg hn
  · rw [if_pos (AList.lookup_isSome.mp (Option.isSome_iff_ne_none.mpr hl))]
    refine ⟨rfl,rfl,rfl,rfl,rfl,rfl,fun k => ?_,fun _ => .inl rfl⟩
    rw [if_neg]
    rintro ⟨rfl, hn, -⟩
    exact hl hn

theorem Restored.live {p : PersistedClient} {s t : Server} (h : Restored p s t) (k : ClientId) :
    t.live k = s.live k := by
  rw [live_def, ClientRegistryImpl.findSomeById, h.id2client, live_def,
    ClientRegistryImpl.findSomeById]

theorem Restored.row {p : PersistedClient} {s t : Server} (h : Restored p s t) (k : ClientId) :
    t.row k = s.row k := by
  rw [Server.row, h.db, Server.row]

theorem restore_keeps_rows (I : Server → Prop)
    (hrow : ∀ s t p, Restored p s t → s.row p.clientId = some p → I s → I t) (s : Server)
    (hs : I s) : I s.restore := by
  unfold restore
  split_ifs
  · cases hd : s.db with
    | none => exact hs
    | some db =>
      have hrows : ∀ (ps : List PersistedClient) (s : Server), s.db = some db →
          (∀ p ∈ ps, p ∈ db.loadAll) → I s → I (ps.foldl restoreRow s) := by
        intro ps
        induction ps with
        | nil => exact fun s _ _ hs => hs
        | cons p ps ih =>
          intro s hd hps hs
          have hr := restore_row_restored s p
          have hp := (SledDb.mem_load_all_iff db p).mp (hps p List.mem_cons_self)
          apply ih _ (hr.db.trans hd) (fun q hq => hps q (List.mem_cons_of_mem _ hq))
          exact hrow s _ p hr (by rw [Server.row, hd]; exact hp) hs
      exact hrows db.loadAll s hd (fun _ hp => hp) hs
  · exact hs

theorem restore_keeps (I : Server → Prop)
    (hrow : ∀ s t p, Restored p s t → I s → I t) (s : Server) (hs : I s) : I s.restore :=
  restore_keeps_rows I (fun s t p hr _ => hrow s t p hr) s hs

/-- The change by an inactivity sweep over `ks`: the registry entries go and
nothing else does. -/
structure Evicted (ks : List ClientId) (s t : Server) : Prop where
  config : t.config = s.config
  clients : t.clients = s.clients
  cluster : t.cluster = s.cluster
  db : t.db = s.db
  ghost : ∀ k, t.ghost k = s.ghost k
  live : ∀ k, t.live k = if k ∈ ks then none else s.live k

theorem Evicted.node {ks : List ClientId} {s t : Server} (h : Evicted ks s t) (k : ClientId) :
    t.node k = s.node k := by
  rw [Server.node, h.cluster, Server.node]

theorem Evicted.row {ks : List ClientId} {s t : Server} (h : Evicted ks s t) (k : ClientId) :
    t.row k = s.row k := by
  rw [Server.row, h.db, Server.row]

theorem evicts_evicted (ks : List ClientId) (s : Server) :
    Evicted ks s (ks.foldl (fun s k => s.evict k) s) := by
  induction ks generalizing s with
  | nil => exact ⟨rfl,rfl,rfl,rfl,fun _ => rfl,by simp⟩
  | cons k ks ih =>
    have h := ih (s.evict k)
    refine ⟨h.config.trans (s.config_evict k),h.clients.trans (s.clients_evict k),
      h.cluster.trans (s.cluster_evict k),h.db.trans (s.db_evict k),
      fun j => (h.ghost j).trans (s.ghost_evict k j),fun j => ?_⟩
    rw [List.foldl_cons, h.live, live_evict]
    by_cases hj : j = k <;> by_cases hm : j ∈ ks <;> simp [hj, hm]

def inactive (now : UInt64) (s : Server) : List ClientId :=
  s.registry.takeInactive s.clients now s.config.clientTimeout

theorem mem_inactive_iff (now : UInt64) (s : Server) (k : ClientId) :
    k ∈ s.inactive now ↔ ∃ c, s.live k = some c ∧
      s.config.clientTimeout < saturatingSub now (s.clients c).lastRecv := by
  simp only [inactive, ClientRegistryImpl.takeInactive, List.mem_map, List.mem_filter,
    decide_eq_true_eq]
  constructor
  · rintro ⟨⟨j, c⟩, ⟨hc, hlate⟩, rfl⟩
    exact ⟨c,AList.mem_lookup_iff.mpr hc,hlate⟩
  · rintro ⟨c, hc, hlate⟩
    exact ⟨⟨k,c⟩,⟨AList.mem_lookup_iff.mp hc,hlate⟩,rfl⟩

theorem inactive_live (now : UInt64) (s : Server) (k : ClientId) (h : k ∈ s.inactive now) :
    s.live k ≠ none := by
  obtain ⟨c, hc, -⟩ := (s.mem_inactive_iff now k).mp h
  rw [hc]
  simp

theorem inactive_sweep_evicted (now : UInt64) (s : Server) :
    Evicted (s.inactive now) s (s.cleanupInactiveClients now) :=
  evicts_evicted ..

theorem ghost_restore_rows (ps : List PersistedClient) (s : Server) (k : ClientId)
    (hl : s.live k = none) :
    (ps.foldl restoreRow s).ghost k = (s.ghost k).or
      ((ps.find? (fun p => p.clientId = k)).map (fun p => (p.titles,p.ghostUntil))) := by
  induction ps generalizing s with
  | nil => simp
  | cons p ps ih =>
    have hr := restore_row_restored s p
    rw [List.foldl_cons, ih _ (by rw [hr.live, hl]), hr.ghost, List.find?_cons]
    by_cases hk : k = p.clientId
    · subst hk
      cases s.ghost p.clientId with
      | none => simp [hl]
      | some g => simp
    · simp [hk, Ne.symm hk]

theorem ghost_restore_build (config : RexSystemConfig) (cluster : ClusterPort)
    (db : Option SledDb) (clients : Clients) (k : ClientId) :
    (build config cluster db clients).restore.ghost k =
      ((build config cluster db clients).row k).map (fun p => (p.titles,p.ghostUntil)) := by
  cases hp : config.persistenceEnabled with
  | false => simp [restore, build, hp, row, Server.ghost, ClientRegistryImpl.new]
  | true =>
    cases db with
    | none => simp [restore, build, hp, row, Server.ghost, ClientRegistryImpl.new]
    | some db =>
      have hrow : (build config cluster (some db) clients).row k = db.row k := by
        simp [row, build, hp]
      have hrest : (build config cluster (some db) clients).restore =
          db.loadAll.foldl restoreRow (build config cluster (some db) clients) := by
        simp [restore, build, hp]
      rw [hrest, ghost_restore_rows _ _ k rfl, hrow, SledDb.find_load_all]
      rfl

end RexMq.ServerState.Server
