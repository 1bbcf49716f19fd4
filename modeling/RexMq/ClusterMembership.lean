import Mathlib.Logic.Relation
import Mathlib.Tactic.Common
import RexMq.ClusterJoin
import RexMq.FiniteRun
import RexMq.ServerRun

/-!
# Agreement on the members of a cluster

A node learns the nodes that have it as a seed from their Joins, and a seed of
its own from the answer to its Join. An answer lists only the node that sends
it, and no node passes on what it learns. So once the messages have
settled, two nodes know each other exactly when one of them is a seed of the
other and, for the one that joined, the answer was sent; and all tables agree
exactly when this is so for every pair of nodes.
-/

set_option autoImplicit false

namespace RexMq.ClusterMembership
open RexMq.ByteWords RexMq.FiniteRun RexMq.LinkNetwork
open RexMq.ServerState (NodeId Env Server)
open RexMq.ClusterMessages RexMq.RouteTable RexMq.PeerForwarder RexMq.ClusterManager
open RexMq.ClusterPublish (Host)
open RexMq.ClusterJoin RexMq.ServerRun

def infoOf (plan : Plan) (h : Host) : NodeInfo := ⟨plan.ident h,plan.addr h,0⟩

def Seeds (plan : Plan) (i j : Host) : Prop := plan.addr j ∈ plan.seeds i

/-- The nodes have different ids and listen at addresses with different texts,
every seed is the address of another node, and no node is named like the key
of a seed connection. -/
structure Sane (render : SocketAddr → String) (plan : Plan) : Prop where
  named : ∀ i ∈ plan.hosts, ∀ j ∈ plan.hosts, plan.ident i = plan.ident j → i = j
  texts : ∀ i ∈ plan.hosts, ∀ j ∈ plan.hosts,
    render (plan.addr i) = render (plan.addr j) → i = j
  unkeyed : ∀ i ∈ plan.hosts, ∀ j ∈ plan.hosts, plan.ident i ≠ seedKey render (plan.addr j)
  seeded : ∀ i ∈ plan.hosts, ∀ a ∈ plan.seeds i, ∃ j ∈ plan.hosts, j ≠ i ∧ plan.addr j = a

def SeedEdge (plan : Plan) (i j : Host) : Prop :=
  i ∈ plan.hosts ∧ j ∈ plan.hosts ∧ Seeds plan i j

def Linked (plan : Plan) : Prop :=
  ∀ i ∈ plan.hosts, ∀ j ∈ plan.hosts, Relation.EqvGen (SeedEdge plan) i j

def Knows (s : Shared) (i : Host) (n : NodeId) : Prop := n ∈ (s.tables i).getAllNodes

section Objects
variable (h i : Host) (node k n : NodeId) (ch : Channel) (s : Shared)

theorem knows_route (hash : Bytes → UInt64) (text : String) :
    Knows (putRoute hash h node text s) i n ↔ Knows s i n ∨ (i = h ∧ n = node) := by
  unfold Knows putRoute
  dsimp only
  rw [Function.update_apply]
  split_ifs with hi
  · rw [GlobalRouteTable.mem_get_all_nodes, GlobalRouteTable.mem_get_all_nodes,
      GlobalRouteTable.addNode, AList.mem_insert, hi]
    tauto
  · tauto

theorem lookup_connection :
    ((putConnection h node ch s).connections i).lookup k =
      if i = h ∧ k = node then some ch else (s.connections i).lookup k := by
  unfold putConnection
  dsimp only
  rw [Function.update_apply]
  by_cases hi : i = h
  · rw [if_pos hi, hi]
    by_cases hk : k = node
    · rw [hk, AList.lookup_insert, if_pos ⟨rfl,rfl⟩]
    · rw [AList.lookup_insert_ne hk, if_neg (fun hc => hk hc.2)]
  · rw [if_neg hi, if_neg (fun hc => hi hc.1)]

theorem mem_connection :
    k ∈ (putConnection h node ch s).connections i ↔
      k ∈ s.connections i ∨ (i = h ∧ k = node) := by
  rw [← AList.lookup_isSome, ← AList.lookup_isSome, lookup_connection]
  split_ifs with hc
  · simp [hc]
  · simp [hc]

end Objects

/-- The channel is open and leads to the host. -/
structure Leads (post : Network ClusterMessage) (ch : Channel) (j : Host) : Prop where
  opened : ch < post.opened
  dest : (post.links ch).dest = j

/-- It is the first channel of a connection that the other host opened. -/
structure LeadsOut (post : Network ClusterMessage) (ch : Channel) (i j : Host) : Prop
    extends Leads post ch j where
  first : ch%2 = 0
  source : (post.links ch).source = i

section Channels
variable {post post' : Network ClusterMessage} {ch : Channel} {i j : Host}

theorem Leads.same (he : post.SameEnds post') (h : Leads post ch j) : Leads post' ch j :=
  ⟨he.opened ▸ h.opened,(he.dest ch).trans h.dest⟩

theorem LeadsOut.same (he : post.SameEnds post') (h : LeadsOut post ch i j) :
    LeadsOut post' ch i j :=
  ⟨h.toLeads.same he,h.first,(he.source ch).trans h.source⟩

theorem Leads.connect (a b : Host) (h : Leads post ch j) : Leads (post.connect a b) ch j :=
  ⟨Nat.lt_add_right 2 h.opened,by rw [Network.link_connect_old _ _ _ _ h.opened, h.dest]⟩

theorem LeadsOut.connect (a b : Host) (h : LeadsOut post ch i j) :
    LeadsOut (post.connect a b) ch i j :=
  ⟨h.toLeads.connect a b,h.first,by rw [Network.link_connect_old _ _ _ _ h.opened, h.source]⟩

theorem leads_out_new (h : post.opened%2 = 0) :
    LeadsOut (post.connect i j) post.opened i j :=
  ⟨⟨Nat.lt_add_of_pos_right Nat.two_pos,by rw [Network.link_connect_out]⟩,h,
    by rw [Network.link_connect_out]⟩

end Channels

section Wiring
variable (render : SocketAddr → String) (plan : Plan)

/-- Connections lead to the nodes they are stored under. -/
structure Wired (conns : Host → Connections) (post : Network ClusterMessage)
    (stored : Channel → Bool) : Prop where
  even : post.opened%2 = 0
  paired : ∀ ch < post.opened, ch%2 = 0 → Leads post (ch+1) (post.links ch).source
  named : ∀ i, ∀ j ∈ plan.hosts, ∀ ch, (conns i).lookup (plan.ident j) = some ch → Leads post ch j
  seeds : ∀ i, ∀ j ∈ plan.hosts, ∀ ch,
    (conns i).lookup (seedKey render (plan.addr j)) = some ch → LeadsOut post ch i j
  stored : ∀ ch, stored ch = true →
    ch < post.opened ∧ plan.ident (post.links ch).source ∈ conns (post.links ch).dest

variable {render plan}
variable {s : Shared} {conns : Host → Connections} {post post' : Network ClusterMessage}
variable {stored : Channel → Bool}

theorem Wired.same (he : post.SameEnds post') (h : Wired render plan conns post stored) :
    Wired render plan conns post' stored where
  even := he.opened ▸ h.even
  paired ch hch hz := by
    rw [he.source]
    exact (h.paired ch (he.opened ▸ hch) hz).same he
  named i j hj ch hl := (h.named i j hj ch hl).same he
  seeds i j hj ch hl := (h.seeds i j hj ch hl).same he
  stored ch hs := by
    rw [he.opened, he.source, he.dest]
    exact h.stored ch hs

theorem Wired.connect (i j : Host) (h : Wired render plan conns post stored) :
    Wired render plan conns (post.connect i j) stored where
  even := by
    show (post.opened+2)%2 = 0
    rw [Nat.add_mod_right, h.even]
  paired ch hch hz := by
    have heven := h.even
    have hlt : ch < post.opened+2 := hch
    rcases eq_or_ne ch post.opened with rfl | hne
    · refine ⟨by show post.opened+1 < post.opened+2; omega,?_⟩
      rw [Network.link_connect_back, Network.link_connect_out]
    · have hold : ch < post.opened := by omega
      rw [Network.link_connect_old _ _ _ _ hold]
      exact (h.paired ch hold hz).connect i j
  named i' j' hj ch hl := (h.named i' j' hj ch hl).connect i j
  seeds i' j' hj ch hl := (h.seeds i' j' hj ch hl).connect i j
  stored ch hs := by
    have hold := (h.stored ch hs).1
    rw [Network.link_connect_old _ _ _ _ hold]
    exact ⟨Nat.lt_add_right 2 hold,(h.stored ch hs).2⟩

theorem Wired.put (i : Host) (node : NodeId) (ch : Channel)
    (hname : ∀ j ∈ plan.hosts, plan.ident j = node → Leads post ch j)
    (hseed : ∀ j ∈ plan.hosts, seedKey render (plan.addr j) = node → LeadsOut post ch i j)
    (h : Wired render plan s.connections post stored) :
    Wired render plan (putConnection i node ch s).connections post stored where
  even := h.even
  paired := h.paired
  named i' j hj ch' hl := by
    rw [lookup_connection] at hl
    split_ifs at hl with hc
    · cases hl
      exact hname j hj hc.2
    · exact h.named i' j hj ch' hl
  seeds i' j hj ch' hl := by
    rw [lookup_connection] at hl
    split_ifs at hl with hc
    · cases hl
      rw [hc.1]
      exact hseed j hj hc.2
    · exact h.seeds i' j hj ch' hl
  stored ch' hs := ⟨(h.stored ch' hs).1,
    (mem_connection _ _ _ _ _ _).mpr (.inl (h.stored ch' hs).2)⟩

theorem Wired.store (ch : Channel) (hch : ch < post.opened)
    (hmem : plan.ident (post.links ch).source ∈ conns (post.links ch).dest)
    (h : Wired render plan conns post stored) :
    Wired render plan conns post (Function.update stored ch true) where
  even := h.even
  paired := h.paired
  named := h.named
  seeds := h.seeds
  stored ch' hs := by
    rw [Function.update_apply] at hs
    split_ifs at hs with hc
    · exact hc ▸ ⟨hch,hmem⟩
    · exact h.stored ch' hs

end Wiring

section Letters
variable (plan : Plan)

/-- A message on its way to the host: the Join of a node that has it as a
seed, or the answer of a node to its own Join. -/
inductive Carried (answered : List (Host × NodeId)) (i : Host) : ClusterMessage → Prop
  | join (j : Host) : i ∈ plan.hosts → j ∈ plan.hosts → j ≠ i → Seeds plan j i →
      Carried answered i (.join (infoOf plan j))
  | nodeList (j : Host) : i ∈ plan.hosts → j ∈ plan.hosts → j ≠ i →
      (j,plan.ident i) ∈ answered → Carried answered i (.nodeList [infoOf plan j])

/-- A Join that waits to be handled came over a connection that is stored. -/
structure Letters (conns : Host → Connections) (post : Network ClusterMessage)
    (answered : List (Host × NodeId)) : Prop where
  carried : ∀ i m, post.Bound i m → Carried plan answered i m
  joins : ∀ ch info, .join info ∈ (post.links ch).queue →
    ch%2 = 0 ∧ (post.links ch).source ∈ plan.hosts ∧ info = infoOf plan (post.links ch).source
  waiting : ∀ i info, .join info ∈ post.inbox i → info.nodeId ∈ conns i

variable {plan}
variable {conns conns' : Host → Connections} {post : Network ClusterMessage}
variable {answered answered' : List (Host × NodeId)}

theorem Carried.mono (h : ∀ p ∈ answered, p ∈ answered') (i : Host) (m : ClusterMessage)
    (hc : Carried plan answered i m) : Carried plan answered' i m := by
  cases hc with
  | join j hi hj hne hs => exact .join j hi hj hne hs
  | nodeList j hi hj hne ha => exact .nodeList j hi hj hne (h _ ha)

theorem Letters.mono (hc : ∀ i n, n ∈ conns i → n ∈ conns' i)
    (ha : ∀ p ∈ answered, p ∈ answered') (h : Letters plan conns post answered) :
    Letters plan conns' post answered' where
  carried i m hm := (h.carried i m hm).mono ha
  joins := h.joins
  waiting i info hm := hc i _ (h.waiting i info hm)

theorem Letters.connect (a b : Host) (h : Letters plan conns post answered) :
    Letters plan conns (post.connect a b) answered where
  carried i m hm := h.carried i m ((Network.bound_connect post i m a b).mp hm)
  joins ch info hm := by
    rw [Network.queue_connect] at hm
    rw [Network.link_connect_old _ _ _ _ (Network.opened_of_mem _ ch _ hm)]
    exact h.joins ch info hm
  waiting := h.waiting

theorem Letters.put (ch : Channel) (m : ClusterMessage) (hch : ch < post.opened)
    (hm : Carried plan answered (post.links ch).dest m)
    (hj : ∀ info, m = .join info → ch%2 = 0 ∧ (post.links ch).source ∈ plan.hosts ∧
      info = infoOf plan (post.links ch).source)
    (h : Letters plan conns post answered) : Letters plan conns (post.put ch m) answered where
  carried i m' hb := by
    rcases (Network.bound_put post ch i m m' hch).mp hb with hb | ⟨rfl, rfl⟩
    · exact h.carried i m' hb
    · exact hm
  joins c info hq := by
    rw [Network.source_put]
    rw [Network.link_put post ch c m hch] at hq
    split_ifs at hq with hc
    · rcases List.mem_append.mp hq with hq | hq
      · exact hc ▸ h.joins ch info hq
      · exact hc ▸ hj info (List.mem_singleton.mp hq).symm
    · exact h.joins c info hq
  waiting i info hq := by
    rw [Network.inbox_put] at hq
    exact h.waiting i info hq

theorem Letters.take (a : Host) (h : Letters plan conns post answered) :
    Letters plan conns (post.take a) answered where
  carried i m hb := h.carried i m (Network.bound_of_take post i m a hb)
  joins := h.joins
  waiting i info hq := by
    rw [Network.inbox_take] at hq
    split_ifs at hq with hi
    · exact h.waiting i info (hi ▸ List.mem_of_mem_tail hq)
    · exact h.waiting i info hq

theorem Letters.carry (ch : Channel)
    (hst : ∀ info, (post.links ch).queue.head? = some (.join info) →
      info.nodeId ∈ conns (post.links ch).dest)
    (h : Letters plan conns post answered) : Letters plan conns (post.carry ch) answered where
  carried i m hb := h.carried i m ((Network.bound_carry post ch i m).mp hb)
  joins c info hq := by
    rw [Network.source_carry]
    rw [Network.link_carry] at hq
    split_ifs at hq with hc
    · exact hc ▸ h.joins ch info (List.mem_of_mem_tail hq)
    · exact h.joins c info hq
  waiting i info hq := by
    rcases (Network.mem_inbox_carry post ch i _).mp hq with hq | ⟨rfl, hhead⟩
    · exact h.waiting i info hq
    · exact hst info (by simpa using hhead)

end Letters

section Learning
variable (plan : Plan)

/-- A name that the host has a way to learn. -/
def Due (answered : List (Host × NodeId)) (i : Host) (n : NodeId) : Prop :=
  n = plan.ident i ∨ ∃ j ∈ plan.hosts, j ≠ i ∧ n = plan.ident j ∧
    (Seeds plan j i ∨ (j,plan.ident i) ∈ answered)

def Dialled : Phase → SocketAddr → Prop
  | .off, _ => False
  | .dialing rest, a => a ∉ rest
  | .ready, _ => True

inductive Names (info : NodeInfo) : ClusterMessage → Prop
  | join : Names info (.join info)
  | nodeList : Names info (.nodeList [info])

theorem names_inj {info info' : NodeInfo} {m : ClusterMessage} (h : Names info m)
    (h' : Names info' m) : info = info' := by
  cases h <;> cases h' <;> rfl

/-- Whom a node was told of it knows, or the message is still on its way. -/
structure Learned (g : Gathering) : Prop where
  own : ∀ h, (g.seats h).phase ≠ .off → Knows g.shared h (plan.ident h)
  due : ∀ i ∈ plan.hosts, ∀ n, Knows g.shared i n → Due plan g.answered i n
  joined : ∀ i ∈ plan.hosts, ∀ j ∈ plan.hosts, Seeds plan j i →
    Dialled (g.seats j).phase (plan.addr i) →
      g.post.Bound i (.join (infoOf plan j)) ∨ Knows g.shared i (plan.ident j)
  told : ∀ i ∈ plan.hosts, ∀ j ∈ plan.hosts, (j,plan.ident i) ∈ g.answered →
    g.post.Bound i (.nodeList [infoOf plan j]) ∨ Knows g.shared i (plan.ident j)
  asked : ∀ i ∈ plan.hosts, ∀ j, (j,plan.ident i) ∈ g.answered → Seeds plan i j

/-- What a step may do to the tables and to what is on its way to them. -/
structure Progress (g g' : Gathering) : Prop where
  keeps : ∀ i n, Knows g.shared i n → Knows g'.shared i n
  learns : ∀ i ∈ plan.hosts, ∀ n, Knows g'.shared i n →
    Knows g.shared i n ∨ Due plan g'.answered i n
  holds : ∀ p ∈ g.answered, p ∈ g'.answered
  passes : ∀ i ∈ plan.hosts, ∀ j ∈ plan.hosts, ∀ m, Names (infoOf plan j) m →
    g.post.Bound i m → g'.post.Bound i m ∨ Knows g'.shared i (plan.ident j)
  starts : ∀ h, (g'.seats h).phase ≠ .off →
    (g.seats h).phase ≠ .off ∨ Knows g'.shared h (plan.ident h)
  dials : ∀ i ∈ plan.hosts, ∀ j ∈ plan.hosts, Seeds plan j i →
    Dialled (g'.seats j).phase (plan.addr i) →
      Dialled (g.seats j).phase (plan.addr i) ∨ g'.post.Bound i (.join (infoOf plan j))
  answers : ∀ i ∈ plan.hosts, ∀ j, (j,plan.ident i) ∈ g'.answered →
    (j,plan.ident i) ∈ g.answered ∨
      (Seeds plan i j ∧ g'.post.Bound i (.nodeList [infoOf plan j]))

variable {plan} {g g' : Gathering}

theorem Due.mono (answered answered' : List (Host × NodeId)) (h : ∀ p ∈ answered, p ∈ answered')
    (i : Host) (n : NodeId) (hd : Due plan answered i n) : Due plan answered' i n := by
  rcases hd with hd | ⟨j, hj, hne, hn, hs | ha⟩
  · exact .inl hd
  · exact .inr ⟨j,hj,hne,hn,.inl hs⟩
  · exact .inr ⟨j,hj,hne,hn,.inr (h _ ha)⟩

theorem Learned.step (hp : Progress plan g g') (h : Learned plan g) : Learned plan g' where
  own i hi := by
    rcases hp.starts i hi with hi | hi
    · exact hp.keeps _ _ (h.own i hi)
    · exact hi
  due i hi n hn := by
    rcases hp.learns i hi n hn with hn | hn
    · exact (h.due i hi n hn).mono _ _ hp.holds
    · exact hn
  joined i hi j hj hs hd := by
    rcases hp.dials i hi j hj hs hd with hd | hb
    · rcases h.joined i hi j hj hs hd with hb | hk
      · exact hp.passes i hi j hj _ .join hb
      · exact .inr (hp.keeps _ _ hk)
    · exact .inl hb
  told i hi j hj ha := by
    rcases hp.answers i hi j ha with ha | ⟨-, hb⟩
    · rcases h.told i hi j hj ha with hb | hk
      · exact hp.passes i hi j hj _ .nodeList hb
      · exact .inr (hp.keeps _ _ hk)
    · exact .inl hb
  asked i hi j ha := by
    rcases hp.answers i hi j ha with ha | ⟨hs, -⟩
    · exact h.asked i hi j ha
    · exact hs

section Unanswered
variable (hk : g'.shared.tables = g.shared.tables) (ha : g'.answered = g.answered)
variable (hb : ∀ i m, g.post.Bound i m → g'.post.Bound i m)
include hk ha hb

theorem progress_of_tables
    (hstart : ∀ h, (g'.seats h).phase ≠ .off → (g.seats h).phase ≠ .off)
    (hdial : ∀ i ∈ plan.hosts, ∀ j ∈ plan.hosts, Seeds plan j i →
      Dialled (g'.seats j).phase (plan.addr i) →
        Dialled (g.seats j).phase (plan.addr i) ∨ g'.post.Bound i (.join (infoOf plan j))) :
    Progress plan g g' where
  keeps i n hn := by
    rw [Knows, hk]
    exact hn
  learns i _ n hn := by
    rw [Knows, hk] at hn
    exact .inl hn
  holds p hp := ha ▸ hp
  passes i _ j _ m _ hm := .inl (hb i m hm)
  starts h hh := .inl (hstart h hh)
  dials := hdial
  answers i _ j hm := .inl (ha ▸ hm)

theorem progress_of_same (hs : ∀ h, (g'.seats h).phase = (g.seats h).phase) :
    Progress plan g g' :=
  progress_of_tables hk ha hb (fun h hh => hs h ▸ hh) (fun _ _ j _ _ hd => .inl (hs j ▸ hd))

theorem progress_of_phase (h : Host) (hon : (g.seats h).phase ≠ .off)
    (hs : ∀ i, i ≠ h → (g'.seats i).phase = (g.seats i).phase)
    (hd : ∀ i ∈ plan.hosts, Seeds plan h i → Dialled (g'.seats h).phase (plan.addr i) →
      Dialled (g.seats h).phase (plan.addr i) ∨ g'.post.Bound i (.join (infoOf plan h))) :
    Progress plan g g' := by
  apply progress_of_tables hk ha hb
  · intro i hi
    by_cases hih : i = h
    · exact hih ▸ hon
    · exact hs i hih ▸ hi
  · intro i hi j _ hseed hdial
    by_cases hjh : j = h
    · subst hjh
      exact hd i hi hseed hdial
    · exact .inl (hs j hjh ▸ hdial)

end Unanswered
end Learning

section Seating
variable (plan : Plan) (h : Host)

/-- The manager of a node at each stage of its start. -/
def managerIn : Phase → ServerClusterManager
  | .off => newManager plan h
  | .dialing _ => ⟨none,h,plan.ident h,plan.addr h,true,false⟩
  | .ready => ⟨some h,h,plan.ident h,plan.addr h,true,false⟩

/-- A node dials its seeds in order, and other nodes at their addresses. -/
structure Seated (s : Seat) : Prop where
  manager : s.node.manager = managerIn plan h s.phase
  member : s.phase ≠ .off → h ∈ plan.hosts
  rest : ∀ rest, s.phase = .dialing rest → rest <:+ plan.seeds h
  dials : ∀ d ∈ s.dials++s.opening, ∃ j ∈ plan.hosts, d = (plan.ident j,plan.addr j)

variable {plan h} {s : Seat}

theorem Seated.table (hs : Seated plan h s) : s.node.manager.routeTable = h := by
  rw [hs.manager]
  cases s.phase <;> rfl

theorem Seated.ident (hs : Seated plan h s) : s.node.manager.localNodeId = plan.ident h := by
  rw [hs.manager]
  cases s.phase <;> rfl

theorem Seated.info (hs : Seated plan h s) (hp : s.phase ≠ .off) :
    localInfo s.node.manager = infoOf plan h := by
  rw [hs.manager]
  cases hph : s.phase with
  | off => exact absurd hph hp
  | dialing rest => rfl
  | ready => rfl

theorem Seated.transport (hs : Seated plan h s) :
    s.node.manager.nodeManager = none ∨
      (s.node.manager.nodeManager = some h ∧ s.phase ≠ .off) := by
  rw [hs.manager]
  cases s.phase with
  | off => exact .inl rfl
  | dialing rest => exact .inl rfl
  | ready => exact .inr ⟨rfl,fun hc => by cases hc⟩

end Seating

section Steps
variable (hash : Bytes → UInt64) (render : SocketAddr → String) (plan : Plan)

structure Inv (g : Gathering) : Prop where
  wired : Wired render plan g.shared.connections g.post g.stored
  letters : Letters plan g.shared.connections g.post g.answered
  learned : Learned plan g
  seated : ∀ h, Seated plan h (g.seats h)

variable {plan} {g : Gathering}

theorem seated_set {h : Host} {s : Seat} (hs : Seated plan h s)
    (hg : ∀ h, Seated plan h (g.seats h)) : ∀ i, Seated plan i ((g.setSeat h s).seats i) := by
  intro i
  show Seated plan i (Function.update g.seats h s i)
  rcases eq_or_ne i h with rfl | hne
  · rw [Function.update_self]
    exact hs
  · rw [Function.update_of_ne hne]
    exact hg i

theorem phase_set (h i : Host) (s : Seat) :
    ((g.setSeat h s).seats i).phase = if i = h then s.phase else (g.seats i).phase := by
  show (Function.update g.seats h s i).phase = _
  rw [Function.update_apply]
  split_ifs <;> rfl

theorem phase_set_ne (h : Host) (s : Seat) (i : Host) (hi : i ≠ h) :
    ((g.setSeat h s).seats i).phase = (g.seats i).phase := by
  rw [phase_set, if_neg hi]

theorem phase_set_same (h : Host) (s : Seat) (hs : s.phase = (g.seats h).phase) (i : Host) :
    ((g.setSeat h s).seats i).phase = (g.seats i).phase := by
  rw [phase_set]
  split_ifs with hi
  · rw [hs, hi]
  · rfl

variable {render}

theorem inv_start (plan : Plan) (servers : Host → Server)
    (forwarders : Host → NetworkForwarder) :
    Inv render plan (gathering plan servers forwarders) where
  wired :=
    { even := rfl
      paired := fun ch hch => absurd hch (Nat.not_lt_zero ch)
      named := fun i j _ ch hl => by cases hl
      seeds := fun i j _ ch hl => by cases hl
      stored := fun ch hs => by cases hs }
  letters :=
    { carried := fun i m hb => by
        rcases hb with hb | ⟨ch, -, hb⟩
        · cases hb
        · cases hb
      joins := fun ch info hm => by cases hm
      waiting := fun i info hm => by cases hm }
  learned :=
    { own := fun h hh => absurd rfl hh
      due := fun i _ n hn => by cases hn
      joined := fun i _ j _ _ hd => hd.elim
      told := fun i _ j _ ha => by cases ha
      asked := fun i _ j ha => by cases ha }
  seated h :=
    { manager := rfl
      member := fun hh => absurd rfl hh
      rest := fun rest hr => by cases hr
      dials := fun d hd => by cases hd }

theorem inv_start_node (h : Host) (hg : Inv render plan g) :
    Inv render plan (startNode hash render plan h g) := by
  unfold startNode
  split_ifs with hc
  swap
  · exact hg
  have hr : startLocal hash render (wire g.post) ⟨plan.addr h,plan.seeds h⟩
      (g.seats h).node.manager ⟨g.shared,0,[]⟩ =
        (managerIn plan h (.dialing (plan.seeds h)),
          ⟨putRoute hash h (plan.ident h) (render (plan.addr h)) g.shared,1,[]⟩) := by
    rw [(hg.seated h).manager, hc.2]
    rfl
  dsimp only
  rw [hr]
  refine ⟨hg.wired,hg.letters,hg.learned.step ?_,seated_set ?_ hg.seated⟩
  · exact
      { keeps := fun i n hn => (knows_route _ _ _ _ _ _ _).mpr (.inl hn)
        learns := fun i _ n hn => by
          rcases (knows_route _ _ _ _ _ _ _).mp hn with hn | ⟨rfl, rfl⟩
          · exact .inl hn
          · exact .inr (.inl rfl)
        holds := fun p hp => hp
        passes := fun i _ j _ m _ hb => .inl hb
        starts := fun i hi => by
          rw [phase_set] at hi
          split_ifs at hi with hih
          · exact .inr ((knows_route _ _ _ _ _ _ _).mpr (.inr ⟨hih,by rw [hih]⟩))
          · exact .inl hi
        dials := fun i _ j _ hs hd => by
          rw [phase_set] at hd
          split_ifs at hd with hjh
          · exact absurd (hjh ▸ hs) hd
          · exact .inl hd
        answers := fun i _ j ha => .inl ha }
  · exact
      { manager := rfl
        member := fun _ => hc.1
        rest := fun rest hr => by
          cases hr
          exact List.suffix_refl _
        dials := (hg.seated h).dials }

theorem inv_finish_start (h : Host) (hg : Inv render plan g) :
    Inv render plan (finishStart h g) := by
  unfold finishStart
  dsimp only
  split_ifs with hc
  swap
  · exact hg
  have hs := hg.seated h
  have hon : (g.seats h).phase ≠ .off := by
    rw [hc]
    exact fun hc => by cases hc
  refine ⟨hg.wired,hg.letters,hg.learned.step ?_,seated_set ?_ hg.seated⟩
  · refine progress_of_phase rfl rfl (fun _ _ hb => hb) h hon (phase_set_ne h _) ?_
    intro i _ _ _
    left
    rw [hc]
    exact List.not_mem_nil
  · exact
      { manager := by
          show startDone h (g.seats h).node.manager = _
          rw [hs.manager, hc]
          rfl
        member := fun _ => hs.member hon
        rest := fun rest hr => by cases hr
        dials := hs.dials }

theorem inv_check_dial (h : Host) (k : ℕ) (hg : Inv render plan g) :
    Inv render plan (checkDial h g k) := by
  unfold checkDial
  dsimp only
  split
  · exact hg
  rename_i d hd
  have hs := hg.seated h
  refine ⟨hg.wired,hg.letters,hg.learned.step ?_,
    seated_set ⟨hs.manager,hs.member,hs.rest,?_⟩ hg.seated⟩
  · exact progress_of_same rfl rfl (fun _ _ hb => hb) (phase_set_same h _ rfl)
  · intro d' hd'
    apply hs.dials
    rcases List.mem_append.mp hd' with hm | hm
    · exact List.mem_append_left _ (List.mem_of_mem_eraseIdx hm)
    · dsimp only at hm
      split_ifs at hm
      · exact List.mem_append_right _ hm
      · rcases List.mem_append.mp hm with hm | hm
        · exact List.mem_append_right _ hm
        · rw [List.mem_singleton.mp hm]
          exact List.mem_append_left _ (List.mem_of_getElem? hd)

theorem listener_eq_some (a : SocketAddr) (j : Host) (h : listener plan g a = some j) :
    j ∈ plan.hosts ∧ plan.addr j = a := by
  have hp := List.find?_some h
  rw [decide_eq_true_eq] at hp
  exact ⟨List.mem_of_find?_eq_some h,hp.1⟩

variable (hplan : Sane render plan)
include hplan

theorem store_sender_spec (ch : Channel) (hg : Inv render plan g) :
    ∃ conns stored, storeSender g ch =
        { g with shared := { g.shared with connections := conns }, stored := stored } ∧
      Wired render plan conns g.post stored ∧
      (∀ i n, n ∈ g.shared.connections i → n ∈ conns i) ∧
      ∀ info, (g.post.links ch).queue.head? = some (.join info) →
        info.nodeId ∈ conns (g.post.links ch).dest := by
  have hsame (hno : ∀ info, (g.post.links ch).queue.head? = some (.join info) →
      info.nodeId ∈ g.shared.connections (g.post.links ch).dest) :
      ∃ conns stored, g =
          { g with shared := { g.shared with connections := conns }, stored := stored } ∧
        Wired render plan conns g.post stored ∧
        (∀ i n, n ∈ g.shared.connections i → n ∈ conns i) ∧
        ∀ info, (g.post.links ch).queue.head? = some (.join info) →
          info.nodeId ∈ conns (g.post.links ch).dest :=
    ⟨g.shared.connections,g.stored,rfl,hg.wired,fun _ _ hn => hn,hno⟩
  unfold storeSender
  split
  · rename_i info hhead
    have hmem : ClusterMessage.join info ∈ (g.post.links ch).queue :=
      List.mem_of_mem_head? hhead
    obtain ⟨hfirst, hsource, rfl⟩ := hg.letters.joins ch info hmem
    have hopen := Network.opened_of_mem _ ch _ hmem
    split_ifs with hc
    · have hin : plan.ident (g.post.links ch).source ∈
          (putConnection (g.post.links ch).dest (plan.ident (g.post.links ch).source) (ch+1)
            g.shared).connections (g.post.links ch).dest :=
        (mem_connection _ _ _ _ _ _).mpr (.inr ⟨rfl,rfl⟩)
      refine ⟨_,_,rfl,(hg.wired.put _ _ _ ?_ ?_).store ch hopen hin,
        fun i n hn => (mem_connection _ _ _ _ _ _).mpr (.inl hn),?_⟩
      · intro j hj hid
        rw [hplan.named j hj _ hsource hid]
        exact hg.wired.paired ch hopen hfirst
      · intro j hj hid
        exact absurd hid.symm (hplan.unkeyed _ hsource j hj)
      · intro info' hinfo
        rw [hhead] at hinfo
        cases hinfo
        exact hin
    · apply hsame
      intro info' hinfo
      rw [hhead] at hinfo
      cases hinfo
      have hst : g.stored ch = true := by
        by_contra hn
        exact hc ⟨hfirst,Bool.eq_false_iff.mpr hn⟩
      exact (hg.wired.stored ch hst).2
  · rename_i hno
    exact hsame (fun info hinfo => absurd hinfo (hno info))

theorem inv_arrive (ch : Channel) (hg : Inv render plan g) : Inv render plan (arrive g ch) := by
  obtain ⟨conns, stored, he, hw, hmono, hst⟩ := store_sender_spec hplan ch hg
  rw [arrive, he]
  refine ⟨hw.same (Network.same_ends_carry _ ch),
    (hg.letters.mono hmono (fun _ hp => hp)).carry ch hst,hg.learned.step ?_,hg.seated⟩
  exact progress_of_same rfl rfl (fun i m hb => (Network.bound_carry g.post ch i m).mpr hb)
    (fun _ => rfl)

theorem inv_open_dial (h : Host) (k : ℕ) (hg : Inv render plan g) :
    Inv render plan (openDial plan h g k) := by
  unfold openDial
  dsimp only
  split
  · exact hg
  rename_i d hd
  split
  · exact hg
  rename_i j hl
  have hs := hg.seated h
  have hmem : d ∈ (g.seats h).dials++(g.seats h).opening :=
    List.mem_append_right _ (List.mem_of_getElem? hd)
  obtain ⟨j', hj', rfl⟩ := hs.dials d hmem
  obtain ⟨hj, haddr⟩ := listener_eq_some _ j hl
  obtain rfl := hplan.texts j hj j' hj' (congrArg render haddr)
  have hnew := leads_out_new (i := h) (j := j) hg.wired.even
  refine ⟨(hg.wired.connect h j).put h _ _ ?_ ?_,
    (hg.letters.connect h j).mono (fun i n hn => (mem_connection _ _ _ _ _ _).mpr (.inl hn))
      (fun _ hp => hp),hg.learned.step ?_,seated_set ⟨hs.manager,hs.member,hs.rest,?_⟩ hg.seated⟩
  · intro i hi hid
    rw [hplan.named i hi j hj hid]
    exact hnew.toLeads
  · intro i hi hid
    exact absurd hid.symm (hplan.unkeyed j hj i hi)
  · exact progress_of_same rfl rfl
      (fun i m hb => (Network.bound_connect g.post i m h j).mpr hb) (phase_set_same h _ rfl)
  · intro d' hd'
    apply hs.dials
    rcases List.mem_append.mp hd' with hm | hm
    · exact List.mem_append_left _ hm
    · exact List.mem_append_right _ (List.mem_of_mem_eraseIdx hm)

theorem dial_spec (h j : Host) (hj : j ∈ plan.hosts) (info : NodeInfo) (hg : Inv render plan g) :
    ∃ conns n ch,
      connectToSeed render (wire g.post) h info (plan.addr j) ⟨g.shared,0,[]⟩ =
        ⟨{ g.shared with connections := conns },n,[(ch,.join info)]⟩ ∧
      ∃ post, (if seedKey render (plan.addr j) ∈ g.shared.connections h then g.post
          else g.post.connect h j) = post ∧
        LeadsOut post ch h j ∧ Wired render plan conns post g.stored ∧
        Letters plan conns post g.answered ∧
        ∀ i m, post.Bound i m ↔ g.post.Bound i m := by
  by_cases hmem : seedKey render (plan.addr j) ∈ g.shared.connections h
  · obtain ⟨ch, hch⟩ := Option.isSome_iff_exists.mp (AList.lookup_isSome.mpr hmem)
    refine ⟨_,_,ch,connect_to_seed_taken render _ h info _ g.shared 0 ch hch,
      g.post,if_pos hmem,?_,hg.wired,hg.letters,fun _ _ => Iff.rfl⟩
    exact hg.wired.seeds h j hj ch hch
  · have hnew := leads_out_new (i := h) (j := j) hg.wired.even
    refine ⟨_,_,_,connect_to_seed_new render _ h info _ g.shared 0 hmem,
      g.post.connect h j,if_neg hmem,hnew,(hg.wired.connect h j).put h _ _ ?_ ?_,
      (hg.letters.connect h j).mono (fun i n hn => (mem_connection _ _ _ _ _ _).mpr (.inl hn))
        (fun _ hp => hp),fun i m => Network.bound_connect g.post i m h j⟩
    · intro i hi hid
      exact absurd hid (hplan.unkeyed i hi j hj)
    · intro i hi hid
      have ht := (String.append_right_inj _).mp hid
      rw [hplan.texts i hi j hj ht]
      exact hnew

theorem inv_dial_seed (h : Host) (hg : Inv render plan g) :
    Inv render plan (dialSeed render plan h g) := by
  unfold dialSeed
  split
  swap
  · exact hg
  rename_i a rest hphase
  split
  · exact hg
  rename_i j hl
  have hs := hg.seated h
  have hon : (g.seats h).phase ≠ .off := by
    rw [hphase]
    exact fun hc => by cases hc
  have hh := hs.member hon
  obtain ⟨hj, rfl⟩ := listener_eq_some a j hl
  have hseed : Seeds plan h j := (hs.rest _ hphase).mem List.mem_cons_self
  have hne : h ≠ j := by
    obtain ⟨k, hk, hkh, haddr⟩ := hplan.seeded h hh _ hseed
    rw [← hplan.texts k hk j hj (congrArg render haddr)]
    exact hkh.symm
  obtain ⟨conns, n, ch, he, post, hpost, hlead, hw, hlet, hb⟩ :=
    dial_spec hplan h j hj (infoOf plan h) hg
  dsimp only
  rw [hs.info hon, he, hpost]
  have hput := fun i m => Network.bound_put post ch i (.join (infoOf plan h)) m hlead.opened
  refine ⟨hw.same (Network.same_ends_put post ch _),hlet.put ch _ hlead.opened ?_ ?_,
    hg.learned.step ?_,seated_set ⟨?_,fun _ => hh,?_,hs.dials⟩ hg.seated⟩
  · rw [hlead.dest]
    exact .join h hj hh hne hseed
  · intro info hinfo
    cases hinfo
    rw [hlead.source]
    exact ⟨hlead.first,hh,rfl⟩
  · refine progress_of_phase rfl rfl (fun i m hm => (hput i m).mpr (.inl ((hb i m).mpr hm))) h hon
      (phase_set_ne h _) ?_
    intro i hi _ hd
    rw [phase_set, if_pos rfl] at hd
    by_cases haddr : plan.addr i = plan.addr j
    · obtain rfl := hplan.texts i hi j hj (congrArg render haddr)
      exact .inr ((hput i _).mpr (.inr ⟨hlead.dest.symm,rfl⟩))
    · left
      rw [hphase]
      exact List.not_mem_cons_of_ne_of_not_mem haddr hd
  · show (g.seats h).node.manager = _
    rw [hs.manager, hphase]
    rfl
  · intro rest' hr
    cases hr
    exact (List.suffix_cons _ _).trans (hs.rest _ hphase)

omit hplan in
theorem progress_take (g' : Gathering) (h j : Host) (m : ClusterMessage)
    (hhead : (g.post.inbox h).head? = some m) (hm : Names (infoOf plan j) m)
    (hdue : Due plan g'.answered h (plan.ident j))
    (hk : ∀ i n, Knows g'.shared i n ↔ Knows g.shared i n ∨ (i = h ∧ n = plan.ident j))
    (hb : ∀ i m, (g.post.take h).Bound i m → g'.post.Bound i m)
    (hs : ∀ i, (g'.seats i).phase = (g.seats i).phase)
    (hold : ∀ p ∈ g.answered, p ∈ g'.answered)
    (ha : ∀ i ∈ plan.hosts, ∀ k, (k,plan.ident i) ∈ g'.answered →
      (k,plan.ident i) ∈ g.answered ∨
        (Seeds plan i k ∧ g'.post.Bound i (.nodeList [infoOf plan k]))) : Progress plan g g' where
  keeps i n hn := (hk i n).mpr (.inl hn)
  learns i _ n hn := by
    rcases (hk i n).mp hn with hn | ⟨rfl, rfl⟩
    · exact .inl hn
    · exact .inr hdue
  holds := hold
  passes i _ k _ m' hm' hbound := by
    rcases Network.bound_take_or g.post i m' h hbound with hbound | ⟨hi, hm''⟩
    · exact .inl (hb i m' hbound)
    · right
      rw [hhead] at hm''
      cases hm''
      exact (hk i _).mpr (.inr ⟨hi,congrArg NodeInfo.nodeId (names_inj hm' hm)⟩)
  starts i hi := .inl (hs i ▸ hi)
  dials i _ k _ _ hd := .inl (hs k ▸ hd)
  answers := ha

section Processing
variable (h j : Host) (env : Env) (hg : Inv render plan g)
variable (hh : h ∈ plan.hosts) (hj : j ∈ plan.hosts) (hne : j ≠ h)
include hg hh hj hne

theorem sender_ne :
    (infoOf plan j).nodeId ≠ (g.seats h).node.manager.localNodeId := by
  rw [(hg.seated h).ident]
  exact fun hc => hne (hplan.named j hj h hh hc)

theorem inv_join_unready (hseed : Seeds plan j h)
    (hhead : (g.post.inbox h).head? = some (.join (infoOf plan j)))
    (hnone : (g.seats h).node.manager.nodeManager = none) :
    Inv render plan (processMessage hash render h g env) := by
  have hs := hg.seated h
  rw [processMessage, hhead]
  simp only [handleMessage, answers, hnone, Option.isSome_none, Bool.false_eq_true, and_false,
    if_false, List.append_nil]
  rw [handle_join_unready _ _ _ _ _ _ _ (sender_ne hplan h j hg hh hj hne) hnone, add_route_eq,
    hs.table]
  refine ⟨hg.wired.same (Network.same_ends_take g.post h),hg.letters.take h,hg.learned.step ?_,
    seated_set ⟨hs.manager,hs.member,hs.rest,hs.dials⟩ hg.seated⟩
  exact progress_take _ h j _ hhead .join (.inr ⟨j,hj,hne,rfl,.inl hseed⟩)
    (fun i n => knows_route _ _ _ _ _ _ _) (fun _ _ hb => hb) (phase_set_same h _ rfl)
    (fun _ hp => hp) (fun _ _ _ ha => .inl ha)

theorem inv_join_ready (hseed : Seeds plan j h)
    (hhead : (g.post.inbox h).head? = some (.join (infoOf plan j)))
    (hsome : (g.seats h).node.manager.nodeManager = some h) (hon : (g.seats h).phase ≠ .off) :
    Inv render plan (processMessage hash render h g env) := by
  have hs := hg.seated h
  have hid := sender_ne hplan h j hg hh hj hne
  have hwait := hg.letters.waiting h _ (List.mem_of_mem_head? hhead)
  obtain ⟨ch, hch⟩ := Option.isSome_iff_exists.mp (AList.lookup_isSome.mpr hwait)
  have hlead := (hg.wired.named h j hj ch hch).same (Network.same_ends_take g.post h)
  have hput := fun i m => Network.bound_put (g.post.take h) ch i
    (.nodeList [infoOf plan h]) m hlead.opened
  have hold : ∀ p ∈ g.answered, p ∈ g.answered++[(h,(infoOf plan j).nodeId)] :=
    fun p hp => List.mem_append_left _ hp
  rw [processMessage, hhead]
  simp only [handleMessage, answers, hsome, Option.isSome_some, and_true, if_pos hid,
    List.append_nil]
  rw [handle_join_ready _ _ _ h _ _ _ _ ch hid hsome hch, hs.table, hs.info hon]
  refine ⟨(hg.wired.same (Network.same_ends_take g.post h)).same (Network.same_ends_put _ ch _),
    ((hg.letters.take h).mono (fun _ _ hn => hn) hold).put ch _ hlead.opened ?_ ?_,
    hg.learned.step ?_,seated_set ⟨hs.manager,hs.member,hs.rest,hs.dials⟩ hg.seated⟩
  · rw [hlead.dest]
    exact .nodeList h hj hh hne.symm (List.mem_append_right _ (List.mem_singleton_self _))
  · intro info hinfo
    cases hinfo
  · refine progress_take _ h j _ hhead .join (.inr ⟨j,hj,hne,rfl,.inl hseed⟩)
      (fun i n => knows_route _ _ _ _ _ _ _) (fun i m hb => (hput i m).mpr (.inl hb))
      (phase_set_same h _ rfl) hold ?_
    intro i hi k ha
    rcases List.mem_append.mp ha with ha | ha
    · exact .inl ha
    · obtain ⟨rfl, hname⟩ := Prod.mk.inj (List.mem_singleton.mp ha)
      obtain rfl := hplan.named i hi j hj hname
      exact .inr ⟨hseed,(hput i _).mpr (.inr ⟨hlead.dest.symm,rfl⟩)⟩

theorem inv_node_list (hans : (j,plan.ident h) ∈ g.answered)
    (hhead : (g.post.inbox h).head? = some (.nodeList [infoOf plan j])) :
    Inv render plan (processMessage hash render h g env) := by
  have hs := hg.seated h
  obtain ⟨n, dials, hdials, he⟩ := list_node_eq hash render g.post (infoOf plan j) g.shared 0
    (g.seats h).node.manager (sender_ne hplan h j hg hh hj hne)
  rw [processMessage, hhead]
  simp only [handleMessage, List.foldl_cons, List.foldl_nil, he, answers, List.append_nil,
    hs.table]
  refine ⟨hg.wired.same (Network.same_ends_take g.post h),hg.letters.take h,hg.learned.step ?_,
    seated_set ⟨hs.manager,hs.member,hs.rest,?_⟩ hg.seated⟩
  · exact progress_take _ h j _ hhead .nodeList (.inr ⟨j,hj,hne,rfl,.inr hans⟩)
      (fun i n => knows_route _ _ _ _ _ _ _) (fun _ _ hb => hb) (phase_set_same h _ rfl)
      (fun _ hp => hp) (fun _ _ _ ha => .inl ha)
  · intro d hd
    rw [List.append_assoc, List.mem_append, List.mem_append] at hd
    rcases hd with hd | hd | hd
    · exact hs.dials d (List.mem_append_left _ hd)
    · exact ⟨j,hj,hdials d hd⟩
    · exact hs.dials d (List.mem_append_right _ hd)

end Processing

theorem inv_process (h : Host) (env : Env) (hg : Inv render plan g) :
    Inv render plan (processMessage hash render h g env) := by
  cases hhead : (g.post.inbox h).head? with
  | none =>
    rw [processMessage, hhead]
    exact hg
  | some m =>
    have hin : m ∈ g.post.inbox h := List.mem_of_mem_head? hhead
    cases hg.letters.carried h m (.inl hin) with
    | join j hh hj hne hseed =>
      rcases (hg.seated h).transport with hnone | ⟨hsome, hon⟩
      · exact inv_join_unready hash hplan h j env hg hh hj hne hseed hhead hnone
      · exact inv_join_ready hash hplan h j env hg hh hj hne hseed hhead hsome hon
    | nodeList j hh hj hne hans =>
      exact inv_node_list hash hplan h j env hg hh hj hne hans hhead

theorem inv_step (e : GatherEvent) (hg : Inv render plan g) :
    Inv render plan (gatherStep hash render plan g e) := by
  cases e with
  | start h => exact inv_start_node hash h hg
  | dial h => exact inv_dial_seed hplan h hg
  | ready h => exact inv_finish_start h hg
  | arrive ch => exact inv_arrive hplan ch hg
  | process h env => exact inv_process hash hplan h env hg
  | check h k => exact inv_check_dial h k hg
  | connect h k => exact inv_open_dial hplan h k hg

end Steps

/-- Every node has sent its Joins, and no Join or NodeList is on its way or
waits to be handled. -/
structure Settled (plan : Plan) (g : Gathering) : Prop where
  sent : ∀ h ∈ plan.hosts, (g.seats h).phase = .dialing [] ∨ (g.seats h).phase = .ready
  joins : ∀ i info, ¬ g.post.Bound i (.join info)
  nodeLists : ∀ i infos, ¬ g.post.Bound i (.nodeList infos)

def Agreed (plan : Plan) (g : Gathering) : Prop :=
  ∀ i ∈ plan.hosts, ∀ j ∈ plan.hosts, ∀ n, Knows g.shared i n ↔ Knows g.shared j n

/-- Every node has each other node as a joiner that names it as a seed, or as
a seed that answered its Join. -/
def Acquainted (plan : Plan) (g : Gathering) : Prop :=
  ∀ i ∈ plan.hosts, ∀ j ∈ plan.hosts, j ≠ i →
    Seeds plan j i ∨ (Seeds plan i j ∧ (j,plan.ident i) ∈ g.answered)

section Agreement
variable {plan : Plan} {g : Gathering}

theorem Settled.started (hs : Settled plan g) (h : Host) (hh : h ∈ plan.hosts) :
    (g.seats h).phase ≠ .off := by
  rcases hs.sent h hh with hp | hp <;> rw [hp] <;> exact fun hc => by cases hc

theorem Settled.dialled (hs : Settled plan g) (h : Host) (hh : h ∈ plan.hosts) (a : SocketAddr) :
    Dialled (g.seats h).phase a := by
  rcases hs.sent h hh with hp | hp
  · rw [hp]
    exact List.not_mem_nil
  · rw [hp]
    trivial

theorem knows_iff_of_acquainted (hl : Learned plan g) (hs : Settled plan g)
    (ha : Acquainted plan g) (i : Host) (hi : i ∈ plan.hosts) (n : NodeId) :
    Knows g.shared i n ↔ ∃ j ∈ plan.hosts, n = plan.ident j := by
  constructor
  · intro hn
    rcases hl.due i hi n hn with hn | ⟨j, hj, -, hn, -⟩
    · exact ⟨i,hi,hn⟩
    · exact ⟨j,hj,hn⟩
  · rintro ⟨j, hj, rfl⟩
    by_cases hne : j = i
    · rw [hne]
      exact hl.own i (hs.started i hi)
    · rcases ha i hi j hj hne with hseed | ⟨-, hans⟩
      · exact (hl.joined i hi j hj hseed (hs.dialled j hj _)).resolve_left (hs.joins i _)
      · exact (hl.told i hi j hj hans).resolve_left (hs.nodeLists i _)

theorem agreed_iff_acquainted (render : SocketAddr → String) (hplan : Sane render plan)
    (hl : Learned plan g) (hs : Settled plan g) : Agreed plan g ↔ Acquainted plan g := by
  constructor
  · intro hagree i hi j hj hne
    have hown := hl.own j (hs.started j hj)
    rcases hl.due i hi _ ((hagree i hi j hj _).mpr hown) with hid | ⟨k, hk, -, hid, hways⟩
    · exact absurd (hplan.named j hj i hi hid) hne
    · obtain rfl := hplan.named j hj k hk hid
      rcases hways with hseed | hans
      · exact .inl hseed
      · exact .inr ⟨hl.asked i hi j hans,hans⟩
  · intro ha i hi j hj n
    rw [knows_iff_of_acquainted hl hs ha i hi, knows_iff_of_acquainted hl hs ha j hj]

end Agreement

/-- In every state a cluster settles in, the tables agree exactly when every
two nodes are acquainted. -/
theorem settled_agreed_iff (hash : Bytes → UInt64) (render : SocketAddr → String) (plan : Plan)
    (hplan : Sane render plan) (servers : Host → Server) (forwarders : Host → NetworkForwarder)
    (events : List GatherEvent) :
    Always (gatherStep hash render plan)
      (fun g => Settled plan g → (Agreed plan g ↔ Acquainted plan g))
      (gathering plan servers forwarders) events := by
  apply always_mono _ (Inv render plan)
  · intro g hg hs
    exact agreed_iff_acquainted render hplan hg.learned hs
  · exact always_of_step _ _ (fun g e hg => inv_step hash hplan e hg) _ events
      (inv_start plan servers forwarders)

section Trio

def hostName (h : Host) : NodeId := if h = 0 then "a" else if h = 1 then "b" else "c"

def hostAddr (h : Host) : SocketAddr := .v4 [10,0,0,1] (7000+BitVec.ofNat 16 h)

def addrText : SocketAddr → String
  | .v4 ip port => ".".intercalate (ip.map (fun b => toString b.toNat))++":"++toString port.toNat
  | .v6 _ port => "[::1]:"++toString port.toNat

def trio (seeds : Host → List Host) : Plan :=
  ⟨[0,1,2],hostName,hostAddr,fun h => (seeds h).map hostAddr⟩

def trioStart (seeds : Host → List Host) : Gathering :=
  gathering (trio seeds) (fun _ => Server.build plainConfig .noop none unusedClients)
    (fun h => ⟨none,none,hostName h⟩)

def trioRun (seeds : Host → List Host) (events : List GatherEvent) : Gathering :=
  events.foldl (gatherStep (fun _ => 0) addrText (trio seeds)) (trioStart seeds)

theorem sane_trio (seeds : Host → List Host)
    (h : ∀ i ∈ [0,1,2], ∀ j ∈ seeds i, j ∈ [0,1,2] ∧ j ≠ i) : Sane addrText (trio seeds) where
  named := show ∀ i ∈ [0,1,2], ∀ j ∈ [0,1,2], hostName i = hostName j → i = j by decide +kernel
  texts := show ∀ i ∈ [0,1,2], ∀ j ∈ [0,1,2],
    addrText (hostAddr i) = addrText (hostAddr j) → i = j by decide +kernel
  unkeyed := show ∀ i ∈ [0,1,2], ∀ j ∈ [0,1,2],
    hostName i ≠ seedKey addrText (hostAddr j) by decide +kernel
  seeded i hi a ha := by
    obtain ⟨j, hj, rfl⟩ := List.mem_map.mp ha
    exact ⟨j,(h i hi j hj).1,(h i hi j hj).2,rfl⟩

theorem settled_of_empty (render : SocketAddr → String) (plan : Plan) (g : Gathering)
    (hg : Inv render plan g)
    (hsent : ∀ h ∈ plan.hosts, (g.seats h).phase = .dialing [] ∨ (g.seats h).phase = .ready)
    (hqueue : ∀ ch < g.post.opened, (g.post.links ch).queue = [])
    (hinbox : ∀ h ∈ plan.hosts, g.post.inbox h = []) : Settled plan g := by
  have hnone (i : Host) (m : ClusterMessage) : ¬ g.post.Bound i m := by
    intro hb
    have hi : i ∈ plan.hosts := by
      cases hg.letters.carried i m hb with
      | join j hi _ _ _ => exact hi
      | nodeList j hi _ _ _ => exact hi
    rcases hb with hb | ⟨ch, -, hb⟩
    · rw [hinbox i hi] at hb
      cases hb
    · rw [hqueue ch (Network.opened_of_mem _ ch m hb)] at hb
      cases hb
  exact ⟨hsent,fun i info => hnone i _,fun i infos => hnone i _⟩

theorem inv_trio (seeds : Host → List Host)
    (h : ∀ i ∈ [0,1,2], ∀ j ∈ seeds i, j ∈ [0,1,2] ∧ j ≠ i) (events : List GatherEvent) :
    Inv addrText (trio seeds) (trioRun seeds events) :=
  always_last _ _ _ _ (always_of_step _ _ (fun _ e hg => inv_step _ (sane_trio seeds h) e hg) _
    events (inv_start _ _ _))

/-- Every node has the earlier ones as its seeds. -/
def earlier (h : Host) : List Host := List.range h

def earlierRun : List GatherEvent :=
  [.start 0,.ready 0,.start 1,.dial 1,.ready 1,.start 2,.dial 2,.dial 2,.ready 2,
    .arrive 0,.arrive 2,.arrive 4,.process 0 quietEnv,.process 0 quietEnv,.process 1 quietEnv,
    .arrive 1,.arrive 3,.arrive 5,.process 1 quietEnv,.process 2 quietEnv,.process 2 quietEnv]

theorem earlier_settled : Settled (trio earlier) (trioRun earlier earlierRun) :=
  settled_of_empty addrText _ _ (inv_trio earlier (by decide) earlierRun)
    (by decide +kernel) (by decide +kernel) (by decide +kernel)

theorem earlier_acquainted : Acquainted (trio earlier) (trioRun earlier earlierRun) := by
  unfold Acquainted Seeds
  decide +kernel

theorem all_pairs_agreed :
    Settled (trio earlier) (trioRun earlier earlierRun) ∧
      Agreed (trio earlier) (trioRun earlier earlierRun) := by
  have hrun := always_last _ _ _ _ (settled_agreed_iff (fun _ => 0) addrText (trio earlier)
    (sane_trio earlier (by decide)) (fun _ => Server.build plainConfig .noop none unusedClients)
    (fun h => ⟨none,none,hostName h⟩) earlierRun)
  exact ⟨earlier_settled,(hrun earlier_settled).mpr earlier_acquainted⟩

/-- The first node is the seed of the two others. -/
def toFirst (h : Host) : List Host := if h = 0 then [] else [0]

def toFirstRun : List GatherEvent :=
  [.start 0,.ready 0,.start 1,.dial 1,.ready 1,.start 2,.dial 2,.ready 2,.arrive 0,.arrive 2,
    .process 0 quietEnv,.process 0 quietEnv,.arrive 1,.arrive 3,.process 1 quietEnv,
    .process 2 quietEnv,.check 1 0,.connect 1 0,.check 2 0,.connect 2 0]

/-- Two nodes with the same seed never learn of each other. -/
theorem same_seed_disagreed :
    Sane addrText (trio toFirst) ∧ Linked (trio toFirst) ∧
      Settled (trio toFirst) (trioRun toFirst toFirstRun) ∧
      ¬ Agreed (trio toFirst) (trioRun toFirst toFirstRun) := by
  refine ⟨sane_trio toFirst (by decide),?_,settled_of_empty addrText _ _
    (inv_trio toFirst (by decide) toFirstRun) (by decide +kernel) (by decide +kernel)
    (by decide +kernel),?_⟩
  · have hfirst : ∀ i ∈ (trio toFirst).hosts, Relation.EqvGen (SeedEdge (trio toFirst)) i 0 := by
      intro i hi
      by_cases h0 : i = 0
      · rw [h0]
        exact .refl 0
      · apply Relation.EqvGen.rel
        refine ⟨hi,List.mem_cons_self,?_⟩
        show hostAddr 0 ∈ (toFirst i).map hostAddr
        rw [toFirst, if_neg h0]
        exact List.mem_cons_self
    exact fun i hi j hj => (hfirst i hi).trans _ _ _ ((hfirst j hj).symm _ _)
  · intro hagree
    have hknown : Knows (trioRun toFirst toFirstRun).shared 0 "c" := by
      unfold Knows
      decide +kernel
    have hmissed : ¬ Knows (trioRun toFirst toFirstRun).shared 1 "c" := by
      unfold Knows
      decide +kernel
    exact hmissed ((hagree 0 (by decide) 1 (by decide) "c").mp hknown)

end Trio
end RexMq.ClusterMembership
