import RexMq.PeerForwarder

/-!
# What a forward tries and what it reports

A forward is followed with a record of the nodes it tries, when it does, and
whether they accepted. Left alone with its route table and its connections it
tries a list of candidates in turn and stops at the first that accepts: the
target, if its address can be read, and then the other connected nodes whose
address can be. A node accepts when it is connected and its channel takes the
frame, or that of a new connection does; the frame is then in that channel.
The report tells a delivery from a failure, and a failure with a known target
from one without.
-/

set_option autoImplicit false

namespace RexMq.ForwardOutcome
open RexMq.ClusterMessages RexMq.RouteTable RexMq.PeerForwarder
open RexMq.ServerState (NodeId ForwardRequest FwdResult)

section InTurn
variable {α : Type*}

/-- Candidates are tried one after the other until one accepts; the record
has those tried with what they answered. -/
inductive InTurn : List α → List (α × Bool) → Bool → Prop
  | exhausted : InTurn [] [] false
  | accepted (n : α) (rest : List α) : InTurn (n::rest) [(n,true)] true
  | refused (n : α) (rest : List α) (tried : List (α × Bool)) (ok : Bool) :
      InTurn rest tried ok → InTurn (n::rest) ((n,false)::tried) ok

variable {candidates : List α} {tried : List (α × Bool)} {ok : Bool}

theorem in_turn_initial (h : InTurn candidates tried ok) :
    tried.map Prod.fst <+: candidates := by
  induction h with
  | exhausted => exact List.prefix_refl []
  | accepted n rest => exact ⟨rest,rfl⟩
  | refused n rest tried ok _ ih => exact List.cons_prefix_cons.mpr ⟨rfl,ih⟩

theorem in_turn_acceptances (h : InTurn candidates tried ok) :
    tried.countP Prod.snd = if ok then 1 else 0 := by
  induction h with
  | exhausted => rfl
  | accepted n rest => rfl
  | refused n rest tried ok _ ih => rw [List.countP_cons_of_neg (by simp), ih]

end InTurn

/-- A node that was tried, the accesses made before and what it answered. -/
structure Attempt where
  node : NodeId
  clock : ℕ
  ok : Bool
  deriving DecidableEq, Repr

def Attempt.answer (a : Attempt) : NodeId × Bool := (a.node,a.ok)

/-- The forward's shared objects with a record of the nodes it has tried. -/
structure Tracked where
  net : Net
  tried : List Attempt

section Tracking
variable (parse : String → Option SocketAddr) (w : Wire) (i : TransportRef) (j : TableRef)
variable (localNodeId : NodeId) (req : ForwardRequest)

/-- One call of `try_send`, and the only place that adds to the record. -/
def trackedSend (node : NodeId) (addr : SocketAddr) (s : Tracked) : Bool × Tracked :=
  ((trySend w i node addr req s.net).1,
    ⟨(trySend w i node addr req s.net).2,
      s.tried++[⟨node,s.net.clock,(trySend w i node addr req s.net).1⟩]⟩)

def trackedWalk (exclude : Option NodeId) : List NodeId → Tracked → Bool × Tracked
  | [], s => (false,s)
  | other::rest, s =>
    if other = localNodeId ∨ some other = exclude then trackedWalk exclude rest s
    else
      let s := { s with net := s.net.access w }
      match ((s.net.shared.tables j).getNodeAddr other).bind parse with
      | none => trackedWalk exclude rest s
      | some addr => match trackedSend w i req other addr s with
        | (true,s) => (true,s)
        | (false,s) => trackedWalk exclude rest s

def reported (exclude : Option NodeId) : Bool × Tracked → FwdResult × Tracked
  | (true,s) => (.delivered,s)
  | (false,s) => match exclude with
    | some node => (.peerUnreachable node,s)
    | none => (.noPeerForTitle,s)

def trackedFallback (exclude : Option NodeId) (s : Tracked) : FwdResult × Tracked :=
  reported exclude (trackedWalk parse w i j localNodeId req exclude (s.net.connectedNodes w i).1
    ⟨(s.net.connectedNodes w i).2,s.tried⟩)

def trackedForward (target : NodeId) (s : Tracked) : FwdResult × Tracked :=
  let s := { s with net := s.net.access w }
  match (s.net.shared.tables j).getNodeAddr target with
  | none => trackedFallback parse w i j localNodeId req none s
  | some text => match parse text with
    | none => trackedFallback parse w i j localNodeId req (some target) s
    | some addr => match trackedSend w i req target addr s with
      | (true,s) => (.delivered,s)
      | (false,s) => trackedFallback parse w i j localNodeId req (some target) s

theorem walk_of_tracked (exclude : Option NodeId) (nodes : List NodeId) (s : Tracked) :
    walk parse w i j localNodeId exclude req nodes s.net =
      ((trackedWalk parse w i j localNodeId req exclude nodes s).1,
        (trackedWalk parse w i j localNodeId req exclude nodes s).2.net) := by
  induction nodes generalizing s with
  | nil => rfl
  | cons other rest ih =>
    rw [walk, trackedWalk]
    split_ifs
    · exact ih s
    · dsimp only
      cases ((s.net.access w).shared.tables j).getNodeAddr other |>.bind parse with
      | none => exact ih { s with net := s.net.access w }
      | some addr =>
        rcases hs : trySend w i other addr req (s.net.access w) with ⟨_ | _, net⟩
        · simp only [trackedSend, hs]
          exact ih ⟨net,s.tried++[⟨other,(s.net.access w).clock,false⟩]⟩
        · simp only [trackedSend, hs]

theorem fallback_of_tracked (exclude : Option NodeId) (s : Tracked) :
    fallbackExcluding parse w ⟨some i,some j,localNodeId⟩ req exclude s.net =
      ((trackedFallback parse w i j localNodeId req exclude s).1,
        (trackedFallback parse w i j localNodeId req exclude s).2.net) := by
  have hwalk := walk_of_tracked parse w i j localNodeId req exclude (s.net.connectedNodes w i).1
    ⟨(s.net.connectedNodes w i).2,s.tried⟩
  unfold fallbackExcluding trackedFallback
  dsimp only at hwalk ⊢
  rw [hwalk]
  rcases trackedWalk parse w i j localNodeId req exclude (s.net.connectedNodes w i).1
    ⟨(s.net.connectedNodes w i).2,s.tried⟩ with ⟨_ | _, s'⟩
  · cases exclude <;> rfl
  · rfl

/-- Without its record the tracked forward is the forward. -/
theorem forward_of_tracked (target : NodeId) (s : Tracked) :
    forward parse w ⟨some i,some j,localNodeId⟩ target req s.net =
      ((trackedForward parse w i j localNodeId req target s).1,
        (trackedForward parse w i j localNodeId req target s).2.net) := by
  have hback := fun exclude s => fallback_of_tracked parse w i j localNodeId req exclude s
  unfold forward trackedForward
  dsimp only
  cases ((s.net.access w).shared.tables j).getNodeAddr target with
  | none => exact hback none { s with net := s.net.access w }
  | some text =>
    dsimp only
    cases parse text with
    | none => exact hback (some target) { s with net := s.net.access w }
    | some addr =>
      rcases hs : trySend w i target addr req (s.net.access w) with ⟨_ | _, net⟩
      · simp only [trackedSend, hs]
        exact hback (some target) ⟨net,s.tried++[⟨target,(s.net.access w).clock,false⟩]⟩
      · simp only [trackedSend, hs]

end Tracking

/-- No other task changes the tables and connections during the forward. -/
def Alone (w : Wire) : Prop := ∀ n s, w.others n s = s

section Frame
variable (w : Wire) (hw : Alone w) (i : TransportRef) (node : NodeId)

/-- Only the connection to one node may differ. -/
structure KeepsOthers (net net' : Net) : Prop where
  tables : net'.shared.tables = net.shared.tables
  connections : ∀ m, m ≠ node →
    (net'.shared.connections i).lookup m = (net.shared.connections i).lookup m

theorem keeps_others_of_shared (net net' : Net) (h : net'.shared = net.shared) :
    KeepsOthers i node net net' := by
  constructor
  · rw [h]
  · intro m _
    rw [h]

theorem KeepsOthers.mem {net net' : Net} (h : KeepsOthers i node net net') (m : NodeId)
    (hm : m ≠ node) : m ∈ net'.shared.connections i ↔ m ∈ net.shared.connections i := by
  rw [← AList.lookup_isSome, ← AList.lookup_isSome, h.connections m hm]

theorem KeepsOthers.trans {net₁ net₂ net₃ : Net} (h : KeepsOthers i node net₁ net₂)
    (h' : KeepsOthers i node net₂ net₃) : KeepsOthers i node net₁ net₃ :=
  ⟨h'.tables.trans h.tables,fun m hm => (h'.connections m hm).trans (h.connections m hm)⟩

include hw

theorem access_alone (net : Net) : net.access w = { net with clock := net.clock+1 } := by
  rw [Net.access, hw]

theorem shared_access (net : Net) : (net.access w).shared = net.shared := hw _ _

theorem shared_send_to (net : Net) (m : ClusterMessage) :
    (net.sendTo w i node m).2.shared = net.shared := by
  have haccess := shared_access w hw net
  unfold Net.sendTo
  dsimp only
  split
  · exact haccess
  · split_ifs <;> exact haccess

theorem remove_keeps_others (net : Net) :
    KeepsOthers i node net (net.removeConnection w i node) := by
  have haccess := shared_access w hw net
  constructor
  · show (net.access w).shared.tables = _
    rw [haccess]
  · intro m hm
    simp only [Net.removeConnection, Net.setConnections, Function.update_self, haccess]
    exact AList.lookup_erase_ne hm

theorem connect_keeps_others (net : Net) (addr : SocketAddr) :
    KeepsOthers i node net (net.connect w i node addr).2 := by
  have haccess := shared_access w hw net
  unfold Net.connect
  dsimp only
  split_ifs
  · exact keeps_others_of_shared i node net _ haccess
  · split
    · exact keeps_others_of_shared i node net _ haccess
    · have hagain := (shared_access w hw (net.access w)).trans haccess
      constructor
      · show ((net.access w).access w).shared.tables = _
        rw [hagain]
      · intro m hm
        simp only [Net.setConnections, Function.update_self, hagain]
        exact AList.lookup_insert_ne hm

theorem reconnect_keeps_others (net : Net) (addr : SocketAddr) (m : ClusterMessage) :
    KeepsOthers i node net (tryReconnectAndSend w i node addr m net).2 := by
  have hremove := remove_keeps_others w hw i node net
  have hconnect := connect_keeps_others w hw i node (net.removeConnection w i node) addr
  unfold tryReconnectAndSend
  rcases hc : (net.removeConnection w i node).connect w i node addr with ⟨_ | _, net'⟩
  · rw [hc] at hconnect
    exact hremove.trans i node hconnect
  · rw [hc] at hconnect
    exact (hremove.trans i node hconnect).trans i node
      (keeps_others_of_shared i node _ _ (shared_send_to w hw i node net' m))

theorem try_send_keeps_others (net : Net) (addr : SocketAddr) (req : ForwardRequest) :
    KeepsOthers i node net (trySend w i node addr req net).2 := by
  have haccess := keeps_others_of_shared i node net _ (shared_access w hw net)
  unfold trySend Net.isConnected
  dsimp only
  cases decide (node ∈ (net.access w).shared.connections i) with
  | false => exact haccess
  | true =>
    dsimp only
    generalize ClusterMessage.forward
      (forwardMessage (w.forwardId (net.access w).clock) req) = m
    have hsend := shared_send_to w hw i node (net.access w) m
    rcases hs : (net.access w).sendTo w i node m with ⟨_ | _, net'⟩
    all_goals
      rw [hs] at hsend
      have hsent := haccess.trans i node (keeps_others_of_shared i node _ net' hsend)
    · exact hsent.trans i node (reconnect_keeps_others w hw i node net' addr m)
    · exact hsent

end Frame

/-- The channel that takes a frame for a node, tried after `clock` accesses:
that of its connection or, when this one refuses, that of a new connection. -/
def accepting (w : Wire) (c : Connections) (node : NodeId) (addr : SocketAddr) (clock : ℕ) :
    Option Channel :=
  match c.lookup node with
  | none => none
  | some ch =>
    if w.accepts (clock+2) then some ch
    else match w.opens (clock+4) addr with
      | none => none
      | some ch => if w.accepts (clock+6) then some ch else none

def placed (w : Wire) (req : ForwardRequest) (clock : ℕ) (ch : Channel) :
    Channel × ClusterMessage :=
  (ch,.forward (forwardMessage (w.forwardId (clock+1)) req))

section Accepting
variable (w : Wire) (hw : Alone w) (i : TransportRef) (node : NodeId) (addr : SocketAddr)
include hw

theorem reconnect_accepting (m : ClusterMessage) (net : Net) :
    let ch := (w.opens (net.clock+2) addr).bind fun ch =>
      if w.accepts (net.clock+4) then some ch else none
    (tryReconnectAndSend w i node addr m net).1 = ch.isSome ∧
      (tryReconnectAndSend w i node addr m net).2.queued =
        net.queued++(ch.map fun ch => (ch,m)).toList := by
  have hout : node ∉ (net.shared.connections i).erase node := by simp [AList.mem_erase]
  unfold tryReconnectAndSend Net.connect Net.removeConnection
  simp only [access_alone w hw, Net.setConnections, Function.update_self, if_neg hout]
  cases w.opens (net.clock+2) addr with
  | none => simp
  | some ch =>
    simp only [Net.sendTo, access_alone w hw, Function.update_self, AList.lookup_insert]
    cases w.accepts (net.clock+4) with
    | true => simp
    | false => simp

/-- An attempt succeeds exactly when there is an accepting channel, and its
frame is then the one that was put into a channel. -/
theorem try_send_accepting (req : ForwardRequest) (net : Net) :
    let ch := accepting w (net.shared.connections i) node addr net.clock
    (trySend w i node addr req net).1 = ch.isSome ∧
      (trySend w i node addr req net).2.queued =
        net.queued++(ch.map (placed w req net.clock)).toList := by
  unfold trySend Net.isConnected accepting
  simp only [access_alone w hw]
  cases hch : (net.shared.connections i).lookup node with
  | none => simp [AList.lookup_eq_none.mp hch]
  | some ch =>
    have hin : node ∈ net.shared.connections i := AList.lookup_isSome.mp (by rw [hch]; rfl)
    simp only [hin, decide_true, Net.sendTo, access_alone w hw, hch]
    cases w.accepts (net.clock+2) with
    | true => simp [placed]
    | false =>
      have hre := reconnect_accepting w hw i node addr
        (.forward (forwardMessage (w.forwardId (net.clock+1)) req))
        { net with clock := net.clock+1+1 }
      simp only [Bool.false_eq_true, if_false]
      cases ho : w.opens (net.clock+4) addr with
      | none =>
        simp only [ho, Option.bind_none] at hre
        simpa using hre
      | some ch =>
        simp only [ho, Option.bind_some] at hre
        cases ha : w.accepts (net.clock+6) with
        | true => simpa [ha, placed] using hre
        | false => simpa [ha] using hre

end Accepting

section Outcome
variable (parse : String → Option SocketAddr) (w : Wire) (hw : Alone w)
variable (i : TransportRef) (j : TableRef) (localNodeId : NodeId) (req : ForwardRequest)

def routable (t : GlobalRouteTable) (n : NodeId) : Option SocketAddr :=
  (t.getNodeAddr n).bind parse

def eligible (t : GlobalRouteTable) (exclude : Option NodeId) (nodes : List NodeId) :
    List NodeId :=
  nodes.filter (fun n => n ≠ localNodeId ∧ some n ≠ exclude ∧ (routable parse t n).isSome)

section Eligible
variable (t : GlobalRouteTable) (exclude : Option NodeId) (other : NodeId) (rest : List NodeId)

theorem eligible_cons_of_pos (h : other ≠ localNodeId ∧ some other ≠ exclude ∧
    (routable parse t other).isSome) :
    eligible parse localNodeId t exclude (other::rest) =
      other::eligible parse localNodeId t exclude rest :=
  List.filter_cons_of_pos (decide_eq_true h)

theorem eligible_cons_of_neg (h : ¬ (other ≠ localNodeId ∧ some other ≠ exclude ∧
    (routable parse t other).isSome)) :
    eligible parse localNodeId t exclude (other::rest) =
      eligible parse localNodeId t exclude rest :=
  List.filter_cons_of_neg (by rwa [decide_eq_true_eq])

end Eligible

include hw

/-- The channel that takes the frame of an attempt, with the connections and
the addresses of `net`. -/
def channel (net : Net) (a : Attempt) : Option Channel :=
  (routable parse (net.shared.tables j) a.node).bind fun addr =>
    accepting w (net.shared.connections i) a.node addr a.clock

/-- The attempts made in between answered as their channels did, and what was
put into channels are their frames. -/
structure Told (net : Net) (s s' : Tracked) (attempts : List Attempt) : Prop where
  tried : s'.tried = s.tried++attempts
  answers : ∀ a ∈ attempts, a.ok = (channel parse w i j net a).isSome
  queued : s'.net.queued = s.net.queued++attempts.filterMap fun a =>
    (channel parse w i j net a).map (placed w req a.clock)

section Told
variable (net : Net) (s : Tracked)

omit hw in
theorem told_nil (s' : Tracked) (ht : s'.tried = s.tried) (hq : s'.net.queued = s.net.queued) :
    Told parse w i j req net s s' [] :=
  ⟨by simp [ht],by simp,by simp [hq]⟩

omit hw in
theorem Told.trans {s₁ s₂ s₃ : Tracked} {as bs : List Attempt}
    (h : Told parse w i j req net s₁ s₂ as) (h' : Told parse w i j req net s₂ s₃ bs) :
    Told parse w i j req net s₁ s₃ (as++bs) where
  tried := by rw [h'.tried, h.tried, List.append_assoc]
  answers a ha := (List.mem_append.mp ha).elim (h.answers a) (h'.answers a)
  queued := by rw [h'.queued, h.queued, List.filterMap_append, List.append_assoc]

theorem told_send (node : NodeId) (addr : SocketAddr)
    (haddr : routable parse (net.shared.tables j) node = some addr)
    (hc : (s.net.shared.connections i).lookup node = (net.shared.connections i).lookup node) :
    Told parse w i j req net s (trackedSend w i req node addr s).2
      [⟨node,s.net.clock,(trackedSend w i req node addr s).1⟩] := by
  obtain ⟨hok, hqueued⟩ := try_send_accepting w hw i node addr req s.net
  have hch : ∀ ok, channel parse w i j net ⟨node,s.net.clock,ok⟩ =
      accepting w (s.net.shared.connections i) node addr s.net.clock := by
    intro ok
    rw [channel, haddr, Option.bind_some, accepting, accepting, hc]
  refine ⟨rfl,fun a ha => ?_,?_⟩
  · rw [List.mem_singleton.mp ha, hch]
    exact hok
  · refine hqueued.trans (congrArg (s.net.queued++·) ?_)
    rw [List.filterMap_cons, hch, List.filterMap_nil]
    cases accepting w (s.net.shared.connections i) node addr s.net.clock <;> rfl

/-- A walk tries the eligible nodes in turn, each once, so that its connection
is the one at the start. -/
theorem walk_in_turn (exclude : Option NodeId) (nodes : List NodeId) (hn : nodes.Nodup)
    (htables : s.net.shared.tables = net.shared.tables)
    (hc : ∀ n ∈ nodes, some n ≠ exclude → (routable parse (net.shared.tables j) n).isSome →
      (s.net.shared.connections i).lookup n = (net.shared.connections i).lookup n) :
    ∃ tried, Told parse w i j req net s
        (trackedWalk parse w i j localNodeId req exclude nodes s).2 tried ∧
      InTurn (eligible parse localNodeId (net.shared.tables j) exclude nodes)
        (tried.map Attempt.answer)
        (trackedWalk parse w i j localNodeId req exclude nodes s).1 := by
  induction nodes generalizing s with
  | nil => exact ⟨[],told_nil parse w i j req net s s rfl rfl,.exhausted⟩
  | cons other rest ih =>
    have haccess := shared_access w hw s.net
    obtain ⟨hother, hrest⟩ := List.nodup_cons.mp hn
    have hc' := fun n hn => hc n (List.mem_cons_of_mem other hn)
    rw [trackedWalk]
    split_ifs with hskip
    · -- the local node and the one left out are passed over
      rw [eligible_cons_of_neg _ _ _ _ _ _ (fun h => hskip.elim h.1 h.2.1)]
      exact ih s hrest htables hc'
    · dsimp only
      rw [haccess, htables]
      cases haddr : ((net.shared.tables j).getNodeAddr other).bind parse with
      | none =>
        rw [eligible_cons_of_neg _ _ _ _ _ _ (by simp [routable, haddr])]
        obtain ⟨tried, htold, hturn⟩ := ih { s with net := s.net.access w } hrest
          (by rw [haccess]; exact htables) (by rw [haccess]; exact hc')
        have hnil := told_nil parse w i j req net s { s with net := s.net.access w } rfl rfl
        exact ⟨tried,hnil.trans parse w i j req net htold,hturn⟩
      | some addr =>
        rw [not_or] at hskip
        rw [eligible_cons_of_pos _ _ _ _ _ _ (by simp [routable, haddr, hskip.1, hskip.2])]
        have hkeeps := try_send_keeps_others w hw i other (s.net.access w) addr req
        have hnil := told_nil parse w i j req net s { s with net := s.net.access w } rfl rfl
        have hsend := hnil.trans
          parse w i j req net (told_send parse w hw i j req net _ other addr haddr (by
            dsimp only
            rw [haccess]
            exact hc other List.mem_cons_self hskip.2 (by rw [routable, haddr]; rfl)))
        simp only [trackedSend] at hsend ⊢
        rcases hs : trySend w i other addr req (s.net.access w) with ⟨_ | _, net'⟩
        · rw [hs] at hkeeps hsend
          obtain ⟨tried, htold, hturn⟩ := ih
            ⟨net',s.tried++[⟨other,(s.net.access w).clock,false⟩]⟩ hrest
            (hkeeps.tables.trans (by rw [haccess]; exact htables)) (fun n hn hne hroute =>
              (hkeeps.connections n fun h => hother (h ▸ hn)).trans
                (by rw [haccess]; exact hc' n hn hne hroute))
          exact ⟨_,hsend.trans parse w i j req net htold,.refused other _ _ _ hturn⟩
        · rw [hs] at hsend
          exact ⟨_,hsend,.accepted other _⟩

end Told

def failure (t : GlobalRouteTable) (target : NodeId) : FwdResult :=
  if target ∈ t.nodeIdToAddr then .peerUnreachable target else .noPeerForTitle

/-- What the fallback of a forward leaves out: the target, if the table has it. -/
def leftOut (t : GlobalRouteTable) (target : NodeId) : Option NodeId :=
  if target ∈ t.nodeIdToAddr then some target else none

omit hw in
theorem failure_of_left_out (t : GlobalRouteTable) (target : NodeId) :
    ((leftOut t target).map FwdResult.peerUnreachable).getD .noPeerForTitle =
      failure t target := by
  unfold leftOut failure
  split_ifs <;> rfl

/-- The others that a forward to `target` may try, in the order of a listing. -/
structure Others (net : Net) (target : NodeId) (peers : List NodeId) : Prop where
  once : peers.Nodup
  mem : ∀ n, n ∈ peers ↔ n ∈ net.shared.connections i ∧ n ≠ localNodeId ∧ n ≠ target ∧
    (routable parse (net.shared.tables j) n).isSome

omit hw in
theorem not_target (t : GlobalRouteTable) (target n : NodeId) (hne : some n ≠ leftOut t target)
    (hroute : (routable parse t n).isSome) : n ≠ target := by
  rintro rfl
  rw [leftOut] at hne
  split_ifs at hne with hknown
  · exact hne rfl
  · rw [routable, GlobalRouteTable.getNodeAddr, AList.lookup_eq_none.mpr hknown] at hroute
    cases hroute

omit hw in
theorem others_of_listing (net : Net) (target : NodeId) (nodes : List NodeId)
    (hnodup : nodes.Nodup)
    (hmem : ∀ n, n ≠ target → (n ∈ nodes ↔ n ∈ net.shared.connections i)) :
    Others parse i j localNodeId net target (eligible parse localNodeId (net.shared.tables j)
      (leftOut (net.shared.tables j) target) nodes) := by
  refine ⟨hnodup.filter _,fun n => ?_⟩
  rw [eligible, List.mem_filter, decide_eq_true_eq]
  constructor
  · rintro ⟨hn, hlocal, hex, haddr⟩
    have htarget := not_target parse _ target n hex haddr
    exact ⟨(hmem n htarget).mp hn,hlocal,htarget,haddr⟩
  · rintro ⟨hn, hlocal, htarget, haddr⟩
    refine ⟨(hmem n htarget).mpr hn,hlocal,?_,haddr⟩
    rw [leftOut]
    split_ifs
    · exact fun h => htarget (Option.some.inj h)
    · exact Option.some_ne_none n

/-- The target, if its address can be read, and the others after it. -/
def candidates (t : GlobalRouteTable) (target : NodeId) (peers : List NodeId) : List NodeId :=
  (if (routable parse t target).isSome then [target] else [])++peers

theorem fallback_in_turn (net : Net) (target : NodeId) (exclude : Option NodeId) (s : Tracked)
    (hkeeps : KeepsOthers i target net s.net)
    (hexclude : leftOut (net.shared.tables j) target = exclude) :
    ∃ peers tried, Others parse i j localNodeId net target peers ∧
      Told parse w i j req net s (trackedFallback parse w i j localNodeId req exclude s).2 tried ∧
      InTurn peers (tried.map Attempt.answer)
        ((trackedFallback parse w i j localNodeId req exclude s).1 == .delivered) ∧
      ((trackedFallback parse w i j localNodeId req exclude s).1 ≠ .delivered →
        (trackedFallback parse w i j localNodeId req exclude s).1 =
          failure (net.shared.tables j) target) := by
  have hfailure := failure_of_left_out (net.shared.tables j) target
  have haccess := shared_access w hw s.net
  have hperm := w.listing_perm (s.net.access w).clock ((s.net.access w).shared.connections i)
  have hnodup := hperm.nodup_iff.mpr (AList.keys_nodup _)
  have hpeers := others_of_listing parse i j localNodeId net target
    (s.net.connectedNodes w i).1 hnodup (fun n hn => by
      rw [← hkeeps.mem i target n hn, AList.mem_keys, ← haccess]
      exact hperm.mem_iff)
  obtain ⟨tried, htold, hturn⟩ := walk_in_turn parse w hw i j localNodeId req net
    ⟨(s.net.connectedNodes w i).2,s.tried⟩ exclude (s.net.connectedNodes w i).1 hnodup
    ((congrArg Shared.tables haccess).trans hkeeps.tables) (by
      intro n _ hne hroute
      rw [← hexclude] at hne
      show ((s.net.access w).shared.connections i).lookup n = _
      rw [haccess]
      exact hkeeps.connections n (not_target parse _ target n hne hroute))
  replace htold := (told_nil parse w i j req net s ⟨(s.net.connectedNodes w i).2,s.tried⟩
    rfl rfl).trans parse w i j req net htold
  rw [hexclude] at hpeers hfailure
  refine ⟨_,tried,hpeers,?_⟩
  rw [← hfailure]
  unfold trackedFallback
  generalize trackedWalk parse w i j localNodeId req exclude (s.net.connectedNodes w i).1
    ⟨(s.net.connectedNodes w i).2,s.tried⟩ = out at htold hturn ⊢
  rcases out with ⟨_ | _, s'⟩
  · cases exclude with
    | none => exact ⟨htold,hturn,fun _ => rfl⟩
    | some node => exact ⟨htold,hturn,fun _ => rfl⟩
  · exact ⟨htold,hturn,fun h => absurd rfl h⟩

omit hw in
theorem candidates_nodup (target : NodeId) (net : Net) (peers : List NodeId)
    (hpeers : Others parse i j localNodeId net target peers) :
    (candidates parse (net.shared.tables j) target peers).Nodup := by
  unfold candidates
  split_ifs
  · exact List.nodup_cons.mpr ⟨fun h => ((hpeers.mem target).mp h).2.2.1 rfl,hpeers.once⟩
  · exact hpeers.once

theorem unroutable_in_turn (target : NodeId) (net : Net) (exclude : Option NodeId)
    (hroute : routable parse (net.shared.tables j) target = none)
    (hexclude : leftOut (net.shared.tables j) target = exclude) :
    ∃ peers tried, Others parse i j localNodeId net target peers ∧
      Told parse w i j req net ⟨net,[]⟩
        (trackedFallback parse w i j localNodeId req exclude ⟨net.access w,[]⟩).2 tried ∧
      InTurn (candidates parse (net.shared.tables j) target peers) (tried.map Attempt.answer)
        ((trackedFallback parse w i j localNodeId req exclude ⟨net.access w,[]⟩).1 ==
          .delivered) ∧
      ((trackedFallback parse w i j localNodeId req exclude ⟨net.access w,[]⟩).1 ≠ .delivered →
        (trackedFallback parse w i j localNodeId req exclude ⟨net.access w,[]⟩).1 =
          failure (net.shared.tables j) target) := by
  have hstart := keeps_others_of_shared i target net (net.access w) (shared_access w hw net)
  have hnil := told_nil parse w i j req net ⟨net,[]⟩ ⟨net.access w,[]⟩ rfl rfl
  obtain ⟨peers, tried, hpeers, htold, hturn, hreport⟩ := fallback_in_turn parse w hw i j
    localNodeId req net target exclude ⟨net.access w,[]⟩ hstart hexclude
  refine ⟨peers,tried,hpeers,hnil.trans parse w i j req net htold,?_,hreport⟩
  rw [candidates, hroute]
  exact hturn

theorem forward_in_turn (target : NodeId) (net : Net) :
    ∃ peers tried, Others parse i j localNodeId net target peers ∧
      Told parse w i j req net ⟨net,[]⟩
        (trackedForward parse w i j localNodeId req target ⟨net,[]⟩).2 tried ∧
      InTurn (candidates parse (net.shared.tables j) target peers) (tried.map Attempt.answer)
        ((trackedForward parse w i j localNodeId req target ⟨net,[]⟩).1 == .delivered) ∧
      ((trackedForward parse w i j localNodeId req target ⟨net,[]⟩).1 ≠ .delivered →
        (trackedForward parse w i j localNodeId req target ⟨net,[]⟩).1 =
          failure (net.shared.tables j) target) := by
  have haccess := shared_access w hw net
  have hstart := keeps_others_of_shared i target net (net.access w) haccess
  have hnil := told_nil parse w i j req net ⟨net,[]⟩ ⟨net.access w,[]⟩ rfl rfl
  unfold trackedForward
  dsimp only
  rw [haccess]
  cases htext : (net.shared.tables j).getNodeAddr target with
  | none =>
    exact unroutable_in_turn parse w hw i j localNodeId req target net none
      (by rw [routable, htext]; rfl) (if_neg (AList.lookup_eq_none.mp htext))
  | some text =>
    have hmem : target ∈ (net.shared.tables j).nodeIdToAddr :=
      AList.lookup_isSome.mp (Option.isSome_iff_exists.mpr ⟨text,htext⟩)
    have hout : leftOut (net.shared.tables j) target = some target := if_pos hmem
    dsimp only
    cases haddr : parse text with
    | none =>
      exact unroutable_in_turn parse w hw i j localNodeId req target net (some target)
        (by rw [routable, htext, Option.bind_some, haddr]) hout
    | some addr =>
      have hroute : routable parse (net.shared.tables j) target = some addr := by
        rw [routable, htext, Option.bind_some, haddr]
      have hkeeps := hstart.trans i target
        (try_send_keeps_others w hw i target (net.access w) addr req)
      have hsend := hnil.trans parse w i j req net (told_send parse w hw i j req net
        ⟨net.access w,[]⟩ target addr hroute (by dsimp only; rw [haccess]))
      simp only [trackedSend] at hsend ⊢
      rcases hs : trySend w i target addr req (net.access w) with ⟨_ | _, net'⟩
      · rw [hs] at hkeeps hsend
        obtain ⟨peers, tried, hpeers, htold, hturn, hreport⟩ := fallback_in_turn parse w hw i j
          localNodeId req net target (some target)
          ⟨net',[]++[⟨target,(net.access w).clock,false⟩]⟩ hkeeps hout
        refine ⟨peers,_,hpeers,hsend.trans parse w i j req net htold,?_,hreport⟩
        rw [candidates, hroute]
        exact .refused target peers _ _ hturn
      · -- the walk is not entered: the others are those of any listing
        have hpeers := others_of_listing parse i j localNodeId net target
          (net.shared.connections i).keys (AList.keys_nodup _) (fun n _ => AList.mem_keys.symm)
        rw [hs] at hsend
        refine ⟨_,_,hpeers,hsend,?_,fun h => absurd rfl h⟩
        rw [candidates, hroute]
        exact .accepted target _

/-- A forward left alone tries its candidates in turn, each accepting exactly
when there is a channel that takes the frame. It puts the frame of the attempt
that is accepted into that channel and nothing else anywhere, and reports
which it was. -/
theorem forward_outcome (target : NodeId) (net : Net) :
    ∃ peers tried result net',
      forward parse w ⟨some i,some j,localNodeId⟩ target req net = (result,net') ∧
      trackedForward parse w i j localNodeId req target ⟨net,[]⟩ = (result,⟨net',tried⟩) ∧
      Others parse i j localNodeId net target peers ∧
      InTurn (candidates parse (net.shared.tables j) target peers) (tried.map Attempt.answer)
        (result == .delivered) ∧
      (tried.map Attempt.node).Nodup ∧
      (∀ a ∈ tried, a.ok = (channel parse w i j net a).isSome) ∧
      net'.queued = net.queued++tried.filterMap (fun a =>
        (channel parse w i j net a).map (placed w req a.clock)) ∧
      Queues req net net' (result == .delivered) ∧
      (result = .delivered ↔ tried.countP Attempt.ok = 1) ∧
      (tried.countP Attempt.ok = 0 → result = failure (net.shared.tables j) target) := by
  obtain ⟨peers, tried', hpeers, htold, hturn, hreport⟩ :=
    forward_in_turn parse w hw i j localNodeId req target net
  have herase := forward_of_tracked parse w i j localNodeId req target ⟨net,[]⟩
  have hqueues := forward_queues parse w req net ⟨some i,some j,localNodeId⟩ target
  have hcount := in_turn_acceptances hturn
  dsimp only at herase
  rw [herase] at hqueues
  generalize trackedForward parse w i j localNodeId req target ⟨net,[]⟩ = out at *
  obtain ⟨result, net', tried⟩ := out
  obtain rfl : tried = tried' := htold.tried
  have honce := (candidates_nodup parse i j localNodeId target net peers hpeers).sublist
    (in_turn_initial hturn).sublist
  rw [List.map_map] at honce
  rw [List.countP_map] at hcount
  refine ⟨peers,tried,result,net',herase,rfl,hpeers,hturn,honce,htold.answers,htold.queued,
    hqueues,?_,fun hnone => hreport ?_⟩
  · refine Iff.trans ?_ (Eq.congr_left hcount).symm
    by_cases hdone : result = .delivered
    · simp [hdone]
    · simp [hdone]
  · rintro rfl
    have hone := hcount.symm.trans hnone
    cases hone

end Outcome

/-- Two nodes with an address and a connection each. -/
def twoPeers : Net :=
  ⟨⟨fun _ => ((∅ : Connections).insert "b" 1).insert "c" 2,
    fun _ => (GlobalRouteTable.new.addNode (fun _ => 0) "b" "x").addNode (fun _ => 0) "c" "y"⟩,
    0,[]⟩

def onePlace (_ : String) : Option SocketAddr := some (.v4 [10,0,0,1] 7000)

/-- The first channel that is tried is full, and no new connection is had. -/
def fullAtFirst : Wire := { Wire.still with accepts := fun n => 5 ≤ n }

/-- The target's channel refuses and cannot be opened anew, so the frame goes
to the other node, into the channel of its connection. -/
theorem forward_outcome_two_peers :
    Alone fullAtFirst ∧ ∃ peers tried net',
      forward onePlace fullAtFirst ⟨some 0,some 0,"a"⟩ "b" ⟨1,2,[116],[5],.group⟩ twoPeers =
        (.delivered,net') ∧
      Others onePlace 0 0 "a" twoPeers "b" peers ∧
      tried = [⟨"b",1,false⟩,⟨"c",7,true⟩] ∧
      InTurn (candidates onePlace (twoPeers.shared.tables 0) "b" peers)
        (tried.map Attempt.answer) true ∧
      (∀ a ∈ tried, a.ok = (channel onePlace fullAtFirst 0 0 twoPeers a).isSome) ∧
      net'.queued = [(2,.forward (forwardMessage 0 ⟨1,2,[116],[5],.group⟩))] := by
  have halone : Alone fullAtFirst := fun _ _ => rfl
  obtain ⟨peers, tried, result, net', hforward, htracked, hpeers, hturn, -, hanswers, -⟩ :=
    forward_outcome onePlace fullAtFirst halone 0 0 "a" ⟨1,2,[116],[5],.group⟩ "b" twoPeers
  have hresult : result = .delivered :=
    (congrArg Prod.fst hforward).symm.trans (by decide +kernel)
  have hqueued : net'.queued = [(2,.forward (forwardMessage 0 ⟨1,2,[116],[5],.group⟩))] :=
    (congrArg (fun out => out.2.queued) hforward).symm.trans (by decide +kernel)
  have htried : tried = [⟨"b",1,false⟩,⟨"c",7,true⟩] :=
    (congrArg (fun out => out.2.tried) htracked).symm.trans (by decide +kernel)
  subst hresult
  exact ⟨halone,peers,tried,net',hforward,hpeers,htried,hturn,hanswers,hqueued⟩

end RexMq.ForwardOutcome
