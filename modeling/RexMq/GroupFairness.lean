import Mathlib.Data.Nat.ModEq
import Mathlib.Order.Interval.Finset.Nat
import RexMq.PublishTrace
import RexMq.ServerRun

/-!
# Whose turn it is in a group

One counter serves the group messages of all titles: a message goes to the
subscriber whose place in the title's list is the counter modulo the length of
the list, and every message that has a subscriber moves the counter on. Over a
run of group messages the subscribers of a title are therefore chosen by the
numbers its messages have among all that were counted, taken modulo the
counter's word and then modulo the length. Without other titles in between and
away from the wrap these are consecutive and the turns are fair; otherwise they
need not be.
-/

set_option autoImplicit false

namespace RexMq.GroupFairness
open RexMq.FrameData RexMq.ClientRegistry RexMq.ServerState RexMq.Handlers
open RexMq.HandlerEffects RexMq.FrameAccess RexMq.PublishTrace RexMq.ServerRun

/-- A group message that can be read, with the client that delivers it. -/
structure GroupPublish where
  env : Env
  source : ClientRef
  frame : RexData
  title : Title
  publisher : ClientId
  group : frame.command = .ok .group
  titled : frame.title = .ok title
  sourced : frame.source = .ok publisher

namespace GroupPublish

def publish (p : GroupPublish) (s : Server) : Server := receiveFrame p.env p.source p.frame s

def listeners (p : GroupPublish) (s : Server) : List ClientRef :=
  s.registry.findAllByTitle s.clients p.title (some p.publisher)

def chosen (p : GroupPublish) (s : Server) : Option ClientRef :=
  (p.listeners s)[s.groupIndex.toNat%(p.listeners s).length]?

section Step
variable (p q : GroupPublish) (s : Server)

theorem handled : ∃ t, groupHandler p.env p.source p.frame s = .ok t ∧
    p.publish s = { t with clients := modify t.clients p.source (.updateLastRecv p.env.now) } := by
  obtain ⟨t, hok⟩ := handle_ok p.env p.source p.frame s
    (fits_of_title p.frame p.title p.titled (by rw [p.group]; simp))
  have hgroup : groupHandler p.env p.source p.frame s = .ok t := by
    rw [handle, bind_of_ok p.group] at hok
    exact hok
  refine ⟨t,hgroup,?_⟩
  rw [publish, receiveFrame, hok]

theorem publish_quiet : Quiet s (p.publish s) := by
  obtain ⟨t, hgroup, hpublish⟩ := p.handled s
  rw [hpublish]
  exact quiet_trans s t _ (group_follows (quiet_follows p.env) p.source p.frame s t hgroup)
    (quiet_touch t p.source p.env.now)

theorem listeners_publish : q.listeners (p.publish s) = q.listeners s := by
  have hq := p.publish_quiet s
  rw [listeners, listeners, ClientRegistryImpl.find_all_by_title_eq,
    ClientRegistryImpl.find_all_by_title_eq, hq.registry]
  simp only [hq.id]

theorem publish_unheard (h : p.listeners s = []) :
    (p.publish s).groupIndex = s.groupIndex ∧ p.chosen s = none := by
  obtain ⟨t, hgroup, hpublish⟩ := p.handled s
  have hchosen : p.chosen s = none := by rw [chosen, h]; rfl
  rcases group_turn p.env p.source p.frame s t p.title p.publisher p.titled p.sourced hgroup with
    ⟨-, hindex, -⟩ | ⟨target, htarget, -⟩
  · rw [hpublish]
    exact ⟨hindex,hchosen⟩
  · exact absurd (htarget.symm.trans hchosen) (Option.some_ne_none target)

/-- A message with listeners is counted, and the chosen one's sender is the
first that is called with it. -/
theorem publish_heard (h : p.listeners s ≠ []) :
    (p.publish s).groupIndex = s.groupIndex+1 ∧ ∃ target g back, p.chosen s = some target ∧
      (RexData.mk g).command = .ok .group ∧
      (p.publish s).sent = s.sent++
        ⟨(s.clients target).sender,g,p.env.sendOk s.sent.length⟩::back := by
  obtain ⟨t, hgroup, hpublish⟩ := p.handled s
  rcases group_turn p.env p.source p.frame s t p.title p.publisher p.titled p.sourced hgroup with
    ⟨hnone, -⟩ | ⟨target, htarget, hindex, g, hg, back, -, hposts⟩
  · exact absurd hnone h
  · rw [hpublish]
    exact ⟨hindex,target,g.content,back,htarget,hg.trans p.group,hposts.sent⟩

end Step
end GroupPublish

section Turns
variable {α β : Type*}

/-- Any `n` that follow one another are different. -/
def FairTurns (n : ℕ) (xs : List α) : Prop :=
  ∀ i, i+n ≤ xs.length → ((xs.drop i).take n).Nodup

instance [DecidableEq α] (n : ℕ) (xs : List α) : Decidable (FairTurns n xs) :=
  decidable_of_iff (∀ i < xs.length+1, i+n ≤ xs.length → ((xs.drop i).take n).Nodup)
    ⟨fun h i hi => h i (by omega) hi,fun h i _ hi => h i hi⟩

theorem fair_turns_map (n : ℕ) (g : α → β) (xs : List α)
    (hg : ∀ x ∈ xs, ∀ y ∈ xs, g x = g y → x = y) :
    FairTurns n (xs.map g) ↔ FairTurns n xs := by
  apply forall_congr'
  intro i
  rw [List.length_map, ← List.map_drop, ← List.map_take]
  apply imp_congr_right
  intro _
  have hsub : ∀ x ∈ (xs.drop i).take n, x ∈ xs :=
    fun x hx => List.mem_of_mem_drop (List.mem_of_mem_take hx)
  constructor
  · exact fun h => h.of_map
  · exact fun h => h.map_on fun x hx y hy => hg x (hsub x hx) y (hsub y hy)

theorem fair_turns_range (n m len : ℕ) (hwrap : m+len ≤ 2^64) :
    FairTurns n ((List.range' m len).map (fun j => j%2^64%n)) := by
  intro i hi
  rw [List.length_map, List.length_range'] at hi
  rw [← List.map_drop, ← List.map_take, List.drop_range', Nat.mul_one,
    List.take_range'_of_length_ge (by omega)]
  apply List.Nodup.map_on
  · intro x hx y hy hxy
    rw [List.mem_range'_1] at hx hy
    rw [Nat.mod_eq_of_lt (show x < 2^64 by omega),
      Nat.mod_eq_of_lt (show y < 2^64 by omega)] at hxy
    apply Nat.mod_injOn_Ico (m+i) n
    · rw [Finset.coe_Ico, Set.mem_Ico]
      omega
    · rw [Finset.coe_Ico, Set.mem_Ico]
      omega
    · exact hxy
  · exact List.nodup_range'

end Turns

section Runs
variable (T : Title) (s : Server) (ps : List GroupPublish)

/-- The subscribers that the messages to a title are sent to, in order. -/
def sentTo : Server → List GroupPublish → List ClientRef
  | _, [] => []
  | s, p::ps =>
    (if p.title = T then (p.chosen s).toList else [])++sentTo (p.publish s) ps

def counted : List Title := (ps.filter (fun p => p.listeners s ≠ [])).map GroupPublish.title

/-- The numbers of the messages to a title, where the first of all has number
`m`. -/
def turns : ℕ → List Title → List ℕ
  | _, [] => []
  | m, t::ts => (if t = T then [m] else [])++turns (m+1) ts

theorem counted_publish (p : GroupPublish) : counted (p.publish s) ps = counted s ps := by
  rw [counted, counted]
  simp only [GroupPublish.listeners_publish]

theorem sent_to_eq (cs : List ClientRef) (m : ℕ) (hm : s.groupIndex.toNat = m%2^64)
    (hcs : ∀ p ∈ ps, p.title = T → p.listeners s = cs) :
    (sentTo T s ps).map some =
      (turns T m (counted s ps)).map (fun j => cs[j%2^64%cs.length]?) := by
  induction ps generalizing s m with
  | nil => rfl
  | cons p ps ih =>
    have hrest : ∀ q ∈ ps, q.title = T → q.listeners (p.publish s) = cs := by
      intro q hq hT
      rw [GroupPublish.listeners_publish]
      exact hcs q (List.mem_cons_of_mem p hq) hT
    by_cases hp : p.listeners s = []
    · obtain ⟨hindex, hchosen⟩ := p.publish_unheard s hp
      have hcount : counted s (p::ps) = counted (p.publish s) ps := by
        rw [counted_publish, counted, List.filter_cons_of_neg (by simpa using hp), counted]
      rw [sentTo, hchosen, Option.toList_none, ite_self, List.nil_append, hcount]
      exact ih (p.publish s) m (by rw [hindex, hm]) hrest
    · obtain ⟨hindex, target, -, -, hchosen, -⟩ := p.publish_heard s hp
      have hcount : counted s (p::ps) = p.title::counted (p.publish s) ps := by
        rw [counted_publish, counted, List.filter_cons_of_pos (by simpa using hp), List.map_cons,
          counted]
      have hnext : (p.publish s).groupIndex.toNat = (m+1)%2^64 := by
        rw [hindex, BitVec.toNat_add, hm]
        simp
      rw [sentTo, hcount, turns, List.map_append, List.map_append,
        ih (p.publish s) (m+1) hnext hrest]
      congr 1
      split_ifs with hT
      · have hturn : cs[m%2^64%cs.length]? = some target := by
          rw [← hchosen, GroupPublish.chosen, hcs p List.mem_cons_self hT, hm]
        rw [hchosen, Option.toList_some, List.map_singleton, List.map_singleton, hturn]
      · rfl

theorem fair_iff_places (cs : List ClientRef) (m : ℕ) (hm : s.groupIndex.toNat = m%2^64)
    (hn : cs.Nodup) (hcs : ∀ p ∈ ps, p.title = T → p.listeners s = cs) :
    FairTurns cs.length (sentTo T s ps) ↔
      FairTurns cs.length ((turns T m (counted s ps)).map (fun j => j%2^64%cs.length)) := by
  have hsome := fair_turns_map cs.length some (sentTo T s ps)
    (fun x _ y _ h => Option.some.inj h)
  have hplaces : (turns T m (counted s ps)).map (fun j => cs[j%2^64%cs.length]?) =
      ((turns T m (counted s ps)).map (fun j => j%2^64%cs.length)).map (fun i => cs[i]?) := by
    rw [List.map_map]
    rfl
  rw [← hsome, sent_to_eq T s ps cs m hm hcs, hplaces]
  by_cases hpos : 0 < cs.length
  · apply fair_turns_map
    intro i hi j _ hij
    obtain ⟨_, -, rfl⟩ := List.mem_map.mp hi
    exact (List.getElem?_inj (Nat.mod_lt _ hpos) hn).mp hij
  · rw [Nat.eq_zero_of_not_pos hpos]
    exact iff_of_true (fun _ _ => List.nodup_nil) (fun _ _ => List.nodup_nil)

theorem turns_of_all (m : ℕ) (ts : List Title) (h : ∀ t ∈ ts, t = T) :
    turns T m ts = List.range' m ts.length := by
  induction ts generalizing m with
  | nil => rfl
  | cons t ts ih =>
    have hrest : ∀ u ∈ ts, u = T := fun u hu => h u (List.mem_cons_of_mem t hu)
    rw [turns, if_pos (h t List.mem_cons_self), ih (m+1) hrest]
    rfl

/-- While only messages to the title are counted and the counter does not
wrap, the turns are fair. -/
theorem fair_without_others (cs : List ClientRef) (hn : cs.Nodup)
    (hcs : ∀ p ∈ ps, p.title = T → p.listeners s = cs) (halone : ∀ t ∈ counted s ps, t = T)
    (hwrap : s.groupIndex.toNat+(counted s ps).length ≤ 2^64) :
    FairTurns cs.length (sentTo T s ps) := by
  apply (fair_iff_places T s ps cs s.groupIndex.toNat
    (Nat.mod_eq_of_lt s.groupIndex.isLt).symm hn hcs).mpr
  rw [turns_of_all T _ _ halone]
  exact fair_turns_range _ _ _ hwrap

/-- Any as many messages to a title as it has subscribers go to different ones
exactly if the numbers of those messages among all that are counted differ
modulo the counter's word and the number of subscribers. -/
theorem group_fair_iff (cs : List ClientRef) (hn : cs.Nodup)
    (hcs : ∀ p ∈ ps, p.title = T → p.listeners s = cs) :
    FairTurns cs.length (sentTo T s ps) ↔
      FairTurns cs.length ((turns T s.groupIndex.toNat (counted s ps)).map
        (fun j => j%2^64%cs.length)) :=
  fair_iff_places T s ps cs s.groupIndex.toNat (Nat.mod_eq_of_lt s.groupIndex.isLt).symm hn hcs

end Runs

/-- A publish by client 9 over its own connection. -/
def published (title : Title) (f : RexData) (hc : f.command = .ok .group)
    (ht : f.title = .ok title) (hk : f.source = .ok 9) : GroupPublish :=
  ⟨quietEnv,9,f,title,9,hc,ht,hk⟩

def groupFrame (title : Title) : RexData :=
  ⟨RexMq.ByteWords.writeWord 128 20 9 (RexData.new .group title []).content⟩

def toT : GroupPublish :=
  published [116] (groupFrame [116]) (by decide +kernel) (by decide +kernel) (by decide +kernel)

def toU : GroupPublish :=
  published [117] (groupFrame [117]) (by decide +kernel) (by decide +kernel) (by decide +kernel)

/-- Connection `c` logs client `c+1` in with a title. -/
def joined (cs : List (ClientRef × Title)) : Server :=
  ((cs.flatMap (fun e => [.accept e.1 0 "tcp" 0,
    .frame e.1 quietEnv (loginFrame (BitVec.ofNat 128 (e.1+1)) e.2)])).foldl step
    (start plainConfig .noop none unusedClients)).server

theorem group_fair_two_subscribers :
    FairTurns 2 (sentTo [116] (joined [(0,[116]),(1,[116])]) [toT,toT,toT]) := by
  refine (group_fair_iff [116] (joined [(0,[116]),(1,[116])]) [toT,toT,toT] [0,1] (by decide)
    (fun p hp _ => ?_)).mpr (by decide +kernel)
  have hp : p = toT := by simpa using hp
  rw [hp]
  decide +kernel

/-- Two subscribers, and a message to another title between two to theirs;
then three subscribers and three messages over the wrap of the counter. -/
theorem group_turns_repeat :
    ¬ FairTurns 2 (sentTo [116] (joined [(0,[116]),(1,[116]),(2,[117])]) [toT,toU,toT]) ∧
      ¬ FairTurns 3 (sentTo [116]
        { joined [(0,[116]),(1,[116]),(2,[116])] with groupIndex := -1 } [toT,toT,toT]) := by
  decide +kernel

end RexMq.GroupFairness
