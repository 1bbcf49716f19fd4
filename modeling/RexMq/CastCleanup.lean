import RexMq.PublishTrace
import RexMq.RegistryIndex
import RexMq.ServerRun

/-!
# Who a cast reaches and whom it removes

A cast calls the sender of every subscriber of the title but the frame's
source, once each and with the same bytes, and then removes the subscribers
whose send failed. While the title lists agree with the registered clients,
removing an id takes exactly its own client out of every list, so after any
pattern of failures the failed clients are gone from both tables and nothing
else has changed.
-/

set_option autoImplicit false

namespace RexMq.CastCleanup
open RexMq.ByteWords RexMq.FrameData RexMq.ClientRegistry RexMq.ServerState RexMq.Handlers
open RexMq.HandlerEffects RexMq.FrameAccess RexMq.PublishTrace RexMq.RelationIndex

/-- The client is the one registered under its id, and has the title. -/
def Subscribed (s : Server) (t : Title) (c : ClientRef) : Prop :=
  s.live (s.clients c).id = some c ∧ t ∈ (s.clients c).subscribedTitles

/-- A client is in a title's list, once, exactly if it is subscribed. -/
structure IndexAgrees (s : Server) : Prop where
  once : ∀ t, (s.registry.subscribers t).Nodup
  listed : ∀ t c, c ∈ s.registry.subscribers t ↔ Subscribed s t c

theorem index_agrees_of_agrees (s : Server) (ha : RegistryIndex.Agrees s.clients s.registry) :
    IndexAgrees s :=
  ⟨fun t => (ha.index.distinct t).of_map,fun t c => ha.index.member t c⟩

section Removal
variable (s : Server)

theorem index_agrees_quiet (t : Server) (hq : Quiet s t) (ha : IndexAgrees s) :
    IndexAgrees t := by
  constructor
  · rw [hq.registry]
    exact ha.once
  · intro u c
    rw [hq.registry, ha.listed, Subscribed, Subscribed, hq.live, hq.id, hq.titles]

theorem subscribers_remove (ha : IndexAgrees s) (c : ClientRef)
    (hc : s.live (s.clients c).id = some c) (u : Title) :
    (s.removeClient (s.clients c).id).2.registry.subscribers u =
      (s.registry.subscribers u).filter (fun d => d ≠ c) := by
  have hlist : (s.removeClient (s.clients c).id).2.registry.subscribers u =
      listed ((s.clients c).subscribedTitles.foldl
        (delist (fun d => (s.clients d).id) (s.clients c).id) s.registry.title2clients) u := by
    rw [Server.live_def, ClientRegistryImpl.findSomeById] at hc
    rw [Server.registry_remove_client, ClientRegistryImpl.removeClient]
    simp only [hc]
    rfl
  rw [hlist, listed_delists]
  split_ifs with hu
  · apply List.filter_congr
    intro d hd
    have hlive := ((ha.listed u d).mp hd).1
    rw [decide_eq_decide]
    constructor
    · rintro hne rfl
      exact hne rfl
    · intro hne hid
      rw [hid, hc] at hlive
      exact hne (Option.some.inj hlive).symm
  · refine (List.filter_eq_self.mpr fun d hd => ?_).symm
    rw [decide_eq_true_eq]
    rintro rfl
    exact hu ((ha.listed u d).mp hd).2

theorem index_agrees_remove (ha : IndexAgrees s) (c : ClientRef)
    (hc : s.live (s.clients c).id = some c) :
    IndexAgrees (s.removeClient (s.clients c).id).2 := by
  constructor
  · intro u
    rw [subscribers_remove s ha c hc]
    exact (ha.once u).filter _
  · intro u d
    rw [subscribers_remove s ha c hc, List.mem_filter, decide_eq_true_eq, ha.listed, Subscribed,
      Subscribed, Server.clients_remove_client, Server.live_remove_client]
    by_cases hid : (s.clients d).id = (s.clients c).id
    · rw [if_pos hid, hid, hc]
      constructor
      · rintro ⟨⟨hd, -⟩, hne⟩
        exact absurd (Option.some.inj hd).symm hne
      · rintro ⟨hd, -⟩
        cases hd
    · rw [if_neg hid]
      constructor
      · exact And.left
      · intro h
        refine ⟨h,?_⟩
        rintro rfl
        exact hid rfl

theorem clients_remove_all (ks : List ClientId) : (removeAll ks s).clients = s.clients := by
  induction ks generalizing s with
  | nil => rfl
  | cons k ks ih =>
    rw [removeAll, List.foldl_cons, ← removeAll, ih, Server.clients_remove_client]

theorem subscribers_remove_all (cs : List ClientRef) (ha : IndexAgrees s) (hn : cs.Nodup)
    (hcs : ∀ c ∈ cs, s.live (s.clients c).id = some c) (u : Title) :
    (removeAll (cs.map (fun c => (s.clients c).id)) s).registry.subscribers u =
      (s.registry.subscribers u).filter (fun d => d ∉ cs) := by
  induction cs generalizing s with
  | nil =>
    refine (List.filter_eq_self.mpr fun d _ => ?_).symm
    simp
  | cons c cs ih =>
    obtain ⟨hnot, hn⟩ := List.nodup_cons.mp hn
    have hc := hcs c List.mem_cons_self
    have hclients := Server.clients_remove_client (s.clients c).id s
    have hrest := ih (s.removeClient (s.clients c).id).2 (index_agrees_remove s ha c hc) hn
      (fun d hd => by
        have hlive := hcs d (List.mem_cons_of_mem c hd)
        rw [hclients, Server.live_remove_client, if_neg, hlive]
        intro hid
        rw [hid, hc] at hlive
        exact hnot ((Option.some.inj hlive).symm ▸ hd))
    rw [hclients] at hrest
    rw [List.map_cons, removeAll, List.foldl_cons, ← removeAll, hrest,
      subscribers_remove s ha c hc, List.filter_filter]
    apply List.filter_congr
    intro d _
    simp only [List.mem_cons, not_or, Bool.decide_and, Bool.and_comm]

end Removal

section Failures
variable (env : Env)

/-- The targets whose send fails, when the first of them is call number `n`. -/
def failedTargets : ℕ → List ClientRef → List ClientRef
  | _, [] => []
  | n, c::cs => if env.sendOk n then failedTargets (n+1) cs else c::failedTargets (n+1) cs

theorem failed_sublist (n : ℕ) (cs : List ClientRef) :
    (failedTargets env n cs).Sublist cs := by
  induction cs generalizing n with
  | nil => exact List.Sublist.refl []
  | cons c cs ih =>
    rw [failedTargets]
    split_ifs
    · exact (ih (n+1)).cons c
    · exact (ih (n+1)).cons_cons c

theorem send_next_ids (buf : Bytes) (r : List ClientId × Server) (c : ClientRef) :
    (sendNext env buf r c).1 =
      if env.sendOk r.2.sent.length then r.1 else r.1++[(r.2.clients c).id] := by
  have hout := send_buf_outcome env r.2 c buf
  unfold sendNext
  dsimp only
  rw [hout]
  split_ifs <;> rfl

theorem send_all_ids (buf : Bytes) (targets : List ClientRef) (s : Server) :
    (sendAll env buf targets s).1 =
      (failedTargets env s.sent.length targets).map (fun c => (s.clients c).id) := by
  suffices hs : ∀ r : List ClientId × Server, (targets.foldl (sendNext env buf) r).1 =
      r.1++(failedTargets env r.2.sent.length targets).map (fun c => (r.2.clients c).id) by
    exact (hs ([],s)).trans (List.nil_append _)
  induction targets with
  | nil => exact fun r => (List.append_nil _).symm
  | cons c targets ih =>
    intro r
    have hposts := (send_next_trace env buf r c).1
    have hquiet := (quiet_follows env).send_next buf r c
    have hids : (fun d => ((sendNext env buf r c).2.clients d).id) =
        fun d => (r.2.clients d).id := funext hquiet.id
    rw [List.foldl_cons, ih, send_next_ids, hposts.sent, List.length_append,
      List.length_singleton, failedTargets, hids]
    split_ifs
    · rfl
    · rw [List.map_cons, List.append_assoc]
      rfl

end Failures

section Cast
variable (env : Env) (source : ClientRef) (f : RexData) (s t : Server)
variable (title : Title) (k : ClientId)

def castTargets : List ClientRef := s.registry.findAllByTitle s.clients title (some k)

theorem mem_cast_targets (ha : IndexAgrees s) (c : ClientRef) :
    c ∈ castTargets s title k ↔ Subscribed s title c ∧ (s.clients c).id ≠ k := by
  rw [castTargets, ClientRegistryImpl.find_all_by_title_eq, List.mem_filter, ha.listed,
    decide_eq_true_eq]
  exact and_congr_right fun _ => ⟨fun h he => h (he ▸ rfl),fun h he => h (Option.some.inj he).symm⟩

theorem cast_targets_nodup (ha : IndexAgrees s) : (castTargets s title k).Nodup := by
  rw [castTargets, ClientRegistryImpl.find_all_by_title_eq]
  exact (ha.once title).filter _

theorem cast_removes (ht : f.title = .ok title) (hk : f.source = .ok k)
    (h : castHandler env source f s = .ok t) :
    ∃ u, Quiet s u ∧ Quiet (removeAll ((failedTargets env s.sent.length
      (castTargets s title k)).map (fun c => (s.clients c).id)) u) t := by
  have hQ := quiet_follows env
  rw [castHandler, bind_of_ok ht, bind_of_ok hk] at h
  dsimp only at h
  rw [← castTargets] at h
  split_ifs at h with hm
  · rw [List.isEmpty_iff.mp hm]
    exact ⟨s,quiet_refl s,hQ.no_target source f _ s t h⟩
  · obtain ⟨⟨g, u⟩, hu, h⟩ := bind_ok h
    obtain ⟨-, hueq⟩ := setup_ack_eq env s u f g _ _ _ hu
    have hall := hQ.trans s u _ (hQ.setup_ack f g _ _ _ s u hu)
      (hQ.send_all g.content (castTargets s title k) u)
    have hids := send_all_ids env g.content (castTargets s title k) u
    have hsame : u.sent = s.sent ∧ u.clients = s.clients := by
      rw [hueq]
      exact ⟨rfl,rfl⟩
    rw [hsame.1, hsame.2] at hids
    dsimp only at h
    rcases hs : sendAll env g.content (castTargets s title k) u with ⟨failed, v⟩
    rw [hs] at h hall hids
    refine ⟨v,hall,?_⟩
    rw [← hids]
    split_ifs at h
    · exact hQ.no_target source g _ _ t h
    · cases h
      exact quiet_refl _

/-- What a cast sends: one call for each target, and an answer to the
publisher exactly if none of them succeeded. -/
theorem cast_sends (hc : f.command = .ok .cast) (ht : f.title = .ok title)
    (hk : f.source = .ok k) (h : castHandler env source f s = .ok t) :
    ∃ buf back, (RexData.mk buf).command = .ok .cast ∧
      t.sent = s.sent++(copies env s buf s.sent.length (castTargets s title k)++back) ∧
      Answers .castReturn (s.clients source).sender
        ((copies env s buf s.sent.length (castTargets s title k)).any Sent.ok) back := by
  rcases cast_trace env source f s t title k ht hk h with
    ⟨hnone, back, hanswer, hposts⟩ | ⟨-, g, hg, back, hanswer, hposts⟩
  · rw [castTargets, hnone]
    exact ⟨f.content,back,hc,hposts.sent,hanswer⟩
  · refine ⟨g.content,back,hg.trans hc,hposts.sent,?_⟩
    rw [any_copies_eq]
    exact hanswer

/-- A cast over tables that agree: every target is sent the same bytes once,
the failed ones are gone from both tables, and the rest is as before. -/
theorem cast_reaches_and_cleans (hc : f.command = .ok .cast) (ht : f.title = .ok title)
    (hk : f.source = .ok k) (ha : IndexAgrees s) :
    ∃ t buf targets back, handle env source f s = .ok t ∧
      targets.Nodup ∧ (∀ c, c ∈ targets ↔ Subscribed s title c ∧ (s.clients c).id ≠ k) ∧
      (RexData.mk buf).command = .ok .cast ∧
      t.sent = s.sent++(copies env s buf s.sent.length targets++back) ∧
      Answers .castReturn (s.clients source).sender
        ((copies env s buf s.sent.length targets).any Sent.ok) back ∧
      (∀ j, t.live j =
        if ∃ c ∈ failedTargets env s.sent.length targets, (s.clients c).id = j then none
        else s.live j) ∧
      ((∀ j c, s.live j = some c → (s.clients c).id = j) →
        ∀ c ∈ failedTargets env s.sent.length targets, ∀ j, t.live j ≠ some c) ∧
      (∀ u, t.registry.subscribers u = (s.registry.subscribers u).filter
        (fun c => c ∉ failedTargets env s.sent.length targets)) ∧
      ∀ c, (t.clients c).id = (s.clients c).id ∧
        (t.clients c).subscribedTitles = (s.clients c).subscribedTitles ∧
        (t.clients c).sender = (s.clients c).sender := by
  obtain ⟨t, hok⟩ := handle_ok env source f s (fits_of_title f title ht (by rw [hc]; simp))
  have hcast : castHandler env source f s = .ok t := by
    rw [handle, bind_of_ok hc] at hok
    exact hok
  obtain ⟨buf, back, hbuf, hsent, hanswer⟩ := cast_sends env source f s t title k hc ht hk hcast
  obtain ⟨u, hsu, hut⟩ := cast_removes env source f s t title k ht hk hcast
  have hmem := mem_cast_targets s title k ha
  have hnodup := cast_targets_nodup s title k ha
  have hfailed : ∀ c ∈ failedTargets env s.sent.length (castTargets s title k),
      u.live (u.clients c).id = some c := by
    intro c hin
    have htarget := (failed_sublist env s.sent.length _).mem hin
    rw [hsu.live, hsu.id]
    exact ((hmem c).mp htarget).1.1
  have hids : (fun c => (s.clients c).id) = fun c => (u.clients c).id :=
    funext fun c => (hsu.id c).symm
  have hlive : ∀ j, t.live j =
      if ∃ c ∈ failedTargets env s.sent.length (castTargets s title k), (s.clients c).id = j
      then none else s.live j := by
    intro j
    rw [hut.live, ServerRun.live_remove_all, hsu.live]
    simp only [List.mem_map]
  refine ⟨t,buf,castTargets s title k,back,hok,hnodup,hmem,hbuf,hsent,hanswer,hlive,?_,?_,?_⟩
  · intro hkeyed c hin j hj
    rw [hlive] at hj
    split_ifs at hj with hgone
    exact hgone ⟨c,hin,hkeyed j c hj⟩
  · intro title'
    rw [hut.registry, hids, subscribers_remove_all u _ (index_agrees_quiet s u hsu ha)
      (hnodup.sublist (failed_sublist env _ _)) hfailed, hsu.registry]
  · intro c
    rw [hut.id, hut.titles, hut.sender, clients_remove_all]
    exact ⟨hsu.id c,hsu.titles c,hsu.sender c⟩

end Cast

def castFrame (k : ClientId) (title : Title) : RexData :=
  ⟨writeWord 128 20 k (RexData.new .cast title []).content⟩

/-- A server with the clients 1 and 2, which both have the title. -/
def twoSubscribers : Server :=
  { Server.build ServerRun.plainConfig .noop none (fun c => .new c [116] c 0) with
    registry := (ClientRegistryImpl.new.addClient (fun c => .new c [116] c 0) 1).addClient
      (fun c => .new c [116] c 0) 2 }

def firstFails : Env := { ServerRun.quietEnv with sendOk := fun n => n ≠ 0 }

/-- Of two subscribers the first cannot be reached: it is removed, the other
one stays, and the publisher is told nothing. -/
theorem cast_cleans_one_of_two :
    IndexAgrees twoSubscribers ∧ ∃ t buf, ∃ targets : List ClientRef, ∃ back,
      handle firstFails 0 (castFrame 9 [116]) twoSubscribers = .ok t ∧
      (∀ c, c ∈ targets ↔
        Subscribed twoSubscribers [116] c ∧ (twoSubscribers.clients c).id ≠ 9) ∧
      t.sent = copies firstFails twoSubscribers buf 0 targets++back ∧
      Answers .castReturn 0 ((copies firstFails twoSubscribers buf 0 targets).any Sent.ok) back ∧
      t.sent.map (fun e => (e.sender,e.ok)) = [(1,false),(2,true)] ∧
      t.live 1 = none ∧ t.live 2 = some 2 ∧ t.registry.subscribers [116] = [2] := by
  have ha : IndexAgrees twoSubscribers := index_agrees_of_agrees _
    (RegistryIndex.add_client_agrees _ _
      (RegistryIndex.add_client_agrees _ _ (RegistryIndex.new_agrees _) 1 rfl) 2
      (by decide +kernel))
  obtain ⟨t, buf, targets, back, hok, -, hmem, -, hsent, hanswers, -⟩ := cast_reaches_and_cleans
    firstFails 0 (castFrame 9 [116]) twoSubscribers [116] 9
    (by decide +kernel) (by decide +kernel) (by decide +kernel) ha
  have hvalues : (handle firstFails 0 (castFrame 9 [116]) twoSubscribers).toOption.map (fun t =>
      (t.sent.map (fun e => (e.sender,e.ok)),t.live 1,t.live 2,t.registry.subscribers [116])) =
      some ([(1,false),(2,true)],none,some 2,[2]) := by decide +kernel
  rw [hok] at hvalues
  obtain ⟨hcalls, hvalues⟩ := Prod.mk.inj (Option.some.inj hvalues)
  obtain ⟨hgone, hvalues⟩ := Prod.mk.inj hvalues
  obtain ⟨hkept, hlisted⟩ := Prod.mk.inj hvalues
  exact ⟨ha,t,buf,targets,back,hok,hmem,hsent,hanswers,hcalls,hgone,hkept,hlisted⟩

end RexMq.CastCleanup
