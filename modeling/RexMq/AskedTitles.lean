import Mathlib.Tactic.Common
import RexMq.PublishOrder

/-!
# Messages reach only those who asked

What the server knows of a client's titles, it has from that client: every
title in its tables stands in a login or a registration that the client has
sent. So, where nothing is stored and every process keeps to one id and one
connection, no handler is ever called with a message on a title its client did
not ask for.
-/

set_option autoImplicit false

namespace RexMq.AskedTitles
open RexMq.ByteWords RexMq.FiniteRun RexMq.RelationIndex RexMq.FrameData RexMq.ClientRegistry
open RexMq.ServerState RexMq.Handlers RexMq.HandlerEffects RexMq.PublishTrace RexMq.ServerRun
open RexMq.SentFrames RexMq.ClientProcess RexMq.StarNetwork RexMq.FrameNetwork RexMq.SeatedClients
open RexMq.MannedNetwork RexMq.PublishOrder

/-- A frame that asks for the title, in a list or as a whole. -/
def Asks (f : Bytes) (t : Title) : Prop :=
  ∃ title, (RexData.mk f).title = .ok title ∧ (t ∈ splitTitles title ∨ t = title) ∧
    ((RexData.mk f).command = .ok .login ∨ (RexData.mk f).command = .ok .regTitle)

def Asked (q : List Bytes) (t : Title) : Prop := ∃ f ∈ q, Asks f t

theorem Asked.append {q : List Bytes} {t : Title} (h : Asked q t) (r : List Bytes) :
    Asked (q++r) t := by
  obtain ⟨f, hf, ha⟩ := h
  exact ⟨f,List.mem_append_left r hf,ha⟩

def titleOf (l : Letter) : Option Title :=
  match l.body with
  | [] => none
  | b::rest => if b.toNat ≤ rest.length then some (rest.take b.toNat) else none

theorem title_of_letter (f : RexData) (title : Title) (ht : f.title = .ok title) (l : Letter)
    (hl : letter f.content = some l) : titleOf l = some title := by
  have hbody : l.body = f.content.drop 36 := by
    unfold letter at hl
    split at hl
    · unfold letterOf at hl
      split_ifs at hl
      cases hl
      rfl
    · cases hl
  obtain ⟨len, hlen, ht⟩ := bind_ok ht
  unfold RexData.titleLen at hlen
  split at hlen
  · rename_i b hb
    cases hlen
    have hb' : f.content[36]? = some b := hb
    have hcons : f.content.drop 36 = b::f.content.drop 37 := by
      obtain ⟨hlt, hget⟩ := List.getElem?_eq_some_iff.mp hb'
      rw [List.drop_eq_getElem_cons hlt, hget]
    split_ifs at ht with hlong
    · cases ht
    obtain rfl := Except.ok.inj ht
    rw [titleOf, hbody, hcons]
    dsimp only
    rw [if_pos]
    · rfl
    · rw [List.length_drop]
      simp only [titleOffset, rexHeadLen, titleLenSize] at hlong
      omega
  · cases hlen

section Servers
variable {N : Naming} {s : Server} {env : Env} {c : ClientRef} {f : RexData}

theorem mutator_seat (hs : Seated N s) (hc : c ∈ N.parties) (hf : Stamps N c f)
    {command : RexCommand} {m : Mutation} {k : ClientId} {client : ClientRef}
    (hcmd : f.command = .ok command) (hm : Mutation.fromCommand command = some m)
    (hk : f.source = .ok k) (hl : s.live k = some client) :
    client = c ∧ (m = .register → f.command = .ok .regTitle) := by
  have hne : command ≠ .check := by
    rintro rfl
    cases hm
  rw [hf.source hcmd hne] at hk
  cases hk
  obtain ⟨hp, hid, -⟩ := hs.live _ client hl
  refine ⟨(N.distinct hc hp hid).symm,?_⟩
  rintro rfl
  rw [hcmd]
  cases command <;> first | rfl | cases hm

theorem receive_titles (hs : Seated N s) (hc : c ∈ N.parties) (hf : Stamps N c f) (d : ClientRef)
    (t : Title) (ht : t ∈ ((receiveFrame env c f s).clients d).subscribedTitles) :
    t ∈ (s.clients d).subscribedTitles ∨ d = c ∧ Asks f.content t := by
  rcases receive_effect env c f s with hsame | ⟨u, he, hq⟩
  · rw [hsame] at ht
    exact .inl ht
  · rw [hq.titles] at ht
    cases he with
    | quiet _ => exact .inl ht
    | takeOver k title client hl hk htitle hlive =>
      rw [hf.source hl nofun] at hk
      cases hk
      obtain ⟨hp, hid, -⟩ := hs.live _ client hlive
      obtain rfl := N.distinct hc hp hid
      by_cases hd : d = c
      · subst hd
        dsimp only [takeOver] at ht
        rw [modify_same, RexClientInner.mem_insert_title] at ht
        exact ht.imp_right fun ht => ⟨rfl,title,htitle,.inl ht,.inl hl⟩
      · dsimp only [takeOver] at ht
        rw [modify_other _ _ _ _ hd] at ht
        exact .inl ht
    | enroll k title hl hk htitle hlive =>
      by_cases hd : d = c
      · subst hd
        rw [enroll_object, RexClientInner.mem_insert_title] at ht
        exact ht.imp_right fun ht => ⟨rfl,title,htitle,.inl ht,.inl hl⟩
      · rw [enroll_other env c k title s d hd] at ht
        exact .inl ht
    | mutate m command k title client hcmd hm hk htitle hlive =>
      rw [mutate_some m k title s client hlive] at ht
      dsimp only at ht
      by_cases hd : d = client
      · subst hd
        rw [modify_same] at ht
        cases m with
        | register =>
          rw [onClient, RexClientInner.mem_insert_title] at ht
          obtain ⟨rfl, hseat⟩ := mutator_seat hs hc hf hcmd hm hk hlive
          exact ht.imp_right fun ht => ⟨rfl,title,htitle,.inl ht,.inr (hseat rfl)⟩
        | unregister =>
          rw [onClient, RexClientInner.mem_remove_title] at ht
          exact .inl ht.1
      · rw [modify_other _ _ _ _ hd] at ht
        exact .inl ht
    | remove v ks _ hv =>
      rw [(fewer_remove_all ks v).clients, hv.titles] at ht
      exact .inl ht

theorem receive_subscribers (hs : Seated N s) (hc : c ∈ N.parties) (hf : Stamps N c f)
    (d : ClientRef) (t : Title) (hd : d ∈ (receiveFrame env c f s).registry.subscribers t) :
    d ∈ s.registry.subscribers t ∨
      d = c ∧ (t ∈ (s.clients c).subscribedTitles ∨ Asks f.content t) := by
  rcases receive_effect env c f s with hsame | ⟨u, he, hq⟩
  · rw [hsame] at hd
    exact .inl hd
  · rw [hq.registry] at hd
    cases he with
    | quiet _ => exact .inl hd
    | takeOver k title client _ _ _ _ => exact .inl hd
    | enroll k title hl hk htitle hlive =>
      rcases mem_subscribers_enroll env c k title s d t hd with hd | ⟨rfl, ht⟩
      · exact .inl hd
      · rw [enroll_object, RexClientInner.mem_insert_title] at ht
        exact .inr ⟨rfl,ht.imp_right fun ht => ⟨title,htitle,.inl ht,.inl hl⟩⟩
    | mutate m command k title client hcmd hm hk htitle hlive =>
      obtain ⟨rfl, hseat⟩ := mutator_seat hs hc hf hcmd hm hk hlive
      rw [mutate_some m k title s client hlive] at hd
      cases m with
      | register =>
        rcases (mem_listed_enlist ..).mp hd with hd | ⟨rfl, rfl, -⟩
        · exact .inl hd
        · exact .inr ⟨rfl,.inr ⟨t,htitle,.inr rfl,.inr (hseat rfl)⟩⟩
      | unregister => exact .inl ((mem_listed_delist ..).mp hd).1
    | remove v ks _ hv =>
      rw [← hv.registry]
      exact .inl (((fewer_remove_all ks v).listed t).subset hd)

theorem inner_titles {y : System} (e : Event) (he : Inner y e) :
    (∀ d ∈ (ServerRun.step y e).opened,
      ∀ t ∈ ((ServerRun.step y e).server.clients d).subscribedTitles,
        d ∈ y.opened ∧ t ∈ (y.server.clients d).subscribedTitles) ∧
    ∀ t, ∀ d ∈ (ServerRun.step y e).server.registry.subscribers t,
      d ∈ y.server.registry.subscribers t := by
  have hfewer : ∀ t, Fewer y.server t →
      (∀ d ∈ y.opened, ∀ u ∈ (t.clients d).subscribedTitles,
        d ∈ y.opened ∧ u ∈ (y.server.clients d).subscribedTitles) ∧
      ∀ u, ∀ d ∈ t.registry.subscribers u, d ∈ y.server.registry.subscribers u := by
    intro t ht
    rw [ht.clients]
    exact ⟨fun d hd u hu => ⟨hd,hu⟩,fun u d hd => (ht.listed u).subset hd⟩
  cases e with
  | frame c env f => exact absurd rfl (he c env f)
  | accept c uuid transport now =>
    simp only [ServerRun.step]
    split_ifs with hc
    · exact hfewer y.server (fewer_refl y.server)
    · refine ⟨fun d hd t ht => ?_,fun t d hd => hd⟩
      simp only [acceptClient] at ht
      by_cases hdc : d = c
      · rw [hdc, Function.update_self] at ht
        cases ht
      · rw [Function.update_of_ne hdc] at ht
        exact ⟨(List.mem_cons.mp hd).resolve_left hdc,ht⟩
  | teardown c =>
    simp only [ServerRun.step]
    split_ifs
    · exact hfewer _ (fewer_remove y.server _)
    · exact hfewer y.server (fewer_refl y.server)
  | inactiveSweep now => exact hfewer _ (fewer_sweep y.server now)
  | ackSweep env =>
    have hq := sweep_acks_quiet env y.server
    refine ⟨fun d hd t ht => ⟨hd,?_⟩,fun t d hd => ?_⟩
    · exact hq.titles d ▸ ht
    · exact hq.registry ▸ hd
  | ghostSweep now => exact hfewer _ (fewer_ghosts y.server now)
  | restore => exact hfewer _ (fewer_restore y.server)

theorem sender_of_copies (buf : Bytes) (n : ℕ) (ds : List ClientRef) (e : Sent)
    (h : e ∈ copies env s buf n ds) : ∃ d ∈ ds, e.sender = (s.clients d).sender := by
  induction ds generalizing n with
  | nil => cases h
  | cons d ds ih =>
    rcases List.mem_cons.mp h with rfl | h
    · exact ⟨d,List.mem_cons_self,rfl⟩
    · obtain ⟨d', hd, he⟩ := ih (n+1) h
      exact ⟨d',List.mem_cons_of_mem d hd,he⟩

theorem relayed_listed (hs : ∀ d, (s.clients d).sender = d) (es : List Sent)
    (h : Relayed env f s es) (d : ClientRef) (l : Letter)
    (hl : l ∈ letters (forOne d (es.filter Sent.ok))) :
    ∃ t, titleOf l = some t ∧ d ∈ s.registry.subscribers t := by
  obtain ⟨buf, n, ts, back, hbuf, -, hlisted, hback, rfl⟩ := h
  obtain ⟨g, hg, hl⟩ := List.mem_filterMap.mp hl
  obtain ⟨e, he, rfl⟩ := List.mem_map.mp hg
  obtain ⟨he, hsender⟩ := List.mem_filter.mp he
  rcases List.mem_append.mp (List.mem_of_mem_filter he) with he | he
  · obtain ⟨d', hd', hto⟩ := sender_of_copies buf n ts e he
    obtain ⟨title, ht, hin⟩ := hlisted d' hd'
    rw [hs d', of_decide_eq_true hsender] at hto
    rw [buf_of_copies env s buf n ts e he, hbuf] at hl
    rw [hto]
    exact ⟨title,title_of_letter f title ht l hl,hin⟩
  · rw [hback e he] at hl
    cases hl

end Servers

def Wanted (q : List Bytes) (l : Letter) : Prop := ∃ t, titleOf l = some t ∧ Asked q t

/-- All that the server knows of a client's titles, and all messages under way
to it, are about titles it has asked for. -/
structure Knowing (N : Naming) (n : ℕ) (y : Net) : Prop where
  unstored : Unstored N n y
  sent : ∀ c, ∀ f ∈ y.up c, f ∈ (y.spoke c).base.sent
  object : ∀ d ∈ y.hub.opened, ∀ t ∈ (y.hub.server.clients d).subscribedTitles,
    Asked (y.spoke d).base.sent t
  listed : ∀ t, ∀ d ∈ y.hub.server.registry.subscribers t, Asked (y.spoke d).base.sent t
  down : ∀ d, ∀ l ∈ letters (y.down d), Wanted (y.spoke d).base.sent l
  heard : ∀ d, ∀ l ∈ taken (y.spoke d).base, Wanted (y.spoke d).base.sent l

section Networks
variable {N : Naming} {n : ℕ} {y : Net}

theorem knowing_act (e : Event) (hy : Knowing N n y) (hn : 45 ≤ n)
    (ho : Mannered N n y (.act e)) : Knowing N n (move nodes y (.act e)) := by
  obtain ⟨htitles, hlisted⟩ := inner_titles e ho.1
  obtain ⟨es, hs, hes⟩ := act_unlettered e ho.1
  refine ⟨unstored_move hn _ hy.unstored ho,hy.sent,fun d hd t ht => ?_,fun t d hd => ?_,
    fun d l hl => ?_,hy.heard⟩
  · obtain ⟨hd, ht⟩ := htitles d hd t ht
    exact hy.object d hd t ht
  · exact hy.listed t d (hlisted t d hd)
  · have hnone : letters (sentTo d (posted y.hub.server (ServerRun.step y.hub e).server)) = [] := by
      rw [posted_letters _ _ es hs]
      refine letters_none _ fun g hg => ?_
      obtain ⟨x, hx, rfl⟩ := List.mem_map.mp hg
      exact hes x (List.mem_of_mem_filter (List.mem_of_mem_filter hx))
    simp only [move, nodes, letters_append, hnone, List.append_nil] at hl
    exact hy.down d l hl

theorem knowing_serve (c : ClientRef) (env : Env) (hy : Knowing N n y) (hn : 45 ≤ n) :
    Knowing N n (move nodes y (.serve c env)) := by
  have hunstored := unstored_move hn (.serve c env) hy.unstored trivial
  cases hq : y.up c with
  | nil =>
    rwa [serve_empty y c env hq]
  | cons f rest =>
    by_cases hopen : c ∈ y.hub.opened
    · have hmanned := hy.unstored.manned
      have hseated := hmanned.hosts.seated
      have hparty := hmanned.hosts.parties c hopen
      have hin : f ∈ y.up c := by rw [hq]; exact List.mem_cons_self
      have hstamp := hmanned.sourced c f hin
      have hasked : ∀ t, Asks f t → Asked (y.spoke c).base.sent t :=
        fun t ht => ⟨f,hy.sent c f hin,ht⟩
      rw [serve_move y c f rest env hq hopen] at hunstored ⊢
      refine ⟨hunstored,?_,fun d hd t ht => ?_,fun t d hd => ?_,fun d l hl => ?_,hy.heard⟩
      · exact mem_update_tail y.up c f rest hq _ hy.sent
      · rcases receive_titles hseated hparty hstamp d t ht with hold | ⟨rfl, hnew⟩
        · exact hy.object d hd t hold
        · exact hasked t hnew
      · rcases receive_subscribers hseated hparty hstamp d t hd with hold | ⟨rfl, hold | hnew⟩
        · exact hy.listed t d hold
        · exact hy.object d hopen t hold
        · exact hasked t hnew
      · obtain ⟨es, hs, hes⟩ := hy.unstored.relays env c ⟨f⟩
        rw [letters_append, posted_letters _ _ es hs] at hl
        rcases List.mem_append.mp hl with hl | hl
        · exact hy.down d l hl
        · obtain ⟨t, ht, hd⟩ := relayed_listed hseated.sender es hes d l hl
          exact ⟨t,ht,hy.listed t d hd⟩
    · rwa [serve_unopened y c env hopen]

theorem sent_grown (c : ClientRef) (p : Party) (gs : List Bytes)
    (hs : p.base.sent = (y.spoke c).base.sent++gs) (d : ClientRef) :
    ∃ r, (Function.update y.spoke c p d).base.sent = (y.spoke d).base.sent++r := by
  by_cases hd : d = c
  · rw [hd, Function.update_self]
    exact ⟨gs,hs⟩
  · rw [Function.update_of_ne hd]
    exact ⟨[],(List.append_nil _).symm⟩

theorem Knowing.spoken (hy : Knowing N n y) (c : ClientRef) (p : Party) (gs out : List Bytes)
    (down : ClientRef → List Bytes) (hsent : p.base.sent = (y.spoke c).base.sent++gs)
    (hsub : ∀ f ∈ out, f ∈ gs) (hdown : ∀ d, ∀ l ∈ letters (down d), l ∈ letters (y.down d))
    (hheard : ∀ l ∈ taken p.base, l ∈ taken (y.spoke c).base ∨ l ∈ letters (y.down c))
    (hunstored : Unstored N n { y with
      spoke := Function.update y.spoke c p
      up := Function.update y.up c (y.up c++out)
      down := down }) :
    Knowing N n { y with
      spoke := Function.update y.spoke c p
      up := Function.update y.up c (y.up c++out)
      down := down } := by
  have hgrown := sent_grown c p gs hsent
  have hasked : ∀ d t, Asked (y.spoke d).base.sent t →
      Asked (Function.update y.spoke c p d).base.sent t := by
    intro d t ht
    obtain ⟨r, hr⟩ := hgrown d
    rw [hr]
    exact ht.append r
  have hwanted : ∀ d l, Wanted (y.spoke d).base.sent l →
      Wanted (Function.update y.spoke c p d).base.sent l := by
    rintro d l ⟨t, ht, ha⟩
    exact ⟨t,ht,hasked d t ha⟩
  refine ⟨hunstored,fun d f hf => ?_,fun d hd t ht => hasked d t (hy.object d hd t ht),
    fun t d hd => hasked d t (hy.listed t d hd),
    fun d l hl => hwanted d l (hy.down d l (hdown d l hl)),fun d l hl => hwanted d l ?_⟩
  · by_cases hd : d = c
    · subst hd
      simp only [Function.update_self, hsent] at hf ⊢
      rcases List.mem_append.mp hf with hf | hf
      · exact List.mem_append_left gs (hy.sent d f hf)
      · exact List.mem_append_right _ (hsub f hf)
    · simp only [Function.update_of_ne hd] at hf ⊢
      exact hy.sent d f hf
  · by_cases hd : d = c
    · subst hd
      simp only [Function.update_self] at hl
      rcases hheard l hl with hl | hl
      · exact hy.heard d l hl
      · exact hy.down d l hl
    · simp only [Function.update_of_ne hd] at hl
      exact hy.heard d l hl

theorem mem_of_sent {α : Type*} (ok : Bool) (gs : List α) (f : α)
    (h : f ∈ if ok then gs else []) : f ∈ gs := by
  cases ok with
  | true => exact h
  | false => cases h

theorem knowing_speak (c : ClientRef) (u : Utterance) (hy : Knowing N n y) (hn : 45 ≤ n)
    (ho : Mannered N n y (.speak c u)) : Knowing N n (move nodes y (.speak c u)) := by
  have hunstored := unstored_move hn (.speak c u) hy.unstored ho
  obtain ⟨gs, hs, -, hkept⟩ := speak_stamps (hy.unstored.manned.object c) u ho.2
  rw [speak_move y c u gs hs] at hunstored ⊢
  refine hy.spoken c _ gs _ y.down hs (mem_of_sent _ gs) (fun _ _ hl => hl) (fun l hl => ?_)
    hunstored
  rw [Party.say_base, taken, hkept.callbacks] at hl
  exact .inl hl

theorem knowing_hear (c : ClientRef) (env : ClientEnv) (hy : Knowing N n y) (hn : 45 ≤ n) :
    Knowing N n (move nodes y (.hear c env)) := by
  have hunstored := unstored_move hn (.hear c env) hy.unstored trivial
  cases hq : y.down c with
  | nil => rwa [hear_empty y c env hq]
  | cons f rest =>
    obtain ⟨client, h, -, hh, hr⟩ :=
      hy.unstored.manned.received c env f (by rw [hq]; exact List.mem_cons_self)
    rw [hear_move y c f rest env hq _ hr.sent] at hunstored ⊢
    refine hy.spoken c _ _ _ _ hr.sent (mem_of_sent _ _) (fun d l hl => ?_) (fun l hl => ?_)
      hunstored
    · by_cases hd : d = c
      · subst hd
        rw [Function.update_self] at hl
        rw [hq, letters_cons]
        exact List.mem_append_right _ hl
      · rwa [Function.update_of_ne hd] at hl
    · rw [Party.hear_base, taken, hr.callbacks, List.filterMap_append, letters_append,
        letters_heard ⟨f⟩ h hh] at hl
      rcases List.mem_append.mp hl with hl | hl
      · exact .inl hl
      · rw [hq, letters_cons]
        exact .inr (List.mem_append_left _ hl)

theorem knowing_move (hn : 45 ≤ n) (mv : NetMove) (hy : Knowing N n y) (ho : Mannered N n y mv) :
    Knowing N n (move nodes y mv) := by
  cases mv with
  | act e => exact knowing_act e hy hn ho
  | speak c u => exact knowing_speak c u hy hn ho
  | serve c env => exact knowing_serve c env hy hn
  | hear c env => exact knowing_hear c env hy hn

end Networks

/-- At every moment of a run in which every process has one connection and an
id of its own, with a server without an offline store, every message a handler
has been called with is on a title that its client has asked for, in a login
or in a registration. -/
theorem messages_asked_for (N : Naming) (n : ℕ) (hn : 45 ≤ n) (config : RexSystemConfig)
    (cluster : ClusterPort) (clients : Clients) (hsender : ∀ d, (clients d).sender = d)
    (process : ClientRef → ClientBase)
    (hprocess : ∀ c, ∃ title sender now ack, process c = .opened (N.idOf c) title sender now ack)
    (mvs : List NetMove)
    (ho : Along (move nodes) (Mannered N n)
      (idleNet (start config cluster none clients) process) mvs) :
    Always (move nodes)
      (fun y => ∀ d, ∀ l ∈ delivered (y.spoke d), Wanted (y.spoke d).base.sent l)
      (idleNet (start config cluster none clients) process) mvs := by
  have hstart : Knowing N n (idleNet (start config cluster none clients) process) := by
    refine ⟨unstored_start cluster hsender hprocess,?_,?_,fun t d hd => ?_,?_,fun d l hl => ?_⟩
    · exact fun c f hf => absurd hf List.not_mem_nil
    · exact fun d hd => absurd hd List.not_mem_nil
    · rw [show (idleNet (start config cluster none clients) process).hub =
        start config cluster none clients from rfl, start, unstored_restore] at hd
      cases hd
    · exact fun d l hl => absurd hl List.not_mem_nil
    · obtain ⟨title, sender, now, ack, hp⟩ := hprocess d
      simp only [idleNet, Party.of_base, taken, hp] at hl
      cases hl
  have hrun := always_of_along (move nodes) (Mannered N n) (Knowing N n)
    (fun y mv hy hmv => knowing_move hn mv hy hmv) _ mvs hstart ho
  refine always_mono _ _ _ (fun y hy d l hl => hy.heard d l ?_) _ _ hrun
  exact (delivered_taken (hy.unstored.manned.trails d)).subset hl

theorem lossy_asked_for :
    delivered ((lossyRun.foldl (move nodes)
        (idleNet (start plainConfig .noop none unusedClients) processes)).spoke 1) ≠ [] ∧
    Always (move nodes)
      (fun y => ∀ d, ∀ l ∈ delivered (y.spoke d), Wanted (y.spoke d).base.sent l)
      (idleNet (start plainConfig .noop none unusedClients) processes) lossyRun :=
  ⟨by decide +kernel,messages_asked_for pair 1024 (by decide) plainConfig .noop unusedClients
    (fun _ => rfl) processes (fun c => ⟨[65],c,0,true,rfl⟩) lossyRun lossy_run_mannered⟩

end RexMq.AskedTitles
