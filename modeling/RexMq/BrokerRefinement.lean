import Mathlib.Tactic.Common
import RexMq.CastCleanup
import RexMq.PublishOrder
import RexMq.PublishOutcome
import RexMq.TopicDesk

/-!
# The server is a topic desk

Seen from outside, a server without a store and without a cluster is a desk
that hands messages to those who want them: frames, teardowns and sweeps are
acts at the desk, and the calls of senders are what comes of them. Registry,
title lists and client objects are how the desk is kept.
-/

set_option autoImplicit false

namespace RexMq.BrokerRefinement
open RexMq.ByteWords RexMq.FiniteRun RexMq.RelationIndex RexMq.FrameData RexMq.ClientRegistry
open RexMq.RegistryIndex RexMq.ServerState RexMq.Handlers RexMq.HandlerEffects RexMq.FrameAccess
open RexMq.PublishTrace RexMq.PublishOutcome RexMq.CastCleanup RexMq.ServerRun RexMq.SeatedClients
open RexMq.ClientProcess RexMq.MannedNetwork RexMq.PublishOrder RexMq.TopicDesk

def deskOf (N : Naming) (y : System) : Desk ClientRef Title where
  present := {d | y.server.live (N.idOf d) = some d}
  wants d := {t | d ∈ y.opened ∧ t ∈ (y.server.clients d).subscribedTitles}

/-- What a frame asks for. The publisher for a group is left to wait for an
acknowledgement where there are any. -/
def frameAct (acks : Bool) (c : ClientRef) (f : RexData) : Act ClientRef Title Letter :=
  match f.command,f.title,letter f.content with
  | .ok .login,.ok title,_ => .enter c {t | t ∈ splitTitles title}
  | .ok .regTitle,.ok title,_ => .subscribe c title
  | .ok .delTitle,.ok title,_ => .unsubscribe c title
  | .ok .title,.ok title,some m => .toOne c title m true
  | .ok .group,.ok title,some m => .toOne c title m (!acks)
  | .ok .cast,.ok title,some m => .toAll c title m
  | _,_,_ => .idle

def actOf (N : Naming) (y : System) : Event → Act ClientRef Title Letter
  | .frame c _ f => if c ∈ y.opened then frameAct y.server.config.ackEnabled c f else .idle
  | .teardown c => if c ∈ y.opened ∧ c ∉ y.closed then .leave {c} else .idle
  | .inactiveSweep now => .leave {d | N.idOf d ∈ y.server.inactive now}
  | _ => .idle

def copyOf (e : Sent) : Option (Copy ClientRef Letter) :=
  (letter e.buf).map (fun m => ⟨e.sender,m,e.ok⟩)

/-- Whether a publish was answered with `NoTarget`. -/
def refusedBy (c : ClientRef) (f : RexData) (s t : Server) : Bool :=
  match f.command with
  | .ok command => match returnOf command with
    | some returns => decide (Told c returns s t)
    | none => false
  | .error _ => false

/-- The messages among the calls of an event, and the answer to a publish. -/
def outcomeOf (y : System) (e : Event) : Outcome ClientRef Letter where
  copies := ((ServerRun.step y e).server.sent.drop y.server.sent.length).filterMap copyOf
  refused := match e with
    | .frame c _ f => refusedBy c f y.server (ServerRun.step y e).server
    | _ => false

/-- The tables agree, and a connection has the id of its party or of none. -/
structure Kept (N : Naming) (y : System) : Prop where
  hosts : Hosts N y
  agrees : Agrees y.server.clients y.server.registry
  unstored : y.server.db = none
  own : ∀ c ∈ y.opened, (y.server.clients c).id = N.idOf c ∨
    ∀ d ∈ N.parties, (y.server.clients c).id ≠ N.idOf d

/-- Titles are registered one by one, and a party that is logged in asks for no
new titles in another login. Nobody else takes messages. -/
def Courteous (N : Naming) (y : System) : Event → Prop
  | .accept c uuid _ _ => c ∈ N.parties ∧ ∀ d ∈ N.parties, uuid ≠ N.idOf d
  | .frame c env f => Stamps N c f ∧ (∀ node request, env.forward node request ≠ .delivered) ∧
      ∀ title, f.title = .ok title →
        (f.command = .ok .regTitle → SingleTitle title) ∧
        (f.command = .ok .login → y.server.live (N.idOf c) = some c →
          ∀ t ∈ splitTitles title, t ∈ (y.server.clients c).subscribedTitles)
  | _ => True

theorem Courteous.ofParties {N : Naming} {y : System} {e : Event} (h : Courteous N y e) :
    OfParties N e := by
  cases e with
  | accept c uuid transport now => exact h.1
  | frame c env f => exact h.1
  | _ => trivial

section Agreement
variable {s t : Server}

theorem agrees_quiet (ha : Agrees s.clients s.registry) (hq : Quiet s t) :
    Agrees t.clients t.registry := by
  rw [hq.registry]
  refine ⟨fun k c hc => (hq.id c).trans (ha.keyed k c hc),?_⟩
  simpa only [hq.id, hq.titles] using ha.index

theorem agrees_remove_all (ks : List ClientId) (ha : Agrees s.clients s.registry) :
    Agrees (removeAll ks s).clients (removeAll ks s).registry := by
  induction ks generalizing s with
  | nil => exact ha
  | cons k ks ih =>
    refine ih (s := (s.removeClient k).2) ?_
    rw [Server.clients_remove_client, Server.registry_remove_client]
    exact remove_client_agrees s.clients s.registry ha k

theorem insert_known (o : RexClientInner) (title : Bytes)
    (h : ∀ t ∈ splitTitles title, t ∈ o.subscribedTitles) :
    (o.insertTitle title).subscribedTitles = o.subscribedTitles := by
  have hfold : ∀ ts : List Title, (∀ t ∈ ts, t ∈ o.subscribedTitles) →
      ts.foldl (fun us t => if t ∈ us then us else us++[t]) o.subscribedTitles =
        o.subscribedTitles := by
    intro ts
    induction ts with
    | nil => exact fun _ => rfl
    | cons t ts ih =>
      intro hts
      rw [List.foldl_cons, if_pos (hts t List.mem_cons_self)]
      exact ih fun u hu => hts u (List.mem_cons_of_mem t hu)
  exact hfold (splitTitles title) h

theorem agrees_take_over (ha : Agrees s.clients s.registry) (c : ClientRef) (title : Bytes)
    (h : ∀ t ∈ splitTitles title, t ∈ (s.clients c).subscribedTitles) :
    Agrees (takeOver c c title s).clients (takeOver c c title s).registry := by
  refine edit_agrees s.clients s.registry ha c _ (.inr ⟨rfl,?_⟩)
  exact insert_known ((s.clients c).setSender _) title h

theorem agrees_enroll (ha : Agrees s.clients s.registry) (env : Env) (c : ClientRef)
    (k : ClientId) (title : Bytes) (hc : ∀ j, s.live j ≠ some c) (hk : s.live k = none) :
    Agrees (enroll env c k title s).clients (enroll env c k title s).registry := by
  have hedit := edit_agrees s.clients s.registry ha c
    (((s.clients c).setId k).insertTitle title) (.inl hc)
  refine add_client_agrees _ (s.registry.claimGhost _) ⟨hedit.keyed,hedit.index⟩ c ?_
  rw [Function.update_self]
  exact hk

theorem agrees_mutate (ha : Agrees s.clients s.registry) (m : Mutation) (k : ClientId)
    (title : Bytes) (h : m = .register → SingleTitle title) :
    Agrees (mutate m k title s).clients (mutate m k title s).registry := by
  cases m with
  | register => exact register_title_agrees s.clients s.registry ha k title (h rfl)
  | unregister => exact unregister_title_agrees s.clients s.registry ha k title

end Agreement

section Keeping
variable {N : Naming} {y : System} {env : Env} {c : ClientRef} {f : RexData}

theorem Kept.seat (h : Kept N y) (hc : c ∈ N.parties) (client : ClientRef)
    (hl : y.server.live (N.idOf c) = some client) : client = c := by
  obtain ⟨hp, hid, -⟩ := h.hosts.seated.live _ client hl
  exact (N.distinct hc hp hid).symm

theorem Kept.agrees_receive (h : Kept N y) (hopen : c ∈ y.opened)
    (he : Courteous N y (.frame c env f)) :
    Agrees (receiveFrame env c f y.server).clients (receiveFrame env c f y.server).registry := by
  obtain ⟨hstamp, -, htitles⟩ := he
  have hparty := h.hosts.parties c hopen
  rcases receive_effect env c f y.server with hsame | ⟨u, hu, hq⟩
  · rw [hsame]
    exact h.agrees
  · refine agrees_quiet ?_ hq
    cases hu with
    | quiet _ => exact h.agrees
    | takeOver k title client hc hk ht hl =>
      rw [hstamp.source hc nofun] at hk
      cases hk
      obtain rfl := h.seat hparty client hl
      exact agrees_take_over h.agrees client title ((htitles title ht).2 hc hl)
    | enroll k title hc hk ht hl =>
      rw [hstamp.source hc nofun] at hk
      cases hk
      refine agrees_enroll h.agrees env c _ title (fun j hj => ?_) hl
      obtain ⟨-, rfl, -⟩ := h.hosts.seated.live j c hj
      rw [hl] at hj
      cases hj
    | mutate m command k title client hc hm hk ht hl =>
      refine agrees_mutate h.agrees m k title fun hreg => ?_
      subst hreg
      refine (htitles title ht).1 ?_
      rw [hc]
      cases command <;> first | rfl | cases hm
    | remove t ks _ ht => exact agrees_remove_all ks (agrees_quiet h.agrees ht)

theorem id_receive (s : Server) (hstamp : Stamps N c f) (d : ClientRef) :
    ((receiveFrame env c f s).clients d).id = (s.clients d).id ∨
      ((receiveFrame env c f s).clients d).id = N.idOf d := by
  rcases receive_effect env c f s with hsame | ⟨u, hu, hq⟩
  · rw [hsame]
    exact .inl rfl
  · rw [hq.id]
    cases hu with
    | quiet _ => exact .inl rfl
    | takeOver k title client _ _ _ _ => exact .inl (id_take_over c title s client d)
    | enroll k title hc hk _ _ =>
      rw [hstamp.source hc nofun] at hk
      cases hk
      rw [id_enroll]
      split_ifs with hd
      · exact .inr (by rw [hd])
      · exact .inl rfl
    | mutate m command k title client _ _ _ _ hl =>
      rw [mutate_some m k title s client hl]
      exact .inl (modify_field s.clients client d _ RexClientInner.id (id_on_client m title _))
    | remove t ks _ ht =>
      rw [clients_remove_all]
      exact .inl (ht.id d)

theorem kept_step (e : Event) (h : Kept N y) (he : Courteous N y e) :
    Kept N (ServerRun.step y e) := by
  have hhosts := hosts_step e h.hosts he.ofParties
  have hdb := unstored_step e h.unstored
  cases e with
  | accept c uuid transport now =>
    refine ⟨hhosts,?_,hdb,?_⟩
    · simp only [ServerRun.step]
      split_ifs with hc
      · exact h.agrees
      · exact edit_agrees _ _ h.agrees c _ (.inl fun k hk => hc (h.hosts.live k c hk))
    · simp only [ServerRun.step]
      split_ifs with hc
      · exact h.own
      · intro d hd
        simp only [acceptClient]
        rcases List.mem_cons.mp hd with rfl | hin
        · rw [Function.update_self]
          exact .inr he.2
        · rw [Function.update_of_ne (by rintro rfl; exact hc hin)]
          exact h.own d hin
  | frame c env f =>
    refine ⟨hhosts,?_,hdb,?_⟩
    · simp only [ServerRun.step]
      split_ifs with hc
      · exact h.agrees_receive hc he
      · exact h.agrees
    · simp only [ServerRun.step]
      split_ifs with hc
      · intro d hd
        rcases id_receive y.server he.1 d with hid | hid
        · rw [hid]
          exact h.own d hd
        · exact .inl hid
      · exact h.own
  | teardown c =>
    refine ⟨hhosts,?_,hdb,?_⟩
    · simp only [ServerRun.step]
      split_ifs
      · exact agrees_remove_all [(y.server.clients c).id] h.agrees
      · exact h.agrees
    · simp only [ServerRun.step]
      split_ifs
      · simpa only [teardownClient, Server.clients_remove_client] using h.own
      · exact h.own
  | inactiveSweep now =>
    refine ⟨hhosts,?_,hdb,?_⟩
    · refine inactive_sweep_keeps (fun s => Agrees s.clients s.registry) (fun s k hs => ?_) now
        y.server h.agrees
      rw [Server.clients_evict, Server.registry_evict]
      exact remove_client_agrees s.clients s.registry hs k
    · simpa only [ServerRun.step, (Server.inactive_sweep_evicted now y.server).clients] using h.own
  | ackSweep env =>
    have hq := sweep_acks_quiet env y.server
    refine ⟨hhosts,agrees_quiet h.agrees hq,hdb,?_⟩
    simpa only [ServerRun.step, hq.id] using h.own
  | ghostSweep now =>
    have hsame : y.server.cleanupExpiredGhosts now = y.server := by
      simp [Server.cleanupExpiredGhosts, h.unstored]
    simpa only [ServerRun.step, hsame] using h
  | restore =>
    have hsame : y.server.restore = y.server := by
      simp [Server.restore, h.unstored]
    simpa only [ServerRun.step, hsame] using h

end Keeping

/-- What a request for a title does to the sessions. -/
def mutated (m : Mutation) (k : ClientId) (title : Bytes) (s : Server) : Server :=
  match s.live k with
  | some _ => mutate m k title s
  | none => s

section Desks
variable {N : Naming} {y : System} {t : Server}

theorem desk_congr (hl : ∀ d, t.live (N.idOf d) = some d ↔ y.server.live (N.idOf d) = some d)
    (ht : ∀ d ∈ y.opened, (t.clients d).subscribedTitles = (y.server.clients d).subscribedTitles) :
    deskOf N { y with server := t } = deskOf N y :=
  Desk.ext _ _ hl fun d u => and_congr_right fun hd => by rw [ht d hd]

theorem desk_quiet (hq : Quiet y.server t) : deskOf N { y with server := t } = deskOf N y :=
  desk_congr (fun d => by rw [hq.live]) fun d _ => hq.titles d

theorem desk_remove (ks : List ClientId) (ds : Set ClientRef)
    (hl : ∀ k, t.live k = if k ∈ ks then none else y.server.live k)
    (hds : ∀ d, y.server.live (N.idOf d) = some d → (N.idOf d ∈ ks ↔ d ∈ ds))
    (ht : ∀ d, (t.clients d).subscribedTitles = (y.server.clients d).subscribedTitles) :
    deskOf N { y with server := t } = (deskOf N y).leave ds := by
  refine Desk.ext _ _ (fun d => ?_) fun d u => ?_
  · change t.live (N.idOf d) = some d ↔ y.server.live (N.idOf d) = some d ∧ d ∉ ds
    rw [hl]
    split_ifs with hk
    · constructor
      · intro hn
        cases hn
      · rintro ⟨hd, hn⟩
        exact absurd ((hds d hd).mp hk) hn
    · exact ⟨fun hd => ⟨hd,fun hin => hk ((hds d hd).mpr hin)⟩,And.left⟩
  · change d ∈ y.opened ∧ u ∈ (t.clients d).subscribedTitles ↔ _
    rw [ht]
    exact Iff.rfl

theorem live_mutated (m : Mutation) (c d : ClientRef) (title : Bytes) :
    (mutated m (N.idOf c) title y.server).live (N.idOf d) = y.server.live (N.idOf d) := by
  unfold mutated
  cases hl : y.server.live (N.idOf c) with
  | none => rfl
  | some client =>
    dsimp only
    rw [mutate_some m _ title y.server client hl]
    rfl

variable {c : ClientRef} (h : Kept N y) (hopen : c ∈ y.opened)
include h hopen

theorem desk_login (env : Env) (title : Bytes) :
    deskOf N { y with server := login env c (N.idOf c) title y.server } =
      (deskOf N y).enter c {u | u ∈ splitTitles title} := by
  have hparty := h.hosts.parties c hopen
  have hlive : ∀ d, (login env c (N.idOf c) title y.server).live (N.idOf d) = some d ↔
      d = c ∨ y.server.live (N.idOf d) = some d := by
    intro d
    unfold login
    cases hl : y.server.live (N.idOf c) with
    | some client =>
      obtain rfl := h.seat hparty client hl
      constructor
      · exact .inr
      · rintro (rfl | hd)
        · exact hl
        · exact hd
    | none =>
      dsimp only
      rw [live_enroll]
      constructor
      · intro hd
        split_ifs at hd
        · cases hd
          exact .inl rfl
        · exact .inr hd
      · rintro (rfl | hd)
        · exact if_pos rfl
        · rw [if_neg]
          · exact hd
          · intro hid
            rw [hid, hl] at hd
            cases hd
  have htitles : ∀ d u, u ∈ ((login env c (N.idOf c) title y.server).clients d).subscribedTitles ↔
      u ∈ (y.server.clients d).subscribedTitles ∨ d = c ∧ u ∈ splitTitles title := by
    intro d u
    unfold login
    cases hl : y.server.live (N.idOf c) with
    | some client =>
      obtain rfl := h.seat hparty client hl
      by_cases hd : d = client
      · subst hd
        dsimp only [takeOver]
        rw [modify_same, RexClientInner.mem_insert_title]
        simp [RexClientInner.setSender]
      · dsimp only [takeOver]
        rw [modify_other _ _ _ _ hd]
        simp [hd]
    | none =>
      by_cases hd : d = c
      · subst hd
        dsimp only
        rw [enroll_object, RexClientInner.mem_insert_title]
        simp [RexClientInner.setId]
      · dsimp only
        rw [enroll_other env c _ title y.server d hd]
        simp [hd]
  refine Desk.ext _ _ hlive fun d u => ?_
  change d ∈ y.opened ∧ _ ↔ (d ∈ y.opened ∧ _) ∨ d = c ∧ _
  rw [htitles]
  constructor
  · rintro ⟨hd, hu | hu⟩
    · exact .inl ⟨hd,hu⟩
    · exact .inr hu
  · rintro (⟨hd, hu⟩ | ⟨rfl, hu⟩)
    · exact ⟨hd,.inl hu⟩
    · exact ⟨hopen,.inr ⟨rfl,hu⟩⟩

theorem titles_mutated (m : Mutation) (title : Bytes) (d : ClientRef) (u : Title) :
    u ∈ ((mutated m (N.idOf c) title y.server).clients d).subscribedTitles ↔
      u ∈ (if d = c ∧ y.server.live (N.idOf c) = some c then onClient title m (y.server.clients d)
        else y.server.clients d).subscribedTitles := by
  have hparty := h.hosts.parties c hopen
  unfold mutated
  cases hl : y.server.live (N.idOf c) with
  | none => simp
  | some client =>
    obtain rfl := h.seat hparty client hl
    dsimp only
    rw [mutate_some m _ title y.server client hl]
    dsimp only
    by_cases hd : d = client
    · subst hd
      rw [modify_same, if_pos ⟨rfl,rfl⟩]
    · rw [modify_other _ _ _ _ hd, if_neg fun hn => hd hn.1]

theorem desk_register (title : Bytes) (hs : SingleTitle title) :
    deskOf N { y with server := mutated .register (N.idOf c) title y.server } =
      (deskOf N y).subscribe c title := by
  refine Desk.ext _ _ (fun d => ?_) fun d u => ?_
  · change _ = _ ↔ _
    rw [live_mutated]
    rfl
  change d ∈ y.opened ∧ _ ↔ (d ∈ y.opened ∧ _) ∨
    d = c ∧ y.server.live (N.idOf c) = some c ∧ u = title
  rw [titles_mutated h hopen]
  split_ifs with hd
  · obtain ⟨rfl, hl⟩ := hd
    rw [onClient, RexClientInner.mem_insert_title, split_single title hs, List.mem_singleton]
    simp [hl, hopen]
  · constructor
    · exact .inl
    · rintro (hu | ⟨hdc, hl, -⟩)
      · exact hu
      · exact absurd ⟨hdc,hl⟩ hd

theorem desk_unregister (title : Bytes) :
    deskOf N { y with server := mutated .unregister (N.idOf c) title y.server } =
      (deskOf N y).unsubscribe c title := by
  refine Desk.ext _ _ (fun d => ?_) fun d u => ?_
  · change _ = _ ↔ _
    rw [live_mutated]
    rfl
  change d ∈ y.opened ∧ _ ↔ (d ∈ y.opened ∧ _) ∧
    ¬ (d = c ∧ y.server.live (N.idOf c) = some c ∧ u = title)
  rw [titles_mutated h hopen]
  split_ifs with hd
  · obtain ⟨rfl, hl⟩ := hd
    rw [onClient, RexClientInner.mem_remove_title]
    simp [hl, hopen]
  · constructor
    · exact fun hu => ⟨hu,fun hn => hd ⟨hn.1,hn.2.1⟩⟩
    · exact And.left

theorem mem_find_all (title : Title) (d : ClientRef) :
    d ∈ y.server.registry.findAllByTitle y.server.clients title (some (N.idOf c)) ↔
      d ∈ (deskOf N y).audience c title := by
  have hparty := h.hosts.parties c hopen
  rw [← castTargets, mem_cast_targets _ _ _ (index_agrees_of_agrees _ h.agrees)]
  constructor
  · rintro ⟨⟨hl, ht⟩, hne⟩
    obtain ⟨-, hid, -⟩ := h.hosts.seated.live _ d hl
    rw [hid] at hl hne
    exact ⟨hl,⟨h.hosts.live _ d hl,ht⟩,fun hd => hne (by rw [hd])⟩
  · rintro ⟨hl, ⟨-, ht⟩, hne⟩
    obtain ⟨hp, -, hid⟩ := h.hosts.seated.live _ d hl
    refine ⟨⟨by rw [hid]; exact hl,ht⟩,fun hd => hne ?_⟩
    rw [hid] at hd
    exact N.distinct hp hparty hd

theorem audience_empty_iff (title : Title) :
    (deskOf N y).audience c title = ∅ ↔
      y.server.registry.findAllByTitle y.server.clients title (some (N.idOf c)) = [] := by
  rw [List.eq_nil_iff_forall_not_mem, Set.eq_empty_iff_forall_notMem]
  exact forall_congr' fun d => not_congr (mem_find_all h hopen title d).symm

end Desks

section Requests
variable (env : Env) (c : ClientRef) (f : RexData) (s : Server)

theorem receive_mutation (command : RexCommand) (m : Mutation) (k : ClientId) (title : Bytes)
    (hc : f.command = .ok command) (hm : Mutation.fromCommand command = some m)
    (hk : f.source = .ok k) (ht : f.title = .ok title) :
    Quiet (mutated m k title s) (receiveFrame env c f s) := by
  have hQ := quiet_follows env
  obtain ⟨t, hok⟩ := handle_ok env c f s (fits_of_title f title ht (by
    rw [hc]
    rintro ⟨⟩
    cases hm))
  have hmut : sessionMutator env c f s = .ok t := by
    rw [handle, bind_of_ok hc] at hok
    cases command <;> first | exact hok | cases hm
  rw [sessionMutator, bind_of_ok hk, bind_of_ok ht, bind_of_ok hc] at hmut
  simp only [hm] at hmut
  rw [receiveFrame, hok]
  refine quiet_trans _ t _ ?_ (quiet_touch t c env.now)
  unfold mutated
  cases hl : s.live k with
  | some client =>
    simp only [hl] at hmut ⊢
    obtain ⟨g, -, hmut⟩ := bind_ok hmut
    cases hmut
    refine quiet_trans _ _ _ (quiet_plain _ _ ?_) (quiet_send_buf env client g.content _)
    exact ⟨rfl,rfl,rfl,rfl,rfl,fun _ => rfl,rfl⟩
  | none =>
    simp only [hl] at hmut ⊢
    exact hQ.no_target c f _ s t hmut

end Requests

section Outcomes
variable (env : Env) (s : Server)

def handed (m : Letter) : ℕ → List ClientRef → List (Copy ClientRef Letter)
  | _, [] => []
  | n, d::ds => ⟨d,m,env.sendOk n⟩::handed m (n+1) ds

theorem copies_handed (hs : ∀ d, (s.clients d).sender = d) (buf : Bytes) (m : Letter)
    (hm : letter buf = some m) (n : ℕ) (ds : List ClientRef) :
    (copies env s buf n ds).filterMap copyOf = handed env m n ds := by
  induction ds generalizing n with
  | nil => rfl
  | cons d ds ih => simp [copies, handed, copyOf, hm, hs, ih]

theorem handed_receivers (m : Letter) (n : ℕ) (ds : List ClientRef) :
    (handed env m n ds).map Copy.receiver = ds := by
  induction ds generalizing n with
  | nil => rfl
  | cons d ds ih => rw [handed, List.map_cons, ih]

theorem handed_message (m : Letter) (n : ℕ) (ds : List ClientRef) :
    ∀ e ∈ handed env m n ds, e.message = m := by
  induction ds generalizing n with
  | nil => exact fun e he => absurd he List.not_mem_nil
  | cons d ds ih =>
    intro e he
    rcases List.mem_cons.mp he with rfl | he
    · rfl
    · exact ih (n+1) e he

theorem handed_refused (m : Letter) (n : ℕ) (ds : List ClientRef) :
    (∀ e ∈ handed env m n ds, e.ok = false) ↔ ∀ i < ds.length, env.sendOk (n+i) = false := by
  induction ds generalizing n with
  | nil => simp [handed]
  | cons d ds ih =>
    rw [handed, List.forall_mem_cons, ih (n+1), List.length_cons, Nat.forall_lt_succ_left]
    refine and_congr_right fun _ => forall₂_congr fun i _ => ?_
    rw [Nat.succ_add_eq_add_succ]

theorem handed_failed (m : Letter) (n : ℕ) (ds : List ClientRef) (d : ClientRef) :
    d ∈ failed (handed env m n ds) ↔ d ∈ failedTargets env n ds := by
  induction ds generalizing n with
  | nil => simp [failed, handed, failedTargets]
  | cons e ds ih =>
    have hcons : d ∈ failed (handed env m n (e::ds)) ↔
        (e = d ∧ env.sendOk n = false) ∨ d ∈ failed (handed env m (n+1) ds) := by
      change (∃ x ∈ handed env m n (e::ds), _) ↔ _
      rw [handed, List.exists_mem_cons_iff]
      exact Iff.rfl
    rw [hcons, ih, failedTargets]
    cases hok : env.sendOk n with
    | true => simp
    | false => simp [eq_comm]

end Outcomes

section Publishes
variable {N : Naming} {y : System} {env : Env} {c : ClientRef} {f : RexData}

theorem relayed_letter (es : List Sent) (h : Relayed env f y.server es) (e : Sent) (he : e ∈ es) :
    letter e.buf = none ∨ letter e.buf = letter f.content := by
  obtain ⟨buf, n, ts, back, hbuf, -, -, hback, rfl⟩ := h
  rcases List.mem_append.mp he with he | he
  · rw [buf_of_copies env y.server buf n ts e he]
    exact .inr hbuf
  · exact .inl (hback e he)

theorem letter_of_publish (g : RexData) (command : RexCommand) (hc : g.command = .ok command)
    (he : ClientBase.expectsAck command) : ∃ m, letter g.content = some m := by
  obtain ⟨head, hh, hc⟩ := bind_ok hc
  cases hc
  rw [letter_of_head g head hh, letterOf, if_pos he]
  exact ⟨_,rfl⟩

variable (h : Kept N y)
include h

theorem Kept.relays (env : Env) (c : ClientRef) (f : RexData) :
    Relays env f y.server (receiveFrame env c f y.server) := by
  refine receive_relays env c f y.server h.unstored fun title x => ?_
  rw [ClientRegistryImpl.find_all_by_title_eq]
  exact (h.hosts.seated.once title).filter _

theorem silent_outcome (hopen : c ∈ y.opened) (hl : letter f.content = none)
    (hr : ∀ command, f.command = .ok command → returnOf command = none) :
    outcomeOf y (.frame c env f) = .silent := by
  obtain ⟨es, hs, hes⟩ := h.relays env c f
  have hcopies : es.filterMap copyOf = [] := by
    refine List.filterMap_eq_nil_iff.mpr fun e he => ?_
    rw [copyOf, Option.map_eq_none_iff]
    rcases relayed_letter es hes e he with hn | hn
    · exact hn
    · exact hn.trans hl
  have hrefused : refusedBy c f y.server (receiveFrame env c f y.server) = false := by
    unfold refusedBy
    cases hc : f.command with
    | error e => rfl
    | ok command => simp only [hr command hc]
  simp only [outcomeOf, ServerRun.step, if_pos hopen, hs, List.drop_left, hcopies, hrefused]
  rfl

theorem publish_outcome (hopen : c ∈ y.opened) (command returns : RexCommand) (m : Letter)
    (hc : f.command = .ok command) (hr : returnOf command = some returns)
    (hm : letter f.content = some m) (g : RexData) (hg : g.command = f.command)
    (ds : List ClientRef) (back : List Sent) (reached : Bool)
    (hback : PublishTrace.Answers returns c reached back)
    (hs : (receiveFrame env c f y.server).sent =
      y.server.sent++(copies env y.server g.content y.server.sent.length ds++back)) :
    outcomeOf y (.frame c env f) = ⟨handed env m y.server.sent.length ds,!reached⟩ := by
  have hack : ClientBase.expectsAck command = true ∧ ClientBase.expectsAck returns = false ∧
      command ≠ returns := by
    cases command <;> cases hr <;> decide
  have hnone : back.filterMap copyOf = [] := by
    refine List.filterMap_eq_nil_iff.mpr fun e he => ?_
    cases hback with
    | silent => cases he
    | told e' hret =>
      obtain rfl := List.mem_singleton.mp he
      rw [copyOf, letter_of_command ⟨e.buf⟩ returns hret.command hack.2.1]
      rfl
  have hcopies : (copies env y.server g.content y.server.sent.length ds).filterMap copyOf =
      handed env m y.server.sent.length ds := by
    cases ds with
    | nil => rfl
    | cons d ds =>
      refine copies_handed env y.server h.hosts.seated.sender g.content m ?_ _ _
      obtain ⟨es, hes, hrel⟩ := h.relays env c f
      obtain ⟨m', hm'⟩ := letter_of_publish g command (hg.trans hc) hack.1
      rw [hs] at hes
      obtain rfl := List.append_cancel_left hes
      rcases relayed_letter _ hrel _ (List.mem_append_left _ List.mem_cons_self) with hn | hn
      · rw [show letter g.content = some m' from hm'] at hn
        cases hn
      · exact hn.trans hm
  have htold : Told c returns y.server (receiveFrame env c f y.server) ↔ reached = false := by
    unfold Told
    rw [hs, List.drop_left, h.hosts.seated.sender c]
    have hcopy : ∀ e ∈ copies env y.server g.content y.server.sent.length ds,
        ¬ IsReturn returns c e := by
      intro e he hret
      have hcommand := hret.command
      rw [Carries, buf_of_copies env y.server _ _ _ e he] at hcommand
      rw [show (RexData.mk g.content).command = .ok command from hg.trans hc] at hcommand
      exact hack.2.2 (Except.ok.inj hcommand)
    cases hback with
    | silent =>
      simp only [List.append_nil, Bool.true_eq_false, iff_false, not_exists, not_and]
      exact hcopy
    | told e hret =>
      simp only [iff_true]
      exact ⟨e,List.mem_append_right _ List.mem_cons_self,hret⟩
  have hrefused : refusedBy c f y.server (receiveFrame env c f y.server) = !reached := by
    simp only [refusedBy, hc, hr, htold]
    cases reached <;> rfl
  simp only [outcomeOf, ServerRun.step, if_pos hopen, hs, List.drop_left, List.filterMap_append,
    hcopies, hnone, List.append_nil, hrefused]

end Publishes

section Frames
variable {N : Naming} {y : System} {env : Env} {c : ClientRef} {f : RexData}

theorem receive_quiet (command : RexCommand) (s : Server) (hc : f.command = .ok command)
    (hl : command ≠ .login) (hcast : command ≠ .cast) (hm : Mutation.fromCommand command = none) :
    Quiet s (receiveFrame env c f s) := by
  rcases receive_effect env c f s with hsame | ⟨u, he, hq⟩
  · rw [hsame]
    exact quiet_refl s
  · cases he with
    | quiet _ => exact hq
    | takeOver _ _ _ hc' _ _ _ | enroll _ _ hc' _ _ _ =>
      rw [hc] at hc'
      exact absurd (Except.ok.inj hc') hl
    | mutate m command' _ _ _ hc' hm' _ _ _ =>
      rw [hc] at hc'
      cases hc'
      rw [hm] at hm'
      cases hm'
    | remove _ _ hc' _ =>
      rw [hc] at hc'
      exact absurd (Except.ok.inj hc') hcast

theorem untitled_same (s : Server) (command : RexCommand) (e : Fault) (hc : f.command = .ok command)
    (ht : f.title = .error e)
    (hcommand : command = .login ∨ (Mutation.fromCommand command).isSome ∨
      ClientBase.expectsAck command = true) :
    receiveFrame env c f s = s := by
  have herror : ∃ e', handle env c f s = .error e' := by
    rw [handle, bind_of_ok hc]
    cases command with
    | title => exact ⟨e,by rw [titleHandler, ht]; rfl⟩
    | group => exact ⟨e,by rw [groupHandler, ht]; rfl⟩
    | cast => exact ⟨e,by rw [castHandler, ht]; rfl⟩
    | login | regTitle | delTitle =>
      dsimp only [loginHandler, sessionMutator]
      rw [ht]
      cases f.source with
      | error e' => exact ⟨e',rfl⟩
      | ok k => exact ⟨e,rfl⟩
    | _ => simp [Mutation.fromCommand, ClientBase.expectsAck] at hcommand
  obtain ⟨e', herror⟩ := herror
  rw [receiveFrame, herror]

theorem mutation_desk (hs : Stamps N c f) (command : RexCommand) (m : Mutation) (title : Title)
    (hc : f.command = .ok command) (hm : Mutation.fromCommand command = some m)
    (hne : command ≠ .check) (ht : f.title = .ok title) :
    deskOf N { y with server := receiveFrame env c f y.server } =
      deskOf N { y with server := mutated m (N.idOf c) title y.server } :=
  desk_quiet (y := { y with server := mutated m (N.idOf c) title y.server })
    (receive_mutation env c f y.server command m _ title hc hm (hs.source hc hne) ht)

theorem find_one_cases (env : Env) (s : Server) (title : Title) (x : Option ClientId) :
    (∃ d ∈ s.registry.findAllByTitle s.clients title x, s.route env title x = .here d) ∨
      (s.registry.findAllByTitle s.clients title x = [] ∧ ∀ d, s.route env title x ≠ .here d) := by
  unfold Server.route
  cases hone : s.registry.findOneByTitle s.clients env.draw title x with
  | some d =>
    rw [ClientRegistryImpl.find_one_by_title_eq] at hone
    exact .inl ⟨d,List.mem_of_getElem? hone,rfl⟩
  | none =>
    refine .inr ⟨(find_one_none_iff _ _ _ _ _).mp hone,fun d => ?_⟩
    cases s.cluster.findNodeForTitle env.ring title <;> exact nofun

theorem same_outcome (hsame : ServerRun.step y (.frame c env f) = y) :
    outcomeOf y (.frame c env f) = .silent := by
  have hrefused : refusedBy c f y.server y.server = false := by
    unfold refusedBy
    split
    · split
      · simp [Told]
      · rfl
    · rfl
  simp only [outcomeOf, hsame, List.drop_length, List.filterMap_nil, hrefused]
  rfl

theorem same_step (hopen : c ∈ y.opened) (hsame : receiveFrame env c f y.server = y.server) :
    Step (deskOf N y) .idle (outcomeOf y (.frame c env f))
      (deskOf N { y with server := receiveFrame env c f y.server }) := by
  rw [same_outcome (by rw [ServerRun.step, if_pos hopen, hsame]), hsame]
  exact .idle

variable (h : Kept N y) (hopen : c ∈ y.opened) (he : Courteous N y (.frame c env f))
include h hopen

theorem silent_of_command (command : RexCommand) (hc : f.command = .ok command)
    (hack : ClientBase.expectsAck command = false) : outcomeOf y (.frame c env f) = .silent := by
  refine silent_outcome h hopen (letter_of_command f command hc hack) fun command' hc' => ?_
  rw [hc] at hc'
  cases hc'
  cases command <;> first | rfl | cases hack

theorem quiet_step (command : RexCommand) (hc : f.command = .ok command)
    (hl : command ≠ .login) (hm : Mutation.fromCommand command = none)
    (hack : ClientBase.expectsAck command = false) :
    Step (deskOf N y) .idle (outcomeOf y (.frame c env f))
      (deskOf N { y with server := receiveFrame env c f y.server }) := by
  have hcast : command ≠ .cast := by
    rintro rfl
    cases hack
  rw [desk_quiet (receive_quiet command y.server hc hl hcast hm),
    silent_of_command h hopen command hc hack]
  exact .idle

include he

theorem title_step (title : Title) (m : Letter) (hc : f.command = .ok .title)
    (ht : f.title = .ok title) (hm : letter f.content = some m) :
    Step (deskOf N y) (.toOne c title m true) (outcomeOf y (.frame c env f))
      (deskOf N { y with server := receiveFrame env c f y.server }) := by
  rw [desk_quiet (receive_quiet .title y.server hc nofun nofun rfl)]
  have hk := he.1.source hc nofun
  obtain ⟨t, hok⟩ := handle_ok env c f y.server (fits_of_title f title ht (by rw [hc]; simp))
  have hhandler : titleHandler env c f y.server = .ok t := by
    rw [handle, bind_of_ok hc] at hok
    exact hok
  have htrace := title_trace env c f y.server t title _ ht hk hhandler
  have hsent : (receiveFrame env c f y.server).sent = t.sent := by
    rw [receiveFrame, hok]
  have hsender := h.hosts.seated.sender c
  have hnobody : ∀ back, y.server.registry.findAllByTitle y.server.clients title
        (some (N.idOf c)) = [] → PublishTrace.Answers .titleReturn c false back →
      t.sent = y.server.sent++back →
      Step (deskOf N y) (.toOne c title m true) (outcomeOf y (.frame c env f)) (deskOf N y) := by
    intro back hnone hback hpost
    rw [publish_outcome h hopen .title .titleReturn m hc rfl hm f rfl [] back false hback
      (hsent.trans hpost)]
    exact .nobody c title m true ((audience_empty_iff h hopen title).mpr hnone)
  rcases find_one_cases env y.server title (some (N.idOf c)) with
    ⟨d, hd, hroute⟩ | ⟨hnone, hroute⟩
  · rw [hroute] at htrace
    cases htrace with
    | here _ g back hg hback hpost =>
      rw [hsender] at hback
      rw [publish_outcome h hopen .title .titleReturn m hc rfl hm g hg [d] back _ hback
        (hsent.trans hpost.sent)]
      refine .one c title m true d _ _ ((mem_find_all h hopen title d).mp hd) ?_
      simp
  · generalize y.server.route env title (some (N.idOf c)) = plan at htrace hroute
    cases htrace with
    | here d _ _ _ _ _ => exact absurd rfl (hroute d)
    | remote node back hback hpost =>
      rw [hsender, beq_eq_false_iff_ne.mpr (he.2.1 node _)] at hback
      exact hnobody back hnone hback hpost.sent
    | nowhere back hback hpost =>
      rw [hsender] at hback
      exact hnobody back hnone hback hpost.sent

theorem group_step (title : Title) (m : Letter) (hc : f.command = .ok .group)
    (ht : f.title = .ok title) (hm : letter f.content = some m) :
    Step (deskOf N y) (.toOne c title m (!y.server.config.ackEnabled))
      (outcomeOf y (.frame c env f))
      (deskOf N { y with server := receiveFrame env c f y.server }) := by
  rw [desk_quiet (receive_quiet .group y.server hc nofun nofun rfl)]
  have hk := he.1.source hc nofun
  have hsender := h.hosts.seated.sender c
  obtain ⟨t, hok⟩ := handle_ok env c f y.server (fits_of_title f title ht (by rw [hc]; simp))
  have hhandler : groupHandler env c f y.server = .ok t := by
    rw [handle, bind_of_ok hc] at hok
    exact hok
  have hsent : (receiveFrame env c f y.server).sent = t.sent := by
    rw [receiveFrame, hok]
  rcases group_trace env c f y.server t title _ ht hk hhandler with
    ⟨hnone, back, hback, hpost⟩ | ⟨d, hd, g, hg, back, hback, hpost⟩
  · rw [hsender] at hback
    rw [publish_outcome h hopen .group .groupReturn m hc rfl hm f rfl [] back false hback
      (hsent.trans hpost.sent)]
    exact .nobody c title m _ ((audience_empty_iff h hopen title).mpr hnone)
  · rw [hsender] at hback
    rw [publish_outcome h hopen .group .groupReturn m hc rfl hm g hg [d] back _ hback
      (hsent.trans hpost.sent)]
    refine .one c title m _ d _ _ ((mem_find_all h hopen title d).mp hd) ?_
    simp

theorem desk_cast (title : Title) (m : Letter) (hc : f.command = .ok .cast)
    (ht : f.title = .ok title) :
    deskOf N { y with server := receiveFrame env c f y.server } =
      (deskOf N y).leave (failed (handed env m y.server.sent.length
        (y.server.registry.findAllByTitle y.server.clients title (some (N.idOf c))))) := by
  have hk := he.1.source hc nofun
  obtain ⟨t, hok⟩ := handle_ok env c f y.server (fits_of_title f title ht (by rw [hc]; simp))
  have hhandler : castHandler env c f y.server = .ok t := by
    rw [handle, bind_of_ok hc] at hok
    exact hok
  obtain ⟨u, hsu, hut⟩ := cast_removes env c f y.server t title _ ht hk hhandler
  have htouch : Quiet t (receiveFrame env c f y.server) := by
    rw [receiveFrame, hok]
    exact quiet_touch t c env.now
  refine desk_remove ((failedTargets env y.server.sent.length
    (castTargets y.server title (N.idOf c))).map (fun d => (y.server.clients d).id)) _
    (fun k => ?_) (fun d hd => ?_) fun d => ?_
  · rw [htouch.live, hut.live, live_remove_all, hsu.live]
  · rw [handed_failed, List.mem_map]
    obtain ⟨-, -, hid⟩ := h.hosts.seated.live _ d hd
    constructor
    · rintro ⟨e, hin, heid⟩
      have htarget := (failed_sublist env _ _).mem hin
      have hlive : y.server.live (N.idOf e) = some e :=
        ((mem_find_all h hopen title e).mp htarget).1
      obtain ⟨-, -, hid'⟩ := h.hosts.seated.live _ e hlive
      rw [← hid', heid, hd] at hlive
      cases hlive
      exact hin
    · exact fun hin => ⟨d,hin,hid⟩
  · rw [htouch.titles, hut.titles, clients_remove_all, hsu.titles]

theorem cast_step (title : Title) (m : Letter) (hc : f.command = .ok .cast)
    (ht : f.title = .ok title) (hm : letter f.content = some m) :
    Step (deskOf N y) (.toAll c title m) (outcomeOf y (.frame c env f))
      (deskOf N { y with server := receiveFrame env c f y.server }) := by
  rw [desk_cast h hopen he title m hc ht]
  have hk := he.1.source hc nofun
  have hsender := h.hosts.seated.sender c
  obtain ⟨t, hok⟩ := handle_ok env c f y.server (fits_of_title f title ht (by rw [hc]; simp))
  have hhandler : castHandler env c f y.server = .ok t := by
    rw [handle, bind_of_ok hc] at hok
    exact hok
  have hsent : (receiveFrame env c f y.server).sent = t.sent := by
    rw [receiveFrame, hok]
  obtain ⟨buf, back, hbuf, hpost, hback⟩ :=
    cast_sends env c f y.server t title _ hc ht hk hhandler
  rw [hsender] at hback
  rw [publish_outcome h hopen .cast .castReturn m hc rfl hm ⟨buf⟩ (hbuf.trans hc.symm) _ back _
    hback (hsent.trans hpost), any_copies_eq]
  refine .all c title m _ _ ⟨?_,fun d => ?_,handed_message env m _ _⟩ ?_
  · rw [handed_receivers]
    exact cast_targets_nodup _ _ _ (index_agrees_of_agrees _ h.agrees)
  · rw [handed_receivers]
    exact mem_find_all h hopen title d
  · rw [handed_refused, Bool.not_eq_true', decide_eq_false_iff_not]
    simp [castTargets]

theorem login_step (title : Title) (hc : f.command = .ok .login) (ht : f.title = .ok title) :
    Step (deskOf N y) (.enter c {t | t ∈ splitTitles title}) (outcomeOf y (.frame c env f))
      (deskOf N { y with server := receiveFrame env c f y.server }) := by
  have hq := receive_login env c f y.server _ title hc (he.1.source hc nofun) ht
  have hdesk : deskOf N { y with server := receiveFrame env c f y.server } =
      deskOf N { y with server := login env c (N.idOf c) title y.server } :=
    desk_quiet (y := { y with server := login env c (N.idOf c) title y.server }) hq
  rw [hdesk, desk_login h hopen env title, silent_of_command h hopen .login hc rfl]
  exact .enter c _

theorem receive_step :
    Step (deskOf N y) (frameAct y.server.config.ackEnabled c f) (outcomeOf y (.frame c env f))
      (deskOf N { y with server := receiveFrame env c f y.server }) := by
  cases hc : f.command with
  | error e =>
    have hsame : receiveFrame env c f y.server = y.server := by
      rw [receiveFrame, handle, hc]
      rfl
    rw [frameAct, hc]
    exact same_step hopen hsame
  | ok command =>
    cases ht : f.title with
    | error e =>
      have hact : frameAct y.server.config.ackEnabled c f = .idle := by
        rw [frameAct, hc, ht]
        split <;> first | rfl | simp_all
      rw [hact]
      by_cases hneeds : command = .login ∨ (Mutation.fromCommand command).isSome ∨
          ClientBase.expectsAck command = true
      · exact same_step hopen (untitled_same y.server command e hc ht hneeds)
      · simp only [not_or, Bool.not_eq_true, Option.isSome_eq_false_iff,
          Option.isNone_iff_eq_none] at hneeds
        exact quiet_step h hopen command hc hneeds.1 hneeds.2.1 hneeds.2.2
    | ok title =>
      cases command with
      | login =>
        rw [frameAct, hc, ht]
        exact login_step h hopen he title hc ht
      | regTitle =>
        rw [frameAct, hc, ht, mutation_desk he.1 .regTitle .register title hc rfl (by decide) ht,
          desk_register h hopen title ((he.2.2 title ht).1 hc),
          silent_of_command h hopen .regTitle hc rfl]
        exact .subscribe c title
      | delTitle =>
        rw [frameAct, hc, ht, mutation_desk he.1 .delTitle .unregister title hc rfl (by decide) ht,
          desk_unregister h hopen title, silent_of_command h hopen .delTitle hc rfl]
        exact .unsubscribe c title
      | title =>
        obtain ⟨m, hm⟩ := letter_of_publish f .title hc rfl
        rw [frameAct, hc, ht, hm]
        exact title_step h hopen he title m hc ht hm
      | group =>
        obtain ⟨m, hm⟩ := letter_of_publish f .group hc rfl
        rw [frameAct, hc, ht, hm]
        exact group_step h hopen he title m hc ht hm
      | cast =>
        obtain ⟨m, hm⟩ := letter_of_publish f .cast hc rfl
        rw [frameAct, hc, ht, hm]
        exact cast_step h hopen he title m hc ht hm
      | _ =>
        rw [frameAct, hc, ht]
        exact quiet_step h hopen _ hc (by decide) rfl rfl

end Frames

section Runs
variable {N : Naming} {y : System}

theorem inner_silent (e : Event) (he : FrameNetwork.Inner y e) : outcomeOf y e = .silent := by
  obtain ⟨es, hs, hes⟩ := act_unlettered e he
  have hcopies : es.filterMap copyOf = [] := by
    refine List.filterMap_eq_nil_iff.mpr fun x hx => ?_
    rw [copyOf, hes x hx]
    rfl
  cases e with
  | frame c env f => exact absurd rfl (he c env f)
  | _ =>
    simp only [outcomeOf, hs, List.drop_left, hcopies]
    rfl

theorem desk_accept (c : ClientRef) (uuid : ClientId) (transport : String)
    (now : UInt64) :
    deskOf N (ServerRun.step y (.accept c uuid transport now)) = deskOf N y := by
  simp only [ServerRun.step]
  split_ifs with hc
  · rfl
  · refine Desk.ext _ _ (fun d => Iff.rfl) fun d u => ?_
    change d ∈ c::y.opened ∧
      u ∈ ((acceptClient c uuid transport now y.server).clients d).subscribedTitles ↔ _
    simp only [acceptClient]
    by_cases hd : d = c
    · subst hd
      rw [Function.update_self]
      constructor
      · rintro ⟨-, hu⟩
        cases hu
      · exact fun hn => absurd hn.1 hc
    · rw [Function.update_of_ne hd, List.mem_cons, or_iff_right hd]
      exact Iff.rfl

theorem desk_teardown (h : Kept N y) (c : ClientRef) (hopen : c ∈ y.opened) :
    deskOf N { y with server := teardownClient c y.server, closed := c::y.closed } =
      (deskOf N y).leave {c} := by
  have hparty := h.hosts.parties c hopen
  refine desk_remove [(y.server.clients c).id] _ (fun k => ?_) (fun d hd => ?_) fun d => ?_
  · rw [teardownClient, Server.live_remove_client]
    simp only [List.mem_singleton]
  · obtain ⟨hp, -, hid⟩ := h.hosts.seated.live _ d hd
    rw [List.mem_singleton, Set.mem_singleton_iff]
    constructor
    · intro heq
      rcases h.own c hopen with hown | hown
      · exact N.distinct hp hparty (heq.trans hown)
      · exact absurd heq.symm (hown d hp)
    · rintro rfl
      exact hid.symm
  · rw [teardownClient, Server.clients_remove_client]

theorem desk_step (e : Event) (h : Kept N y) (he : Courteous N y e) :
    Step (deskOf N y) (actOf N y e) (outcomeOf y e) (deskOf N (ServerRun.step y e)) := by
  cases e with
  | frame c env f =>
    by_cases hopen : c ∈ y.opened
    · rw [actOf, if_pos hopen, ServerRun.step, if_pos hopen]
      exact receive_step h hopen he
    · have hsame : ServerRun.step y (.frame c env f) = y := if_neg hopen
      rw [actOf, if_neg hopen, same_outcome hsame, hsame]
      exact .idle
  | accept c uuid transport now =>
    rw [inner_silent (.accept c uuid transport now) (by simp [FrameNetwork.Inner]), desk_accept]
    exact .idle
  | teardown c =>
    rw [inner_silent (.teardown c) (by simp [FrameNetwork.Inner])]
    simp only [actOf, ServerRun.step]
    split_ifs with hc
    · rw [desk_teardown h c hc.1]
      exact .leave _
    · exact .idle
  | inactiveSweep now =>
    have hgone := Server.inactive_sweep_evicted now y.server
    have hdesk : deskOf N (ServerRun.step y (.inactiveSweep now)) =
        (deskOf N y).leave {d | N.idOf d ∈ y.server.inactive now} :=
      desk_remove _ _ hgone.live (fun d _ => Iff.rfl) fun d => by rw [hgone.clients]
    rw [inner_silent (.inactiveSweep now) (by simp [FrameNetwork.Inner]), hdesk]
    exact .leave _
  | ackSweep env =>
    have hdesk : deskOf N (ServerRun.step y (.ackSweep env)) = deskOf N y :=
      desk_quiet (sweep_acks_quiet env y.server)
    rw [inner_silent (.ackSweep env) (by simp [FrameNetwork.Inner]), hdesk]
    exact .idle
  | ghostSweep now =>
    have hsame : y.server.cleanupExpiredGhosts now = y.server := by
      simp [Server.cleanupExpiredGhosts, h.unstored]
    rw [inner_silent (.ghostSweep now) (by simp [FrameNetwork.Inner]), ServerRun.step, hsame]
    exact .idle
  | restore =>
    have hsame : y.server.restore = y.server := by
      simp [Server.restore, h.unstored]
    rw [inner_silent .restore (by simp [FrameNetwork.Inner]), ServerRun.step, hsame]
    exact .idle

end Runs

/-- Every courteous run of a server without a store and a cluster is, seen from
outside, a run of the topic desk: the acts are those its frames, teardowns and
sweeps ask for, and the copies and refusals are the calls of senders it makes. -/
theorem server_refines_desk (N : Naming) (config : RexSystemConfig) (cluster : ClusterPort)
    (clients : Clients) (hsender : ∀ d, (clients d).sender = d) (es : List Event)
    (hes : Along ServerRun.step (Courteous N) (start config cluster none clients) es) :
    Run .empty
      (transcript ServerRun.step (actOf N) outcomeOf (start config cluster none clients) es)
      (deskOf N (es.foldl ServerRun.step (start config cluster none clients))) := by
  have hkept : Kept N (start config cluster none clients) := by
    refine ⟨hosts_start config cluster none clients hsender,?_,?_,
      fun c hc => absurd hc List.not_mem_nil⟩
    · rw [start, unstored_restore]
      exact new_agrees clients
    · rw [start, unstored_restore]
      simp [Server.build]
  have hempty : deskOf N (start config cluster none clients) = .empty := by
    refine Desk.ext _ _ (fun d => ?_) fun d u => ?_
    · change (start config cluster none clients).server.live _ = some d ↔ False
      rw [live_start]
      simp
    · change d ∈ [] ∧ _ ↔ False
      simp
  rw [← hempty]
  exact run_of_steps ServerRun.step (actOf N) outcomeOf (deskOf N) (Kept N) (Courteous N)
    (fun y e hy he => kept_step e hy he) (fun y e hy he => desk_step e hy he) _ es hkept hes

def framed (command : RexCommand) (k : ClientId) (title : Title) : RexData :=
  ⟨writeWord 128 20 k (RexData.new command title []).content⟩

def deafEnv : Env := { quietEnv with sendOk := fun _ => false }

def trackingConfig : RexSystemConfig := { plainConfig with ackEnabled := true }

/-- Both of two clients log in, the second under no title at first; the casts
of the first reach the second once it has asked for the title, and its group
and title messages do not get through. -/
def castRun : List Event :=
  [.accept 0 5 "tcp" 0,.accept 1 6 "tcp" 0,.frame 0 quietEnv (loginFrame 100 [65]),
    .frame 1 quietEnv (loginFrame 101 []),.frame 0 quietEnv (castFrame 100 [65]),
    .frame 1 quietEnv (framed .regTitle 101 [65]),.frame 0 quietEnv (castFrame 100 [65]),
    .frame 0 deafEnv (framed .group 100 [65]),.frame 0 deafEnv (titleFrame 100 [65]),.teardown 1,
    .frame 0 quietEnv (castFrame 100 [65])]

theorem courteous_frame (y : System) (c : ClientRef) (env : Env) (f : RexData) (title : Title)
    (henv : env.forward = quietEnv.forward) (hs : f.source = .ok (pair.idOf c))
    (ht : f.title = .ok title)
    (hreg : f.command = .ok .regTitle → SingleTitle title)
    (hl : f.command = .ok .login → y.server.live (pair.idOf c) = none) :
    Courteous pair y (.frame c env f) := by
  refine ⟨.inr hs,by simp [henv, quietEnv],fun title' ht' => ?_⟩
  rw [ht] at ht'
  cases ht'
  refine ⟨hreg,fun hc hlive => ?_⟩
  rw [hl hc] at hlive
  cases hlive

theorem cast_run_refines :
    (transcript ServerRun.step (actOf pair) outcomeOf
        (start trackingConfig .noop none unusedClients) castRun).map
          (fun r => (r.2.copies.map (fun e => (e.receiver,e.ok)),r.2.refused)) =
      [([],false),([],false),([],false),([],false),([],true),([],false),([(1,true)],false),
        ([(1,false)],false),([(1,false)],true),([],false),([],true)] ∧
    Run .empty
      (transcript ServerRun.step (actOf pair) outcomeOf
        (start trackingConfig .noop none unusedClients) castRun)
      (deskOf pair
        (castRun.foldl ServerRun.step (start trackingConfig .noop none unusedClients))) := by
  refine ⟨by decide +kernel,server_refines_desk pair trackingConfig .noop unusedClients
    (fun _ => rfl) castRun ⟨⟨Nat.zero_lt_two,?_⟩,⟨Nat.one_lt_two,?_⟩,?_,?_,?_,?_,?_,?_,?_,trivial,
      ?_,trivial⟩⟩
  · intro d hd
    match d, hd with
    | 0, _ => decide
    | 1, _ => decide
  · intro d hd
    match d, hd with
    | 0, _ => decide
    | 1, _ => decide
  · exact courteous_frame _ 0 _ _ [65] rfl rfl (by decide +kernel) nofun (by decide +kernel)
  · exact courteous_frame _ 1 _ _ [] rfl rfl (by decide +kernel) nofun (by decide +kernel)
  · exact courteous_frame _ 0 _ _ [65] rfl rfl (by decide +kernel) nofun nofun
  · exact courteous_frame _ 1 _ _ [65] rfl rfl (by decide +kernel) (by decide +kernel) nofun
  · exact courteous_frame _ 0 _ _ [65] rfl rfl (by decide +kernel) nofun nofun
  · exact courteous_frame _ 0 _ _ [65] rfl rfl (by decide +kernel) nofun nofun
  · exact courteous_frame _ 0 _ _ [65] rfl rfl (by decide +kernel) nofun nofun
  · exact courteous_frame _ 0 _ _ [65] rfl rfl (by decide +kernel) nofun nofun

end RexMq.BrokerRefinement
