import Mathlib.Tactic.Common
import RexMq.AckOutcomes
import RexMq.LossyLine

/-!
# The order of messages from one client to another

A message is known by its command, its publisher and its body; on its way the
server gives it at most another id. Without an offline store, and while every
process keeps to one id and one connection, every pair of a publisher and a
listener is joined by a line that may lose messages but never repeats,
reorders or invents one, whatever sends fail, connections end and sweeps come
between.
-/

set_option autoImplicit false

namespace RexMq.PublishOrder
open RexMq.ByteWords RexMq.FiniteRun RexMq.FrameData RexMq.FrameFields RexMq.ClientRegistry
open RexMq.PersistentStore RexMq.ServerState RexMq.Handlers RexMq.HandlerEffects RexMq.FrameAccess
open RexMq.PublishTrace RexMq.ServerRun RexMq.SentFrames RexMq.ClientProcess RexMq.StarNetwork
open RexMq.FrameNetwork RexMq.SeatedClients RexMq.MannedNetwork RexMq.AckOutcomes RexMq.LossyLine

structure Letter where
  command : RexCommand
  source : ClientId
  body : Bytes
  deriving DecidableEq, Repr

def letterOf (f : RexData) (h : RexHead) : Option Letter :=
  if ClientBase.expectsAck (.fromU32 h.command) then
    some ⟨.fromU32 h.command,h.source,body f⟩
  else none

def letter (f : Bytes) : Option Letter :=
  match (RexData.mk f).head with
  | .ok h => letterOf ⟨f⟩ h
  | .error _ => none

def letters (q : List Bytes) : List Letter := q.filterMap letter

theorem letter_of_head (f : RexData) (h : RexHead) (hh : f.head = .ok h) :
    letter f.content = letterOf f h := by
  rw [letter, show RexData.mk f.content = f from rfl, hh]

theorem letter_of_command (f : RexData) (command : RexCommand) (hc : f.command = .ok command)
    (hn : ClientBase.expectsAck command = false) : letter f.content = none := by
  obtain ⟨h, hh, hc⟩ := bind_ok hc
  cases hc
  rw [letter_of_head f h hh, letterOf, hn]
  rfl

theorem letter_of_other (f : Bytes) (hk : kind f = .other) : letter f = none := by
  unfold kind at hk
  unfold letter
  cases hh : (RexData.mk f).head with
  | error e => rfl
  | ok h =>
    simp only [hh, letterOf] at hk ⊢
    generalize RexCommand.fromU32 h.command = command at hk ⊢
    cases command <;> first | rfl | cases hk

theorem letter_source (f : RexData) (k : ClientId) (hs : f.source = .ok k) (l : Letter)
    (hl : letter f.content = some l) : l.source = k := by
  obtain ⟨h, hh, hs⟩ := bind_ok hs
  cases hs
  rw [letter_of_head f h hh, letterOf] at hl
  split_ifs at hl
  cases hl
  rfl

theorem letters_append (q r : List Bytes) : letters (q++r) = letters q++letters r :=
  List.filterMap_append

theorem letters_cons (f : Bytes) (q : List Bytes) :
    letters (f::q) = (letter f).toList++letters q := by
  rw [letters, List.filterMap_cons]
  cases letter f <;> rfl

theorem letters_none (q : List Bytes) (h : ∀ f ∈ q, letter f = none) : letters q = [] :=
  List.filterMap_eq_nil_iff.mpr h

/-- The calls from one state to another, none of them with a message. -/
def Unlettered (s t : Server) : Prop :=
  ∃ es, t.sent = s.sent++es ∧ ∀ e ∈ es, letter e.buf = none

theorem unlettered_same (s t : Server) (h : t.sent = s.sent) : Unlettered s t :=
  ⟨[],by simpa using h,by simp⟩

theorem unlettered_trans (s t u : Server) (h : Unlettered s t) (g : Unlettered t u) :
    Unlettered s u := by
  obtain ⟨es, hs, hes⟩ := h
  obtain ⟨fs, ht, hfs⟩ := g
  refine ⟨es++fs,by rw [ht, hs, List.append_assoc],fun e he => ?_⟩
  rcases List.mem_append.mp he with he | he
  · exact hes e he
  · exact hfs e he

theorem unlettered_send (env : Env) (s : Server) (d : ClientRef) (g : RexData)
    (command : RexCommand) (hc : g.command = .ok command)
    (hn : ClientBase.expectsAck command = false) :
    Unlettered s (s.sendBuf env d g.content).2 := by
  refine ⟨_,(posts_send_buf env s d g.content).sent,fun e he => ?_⟩
  obtain rfl := List.mem_singleton.mp he
  exact letter_of_command g command hc hn

theorem unlettered_no_target (env : Env) (c : ClientRef) (s t : Server) (g : RexData)
    (command : RexCommand) (hn : ClientBase.expectsAck command = false)
    (h : sendNoTarget env c g command s = .ok t) : Unlettered s t := by
  obtain ⟨e, he, hp⟩ := posts_no_target env s t c g command h
  refine ⟨[e],hp.sent,fun e' he' => ?_⟩
  obtain rfl := List.mem_singleton.mp he'
  exact letter_of_command ⟨e'.buf⟩ command he.command hn

section Relay
variable (env : Env) (c : ClientRef) (f : RexData) (s t : Server)

def Listed (d : ClientRef) : Prop := ∃ title, f.title = .ok title ∧ d ∈ s.registry.subscribers title

/-- Calls with a message go to different clients, all of them listed under its
title, and carry it unchanged; the other calls carry none. -/
def Relayed (es : List Sent) : Prop :=
  ∃ buf n ts back, letter buf = letter f.content ∧ ts.Nodup ∧ (∀ d ∈ ts, Listed f s d) ∧
    (∀ e ∈ back, letter e.buf = none) ∧ es = copies env s buf n ts++back

def Relays : Prop := ∃ es, t.sent = s.sent++es ∧ Relayed env f s es

theorem relays_none (h : Unlettered s t) : Relays env f s t := by
  obtain ⟨es, hs, hes⟩ := h
  exact ⟨es,hs,f.content,0,[],es,rfl,List.nodup_nil,nofun,hes,rfl⟩

theorem listed_of_find (title : Title) (x : Option ClientId) (ht : f.title = .ok title)
    (d : ClientRef) (hd : d ∈ s.registry.findAllByTitle s.clients title x) : Listed f s d := by
  rw [ClientRegistryImpl.find_all_by_title_eq] at hd
  exact ⟨title,ht,List.mem_of_mem_filter hd⟩

theorem listed_of_route (title : Title) (x : Option ClientId) (ht : f.title = .ok title)
    (d : ClientRef) (hd : s.route env title x = .here d) : Listed f s d := by
  unfold Server.route at hd
  cases hone : s.registry.findOneByTitle s.clients env.draw title x with
  | none =>
    rw [hone] at hd
    dsimp only at hd
    split at hd <;> cases hd
  | some e =>
    rw [hone] at hd
    cases hd
    rw [ClientRegistryImpl.find_one_by_title_eq] at hone
    exact listed_of_find f s title x ht d (List.mem_of_getElem? hone)

theorem setup_letter (g : RexData) (k : ClientId) (title : Title) (isGroup : Bool)
    (h : s.setupMessageAck env f k title isGroup = .ok (g,t)) :
    letter g.content = letter f.content := by
  unfold Server.setupMessageAck at h
  split_ifs at h
  · cases h
    rfl
  · obtain ⟨m, -, h⟩ := bind_ok h
    obtain ⟨g', hg, h⟩ := bind_ok h
    cases h
    obtain ⟨hlen, -⟩ := head_mut_eq f g 64 12 _ hg
    obtain ⟨h, hh⟩ := head_ok f hlen
    rw [letter_of_head f h hh, letter_of_head g _ (head_set_message_id f g h hh _ hg), letterOf,
      letterOf, (body_head_mut 64 12 _ (by omega) hg).1]

theorem relays_back (u : Server) (g : RexData) (ts : List ClientRef) (n : ℕ)
    (hg : letter g.content = letter f.content) (hts : ts.Nodup) (hl : ∀ d ∈ ts, Listed f s d)
    (hu : u.sent = s.sent++copies env s g.content n ts)
    (ht : t = u ∨ ∃ g' command, ClientBase.expectsAck command = false ∧
      sendNoTarget env c g' command u = .ok t) : Relays env f s t := by
  rcases ht with rfl | ⟨g', command, hc, ht⟩
  · exact ⟨_,hu,g.content,n,ts,[],hg,hts,hl,by simp,(List.append_nil _).symm⟩
  · obtain ⟨back, hb, hnone⟩ := unlettered_no_target env c u t g' command hc ht
    exact ⟨_,by rw [hb, hu, List.append_assoc],g.content,n,ts,back,hg,hts,hl,hnone,rfl⟩

theorem title_relays (h : titleHandler env c f s = .ok t) : Relays env f s t := by
  obtain ⟨title, ht, h⟩ := bind_ok h
  obtain ⟨_, -, h⟩ := bind_ok h
  obtain ⟨k, -, h⟩ := bind_ok h
  cases hr : s.route env title (some k) with
  | here target =>
    simp only [hr] at h
    obtain ⟨⟨ok, g, u⟩, hd, h⟩ := bind_ok h
    obtain ⟨-, -, hpost⟩ := deliver_trace env c f s u title target ok g ht hd
    have hg : letter g.content = letter f.content := by
      obtain ⟨title', -, hd⟩ := bind_ok hd
      obtain ⟨⟨g', v⟩, hv, hd⟩ := bind_ok hd
      cases hd
      exact setup_letter env f s v _ _ _ _ hv
    refine relays_back env c f s t u g [target] s.sent.length hg (List.nodup_singleton _)
      (fun d hd => ?_) hpost.sent ?_
    · obtain rfl := List.mem_singleton.mp hd
      exact listed_of_route env f s title _ ht d hr
    cases ok with
    | true =>
      cases h
      exact .inl rfl
    | false => exact .inr ⟨g,.titleReturn,rfl,h⟩
  | remote node =>
    simp only [hr] at h
    have hback := relays_back env c f s t
      { s with forwards := s.forwards++[(node,⟨k,0,title,f.content,.unicast⟩)] } f [] 0 rfl
      List.nodup_nil nofun (List.append_nil _).symm
    cases ho : env.forward node ⟨k,0,title,f.content,.unicast⟩ with
    | delivered =>
      simp only [ho] at h
      cases h
      exact hback (.inl rfl)
    | noPeerForTitle =>
      simp only [ho] at h
      exact hback (.inr ⟨f,.titleReturn,rfl,h⟩)
    | peerUnreachable reason =>
      simp only [ho] at h
      exact hback (.inr ⟨f,.titleReturn,rfl,h⟩)
  | nowhere =>
    simp only [hr] at h
    exact relays_back env c f s t s f [] 0 rfl List.nodup_nil nofun (List.append_nil _).symm
      (.inr ⟨f,.titleReturn,rfl,h⟩)

theorem group_relays (h : groupHandler env c f s = .ok t) : Relays env f s t := by
  obtain ⟨title, ht, h⟩ := bind_ok h
  obtain ⟨k, -, h⟩ := bind_ok h
  dsimp only at h
  split_ifs at h
  · exact relays_back env c f s t s f [] 0 rfl List.nodup_nil nofun (List.append_nil _).symm
      (.inr ⟨f,.groupReturn,rfl,h⟩)
  · obtain ⟨⟨g, u⟩, hu, h⟩ := bind_ok h
    obtain ⟨-, rfl⟩ := setup_ack_eq env s u f g k title true hu
    dsimp only at h
    split at h
    · cases h
    · rename_i target htarget
      have hpost := posts_send_buf env
        { { s with pendingAcks := awaiting env s f k title true } with
          groupIndex := s.groupIndex+1 } target g.content
      refine relays_back env c f s t _ g [target] s.sent.length (setup_letter env f s _ g _ _ _ hu)
        (List.nodup_singleton _) (fun d hd => ?_) hpost.sent ?_
      · obtain rfl := List.mem_singleton.mp hd
        exact listed_of_find f s title _ ht d (List.mem_of_getElem? htarget)
      split_ifs at h
      · exact .inr ⟨g,.groupReturn,rfl,h⟩
      · cases h
        exact .inl rfl

theorem cast_relays (hn : ∀ title x, (s.registry.findAllByTitle s.clients title x).Nodup)
    (h : castHandler env c f s = .ok t) : Relays env f s t := by
  obtain ⟨title, ht, h⟩ := bind_ok h
  obtain ⟨k, -, h⟩ := bind_ok h
  dsimp only at h
  split_ifs at h
  · exact relays_back env c f s t s f [] 0 rfl List.nodup_nil nofun (List.append_nil _).symm
      (.inr ⟨f,.castReturn,rfl,h⟩)
  · obtain ⟨⟨g, u⟩, hu, h⟩ := bind_ok h
    obtain ⟨-, rfl⟩ := setup_ack_eq env s u f g k title false hu
    have hpost := (send_all_trace env { s with pendingAcks := awaiting env s f k title false }
      g.content (s.registry.findAllByTitle s.clients title (some k))).1
    dsimp only at h
    rcases hall : sendAll env g.content (s.registry.findAllByTitle s.clients title (some k))
      { s with pendingAcks := awaiting env s f k title false } with ⟨failed, v⟩
    rw [hall] at h hpost
    have hgone := posts_append _ v (removeAll failed v) _ [] hpost (posts_remove_all v failed)
    rw [List.append_nil] at hgone
    have hsent := hgone.sent
    rw [copies_congr env s { s with pendingAcks := awaiting env s f k title false } _ _ _
      fun _ => rfl] at hsent
    refine relays_back env c f s t (removeAll failed v) g _ s.sent.length
      (setup_letter env f s _ g _ _ _ hu) (hn title (some k)) (listed_of_find f s title _ ht)
      hsent ?_
    split_ifs at h
    · exact .inr ⟨g,.castReturn,rfl,h⟩
    · cases h
      exact .inl rfl

theorem ack_command (m : MessageId) (k : ClientId) (command : RexCommand) :
    ((⟨m⟩ : AckData).toRexData k command).command = .ok command := by
  rw [command_of_head _ _ (ack_head m k command), from_as_u32]

theorem ack_unlettered (h : ackHandler env f s = .ok t) : Unlettered s t := by
  unfold ackHandler at h
  split_ifs at h
  · cases h
    exact unlettered_same s s rfl
  · obtain ⟨ack, -, h⟩ := bind_ok h
    rw [Server.takePendingAck] at h
    cases hp : s.pendingAcks.lookup ack.messageId with
    | none =>
      rw [hp] at h
      cases h
      exact unlettered_same s _ rfl
    | some info =>
      rw [hp] at h
      dsimp only at h
      split at h
      · cases h
        exact unlettered_same s _ rfl
      · rename_i sender _
        cases h
        exact unlettered_send env { s with pendingAcks := s.pendingAcks.erase ack.messageId }
          sender _ .ackReturn (ack_command _ _ _) rfl

theorem receive_relays (hdb : s.db = none)
    (hn : ∀ title x, (s.registry.findAllByTitle s.clients title x).Nodup) :
    Relays env f s (receiveFrame env c f s) := by
  unfold receiveFrame
  cases h : handle env c f s with
  | error e => exact relays_none env f s s (unlettered_same s s rfl)
  | ok t =>
    suffices ht : Relays env f s t from ht
    obtain ⟨command, hc, h'⟩ := bind_ok h
    have haside : Aside command → Relays env f s t := by
      intro ha
      obtain ⟨es, hs, hes⟩ := (mute_handle env c f s t command hc ha
        (fun _ k => by simp [Server.getOfflineMessages, hdb]) h).sent
      exact relays_none env f s t ⟨es,hs,fun e he => letter_of_other _ (hes e he)⟩
    cases command with
    | title => exact title_relays env c f s t h'
    | group => exact group_relays env c f s t h'
    | cast => exact cast_relays env c f s t hn h'
    | ack => exact relays_none env f s t (ack_unlettered env f s t h')
    | ackReturn =>
      cases h'
      exact relays_none env f s s (unlettered_same s s rfl)
    | login | loginReturn | check | checkReturn | regTitle | regTitleReturn | delTitle
    | delTitleReturn | titleReturn | groupReturn | castReturn => exact haside fun _ _ => rfl

theorem copies_one (hs : ∀ d, (s.clients d).sender = d) (buf : Bytes) (n : ℕ)
    (ts : List ClientRef) (hts : ts.Nodup) (d : ClientRef) :
    (letters (forOne d ((copies env s buf n ts).filter Sent.ok))).Sublist (letter buf).toList := by
  have hbuf : ∀ g ∈ forOne d ((copies env s buf n ts).filter Sent.ok), g = buf := by
    intro g hg
    obtain ⟨e, he, rfl⟩ := List.mem_map.mp hg
    exact buf_of_copies env s buf n ts e (List.mem_of_mem_filter (List.mem_of_mem_filter he))
  have hlen : (forOne d ((copies env s buf n ts).filter Sent.ok)).length ≤ ts.count d := by
    clear hbuf
    induction ts generalizing n with
    | nil => exact Nat.zero_le _
    | cons e ts ih =>
      have hrest := ih (n+1) (List.nodup_cons.mp hts).2
      rw [copies, hs e, List.filter_cons, List.count_cons]
      by_cases hok : env.sendOk n = true
      · by_cases he : e = d
        · subst he
          simp only [hok, if_true, forOne, List.filter_cons, decide_true, List.map_cons,
            List.length_cons, beq_self_eq_true]
          exact Nat.succ_le_succ hrest
        · simp only [hok, if_true, forOne, List.filter_cons, he, decide_false,
            Bool.false_eq_true, if_false, beq_iff_eq]
          exact hrest
      · simp only [hok, Bool.false_eq_true, if_false]
        exact hrest.trans (Nat.le_add_right _ _)
  have hone := hlen.trans (List.nodup_iff_count_le_one.mp hts d)
  rcases hq : forOne d ((copies env s buf n ts).filter Sent.ok) with _ | ⟨g, q⟩
  · exact List.nil_sublist _
  · rw [hq] at hone hbuf
    obtain rfl := List.length_eq_zero_iff.mp (Nat.le_zero.mp (Nat.le_of_succ_le_succ hone))
    rw [letters_cons, hbuf g List.mem_cons_self]
    exact (List.append_nil _).symm ▸ List.Sublist.refl _

theorem relayed_letters (hs : ∀ d, (s.clients d).sender = d) (es : List Sent)
    (h : Relayed env f s es) (d : ClientRef) :
    (letters (forOne d (es.filter Sent.ok))).Sublist (letter f.content).toList := by
  obtain ⟨buf, n, ts, back, hbuf, hts, -, hback, rfl⟩ := h
  have hnone : letters (forOne d (back.filter Sent.ok)) = [] := by
    refine letters_none _ fun g hg => ?_
    obtain ⟨e, he, rfl⟩ := List.mem_map.mp hg
    exact hback e (List.mem_of_mem_filter (List.mem_of_mem_filter he))
  rw [List.filter_append, for_one_append, letters_append, hnone, List.append_nil, ← hbuf]
  exact copies_one env s hs buf n ts hts d

end Relay

section Acts
variable {y : System}

theorem expire_sent (ks : List ClientId) (s : Server) :
    (ks.foldl (fun s k => s.expireGhost k) s).sent = s.sent := by
  induction ks generalizing s with
  | nil => rfl
  | cons k ks ih => exact ih (s.expireGhost k)

theorem unlettered_fold {α : Type} (step : Server → α → Except Fault Server)
    (hstep : ∀ s a t, step s a = .ok t → Unlettered s t) (as : List α) (s t : Server)
    (h : as.foldlM step s = .ok t) : Unlettered s t := by
  induction as generalizing s with
  | nil =>
    cases h
    exact unlettered_same _ _ rfl
  | cons a as ih =>
    rw [List.foldlM_cons] at h
    obtain ⟨u, hu, h⟩ := bind_ok h
    exact unlettered_trans s u t (hstep s a u hu) (ih u h)

theorem sweep_unlettered (env : Env) (s : Server) : Unlettered s (sweepAcks env s) := by
  unfold sweepAcks
  cases ht : s.cleanupExpiredAcks env with
  | error e => exact unlettered_same s s rfl
  | ok t =>
    unfold Server.cleanupExpiredAcks at ht
    split_ifs at ht
    · cases ht
      exact unlettered_same _ _ rfl
    · refine unlettered_trans s _ t ?_ (unlettered_fold _ (fun s e t h => ?_) _ _ t ht)
      · exact unlettered_same _ _ rfl
      cases hl : s.live e.2 with
      | none =>
        simp only [hl] at h
        cases h
        exact unlettered_same _ _ rfl
      | some d =>
        simp only [hl] at h
        obtain ⟨g, hg, h⟩ := bind_ok h
        cases h
        refine unlettered_send env s d g .ackReturn ?_ rfl
        rw [command_head_mut _ g 32 8 _ (by omega) (by decide) hg]
        exact ack_command e.1 e.2 .ackReturn

theorem act_unlettered (e : Event) (he : Inner y e) :
    Unlettered y.server (ServerRun.step y e).server := by
  cases e with
  | frame c env f => exact absurd rfl (he c env f)
  | accept c uuid transport now =>
    apply unlettered_same
    simp only [ServerRun.step]
    split_ifs <;> rfl
  | teardown c =>
    apply unlettered_same
    simp only [ServerRun.step]
    split_ifs
    · exact (posts_remove_client y.server _).sent.trans (List.append_nil _)
    · rfl
  | inactiveSweep now =>
    apply unlettered_same
    refine inactive_sweep_keeps (fun t => t.sent = y.server.sent) (fun t k ht => ?_) now _ rfl
    rw [Server.evict_eq]
    cases t.live k <;> exact ht
  | ackSweep env => exact sweep_unlettered env y.server
  | ghostSweep now =>
    apply unlettered_same
    simp only [ServerRun.step, Server.cleanupExpiredGhosts]
    cases y.server.db with
    | none => rfl
    | some db => exact expire_sent _ _
  | restore => exact unlettered_same _ _ (restore_calm y.server).1

theorem unstored_step (e : Event) (h : y.server.db = none) :
    (ServerRun.step y e).server.db = none := by
  have hkept : (ServerRun.step y e).server.db.isSome = false := by
    refine step_keeps (fun s => s.db.isSome = false) y e (fun s t hq hs => hq.stored.trans hs)
      (fun _ _ _ _ _ hs => hs) (fun _ _ _ _ hs => hs) (fun s env c k title hs => ?_)
      (fun s m k title client hl hs => ?_) (fun s k hs => ?_) (fun now _ => ?_) (fun s now hs => ?_)
      (fun s hs => ?_) (by rw [h]; rfl)
    · simpa [enroll] using hs
    · rw [mutate_some m k title s client hl]
      exact hs
    · simpa using hs
    · refine inactive_sweep_keeps (fun s => s.db.isSome = false) (fun s k hs => ?_) now _
        (by rw [h]; rfl)
      simpa using hs
    · exact (Server.ghost_sweep_collected now s).stored.trans hs
    · exact s.restore_keeps (fun t => t.db.isSome = false) (fun _ _ _ hr ht => by rwa [hr.db]) hs
  simpa using hkept

end Acts

/-- A manned network without an offline store. -/
structure Unstored (N : Naming) (n : ℕ) (y : Net) : Prop where
  manned : Manned N n y
  db : y.hub.server.db = none

def byOne (k : ClientId) (ls : List Letter) : List Letter := ls.filter (fun l => l.source = k)

def taken (b : ClientBase) : List Letter := letters (b.callbacks.filterMap handled)

/-- What the handler of the application has been called with. -/
def delivered (p : Party) : List Letter := letters (p.called.filterMap handled)

theorem delivered_taken {p : Party} (h : Trails p) : (delivered p).Sublist (taken p.base) := by
  obtain ⟨due, hdue, -⟩ := h
  rw [delivered, taken, hdue]
  exact ((List.sublist_append_left _ _).filterMap _).filterMap _

def line (N : Naming) (y : Net) (c d : ClientRef) : Line Letter where
  sent := letters (y.spoke c).base.sent
  up := letters (y.up c)
  down := byOne (N.idOf c) (letters (y.down d))
  heard := byOne (N.idOf c) (taken (y.spoke d).base)

section Lines
variable {N : Naming} {n : ℕ} {y : Net}

theorem by_one_append (k : ClientId) (ls ms : List Letter) :
    byOne k (ls++ms) = byOne k ls++byOne k ms :=
  List.filter_append ..

theorem letters_reply (client : RexClientInner) (command : RexCommand) (m : MessageId) :
    letters (reply client command m) = [] := by
  refine letters_none _ fun g hg => ?_
  unfold reply at hg
  split_ifs at hg
  · obtain rfl := List.mem_singleton.mp hg
    exact letter_of_command _ .ack (ack_command m client.id .ack) rfl
  · cases hg

theorem letters_heard (f : RexData) (h : RexHead) (hh : f.head = .ok h) :
    letters ((heard f (.fromU32 h.command)).filterMap handled) = (letter f.content).toList := by
  have hl := letter_of_head f h hh
  unfold letterOf at hl
  generalize RexCommand.fromU32 h.command = command at hl ⊢
  cases command with
  | title | group | cast | ackReturn | titleReturn | groupReturn | castReturn =>
    exact (letters_cons f.content []).trans (List.append_nil _)
  | login | loginReturn | check | checkReturn | regTitle | regTitleReturn | delTitle
  | delTitleReturn | ack =>
    rw [hl]
    rfl

theorem posted_letters (s t : Server) (es : List Sent) (h : t.sent = s.sent++es) (d : ClientRef) :
    letters (sentTo d (posted s t)) = letters (forOne d (es.filter Sent.ok)) := by
  rw [sent_to_posted d s t es h]

theorem Unstored.relays (hy : Unstored N n y) (env : Env) (c : ClientRef) (f : RexData) :
    Relays env f y.hub.server (receiveFrame env c f y.hub.server) := by
  refine receive_relays env c f y.hub.server hy.db fun title x => ?_
  rw [ClientRegistryImpl.find_all_by_title_eq]
  exact (hy.manned.hosts.seated.once title).filter _

/-- A frame passed on by the server is a hop on the lines from its publisher,
and nothing on the others. -/
theorem serve_hop (hy : Unstored N n y) (c' : ClientRef) (env : Env) (c d : ClientRef)
    (hc : c ∈ N.parties) : Hop (line N y c d) (line N (move nodes y (.serve c' env)) c d) := by
  cases hq : y.up c' with
  | nil =>
    rw [serve_empty y c' env hq]
    exact hop_stay _
  | cons f rest =>
    by_cases hopen : c' ∈ y.hub.opened
    · have hparty := hy.manned.hosts.parties c' hopen
      have hseated := hy.manned.hosts.seated
      obtain ⟨es, hs, hes⟩ := hy.relays env c' ⟨f⟩
      have hsub := relayed_letters env ⟨f⟩ y.hub.server hseated.sender es hes d
      have hsource : ∀ l ∈ (letter f).toList, l.source = N.idOf c' := by
        intro l hl
        rw [Option.mem_toList] at hl
        rcases hy.manned.sourced c' f (by rw [hq]; exact List.mem_cons_self) with hcheck | hsource
        · rw [letter_of_command ⟨f⟩ .check hcheck rfl] at hl
          cases hl
        · exact letter_source ⟨f⟩ _ hsource l hl
      rw [serve_move y c' f rest env hq hopen]
      simp only [line, letters_append, by_one_append, posted_letters _ _ es hs]
      by_cases hcc : c = c'
      · subst hcc
        rw [Function.update_self]
        refine .pass (letter f).toList _ (letters rest) ?_ (List.filter_sublist.trans hsub)
        simp only [hq, letters_cons]
      · rw [Function.update_of_ne hcc]
        have hnone : byOne (N.idOf c) (letters (forOne d (es.filter Sent.ok))) = [] := by
          rw [byOne, List.filter_eq_nil_iff]
          intro l hl
          have hl' := hsource l (hsub.subset hl)
          simp only [hl', decide_eq_true_eq]
          exact fun h => hcc (N.distinct hc hparty h.symm)
        rw [hnone, List.append_nil]
        exact hop_stay _
    · rw [serve_unopened y c' env hopen]
      exact hop_stay _

theorem hear_hop (hy : Unstored N n y) (d' : ClientRef) (env : ClientEnv) (c d : ClientRef) :
    Hop (line N y c d) (line N (move nodes y (.hear d' env)) c d) := by
  cases hq : y.down d' with
  | nil =>
    rw [hear_empty y d' env hq]
    exact hop_stay _
  | cons f rest =>
    obtain ⟨client, h, -, hh, hr⟩ :=
      hy.manned.received d' env f (by rw [hq]; exact List.mem_cons_self)
    rw [hear_move y d' f rest env hq _ hr.sent]
    have hsent : letters (Function.update y.spoke d' ((y.spoke d').hear env ⟨f⟩) c).base.sent =
        letters (y.spoke c).base.sent := by
      by_cases hc : c = d'
      · rw [hc, Function.update_self, Party.hear_base, hr.sent, letters_append, letters_reply,
          List.append_nil]
      · rw [Function.update_of_ne hc]
    have hup : letters (Function.update y.up d' (y.up d'++if env.sendOk then
        reply client (.fromU32 h.command) h.messageId else []) c) = letters (y.up c) := by
      by_cases hc : c = d'
      · rw [hc, Function.update_self, letters_append]
        split_ifs
        · rw [letters_reply, List.append_nil]
        · exact List.append_nil _
      · rw [Function.update_of_ne hc]
    have hheard : taken ((y.spoke d').hear env ⟨f⟩).base =
        taken (y.spoke d').base++(letter f).toList := by
      rw [taken, Party.hear_base, hr.callbacks, List.filterMap_append, letters_append,
        letters_heard ⟨f⟩ h hh]
      rfl
    simp only [line, hsent, hup]
    by_cases hd : d = d'
    · subst hd
      rw [Function.update_self, Function.update_self, hheard, by_one_append]
      refine .take _ _ (byOne (N.idOf c) (letters rest)) ?_ (List.Sublist.refl _)
      simp only [hq, letters_cons, by_one_append]
    · rw [Function.update_of_ne hd, Function.update_of_ne hd]
      exact hop_stay _

theorem speak_hop (hy : Unstored N n y) (c' : ClientRef) (u : Utterance)
    (hp : Proper n (y.spoke c') u) (c d : ClientRef) :
    Hop (line N y c d) (line N (move nodes y (.speak c' u)) c d) := by
  obtain ⟨gs, hs, -, hkept⟩ := speak_stamps (hy.manned.object c') u hp
  rw [speak_move y c' u gs hs]
  have hheard : taken (Function.update y.spoke c' ((y.spoke c').say u) d).base =
      taken (y.spoke d).base := by
    by_cases hd : d = c'
    · rw [hd, Function.update_self, taken, Party.say_base, hkept.callbacks, taken]
    · rw [Function.update_of_ne hd]
  simp only [line, hheard]
  by_cases hc : c = c'
  · subst hc
    rw [Function.update_self, Function.update_self, Party.say_base, hs, letters_append,
      letters_append]
    refine .post (letters gs) _ ?_
    split_ifs
    · exact List.Sublist.refl _
    · exact List.nil_sublist _
  · rw [Function.update_of_ne hc, Function.update_of_ne hc]
    exact hop_stay _

theorem act_hop (e : Event) (he : Inner y.hub e) (c d : ClientRef) :
    Hop (line N y c d) (line N (move nodes y (.act e)) c d) := by
  obtain ⟨es, hs, hes⟩ := act_unlettered e he
  have hnone : letters (sentTo d (posted y.hub.server (ServerRun.step y.hub e).server)) = [] := by
    rw [posted_letters _ _ es hs]
    refine letters_none _ fun g hg => ?_
    obtain ⟨x, hx, rfl⟩ := List.mem_map.mp hg
    exact hes x (List.mem_of_mem_filter (List.mem_of_mem_filter hx))
  simp only [line, move, nodes, letters_append, hnone, List.append_nil]
  exact hop_stay _

theorem unstored_move (hn : 45 ≤ n) (mv : NetMove) (hy : Unstored N n y)
    (ho : Mannered N n y mv) : Unstored N n (move nodes y mv) := by
  refine ⟨manned_move hn mv hy.manned ho,?_⟩
  cases mv with
  | act e => exact unstored_step e hy.db
  | speak c u => exact hy.db
  | serve c env =>
    simp only [move]
    split
    · exact hy.db
    · split_ifs
      · exact unstored_step _ hy.db
      · exact hy.db
  | hear c env =>
    simp only [move]
    split <;> exact hy.db

theorem line_hop (mv : NetMove) (hy : Unstored N n y) (ho : Mannered N n y mv) (c d : ClientRef)
    (hc : c ∈ N.parties) : Hop (line N y c d) (line N (move nodes y mv) c d) := by
  cases mv with
  | act e => exact act_hop e ho.1 c d
  | speak c' u => exact speak_hop hy c' u ho.2 c d
  | serve c' env => exact serve_hop hy c' env c d hc
  | hear d' env => exact hear_hop hy d' env c d

theorem unstored_restore (config : RexSystemConfig) (cluster : ClusterPort) (clients : Clients) :
    (Server.build config cluster none clients).restore =
      Server.build config cluster none clients := by
  simp [Server.restore, Server.build]

theorem unstored_start {config : RexSystemConfig} (cluster : ClusterPort) {clients : Clients}
    {process : ClientRef → ClientBase} (hsender : ∀ d, (clients d).sender = d)
    (hprocess : ∀ c, ∃ title sender now ack,
      process c = .opened (N.idOf c) title sender now ack) :
    Unstored N n (idleNet (start config cluster none clients) process) := by
  refine ⟨manned_start cluster hsender nofun hprocess,?_⟩
  simp only [idleNet, start, unstored_restore]
  simp [Server.build]

end Lines

/-- At every moment of a run in which every process has one connection and an
id of its own, with a server without an offline store, what the handler of a
client has been called with in the name of a publisher is a subsequence of
what that publisher has sent: no message is altered, repeated, made up or
overtaken by a later one, whatever was lost. -/
theorem messages_in_order (N : Naming) (n : ℕ) (hn : 45 ≤ n) (config : RexSystemConfig)
    (cluster : ClusterPort) (clients : Clients) (hsender : ∀ d, (clients d).sender = d)
    (process : ClientRef → ClientBase)
    (hprocess : ∀ c, ∃ title sender now ack, process c = .opened (N.idOf c) title sender now ack)
    (mvs : List NetMove)
    (ho : Along (move nodes) (Mannered N n)
      (idleNet (start config cluster none clients) process) mvs) :
    Always (move nodes) (fun y => ∀ c ∈ N.parties, ∀ d,
        (byOne (N.idOf c) (delivered (y.spoke d))).Sublist (letters (y.spoke c).base.sent))
      (idleNet (start config cluster none clients) process) mvs := by
  have hempty : ∀ c d,
      InOrder (line N (idleNet (start config cluster none clients) process) c d) := by
    intro c d
    obtain ⟨title, sender, now, ack, hp⟩ := hprocess d
    simp only [line, idleNet, Party.of_base, taken, hp]
    exact List.nil_sublist _
  have hrun := always_of_along (move nodes) (Mannered N n)
    (fun y => Unstored N n y ∧ ∀ c ∈ N.parties, ∀ d, InOrder (line N y c d))
    (fun y mv hy hmv => ⟨unstored_move hn mv hy.1 hmv,fun c hc d =>
      (hy.2 c hc d).hop (line_hop mv hy.1 hmv c d hc)⟩)
    _ mvs ⟨unstored_start cluster hsender hprocess,fun c _ d => hempty c d⟩ ho
  refine always_mono _ _ _ (fun y hy c hc d => ?_) _ _ hrun
  have hcalled := delivered_taken (hy.1.manned.trails d)
  exact (hcalled.filter _).trans (hy.2 c hc d).heard_sublist

/-- The first of two clients publishes three messages; the first of them is
lost on its last hop. -/
def lossyRun : List NetMove :=
  logins++[.speak 0 (.send (calmEnv 7) hello),.speak 0 (.send (calmEnv 8) (.new .cast [65] [104])),
    .speak 0 (.send (calmEnv 9) (.new .title [65] [105])),
    .serve 0 { quietEnv with sendOk := fun _ => false },.serve 0 quietEnv,.serve 0 quietEnv,
    .hear 1 (calmEnv 1),.hear 1 (calmEnv 1),.hear 1 (calmEnv 1),.speak 1 (.call (calmEnv 1))]

theorem lossy_run_mannered :
    Along (move nodes) (Mannered pair 1024)
      (idleNet (start plainConfig .noop none unusedClients) processes) lossyRun := by
  have h0 : 0 ∈ pair.parties := Nat.zero_lt_two
  have h1 : 1 ∈ pair.parties := Nat.one_lt_two
  refine ⟨⟨nofun,h0⟩,⟨nofun,h1⟩,⟨h0,by decide +kernel,by decide +kernel⟩,
    ⟨h1,by decide +kernel,by decide +kernel⟩,trivial,trivial,⟨h0,?_⟩,⟨h0,?_⟩,⟨h0,?_⟩,trivial,
    trivial,trivial,trivial,trivial,trivial,⟨h1,trivial⟩,trivial⟩
  · exact wire_new .title [65] [104,105] (by decide) (by decide) (by simp [Short, rexHeadLen])
  · exact wire_new .cast [65] [104] (by decide) (by decide) (by simp [Short, rexHeadLen])
  · exact wire_new .title [65] [105] (by decide) (by decide) (by simp [Short, rexHeadLen])

theorem lossy_in_order :
    delivered ((lossyRun.foldl (move nodes)
        (idleNet (start plainConfig .noop none unusedClients) processes)).spoke 1) =
      [⟨.cast,100,[1,65,104]⟩,⟨.title,100,[1,65,105]⟩] ∧
    Always (move nodes) (fun y => ∀ c ∈ pair.parties, ∀ d,
        (byOne (pair.idOf c) (delivered (y.spoke d))).Sublist (letters (y.spoke c).base.sent))
      (idleNet (start plainConfig .noop none unusedClients) processes) lossyRun :=
  ⟨by decide +kernel,messages_in_order pair 1024 (by decide) plainConfig .noop unusedClients
    (fun _ => rfl) processes (fun c => ⟨[65],c,0,true,rfl⟩) lossyRun lossy_run_mannered⟩

end RexMq.PublishOrder
