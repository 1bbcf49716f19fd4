import Mathlib.Tactic.Common
import RexMq.PublishTrace
import RexMq.ServerRun

/-!
# One outcome for every publish

With acknowledgements enabled a publisher is owed one answer: `NoTarget`
now, or the acknowledgement that is left pending. The three handlers set up
the acknowledgement before they send, and the title handler sets up none for
a message it forwards. What they owe is one of the two exactly when the local
send of a title message succeeds, when its forward does not, and when some
send of a cast succeeds.
-/

set_option autoImplicit false

namespace RexMq.PublishOutcome
open RexMq.ByteWords RexMq.FrameData RexMq.ClientRegistry RexMq.PersistentStore
open RexMq.ServerState RexMq.Handlers RexMq.HandlerEffects RexMq.FrameAccess
open RexMq.PublishTrace RexMq.ServerRun

def returnOf : RexCommand → Option RexCommand
  | .title => some .titleReturn
  | .group => some .groupReturn
  | .cast => some .castReturn
  | _ => none

/-- Between `s` and `t` the publisher was sent a return with `NoTarget`. -/
def Told (source : ClientRef) (returns : RexCommand) (s t : Server) : Prop :=
  ∃ e ∈ t.sent.drop s.sent.length, IsReturn returns (s.clients source).sender e

def Pending (m : MessageId) (t : Server) : Prop := (t.pendingAcks.lookup m).isSome

instance (source : ClientRef) (returns : RexCommand) (s t : Server) :
    Decidable (Told source returns s t) := by
  unfold Told
  infer_instance

instance (m : MessageId) (t : Server) : Decidable (Pending m t) := by
  unfold Pending
  infer_instance

def OneOutcome (source : ClientRef) (returns : RexCommand) (m : MessageId) (s t : Server) : Prop :=
  (Told source returns s t ∧ ¬ Pending m t) ∨ (Pending m t ∧ ¬ Told source returns s t)

/-- Where a title message goes, and that its local send succeeds or its
forward does not. -/
def TitleAccounted (env : Env) (s : Server) (request : ForwardRequest) : Server.RoutePlan → Prop
  | .here _ => env.sendOk s.sent.length = true
  | .remote node => env.forward node request ≠ .delivered
  | .nowhere => True

def Accounted (env : Env) (f : RexData) (s : Server) (title : Title) (k : ClientId) :
    RexCommand → Prop
  | .title => TitleAccounted env s (titleRequest f title k) (s.route env title (some k))
  | .cast => s.registry.findAllByTitle s.clients title (some k) ≠ [] →
      ∃ i < (s.registry.findAllByTitle s.clients title (some k)).length,
        env.sendOk (s.sent.length+i) = true
  | _ => True

section Outcome
variable (env : Env) (source : ClientRef) (f : RexData) (s t u : Server)
variable (returns command : RexCommand)

theorem told_iff (cs back : List Sent) (reached : Bool) (hu : u.sent = s.sent)
    (hp : Posts u t (cs++back)) (hcs : ∀ e ∈ cs, ¬ Carries returns e)
    (ha : Answers returns (s.clients source).sender reached back) :
    Told source returns s t ↔ reached = false := by
  have hnew : t.sent.drop s.sent.length = cs++back := by
    rw [hp.sent, hu, List.drop_left]
  unfold Told
  rw [hnew]
  cases ha with
  | silent =>
    rw [List.append_nil]
    constructor
    · rintro ⟨e, he, hr⟩
      exact absurd hr.command (hcs e he)
    · rintro ⟨⟩
  | told e hr => exact ⟨fun _ => rfl,fun _ => ⟨e,by simp,hr⟩⟩

theorem not_return_of_copy (g : RexData) (hr : returnOf command = some returns)
    (hc : f.command = .ok command) (hg : g.command = f.command) (e : Sent)
    (he : e.buf = g.content) : ¬ Carries returns e := by
  unfold Carries
  rw [he]
  change g.command ≠ _
  rw [hg, hc]
  rintro ⟨⟩
  cases returns <;> cases hr

theorem pending_awaiting (hack : s.config.ackEnabled = true) (k : ClientId) (title : Title)
    (isGroup : Bool) (h : t.pendingAcks = awaiting env s f k title isGroup) :
    Pending (givenId env f) t := by
  unfold Pending
  rw [h, awaiting, if_pos hack, AList.lookup_insert]
  rfl

theorem not_pending (m : MessageId) (hm : s.pendingAcks.lookup m = none)
    (h : t.pendingAcks = s.pendingAcks) : ¬ Pending m t := by
  unfold Pending
  rw [h, hm]
  exact Bool.false_ne_true

theorem outcome_unheard (m : MessageId) (hm : s.pendingAcks.lookup m = none)
    (h : Unheard source s t returns) : OneOutcome source returns m s t := by
  obtain ⟨back, ha, hp⟩ := h
  exact .inl ⟨(told_iff source s t s returns [] back false rfl hp (by simp) ha).mpr rfl,
    not_pending s t m hm hp.pending⟩

theorem outcome_fanned (hack : s.config.ackEnabled = true) (hr : returnOf command = some returns)
    (hc : f.command = .ok command) (title : Title) (k : ClientId) (isGroup : Bool)
    (targets : List ClientRef) (reached : Bool)
    (h : Fanned env source f s t title k returns isGroup targets reached) :
    OneOutcome source returns (givenId env f) s t ↔ reached = true := by
  obtain ⟨g, hg, back, ha, hp⟩ := h
  have hpend := pending_awaiting env f s t hack k title isGroup hp.pending
  have htold := told_iff source s t _ returns _ back reached (by exact rfl) hp
    (fun e he => not_return_of_copy f returns command g hr hc hg e
      (buf_of_copies env s g.content _ targets e he)) ha
  unfold OneOutcome
  rw [htold]
  simp [hpend]

theorem outcome_title (hack : s.config.ackEnabled = true) (hc : f.command = .ok .title)
    (title : Title) (k : ClientId) (hm : s.pendingAcks.lookup (givenId env f) = none)
    (plan : Server.RoutePlan) (h : TitleTrace env source f s t title k plan) :
    OneOutcome source .titleReturn (givenId env f) s t ↔
      TitleAccounted env s (titleRequest f title k) plan := by
  cases h with
  | here target g back hg ha hp =>
    exact outcome_fanned env source f s t .titleReturn .title hack rfl hc title
      (s.clients source).id false [target] _ ⟨g,hg,back,ha,hp⟩
  | remote node back ha hp =>
    -- no acknowledgement is set up on this way, so the publisher has to be told
    have htold := told_iff source s t _ .titleReturn [] back _ (by exact rfl) hp (by simp) ha
    have hpend := not_pending s t _ hm hp.pending
    unfold OneOutcome TitleAccounted
    rw [htold]
    simp [hpend]
  | nowhere back ha hp =>
    exact ⟨fun _ => trivial,fun _ => outcome_unheard source s t .titleReturn _ hm ⟨back,ha,hp⟩⟩

end Outcome

/-- A publish that returns leaves one outcome for its message id, the answer
`NoTarget` or a pending acknowledgement, exactly when it is accounted for. -/
theorem one_outcome_iff (env : Env) (source : ClientRef) (f : RexData) (s t : Server)
    (command returns : RexCommand) (title : Title) (k : ClientId)
    (hack : s.config.ackEnabled = true) (hc : f.command = .ok command)
    (hr : returnOf command = some returns) (htitle : f.title = .ok title)
    (hsource : f.source = .ok k) (hm : s.pendingAcks.lookup (givenId env f) = none)
    (h : handle env source f s = .ok t) :
    OneOutcome source returns (givenId env f) s t ↔ Accounted env f s title k command := by
  rw [handle, bind_of_ok hc] at h
  cases command with
  | title =>
    cases hr
    exact outcome_title env source f s t hack hc title k hm _
      (title_trace env source f s t title k htitle hsource h)
  | group =>
    cases hr
    refine ⟨fun _ => trivial,fun _ => ?_⟩
    rcases group_trace env source f s t title k htitle hsource h with ⟨-, hu⟩ | ⟨target, -, hf⟩
    · exact outcome_unheard source s t .groupReturn _ hm hu
    · rw [hack, Bool.or_true] at hf
      exact (outcome_fanned env source f s t .groupReturn .group hack rfl hc title k true _ _
        hf).mpr rfl
  | cast =>
    cases hr
    unfold Accounted
    rcases cast_trace env source f s t title k htitle hsource h with ⟨hnone, hu⟩ | ⟨hsome, hf⟩
    · exact ⟨fun _ hne => absurd hnone hne,
        fun _ => outcome_unheard source s t .castReturn _ hm hu⟩
    · rw [outcome_fanned env source f s t .castReturn .cast hack rfl hc title k false _ _ hf,
        decide_eq_true_iff]
      exact ⟨fun hex _ => hex,fun hex => hex hsome⟩
  | _ => cases hr

def ackConfig : RexSystemConfig := { plainConfig with ackEnabled := true }

/-- A subscriber with id 7 on connection 1 and a publisher on connection 0. -/
def oneSubscriber (config : RexSystemConfig) : Server :=
  ([Event.accept 0 1 "tcp" 0, .accept 1 2 "tcp" 0,
    .frame 1 quietEnv (loginFrame 7 [97])].foldl step
      (start config .noop none unusedClients)).server

def publish (command : RexCommand) : RexData := RexData.new command [97] [98]

theorem heard_title_one_outcome :
    ∃ t, handle { quietEnv with messageId := 5 } 0 (publish .title)
        (oneSubscriber ackConfig) = .ok t ∧
      OneOutcome 0 .titleReturn 5 (oneSubscriber ackConfig) t := by
  obtain ⟨t, ht⟩ := handle_ok { quietEnv with messageId := 5 } 0 (publish .title)
    (oneSubscriber ackConfig) (fits_of_title _ [97] (by decide +kernel) (by decide +kernel))
  refine ⟨t,ht,(one_outcome_iff { quietEnv with messageId := 5 } 0 (publish .title)
    (oneSubscriber ackConfig) t .title .titleReturn [97] 0 (by decide +kernel) (by decide +kernel)
    rfl (by decide +kernel) (by decide +kernel) (by decide +kernel) ht).mpr ?_⟩
  unfold Accounted
  cases Server.route _ [97] (some 0) (oneSubscriber ackConfig) with
  | here target => rfl
  | remote node => exact fun h => by cases h
  | nowhere => trivial

/-- A title message and a cast whose only send fails are answered and left
pending; a forwarded message is neither. -/
theorem publish_outcomes_lost_or_doubled :
    (∃ t ∈ (handle { quietEnv with sendOk := fun n => n == 0, messageId := 5 } 0 (publish .title)
        (oneSubscriber ackConfig)).toOption,
      Told 0 .titleReturn (oneSubscriber ackConfig) t ∧ Pending 5 t) ∧
    (∃ t ∈ (handle { quietEnv with sendOk := fun n => n == 0, messageId := 5 } 0 (publish .cast)
        (oneSubscriber ackConfig)).toOption,
      Told 0 .castReturn (oneSubscriber ackConfig) t ∧ Pending 5 t) ∧
    (∃ t ∈ (handle { quietEnv with forward := fun _ _ => .delivered, messageId := 5 } 0
        (RexData.new .title [99] []) (oneSubscriber ackConfig)).toOption,
      ¬ Told 0 .titleReturn (oneSubscriber ackConfig) t ∧ ¬ Pending 5 t) := by
  decide +kernel

end RexMq.PublishOutcome
