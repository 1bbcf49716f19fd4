import Mathlib.Tactic.Common
import RexMq.FiniteRun

/-!
# The connection state of a TCP client

One word says what the client thinks of its connection. It is written by
`connect`, by the monitor that reconnects, by the heartbeat and by every
receive task when it ends; none of the writes says which connection it is
about. The tasks run here in any order of their reads and writes. The state
goes wrong in two ways: a receive task that ends before `connect` stores
Connected is forgotten, and the late end of an old receive task marks the
new connection as lost.
-/

set_option autoImplicit false

namespace RexMq.ClientLink
open RexMq.FiniteRun

inductive ConnectionState where
  | disconnected | connecting | connected | reconnecting
  deriving DecidableEq, Repr

/-- Where the task that connects stands: first `open`, later the monitor.
`waiting n` is before an attempt, with `n` of them made. From `opening` to
`storing` the task is inside `connect`. -/
inductive Stage where
  | idle
  | lost
  | waiting (attempts : ℕ)
  | opening (attempts : ℕ)
  | logging (attempts : ℕ)
  | storing
  | givingUp
  | closed
  deriving DecidableEq, Repr

/-- Connections are numbered from 1; `ended` are those whose receive task is
over. `opened` is set when `open` returns, `watching` while the heartbeat
waits for a pong. -/
structure Link where
  state : ConnectionState
  stage : Stage
  latest : ℕ
  ended : List ℕ
  opened : Bool
  watching : Bool

/-- A step of the connecting task, with the outcome of what it waits for; the
end of a receive task; a step of the heartbeat. -/
inductive LinkEvent where
  | connector (ok : Bool)
  | taskEnd (connection : ℕ)
  | heartbeat (alive : Bool)
  deriving DecidableEq, Repr

section Steps
variable (maxReconnectAttempts : ℕ)

/-- After a failed attempt `connect_with_retry` tries again or returns. -/
def failed (attempts : ℕ) (x : Link) : Link :=
  if maxReconnectAttempts ≤ attempts then
    { x with stage := if x.opened then .givingUp else .closed }
  else { x with stage := .waiting attempts }

def connectorStep (ok : Bool) (x : Link) : Link :=
  match x.stage with
  | .idle => if x.state = .disconnected then { x with stage := .lost } else x
  | .lost => { x with state := .reconnecting, stage := .waiting 0 }
  | .waiting n => { x with state := .connecting, stage := .opening (n+1) }
  | .opening n =>
    if ok then { x with latest := x.latest+1, stage := .logging n }
    else failed maxReconnectAttempts n x
  | .logging n => if ok then { x with stage := .storing } else failed maxReconnectAttempts n x
  | .storing => { x with state := .connected, stage := .idle, opened := true }
  | .givingUp => { x with state := .disconnected, stage := .idle }
  | .closed => x

def Running (x : Link) (g : ℕ) : Prop := 1 ≤ g ∧ g ≤ x.latest ∧ g ∉ x.ended

instance (x : Link) (g : ℕ) : Decidable (Running x g) := inferInstanceAs (Decidable (_ ∧ _ ∧ _))

def linkStep (x : Link) : LinkEvent → Link
  | .connector ok => connectorStep maxReconnectAttempts ok x
  | .taskEnd g => if Running x g then { x with state := .disconnected, ended := g::x.ended } else x
  | .heartbeat alive =>
    if x.watching then
      { x with
        watching := false
        state := if alive then x.state else .disconnected }
    else if x.opened ∧ x.state = .connected then { x with watching := true }
    else x

def newLink : Link := ⟨.disconnected,.waiting 0,0,[],false,false⟩

def InConnect : Stage → Prop
  | .opening _ | .logging _ | .storing => True
  | _ => False

/-- Outside `connect`, Connected means that the latest receive task runs. -/
def Truthful (x : Link) : Prop :=
  ¬ InConnect x.stage → x.state = .connected → Running x x.latest

/-- The state stays truthful, and the end of an old task does not change it. -/
structure Tells (x : Link) (e : LinkEvent) : Prop where
  truthful : Truthful (linkStep maxReconnectAttempts x e)
  superseded : ∀ g, e = .taskEnd g → Running x g → g ≠ x.latest →
    (linkStep maxReconnectAttempts x e).state = x.state

/-- Connected is stored while the task runs, and an old task ends while the
state is Disconnected. -/
def Timely (x : Link) : LinkEvent → Prop
  | .connector _ => x.stage = .storing → Running x x.latest
  | .taskEnd g => Running x g → g ≠ x.latest → x.state = .disconnected
  | .heartbeat _ => True

/-- Nobody but `connect` stores Connected, and it does so as it leaves. -/
structure Steady (x : Link) : Prop where
  truthful : Truthful x
  outside : x.state = .connected → x.stage = .idle

theorem truthful_of_other (x : Link) (h : x.state ≠ .connected) : Truthful x :=
  fun _ hc => absurd hc h

theorem state_failed (n : ℕ) (x : Link) :
    (failed maxReconnectAttempts n x).state = x.state := by
  unfold failed
  split_ifs
  · rfl
  · rfl
  · rfl

/-- Apart from the store of Connected, the connecting task leaves the state
other than Connected unless it is idle. -/
theorem connector_step_state (ok : Bool) (x : Link) (h : x.state = .connected → x.stage = .idle)
    (hs : x.stage ≠ .storing) :
    connectorStep maxReconnectAttempts ok x = x ∨
      (connectorStep maxReconnectAttempts ok x).state ≠ .connected := by
  have hother : x.stage ≠ .idle → x.state ≠ .connected := fun hi hc => hi (h hc)
  unfold connectorStep
  cases hstage : x.stage with
  | idle =>
    dsimp only
    split_ifs with hd
    · right
      rw [hd]
      exact nofun
    · exact .inl rfl
  | lost => exact .inr nofun
  | waiting n => exact .inr nofun
  | opening n =>
    right
    have hx := hother (by rw [hstage]; exact nofun)
    dsimp only
    split_ifs
    · exact hx
    · rwa [state_failed]
  | logging n =>
    right
    have hx := hother (by rw [hstage]; exact nofun)
    dsimp only
    split_ifs
    · exact hx
    · rwa [state_failed]
  | storing => exact absurd hstage hs
  | givingUp => exact .inr nofun
  | closed => exact .inl rfl

theorem connector_step_storing (ok : Bool) (x : Link) (hs : x.stage = .storing) :
    connectorStep maxReconnectAttempts ok x =
      { x with state := .connected, stage := .idle, opened := true } := by
  unfold connectorStep
  rw [hs]

theorem outside_step (x : Link) (e : LinkEvent) (h : Steady x) :
    (linkStep maxReconnectAttempts x e).state = .connected →
      (linkStep maxReconnectAttempts x e).stage = .idle := by
  cases e with
  | connector ok =>
    show (connectorStep _ ok x).state = _ → (connectorStep _ ok x).stage = _
    by_cases hs : x.stage = .storing
    · rw [connector_step_storing maxReconnectAttempts ok x hs]
      exact fun _ => rfl
    · rcases connector_step_state maxReconnectAttempts ok x h.outside hs with he | hne
      · rw [he]
        exact h.outside
      · exact fun hc => absurd hc hne
  | taskEnd g =>
    unfold linkStep
    dsimp only
    split_ifs
    · exact nofun
    · exact h.outside
  | heartbeat alive =>
    unfold linkStep
    dsimp only
    split_ifs
    · exact h.outside
    · exact nofun
    · exact h.outside
    · exact h.outside

theorem truthful_heartbeat (alive : Bool) (x : Link) (h : Truthful x) :
    Truthful (linkStep maxReconnectAttempts x (.heartbeat alive)) := by
  unfold linkStep
  dsimp only
  split_ifs
  · exact h
  · exact truthful_of_other _ nofun
  · exact h
  · exact h

theorem tells_iff_timely (x : Link) (e : LinkEvent) (h : Steady x) :
    Tells maxReconnectAttempts x e ↔ Timely x e := by
  cases e with
  | connector ok =>
    constructor
    · rintro ⟨htruth, -⟩ hs
      have ht : Truthful (connectorStep maxReconnectAttempts ok x) := htruth
      rw [connector_step_storing maxReconnectAttempts ok x hs] at ht
      exact ht id rfl
    · intro ht
      refine ⟨?_,nofun⟩
      show Truthful (connectorStep maxReconnectAttempts ok x)
      by_cases hs : x.stage = .storing
      · rw [connector_step_storing maxReconnectAttempts ok x hs]
        exact fun _ _ => ht hs
      · rcases connector_step_state maxReconnectAttempts ok x h.outside hs with he | hne
        · rw [he]
          exact h.truthful
        · exact truthful_of_other _ hne
  | taskEnd g =>
    have hstep : Running x g → linkStep maxReconnectAttempts x (.taskEnd g) =
        { x with state := .disconnected, ended := g::x.ended } := fun hg => if_pos hg
    constructor
    · rintro ⟨-, hsuper⟩ hg hold
      have hstate := hsuper g rfl hg hold
      rw [hstep hg] at hstate
      exact hstate.symm
    · intro ht
      constructor
      · by_cases hg : Running x g
        · rw [hstep hg]
          exact truthful_of_other _ nofun
        · rw [show linkStep maxReconnectAttempts x (.taskEnd g) = x from if_neg hg]
          exact h.truthful
      · intro g' he hg hold
        cases he
        rw [hstep hg]
        exact (ht hg hold).symm
  | heartbeat alive =>
    exact iff_of_true ⟨truthful_heartbeat maxReconnectAttempts alive x h.truthful,nofun⟩ trivial

/-- The state tells the truth throughout a run exactly when every Connected
is stored while the new receive task runs and old tasks only end while the
state is Disconnected. -/
theorem state_tells_truth_iff (es : List LinkEvent) :
    Along (linkStep maxReconnectAttempts) (Tells maxReconnectAttempts) newLink es ↔
      Along (linkStep maxReconnectAttempts) Timely newLink es :=
  along_iff_along (linkStep maxReconnectAttempts) (Tells maxReconnectAttempts) Timely Steady
    (tells_iff_timely maxReconnectAttempts)
    (fun x e h ht => ⟨ht.truthful,outside_step maxReconnectAttempts x e h⟩) newLink es
    ⟨truthful_of_other _ nofun,nofun⟩

end Steps

/-- The peer closes a new connection before Connected is stored. -/
def closedEarly : Link :=
  [LinkEvent.connector true, .connector true, .taskEnd 1, .connector true,
    .connector true].foldl (linkStep 5) newLink

/-- The heartbeat gives up a connection, and the monitor makes a second one. -/
def reconnected : Link :=
  [LinkEvent.connector true, .connector true, .connector true, .connector true,
    .heartbeat true, .heartbeat false, .connector true, .connector true, .connector true,
    .connector true, .connector true, .connector true].foldl (linkStep 5) newLink

/-- Connected without a receive task; and Disconnected by the end of the
first task while the second runs. -/
theorem connection_state_lies :
    (closedEarly.stage = .idle ∧ closedEarly.state = .connected ∧ closedEarly.latest = 1 ∧
      closedEarly.ended = [1] ∧ ¬ Truthful closedEarly) ∧
    reconnected.stage = .idle ∧ reconnected.state = .connected ∧ reconnected.latest = 2 ∧
      reconnected.ended = [] ∧ (linkStep 5 reconnected (.taskEnd 1)).state = .disconnected := by
  refine ⟨⟨by decide,by decide,by decide,by decide,fun h => ?_⟩,by decide⟩
  have hrun := h id (by decide)
  revert hrun
  decide

end RexMq.ClientLink
