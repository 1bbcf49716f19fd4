import Mathlib.Data.Set.Insert
import Mathlib.Tactic.Common
import RexMq.FiniteRun

/-!
# A desk that hands messages to those who want them

Parties come and go and name the topics they want. A message on a topic is
handed to one of the others that are present and want it, or to all of them;
its author is told when there is nobody to hand it to, when it could be handed
to none of them, and, unless the author does not care, when the one it was for
could not take it. A party to whom a message for all could not be handed is
taken to have left. What a party wants is remembered while it is away.
-/

set_option autoImplicit false

namespace RexMq.TopicDesk
open RexMq.FiniteRun

variable {ι τ μ : Type*}

structure Desk (ι τ : Type*) where
  present : Set ι
  wants : ι → Set τ

namespace Desk

def empty : Desk ι τ := ⟨∅,fun _ => ∅⟩

def audience (c : ι) (t : τ) (x : Desk ι τ) : Set ι :=
  {d | d ∈ x.present ∧ t ∈ x.wants d ∧ d ≠ c}

def enter (c : ι) (ts : Set τ) (x : Desk ι τ) : Desk ι τ :=
  ⟨insert c x.present,fun d => {u | u ∈ x.wants d ∨ d = c ∧ u ∈ ts}⟩

def subscribe (c : ι) (t : τ) (x : Desk ι τ) : Desk ι τ :=
  { x with wants := fun d => {u | u ∈ x.wants d ∨ d = c ∧ c ∈ x.present ∧ u = t} }

def unsubscribe (c : ι) (t : τ) (x : Desk ι τ) : Desk ι τ :=
  { x with wants := fun d => {u | u ∈ x.wants d ∧ ¬ (d = c ∧ c ∈ x.present ∧ u = t)} }

def leave (ds : Set ι) (x : Desk ι τ) : Desk ι τ := { x with present := x.present \ ds }

@[ext] theorem ext (x y : Desk ι τ) (hp : ∀ d, d ∈ x.present ↔ d ∈ y.present)
    (hw : ∀ d t, t ∈ x.wants d ↔ t ∈ y.wants d) : x = y := by
  have hpresent : x.present = y.present := Set.ext hp
  have hwants : x.wants = y.wants := funext fun d => Set.ext (hw d)
  cases x
  cases y
  simp_all

end Desk

inductive Act (ι τ μ : Type*) where
  | enter (c : ι) (ts : Set τ)
  | subscribe (c : ι) (t : τ)
  | unsubscribe (c : ι) (t : τ)
  | toOne (c : ι) (t : τ) (m : μ) (cares : Bool)
  | toAll (c : ι) (t : τ) (m : μ)
  | leave (ds : Set ι)
  | idle

structure Copy (ι μ : Type*) where
  receiver : ι
  message : μ
  ok : Bool

/-- What is handed out, and whether the author is told that nobody was there. -/
structure Outcome (ι μ : Type*) where
  copies : List (Copy ι μ)
  refused : Bool

def Outcome.silent : Outcome ι μ := ⟨[],false⟩

/-- A message was handed to everybody in the audience, once. -/
structure Covers (copies : List (Copy ι μ)) (audience : Set ι) (m : μ) : Prop where
  once : (copies.map Copy.receiver).Nodup
  all : ∀ d, d ∈ copies.map Copy.receiver ↔ d ∈ audience
  same : ∀ e ∈ copies, e.message = m

def failed (copies : List (Copy ι μ)) : Set ι := {d | ∃ e ∈ copies, e.receiver = d ∧ e.ok = false}

inductive Step (x : Desk ι τ) : Act ι τ μ → Outcome ι μ → Desk ι τ → Prop
  | enter (c : ι) (ts : Set τ) : Step x (.enter c ts) .silent (x.enter c ts)
  | subscribe (c : ι) (t : τ) : Step x (.subscribe c t) .silent (x.subscribe c t)
  | unsubscribe (c : ι) (t : τ) : Step x (.unsubscribe c t) .silent (x.unsubscribe c t)
  | nobody (c : ι) (t : τ) (m : μ) (cares : Bool) : x.audience c t = ∅ →
      Step x (.toOne c t m cares) ⟨[],true⟩ x
  | one (c : ι) (t : τ) (m : μ) (cares : Bool) (d : ι) (ok refused : Bool) :
      d ∈ x.audience c t → (refused = true ↔ ok = false ∧ cares = true) →
      Step x (.toOne c t m cares) ⟨[⟨d,m,ok⟩],refused⟩ x
  | all (c : ι) (t : τ) (m : μ) (copies : List (Copy ι μ)) (refused : Bool) :
      Covers copies (x.audience c t) m →
      (refused = true ↔ ∀ e ∈ copies, e.ok = false) →
      Step x (.toAll c t m) ⟨copies,refused⟩ (x.leave (failed copies))
  | leave (ds : Set ι) : Step x (.leave ds) .silent (x.leave ds)
  | idle : Step x .idle .silent x

/-- A run of the desk, with what happened and what came of it. -/
inductive Run : Desk ι τ → List (Act ι τ μ × Outcome ι μ) → Desk ι τ → Prop
  | nil (x : Desk ι τ) : Run x [] x
  | cons {x y z : Desk ι τ} {a : Act ι τ μ} {o : Outcome ι μ}
      {r : List (Act ι τ μ × Outcome ι μ)} : Step x a o y → Run y r z → Run x ((a,o)::r) z

section Simulation
variable {σ ε : Type*} (step : σ → ε → σ) (act : σ → ε → Act ι τ μ) (out : σ → ε → Outcome ι μ)

/-- What the events of a run amount to at the desk. -/
def transcript : σ → List ε → List (Act ι τ μ × Outcome ι μ)
  | _, [] => []
  | s, e::es => (act s e,out s e)::transcript (step s e) es

theorem run_of_steps (view : σ → Desk ι τ) (Inv : σ → Prop) (P : σ → ε → Prop)
    (hkeep : ∀ s e, Inv s → P s e → Inv (step s e))
    (hstep : ∀ s e, Inv s → P s e → Step (view s) (act s e) (out s e) (view (step s e)))
    (s : σ) (es : List ε) (hs : Inv s) (hes : Along step P s es) :
    Run (view s) (transcript step act out s es) (view (es.foldl step s)) := by
  induction es generalizing s with
  | nil => exact .nil _
  | cons e es ih => exact .cons (hstep s e hs hes.1) (ih (step s e) (hkeep s e hs hes.1) hes.2)

end Simulation

end RexMq.TopicDesk
