import Mathlib.Logic.Relation
import Mathlib.Tactic.Common

/-!
# Signs of life over a line with delay

Two ends keep the time of the last sign of life of the other. Either end
takes a sign when it sends and when it receives; what is sent arrives within
a delay, in order. The near end looks at its sign at intervals and sends
something when it is old, then waits before it goes back to its interval. A
task is late by a slack at most. The sign at the far end then never gets
older than a bound that all of these add up to.
-/

set_option autoImplicit false

namespace RexMq.TimedLine

/-- The interval between looks, the age at which a sign is old, the wait after
a sending, the slack of a task and the delay of the line. -/
structure Pace where
  rest : ℕ
  idle : ℕ
  wait : ℕ
  slack : ℕ
  delay : ℕ

namespace Pace
variable (p : Pace)

def settled : ℕ := max p.idle (p.wait+p.slack)

def near : ℕ := p.settled+p.rest+2*p.slack

def far : ℕ := p.near+2*p.delay

end Pace

inductive Phase where
  | resting
  | sending
  | waiting
  deriving DecidableEq, Repr

/-- The line with what is in flight on it, each thing by the time it was sent;
`due` is when the task is to go on. -/
structure Line where
  clock : ℕ
  near : ℕ
  far : ℕ
  due : ℕ
  phase : Phase
  up : List ℕ
  down : List ℕ

section Steps
variable (p : Pace)

inductive Step : Line → Line → Prop
  | tick (x : Line) : (∀ t ∈ x.up, x.clock+1 ≤ t+p.delay) → (∀ t ∈ x.down, x.clock+1 ≤ t+p.delay) →
      x.clock+1 ≤ x.due+p.slack → Step x { x with clock := x.clock+1 }
  | say (x : Line) : Step x { x with near := x.clock, up := x.up++[x.clock] }
  | take (x : Line) (t : ℕ) (rest : List ℕ) : x.up = t::rest →
      Step x { x with far := x.clock, up := rest }
  | post (x : Line) (n : ℕ) :
      Step x { x with far := x.clock, down := x.down++List.replicate n x.clock }
  | hear (x : Line) (t : ℕ) (rest : List ℕ) : x.down = t::rest →
      Step x { x with near := x.clock, down := rest }
  | look (x : Line) : x.phase = .resting → x.clock < x.near+p.idle →
      Step x { x with due := x.clock+p.rest }
  | wake (x : Line) : x.phase = .resting → Step x { x with phase := .sending, due := x.clock }
  | send (x : Line) : x.phase = .sending →
      Step x { x with
        near := x.clock
        up := x.up++[x.clock]
        phase := .waiting
        due := x.clock+p.wait }
  | settle (x : Line) : x.phase = .waiting →
      Step x { x with phase := .resting, due := x.clock+p.rest }

/-- How far the task may be from the near sign, by its phase. -/
def span : Phase → ℕ
  | .resting => p.settled+p.rest
  | .sending => p.settled+p.rest+p.slack
  | .waiting => p.wait

structure Kept (x : Line) : Prop where
  near : x.near ≤ x.clock
  far : x.far ≤ x.clock
  up : ∀ t ∈ x.up, t ≤ x.clock ∧ x.clock ≤ t+p.delay
  down : ∀ t ∈ x.down, t ≤ x.far ∧ x.clock ≤ t+p.delay
  still : x.up = [] → x.near ≤ x.far+p.delay
  moving : ∀ t rest, x.up = t::rest → t ≤ x.far+p.delay+p.near
  due : x.due ≤ x.near+span p x.phase
  punctual : x.clock ≤ x.due+p.slack

variable {p} {x y : Line}

theorem span_le (ph : Phase) : span p ph+p.slack ≤ p.near := by
  cases ph with
  | resting =>
    simp only [span, Pace.near]
    omega
  | sending =>
    simp only [span, Pace.near]
    omega
  | waiting =>
    have : p.wait+p.slack ≤ p.settled := Nat.le_max_right _ _
    simp only [span, Pace.near]
    omega

theorem Kept.near_bound (h : Kept p x) : x.clock ≤ x.near+p.near := by
  have hd := h.due
  have hp := h.punctual
  have hs := span_le (p := p) x.phase
  omega

/-- A sign that is not younger than a sending comes from before the line was
used, or from within its delay. -/
theorem Kept.far_bound (h : Kept p x) : x.clock ≤ x.far+p.far := by
  have hnear := h.near_bound
  rw [Pace.far]
  cases hu : x.up with
  | nil =>
    have := h.still hu
    omega
  | cons t rest =>
    have hm := h.moving t rest hu
    have hd := (h.up t (by rw [hu]; exact List.mem_cons_self)).2
    omega

theorem Kept.sends (h : Kept p x) :
    (∀ t ∈ x.up++[x.clock], t ≤ x.clock ∧ x.clock ≤ t+p.delay) ∧
      ∀ t rest, x.up++[x.clock] = t::rest → t ≤ x.far+p.delay+p.near := by
  constructor
  · intro t ht
    rcases List.mem_append.mp ht with ht | ht
    · exact h.up t ht
    · rw [List.mem_singleton.mp ht]
      omega
  · intro t rest ht
    cases hu : x.up with
    | nil =>
      rw [hu] at ht
      have hstill := h.still hu
      have hnear := h.near_bound
      have : x.clock = t := (List.cons.inj ht).1
      omega
    | cons u us =>
      rw [hu] at ht
      obtain rfl : u = t := (List.cons.inj ht).1
      exact h.moving u us hu

theorem Kept.step (h : Kept p x) (hs : Step p x y) : Kept p y := by
  have hnear := h.near
  have hfar := h.far
  have hdue := h.due
  have hpunctual := h.punctual
  cases hs with
  | tick hup hdown hlate =>
    exact ⟨Nat.le_succ_of_le hnear,Nat.le_succ_of_le hfar,
      fun t ht => ⟨Nat.le_succ_of_le (h.up t ht).1,hup t ht⟩,
      fun t ht => ⟨(h.down t ht).1,hdown t ht⟩,h.still,h.moving,hdue,hlate⟩
  | say =>
    obtain ⟨hup, hmoving⟩ := h.sends
    exact ⟨Nat.le_refl _,hfar,hup,h.down,by simp,hmoving,Nat.le_trans hdue (by dsimp only; omega),
      hpunctual⟩
  | take t rest hu =>
    have hmem : ∀ u ∈ rest, u ∈ x.up := fun u hm => by rw [hu]; exact List.mem_cons_of_mem t hm
    refine ⟨hnear,Nat.le_refl _,fun u hm => h.up u (hmem u hm),fun u hm => ?_,fun _ => ?_,
      fun u us hus => ?_,hdue,hpunctual⟩
    · exact ⟨Nat.le_trans (h.down u hm).1 hfar,(h.down u hm).2⟩
    · dsimp only
      omega
    · have := (h.up u (hmem u (by rw [show rest = u::us from hus]; exact List.mem_cons_self))).1
      dsimp only
      omega
  | post n =>
    refine ⟨hnear,Nat.le_refl _,h.up,fun u hm => ?_,fun _ => ?_,fun u us hus => ?_,hdue,
      hpunctual⟩
    · rcases List.mem_append.mp hm with hm | hm
      · exact ⟨Nat.le_trans (h.down u hm).1 hfar,(h.down u hm).2⟩
      · rw [List.eq_of_mem_replicate hm]
        dsimp only
        omega
    · dsimp only
      omega
    · have := (h.up u (by rw [show x.up = u::us from hus]; exact List.mem_cons_self)).1
      dsimp only
      omega
  | hear t rest hd =>
    have ht := h.down t (by rw [hd]; exact List.mem_cons_self)
    refine ⟨Nat.le_refl _,hfar,h.up,fun u hm => ?_,fun _ => ?_,h.moving,?_,hpunctual⟩
    · exact h.down u (by rw [hd]; exact List.mem_cons_of_mem t hm)
    · dsimp only
      omega
    · dsimp only
      omega
  | look hp hidle =>
    refine ⟨hnear,hfar,h.up,h.down,h.still,h.moving,?_,?_⟩
    · have : p.idle ≤ p.settled := Nat.le_max_left _ _
      dsimp only
      rw [hp]
      simp only [span]
      omega
    · dsimp only
      omega
  | wake hp =>
    refine ⟨hnear,hfar,h.up,h.down,h.still,h.moving,?_,Nat.le_add_right _ _⟩
    rw [hp] at hdue
    simp only [span] at hdue ⊢
    omega
  | send hp =>
    obtain ⟨hup, hmoving⟩ := h.sends
    refine ⟨Nat.le_refl _,hfar,hup,h.down,by simp,hmoving,Nat.le_refl _,?_⟩
    dsimp only
    omega
  | settle hp =>
    refine ⟨hnear,hfar,h.up,h.down,h.still,h.moving,?_,?_⟩
    · have : p.wait+p.slack ≤ p.settled := Nat.le_max_right _ _
      rw [hp] at hdue
      simp only [span] at hdue ⊢
      omega
    · dsimp only
      omega

theorem Kept.steps (h : Kept p x) (hs : Relation.ReflTransGen (Step p) x y) : Kept p y := by
  induction hs with
  | refl => exact h
  | tail _ hs ih => exact ih.step hs

end Steps

theorem kept_fresh (p : Pace) (now : ℕ) : Kept p ⟨now,now,now,now+p.rest,.resting,[],[]⟩ := by
  refine ⟨Nat.le_refl _,Nat.le_refl _,by simp,by simp,fun _ => Nat.le_add_right _ _,by simp,?_,?_⟩
  · simp only [span]
    omega
  · dsimp only
    omega

end RexMq.TimedLine
