import Mathlib.Data.List.Basic
import Mathlib.Tactic.Common

/-!
# Finite runs and bounded loops

A run folds a step function over a list of inputs. `Along` asks a condition
of every step of a run, judged in the state before the step; `Always` asks a
property of every state the run reaches. The rules below pass between the
two through an invariant. A loop repeats its body until the body leaves it;
the fuel only bounds how far the loop is followed.
-/

set_option autoImplicit false

namespace RexMq.FiniteRun

variable {σ ι : Type*}

def Along (step : σ → ι → σ) (P : σ → ι → Prop) : σ → List ι → Prop
  | _, [] => True
  | s, e::es => P s e ∧ Along step P (step s e) es

def Always (step : σ → ι → σ) (P : σ → Prop) : σ → List ι → Prop
  | s, [] => P s
  | s, e::es => P s ∧ Always step P (step s e) es

theorem always_iff (step : σ → ι → σ) (P : σ → Prop) (s : σ) (es : List ι) :
    Always step P s es ↔ ∀ pre, pre <+: es → P (pre.foldl step s) := by
  induction es generalizing s with
  | nil => simp [Always]
  | cons e es ih =>
    rw [Always, ih]
    constructor
    · rintro ⟨hs, ht⟩ pre hp
      cases pre with
      | nil => exact hs
      | cons a pre =>
        obtain ⟨rfl, hq⟩ := List.cons_prefix_cons.mp hp
        exact ht pre hq
    · intro h
      exact ⟨h [] (List.nil_prefix), fun pre hp => h (e::pre) (List.cons_prefix_cons.mpr ⟨rfl,hp⟩)⟩

/-- The run rule: an invariant kept by every admitted step holds throughout
every run whose steps are all admitted. -/
theorem always_of_along (step : σ → ι → σ) (P : σ → ι → Prop) (Inv : σ → Prop)
    (hstep : ∀ s e, Inv s → P s e → Inv (step s e)) (s : σ) (es : List ι)
    (hs : Inv s) (ha : Along step P s es) : Always step Inv s es := by
  induction es generalizing s with
  | nil => exact hs
  | cons e es ih => exact ⟨hs,ih _ (hstep s e hs ha.1) ha.2⟩

theorem always_of_step (step : σ → ι → σ) (Inv : σ → Prop)
    (hstep : ∀ s e, Inv s → Inv (step s e)) (s : σ) (es : List ι) (hs : Inv s) :
    Always step Inv s es := by
  induction es generalizing s with
  | nil => exact hs
  | cons e es ih => exact ⟨hs,ih _ (hstep s e hs)⟩

theorem always_mono (step : σ → ι → σ) (P Q : σ → Prop) (h : ∀ s, P s → Q s)
    (s : σ) (es : List ι) (ha : Always step P s es) : Always step Q s es := by
  induction es generalizing s with
  | nil => exact h s ha
  | cons e es ih => exact ⟨h s ha.1,ih _ ha.2⟩

/-- Exactness of a step condition: when a step outside the condition always
ends in a bad state, the property holds in every state of a run exactly when
all its steps meet the condition. -/
theorem always_iff_along (step : σ → ι → σ) (Good : σ → ι → Prop) (Inv P : σ → Prop)
    (hP : ∀ s, Inv s → P s)
    (hstep : ∀ s e, Inv s → Good s e → Inv (step s e))
    (hbad : ∀ s e, Inv s → ¬ Good s e → ¬ P (step s e)) (s : σ) (es : List ι) (hs : Inv s) :
    Always step P s es ↔ Along step Good s es := by
  constructor
  · intro ha
    induction es generalizing s with
    | nil => trivial
    | cons e es ih =>
      have hp : P (step s e) := by
        cases es with
        | nil => exact ha.2
        | cons a es => exact ha.2.1
      have hg : Good s e := by
        by_contra hn
        exact hbad s e hs hn hp
      exact ⟨hg,ih _ (hstep s e hs hg) ha.2⟩
  · intro ha
    exact always_mono step Inv P hP s es (always_of_along step Good Inv hstep s es hs ha)

/-- A property that is lost in exactly the steps outside the condition, and
never regained, holds at the end of a run exactly when it held before and all
steps met the condition. -/
theorem last_iff_along (step : σ → ι → σ) (Good : σ → ι → Prop) (Inv P : σ → Prop)
    (hinv : ∀ s e, Inv s → Inv (step s e))
    (hstep : ∀ s e, Inv s → (P (step s e) ↔ P s ∧ Good s e)) (s : σ) (es : List ι) (hs : Inv s) :
    P (es.foldl step s) ↔ P s ∧ Along step Good s es := by
  induction es generalizing s with
  | nil => exact (and_iff_left trivial).symm
  | cons e es ih => rw [List.foldl_cons, ih _ (hinv s e hs), hstep s e hs, Along, and_assoc]

/-- A step condition follows along a run from another one that keeps the
invariant under which it follows at each step. -/
theorem along_of_along (step : σ → ι → σ) (P Q : σ → ι → Prop) (Inv : σ → Prop)
    (hPQ : ∀ s e, Inv s → P s e → Q s e)
    (hstep : ∀ s e, Inv s → P s e → Inv (step s e)) (s : σ) (es : List ι) (hs : Inv s)
    (h : Along step P s es) : Along step Q s es := by
  induction es generalizing s with
  | nil => trivial
  | cons e es ih => exact ⟨hPQ s e hs h.1,ih _ (hstep s e hs h.1) h.2⟩

/-- Two step conditions that agree under an invariant which the first one
keeps are met by the same runs. -/
theorem along_iff_along (step : σ → ι → σ) (P Q : σ → ι → Prop) (Inv : σ → Prop)
    (hPQ : ∀ s e, Inv s → (P s e ↔ Q s e))
    (hstep : ∀ s e, Inv s → P s e → Inv (step s e)) (s : σ) (es : List ι) (hs : Inv s) :
    Along step P s es ↔ Along step Q s es := by
  constructor
  · exact along_of_along step P Q Inv (fun s e hs => (hPQ s e hs).mp) hstep s es hs
  · exact along_of_along step Q P Inv (fun s e hs => (hPQ s e hs).mpr)
      (fun s e hs hq => hstep s e hs ((hPQ s e hs).mpr hq)) s es hs

theorem along_append (step : σ → ι → σ) (P : σ → ι → Prop) (s : σ) (es fs : List ι)
    (he : Along step P s es) (hf : Along step P (es.foldl step s) fs) :
    Along step P s (es++fs) := by
  induction es generalizing s with
  | nil => exact hf
  | cons e es ih => exact ⟨he.1,ih _ he.2 hf⟩

theorem along_of_forall (step : σ → ι → σ) (P : σ → ι → Prop) (es : List ι)
    (h : ∀ s, ∀ e ∈ es, P s e) (s : σ) : Along step P s es := by
  induction es generalizing s with
  | nil => trivial
  | cons e es ih => exact ⟨h s e (by simp),ih (fun s e he => h s e (by simp [he])) _⟩

theorem along_and_of_forall (step : σ → ι → σ) (P : σ → ι → Prop) (Q : ι → Prop) (s : σ)
    (es : List ι) (h : Along step P s es) (hq : ∀ e ∈ es, Q e) :
    Along step (fun s e => P s e ∧ Q e) s es := by
  induction es generalizing s with
  | nil => trivial
  | cons e es ih =>
    exact ⟨⟨h.1,hq e (by simp)⟩,ih _ h.2 fun e he => hq e (by simp [he])⟩

theorem forall_of_along (step : σ → ι → σ) (Q : ι → Prop) (es : List ι) (s : σ)
    (h : Along step (fun _ e => Q e) s es) : ∀ e ∈ es, Q e := by
  induction es generalizing s with
  | nil => exact fun e he => nomatch he
  | cons a es ih =>
    intro e he
    rcases List.mem_cons.mp he with rfl | he
    · exact h.1
    · exact ih _ h.2 e he

theorem always_last (step : σ → ι → σ) (P : σ → Prop) (s : σ) (es : List ι)
    (h : Always step P s es) : P (es.foldl step s) :=
  (always_iff step P s es).mp h es (List.prefix_refl es)

theorem length_le_of_along (step : σ → ι → σ) (P : σ → ι → Prop) (Inv : σ → Prop) (weight : σ → ℕ)
    (hinv : ∀ s e, Inv s → P s e → Inv (step s e))
    (hstep : ∀ s e, Inv s → P s e → weight (step s e) < weight s) (s : σ) (es : List ι) (hs : Inv s)
    (h : Along step P s es) : es.length ≤ weight s := by
  induction es generalizing s with
  | nil => exact Nat.zero_le _
  | cons e es ih =>
    have hlt := hstep s e hs h.1
    have hle := ih _ (hinv s e hs h.1) h.2
    rw [List.length_cons]
    omega

/-- What the body of a loop decides: another round, or leaving the loop. -/
inductive Flow (σ : Type*) where
  | again (s : σ)
  | leave (s : σ)
  deriving DecidableEq, Repr

def loop (body : σ → Flow σ) : ℕ → σ → Flow σ
  | 0, s => .again s
  | k+1, s => match body s with
    | .again t => loop body k t
    | .leave t => .leave t

/-- The states in which the body of a loop is entered. -/
def Entered (body : σ → Flow σ) (s t : σ) : Prop := ∃ k, loop body k s = .again t

theorem entered_self (body : σ → Flow σ) (s : σ) : Entered body s s := ⟨0,rfl⟩

theorem entered_again (body : σ → Flow σ) (s t u : σ) (h : body s = .again t)
    (ht : Entered body t u) : Entered body s u := by
  obtain ⟨k, hk⟩ := ht
  exact ⟨k+1,by simp [loop, h, hk]⟩

theorem loop_again_snoc (body : σ → Flow σ) (k : ℕ) (s t u : σ)
    (h : loop body k s = .again t) (ht : body t = .again u) : loop body (k+1) s = .again u := by
  induction k generalizing s with
  | zero =>
    cases h
    simp [loop, ht]
  | succ k ih =>
    rw [loop] at h ⊢
    cases hb : body s with
    | again v =>
      simp only [hb] at h ⊢
      exact ih v h
    | leave v => simp [hb] at h

theorem entered_cases (body : σ → Flow σ) (s t : σ) (h : Entered body s t) :
    t = s ∨ ∃ u, body s = .again u ∧ Entered body u t := by
  obtain ⟨k, hk⟩ := h
  cases k with
  | zero =>
    cases hk
    exact .inl rfl
  | succ k =>
    rw [loop] at hk
    cases hb : body s with
    | again u =>
      simp only [hb] at hk
      exact .inr ⟨u,rfl,k,hk⟩
    | leave u => simp [hb] at hk

theorem loop_leave_mono (body : σ → Flow σ) (k n : ℕ) (s t : σ) (h : loop body k s = .leave t)
    (hk : k ≤ n) : loop body n s = .leave t := by
  induction k generalizing n s with
  | zero => cases h
  | succ k ih =>
    obtain ⟨m, rfl⟩ := Nat.exists_eq_add_of_le' (Nat.le_trans (Nat.succ_pos k) hk)
    rw [loop] at h ⊢
    cases hb : body s with
    | again u =>
      simp only [hb] at h ⊢
      exact ih m u h (by omega)
    | leave u =>
      simp only [hb] at h ⊢
      exact h

theorem loop_leaves (body : σ → Flow σ) (size : σ → ℕ) (s : σ)
    (h : ∀ t u, Entered body s t → body t = .again u → size u < size t) :
    ∃ t, loop body (size s+1) s = .leave t := by
  suffices hk : ∀ n s, size s ≤ n →
      (∀ t u, Entered body s t → body t = .again u → size u < size t) →
      ∃ t, loop body (n+1) s = .leave t from hk _ s (Nat.le_refl _) h
  intro n
  induction n with
  | zero =>
    intro s hn h
    cases hb : body s with
    | again u =>
      have := h s u (entered_self body s) hb
      omega
    | leave t => exact ⟨t,by simp [loop, hb]⟩
  | succ n ih =>
    intro s hn h
    cases hb : body s with
    | again u =>
      have hu := h s u (entered_self body s) hb
      obtain ⟨t, ht⟩ := ih u (by omega)
        (fun v w hv hw => h v w (entered_again body s u v hb hv) hw)
      exact ⟨t,by rw [loop, hb]; exact ht⟩
    | leave t => exact ⟨t,by rw [loop, hb]⟩

theorem loop_not_left (body : σ → Flow σ) (Stuck : σ → Prop)
    (h : ∀ t, Stuck t → ∃ u, body t = .again u ∧ Stuck u) (s t : σ)
    (hs : Entered body s t) (ht : Stuck t) (k : ℕ) : ∃ u, loop body k s = .again u := by
  obtain ⟨n, hn⟩ := hs
  induction k generalizing n s t with
  | zero => exact ⟨s,rfl⟩
  | succ k ih =>
    rw [loop]
    cases n with
    | zero =>
      obtain rfl : s = t := by simpa [loop] using hn
      obtain ⟨u, hu, hu'⟩ := h s ht
      simp only [hu]
      exact ih u u hu' 0 rfl
    | succ n =>
      rw [loop] at hn
      cases hb : body s with
      | again v =>
        simp only [hb] at hn ⊢
        exact ih v t ht n hn
      | leave v => simp [hb] at hn

end RexMq.FiniteRun
