import Mathlib.Data.List.Basic
import Mathlib.Tactic.Common

/-!
# Programs cut short by a failing operation

A program is a sequence of operations on a shared state, each of which can
fail without an effect; the first failure ends the program and the state
stays as the operations before it left it. A run is given the number of
operations that succeed. `Traces` lists the states after each operation of
the complete run, and from that list every shortened run can be read off;
traces are composed as programs are.
-/

set_option autoImplicit false

namespace RexMq.FailingOps

variable {σ ε α β : Type}

/-- The state is kept when the program fails. -/
abbrev Prog (σ ε α : Type) := ExceptT ε (StateM (ℕ × σ)) α

def Prog.runWith (x : Prog σ ε α) (n : ℕ) (s : σ) : Except ε α × ℕ × σ := x.run.run (n,s)

/-- One operation: an effect, or the failure once no successes are left. -/
def op (e : ε) (f : σ → α × σ) : Prog σ ε α :=
  ExceptT.mk (fun r => match r with
    | (0,s) => (.error e,(0,s))
    | (n+1,s) => (.ok (f s).1,(n,(f s).2)))

def after (s : σ) : List σ → ℕ → σ
  | [], _ => s
  | _::_, 0 => s
  | u::t, n+1 => after u t n

/-- From `s` the program goes through the states `t` and returns `a`; given
fewer successes it fails in the state they lead to. -/
structure Traces (e : ε) (x : Prog σ ε α) (s : σ) (a : α) (t : List σ) : Prop where
  run : ∀ n, x.runWith n s =
    if n < t.length then (.error e,(0,after s t n)) else (.ok a,(n-t.length,after s t t.length))

theorem after_append (s : σ) (t u : List σ) (n : ℕ) :
    after s (t++u) n =
      if n < t.length then after s t n else after (after s t t.length) u (n-t.length) := by
  induction t generalizing s n with
  | nil => rfl
  | cons v t ih =>
    cases n with
    | zero => rfl
    | succ n =>
      rw [List.cons_append, after, ih]
      simp only [List.length_cons, Nat.add_lt_add_iff_right, Nat.add_sub_add_right, after]

theorem traces_op (e : ε) (f : σ → α × σ) (s : σ) : Traces e (op e f) s (f s).1 [(f s).2] := by
  refine ⟨fun n => ?_⟩
  cases n with
  | zero => rfl
  | succ n => rfl

theorem traces_pure (e : ε) (a : α) (s : σ) : Traces e (pure a) s a [] := ⟨fun _ => rfl⟩

theorem run_bind (x : Prog σ ε α) (g : α → Prog σ ε β) (n : ℕ) (s : σ) :
    (x >>= g).runWith n s = match x.runWith n s with
      | (.ok a,r) => (g a).runWith r.1 r.2
      | (.error e,r) => (.error e,r) := by
  unfold Prog.runWith
  rw [ExceptT.run_bind, StateT.run_bind]
  rcases x.run.run (n,s) with ⟨_ | a, r⟩
  · rfl
  · rfl

theorem traces_bind (e : ε) (x : Prog σ ε α) (g : α → Prog σ ε β) (s : σ) (a : α) (b : β)
    (t u : List σ) (hx : Traces e x s a t) (hg : Traces e (g a) (after s t t.length) b u) :
    Traces e (x >>= g) s b (t++u) := by
  refine ⟨fun n => ?_⟩
  rw [run_bind, hx.run, List.length_append]
  by_cases hn : n < t.length
  · rw [if_pos hn, if_pos (by omega), after_append, if_pos hn]
  · have hlast : after s (t++u) (t.length+u.length) = after (after s t t.length) u u.length := by
      rw [after_append, if_neg (by omega), Nat.add_sub_cancel_left]
    rw [if_neg hn]
    dsimp only
    rw [hg.run, hlast, after_append, if_neg hn, Nat.sub_sub]
    by_cases hm : n < t.length+u.length
    · rw [if_pos hm, if_pos (by omega)]
    · rw [if_neg hm, if_neg (by omega)]

end RexMq.FailingOps
