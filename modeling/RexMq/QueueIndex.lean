import Mathlib.Algebra.BigOperators.Group.List.Basic
import Mathlib.Data.List.Nodup
import Mathlib.Logic.Function.Basic
import Mathlib.Tactic.Common

/-!
# Queues kept as an index and a table of records

Many queues share one table. The table holds the records under their keys,
and an index holds the keys of each queue in order. Two operations are enough
for all uses: a new record is put at the end of one queue, and the records of
one queue that fail a test are taken out. Both need the index and the
table only through what they answer.
-/

set_option autoImplicit false

namespace RexMq.QueueIndex

variable {κ ι μ : Type*}

/-- The two tables hold the queues, and nothing else. -/
structure Represents (key : μ → ι) (index : κ → List ι) (record : ι → Option μ)
    (q : κ → List μ) : Prop where
  index : ∀ k, index k = (q k).map key
  held : ∀ k, ∀ m ∈ q k, record (key m) = some m
  apart : ∀ j k m n, m ∈ q j → n ∈ q k → key m = key n → j = k
  nodup : ∀ k, ((q k).map key).Nodup
  only : ∀ i m, record i = some m → key m = i ∧ ∃ k, m ∈ q k

theorem read_records (key : μ → ι) (record : ι → Option μ) (p : μ → Bool) (ms : List μ)
    (h : ∀ m ∈ ms, record (key m) = some m) :
    (ms.map key).filterMap (fun i => (record i).filter p) = ms.filter p := by
  induction ms with
  | nil => rfl
  | cons m ms ih =>
    have hhead := h m List.mem_cons_self
    have hrest := ih (fun n hn => h n (List.mem_cons_of_mem m hn))
    rw [List.map_cons]
    cases hp : p m with
    | true =>
      rw [List.filterMap_cons_some (b := m) (by rw [hhead, Option.filter_some, hp]; rfl), hrest,
        List.filter_cons_of_pos hp]
    | false =>
      rw [List.filterMap_cons_none (by rw [hhead, Option.filter_some, hp]; rfl), hrest,
        List.filter_cons_of_neg (by rw [hp]; exact Bool.false_ne_true)]

section Reading
variable {key : μ → ι} {index : κ → List ι} {record : ι → Option μ} {q : κ → List μ}
variable (h : Represents key index record q)
include h

theorem Represents.read (p : μ → Bool) (k : κ) :
    (index k).filterMap (fun i => (record i).filter p) = (q k).filter p := by
  rw [h.index]
  exact read_records key record p (q k) (h.held k)

theorem Represents.same {j k : κ} {m n : μ} (hm : m ∈ q j) (hn : n ∈ q k)
    (he : key m = key n) : m = n := by
  have h₁ := h.held j m hm
  have h₂ := h.held k n hn
  rw [he, h₂] at h₁
  exact (Option.some_inj.mp h₁).symm

theorem Represents.record_iff (i : ι) (m : μ) :
    record i = some m ↔ key m = i ∧ ∃ k, m ∈ q k := by
  constructor
  · exact h.only i m
  · rintro ⟨rfl, k, hm⟩
    exact h.held k m hm

end Reading

section Operations
variable [DecidableEq κ] [DecidableEq ι]
variable {key : μ → ι} {index index' : κ → List ι} {record record' : ι → Option μ}
variable {q : κ → List μ}

omit [DecidableEq ι] in
theorem mem_push_iff (k j : κ) (m n : μ) :
    n ∈ Function.update q k (q k++[m]) j ↔ n ∈ q j ∨ j = k ∧ n = m := by
  rw [Function.update_apply]
  split_ifs with hj
  · rw [hj, List.mem_append, List.mem_singleton, and_iff_right rfl]
  · rw [or_iff_left (fun h => hj h.1)]

omit [DecidableEq ι] in
theorem mem_select_iff (k j : κ) (p : μ → Bool) (n : μ) :
    n ∈ Function.update q k ((q k).filter p) j ↔ n ∈ q j ∧ (j = k → p n = true) := by
  rw [Function.update_apply]
  split_ifs with hj
  · rw [hj, List.mem_filter, imp_iff_right rfl]
  · rw [and_iff_left (fun h => absurd h hj)]

theorem Represents.push (k : κ) (m : μ) (hfresh : ∀ j, ∀ n ∈ q j, key n ≠ key m)
    (hi : ∀ j, index' j = if j = k then index k++[key m] else index j)
    (hr : ∀ i, record' i = if i = key m then some m else record i)
    (h : Represents key index record q) :
    Represents key index' record' (Function.update q k (q k++[m])) := by
  constructor
  case index =>
    intro j
    rw [hi, Function.update_apply]
    split_ifs with hj
    · rw [h.index, List.map_append]
      rfl
    · exact h.index j
  case held =>
    intro j n hn
    rw [hr]
    rcases (mem_push_iff k j m n).mp hn with hn | ⟨-, rfl⟩
    · rw [if_neg (hfresh j n hn)]
      exact h.held j n hn
    · rw [if_pos rfl]
  case apart =>
    intro i j n n' hn hn' he
    rcases (mem_push_iff k i m n).mp hn with hold | ⟨hik, hnew⟩
    · rcases (mem_push_iff k j m n').mp hn' with hold' | ⟨-, hnew'⟩
      · exact h.apart i j n n' hold hold' he
      · exact absurd (hnew' ▸ he) (hfresh i n hold)
    · rcases (mem_push_iff k j m n').mp hn' with hold' | ⟨hjk, -⟩
      · exact absurd (hnew ▸ he.symm) (hfresh j n' hold')
      · rw [hik, hjk]
  case nodup =>
    intro j
    rw [Function.update_apply]
    split_ifs with hj
    · rw [List.map_append, List.nodup_append]
      refine ⟨h.nodup k,List.nodup_singleton _,?_⟩
      intro a ha b hb
      obtain ⟨n, hn, rfl⟩ := List.mem_map.mp ha
      rw [List.mem_singleton.mp hb]
      exact hfresh k n hn
    · exact h.nodup j
  case only =>
    intro i n hn
    rw [hr] at hn
    split_ifs at hn with hik
    · cases hn
      exact ⟨hik.symm,k,(mem_push_iff k k m m).mpr (.inr ⟨rfl,rfl⟩)⟩
    · obtain ⟨hkey, j, hj⟩ := h.only i n hn
      exact ⟨hkey,j,(mem_push_iff k j m n).mpr (.inl hj)⟩

theorem Represents.select (k : κ) (p : μ → Bool)
    (hi : ∀ j, index' j = if j = k then ((q k).filter p).map key else index j)
    (hr : ∀ i, record' i =
      if i ∈ ((q k).filter (fun m => !p m)).map key then none else record i)
    (h : Represents key index record q) :
    Represents key index' record' (Function.update q k ((q k).filter p)) := by
  constructor
  case index =>
    intro j
    rw [hi, Function.update_apply]
    split_ifs with hj
    · rfl
    · exact h.index j
  case held =>
    intro j n hn
    obtain ⟨hn, hp⟩ := (mem_select_iff k j p n).mp hn
    have hkept : key n ∉ ((q k).filter (fun m => !p m)).map key := by
      intro hc
      obtain ⟨n', hn', he⟩ := List.mem_map.mp hc
      obtain ⟨hn', hp'⟩ := List.mem_filter.mp hn'
      have hjk := h.apart k j n' n hn' hn he
      rw [h.same hn' hn he, hp hjk.symm] at hp'
      cases hp'
    rw [hr, if_neg hkept]
    exact h.held j n hn
  case apart =>
    intro i j n n' hn hn' he
    exact h.apart i j n n' ((mem_select_iff k i p n).mp hn).1 ((mem_select_iff k j p n').mp hn').1
      he
  case nodup =>
    intro j
    rw [Function.update_apply]
    split_ifs with hj
    · exact (h.nodup k).sublist (List.filter_sublist.map key)
    · exact h.nodup j
  case only =>
    intro i n hn
    rw [hr] at hn
    split_ifs at hn with hout
    obtain ⟨hkey, j, hj⟩ := h.only i n hn
    refine ⟨hkey,j,(mem_select_iff k j p n).mpr ⟨hj,fun hjk => ?_⟩⟩
    by_contra hp
    apply hout
    rw [← hkey]
    exact List.mem_map_of_mem (List.mem_filter.mpr ⟨hjk ▸ hj,by simpa using hp⟩)

omit [DecidableEq κ] in
theorem Represents.filter_head (k : κ) (m : μ) (ms : List μ) (hq : q k = m::ms)
    (h : Represents key index record q) : (q k).filter (fun n => key n ≠ key m) = ms := by
  have hnodup := h.nodup k
  rw [hq, List.map_cons, List.nodup_cons] at hnodup
  rw [hq, List.filter_cons_of_neg (by simp), List.filter_eq_self]
  intro n hn
  simp only [ne_eq, decide_eq_true_eq]
  intro he
  exact hnodup.1 (he ▸ List.mem_map_of_mem hn)

end Operations

/-- A queue that drops its head for a new entry once it is full. -/
def pushBounded (max : ℕ) (m : μ) (ms : List μ) : List μ :=
  (if max ≤ ms.length then ms.tail else ms)++[m]

theorem push_bounded_length (max : ℕ) (m : μ) (ms : List μ) (hmax : 0 < max)
    (h : ms.length ≤ max) : (pushBounded max m ms).length ≤ max := by
  unfold pushBounded
  rw [List.length_append, List.length_singleton]
  split_ifs with hfull
  · rw [List.length_tail]
    omega
  · omega

end RexMq.QueueIndex
