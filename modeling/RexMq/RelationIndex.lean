import Mathlib.Data.List.AList
import Mathlib.Tactic.Common

/-!
# Relations kept as lists by label

A relation between values and labels is stored as one list of values for
each label. Values are told apart by a key: a value enters a list in which no
value has its key, and leaves together with all values of its key. `Indexes`
says which relation a table of lists stores; entering and leaving act on that
relation as adding and removing pairs.
-/

set_option autoImplicit false

namespace RexMq.RelationIndex

variable {α κ τ : Type*} [DecidableEq τ]

abbrev Index (τ α : Type*) := AList (fun _ : τ => List α)

def listed (m : Index τ α) (t : τ) : List α := (m.lookup t).getD []

/-- The table stores exactly the pairs of the relation, under distinct keys
and without empty lists. -/
structure Indexes (key : α → κ) (m : Index τ α) (R : α → τ → Prop) : Prop where
  distinct : ∀ t, ((listed m t).map key).Nodup
  member : ∀ t a, a ∈ listed m t ↔ R a t
  inhabited : ∀ t, t ∈ m → listed m t ≠ []

section Stored
variable (key : α → κ) (m : Index τ α) (R : α → τ → Prop)

theorem indexes_empty : Indexes key (∅ : Index τ α) (fun _ _ => False) where
  distinct := by simp [listed]
  member := by simp [listed]
  inhabited := by simp

theorem indexes_congr (h : Indexes key m R) (R' : α → τ → Prop) (hr : ∀ a t, R a t ↔ R' a t) :
    Indexes key m R' :=
  ⟨h.distinct,fun t a => (h.member t a).trans (hr a t),h.inhabited⟩

theorem indexes_key (h : Indexes key m R) (key' : α → κ) (hk : ∀ a t, R a t → key a = key' a) :
    Indexes key' m R := by
  refine ⟨fun t => ?_, h.member, h.inhabited⟩
  rw [← List.map_congr_left fun a ha => hk a t ((h.member t a).mp ha)]
  exact h.distinct t

theorem indexes_mem_iff (h : Indexes key m R) (t : τ) : t ∈ m ↔ ∃ a, R a t := by
  constructor
  · intro ht
    obtain ⟨a, ha⟩ := List.exists_mem_of_ne_nil _ (h.inhabited t ht)
    exact ⟨a,(h.member t a).mp ha⟩
  · rintro ⟨a, ha⟩
    by_contra hn
    have := (h.member t a).mpr ha
    rw [listed, AList.lookup_eq_none.mpr hn] at this
    simp at this

end Stored

variable [DecidableEq κ]

def enlist (key : α → κ) (k : κ) (a : α) (m : Index τ α) (t : τ) : Index τ α :=
  m.insert t (if (listed m t).any (fun d => key d = k) then listed m t else listed m t++[a])

/-- A list that becomes empty goes with its label. -/
def delist (key : α → κ) (k : κ) (m : Index τ α) (t : τ) : Index τ α :=
  match m.lookup t with
  | none => m
  | some ds =>
    let kept := ds.filter (fun d => key d ≠ k)
    if kept.isEmpty then m.erase t else m.insert t kept

theorem listed_enlist (key : α → κ) (k : κ) (a : α) (m : Index τ α) (t u : τ) :
    listed (enlist key k a m t) u =
      if u = t ∧ ∀ d ∈ listed m t, key d ≠ k then listed m u++[a] else listed m u := by
  by_cases hu : u = t
  · subst hu
    have hl : listed (enlist key k a m u) u =
        if (listed m u).any (fun d => key d = k) then listed m u else listed m u++[a] := by
      conv_lhs => rw [listed, enlist, AList.lookup_insert, Option.getD_some]
    rw [hl]
    by_cases hany : ∀ d ∈ listed m u, key d ≠ k
    · rw [if_neg (by simpa using hany), if_pos ⟨rfl,hany⟩]
    · rw [if_pos (by simpa using hany), if_neg (by simp [hany])]
  · rw [if_neg (by simp [hu]), listed, enlist, AList.lookup_insert_ne hu, listed]

theorem listed_delist (key : α → κ) (k : κ) (m : Index τ α) (t u : τ) :
    listed (delist key k m t) u =
      if u = t then (listed m u).filter (fun d => key d ≠ k) else listed m u := by
  unfold delist
  cases hl : m.lookup t with
  | none =>
    split_ifs with hu
    · subst hu
      simp [listed, hl]
    · rfl
  | some ds =>
    simp only [listed]
    by_cases hu : u = t
    · subst hu
      rw [if_pos rfl, hl, Option.getD_some]
      split_ifs with he
      · rw [AList.lookup_erase, List.isEmpty_iff.mp he, Option.getD_none]
      · rw [AList.lookup_insert, Option.getD_some]
    · rw [if_neg hu]
      split_ifs with he
      · rw [AList.lookup_erase_ne hu]
      · rw [AList.lookup_insert_ne hu]

theorem mem_listed_enlist (key : α → κ) (k : κ) (a d : α) (m : Index τ α) (t u : τ) :
    d ∈ listed (enlist key k a m t) u ↔
      d ∈ listed m u ∨ d = a ∧ u = t ∧ ∀ e ∈ listed m t, key e ≠ k := by
  rw [listed_enlist]
  split_ifs with h
  · simp only [List.mem_append, List.mem_singleton]
    exact or_congr_right ⟨fun hd => ⟨hd,h⟩,fun hd => hd.1⟩
  · exact ⟨Or.inl,fun hd => hd.resolve_right (fun hn => h hn.2)⟩

theorem mem_listed_delist (key : α → κ) (k : κ) (d : α) (m : Index τ α) (t u : τ) :
    d ∈ listed (delist key k m t) u ↔ d ∈ listed m u ∧ ¬ (u = t ∧ key d = k) := by
  rw [listed_delist]
  split_ifs with h
  · simp [h]
  · simp [h]

theorem mem_listed_enlists (key : α → κ) (k : κ) (a d : α) (m : Index τ α) (ts : List τ) (u : τ) :
    d ∈ listed (ts.foldl (enlist key k a) m) u ↔
      d ∈ listed m u ∨ d = a ∧ u ∈ ts ∧ ∀ e ∈ listed m u, key e ≠ k := by
  induction ts generalizing m with
  | nil => simp
  | cons t ts ih =>
    rw [List.foldl_cons, ih, mem_listed_enlist]
    by_cases hu : u = t
    · subst hu
      constructor
      · rintro ((hd | ⟨hd, -, he⟩) | ⟨hd, -, he⟩)
        · exact .inl hd
        · exact .inr ⟨hd,List.mem_cons_self,he⟩
        · exact .inr ⟨hd,List.mem_cons_self,
            fun e hm => he e ((mem_listed_enlist ..).mpr (.inl hm))⟩
      · rintro (hd | ⟨hd, -, he⟩)
        · exact .inl (.inl hd)
        · exact .inl (.inr ⟨hd,rfl,he⟩)
    · have hs : listed (enlist key k a m t) u = listed m u := by
        rw [listed_enlist, if_neg (by simp [hu])]
      simp [hu, hs]

theorem mem_listed_delists (key : α → κ) (k : κ) (d : α) (m : Index τ α) (ts : List τ) (u : τ) :
    d ∈ listed (ts.foldl (delist key k) m) u ↔ d ∈ listed m u ∧ ¬ (u ∈ ts ∧ key d = k) := by
  induction ts generalizing m with
  | nil => simp
  | cons t ts ih =>
    rw [List.foldl_cons, ih, mem_listed_delist, List.mem_cons]
    by_cases hk : key d = k <;> by_cases hu : u = t <;> simp [hk, hu]

theorem listed_delists (key : α → κ) (k : κ) (m : Index τ α) (ts : List τ) (u : τ) :
    listed (ts.foldl (delist key k) m) u =
      if u ∈ ts then (listed m u).filter (fun d => key d ≠ k) else listed m u := by
  induction ts generalizing m with
  | nil => simp
  | cons t ts ih =>
    rw [List.foldl_cons, ih, listed_delist]
    by_cases hu : u = t
    · subst hu
      by_cases hin : u ∈ ts
      · simp [hin, List.filter_filter]
      · simp [hin]
    · simp [hu]

theorem nodup_listed_enlist (key : α → κ) (k : κ) (a : α) (ha : key a = k) (m : Index τ α) (t : τ)
    (h : ∀ u, (listed m u).Nodup) (u : τ) : (listed (enlist key k a m t) u).Nodup := by
  rw [listed_enlist]
  split_ifs with hc
  · obtain ⟨rfl, hn⟩ := hc
    rw [List.nodup_append]
    refine ⟨h u,List.nodup_singleton a,?_⟩
    rintro d hd e he rfl
    rw [List.mem_singleton.mp he] at hd
    exact hn a hd ha
  · exact h u

theorem nodup_listed_enlists (key : α → κ) (k : κ) (a : α) (ha : key a = k) (ts : List τ)
    (m : Index τ α) (h : ∀ u, (listed m u).Nodup) (u : τ) :
    (listed (ts.foldl (enlist key k a) m) u).Nodup := by
  induction ts generalizing m with
  | nil => exact h u
  | cons t ts ih => exact ih _ (nodup_listed_enlist key k a ha m t h)

section Operations
variable (key : α → κ) (m : Index τ α) (R : α → τ → Prop)

theorem enlist_indexes (h : Indexes key m R) (a : α) (t : τ)
    (hu : ∀ d, R d t → key d = key a → d = a) :
    Indexes key (enlist key (key a) a m t) (fun d u => R d u ∨ d = a ∧ u = t) where
  distinct := by
    intro u
    rw [listed_enlist]
    split_ifs with hc
    · rw [List.map_append, List.nodup_append]
      refine ⟨h.distinct u, by simp, ?_⟩
      obtain ⟨rfl, hn⟩ := hc
      rintro x hx y hy rfl
      obtain ⟨d, hd, rfl⟩ := List.mem_map.mp hx
      exact hn d hd (by simpa using hy)
    · exact h.distinct u
  member := by
    intro u d
    rw [mem_listed_enlist, h.member]
    constructor
    · rintro (hd | ⟨hd, hut, -⟩)
      · exact .inl hd
      · exact .inr ⟨hd,hut⟩
    · rintro (hd | ⟨rfl, rfl⟩)
      · exact .inl hd
      · by_cases hin : R d u
        · exact .inl hin
        · refine .inr ⟨rfl,rfl,fun e he hk => hin ?_⟩
          have hr := (h.member u e).mp he
          rwa [hu e hr hk] at hr
  inhabited := by
    intro u hm
    rw [listed_enlist]
    split_ifs with hc
    · simp
    · rw [enlist, AList.mem_insert] at hm
      rcases hm with rfl | hm
      · simp only [true_and, not_forall] at hc
        obtain ⟨d, hd, -⟩ := hc
        exact List.ne_nil_of_mem hd
      · exact h.inhabited u hm

theorem delist_indexes (h : Indexes key m R) (k : κ) (t : τ) :
    Indexes key (delist key k m t) (fun d u => R d u ∧ ¬ (u = t ∧ key d = k)) where
  distinct := by
    intro u
    rw [listed_delist]
    split_ifs
    · exact (h.distinct u).sublist (List.Sublist.map key List.filter_sublist)
    · exact h.distinct u
  member := fun u d => by rw [mem_listed_delist, h.member]
  inhabited := by
    intro u hm
    rw [listed_delist]
    unfold delist at hm
    cases hl : m.lookup t with
    | none =>
      simp only [hl] at hm
      rw [if_neg]
      · exact h.inhabited u hm
      · rintro rfl
        exact AList.lookup_eq_none.mp hl hm
    | some ds =>
      have hds : listed m t = ds := by rw [listed, hl, Option.getD_some]
      simp only [hl] at hm
      by_cases hu : u = t
      · subst hu
        rw [if_pos rfl, hds]
        intro he
        rw [he, if_pos (by rfl), AList.mem_erase] at hm
        exact hm.1 rfl
      · rw [if_neg hu]
        apply h.inhabited u
        split_ifs at hm
        · exact (AList.mem_erase.mp hm).2
        · exact ((AList.mem_insert _).mp hm).resolve_left hu

theorem enlists_indexes (h : Indexes key m R) (a : α) (ts : List τ)
    (hu : ∀ d t, R d t → key d = key a → d = a) :
    Indexes key (ts.foldl (enlist key (key a) a) m) (fun d u => R d u ∨ d = a ∧ u ∈ ts) := by
  induction ts generalizing m R with
  | nil => exact indexes_congr key m R h _ (by simp)
  | cons t ts ih =>
    refine indexes_congr key _ _ (ih _ _ (enlist_indexes key m R h a t fun d => hu d t) ?_) _ ?_
    · rintro d u (hd | ⟨hd, -⟩) hk
      · exact hu d u hd hk
      · exact hd
    · intro d u
      simp only [List.mem_cons]
      tauto

theorem delists_indexes (h : Indexes key m R) (k : κ) (ts : List τ) :
    Indexes key (ts.foldl (delist key k) m) (fun d u => R d u ∧ ¬ (u ∈ ts ∧ key d = k)) := by
  induction ts generalizing m R with
  | nil => exact indexes_congr key m R h _ (by simp)
  | cons t ts ih =>
    refine indexes_congr key _ _ (ih _ _ (delist_indexes key m R h k t)) _ fun d u => ?_
    simp only [List.mem_cons]
    tauto

end Operations

end RexMq.RelationIndex
