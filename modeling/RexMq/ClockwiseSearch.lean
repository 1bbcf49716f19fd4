import Mathlib.Data.List.Perm.Basic
import Mathlib.Data.List.Rotate
import Mathlib.Tactic.Common

/-!
# Positions on a circle

Entries stand at positions of a linear order that is closed to a circle. The
first position at or after a point is unique and stays first when others are
taken away. A walk goes from position to position and takes at each the first
entry whose owner it has not met; one lap that visits a position as often as
it has entries meets every owner, whichever of several entries at one
position came first.
-/

set_option autoImplicit false

namespace RexMq.ClockwiseSearch

section Successor
variable {α : Type*} [LE α] [LT α] [Std.IsLinearOrder α] [Std.LawfulOrderLT α]
variable {S T : α → Prop} {h x y : α}

/-- The smallest position that is not before `h`, or the smallest of all if
every position is before `h`. -/
def Clockwise (S : α → Prop) (h x : α) : Prop :=
  S x ∧ ((h ≤ x ∧ ∀ y, S y → h ≤ y → x ≤ y) ∨ ((∀ y, S y → y < h) ∧ ∀ y, S y → x ≤ y))

theorem clockwise_unique (hx : Clockwise S h x) (hy : Clockwise S h y) : x = y := by
  obtain ⟨hxS, hx⟩ := hx
  obtain ⟨hyS, hy⟩ := hy
  rcases hx with ⟨hle, hmin⟩ | ⟨hall, hmin⟩
  · rcases hy with ⟨hle', hmin'⟩ | ⟨hall', -⟩
    · exact Std.le_antisymm (hmin y hyS hle') (hmin' x hxS hle)
    · exact absurd hle (Std.not_le.mpr (hall' x hxS))
  · rcases hy with ⟨hle', -⟩ | ⟨-, hmin'⟩
    · exact absurd hle' (Std.not_le.mpr (hall y hyS))
    · exact Std.le_antisymm (hmin y hyS) (hmin' x hxS)

omit [Std.IsLinearOrder α] [Std.LawfulOrderLT α] in
theorem clockwise_restrict (hST : ∀ y, S y → T y) (hT : Clockwise T h x) (hx : S x) :
    Clockwise S h x := by
  refine ⟨hx,hT.2.imp ?_ ?_⟩
  · exact fun ⟨hle, hmin⟩ => ⟨hle,fun y hy => hmin y (hST y hy)⟩
  · exact fun ⟨hall, hmin⟩ => ⟨fun y hy => hall y (hST y hy),fun y hy => hmin y (hST y hy)⟩

end Successor

section Owner
variable {α ν : Type*} [DecidableEq α] (entries : List (α × ν)) (h : α)

def owner : Option ν := (entries.find? (fun e => e.1 = h)).map Prod.snd

theorem owner_mem (n : ν) (ho : owner entries h = some n) : (h,n) ∈ entries := by
  unfold owner at ho
  obtain ⟨e, he, rfl⟩ := Option.map_eq_some_iff.mp ho
  have hh : e.1 = h := by simpa using List.find?_some he
  rw [← hh]
  exact List.mem_of_find?_eq_some he

theorem owner_isSome (n : ν) (he : (h,n) ∈ entries) : ∃ m, owner entries h = some m := by
  have hsome : (entries.find? (fun e => decide (e.1 = h))).isSome :=
    List.find?_isSome.mpr ⟨_,he,decide_eq_true rfl⟩
  obtain ⟨e, hfind⟩ := Option.isSome_iff_exists.mp hsome
  refine ⟨e.2,?_⟩
  rw [owner, hfind, Option.map_some]

theorem owner_append (more : List (α × ν)) (n : ν) (he : (h,n) ∈ entries) :
    owner (entries++more) h = owner entries h := by
  obtain ⟨m, hm⟩ := owner_isSome entries h n he
  obtain ⟨e, hfind, -⟩ := Option.map_eq_some_iff.mp hm
  rw [owner, owner, List.find?_append, hfind, Option.some_or]

theorem owner_filter (keep : α × ν → Bool) (n : ν) (ho : owner entries h = some n)
    (hk : keep (h,n) = true) : owner (entries.filter keep) h = some n := by
  induction entries with
  | nil => cases ho
  | cons e rest ih =>
    unfold owner at ho ih ⊢
    by_cases hh : e.1 = h
    · rw [List.find?_cons_of_pos (by simpa using hh), Option.map_some, Option.some.injEq] at ho
      have hen : e = (h,n) := Prod.ext hh ho
      rw [List.filter_cons_of_pos (by rw [hen, hk]), List.find?_cons_of_pos (by simpa using hh),
        Option.map_some, ho]
    · rw [List.find?_cons_of_neg (by simpa using hh)] at ho
      by_cases hkeep : keep e = true
      · rw [List.filter_cons_of_pos hkeep, List.find?_cons_of_neg (by simpa using hh)]
        exact ih ho
      · rw [List.filter_cons_of_neg hkeep]
        exact ih ho

theorem owner_perm (others : List (α × ν)) (hperm : entries.Perm others)
    (hone : ∀ g m n, (g,m) ∈ entries → (g,n) ∈ entries → m = n) :
    owner entries h = owner others h := by
  cases ho : owner entries h with
  | none =>
    cases hother : owner others h with
    | none => rfl
    | some n =>
      have hmem := hperm.mem_iff.mpr (owner_mem others h n hother)
      obtain ⟨m, hm⟩ := owner_isSome entries h n hmem
      rw [ho] at hm
      cases hm
  | some m =>
    have hmem := owner_mem entries h m ho
    obtain ⟨n, hn⟩ := owner_isSome others h m (hperm.mem_iff.mp hmem)
    rw [hn, hone h m n hmem (hperm.mem_iff.mpr (owner_mem others h n hn))]

end Owner

section Walk
variable {α ν : Type*} [DecidableEq α] [DecidableEq ν] (entries : List (α × ν))

/-- At a position, the owner of the first entry that is not yet met. -/
def visit (met : List ν) (h : α) : List ν :=
  match entries.find? (fun e => e.1 = h ∧ e.2 ∉ met) with
  | some e => met++[e.2]
  | none => met

def lap (hs : List α) : List ν := hs.foldl (visit entries) []

theorem visit_cases (met : List ν) (h : α) :
    (visit entries met h = met ∧ ∀ e ∈ entries, e.1 = h → e.2 ∈ met) ∨
      ∃ e ∈ entries, e.1 = h ∧ e.2 ∉ met ∧ visit entries met h = met++[e.2] := by
  unfold visit
  cases hf : entries.find? (fun e => decide (e.1 = h ∧ e.2 ∉ met)) with
  | none =>
    left
    refine ⟨rfl,fun e he hh => ?_⟩
    by_contra hn
    have hnone := List.find?_eq_none.mp hf e he
    exact hnone (decide_eq_true ⟨hh,hn⟩)
  | some e =>
    right
    have hp : e.1 = h ∧ e.2 ∉ met := by simpa using List.find?_some hf
    exact ⟨e,List.mem_of_find?_eq_some hf,hp.1,hp.2,rfl⟩

theorem prefix_visit (met : List ν) (h : α) : met <+: visit entries met h := by
  rcases visit_cases entries met h with ⟨he, -⟩ | ⟨e, -, -, -, he⟩
  · rw [he]
  · rw [he]
    exact List.prefix_append met [e.2]

theorem length_visit_le (met : List ν) (h : α) :
    (visit entries met h).length ≤ met.length+1 := by
  rcases visit_cases entries met h with ⟨he, -⟩ | ⟨e, -, -, -, he⟩
  · rw [he]
    exact Nat.le_succ _
  · rw [he, List.length_append, List.length_singleton]

theorem prefix_visits (hs : List α) (met : List ν) : met <+: hs.foldl (visit entries) met := by
  induction hs generalizing met with
  | nil => exact List.prefix_refl met
  | cons h hs ih => exact (prefix_visit entries met h).trans (ih _)

theorem nodup_visits (hs : List α) (met : List ν) (hn : met.Nodup) :
    (hs.foldl (visit entries) met).Nodup := by
  induction hs generalizing met with
  | nil => exact hn
  | cons h hs ih =>
    apply ih
    rcases visit_cases entries met h with ⟨he, -⟩ | ⟨e, -, -, hnew, he⟩
    · rwa [he]
    · rw [he]
      apply hn.append (List.nodup_singleton _)
      rw [List.disjoint_singleton]
      exact hnew

theorem owner_of_visits (hs : List α) (met : List ν) (n : ν)
    (hn : n ∈ hs.foldl (visit entries) met) : n ∈ met ∨ ∃ h ∈ hs, (h,n) ∈ entries := by
  induction hs generalizing met with
  | nil => exact .inl hn
  | cons h hs ih =>
    rcases ih _ hn with hin | ⟨h', hh', hin⟩
    · rcases visit_cases entries met h with ⟨he, -⟩ | ⟨e, hentry, hh, -, he⟩
      · rw [he] at hin
        exact .inl hin
      · rw [he, List.mem_append, List.mem_singleton] at hin
        rcases hin with hin | rfl
        · exact .inl hin
        · refine .inr ⟨h,List.mem_cons_self,?_⟩
          rw [← hh]
          exact hentry
    · exact .inr ⟨h',List.mem_cons_of_mem h hh',hin⟩

theorem visit_perm (others : List (α × ν)) (hperm : entries.Perm others)
    (hone : ∀ g m n, (g,m) ∈ entries → (g,n) ∈ entries → m = n) (met : List ν) (h : α) :
    visit entries met h = visit others met h := by
  rcases visit_cases entries met h with ⟨he, hall⟩ | ⟨⟨g, m⟩, hentry, rfl, hnew, he⟩
  · rcases visit_cases others met h with ⟨ho, -⟩ | ⟨d, hd, hh, hn, -⟩
    · rw [he, ho]
    · exact absurd (hall d (hperm.mem_iff.mpr hd) hh) hn
  · rcases visit_cases others met g with ⟨-, hall⟩ | ⟨⟨f, n⟩, hd, hh, -, ho⟩
    · exact absurd (hall (g,m) (hperm.mem_iff.mp hentry) rfl) hnew
    · have hh : f = g := hh
      subst hh
      rw [he, ho, hone f m n hentry (hperm.mem_iff.mpr hd)]

def unmet (h : α) (met : List ν) : ℕ :=
  entries.countP (fun e => decide (e.1 = h ∧ e.2 ∉ met))

theorem unmet_of_subset (h : α) (met more : List ν) (hsub : met ⊆ more) :
    unmet entries h more ≤ unmet entries h met := by
  apply List.countP_mono_left
  intro e _ he
  have hp := of_decide_eq_true he
  exact decide_eq_true ⟨hp.1,fun hin => hp.2 (hsub hin)⟩

theorem unmet_visit_le (h g : α) (met : List ν) :
    unmet entries h (visit entries met g) ≤ unmet entries h met :=
  unmet_of_subset entries h met _ (prefix_visit entries met g).subset

theorem unmet_visit_self (h : α) (met : List ν) :
    unmet entries h (visit entries met h) ≤ unmet entries h met-1 := by
  rcases visit_cases entries met h with ⟨he, hall⟩ | ⟨e, hentry, hh, hnew, he⟩
  · have hzero : unmet entries h met = 0 := by
      apply List.countP_eq_zero.mpr
      intro e hentry hp
      have hp := of_decide_eq_true hp
      exact hp.2 (hall e hentry hp.1)
    rw [he, hzero]
  · have hlt : unmet entries h (visit entries met h) < unmet entries h met := by
      obtain ⟨before, after, hsplit⟩ := List.append_of_mem hentry
      have hsub := (prefix_visit entries met h).subset
      have hgone : e.2 ∈ visit entries met h := by
        rw [he]
        exact List.mem_append_right _ (List.mem_singleton_self _)
      have hbefore := unmet_of_subset before h met _ hsub
      have hafter := unmet_of_subset after h met _ hsub
      unfold unmet at hbefore hafter ⊢
      have hcount := fun p : α × ν → Bool => congrArg (List.countP p) hsplit
      rw [hcount, hcount, List.countP_append, List.countP_append,
        List.countP_cons_of_neg (by simp [hgone]), List.countP_cons_of_pos (by simp [hh, hnew])]
      omega
    omega

theorem unmet_visits (h : α) (hs : List α) (met : List ν) :
    unmet entries h (hs.foldl (visit entries) met) ≤ unmet entries h met-hs.count h := by
  induction hs generalizing met with
  | nil => exact Nat.le_refl _
  | cons g hs ih =>
    rw [List.foldl_cons, List.count_cons]
    have hrest := ih (visit entries met g)
    by_cases hg : g = h
    · subst hg
      have hself := unmet_visit_self entries g met
      simp only [beq_self_eq_true, if_true]
      omega
    · have hother := unmet_visit_le entries h g met
      simp only [beq_iff_eq, hg, if_false]
      omega

theorem lap_complete (hs : List α) (hperm : hs.Perm (entries.map Prod.fst)) (e : α × ν)
    (he : e ∈ entries) : e.2 ∈ lap entries hs := by
  have hle := unmet_visits entries e.1 hs []
  have hcount : unmet entries e.1 [] ≤ hs.count e.1 := by
    rw [hperm.count_eq, List.count, List.countP_map]
    apply List.countP_mono_left
    intro d _ hd
    have hd := of_decide_eq_true hd
    simp [hd.1]
  have hzero : unmet entries e.1 (lap entries hs) = 0 := by
    unfold lap
    omega
  by_contra hn
  exact List.countP_eq_zero.mp hzero e he (decide_eq_true ⟨rfl,hn⟩)

end Walk

end RexMq.ClockwiseSearch
