import Mathlib.Logic.Function.Basic
import Mathlib.Tactic.Common

/-!
# Networks of links

Parties are numbers. A connection is a pair of channels, one for each
direction, and a channel is a queue from one party to another. A message is
put into a channel, carried to the inbox of the party at the other end, and
taken from the inbox; until then it is bound for that party. The lemmas say
how each operation changes what is bound for whom.
-/

set_option autoImplicit false

namespace RexMq.LinkNetwork

structure Link (μ : Type) where
  source : ℕ
  dest : ℕ
  queue : List μ

/-- Channels that are not open carry nothing. -/
structure Network (μ : Type) where
  links : ℕ → Link μ
  opened : ℕ
  inbox : ℕ → List μ
  blank : ∀ ch, opened ≤ ch → (links ch).queue = []

namespace Network
variable {μ : Type}

def empty : Network μ := ⟨fun _ => ⟨0,0,[]⟩,0,fun _ => [],fun _ _ => rfl⟩

def connect (i j : ℕ) (n : Network μ) : Network μ where
  links := Function.update (Function.update n.links n.opened ⟨i,j,[]⟩) (n.opened+1) ⟨j,i,[]⟩
  opened := n.opened+2
  inbox := n.inbox
  blank ch h := by
    rw [Function.update_of_ne (by omega), Function.update_of_ne (by omega)]
    exact n.blank ch (by omega)

def put (ch : ℕ) (m : μ) (n : Network μ) : Network μ :=
  if h : ch < n.opened then
    { n with
      links := Function.update n.links ch { n.links ch with queue := (n.links ch).queue++[m] }
      blank := fun c hc => by
        rw [Function.update_of_ne (by omega)]
        exact n.blank c hc }
  else n

def carry (ch : ℕ) (n : Network μ) : Network μ where
  links := Function.update n.links ch { n.links ch with queue := (n.links ch).queue.tail }
  opened := n.opened
  inbox := Function.update n.inbox (n.links ch).dest
    (n.inbox (n.links ch).dest++(n.links ch).queue.head?.toList)
  blank c hc := by
    by_cases h : c = ch
    · rw [h, Function.update_self, n.blank ch (h ▸ hc)]
      rfl
    · rw [Function.update_of_ne h]
      exact n.blank c hc

def take (i : ℕ) (n : Network μ) : Network μ :=
  { n with inbox := Function.update n.inbox i (n.inbox i).tail }

def Bound (n : Network μ) (i : ℕ) (m : μ) : Prop :=
  m ∈ n.inbox i ∨ ∃ ch, (n.links ch).dest = i ∧ m ∈ (n.links ch).queue

section Ends
variable (n : Network μ) (ch c : ℕ) (m : μ)

theorem opened_of_mem (h : m ∈ (n.links ch).queue) : ch < n.opened := by
  by_contra hn
  rw [n.blank ch (Nat.le_of_not_lt hn)] at h
  cases h

@[simp] theorem opened_put : (n.put ch m).opened = n.opened := by
  unfold put
  split_ifs <;> rfl

@[simp] theorem inbox_put : (n.put ch m).inbox = n.inbox := by
  unfold put
  split_ifs <;> rfl

theorem link_put (h : ch < n.opened) :
    (n.put ch m).links c =
      if c = ch then { n.links ch with queue := (n.links ch).queue++[m] } else n.links c := by
  rw [put, dif_pos h]
  exact Function.update_apply _ _ _ _

@[simp] theorem source_put : ((n.put ch m).links c).source = (n.links c).source := by
  by_cases h : ch < n.opened
  · rw [link_put n ch c m h]
    split_ifs with hc
    · rw [hc]
    · rfl
  · rw [put, dif_neg h]

@[simp] theorem dest_put : ((n.put ch m).links c).dest = (n.links c).dest := by
  by_cases h : ch < n.opened
  · rw [link_put n ch c m h]
    split_ifs with hc
    · rw [hc]
    · rfl
  · rw [put, dif_neg h]

theorem link_carry :
    (n.carry ch).links c =
      if c = ch then { n.links ch with queue := (n.links ch).queue.tail } else n.links c :=
  Function.update_apply _ _ _ _

@[simp] theorem source_carry : ((n.carry ch).links c).source = (n.links c).source := by
  rw [link_carry]
  split_ifs with hc
  · rw [hc]
  · rfl

@[simp] theorem dest_carry : ((n.carry ch).links c).dest = (n.links c).dest := by
  rw [link_carry]
  split_ifs with hc
  · rw [hc]
  · rfl

theorem link_connect_old (i j : ℕ) (h : c < n.opened) : (n.connect i j).links c = n.links c := by
  show Function.update (Function.update n.links _ _) _ _ c = _
  rw [Function.update_of_ne (by omega), Function.update_of_ne (by omega)]

theorem link_connect_out (i j : ℕ) : (n.connect i j).links n.opened = ⟨i,j,[]⟩ := by
  show Function.update (Function.update n.links _ _) _ _ n.opened = _
  rw [Function.update_of_ne (by omega), Function.update_self]

theorem link_connect_back (i j : ℕ) : (n.connect i j).links (n.opened+1) = ⟨j,i,[]⟩ :=
  Function.update_self _ _ _

end Ends

/-- The same channels between the same parties. -/
structure SameEnds (n n' : Network μ) : Prop where
  opened : n'.opened = n.opened
  source : ∀ c, (n'.links c).source = (n.links c).source
  dest : ∀ c, (n'.links c).dest = (n.links c).dest

theorem same_ends_put (n : Network μ) (ch : ℕ) (m : μ) : SameEnds n (n.put ch m) :=
  ⟨opened_put n ch m,fun c => source_put n ch c m,fun c => dest_put n ch c m⟩

theorem same_ends_carry (n : Network μ) (ch : ℕ) : SameEnds n (n.carry ch) :=
  ⟨rfl,source_carry n ch,dest_carry n ch⟩

theorem same_ends_take (n : Network μ) (i : ℕ) : SameEnds n (n.take i) :=
  ⟨rfl,fun _ => rfl,fun _ => rfl⟩

section Binding
variable (n : Network μ) (ch k : ℕ) (m m' : μ)

theorem queue_connect (i j c : ℕ) : ((n.connect i j).links c).queue = (n.links c).queue := by
  by_cases h : c < n.opened
  · rw [link_connect_old n c i j h]
  · rw [n.blank c (by omega)]
    by_cases h₀ : c = n.opened
    · rw [h₀, link_connect_out]
    · by_cases h₁ : c = n.opened+1
      · rw [h₁, link_connect_back]
      · exact (n.connect i j).blank c (by show n.opened+2 ≤ c; omega)

theorem bound_connect (i j : ℕ) : Bound (n.connect i j) k m ↔ Bound n k m := by
  apply or_congr Iff.rfl
  apply exists_congr
  intro c
  rw [queue_connect]
  by_cases h : c < n.opened
  · rw [link_connect_old n c i j h]
  · rw [n.blank c (by omega)]
    simp

theorem bound_put (h : ch < n.opened) :
    Bound (n.put ch m) k m' ↔ Bound n k m' ∨ (k = (n.links ch).dest ∧ m' = m) := by
  unfold Bound
  rw [inbox_put, or_assoc]
  apply or_congr Iff.rfl
  constructor
  · rintro ⟨c, hd, hm⟩
    rw [dest_put] at hd
    rw [link_put n ch c m h] at hm
    split_ifs at hm with hc
    · rw [List.mem_append, List.mem_singleton] at hm
      rcases hm with hm | hm
      · exact .inl ⟨ch,hc ▸ hd,hm⟩
      · exact .inr ⟨hc ▸ hd.symm,hm⟩
    · exact .inl ⟨c,hd,hm⟩
  · rintro (⟨c, hd, hm⟩ | ⟨hk, hm⟩)
    · refine ⟨c,by rw [dest_put, hd],?_⟩
      rw [link_put n ch c m h]
      split_ifs with hc
      · exact List.mem_append_left _ (hc ▸ hm)
      · exact hm
    · refine ⟨ch,by rw [dest_put, hk],?_⟩
      rw [link_put n ch ch m h, if_pos rfl]
      exact List.mem_append_right _ (List.mem_singleton.mpr hm)

theorem mem_head_or_tail (q : List μ) : m ∈ q ↔ m ∈ q.head?.toList ∨ m ∈ q.tail := by
  cases q with
  | nil => simp
  | cons a q => simp

theorem mem_inbox_carry :
    m ∈ (n.carry ch).inbox k ↔
      m ∈ n.inbox k ∨ (k = (n.links ch).dest ∧ m ∈ (n.links ch).queue.head?.toList) := by
  show m ∈ Function.update n.inbox _ _ k ↔ _
  rw [Function.update_apply]
  split_ifs with hk
  · rw [List.mem_append, hk]
    simp
  · simp [hk]

theorem bound_carry : Bound (n.carry ch) k m ↔ Bound n k m := by
  unfold Bound
  rw [mem_inbox_carry, or_assoc]
  apply or_congr Iff.rfl
  constructor
  · rintro (⟨hk, hm⟩ | ⟨c, hd, hm⟩)
    · exact ⟨ch,hk.symm,(mem_head_or_tail m _).mpr (.inl hm)⟩
    · rw [dest_carry] at hd
      rw [link_carry] at hm
      split_ifs at hm with hc
      · exact ⟨ch,hc ▸ hd,(mem_head_or_tail m _).mpr (.inr hm)⟩
      · exact ⟨c,hd,hm⟩
  · rintro ⟨c, hd, hm⟩
    by_cases hc : c = ch
    · rw [hc] at hd hm
      rcases (mem_head_or_tail m _).mp hm with hm | hm
      · exact .inl ⟨hd.symm,hm⟩
      · refine .inr ⟨ch,by rw [dest_carry, hd],?_⟩
        rw [link_carry, if_pos rfl]
        exact hm
    · refine .inr ⟨c,by rw [dest_carry, hd],?_⟩
      rw [link_carry, if_neg hc]
      exact hm

theorem inbox_take (i : ℕ) :
    (n.take i).inbox k = if k = i then (n.inbox i).tail else n.inbox k :=
  Function.update_apply _ _ _ _

theorem bound_of_take (i : ℕ) (h : Bound (n.take i) k m) : Bound n k m := by
  rcases h with h | h
  · left
    rw [inbox_take] at h
    split_ifs at h with hk
    · rw [hk]
      exact List.mem_of_mem_tail h
    · exact h
  · exact .inr h

theorem bound_take_or (i : ℕ) (h : Bound n k m) :
    Bound (n.take i) k m ∨ (k = i ∧ (n.inbox i).head? = some m) := by
  rcases h with h | h
  · by_cases hk : k = i
    · rw [hk] at h
      rcases (mem_head_or_tail m _).mp h with hm | hm
      · exact .inr ⟨hk,by simpa using hm⟩
      · left
        left
        rw [inbox_take, if_pos hk]
        exact hm
    · left
      left
      rw [inbox_take, if_neg hk]
      exact h
  · exact .inl (.inr h)

end Binding
end Network
end RexMq.LinkNetwork
