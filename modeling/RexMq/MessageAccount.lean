import Mathlib.Data.List.Count
import Mathlib.Data.Set.Function
import Mathlib.Tactic.Common

/-!
# The account of one acknowledged message

A publisher sends a message to a hub, the hub sends copies to targets, every
target acknowledges its copy to the hub, and the hub passes the first
acknowledgement on to the publisher. The account of the message says what is
on its way and what has arrived. An account is balanced when it is that of a
message somewhere on this path; when nothing is on its way any more, every
copy has arrived and the publisher has been told exactly once.
-/

set_option autoImplicit false

namespace RexMq.MessageAccount

/-- `waiting` says who awaits an acknowledgement, and `owed` to whom the hub
still owes one. -/
structure Account (ι κ φ : Type*) where
  published : ι → List φ
  upMessages : ι → List φ
  copies : ι → ℕ
  downMessages : ι → ℕ
  heard : ι → ℕ
  upAcks : ι → ℕ
  owed : Option κ
  downReturns : ι → ℕ
  told : ι → ℕ
  waiting : ι → Bool

/-- The hub's step on an acknowledgement names the party it answers. -/
inductive Turn (ι φ : Type*) where
  | publish (a : ι) (f : φ)
  | serve (a : ι) (targets : List ι)
  | hear (c : ι)
  | acknowledge (c : ι) (back : Option ι)
  | tell (a : ι)

variable {ι κ φ : Type*} [DecidableEq ι]

def raise (g : ι → ℕ) (i : ι) : ι → ℕ := Function.update g i (g i+1)

def lower (g : ι → ℕ) (i : ι) : ι → ℕ := Function.update g i (g i-1)

def turn (name : ι → κ) (x : Account ι κ φ) : Turn ι φ → Account ι κ φ
  | .publish a f =>
    { x with
      published := Function.update x.published a (x.published a++[f])
      upMessages := Function.update x.upMessages a (x.upMessages a++[f])
      waiting := Function.update x.waiting a true }
  | .serve a targets =>
    { x with
      upMessages := Function.update x.upMessages a (x.upMessages a).tail
      copies := fun c => x.copies c+targets.count c
      downMessages := fun c => x.downMessages c+targets.count c
      owed := some (name a) }
  | .hear c =>
    { x with
      downMessages := lower x.downMessages c
      heard := raise x.heard c
      upAcks := raise x.upAcks c }
  | .acknowledge c back =>
    { x with
      upAcks := lower x.upAcks c
      owed := none
      downReturns := fun a => x.downReturns a+if back = some a then 1 else 0 }
  | .tell a =>
    { x with
      downReturns := lower x.downReturns a
      told := raise x.told a
      waiting := Function.update x.waiting a false }

/-- What is on its way is there to be handled; a new message comes from one of
the parties and has not been published before; a message that is not `wide`
has one target; and the hub answers the party it owes. -/
def Enabled (parties : Set ι) (name : ι → κ) (wide : φ → Prop) (x : Account ι κ φ) :
    Turn ι φ → Prop
  | .publish a _ => a ∈ parties ∧ ∀ c, x.published c = []
  | .serve a targets => ∃ f rest, x.upMessages a = f::rest ∧ targets ≠ [] ∧
      (¬ wide f → targets.length = 1)
  | .hear c => 0 < x.downMessages c
  | .acknowledge c back => 0 < x.upAcks c ∧ back.map name = x.owed ∧ ∀ b ∈ back, b ∈ parties
  | .tell a => 0 < x.downReturns a

def fresh : Account ι κ φ :=
  ⟨fun _ => [],fun _ => [],fun _ => 0,fun _ => 0,fun _ => 0,fun _ => 0,none,fun _ => 0,
    fun _ => 0,fun _ => false⟩

def sent (a : ι) (f : φ) : Account ι κ φ :=
  { (fresh : Account ι κ φ) with
    published := Function.update (fun _ => []) a [f]
    upMessages := Function.update (fun _ => []) a [f]
    waiting := Function.update (fun _ => false) a true }

/-- Until the hub has an acknowledgement it owes the publisher one and none
is on its way back; from then on there is exactly one return. -/
inductive Owing (name : ι → κ) (a : ι) (x : Account ι κ φ) : Prop
  | awaited : x.owed = some (name a) → (∀ c, x.upAcks c = x.heard c) → x.downReturns a = 0 →
      x.told a = 0 → x.waiting a = true → Owing name a x
  | settled : x.owed = none → (∃ c, 0 < x.heard c) → x.downReturns a+x.told a = 1 →
      (x.waiting a = true ↔ x.told a = 0) → Owing name a x

structure Served (name : ι → κ) (wide : φ → Prop) (a : ι) (f : φ) (x : Account ι κ φ) : Prop where
  published : x.published = Function.update (fun _ => []) a [f]
  upMessages : ∀ c, x.upMessages c = []
  reached : ∃ c, 0 < x.copies c
  single : ¬ wide f → ∃ c, ∀ d, x.copies d = if d = c then 1 else 0
  copies : ∀ c, x.downMessages c+x.heard c = x.copies c
  acks : ∀ c, x.upAcks c ≤ x.heard c
  others : ∀ c, c ≠ a → x.downReturns c = 0 ∧ x.told c = 0 ∧ x.waiting c = false
  owing : Owing name a x

inductive Balanced (parties : Set ι) (name : ι → κ) (wide : φ → Prop) (x : Account ι κ φ) : Prop
  | fresh : x = MessageAccount.fresh → Balanced parties name wide x
  | sent (a : ι) (f : φ) : a ∈ parties → x = MessageAccount.sent a f → Balanced parties name wide x
  | served (a : ι) (f : φ) : a ∈ parties → Served name wide a f x → Balanced parties name wide x

section Steps
variable {parties : Set ι} {name : ι → κ} {wide : φ → Prop} {x : Account ι κ φ} {a : ι} {f : φ}

theorem raise_apply (g : ι → ℕ) (i j : ι) : raise g i j = g j+if j = i then 1 else 0 := by
  unfold raise
  by_cases h : j = i
  · subst h
    simp
  · simp [h]

theorem lower_apply (g : ι → ℕ) (i j : ι) : lower g i j = g j-if j = i then 1 else 0 := by
  unfold lower
  by_cases h : j = i
  · subst h
    simp
  · simp [h]

theorem publish_fresh : turn name (fresh : Account ι κ φ) (.publish a f) = sent a f := by
  simp [turn, sent, fresh]

theorem serve_sent (targets : List ι) (hne : targets ≠ [])
    (hone : ¬ wide f → targets.length = 1) :
    Served name wide a f (turn name (sent a f) (.serve a targets)) where
  published := rfl
  upMessages := by
    intro c
    simp only [turn, sent, Function.update_self, List.tail_cons, Function.update_idem]
    by_cases h : c = a
    · simp [h]
    · simp [h]
  reached := by
    obtain ⟨c, hc⟩ := List.exists_mem_of_ne_nil targets hne
    exact ⟨c,by simpa [turn, sent, fresh] using List.count_pos_iff.mpr hc⟩
  single := by
    intro hw
    obtain ⟨c, rfl⟩ := List.length_eq_one_iff.mp (hone hw)
    refine ⟨c,fun d => ?_⟩
    by_cases h : d = c
    · simp [turn, sent, fresh, h]
    · simp [turn, sent, fresh, h, List.count_singleton, Ne.symm h]
  copies := by simp [turn, sent, fresh]
  acks := by simp [turn, sent, fresh]
  others := by
    intro c hc
    simp [turn, sent, fresh, hc]
  owing := .awaited rfl (fun _ => rfl) rfl rfl (by simp [turn, sent])

theorem Served.hear (h : Served name wide a f x) (c : ι) (hc : 0 < x.downMessages c) :
    Served name wide a f (turn name x (.hear c)) where
  published := h.published
  upMessages := h.upMessages
  reached := h.reached
  single := h.single
  copies := by
    intro d
    have := h.copies d
    simp only [turn, lower_apply, raise_apply]
    split_ifs with hd
    · subst hd
      omega
    · omega
  acks := by
    intro d
    have := h.acks d
    simp only [turn, raise_apply]
    omega
  others := h.others
  owing := by
    cases h.owing with
    | awaited ho hacks hr ht hw =>
      exact .awaited ho (fun d => by simp only [turn, raise_apply, hacks d]) hr ht hw
    | settled ho hheard hr hw =>
      obtain ⟨d, hd⟩ := hheard
      exact .settled ho ⟨d,by simp only [turn, raise_apply]; omega⟩ hr hw

theorem Served.acknowledge (hname : Set.InjOn name parties) (h : Served name wide a f x)
    (ha : a ∈ parties) (c : ι) (back : Option ι) (hc : 0 < x.upAcks c)
    (hb : back.map name = x.owed) (hp : ∀ b ∈ back, b ∈ parties) :
    Served name wide a f (turn name x (.acknowledge c back)) := by
  have hback : ∀ d, d ≠ a → back ≠ some d := by
    rintro d hd rfl
    cases h.owing with
    | awaited ho _ _ _ _ =>
      rw [ho] at hb
      exact hd (hname (hp d rfl) ha (Option.some.inj hb))
    | settled ho _ _ _ =>
      rw [ho] at hb
      cases hb
  refine ⟨h.published,h.upMessages,h.reached,h.single,h.copies,?_,?_,?_⟩
  · intro d
    have := h.acks d
    simp only [turn, lower_apply]
    omega
  · intro d hd
    obtain ⟨hr, ht, hw⟩ := h.others d hd
    refine ⟨?_,ht,hw⟩
    simp only [turn, hr, if_neg (hback d hd)]
  · have hheard : ∃ d, 0 < x.heard d := ⟨c,Nat.lt_of_lt_of_le hc (h.acks c)⟩
    cases h.owing with
    | awaited ho _ hr ht hw =>
      rw [ho] at hb
      obtain ⟨b, rfl, hba⟩ := Option.map_eq_some_iff.mp hb
      obtain rfl := hname (hp b rfl) ha hba
      exact .settled rfl hheard (by simp [turn, hr, ht]) (by simp [turn, hw, ht])
    | settled ho _ hr hw =>
      rw [ho] at hb
      obtain rfl := Option.map_eq_none_iff.mp hb
      exact .settled rfl hheard (by simpa [turn] using hr) hw

theorem Served.tell (h : Served name wide a f x) (b : ι) (hb : 0 < x.downReturns b) :
    Served name wide a f (turn name x (.tell b)) := by
  have hba : b = a := by
    by_contra hne
    have := (h.others b hne).1
    omega
  subst hba
  refine ⟨h.published,h.upMessages,h.reached,h.single,h.copies,h.acks,?_,?_⟩
  · intro d hd
    obtain ⟨hr, ht, hw⟩ := h.others d hd
    simp [turn, lower_apply, raise_apply, hd, hr, ht, hw]
  · cases h.owing with
    | awaited _ _ hr _ _ => omega
    | settled ho hheard hr _ =>
      refine .settled ho hheard ?_ ?_
      · simp only [turn, lower_apply, raise_apply, if_true]
        omega
      · simp [turn, raise_apply]

theorem balanced_turn (hname : Set.InjOn name parties) (t : Turn ι φ)
    (h : Balanced parties name wide x) (ht : Enabled parties name wide x t) :
    Balanced parties name wide (turn name x t) := by
  cases h with
  | fresh hx =>
    subst hx
    cases t with
    | publish a f => exact .sent a f ht.1 publish_fresh
    | serve a targets =>
      obtain ⟨f, rest, hf, -⟩ := ht
      cases hf
    | hear c => exact absurd ht (Nat.lt_irrefl 0)
    | acknowledge c back => exact absurd ht.1 (Nat.lt_irrefl 0)
    | tell a => exact absurd ht (Nat.lt_irrefl 0)
  | sent a f ha hx =>
    subst hx
    cases t with
    | publish b g =>
      have := ht.2 a
      simp [sent] at this
    | serve b targets =>
      obtain ⟨g, rest, hg, hne, hone⟩ := ht
      have hba : b = a := by
        by_contra hba
        simp [sent, hba] at hg
      subst hba
      obtain ⟨rfl, rfl⟩ : f = g ∧ [] = rest := by simpa [sent] using hg
      exact .served b f ha (serve_sent targets hne hone)
    | hear c => exact absurd ht (Nat.lt_irrefl 0)
    | acknowledge c back => exact absurd ht.1 (Nat.lt_irrefl 0)
    | tell a => exact absurd ht (Nat.lt_irrefl 0)
  | served a f ha hx =>
    cases t with
    | publish b g =>
      have := ht.2 a
      simp [hx.published] at this
    | serve b targets =>
      obtain ⟨g, rest, hg, -⟩ := ht
      rw [hx.upMessages b] at hg
      cases hg
    | hear c => exact .served a f ha (hx.hear c ht)
    | acknowledge c back =>
      exact .served a f ha (hx.acknowledge hname ha c back ht.1 ht.2.1 ht.2.2)
    | tell b => exact .served a f ha (hx.tell b ht)

/-- What holds wherever the message is: nobody is told twice, too early or of
a message of somebody else, exactly the publishers that were not told wait,
and nobody hears more than was sent. -/
structure Safe (name : ι → κ) (wide : φ → Prop) (x : Account ι κ φ) : Prop where
  told : ∀ c, x.told c ≤ 1
  informed : ∀ c, 0 < x.told c → ∃ d, 0 < x.heard d
  waiting : ∀ c, x.waiting c = true ↔ x.published c ≠ [] ∧ x.told c = 0
  teller : ∀ c, 0 < x.told c → x.published c ≠ []
  heard : ∀ c, x.heard c ≤ x.copies c
  single : ∀ a, ∀ f ∈ x.published a, ¬ wide f → ∃ c, ∀ d, x.heard d ≤ if d = c then 1 else 0
  owed : ∀ k, x.owed = some k → ∃ a, k = name a ∧ x.waiting a = true

theorem Served.safe (h : Served name wide a f x) : Safe name wide x := by
  have hpublished : ∀ c, x.published c ≠ [] ↔ c = a := by
    intro c
    rw [h.published]
    by_cases hc : c = a
    · simp [hc]
    · simp [hc]
  have htold : ∀ c, 0 < x.told c → c = a := by
    intro c hc
    by_contra hca
    have := (h.others c hca).2.1
    omega
  have hheard : ∀ c, x.heard c ≤ x.copies c := by
    intro c
    have := h.copies c
    omega
  have hsingle : ¬ wide f → ∃ c, ∀ d, x.heard d ≤ if d = c then 1 else 0 := by
    intro hw
    obtain ⟨c, hc⟩ := h.single hw
    exact ⟨c,fun d => hc d ▸ hheard d⟩
  have hwaiting : (x.waiting a = true ↔ x.told a = 0) →
      ∀ c, x.waiting c = true ↔ x.published c ≠ [] ∧ x.told c = 0 := by
    intro ha c
    rw [hpublished c]
    by_cases hc : c = a
    · subst hc
      simpa using ha
    · simp [hc, (h.others c hc).2.2]
  have hpub : ∀ c, 0 < x.told c → x.published c ≠ [] := fun c hc => (hpublished c).mpr (htold c hc)
  have hone : ∀ b, ∀ g ∈ x.published b, ¬ wide g →
      ∃ c, ∀ d, x.heard d ≤ if d = c then 1 else 0 := by
    intro b g hg
    have hb : b = a := (hpublished b).mp (List.ne_nil_of_mem hg)
    rw [hb, h.published, Function.update_self] at hg
    rw [List.mem_singleton.mp hg]
    exact hsingle
  cases h.owing with
  | awaited ho _ _ ht hw =>
    have hzero : ∀ c, x.told c = 0 := by
      intro c
      by_cases hc : c = a
      · rw [hc, ht]
      · exact (h.others c hc).2.1
    refine ⟨fun c => by rw [hzero]; exact Nat.zero_le 1,fun c hc => ?_,
      hwaiting (by simp [hw, ht]),hpub,hheard,hone,fun k hk => ⟨a,?_,hw⟩⟩
    · rw [hzero] at hc
      exact absurd hc (Nat.lt_irrefl 0)
    · rw [ho] at hk
      exact (Option.some.inj hk).symm
  | settled ho hex hr hw =>
    refine ⟨fun c => ?_,fun _ _ => hex,hwaiting hw,hpub,hheard,hone,fun k hk => ?_⟩
    · by_cases hc : c = a
      · rw [hc]
        omega
      · rw [(h.others c hc).2.1]
        exact Nat.zero_le 1
    · rw [ho] at hk
      cases hk

theorem safe_of_balanced (h : Balanced parties name wide x) : Safe name wide x := by
  cases h with
  | fresh hx =>
    subst hx
    exact ⟨by simp [fresh],by simp [fresh],by simp [fresh],by simp [fresh],by simp [fresh],
      by simp [fresh],by simp [fresh]⟩
  | sent a f _ hx =>
    subst hx
    refine ⟨by simp [sent, fresh],by simp [sent, fresh],fun c => ?_,by simp [sent, fresh],
      by simp [sent, fresh],fun _ _ _ _ => ⟨a,by simp [sent, fresh]⟩,by simp [sent, fresh]⟩
    by_cases hc : c = a
    · simp [sent, fresh, hc]
    · simp [sent, fresh, hc]
  | served a f _ hx => exact hx.safe

/-- Nothing about the message is on its way. -/
structure AtRest (x : Account ι κ φ) : Prop where
  upMessages : ∀ c, x.upMessages c = []
  upAcks : ∀ c, x.upAcks c = 0
  downMessages : ∀ c, x.downMessages c = 0
  downReturns : ∀ c, x.downReturns c = 0

/-- The message has been heard by everybody who was sent a copy, and its
publisher and nobody else has been told, once. -/
structure Completed (wide : φ → Prop) (a : ι) (f : φ) (x : Account ι κ φ) : Prop where
  published : x.published = Function.update (fun _ => []) a [f]
  heard : ∀ c, x.heard c = x.copies c
  reached : ∃ c, 0 < x.copies c
  single : ¬ wide f → ∃ c, ∀ d, x.heard d = if d = c then 1 else 0
  told : ∀ c, x.told c = if c = a then 1 else 0
  waiting : ∀ c, x.waiting c = false
  owed : x.owed = none

theorem completed_of_rest (h : Balanced parties name wide x) (hr : AtRest x) :
    x = fresh ∨ ∃ a f, Completed wide a f x := by
  cases h with
  | fresh hx => exact .inl hx
  | sent a f _ hx =>
    have := hr.upMessages a
    simp [hx, sent] at this
  | served a f _ hx =>
    have hheard : ∀ c, x.heard c = x.copies c := by
      intro c
      rw [← hx.copies c, hr.downMessages c, Nat.zero_add]
    refine .inr ⟨a,f,?_⟩
    cases hx.owing with
    | awaited _ hacks _ _ _ =>
      obtain ⟨c, hc⟩ := hx.reached
      rw [← hheard c, ← hacks c, hr.upAcks c] at hc
      omega
    | settled ho _ hret hwait =>
      rw [hr.downReturns a, Nat.zero_add] at hret
      refine ⟨hx.published,hheard,hx.reached,?_,?_,?_,ho⟩
      · intro hw
        obtain ⟨c, hc⟩ := hx.single hw
        exact ⟨c,fun d => (hheard d).trans (hc d)⟩
      · intro c
        by_cases hca : c = a
        · rw [hca, hret, if_pos rfl]
        · rw [(hx.others c hca).2.1, if_neg hca]
      · intro c
        by_cases hca : c = a
        · rw [hca, Bool.eq_false_iff, ne_eq, hwait, hret]
          exact Nat.one_ne_zero
        · exact (hx.others c hca).2.2

end Steps

end RexMq.MessageAccount
