import Mathlib.Tactic.Common
import RexMq.ClientRegistry
import RexMq.FiniteRun

/-!
# A client that leaves a title while another one enters it

Leaving a title takes the client out of the list under the entry's lock. If
the list is empty then, the lock is released and the key is removed in a call
of its own. A client that enters the title in between pushes itself into the
list and is removed with the key. The two calls run here in any order of
their steps; the loss is exactly a removal of the key after the push.
-/

set_option autoImplicit false

namespace RexMq.RegistryRace
open RexMq.ByteWords RexMq.FiniteRun RexMq.RelationIndex RexMq.ClientRegistry

/-- The two calls by which a client leaves a title. -/
inductive Leave where
  | unregisterTitle
  | removeClient
  deriving DecidableEq, Repr

/-- The titles still to leave; `purge` is between the two locks. -/
inductive LeaveStage where
  | enter
  | retain (ts : List Title)
  | purge (t : Title) (ts : List Title)
  | done
  deriving DecidableEq, Repr

inductive JoinStage where
  | enter
  | push (c : ClientRef)
  | done
  deriving DecidableEq, Repr

structure Traffic where
  clients : Clients
  registry : ClientRegistryImpl
  leave : LeaveStage
  join : JoinStage

def before (clients : Clients) (registry : ClientRegistryImpl) : Traffic :=
  ⟨clients,registry,.enter,.enter⟩

section Calls
variable (call : Leave) (a b : ClientId) (t : Title)

def retainStep (u : Title) (us : List Title) (x : Traffic) : Traffic :=
  match x.registry.title2clients.lookup u with
  | none => { x with leave := .retain us }
  | some cs =>
    let kept := cs.filter (fun c => (x.clients c).id ≠ a)
    { x with
      registry := { x.registry with title2clients := x.registry.title2clients.insert u kept }
      leave := if kept.isEmpty then .purge u us else .retain us }

/-- One step of `unregister_title` or `remove_client` of the client `a`. -/
def leaveStep (x : Traffic) : Traffic :=
  match x.leave with
  | .enter =>
    match x.registry.id2client.lookup a with
    | none => { x with leave := .done }
    | some c =>
      match call with
      | .unregisterTitle =>
        { x with clients := modify x.clients c (.removeTitle t), leave := .retain [t] }
      | .removeClient =>
        { x with
          registry := { x.registry with id2client := x.registry.id2client.erase a }
          leave := .retain (x.clients c).subscribedTitles }
  | .retain [] => { x with leave := .done }
  | .retain (u::us) => retainStep a u us x
  | .purge u us =>
    { x with
      registry := { x.registry with title2clients := x.registry.title2clients.erase u }
      leave := .retain us }
  | .done => x

def joinStep (x : Traffic) : Traffic :=
  match x.join with
  | .enter =>
    match x.registry.id2client.lookup b with
    | none => { x with join := .done }
    | some c => { x with clients := modify x.clients c (.insertTitle t), join := .push c }
  | .push c =>
    { x with
      registry := { x.registry with
        title2clients := enlist (fun d => (x.clients d).id) b c x.registry.title2clients t }
      join := .done }
  | .done => x

def trafficStep (x : Traffic) (leaving : Bool) : Traffic :=
  if leaving then leaveStep call a t x else joinStep b t x

def Found (k : ClientId) (x : Traffic) : Prop :=
  ∃ c ∈ x.registry.findAllByTitle x.clients t none, (x.clients c).id = k

instance (k : ClientId) (x : Traffic) : Decidable (Found t k x) :=
  inferInstanceAs (Decidable (∃ c ∈ _, _))

def purging : LeaveStage → Option Title
  | .purge u _ => some u
  | _ => none

/-- The key is not removed after the other client is in the list. -/
def KeyUnused (x : Traffic) (leaving : Bool) : Prop :=
  leaving = true → purging x.leave = some t → x.join ≠ .done

def leaves (titles : List Title) : List Title :=
  match call with
  | .unregisterTitle => [t]
  | .removeClient => titles

theorem found_iff (k : ClientId) (x : Traffic) :
    Found t k x ↔ ∃ c ∈ listed x.registry.title2clients t, (x.clients c).id = k := by
  unfold Found ClientRegistryImpl.findAllByTitle listed
  cases x.registry.title2clients.lookup t with
  | none => rfl
  | some cs => simp

theorem found_congr (k : ClientId) (x y : Traffic)
    (hids : ∀ c, (y.clients c).id = (x.clients c).id)
    (hlist : listed y.registry.title2clients t = listed x.registry.title2clients t) :
    Found t k y ↔ Found t k x := by
  rw [found_iff, found_iff, hlist]
  simp only [hids]

section Steps
variable (x : Traffic)

theorem listed_insert (m : Index Title ClientRef) (u v : Title) (cs : List ClientRef) :
    listed (m.insert u cs) v = if v = u then cs else listed m v := by
  unfold listed
  split_ifs with hv
  · rw [hv, AList.lookup_insert, Option.getD_some]
  · rw [AList.lookup_insert_ne hv]

theorem listed_erase (m : Index Title ClientRef) (u v : Title) :
    listed (m.erase u) v = if v = u then [] else listed m v := by
  unfold listed
  split_ifs with hv
  · rw [hv, AList.lookup_erase, Option.getD_none]
  · rw [AList.lookup_erase_ne hv]

theorem retain_step_spec (u : Title) (us : List Title) :
    (retainStep a u us x).clients = x.clients ∧ (retainStep a u us x).join = x.join ∧
      (retainStep a u us x).registry.id2client = x.registry.id2client ∧
      ((retainStep a u us x).leave = .retain us ∨ (retainStep a u us x).leave = .purge u us) ∧
      ∀ v, listed (retainStep a u us x).registry.title2clients v =
        if v = u then (listed x.registry.title2clients v).filter (fun c => (x.clients c).id ≠ a)
        else listed x.registry.title2clients v := by
  unfold retainStep
  cases hl : x.registry.title2clients.lookup u with
  | none =>
    refine ⟨rfl,rfl,rfl,.inl rfl,fun v => ?_⟩
    split_ifs with hv
    · subst hv
      simp [listed, hl]
    · rfl
  | some cs =>
    refine ⟨rfl,rfl,rfl,?_,fun v => ?_⟩
    · dsimp only
      split_ifs
      · exact .inr rfl
      · exact .inl rfl
    · dsimp only
      rw [listed_insert]
      split_ifs with hv
      · rw [hv, listed, hl, Option.getD_some]
      · rfl

theorem found_retain (u : Title) (us : List Title) (k : ClientId) :
    Found t k (retainStep a u us x) ↔ Found t k x ∧ ¬ (t = u ∧ k = a) := by
  obtain ⟨hclients, -, -, -, hlist⟩ := retain_step_spec a x u us
  rw [found_iff, found_iff, hlist, hclients]
  split_ifs with hu
  · simp only [List.mem_filter, decide_eq_true_eq]
    constructor
    · rintro ⟨c, ⟨hc, hne⟩, rfl⟩
      exact ⟨⟨c,hc,rfl⟩,fun hk => hne hk.2⟩
    · rintro ⟨⟨c, hc, rfl⟩, hk⟩
      exact ⟨c,⟨hc,fun he => hk ⟨hu,he⟩⟩,rfl⟩
  · rw [and_iff_left (fun hk => hu hk.1)]

theorem found_purge (u : Title) (us : List Title) (k : ClientId) (hp : x.leave = .purge u us) :
    Found t k (leaveStep call a t x) ↔ Found t k x ∧ t ≠ u := by
  rw [found_iff, found_iff]
  unfold leaveStep
  rw [hp]
  dsimp only
  rw [listed_erase]
  split_ifs with hu
  · simp [hu]
  · simp [hu]

theorem found_join (k : ClientId) (hne : k ≠ b)
    (hb : ∀ c, x.join = .push c → (x.clients c).id = b) :
    Found t k (joinStep b t x) ↔ Found t k x := by
  unfold joinStep
  cases hj : x.join with
  | enter =>
    cases x.registry.id2client.lookup b with
    | none => rfl
    | some c => exact found_congr t k x _ (fun d => modify_field _ _ _ _ _ rfl) rfl
  | push c =>
    rw [found_iff, found_iff]
    simp only [mem_listed_enlist]
    constructor
    · rintro ⟨d, hd | ⟨rfl, -, -⟩, hk⟩
      · exact ⟨d,hd,hk⟩
      · exact absurd (hk.symm.trans (hb d hj)) hne
    · rintro ⟨d, hd, hk⟩
      exact ⟨d,.inl hd,hk⟩
  | done => rfl

theorem found_push (c : ClientRef) (hj : x.join = .push c) (hb : (x.clients c).id = b) :
    Found t b (joinStep b t x) := by
  rw [found_iff]
  unfold joinStep
  rw [hj]
  dsimp only
  by_cases hin : ∀ e ∈ listed x.registry.title2clients t, (x.clients e).id ≠ b
  · exact ⟨c,(mem_listed_enlist ..).mpr (.inr ⟨rfl,rfl,hin⟩),hb⟩
  · push Not at hin
    obtain ⟨e, he, hk⟩ := hin
    exact ⟨e,(mem_listed_enlist ..).mpr (.inl he),hk⟩

end Steps

def touches : LeaveStage → List Title
  | .retain ts => ts
  | .purge u ts => u::ts
  | _ => []

/-- The titles the client is still to be taken out of, once that is known. -/
def pending : LeaveStage → Option (List Title)
  | .enter => none
  | .retain ts => some ts
  | .purge _ ts => some ts
  | .done => some []

/-- What holds in every order of the steps. -/
structure Moving (c d : ClientRef) (start x : Traffic) : Prop where
  ids : ∀ e, (x.clients e).id = (start.clients e).id
  leaver : x.leave = .enter → x.registry.id2client.lookup a = some d ∧
    (x.clients d).subscribedTitles = (start.clients d).subscribedTitles
  joiner : x.join = .enter → x.registry.id2client.lookup b = some c
  pushed : ∀ e, x.join = .push e → e = c
  touched : ∀ u ∈ touches x.leave, u ∈ leaves call t (start.clients d).subscribedTitles
  gone : t ∈ leaves call t (start.clients d).subscribedTitles →
    ∀ us, pending x.leave = some us → t ∉ us → ¬ Found t a x
  same : t ∉ leaves call t (start.clients d).subscribedTitles → (Found t a x ↔ Found t a start)

section Order
variable {call a b t} {c d : ClientRef} {start x : Traffic} (hne : a ≠ b)
  (h : Moving call a b t c d start x)
include hne h

theorem moving_join (hc : (start.clients c).id = b) (hd : (start.clients d).id = a) :
    Moving call a b t c d start (joinStep b t x) := by
  have hfound : Found t a (joinStep b t x) ↔ Found t a x := by
    apply found_join b t x a hne
    intro e he
    rw [h.pushed e he, h.ids, hc]
  have hgone := h.gone
  have hsame := h.same
  rw [← hfound] at hgone hsame
  have hdc : d ≠ c := by
    rintro rfl
    exact hne (hd.symm.trans hc)
  revert hgone hsame
  unfold joinStep
  cases hj : x.join with
  | enter =>
    rw [h.joiner hj]
    intro hgone hsame
    refine ⟨fun e => ?_,fun he => ?_,nofun,fun e he => ?_,h.touched,hgone,hsame⟩
    · exact (modify_field x.clients c e _ RexClientInner.id rfl).trans (h.ids e)
    · refine ⟨(h.leaver he).1,?_⟩
      dsimp only
      rw [modify_other _ _ _ _ hdc]
      exact (h.leaver he).2
    · cases he
      rfl
  | push e =>
    intro hgone hsame
    exact ⟨h.ids,h.leaver,nofun,nofun,h.touched,hgone,hsame⟩
  | done =>
    intro _ _
    exact h

theorem moving_begin (hl : x.leave = .enter) :
    Moving call a b t c d start (leaveStep call a t x) := by
  obtain ⟨hd', htitles⟩ := h.leaver hl
  unfold leaveStep
  rw [hl, hd']
  cases call with
  | unregisterTitle =>
    have hids : ∀ e, (modify x.clients d (.removeTitle t) e).id = (x.clients e).id :=
      fun e => modify_field x.clients d e _ RexClientInner.id rfl
    refine ⟨fun e => (hids e).trans (h.ids e),nofun,h.joiner,h.pushed,fun u hu => hu,?_,?_⟩
    · rintro - us hus hout
      cases hus
      exact absurd (List.mem_singleton_self t) hout
    · intro hout
      exact absurd (List.mem_singleton_self t) hout
  | removeClient =>
    refine ⟨h.ids,nofun,fun hj => ?_,h.pushed,fun u hu => ?_,?_,fun hout => ?_⟩
    · dsimp only
      rw [AList.lookup_erase_ne hne.symm]
      exact h.joiner hj
    · dsimp only [touches] at hu
      rwa [htitles] at hu
    · rintro hin us hus hout
      cases hus
      rw [htitles] at hout
      exact absurd hin hout
    · exact h.same hout

omit hne in
theorem moving_retain (u : Title) (us : List Title) (hl : x.leave = .retain (u::us)) :
    Moving call a b t c d start (retainStep a u us x) := by
  have htouched := h.touched
  have hgone := h.gone
  rw [hl] at htouched hgone
  obtain ⟨hclients, hjoin, hid, hleave, -⟩ := retain_step_spec a x u us
  have hpending : pending (retainStep a u us x).leave = some us := by
    rcases hleave with he | he <;> rw [he] <;> rfl
  have htouches : ∀ v ∈ touches (retainStep a u us x).leave, v ∈ u::us := by
    intro v hv
    rcases hleave with he | he <;> rw [he] at hv
    · exact List.mem_cons_of_mem _ hv
    · exact hv
  constructor
  case ids =>
    rw [hclients]
    exact h.ids
  case leaver =>
    intro he
    rw [he] at hpending
    cases hpending
  case joiner =>
    rw [hjoin, hid]
    exact h.joiner
  case pushed =>
    rw [hjoin]
    exact h.pushed
  case touched => exact fun v hv => htouched v (htouches v hv)
  case gone =>
    intro hin vs hvs hout
    rw [hpending] at hvs
    cases hvs
    rw [found_retain]
    rintro ⟨hf, hn⟩
    apply hgone hin (u::us) rfl _ hf
    intro hmem
    rcases List.mem_cons.mp hmem with rfl | hmem
    · exact hn ⟨rfl,rfl⟩
    · exact hout hmem
  case same =>
    intro hout
    rw [found_retain, and_iff_left]
    · exact h.same hout
    · rintro ⟨rfl, -⟩
      exact hout (htouched t List.mem_cons_self)

omit hne in
theorem moving_purge (u : Title) (us : List Title) (hl : x.leave = .purge u us) :
    Moving call a b t c d start (leaveStep call a t x) := by
  have hfound := found_purge call a t x u us a hl
  have hgone := h.gone
  have htouched := h.touched
  rw [hl] at hgone htouched
  revert hfound
  unfold leaveStep
  rw [hl]
  intro hfound
  refine ⟨h.ids,nofun,h.joiner,h.pushed,fun v hv => htouched v (List.mem_cons_of_mem _ hv),
    fun hin vs hvs hout => ?_,fun hout => ?_⟩
  · rw [hfound]
    exact fun hf => hgone hin vs hvs hout hf.1
  · rw [hfound, and_iff_left]
    · exact h.same hout
    · rintro rfl
      exact hout (htouched _ List.mem_cons_self)

theorem moving_leave : Moving call a b t c d start (leaveStep call a t x) := by
  cases hl : x.leave with
  | enter => exact moving_begin hne h hl
  | retain ts =>
    cases ts with
    | nil =>
      unfold leaveStep
      rw [hl]
      refine ⟨h.ids,nofun,h.joiner,h.pushed,nofun,fun hin us hus hout => ?_,h.same⟩
      exact h.gone hin [] (by rw [hl]; rfl) List.not_mem_nil
    | cons u us =>
      have hstep : leaveStep call a t x = retainStep a u us x := by
        unfold leaveStep
        rw [hl]
      rw [hstep]
      exact moving_retain h u us hl
  | purge u us => exact moving_purge h u us hl
  | done =>
    unfold leaveStep
    rw [hl]
    exact h

theorem moving_step (hc : (start.clients c).id = b) (hd : (start.clients d).id = a)
    (leaving : Bool) : Moving call a b t c d start (trafficStep call a b t x leaving) := by
  cases leaving with
  | true => exact moving_leave hne h
  | false => exact moving_join hne h hc hd

end Order

theorem join_leave (x : Traffic) : (leaveStep call a t x).join = x.join := by
  unfold leaveStep
  cases x.leave with
  | enter =>
    cases x.registry.id2client.lookup a with
    | none => rfl
    | some d => cases call <;> rfl
  | retain ts =>
    cases ts with
    | nil => rfl
    | cons u us => exact (retain_step_spec a x u us).2.1
  | purge u us => rfl
  | done => rfl

theorem found_leave (k : ClientId) (hk : k ≠ a) (x : Traffic) :
    Found t k (leaveStep call a t x) ↔ Found t k x ∧ purging x.leave ≠ some t := by
  cases hl : x.leave with
  | enter =>
    rw [and_iff_left nofun]
    unfold leaveStep
    rw [hl]
    cases x.registry.id2client.lookup a with
    | none => rfl
    | some d =>
      cases call with
      | unregisterTitle =>
        exact found_congr t k x _ (fun e => modify_field x.clients d e _ _ rfl) rfl
      | removeClient => rfl
  | retain ts =>
    rw [and_iff_left nofun]
    unfold leaveStep
    rw [hl]
    cases ts with
    | nil => rfl
    | cons u us =>
      dsimp only
      rw [found_retain, and_iff_left (fun hc => hk hc.2)]
  | purge u us =>
    rw [found_purge call a t x u us k hl]
    apply and_congr_right'
    exact ⟨fun hn he => hn (Option.some.inj he).symm,fun hn he => hn (congrArg some he.symm)⟩
  | done =>
    rw [and_iff_left nofun]
    unfold leaveStep
    rw [hl]

/-- The client that has entered the title is found. -/
def Entered (x : Traffic) : Prop := x.join = .done → Found t b x

theorem entered_step (c d : ClientRef) (start x : Traffic) (hne : a ≠ b)
    (hc : (start.clients c).id = b) (h : Moving call a b t c d start x) (leaving : Bool) :
    Entered b t (trafficStep call a b t x leaving) ↔
      Entered b t x ∧ KeyUnused t x leaving := by
  unfold Entered KeyUnused
  cases leaving with
  | true =>
    show ((leaveStep call a t x).join = .done → Found t b (leaveStep call a t x)) ↔ _
    rw [join_leave, found_leave call a t b hne.symm]
    constructor
    · intro hp
      exact ⟨fun hj => (hp hj).1,fun _ hu hj => (hp hj).2 hu⟩
    · rintro ⟨hp, hu⟩ hj
      exact ⟨hp hj,fun hc => hu rfl hc hj⟩
  | false =>
    rw [and_iff_left nofun]
    show ((joinStep b t x).join = .done → Found t b (joinStep b t x)) ↔ _
    cases hj : x.join with
    | enter =>
      have hstep : (joinStep b t x).join = .push c := by
        unfold joinStep
        rw [hj, h.joiner hj]
      rw [hstep]
      exact iff_of_true nofun nofun
    | push e =>
      have hid : (x.clients e).id = b := by rw [h.pushed e hj, h.ids, hc]
      exact iff_of_true (fun _ => found_push b t x e hj hid) nofun
    | done =>
      have hstep : joinStep b t x = x := by
        unfold joinStep
        rw [hj]
      rw [hstep, hj]

/-- When both calls are done, the entering client is found and the leaving one
is not exactly when the key was not removed after the push, and the call left
the title or the client was not under it. -/
theorem registered_and_left_iff (clients : Clients) (registry : ClientRegistryImpl)
    (c d : ClientRef) (hne : a ≠ b)
    (hd : registry.id2client.lookup a = some d) (hda : (clients d).id = a)
    (hc : registry.id2client.lookup b = some c) (hcb : (clients c).id = b)
    (schedule : List Bool)
    (hleft : (schedule.foldl (trafficStep call a b t) (before clients registry)).leave = .done)
    (hjoined : (schedule.foldl (trafficStep call a b t) (before clients registry)).join = .done) :
    (Found t b (schedule.foldl (trafficStep call a b t) (before clients registry)) ∧
      ¬ Found t a (schedule.foldl (trafficStep call a b t) (before clients registry))) ↔
    Along (trafficStep call a b t) (KeyUnused t) (before clients registry) schedule ∧
      (t ∈ leaves call t (clients d).subscribedTitles ∨
        ¬ Found t a (before clients registry)) := by
  have hstart : Moving call a b t c d (before clients registry) (before clients registry) :=
    ⟨fun _ => rfl,fun _ => ⟨hd,rfl⟩,fun _ => hc,nofun,nofun,nofun,fun _ => Iff.rfl⟩
  have hstep : ∀ x leaving, Moving call a b t c d (before clients registry) x →
      Moving call a b t c d (before clients registry) (trafficStep call a b t x leaving) :=
    fun x leaving h => moving_step hne h hcb hda leaving
  have hlast := always_last _ _ _ schedule
    (always_of_step (trafficStep call a b t) _ hstep _ schedule hstart)
  have hentered := last_iff_along (trafficStep call a b t) (KeyUnused t) _ (Entered b t) hstep
    (fun x leaving h => entered_step call a b t c d _ x hne hcb h leaving) _ schedule hstart
  have hnew : Entered b t (before clients registry) := nofun
  rw [and_iff_right hnew] at hentered
  rw [← hentered]
  apply and_congr
  · exact ⟨fun hf _ => hf,fun he => he hjoined⟩
  · by_cases hin : t ∈ leaves call t (clients d).subscribedTitles
    · exact iff_of_true (hlast.gone hin [] (by rw [hleft]; rfl) List.not_mem_nil) (.inl hin)
    · rw [hlast.same hin, or_iff_right hin]

end Calls

section Alone
variable (call : Leave) (a b : ClientId) (t : Title)

theorem erase_insert (m : Index Title ClientRef) (u : Title) (cs : List ClientRef) :
    (m.insert u cs).erase u = m.erase u := by
  apply AList.ext
  exact List.kerase_cons_eq rfl

theorem leave_rest (us : List Title) (x : Traffic) (hl : x.leave = .retain us) :
    ∃ n, ((leaveStep call a t)^[n] x).leave = .done ∧
      ((leaveStep call a t)^[n] x).clients = x.clients ∧
      ((leaveStep call a t)^[n] x).registry =
        { x.registry with
          title2clients := us.foldl (delist (fun e => (x.clients e).id) a)
            x.registry.title2clients } := by
  induction us generalizing x with
  | nil =>
    refine ⟨1,?_⟩
    rw [Function.iterate_one]
    unfold leaveStep
    rw [hl]
    exact ⟨rfl,rfl,rfl⟩
  | cons u us ih =>
    have hstep : leaveStep call a t x = retainStep a u us x := by
      unfold leaveStep
      rw [hl]
    rw [List.foldl_cons]
    unfold delist
    cases hu : x.registry.title2clients.lookup u with
    | none =>
      obtain ⟨n, hn⟩ := ih { x with leave := .retain us } rfl
      refine ⟨n+1,?_⟩
      rw [Function.iterate_succ_apply, hstep, retainStep, hu]
      exact hn
    | some cs =>
      dsimp only
      split_ifs with hkept
      · -- two steps: the list is emptied, then the key is removed
        obtain ⟨n, hn⟩ := ih
          { x with
            registry := { x.registry with title2clients := x.registry.title2clients.erase u }
            leave := .retain us } rfl
        refine ⟨n+2,?_⟩
        rw [Function.iterate_add_apply, Function.iterate_succ_apply, Function.iterate_one, hstep,
          retainStep, hu]
        dsimp only
        rw [if_pos hkept, leaveStep]
        dsimp only
        rw [erase_insert]
        exact hn
      · obtain ⟨n, hn⟩ := ih
          { x with
            registry := { x.registry with
              title2clients := x.registry.title2clients.insert u
                (cs.filter (fun e => (x.clients e).id ≠ a)) }
            leave := .retain us } rfl
        refine ⟨n+1,?_⟩
        rw [Function.iterate_succ_apply, hstep, retainStep, hu]
        dsimp only
        rw [if_neg hkept]
        exact hn

def wholeCall (clients : Clients) (registry : ClientRegistryImpl) : Clients × ClientRegistryImpl :=
  match call with
  | .unregisterTitle => registry.unregisterTitle clients a t
  | .removeClient => (clients,(registry.removeClient clients a).2)

/-- A call whose steps run with nothing between them is the whole call. -/
theorem leave_alone (x : Traffic) (hl : x.leave = .enter) :
    ∃ n, ((leaveStep call a t)^[n] x).leave = .done ∧
      (((leaveStep call a t)^[n] x).clients,((leaveStep call a t)^[n] x).registry) =
        wholeCall call a t x.clients x.registry := by
  unfold wholeCall ClientRegistryImpl.unregisterTitle ClientRegistryImpl.removeClient
  cases hd : x.registry.id2client.lookup a with
  | none =>
    refine ⟨1,?_⟩
    rw [Function.iterate_one, leaveStep, hl, hd]
    cases call <;> exact ⟨rfl,rfl⟩
  | some d =>
    cases call with
    | unregisterTitle =>
      obtain ⟨n, hn, hclients, hregistry⟩ := leave_rest .unregisterTitle a t [t]
        { x with clients := modify x.clients d (.removeTitle t), leave := .retain [t] } rfl
      refine ⟨n+1,?_⟩
      rw [Function.iterate_succ_apply, leaveStep, hl, hd]
      exact ⟨hn,Prod.ext hclients hregistry⟩
    | removeClient =>
      obtain ⟨n, hn, hclients, hregistry⟩ := leave_rest .removeClient a t
        (x.clients d).subscribedTitles
        { x with
          registry := { x.registry with id2client := x.registry.id2client.erase a }
          leave := .retain (x.clients d).subscribedTitles } rfl
      refine ⟨n+1,?_⟩
      rw [Function.iterate_succ_apply, leaveStep, hl, hd]
      exact ⟨hn,Prod.ext hclients hregistry⟩

theorem join_alone (x : Traffic) (hj : x.join = .enter) :
    ((joinStep b t)^[2] x).join = .done ∧
      (((joinStep b t)^[2] x).clients,((joinStep b t)^[2] x).registry) =
        x.registry.registerTitle x.clients b t := by
  rw [Function.iterate_succ_apply, Function.iterate_one]
  unfold ClientRegistryImpl.registerTitle
  cases hc : x.registry.id2client.lookup b with
  | none =>
    have hstep : joinStep b t x = { x with join := .done } := by rw [joinStep, hj, hc]
    rw [hstep]
    exact ⟨rfl,rfl⟩
  | some c =>
    have hstep : joinStep b t x =
        { x with clients := modify x.clients c (.insertTitle t), join := .push c } := by
      rw [joinStep, hj, hc]
    rw [hstep]
    exact ⟨rfl,rfl⟩

end Alone

def twoClients : Clients := fun c => .new (BitVec.ofNat 128 c) (if c = 1 then [97] else []) c 0

/-- Client 1 is alone under the title `[97]`; client 2 is under no title. -/
def oneSubscriber : ClientRegistryImpl :=
  (ClientRegistryImpl.new.addClient twoClients 1).addClient twoClients 2

/-- The second client is in the list before the first one leaves it. -/
theorem entered_before_left :
    let x := [false, false, true, true, true].foldl (trafficStep .unregisterTitle 1 2 [97])
      (before twoClients oneSubscriber)
    Found [97] 2 x ∧ ¬ Found [97] 1 x := by
  refine (registered_and_left_iff .unregisterTitle 1 2 [97] twoClients oneSubscriber 2 1
    (by decide) (by decide +kernel) (by decide +kernel) (by decide +kernel) (by decide +kernel)
    [false, false, true, true, true] (by decide +kernel) (by decide +kernel)).mpr ⟨?_,?_⟩
  · refine ⟨?_,?_,?_,?_,?_,trivial⟩
    all_goals
      unfold KeyUnused
      decide +kernel
  · exact .inl (by decide +kernel)

/-- The second client enters the title between the two locks of the first. -/
theorem subscription_lost_with_key :
    let x := [true, true, false, false, true, true].foldl
      (trafficStep .unregisterTitle 1 2 [97]) (before twoClients oneSubscriber)
    x.leave = .done ∧ x.join = .done ∧ x.registry.id2client.lookup 2 = some 2 ∧
      (x.clients 2).subscribedTitles = [[97]] ∧
      x.registry.findAllByTitle x.clients [97] none = [] ∧ ¬ Found [97] 2 x := by
  decide +kernel

end RexMq.RegistryRace
