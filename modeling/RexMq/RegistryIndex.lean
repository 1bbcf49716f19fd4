import Mathlib.Tactic.Common
import RexMq.ClientRegistry
import RexMq.FiniteRun

/-!
# Agreement of the two registry tables

The subscription relation is stored twice: in the title list of every
registered client object and in the client list of every title. In any run
of registry operations the second is an index of the first, so the title
lookups answer from the clients' own lists. Seen through the ids, the pair
of tables is a directory from live ids to sets of titles.
-/

set_option autoImplicit false

namespace RexMq.RegistryIndex
open RexMq.FiniteRun RexMq.RelationIndex RexMq.ClientRegistry

structure Agrees (h : Clients) (r : ClientRegistryImpl) : Prop where
  keyed : ∀ k c, r.findSomeById k = some c → (h c).id = k
  index : Indexes (fun d => (h d).id) r.title2clients
    (fun d t => r.findSomeById (h d).id = some d ∧ t ∈ (h d).subscribedTitles)

theorem new_agrees (h : Clients) : Agrees h .new where
  keyed := by simp [ClientRegistryImpl.new, ClientRegistryImpl.findSomeById]
  index := indexes_congr _ _ _ (indexes_empty _) _
    (by simp [ClientRegistryImpl.new, ClientRegistryImpl.findSomeById])

theorem add_client_agrees (h : Clients) (r : ClientRegistryImpl) (ha : Agrees h r)
    (c : ClientRef) (hn : r.findSomeById (h c).id = none) : Agrees h (r.addClient h c) where
  keyed := by
    intro k d hd
    rw [ClientRegistryImpl.find_add_client] at hd
    split_ifs at hd with hk
    · cases hd
      exact hk.symm
    · exact ha.keyed k d hd
  index := by
    refine indexes_congr _ _ _ (enlists_indexes _ _ _ ha.index c _ ?_) _ fun d t => ?_
    · rintro d t ⟨hd, -⟩ hk
      rw [hk, hn] at hd
      cases hd
    · rw [ClientRegistryImpl.find_add_client]
      by_cases hk : (h d).id = (h c).id
      · rw [if_pos hk, hk, hn, Option.some_inj]
        constructor
        · rintro (⟨hd, -⟩ | ⟨rfl, ht⟩)
          · cases hd
          · exact ⟨rfl,ht⟩
        · rintro ⟨rfl, ht⟩
          exact .inr ⟨rfl,ht⟩
      · rw [if_neg hk]
        refine or_iff_left ?_
        rintro ⟨rfl, -⟩
        exact hk rfl

theorem remove_client_agrees (h : Clients) (r : ClientRegistryImpl) (ha : Agrees h r)
    (k : ClientId) : Agrees h (r.removeClient h k).2 := by
  cases hf : r.findSomeById k with
  | none => rwa [ClientRegistryImpl.remove_client_none h k r hf]
  | some c =>
    have hfind := ClientRegistryImpl.find_remove_client h k
    refine ⟨fun j d hd => ?_, ?_⟩
    · rw [hfind] at hd
      split_ifs at hd
      exact ha.keyed j d hd
    · have hi := indexes_congr _ _ _ (delists_indexes _ _ _ ha.index k (h c).subscribedTitles)
        (fun d t => (r.removeClient h k).2.findSomeById (h d).id = some d ∧
          t ∈ (h d).subscribedTitles) (fun d t => by
        rw [hfind]
        by_cases hk : (h d).id = k
        · rw [if_pos hk, hk, hf]
          constructor
          · rintro ⟨⟨hd, ht⟩, hn⟩
            cases hd
            exact absurd ⟨ht,rfl⟩ hn
          · rintro ⟨hd, -⟩
            cases hd
        · simp [hk])
      rw [ClientRegistryImpl.findSomeById] at hf
      simpa only [ClientRegistryImpl.removeClient, hf] using hi

theorem register_title_agrees (h : Clients) (r : ClientRegistryImpl) (ha : Agrees h r)
    (k : ClientId) (title : Title) (hs : SingleTitle title) :
    Agrees (r.registerTitle h k title).1 (r.registerTitle h k title).2 := by
  cases hf : r.findSomeById k with
  | none => rwa [ClientRegistryImpl.register_title_none h k title r hf]
  | some c =>
    have hck := ha.keyed k c hf
    have hid : ∀ d, (modify h c (.insertTitle title) d).id = (h d).id :=
      fun d => modify_field h c d _ RexClientInner.id rfl
    rw [ClientRegistryImpl.register_title_some h k title c r hf]
    refine ⟨fun j d hd => ?_, ?_⟩
    · rw [hid]
      exact ha.keyed j d hd
    · have he := enlist_indexes _ _ _ ha.index c title (by
        rintro d ⟨hd, -⟩ hk
        rw [hk, hck, hf] at hd
        exact (Option.some_inj.mp hd).symm)
      rw [hck] at he
      refine indexes_key _ _ _ (indexes_congr _ _ _ he _ fun d t => ?_) _ fun d _ _ => (hid d).symm
      change _ ↔ r.findSomeById (modify h c (.insertTitle title) d).id = some d ∧
        t ∈ (modify h c (.insertTitle title) d).subscribedTitles
      rw [hid]
      by_cases hd : d = c
      · subst hd
        rw [modify_same, RexClientInner.mem_insert_title, split_single title hs, hck, hf,
          List.mem_singleton]
        simp
      · rw [modify_other h c d _ hd]
        simp [hd]

theorem unregister_title_agrees (h : Clients) (r : ClientRegistryImpl) (ha : Agrees h r)
    (k : ClientId) (title : Title) :
    Agrees (r.unregisterTitle h k title).1 (r.unregisterTitle h k title).2 := by
  cases hf : r.findSomeById k with
  | none => rwa [ClientRegistryImpl.unregister_title_none h k title r hf]
  | some c =>
    have hck := ha.keyed k c hf
    have hid : ∀ d, (modify h c (.removeTitle title) d).id = (h d).id :=
      fun d => modify_field h c d _ RexClientInner.id rfl
    rw [ClientRegistryImpl.unregister_title_some h k title c r hf]
    refine ⟨fun j d hd => ?_, ?_⟩
    · rw [hid]
      exact ha.keyed j d hd
    · refine indexes_key _ _ _ (indexes_congr _ _ _ (delist_indexes _ _ _ ha.index k title) _
        fun d t => ?_) _ fun d _ _ => (hid d).symm
      change _ ↔ r.findSomeById (modify h c (.removeTitle title) d).id = some d ∧
        t ∈ (modify h c (.removeTitle title) d).subscribedTitles
      rw [hid]
      by_cases hd : d = c
      · subst hd
        rw [modify_same, RexClientInner.mem_remove_title, hck, hf]
        simp
      · rw [modify_other h c d _ hd, and_iff_left_of_imp]
        rintro ⟨hd', -⟩ ⟨-, hk⟩
        rw [hk, hf] at hd'
        exact hd (Option.some_inj.mp hd').symm

theorem edit_agrees (h : Clients) (r : ClientRegistryImpl) (ha : Agrees h r) (c : ClientRef)
    (x : RexClientInner) (hx : (∀ k, r.findSomeById k ≠ some c) ∨
      x.id = (h c).id ∧ x.subscribedTitles = (h c).subscribedTitles) :
    Agrees (Function.update h c x) r := by
  have hsame : ∀ k d, r.findSomeById k = some d →
      (Function.update h c x d).id = (h d).id ∧
        (Function.update h c x d).subscribedTitles = (h d).subscribedTitles := by
    intro k d hd
    by_cases hdc : d = c
    · subst hdc
      simpa using hx.resolve_left fun hn => hn k hd
    · simp [hdc]
  refine ⟨fun k d hd => ?_, ?_⟩
  · rw [(hsame k d hd).1]
    exact ha.keyed k d hd
  · refine indexes_key _ _ _ (indexes_congr _ _ _ ha.index _ fun d t => ?_) _ fun d t hd => ?_
    · constructor
      · rintro ⟨hd, ht⟩
        rw [(hsame _ d hd).1, (hsame _ d hd).2]
        exact ⟨hd,ht⟩
      · rintro ⟨hd, ht⟩
        rw [(hsame _ d hd).1] at hd
        rw [(hsame _ d hd).2] at ht
        exact ⟨hd,ht⟩
    · exact (hsame _ d hd.1).1.symm

/-- Registry operations, and writes to client objects by the rest of the
program. -/
inductive Op where
  | addClient (c : ClientRef)
  | removeClient (k : ClientId)
  | registerTitle (k : ClientId) (title : Title)
  | unregisterTitle (k : ClientId) (title : Title)
  | edit (c : ClientRef) (x : RexClientInner)

def opStep (s : Clients × ClientRegistryImpl) : Op → Clients × ClientRegistryImpl
  | .addClient c => (s.1,s.2.addClient s.1 c)
  | .removeClient k => (s.1,(s.2.removeClient s.1 k).2)
  | .registerTitle k title => s.2.registerTitle s.1 k title
  | .unregisterTitle k title => s.2.unregisterTitle s.1 k title
  | .edit c x => (Function.update s.1 c x,s.2)

/-- Only unregistered ids are added, registered titles are single, and a
registered client keeps its id and titles outside the registry. -/
def Admitted (s : Clients × ClientRegistryImpl) : Op → Prop
  | .addClient c => s.2.findSomeById (s.1 c).id = none
  | .removeClient _ => True
  | .registerTitle _ title => SingleTitle title
  | .unregisterTitle _ _ => True
  | .edit c x => (∀ k, s.2.findSomeById k ≠ some c) ∨
      x.id = (s.1 c).id ∧ x.subscribedTitles = (s.1 c).subscribedTitles

theorem op_step_agrees (s : Clients × ClientRegistryImpl) (op : Op) (ha : Agrees s.1 s.2)
    (hop : Admitted s op) : Agrees (opStep s op).1 (opStep s op).2 := by
  cases op with
  | addClient c => exact add_client_agrees s.1 s.2 ha c hop
  | removeClient k => exact remove_client_agrees s.1 s.2 ha k
  | registerTitle k title => exact register_title_agrees s.1 s.2 ha k title hop
  | unregisterTitle k title => exact unregister_title_agrees s.1 s.2 ha k title
  | edit c x => exact edit_agrees s.1 s.2 ha c x hop

/-- What the registry is for: live ids with the titles they subscribed to. -/
abbrev Directory := ClientId → Option (Set Title)

inductive DirectoryOp where
  | enter (k : ClientId) (titles : Set Title)
  | leave (k : ClientId)
  | subscribe (k : ClientId) (t : Title)
  | unsubscribe (k : ClientId) (t : Title)
  | stay

def directoryStep (D : Directory) : DirectoryOp → Directory
  | .enter k titles => Function.update D k (some titles)
  | .leave k => Function.update D k none
  | .subscribe k t => Function.update D k ((D k).map (fun T => insert t T))
  | .unsubscribe k t => Function.update D k ((D k).map (fun T => T \ {t}))
  | .stay => D

def view (s : Clients × ClientRegistryImpl) : Directory :=
  fun k => (s.2.findSomeById k).map (fun c => {t | t ∈ (s.1 c).subscribedTitles})

def described (s : Clients × ClientRegistryImpl) : Op → DirectoryOp
  | .addClient c => .enter (s.1 c).id {t | t ∈ (s.1 c).subscribedTitles}
  | .removeClient k => .leave k
  | .registerTitle k title => .subscribe k title
  | .unregisterTitle k title => .unsubscribe k title
  | .edit _ _ => .stay

theorem view_title_change (h : Clients) (r r' : ClientRegistryImpl) (ha : Agrees h r)
    (k : ClientId) (c : ClientRef) (f : RexClientInner → RexClientInner) (g : Set Title → Set Title)
    (hf : r.findSomeById k = some c) (hr : r'.id2client = r.id2client)
    (hg : {t | t ∈ (f (h c)).subscribedTitles} = g {t | t ∈ (h c).subscribedTitles}) :
    view (modify h c f,r') = Function.update (view (h,r)) k ((view (h,r) k).map g) := by
  have hfind : ∀ j, r'.findSomeById j = r.findSomeById j :=
    fun j => by rw [ClientRegistryImpl.findSomeById, hr, ClientRegistryImpl.findSomeById]
  funext j
  by_cases hj : j = k
  · subst hj
    simp [view, hfind, hf, hg]
  · rw [Function.update_of_ne hj]
    simp only [view, hfind]
    cases hd : r.findSomeById j with
    | none => rfl
    | some d =>
      have hne : d ≠ c := by
        rintro rfl
        exact hj ((ha.keyed j d hd).symm.trans (ha.keyed k d hf))
      simp [modify_other h c d f hne]

theorem view_op_step (s : Clients × ClientRegistryImpl) (op : Op) (ha : Agrees s.1 s.2)
    (hop : Admitted s op) : view (opStep s op) = directoryStep (view s) (described s op) := by
  cases op with
  | addClient c =>
    funext k
    simp only [view, opStep, described, directoryStep, ClientRegistryImpl.find_add_client]
    by_cases hk : k = (s.1 c).id
    · simp [hk]
    · simp [hk, view]
  | removeClient k =>
    funext j
    simp only [view, opStep, described, directoryStep, ClientRegistryImpl.find_remove_client]
    by_cases hj : j = k
    · simp [hj]
    · simp [hj, view]
  | registerTitle k title =>
    simp only [opStep, described, directoryStep]
    cases hf : s.2.findSomeById k with
    | none =>
      rw [ClientRegistryImpl.register_title_none s.1 k title s.2 hf]
      exact (Function.update_eq_self_iff.mpr (by simp [view, hf])).symm
    | some c =>
      rw [ClientRegistryImpl.register_title_some s.1 k title c s.2 hf]
      refine view_title_change s.1 s.2 _ ha k c _ _ hf rfl ?_
      ext t
      simp [RexClientInner.mem_insert_title, split_single title hop, or_comm]
  | unregisterTitle k title =>
    simp only [opStep, described, directoryStep]
    cases hf : s.2.findSomeById k with
    | none =>
      rw [ClientRegistryImpl.unregister_title_none s.1 k title s.2 hf]
      exact (Function.update_eq_self_iff.mpr (by simp [view, hf])).symm
    | some c =>
      rw [ClientRegistryImpl.unregister_title_some s.1 k title c s.2 hf]
      refine view_title_change s.1 s.2 _ ha k c _ _ hf rfl ?_
      ext t
      simp [RexClientInner.mem_remove_title]
  | edit c x =>
    funext k
    simp only [view, opStep, described, directoryStep]
    cases hd : s.2.findSomeById k with
    | none => rfl
    | some d =>
      by_cases hdc : d = c
      · subst hdc
        have hx := hop.resolve_left fun hn => hn k hd
        simp [hx.2]
      · simp [hdc]

def describedRun : Clients × ClientRegistryImpl → List Op → List DirectoryOp
  | _, [] => []
  | s, op::ops => described s op::describedRun (opStep s op) ops

/-- The registry refines the directory: seen through the ids, every admitted
run is the run of the described directory operations. -/
theorem registry_refines_directory (s : Clients × ClientRegistryImpl) (ops : List Op)
    (hs : Agrees s.1 s.2) (ha : Along opStep Admitted s ops) :
    view (ops.foldl opStep s) = (describedRun s ops).foldl directoryStep (view s) := by
  induction ops generalizing s with
  | nil => rfl
  | cons op ops ih =>
    rw [List.foldl_cons, ih _ (op_step_agrees s op hs ha.1) ha.2, view_op_step s op hs ha.1,
      describedRun, List.foldl_cons]

/-- The answers of the lookups are those of the clients' own lists. -/
structure Answers (h : Clients) (r : ClientRegistryImpl) (t : Title) (x : Option ClientId)
    (draw : ℕ) (now : UInt64) : Prop where
  keyed : ∀ k c, r.findSomeById k = some c → (h c).id = k
  distinct : ((r.findAllByTitle h t x).map (fun c => (h c).id)).Nodup
  all : ∀ k, k ∈ (r.findAllByTitle h t x).map (fun c => (h c).id) ↔
    x ≠ some k ∧ ∃ c, r.findSomeById k = some c ∧ t ∈ (h c).subscribedTitles
  one : ∀ c, r.findOneByTitle h draw t x = some c →
    (h c).id ∈ (r.findAllByTitle h t x).map (fun c => (h c).id)
  none_iff : r.findOneByTitle h draw t x = none ↔
    (r.findAllByTitle h t x).map (fun c => (h c).id) = []
  inhabited : r.title2clients.lookup t ≠ some []
  count : r.titleCount = obsTitleCount h now r

theorem find_all_iff (h : Clients) (r : ClientRegistryImpl) (ha : Agrees h r) (t : Title)
    (x : Option ClientId) (k : ClientId) :
    k ∈ (r.findAllByTitle h t x).map (fun c => (h c).id) ↔
      x ≠ some k ∧ ∃ c, r.findSomeById k = some c ∧ t ∈ (h c).subscribedTitles := by
  rw [ClientRegistryImpl.find_all_by_title_eq]
  constructor
  · intro hk
    obtain ⟨c, hc, rfl⟩ := List.mem_map.mp hk
    obtain ⟨hm, hx⟩ := List.mem_filter.mp hc
    have hr := (ha.index.member t c).mp hm
    exact ⟨by simpa using hx,c,hr⟩
  · rintro ⟨hx, c, hc, ht⟩
    have hid := ha.keyed k c hc
    refine List.mem_map.mpr ⟨c,List.mem_filter.mpr ⟨(ha.index.member t c).mpr ⟨?_,ht⟩,?_⟩,hid⟩
    · rw [hid]
      exact hc
    · simpa [hid] using hx

theorem find_one_none_iff (h : Clients) (r : ClientRegistryImpl) (t : Title)
    (x : Option ClientId) (draw : ℕ) :
    r.findOneByTitle h draw t x = none ↔ r.findAllByTitle h t x = [] := by
  rw [ClientRegistryImpl.find_one_by_title_eq, List.getElem?_eq_none_iff]
  constructor
  · intro hle
    by_contra hne
    have := Nat.mod_lt draw (List.length_pos_iff.mpr hne)
    omega
  · intro he
    simp [he]

theorem mem_titles_fold (snaps : List ClientSnapshot) (T : Finset Title) (t : Title) :
    t ∈ snaps.foldl (fun titles snap => snap.titles.foldl (fun titles t => insert t titles) titles)
      T ↔ t ∈ T ∨ ∃ snap ∈ snaps, t ∈ snap.titles := by
  have hinner : ∀ (ts : List Title) (T : Finset Title),
      t ∈ ts.foldl (fun titles t => insert t titles) T ↔ t ∈ T ∨ t ∈ ts := by
    intro ts
    induction ts with
    | nil => simp
    | cons u ts ih =>
      intro T
      rw [List.foldl_cons, ih, Finset.mem_insert, List.mem_cons]
      tauto
  induction snaps generalizing T with
  | nil => simp
  | cons snap snaps ih =>
    refine (ih _).trans ?_
    rw [hinner, List.exists_mem_cons_iff, or_assoc]

theorem title_count_eq (h : Clients) (r : ClientRegistryImpl) (ha : Agrees h r) (now : UInt64) :
    r.titleCount = obsTitleCount h now r := by
  have hk : r.title2clients.keys.toFinset = (r.listSnapshots h now).foldl
      (fun titles snap => snap.titles.foldl (fun titles t => insert t titles) titles) ∅ := by
    ext t
    rw [List.mem_toFinset, ← AList.mem_keys, indexes_mem_iff _ _ _ ha.index, mem_titles_fold]
    simp only [Finset.notMem_empty, false_or, ClientRegistryImpl.listSnapshots, List.mem_map]
    constructor
    · rintro ⟨c, hc, ht⟩
      exact ⟨_,⟨⟨_,c⟩,AList.mem_lookup_iff.mp hc,rfl⟩,ht⟩
    · rintro ⟨_, ⟨⟨k, c⟩, hc, rfl⟩, ht⟩
      have hf : r.findSomeById k = some c := AList.mem_lookup_iff.mpr hc
      refine ⟨c,?_,ht⟩
      rw [ha.keyed k c hf]
      exact hf
  rw [obsTitleCount, ← hk, List.toFinset_card_of_nodup r.title2clients.keys_nodup,
    ClientRegistryImpl.titleCount, AList.keys, List.keys, List.length_map]

theorem agrees_answers (h : Clients) (r : ClientRegistryImpl) (ha : Agrees h r) (t : Title)
    (x : Option ClientId) (draw : ℕ) (now : UInt64) : Answers h r t x draw now where
  keyed := ha.keyed
  distinct := by
    rw [ClientRegistryImpl.find_all_by_title_eq]
    exact (ha.index.distinct t).sublist (List.Sublist.map _ List.filter_sublist)
  all := find_all_iff h r ha t x
  one := by
    intro c hc
    rw [ClientRegistryImpl.find_one_by_title_eq] at hc
    exact List.mem_map_of_mem (List.mem_of_getElem? hc)
  none_iff := by rw [find_one_none_iff, List.map_eq_nil_iff]
  inhabited := by
    intro he
    refine ha.index.inhabited t (AList.lookup_isSome.mp (by rw [he]; rfl)) ?_
    rw [listed, he, Option.getD_some]
  count := title_count_eq h r ha now

/-- In every state of every admitted run all lookups answer from the clients'
own title lists. -/
theorem registry_lookups_agree (h : Clients) (ops : List Op)
    (ha : Along opStep Admitted (h,.new) ops) :
    Always opStep (fun s => ∀ t x draw now, Answers s.1 s.2 t x draw now) (h,.new) ops :=
  always_mono opStep (fun s => Agrees s.1 s.2) _ (fun s hs => agrees_answers s.1 s.2 hs) _ _
    (always_of_along opStep Admitted (fun s => Agrees s.1 s.2) op_step_agrees _ _
      (new_agrees h) ha)

/-- Two clients share a title, one leaves it, the other leaves the registry. -/
theorem shared_title_lookups_agree :
    let h : Clients := fun c => .new (BitVec.ofNat 128 (c+1)) [] c 0
    let news : Title := [110,101,119,115]
    Always opStep (fun s => ∀ t x draw now, Answers s.1 s.2 t x draw now) (h,.new)
      [.addClient 0,.addClient 1,.registerTitle 1 news,.registerTitle 2 news,
        .unregisterTitle 1 news,.removeClient 2] := by
  intro h news
  refine registry_lookups_agree h _ ⟨?_,?_,?_,?_,trivial,trivial,trivial⟩
  · rfl
  · rfl
  · exact (by decide : SingleTitle news)
  · exact (by decide : SingleTitle news)

end RexMq.RegistryIndex
