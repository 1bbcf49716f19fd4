import Mathlib.Tactic.Common
import RexMq.RegistryIndex
import RexMq.ServerRun

/-!
# Strings of several titles

A client object splits a title string at semicolons, so its own list only
holds single titles and survives being joined and split again. The index of
titles is given the unsplit string. A string with several components is
therefore entered under a title that no single component is looked up by.
-/

set_option autoImplicit false

namespace RexMq.MultiTitles
open RexMq.ByteWords RexMq.FrameData RexMq.RelationIndex RexMq.ClientRegistry
open RexMq.RegistryIndex RexMq.ServerState RexMq.Handlers RexMq.HandlerEffects
open RexMq.FrameAccess RexMq.ServerRun

section Lists

inductive TitleOp where
  | insert (title : Bytes)
  | remove (title : Bytes)
  deriving DecidableEq, Repr

def TitleOp.apply (c : RexClientInner) : TitleOp → RexClientInner
  | .insert title => c.insertTitle title
  | .remove title => c.removeTitle title

theorem apply_single (c : RexClientInner) (op : TitleOp)
    (h : ∀ t ∈ c.subscribedTitles, SingleTitle t) :
    ∀ t ∈ (op.apply c).subscribedTitles, SingleTitle t := by
  intro t ht
  cases op with
  | insert title =>
    rcases (RexClientInner.mem_insert_title title c t).mp ht with ht | ht
    · exact h t ht
    · exact single_of_split title t ht
  | remove title => exact h t ((RexClientInner.mem_remove_title title c t).mp ht).1

theorem run_single (c : RexClientInner) (ops : List TitleOp)
    (h : ∀ t ∈ c.subscribedTitles, SingleTitle t) :
    ∀ t ∈ (ops.foldl TitleOp.apply c).subscribedTitles, SingleTitle t := by
  induction ops generalizing c with
  | nil => exact h
  | cons op ops ih => exact ih _ (apply_single c op h)

theorem push_missing_eq (ts us : List Title) :
    ts.foldl (fun us t => if t ∈ us then us else us++[t]) us =
      us++(ts.filter (fun t => t ∉ us)).eraseDups := by
  induction ts generalizing us with
  | nil => simp
  | cons u ts ih =>
    rw [List.foldl_cons, ih]
    by_cases hu : u ∈ us
    · rw [if_pos hu, List.filter_cons_of_neg (by simpa using hu)]
    · have hf : ts.filter (fun t => t ∉ us++[u]) =
          (ts.filter (fun t => t ∉ us)).filter (fun t => !t == u) := by
        rw [List.filter_filter]
        apply List.filter_congr
        intro t _
        by_cases ht : t ∈ us <;> by_cases he : t = u <;> simp [ht, he]
      rw [if_neg hu, List.filter_cons_of_pos (by simpa using hu), List.eraseDups_cons, hf,
        List.append_assoc]
      rfl

theorem insert_title_eq (title : Bytes) (c : RexClientInner) :
    (c.insertTitle title).subscribedTitles = c.subscribedTitles++
      ((splitTitles title).filter (fun t => t ∉ c.subscribedTitles)).eraseDups :=
  push_missing_eq _ _

theorem insert_title_present (title : Bytes) (c : RexClientInner)
    (h : ∀ t ∈ splitTitles title, t ∈ c.subscribedTitles) : c.insertTitle title = c := by
  have hf : (splitTitles title).filter (fun t => t ∉ c.subscribedTitles) = [] :=
    List.filter_eq_nil_iff.mpr (fun t ht => by simpa using h t ht)
  have ht := insert_title_eq title c
  rw [hf, List.eraseDups_nil, List.append_nil] at ht
  calc c.insertTitle title
      = { c with subscribedTitles := (c.insertTitle title).subscribedTitles } := rfl
    _ = c := by rw [ht]

def titled (id : ClientId) (title : Bytes) (sender : SenderRef) (now : UInt64)
    (ops : List TitleOp) : RexClientInner :=
  ops.foldl TitleOp.apply (.new id title sender now)

/-- The title list of a client object holds single titles only, grows by the
missing components of an inserted string, and is what its own string is
split into. -/
theorem title_list_laws (id : ClientId) (title : Bytes) (sender : SenderRef) (now : UInt64)
    (ops : List TitleOp) :
    (∀ t ∈ (titled id title sender now ops).subscribedTitles, t ≠ [] ∧ 59 ∉ t) ∧
    (∀ s, ((titled id title sender now ops).insertTitle s).subscribedTitles =
        (titled id title sender now ops).subscribedTitles++((splitTitles s).filter
          (fun t => t ∉ (titled id title sender now ops).subscribedTitles)).eraseDups ∧
      ((titled id title sender now ops).insertTitle s).insertTitle s =
        (titled id title sender now ops).insertTitle s) ∧
    ∀ id' sender' now',
      (RexClientInner.new id' (titled id title sender now ops).titleStr sender'
        now').subscribedTitles = (titled id title sender now ops).subscribedTitles := by
  have hs : ∀ t ∈ (titled id title sender now ops).subscribedTitles, SingleTitle t :=
    run_single _ ops (fun t ht => single_of_split title t ht)
  generalize titled id title sender now ops = c at hs ⊢
  refine ⟨hs,fun s => ⟨insert_title_eq s c,?_⟩,fun _ _ _ => split_join _ hs⟩
  apply insert_title_present
  intro t ht
  exact (RexClientInner.mem_insert_title s c t).mpr (.inr ht)

end Lists

section Commands
variable (s : Server) (k : ClientId) (c : ClientRef) (T : Bytes)

def Unlisted : Prop := ∀ e ∈ s.registry.subscribers T, (s.clients e).id ≠ k

theorem handle_mutation (env : Env) (source : ClientRef) (f : RexData) (t : Server)
    (m : Mutation) (command : RexCommand) (hc : f.command = .ok command)
    (hm : Mutation.fromCommand command = some m) (hk : f.source = .ok k)
    (ht : f.title = .ok T) (hl : s.live k = some c) (hok : handle env source f s = .ok t) :
    Quiet (mutate m k T s) t := by
  have hs : sessionMutator env source f s = .ok t := by
    rw [handle, bind_of_ok hc] at hok
    cases command <;> first | exact hok | cases hm
  rw [sessionMutator, bind_of_ok hk, bind_of_ok ht, bind_of_ok hc] at hs
  simp only [hm, hl] at hs
  obtain ⟨g, -, hs⟩ := bind_ok hs
  cases hs
  refine quiet_trans _ _ _ (quiet_plain _ _ ?_) (quiet_send_buf env c g.content _)
  exact ⟨rfl,rfl,rfl,rfl,rfl,fun _ => rfl,rfl⟩

theorem receive_mutation (env : Env) (source : ClientRef) (f : RexData)
    (m : Mutation) (command : RexCommand) (hc : f.command = .ok command)
    (hm : Mutation.fromCommand command = some m) (hk : f.source = .ok k)
    (ht : f.title = .ok T) (hl : s.live k = some c) :
    Quiet (mutate m k T s) (receiveFrame env source f s) := by
  have hack : f.command ≠ .ok .ack := by
    rw [hc]
    rintro ⟨⟩
    cases hm
  obtain ⟨t, hok⟩ := handle_ok env source f s (fits_of_title f T ht hack)
  have hq := handle_mutation s k c T env source f t m command hc hm hk ht hl hok
  rw [receiveFrame, hok]
  exact quiet_trans _ t _ hq (quiet_touch t source env.now)

theorem live_mutate (m : Mutation) (hl : s.live k = some c) :
    (mutate m k T s).live k = some c := by
  rw [mutate_some m k T s c hl]
  exact hl

theorem id_mutate (m : Mutation) (hl : s.live k = some c) :
    ((mutate m k T s).clients c).id = (s.clients c).id := by
  rw [mutate_some m k T s c hl]
  exact modify_field s.clients c c _ RexClientInner.id (id_on_client m T _)

theorem titles_register (hl : s.live k = some c) (t : Title) :
    t ∈ ((mutate .register k T s).clients c).subscribedTitles ↔
      t ∈ (s.clients c).subscribedTitles ∨ t ∈ splitTitles T := by
  rw [mutate_some .register k T s c hl]
  simp only [modify_same, onClient]
  exact RexClientInner.mem_insert_title T (s.clients c) t

theorem titles_unregister (hl : s.live k = some c) (t : Title) :
    t ∈ ((mutate .unregister k T s).clients c).subscribedTitles ↔
      t ∈ (s.clients c).subscribedTitles ∧ t ≠ T := by
  rw [mutate_some .unregister k T s c hl]
  simp only [modify_same, onClient]
  exact RexClientInner.mem_remove_title T (s.clients c) t

theorem listed_register (hl : s.live k = some c) (t : Title) :
    c ∈ (mutate .register k T s).registry.subscribers t ↔
      c ∈ s.registry.subscribers t ∨ t = T ∧ Unlisted s k T := by
  rw [mutate_some .register k T s c hl]
  refine (mem_listed_enlist ..).trans (or_congr_right ?_)
  exact ⟨fun h => h.2,fun h => ⟨rfl,h⟩⟩

theorem listed_unregister (hl : s.live k = some c) (t : Title) :
    c ∈ (mutate .unregister k T s).registry.subscribers t ↔
      c ∈ s.registry.subscribers t ∧ ¬ (t = T ∧ (s.clients c).id = k) := by
  rw [mutate_some .unregister k T s c hl]
  exact mem_listed_delist ..

theorem mem_find_all (h : Clients) (t : Title) (r : ClientRegistryImpl) :
    c ∈ r.findAllByTitle h t none ↔ c ∈ r.subscribers t := by
  rw [ClientRegistryImpl.find_all_by_title_eq]
  simp

/-- No lookup answers an object that is not listed, and one without an
excluded id answers every listed object. -/
theorem never_found_iff (h : Clients) (r : ClientRegistryImpl) :
    (∀ t x draw, c ∉ r.findAllByTitle h t x ∧ r.findOneByTitle h draw t x ≠ some c) ↔
      ∀ t, c ∉ r.subscribers t := by
  constructor
  · intro hn t hin
    exact (hn t none 0).1 ((mem_find_all c h t r).mpr hin)
  · intro hn t x draw
    have hall : c ∉ r.findAllByTitle h t x := by
      rw [ClientRegistryImpl.find_all_by_title_eq]
      exact fun hin => hn t (List.mem_of_mem_filter hin)
    refine ⟨hall,fun hone => hall ?_⟩
    rw [ClientRegistryImpl.find_one_by_title_eq] at hone
    exact List.mem_of_getElem? hone

/-- What a registration of `T`, its cancellation and the removal of the
client afterwards are expected to do for the client's lookups. -/
structure TitlesHeld (s₁ s₂ : Server) : Prop where
  registered : ∀ t ∈ splitTitles T, c ∈ s₁.registry.findAllByTitle s₁.clients t none
  unregistered : ∀ t ∈ splitTitles T, c ∉ s₂.registry.findAllByTitle s₂.clients t none
  removed : ∀ t x draw,
    c ∉ (s₂.registry.removeClient s₂.clients k).2.findAllByTitle s₂.clients t x ∧
    (s₂.registry.removeClient s₂.clients k).2.findOneByTitle s₂.clients draw t x ≠ some c

end Commands

/-- Both commands handled, one after the other. -/
structure Handled (s : Server) (k : ClientId) (c : ClientRef) (T : Bytes) (s₁ s₂ : Server) :
    Prop where
  live : s.live k = some c
  register : Quiet (mutate .register k T s) s₁
  unregister : Quiet (mutate .unregister k T s₁) s₂

namespace Handled
variable {s : Server} {k : ClientId} {c : ClientRef} {T : Bytes} {s₁ s₂ : Server}
variable (h : Handled s k c T s₁ s₂)
include h

theorem live₁ : s₁.live k = some c := by
  rw [h.register.live]
  exact live_mutate s k c T .register h.live

theorem live₂ : s₂.live k = some c := by
  rw [h.unregister.live]
  exact live_mutate s₁ k c T .unregister h.live₁

theorem id₁ : (s₁.clients c).id = (s.clients c).id :=
  (h.register.id c).trans (id_mutate s k c T .register h.live)

theorem id₂ : (s₂.clients c).id = (s.clients c).id :=
  ((h.unregister.id c).trans (id_mutate s₁ k c T .unregister h.live₁)).trans h.id₁

theorem listed₁ (t : Title) : c ∈ s₁.registry.subscribers t ↔
    c ∈ s.registry.subscribers t ∨ t = T ∧ Unlisted s k T := by
  rw [h.register.registry]
  exact listed_register s k c T h.live t

theorem listed₂ (t : Title) : c ∈ s₂.registry.subscribers t ↔
    c ∈ s₁.registry.subscribers t ∧ ¬ (t = T ∧ (s.clients c).id = k) := by
  rw [h.unregister.registry, listed_unregister s₁ k c T h.live₁, h.id₁]

theorem titles₂ (t : Title) : t ∈ (s₂.clients c).subscribedTitles ↔
    (t ∈ (s.clients c).subscribedTitles ∨ t ∈ splitTitles T) ∧ t ≠ T := by
  rw [h.unregister.titles, titles_unregister s₁ k c T h.live₁, h.register.titles,
    titles_register s k c T h.live]

theorem listed₃ (t : Title) :
    c ∈ (s₂.registry.removeClient s₂.clients k).2.subscribers t ↔
      c ∈ s₂.registry.subscribers t ∧
        ¬ (t ∈ (s₂.clients c).subscribedTitles ∧ (s.clients c).id = k) := by
  rw [ClientRegistryImpl.mem_subscribers_remove_client, ← h.id₂]
  have hl : s₂.registry.findSomeById k = some c := h.live₂
  simp only [hl, Option.some.injEq, exists_eq_left']

theorem titles_held_iff : TitlesHeld k c T s₁ s₂ ↔
    (∀ t ∈ splitTitles T, t = T ∧ (s.clients c).id = k ∧
      (c ∈ s.registry.subscribers T ∨ Unlisted s k T)) ∧
    ∀ t, (c ∈ s.registry.subscribers t ∨ t = T ∧ Unlisted s k T) →
      (s.clients c).id = k ∧ (t = T ∨ t ∈ (s.clients c).subscribedTitles) := by
  constructor
  · rintro ⟨hr, hu, hd⟩
    have hT : ∀ t ∈ splitTitles T, t = T ∧ (s.clients c).id = k ∧
        (c ∈ s.registry.subscribers T ∨ Unlisted s k T) := by
      intro t ht
      have hin := (mem_find_all c _ t _).mp (hr t ht)
      have hout : c ∉ s₂.registry.subscribers t :=
        fun hin => hu t ht ((mem_find_all c _ t _).mpr hin)
      rw [h.listed₂, not_and_not_right] at hout
      obtain ⟨rfl, hid⟩ := hout hin
      refine ⟨rfl,hid,?_⟩
      rcases (h.listed₁ t).mp hin with hin | hin
      · exact .inl hin
      · exact .inr hin.2
    refine ⟨hT,fun t ht => ?_⟩
    have hgone := (never_found_iff c _ _).mp hd t
    rw [h.listed₃, not_and_not_right, h.listed₂, h.titles₂, h.listed₁] at hgone
    by_cases hkept : t = T ∧ (s.clients c).id = k
    · exact ⟨hkept.2,.inl hkept.1⟩
    · obtain ⟨⟨hmem | hmem, -⟩, hid⟩ := hgone ⟨ht,hkept⟩
      · exact ⟨hid,.inr hmem⟩
      · exact ⟨hid,.inl (hT t hmem).1⟩
  · rintro ⟨hT, hown⟩
    refine ⟨fun t ht => ?_,fun t ht hin => ?_,(never_found_iff c _ _).mpr fun t hin => ?_⟩
    · obtain ⟨rfl, -, hin⟩ := hT t ht
      rw [mem_find_all, h.listed₁]
      exact hin.imp_right (fun hn => ⟨rfl,hn⟩)
    · obtain ⟨rfl, hid, -⟩ := hT t ht
      rw [mem_find_all, h.listed₂] at hin
      exact hin.2 ⟨rfl,hid⟩
    · rw [h.listed₃, h.listed₂, h.listed₁, h.titles₂] at hin
      obtain ⟨⟨hin, hkept⟩, hout⟩ := hin
      obtain ⟨hid, hmem⟩ := hown t hin
      have hne : t ≠ T := fun he => hkept ⟨he,hid⟩
      exact hout ⟨⟨.inl (hmem.resolve_left hne),hne⟩,hid⟩

end Handled

/-- The two commands keep their promise for a title string exactly when it
has no other component than itself and the index agrees with the client at
it. Where index and clients agree everywhere, the first part is all. -/
theorem multi_title_iff (env env' : Env) (source source' : ClientRef) (f g : RexData)
    (s : Server) (k : ClientId) (c : ClientRef) (T : Bytes) (hl : s.live k = some c)
    (hf : f.command = .ok .regTitle ∧ f.source = .ok k ∧ f.title = .ok T)
    (hg : g.command = .ok .delTitle ∧ g.source = .ok k ∧ g.title = .ok T) :
    (TitlesHeld k c T (receiveFrame env source f s)
        (receiveFrame env' source' g (receiveFrame env source f s)) ↔
      (∀ t ∈ splitTitles T, t = T ∧ (s.clients c).id = k ∧
        (c ∈ s.registry.subscribers T ∨ Unlisted s k T)) ∧
      ∀ t, (c ∈ s.registry.subscribers t ∨ t = T ∧ Unlisted s k T) →
        (s.clients c).id = k ∧ (t = T ∨ t ∈ (s.clients c).subscribedTitles)) ∧
    (Agrees s.clients s.registry →
      (TitlesHeld k c T (receiveFrame env source f s)
          (receiveFrame env' source' g (receiveFrame env source f s)) ↔
        ∀ t ∈ splitTitles T, t = T)) := by
  have hq := receive_mutation s k c T env source f .register .regTitle hf.1 rfl hf.2.1 hf.2.2 hl
  have hl₁ : (receiveFrame env source f s).live k = some c := by
    rw [hq.live]
    exact live_mutate s k c T .register hl
  have h : Handled s k c T (receiveFrame env source f s)
      (receiveFrame env' source' g (receiveFrame env source f s)) :=
    ⟨hl,hq,receive_mutation _ k c T env' source' g .unregister .delTitle hg.1 rfl hg.2.1 hg.2.2 hl₁⟩
  refine ⟨h.titles_held_iff,fun ha => h.titles_held_iff.trans ?_⟩
  have hid := ha.keyed k c hl
  have hmem : ∀ t, c ∈ s.registry.subscribers t → t ∈ (s.clients c).subscribedTitles :=
    fun t hin => ((ha.index.member t c).mp hin).2
  -- Whoever is listed under the string with the client's id is the client.
  have hself : c ∈ s.registry.subscribers T ∨ Unlisted s k T := by
    by_cases hin : c ∈ s.registry.subscribers T
    · exact .inl hin
    · refine .inr fun e he hk => hin ?_
      have hfind := ((ha.index.member T e).mp he).1
      rw [hk, ← Server.live_def, hl] at hfind
      rwa [Option.some_inj.mp hfind]
  constructor
  · exact fun hT t ht => (hT.1 t ht).1
  · intro hT
    refine ⟨fun t ht => ⟨hT t ht,hid,hself⟩,?_⟩
    rintro t (hin | ⟨rfl, -⟩)
    · exact ⟨hid,.inr (hmem t hin)⟩
    · exact ⟨hid,.inl rfl⟩

/-- A request of client `k` as clients build it. -/
def requestFrame (command : RexCommand) (k : ClientId) (title : Title) : RexData :=
  ⟨writeWord 128 20 k (RexData.new command title []).content⟩

/-- One registered client without titles. -/
def oneClient : Server :=
  { Server.build plainConfig .noop none (fun c => .new 1 [] c 0) with
    registry := ClientRegistryImpl.new.addClient (fun c => .new 1 [] c 0) 0 }

theorem single_title_held :
    oneClient.live 1 = some 0 ∧
    TitlesHeld 1 0 [97] (receiveFrame quietEnv 0 (requestFrame .regTitle 1 [97]) oneClient)
      (receiveFrame quietEnv 0 (requestFrame .delTitle 1 [97])
        (receiveFrame quietEnv 0 (requestFrame .regTitle 1 [97]) oneClient)) := by
  have hl : oneClient.live 1 = some 0 := by decide +kernel
  have ha : Agrees oneClient.clients oneClient.registry :=
    add_client_agrees _ _ (new_agrees _) 0 rfl
  exact ⟨hl,((multi_title_iff quietEnv quietEnv 0 0 (requestFrame .regTitle 1 [97])
    (requestFrame .delTitle 1 [97]) oneClient 1 0 [97] hl (by decide +kernel)
    (by decide +kernel)).2 ha).mpr (by decide)⟩

/-- A client logs in and registers two titles with one string: it is found
under neither, only under the string, and the removal of the client leaves
it there. Cancelling the string first leaves both titles in its own list. -/
theorem two_titles_not_found :
    let y := [Event.accept 0 1 "tcp" 0,.frame 0 quietEnv (loginFrame 1 [])].foldl step
      (start plainConfig .noop none unusedClients)
    let s₁ := receiveFrame quietEnv 0 (requestFrame .regTitle 1 [97,59,98]) y.server
    let s₂ := receiveFrame quietEnv 0 (requestFrame .delTitle 1 [97,59,98]) s₁
    y.server.live 1 = some 0 ∧ splitTitles [97,59,98] = [[97],[98]] ∧
      ¬ TitlesHeld 1 0 [97,59,98] s₁ s₂ ∧
      0 ∉ s₁.registry.findAllByTitle s₁.clients [97] none ∧
      0 ∈ s₁.registry.findAllByTitle s₁.clients [97,59,98] none ∧
      0 ∈ (s₁.registry.removeClient s₁.clients 1).2.findAllByTitle s₁.clients [97,59,98] none ∧
      (s₂.clients 0).subscribedTitles = [[97],[98]] := by
  intro y s₁ s₂
  have hmissing : 0 ∉ s₁.registry.findAllByTitle s₁.clients [97] none := by decide +kernel
  exact ⟨by decide +kernel,by decide,fun h => hmissing (h.registered [97] (by decide)),hmissing,
    by decide +kernel,by decide +kernel,by decide +kernel⟩

end RexMq.MultiTitles
