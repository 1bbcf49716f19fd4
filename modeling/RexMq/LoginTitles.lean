import Mathlib.Tactic.Common
import RexMq.ServerRun

/-!
# Titles asked for at login

A login hands its titles to the client's own list. Only for an id that was
unknown is the client registered afterwards, which enters its list into the
title index; a login under a registered id leaves the index as it is. So the
second kind makes its titles routable exactly when they already were.
-/

set_option autoImplicit false

namespace RexMq.LoginTitles
open RexMq.ByteWords RexMq.FrameData RexMq.ClientRegistry RexMq.PersistentStore
open RexMq.ServerState RexMq.Handlers RexMq.HandlerEffects RexMq.FrameAccess RexMq.ServerRun

def Routable (s : Server) (k : ClientId) (t : Title) : Prop :=
  ∃ c ∈ s.registry.findAllByTitle s.clients t none, (s.clients c).id = k

instance (s : Server) (k : ClientId) (t : Title) : Decidable (Routable s k t) := by
  unfold Routable
  infer_instance

theorem routable_iff (s : Server) (k : ClientId) (t : Title) :
    Routable s k t ↔ ∃ c ∈ s.registry.subscribers t, (s.clients c).id = k := by
  unfold Routable
  rw [ClientRegistryImpl.find_all_by_title_eq]
  simp

theorem routable_congr (s t : Server) (hr : t.registry = s.registry)
    (hid : ∀ c, (t.clients c).id = (s.clients c).id) (k : ClientId) (u : Title) :
    Routable t k u ↔ Routable s k u := by
  rw [routable_iff, routable_iff, hr]
  simp only [hid]

section Login
variable (env : Env) (c : ClientRef) (k : ClientId) (title : Bytes) (s : Server) (u : Title)

/-- Every title of the object is listed: by the registration, or because an
entry with the same id was there before. -/
theorem routable_enroll (h : u ∈ ((enroll env c k title s).clients c).subscribedTitles) :
    Routable (enroll env c k title s) k u := by
  rw [routable_iff]
  by_cases hold : ∃ d ∈ s.registry.subscribers u, ((enroll env c k title s).clients d).id = k
  · obtain ⟨d, hd, hk⟩ := hold
    exact ⟨d,(mem_subscribers_enroll_iff env c k title s d u).mpr (.inl hd),hk⟩
  · refine ⟨c,(mem_subscribers_enroll_iff env c k title s c u).mpr (.inr ⟨rfl,h,?_⟩),?_⟩
    · exact fun d hd hk => hold ⟨d,hd,hk⟩
    · rw [id_enroll, if_pos rfl]

theorem routable_enroll_of_before (h : Routable s k u) : Routable (enroll env c k title s) k u := by
  rw [routable_iff] at h ⊢
  obtain ⟨d, hd, hk⟩ := h
  refine ⟨d,(mem_subscribers_enroll_iff env c k title s d u).mpr (.inl hd),?_⟩
  rw [id_enroll, hk, ite_self]

theorem routable_take_over (client : ClientRef) :
    Routable (takeOver client c title s) k u ↔ Routable s k u :=
  routable_congr s (takeOver client c title s) rfl (id_take_over c title s client) k u

end Login

end RexMq.LoginTitles
