import Mathlib.Data.List.Induction
import Mathlib.Tactic.Common
import RexMq.FiniteRun

/-!
# Self-delimiting streams cut into chunks

A splitter takes one whole frame off the front of a buffer or asks for more
symbols. It delimits a set of frames when it recognises each of them in
front of any continuation and recognises nothing in a frame still
incomplete. For such a splitter the receiver's buffer is always the part of
the stream after its whole frames, wherever the chunks were cut, until the
limit on the buffer makes the receiver throw that part away.
-/

set_option autoImplicit false

namespace RexMq.SelfDelimiting
open RexMq.FiniteRun

variable {α σ : Type*}

structure Delimits (next : List α → Option (List α × List α)) (frame : List α → Prop) : Prop where
  empty : next [] = none
  whole : ∀ f, frame f → ∀ rest, next (f++rest) = some (f,rest)
  short : ∀ f, frame f → ∀ p, p <+: f → p.length < f.length → next p = none

def drainBody (next : List α → Option (List α × List α)) (handle : σ → List α → σ)
    (i : σ × List α) : Flow (σ × List α) :=
  match next i.2 with
  | none => .leave i
  | some (f,rest) => .again (handle i.1 f,rest)

/-- The frames of a stream that its first `n` symbols contain wholly. -/
def wholeFrames : List (List α) → ℕ → List (List α)
  | [], _ => []
  | f::fs, n => if f.length ≤ n then f::wholeFrames fs (n-f.length) else []

/-- What a receiver of `b` still holds after its whole frames. -/
def pending (fs : List (List α)) (b : List α) : List α :=
  b.drop (wholeFrames fs b.length).flatten.length

theorem drain_frames (next : List α → Option (List α × List α)) (frame : List α → Prop)
    (hd : Delimits next frame) (handle : σ → List α → σ) (fs : List (List α))
    (hf : ∀ f ∈ fs, frame f) (p : List α) (hp : next p = none) (s : σ) (fuel : ℕ)
    (hfuel : fs.length < fuel) :
    loop (drainBody next handle) fuel (s,fs.flatten++p) = .leave (fs.foldl handle s,p) := by
  induction fs generalizing s fuel with
  | nil =>
    obtain ⟨k, rfl⟩ := Nat.exists_eq_add_of_le' (show 1 ≤ fuel from hfuel)
    simp [loop, drainBody, hp]
  | cons f fs ih =>
    obtain ⟨k, rfl⟩ := Nat.exists_eq_add_of_le' (show 1 ≤ fuel by simp at hfuel; omega)
    have hn := hd.whole f (hf f (by simp)) (fs.flatten++p)
    simp only [loop, drainBody, List.flatten_cons, List.append_assoc, hn, List.foldl_cons]
    exact ih (fun g hg => hf g (by simp [hg])) (handle s f) k (by simp at hfuel; omega)

theorem whole_append (fs gs : List (List α)) (n : ℕ) (h : fs.flatten.length ≤ n) :
    wholeFrames (fs++gs) n = fs++wholeFrames gs (n-fs.flatten.length) := by
  induction fs generalizing n with
  | nil => simp
  | cons f fs ih =>
    simp only [List.flatten_cons, List.length_append] at h ⊢
    rw [List.cons_append, wholeFrames, if_pos (by omega), ih _ (by omega), List.cons_append,
      Nat.sub_sub]

theorem whole_length_le (fs : List (List α)) (n : ℕ) : (wholeFrames fs n).flatten.length ≤ n := by
  induction fs generalizing n with
  | nil => simp [wholeFrames]
  | cons f fs ih =>
    rw [wholeFrames]
    split
    · have := ih (n-f.length)
      simp only [List.flatten_cons, List.length_append]
      omega
    · simp

theorem whole_split (fs : List (List α)) (n : ℕ) : ∃ gs, fs = wholeFrames fs n++gs := by
  induction fs generalizing n with
  | nil => exact ⟨[],rfl⟩
  | cons f fs ih =>
    rw [wholeFrames]
    split
    · obtain ⟨gs, hg⟩ := ih (n-f.length)
      exact ⟨gs,by rw [List.cons_append, ← hg]⟩
    · exact ⟨f::fs,rfl⟩

theorem whole_eq_take (fs : List (List α)) (n : ℕ) :
    wholeFrames fs n = fs.take (wholeFrames fs n).length := by
  obtain ⟨gs, hg⟩ := whole_split fs n
  exact ((congrArg (List.take (wholeFrames fs n).length) hg).trans List.take_left).symm

theorem whole_next (fs : List (List α)) (g : List α) (n : ℕ)
    (h : fs[(wholeFrames fs n).length]? = some g) :
    n < (wholeFrames fs n).flatten.length+g.length := by
  induction fs generalizing n with
  | nil => simp at h
  | cons f fs ih =>
    rw [wholeFrames] at h ⊢
    split_ifs at h ⊢ with hf
    · have := ih (n-f.length) h
      simp only [List.flatten_cons, List.length_append]
      omega
    · cases h
      rw [List.flatten_nil, List.length_nil]
      omega

theorem received_split (fs : List (List α)) (b : List α) (h : b <+: fs.flatten) :
    b = (wholeFrames fs b.length).flatten++pending fs b := by
  obtain ⟨gs, hg⟩ := whole_split fs b.length
  have hle := whole_length_le fs b.length
  have hw : (wholeFrames fs b.length).flatten <+: fs.flatten := by
    conv_rhs => rw [hg, List.flatten_append]
    exact List.prefix_append _ _
  have hb : (wholeFrames fs b.length).flatten = b.take (wholeFrames fs b.length).flatten.length :=
    List.prefix_iff_eq_take.mp (List.prefix_of_prefix_length_le hw h hle)
  rw [pending]
  conv_lhs => rw [← List.take_append_drop (wholeFrames fs b.length).flatten.length b, ← hb]

/-- The rest of a received part is the beginning of the first frame that is
not whole in it, so the splitter finds nothing there. -/
theorem pending_short (next : List α → Option (List α × List α)) (frame : List α → Prop)
    (hd : Delimits next frame) (fs : List (List α)) (hf : ∀ f ∈ fs, frame f) (b : List α)
    (h : b <+: fs.flatten) : next (pending fs b) = none := by
  induction fs generalizing b with
  | nil =>
    have hb : b = [] := by simpa using h
    simp [hb, pending, hd.empty]
  | cons f fs ih =>
    rw [List.flatten_cons] at h
    by_cases hl : f.length ≤ b.length
    · have hp : f <+: b := List.prefix_of_prefix_length_le (List.prefix_append f _) h hl
      obtain ⟨c, rfl⟩ := hp
      have hc : c <+: fs.flatten := (List.prefix_append_right_inj f).mp h
      have he : pending (f::fs) (f++c) = pending fs c := by
        simp only [pending, wholeFrames, List.length_append, Nat.le_add_right, if_true,
          Nat.add_sub_cancel_left, List.flatten_cons, List.drop_length_add_append]
      rw [he]
      exact ih (fun g hg => hf g (by simp [hg])) c hc
    · have hp : b <+: f :=
        List.prefix_of_prefix_length_le h (List.prefix_append f _) (by omega)
      have he : pending (f::fs) b = b := by simp [pending, wholeFrames, hl]
      rw [he]
      exact hd.short f (hf f (by simp)) b hp (by omega)

/-- Frames left after the first `n` symbols, and how a longer part of the
stream divides over them. -/
theorem pending_append (fs : List (List α)) (b c : List α) (h : b++c <+: fs.flatten) :
    ∃ gs, fs = wholeFrames fs b.length++gs ∧ pending fs b++c <+: gs.flatten ∧
      wholeFrames fs (b++c).length =
        wholeFrames fs b.length++wholeFrames gs (pending fs b++c).length ∧
      pending fs (b++c) = pending gs (pending fs b++c) := by
  have hb : b <+: fs.flatten := (List.prefix_append b c).trans h
  have hle := whole_length_le fs b.length
  have hsplit := received_split fs b hb
  obtain ⟨gs, hg⟩ := whole_split fs b.length
  have hplen : (pending fs b).length = b.length-(wholeFrames fs b.length).flatten.length := by
    rw [pending, List.length_drop]
  have hw : wholeFrames fs (b++c).length =
      wholeFrames fs b.length++wholeFrames gs (pending fs b++c).length := by
    have ha := whole_append (wholeFrames fs b.length) gs (b++c).length
      (by rw [List.length_append]; omega)
    rw [← hg] at ha
    rw [ha]
    congr 2
    simp only [List.length_append]
    omega
  refine ⟨gs, hg, ?_, hw, ?_⟩
  · have ht : (wholeFrames fs b.length).flatten++(pending fs b++c) <+:
        (wholeFrames fs b.length).flatten++gs.flatten := by
      rw [← List.append_assoc, ← hsplit, ← List.flatten_append, ← hg]
      exact h
    exact (List.prefix_append_right_inj _).mp ht
  · rw [pending, pending, hw, List.flatten_append, List.length_append]
    conv_lhs => rw [hsplit, List.append_assoc]
    rw [← hsplit, List.drop_length_add_append]

structure Inbox (σ α : Type*) where
  state : σ
  buffer : List α
  rejected : ℕ

/-- One chunk: append it, hand over every whole frame, and throw the rest
away when it exceeds the limit. -/
def receive (next : List α → Option (List α × List α)) (handle : σ → List α → σ)
    (limit fuel : ℕ) (i : Inbox σ α) (chunk : List α) : Option (Inbox σ α) :=
  match loop (drainBody next handle) fuel (i.state,i.buffer++chunk) with
  | .again _ => none
  | .leave (s,buf) => if limit < buf.length then some ⟨s,[],i.rejected+1⟩
      else some ⟨s,buf,i.rejected⟩

/-- The receiver's contents after the part `b` of the stream. -/
def inboxAfter (handle : σ → List α → σ) (s : σ) (fs : List (List α)) (b : List α) : Inbox σ α :=
  ⟨(wholeFrames fs b.length).foldl handle s,pending fs b,0⟩

theorem receive_chunk (next : List α → Option (List α × List α)) (frame : List α → Prop)
    (hd : Delimits next frame) (handle : σ → List α → σ) (limit fuel : ℕ)
    (fs : List (List α)) (hf : ∀ f ∈ fs, frame f) (hfuel : fs.length < fuel) (s : σ)
    (b c : List α) (h : b++c <+: fs.flatten) :
    receive next handle limit fuel (inboxAfter handle s fs b) c =
      if limit < (pending fs (b++c)).length then
        some ⟨(wholeFrames fs (b++c).length).foldl handle s,[],1⟩
      else some (inboxAfter handle s fs (b++c)) := by
  obtain ⟨gs, hg, hp, hw, hpend⟩ := pending_append fs b c h
  have hgf : ∀ g ∈ gs, frame g := fun g hm => hf g (by rw [hg]; simp [hm])
  have hlen : (wholeFrames gs (pending fs b++c).length).length ≤ fs.length := by
    obtain ⟨rest, hr⟩ := whole_split gs (pending fs b++c).length
    have h1 := congrArg List.length hg
    have h2 := congrArg List.length hr
    simp only [List.length_append] at h1 h2 ⊢
    omega
  have hwf : ∀ g ∈ wholeFrames gs (pending fs b++c).length, frame g := by
    obtain ⟨rest, hr⟩ := whole_split gs (pending fs b++c).length
    intro g hm
    exact hgf g (by rw [hr]; exact List.mem_append_left _ hm)
  have hdrain := drain_frames next frame hd handle _ hwf _
    (pending_short next frame hd gs hgf _ hp)
    ((wholeFrames fs b.length).foldl handle s) fuel (by omega)
  rw [← received_split gs _ hp, ← List.foldl_append, ← hw, ← hpend] at hdrain
  simp only [receive, inboxAfter, hdrain]

theorem whole_zero (next : List α → Option (List α × List α)) (frame : List α → Prop)
    (hd : Delimits next frame) (fs : List (List α)) (hf : ∀ f ∈ fs, frame f) :
    wholeFrames fs 0 = [] := by
  cases fs with
  | nil => rfl
  | cons f fs =>
    have hne : f ≠ [] := by
      rintro rfl
      have := hd.whole [] (hf [] (by simp)) []
      simp [hd.empty] at this
    have := List.length_pos_iff.mpr hne
    rw [wholeFrames, if_neg (by omega)]

/-- A run over chunks that never lets the rest outgrow the limit hands over
exactly the frames that arrived wholly, in order, and keeps exactly the rest
of the stream received so far. -/
theorem receive_chunks (next : List α → Option (List α × List α)) (frame : List α → Prop)
    (hd : Delimits next frame) (handle : σ → List α → σ) (limit fuel : ℕ)
    (fs : List (List α)) (hf : ∀ f ∈ fs, frame f) (hfuel : fs.length < fuel) (s : σ)
    (chunks : List (List α)) (h : chunks.flatten <+: fs.flatten)
    (hl : ∀ pre, pre <+: chunks → (pending fs pre.flatten).length ≤ limit) :
    chunks.foldlM (receive next handle limit fuel) ⟨s,[],0⟩ =
      some (inboxAfter handle s fs chunks.flatten) := by
  induction chunks using List.reverseRecOn with
  | nil => simp [inboxAfter, pending, whole_zero next frame hd fs hf]
  | append_singleton pre c ih =>
    rw [List.flatten_append, List.flatten_singleton] at h
    have hpre := ih ((List.prefix_append _ _).trans h)
      (fun q hq => hl q (hq.trans (List.prefix_append _ _)))
    have hc := hl (pre++[c]) (List.prefix_refl _)
    rw [List.flatten_append, List.flatten_singleton] at hc
    rw [List.foldlM_append, hpre, List.flatten_append, List.flatten_singleton]
    simp only [List.foldlM_cons, List.foldlM_nil, Option.bind_eq_bind, Option.bind_some]
    rw [receive_chunk next frame hd handle limit fuel fs hf hfuel s _ c h,
      if_neg (Nat.not_lt.mpr hc)]
    rfl

/-- A splitter that decides on what it has seen: what it takes off a buffer
it takes off every continuation of the buffer. -/
structure Extends (next : List α → Option (List α × List α)) : Prop where
  consumes : ∀ b f r, next b = some (f,r) → b = f++r ∧ f ≠ []
  extend : ∀ b f r c, next b = some (f,r) → next (b++c) = some (f,r++c)

def drainAll (next : List α → Option (List α × List α)) (handle : σ → List α → σ)
    (i : σ × List α) : σ × List α :=
  match loop (drainBody next handle) (i.2.length+1) i with
  | .again j => j
  | .leave j => j

def drainChunk (next : List α → Option (List α × List α)) (handle : σ → List α → σ)
    (i : σ × List α) (chunk : List α) : σ × List α :=
  drainAll next handle (i.1,i.2++chunk)

section Extending
variable {next : List α → Option (List α × List α)} (hx : Extends next) (handle : σ → List α → σ)

theorem drain_body_none (i : σ × List α) (h : next i.2 = none) :
    drainBody next handle i = .leave i := by
  simp only [drainBody, h]

theorem drain_body_some (i : σ × List α) (f r : List α) (h : next i.2 = some (f,r)) :
    drainBody next handle i = .again (handle i.1 f,r) := by
  simp only [drainBody, h]

theorem drain_all_none (i : σ × List α) (h : next i.2 = none) : drainAll next handle i = i := by
  simp only [drainAll, loop, drain_body_none handle i h]

include hx

theorem rest_shorter (b f r : List α) (h : next b = some (f,r)) : r.length < b.length := by
  obtain ⟨rfl, hf⟩ := hx.consumes b f r h
  have := List.length_pos_iff.mpr hf
  rw [List.length_append]
  omega

theorem next_nil : next [] = none := by
  cases h : next [] with
  | none => rfl
  | some x =>
    have := rest_shorter hx [] x.1 x.2 h
    simp at this

/-- To show something of every state, show it where the splitter stops and
pass it back over one frame. -/
theorem drain_induct (P : σ × List α → Prop) (stop : ∀ i, next i.2 = none → P i)
    (take : ∀ i f r, next i.2 = some (f,r) → P (handle i.1 f,r) → P i) (i : σ × List α) : P i := by
  suffices h : ∀ n (i : σ × List α), i.2.length ≤ n → P i from h _ i (Nat.le_refl _)
  intro n
  induction n with
  | zero =>
    intro i hi
    have hb : i.2 = [] := List.length_eq_zero_iff.mp (by omega)
    exact stop i (by rw [hb]; exact next_nil hx)
  | succ n ih =>
    intro i hi
    cases h : next i.2 with
    | none => exact stop i h
    | some x =>
      have := rest_shorter hx i.2 x.1 x.2 h
      exact take i x.1 x.2 h (ih _ (by dsimp only; omega))

theorem drain_loop_leaves (i : σ × List α) :
    loop (drainBody next handle) (i.2.length+1) i = .leave (drainAll next handle i) := by
  obtain ⟨t, ht⟩ := loop_leaves (drainBody next handle) (fun j => j.2.length) i
    (fun u v _ hv => by
      cases hn : next u.2 with
      | none =>
        rw [drain_body_none handle u hn] at hv
        cases hv
      | some x =>
        rw [drain_body_some handle u x.1 x.2 hn] at hv
        cases hv
        exact rest_shorter hx u.2 x.1 x.2 hn)
  rw [drainAll, ht]

theorem drain_all_some (i : σ × List α) (f r : List α) (h : next i.2 = some (f,r)) :
    drainAll next handle i = drainAll next handle (handle i.1 f,r) := by
  have hr := rest_shorter hx i.2 f r h
  have hrest := loop_leave_mono _ (r.length+1) i.2.length _ _
    (drain_loop_leaves hx handle (handle i.1 f,r)) (by omega)
  have hi := drain_loop_leaves hx handle i
  rw [loop, drain_body_some handle i f r h] at hi
  simp only [hrest] at hi
  injection hi with hi
  exact hi.symm

theorem drain_append (s : σ) (b c : List α) :
    drainAll next handle (s,b++c) = drainChunk next handle (drainAll next handle (s,b)) c := by
  apply drain_induct hx handle (fun i => drainAll next handle (i.1,i.2++c) =
    drainChunk next handle (drainAll next handle i) c) _ _ (s,b)
  · intro i h
    rw [drain_all_none handle i h]
    rfl
  · intro i f r h hr
    rw [drain_all_some hx handle i f r h, ← hr]
    exact drain_all_some hx handle _ f _ (hx.extend i.2 f r c h)

theorem drain_chunks (s : σ) (chunks : List (List α)) :
    chunks.foldl (drainChunk next handle) (s,[]) = drainAll next handle (s,chunks.flatten) := by
  induction chunks using List.reverseRecOn with
  | nil => exact (drain_all_none handle (s,[]) (next_nil hx)).symm
  | append_singleton pre c ih =>
    rw [List.foldl_append, ih, List.flatten_append, List.flatten_singleton,
      drain_append hx handle s]
    rfl

theorem entered_stop (i t : σ × List α) (h : Entered (drainBody next handle) i t)
    (ht : next t.2 = none) : t = drainAll next handle i := by
  revert h
  apply drain_induct hx handle
    (fun i => Entered (drainBody next handle) i t → t = drainAll next handle i)
  · intro i hn h
    rcases entered_cases _ i t h with rfl | ⟨u, hu, -⟩
    · exact (drain_all_none handle t hn).symm
    · rw [drain_body_none handle i hn] at hu
      cases hu
  · intro i f r hn ih h
    rcases entered_cases _ i t h with rfl | ⟨u, hu, h⟩
    · rw [ht] at hn
      cases hn
    · rw [drain_body_some handle i f r hn] at hu
      cases hu
      rw [drain_all_some hx handle i f r hn]
      exact ih h

/-- The states entered with a longer buffer: those entered before, each with
the rest behind it, and those entered from where that stopped. -/
theorem entered_append (s : σ) (b c : List α) (t : σ × List α) :
    Entered (drainBody next handle) (s,b++c) t →
      (∃ u, Entered (drainBody next handle) (s,b) u ∧ t = (u.1,u.2++c)) ∨
      Entered (drainBody next handle)
        ((drainAll next handle (s,b)).1,(drainAll next handle (s,b)).2++c) t := by
  apply drain_induct hx handle (fun i => Entered (drainBody next handle) (i.1,i.2++c) t →
    (∃ u, Entered (drainBody next handle) i u ∧ t = (u.1,u.2++c)) ∨
    Entered (drainBody next handle)
      ((drainAll next handle i).1,(drainAll next handle i).2++c) t) _ _ (s,b)
  · intro i hn h
    rw [drain_all_none handle i hn]
    exact .inr h
  · intro i f r hn ih h
    rcases entered_cases _ _ t h with rfl | ⟨u, hu, h⟩
    · exact .inl ⟨i,entered_self _ i,rfl⟩
    · rw [drain_body_some handle (i.1,i.2++c) f (r++c) (hx.extend i.2 f r c hn)] at hu
      cases hu
      rw [drain_all_some hx handle i f r hn]
      rcases ih h with ⟨v, hv, ht⟩ | ht
      · exact .inl ⟨v,entered_again _ i _ v (drain_body_some handle i f r hn) hv,ht⟩
      · exact .inr ht

theorem entered_of_chunk (s : σ) (b c : List α) (t : σ × List α) :
    Entered (drainBody next handle)
        ((drainAll next handle (s,b)).1,(drainAll next handle (s,b)).2++c) t →
      Entered (drainBody next handle) (s,b++c) t := by
  apply drain_induct hx handle (fun i => Entered (drainBody next handle)
      ((drainAll next handle i).1,(drainAll next handle i).2++c) t →
    Entered (drainBody next handle) (i.1,i.2++c) t) _ _ (s,b)
  · intro i hn h
    rwa [drain_all_none handle i hn] at h
  · intro i f r hn ih h
    rw [drain_all_some hx handle i f r hn] at h
    exact entered_again _ _ _ t
      (drain_body_some handle (i.1,i.2++c) f (r++c) (hx.extend i.2 f r c hn)) (ih h)

theorem drain_all_frames (fs : List (List α))
    (hf : ∀ f ∈ fs, ∀ rest, next (f++rest) = some (f,rest)) (s : σ) (p : List α) :
    drainAll next handle (s,fs.flatten++p) = drainAll next handle (fs.foldl handle s,p) := by
  induction fs generalizing s with
  | nil => rfl
  | cons f fs ih =>
    obtain ⟨hfirst, hrest⟩ := List.forall_mem_cons.mp hf
    rw [List.flatten_cons, List.append_assoc, List.foldl_cons,
      drain_all_some hx handle (s,f++(fs.flatten++p)) f _ (hfirst _), ih hrest]

omit hx in
theorem entered_frames (fs : List (List α))
    (hf : ∀ f ∈ fs, ∀ rest, next (f++rest) = some (f,rest)) (s : σ) (p : List α) :
    Entered (drainBody next handle) (s,fs.flatten++p) (fs.foldl handle s,p) := by
  induction fs generalizing s with
  | nil => exact entered_self _ _
  | cons f fs ih =>
    obtain ⟨hfirst, hrest⟩ := List.forall_mem_cons.mp hf
    rw [List.flatten_cons, List.append_assoc, List.foldl_cons]
    exact entered_again _ _ _ _ (drain_body_some handle _ f _ (hfirst _)) (ih hrest _)

omit hx in
/-- Between such frames and a rest without one, the loop is entered only at
the beginnings of the frames and of the rest. -/
theorem entered_between (fs : List (List α))
    (hf : ∀ f ∈ fs, ∀ rest, next (f++rest) = some (f,rest)) (s : σ) (p : List α)
    (hp : next p = none) (t : σ × List α)
    (h : Entered (drainBody next handle) (s,fs.flatten++p) t) :
    ∃ j, t.2 = (fs.drop j).flatten++p := by
  induction fs generalizing s with
  | nil =>
    rcases entered_cases _ _ t h with rfl | ⟨u, hu, -⟩
    · exact ⟨0,rfl⟩
    · rw [drain_body_none handle _ hp] at hu
      cases hu
  | cons f fs ih =>
    obtain ⟨hfirst, hrest⟩ := List.forall_mem_cons.mp hf
    rcases entered_cases _ _ t h with rfl | ⟨u, hu, h⟩
    · exact ⟨0,rfl⟩
    · rw [List.flatten_cons, List.append_assoc, drain_body_some handle _ f _ (hfirst _)] at hu
      cases hu
      obtain ⟨j, hj⟩ := ih hrest _ h
      exact ⟨j+1,hj⟩

/-- Whatever is entered with all symbols at once is entered at the same place
of the stream with the chunks, at the latest when `m` symbols are there. -/
theorem entered_in_chunk (s : σ) (m : ℕ) (hm : 0 < m)
    (hnext : ∀ b, b.length < m → next b = none) (chunks : List (List α)) (t : σ × List α)
    (h : Entered (drainBody next handle) (s,chunks.flatten) t) (ht : m ≤ t.2.length) :
    ∃ pre c u, pre++[c] <+: chunks ∧
      Entered (drainBody next handle) ((drainAll next handle (s,pre.flatten)).1,
        (drainAll next handle (s,pre.flatten)).2++c) u ∧
      m ≤ u.2.length ∧
      chunks.flatten.length+u.2.length = (pre++[c]).flatten.length+t.2.length := by
  induction chunks using List.reverseRecOn generalizing t with
  | nil =>
    rcases entered_cases _ _ t h with rfl | ⟨u, hu, -⟩
    · simp at ht
      omega
    · rw [drain_body_none handle _ (next_nil hx)] at hu
      cases hu
  | append_singleton qs c ih =>
    rw [List.flatten_append, List.flatten_singleton] at h
    rcases entered_append hx handle s qs.flatten c t h with ⟨u, hu, rfl⟩ | h
    · by_cases hlen : m ≤ u.2.length
      · obtain ⟨pre, c', v, hp, hv, hvm, he⟩ := ih u hu hlen
        refine ⟨pre,c',v,hp.trans (List.prefix_append qs [c]),hv,hvm,?_⟩
        simp only [List.flatten_append, List.flatten_singleton, List.length_append] at he ⊢
        omega
      · have hstop := entered_stop hx handle _ u hu (hnext u.2 (by omega))
        subst hstop
        exact ⟨qs,c,_,List.prefix_refl _,entered_self _ _,ht,rfl⟩
    · exact ⟨qs,c,t,List.prefix_refl _,h,ht,rfl⟩

end Extending

end RexMq.SelfDelimiting
