import Mathlib.Logic.Function.Basic
import Mathlib.Tactic.Common
import RexMq.SelfDelimiting

/-!
# A hub and its spokes, by frames and by symbols

A hub talks to spokes over one link each way. On the upper level a link is a
queue of frames and a node handles the first one. On the lower level a link
is a stream of symbols that arrives in pieces of any size: a node appends a
piece to its buffer, handles every whole frame in it and drops a rest above
its limit. When a splitter delimits the frames that nodes send and no frame
exceeds a limit, every run of the lower level is a run of the upper one.
-/

set_option autoImplicit false

namespace RexMq.StarNetwork
open RexMq.FiniteRun RexMq.SelfDelimiting

/-- What the nodes do: the hub with a frame that came over a link, a spoke
with a frame, and either of them on its own. Outputs of the hub name the link. -/
structure Nodes (ι σ τ α ε δ β γ : Type*) where
  ready : σ → ι → Bool
  serve : σ → ι → ε → List α → σ × List (ι × List α)
  hear : τ → δ → List α → τ × List (List α)
  act : σ → β → σ × List (ι × List α)
  speak : τ → γ → τ × List (List α)

structure Queues (ι σ τ α : Type*) where
  hub : σ
  spoke : ι → τ
  up : ι → List (List α)
  down : ι → List (List α)

inductive Move (ι ε δ β γ : Type*) where
  | act (a : β)
  | speak (i : ι) (b : γ)
  | serve (i : ι) (e : ε)
  | hear (i : ι) (d : δ)

/-- Symbols in flight and symbols read but not yet taken, for each link. -/
structure Wires (ι σ τ α : Type*) where
  hub : σ
  spoke : ι → τ
  up : ι → List α
  upBuffer : ι → List α
  down : ι → List α
  downBuffer : ι → List α

/-- A read takes at most `n` symbols and gives the k-th frame in them the k-th
environment. -/
inductive Read (ι ε δ β γ : Type*) where
  | act (a : β)
  | speak (i : ι) (b : γ)
  | serve (i : ι) (n : ℕ) (es : ℕ → ε)
  | hear (i : ι) (n : ℕ) (ds : ℕ → δ)

variable {ι σ τ α ε δ β γ : Type*} [DecidableEq ι]

def sentTo (i : ι) (out : List (ι × List α)) : List (List α) :=
  (out.filter (fun o => o.1 = i)).map Prod.snd

@[simp] theorem sent_to_nil (i : ι) : sentTo i ([] : List (ι × List α)) = [] := rfl

theorem sent_to_append (i : ι) (out out' : List (ι × List α)) :
    sentTo i (out++out') = sentTo i out++sentTo i out' := by
  simp [sentTo]

variable (N : Nodes ι σ τ α ε δ β γ)

def move (y : Queues ι σ τ α) : Move ι ε δ β γ → Queues ι σ τ α
  | .act a =>
    let r := N.act y.hub a
    { y with hub := r.1, down := fun j => y.down j++sentTo j r.2 }
  | .speak i b =>
    let r := N.speak (y.spoke i) b
    { y with
      spoke := Function.update y.spoke i r.1
      up := Function.update y.up i (y.up i++r.2) }
  | .serve i e => match y.up i with
    | [] => y
    | f::rest =>
      if N.ready y.hub i then
        let r := N.serve y.hub i e f
        { y with
          hub := r.1
          up := Function.update y.up i rest
          down := fun j => y.down j++sentTo j r.2 }
      else y
  | .hear i d => match y.down i with
    | [] => y
    | f::rest =>
      let r := N.hear (y.spoke i) d f
      { y with
        spoke := Function.update y.spoke i r.1
        up := Function.update y.up i (y.up i++r.2)
        down := Function.update y.down i rest }

/-- The frames of one read, with the outputs so far and the number handled. -/
def serveNext (i : ι) (es : ℕ → ε) (r : σ × List (ι × List α) × ℕ) (f : List α) :
    σ × List (ι × List α) × ℕ :=
  let t := N.serve r.1 i (es r.2.2) f
  (t.1,r.2.1++t.2,r.2.2+1)

def hearNext (ds : ℕ → δ) (r : τ × List (List α) × ℕ) (f : List α) : τ × List (List α) × ℕ :=
  let t := N.hear r.1 (ds r.2.2) f
  (t.1,r.2.1++t.2,r.2.2+1)

variable (next : List α → Option (List α × List α)) (hubLimit spokeLimit : ℕ)

/-- The fuel covers a read in which every symbol is a frame; a read that needs
more does not end. -/
def step (x : Wires ι σ τ α) : Read ι ε δ β γ → Option (Wires ι σ τ α)
  | .act a =>
    let r := N.act x.hub a
    some { x with hub := r.1, down := fun j => x.down j++(sentTo j r.2).flatten }
  | .speak i b =>
    let r := N.speak (x.spoke i) b
    some { x with
      spoke := Function.update x.spoke i r.1
      up := Function.update x.up i (x.up i++r.2.flatten) }
  | .serve i n es =>
    if N.ready x.hub i then
      let chunk := (x.up i).take n
      (receive next (serveNext N i es) hubLimit ((x.upBuffer i++chunk).length+1)
        ⟨(x.hub,[],0),x.upBuffer i,0⟩ chunk).map fun r =>
          { x with
            hub := r.state.1
            up := Function.update x.up i ((x.up i).drop n)
            upBuffer := Function.update x.upBuffer i r.buffer
            down := fun j => x.down j++(sentTo j r.state.2.1).flatten }
    else some x
  | .hear i n ds =>
    let chunk := (x.down i).take n
    (receive next (hearNext N ds) spokeLimit ((x.downBuffer i++chunk).length+1)
      ⟨(x.spoke i,[],0),x.downBuffer i,0⟩ chunk).map fun r =>
        { x with
          spoke := Function.update x.spoke i r.state.1
          up := Function.update x.up i (x.up i++r.state.2.1.flatten)
          down := Function.update x.down i ((x.down i).drop n)
          downBuffer := Function.update x.downBuffer i r.buffer }

/-- Buffer and stream of a link are the symbols of its queue, cut where no
whole frame has been left in the buffer. -/
structure Carried (buffer flight : List α) (queue : List (List α)) : Prop where
  symbols : buffer++flight = queue.flatten
  split : next buffer = none

structure Refines (x : Wires ι σ τ α) (y : Queues ι σ τ α) : Prop where
  hub : x.hub = y.hub
  spoke : x.spoke = y.spoke
  up : ∀ i, Carried next (x.upBuffer i) (x.up i) (y.up i)
  down : ∀ i, Carried next (x.downBuffer i) (x.down i) (y.down i)

section Links
variable {next}

theorem Carried.push {buffer flight : List α} {queue : List (List α)}
    (h : Carried next buffer flight queue) (fs : List (List α)) :
    Carried next buffer (flight++fs.flatten) (queue++fs) := by
  refine ⟨?_,h.split⟩
  rw [← List.append_assoc, h.symbols, List.flatten_append]

theorem pending_length_le (fs : List (List α)) (m : ℕ) (hm : ∀ f ∈ fs, f.length ≤ m)
    (b : List α) (h : b <+: fs.flatten) : (pending fs b).length ≤ m := by
  have hle := whole_length_le fs b.length
  rw [pending, List.length_drop]
  cases hg : fs[(wholeFrames fs b.length).length]? with
  | some g =>
    have hlt := whole_next fs g b.length hg
    have := hm g (List.mem_of_getElem? hg)
    omega
  | none =>
    have hall : wholeFrames fs b.length = fs := by
      rw [whole_eq_take, List.take_of_length_le (List.getElem?_eq_none_iff.mp hg)]
    have := h.length_le
    rw [hall]
    omega

/-- One read of a link: exactly the whole frames in it are handled, and the
rest of the queue is what buffer and stream then carry. -/
theorem Carried.read {ρ : Type*} {frame : List α → Prop} (hd : Delimits next frame)
    (handle : ρ → List α → ρ) (limit n : ℕ) (s : ρ) {buffer flight : List α}
    {queue : List (List α)} (h : Carried next buffer flight queue)
    (hf : ∀ f ∈ queue, frame f ∧ f.length ≤ limit) :
    ∃ (fs rest : List (List α)) (left : List α), queue = fs++rest ∧
      receive next handle limit ((buffer++flight.take n).length+1) ⟨s,buffer,0⟩
          (flight.take n) = some ⟨fs.foldl handle s,left,0⟩ ∧
      Carried next left (flight.drop n) rest := by
  have hb : buffer++flight.take n <+: queue.flatten := by
    rw [← h.symbols]
    exact (List.prefix_append_right_inj buffer).mpr (List.take_prefix n flight)
  have hsplit := received_split queue _ hb
  have hshort := pending_short next frame hd queue (fun f hf' => (hf f hf').1) _ hb
  have hrest := pending_length_le queue limit (fun f hf' => (hf f hf').2) _ hb
  obtain ⟨rest, hq⟩ := whole_split queue (buffer++flight.take n).length
  generalize wholeFrames queue (buffer++flight.take n).length = fs at hsplit hq
  generalize pending queue (buffer++flight.take n) = left at hsplit hshort hrest
  have hfs : ∀ f ∈ fs, frame f := fun f hm => (hf f (by rw [hq]; simp [hm])).1
  have hlen : fs.length ≤ fs.flatten.length := by
    clear hq hsplit
    induction fs with
    | nil => simp
    | cons f fs ih =>
      have hpos : f ≠ [] := by
        rintro rfl
        have := hd.whole [] (hfs [] (by simp)) []
        simp [hd.empty] at this
      have := List.length_pos_iff.mpr hpos
      have := ih fun g hg => hfs g (by simp [hg])
      rw [List.length_cons, List.flatten_cons, List.length_append]
      omega
  refine ⟨fs,rest,left,hq,?_,?_,hshort⟩
  · have hfuel : fs.length < (buffer++flight.take n).length+1 := by
      rw [hsplit, List.length_append]
      omega
    simp only [receive]
    rw [hsplit, drain_frames next frame hd handle fs hfs left hshort s _ (by rwa [← hsplit])]
    simp only [Nat.not_lt.mpr hrest, if_false]
  · have hsym := h.symbols
    rw [← List.take_append_drop n flight, ← List.append_assoc, hsplit, hq, List.flatten_append,
      List.append_assoc] at hsym
    exact List.append_cancel_left hsym

end Links

section Frames
variable {N}

/-- A frame taken by the hub keeps every link ready. -/
def StaysReady (N : Nodes ι σ τ α ε δ β γ) : Prop :=
  ∀ s i e f j, N.ready s j = true → N.ready (N.serve s i e f).1 j = true

theorem serve_moves (hr : StaysReady N) (i : ι) (es : ℕ → ε) (fs rest : List (List α)) (k : ℕ)
    (out : List (ι × List α)) (y : Queues ι σ τ α) (hy : y.up i = fs++rest)
    (hi : N.ready y.hub i = true) :
    ∃ new, (fs.foldl (serveNext N i es) (y.hub,out,k)).2.1 = out++new ∧
      ((List.range' k fs.length).map (fun k => Move.serve i (es k))).foldl (move N) y =
        { y with
          hub := (fs.foldl (serveNext N i es) (y.hub,out,k)).1
          up := Function.update y.up i rest
          down := fun j => y.down j++sentTo j new } := by
  induction fs generalizing k out y with
  | nil =>
    have hup : Function.update y.up i rest = y.up := by
      rw [Function.update_eq_self_iff, hy, List.nil_append]
    exact ⟨[],by simp,by simp [hup]⟩
  | cons f fs ih =>
    have hmove : move N y (.serve i (es k)) =
        { y with
          hub := (N.serve y.hub i (es k) f).1
          up := Function.update y.up i (fs++rest)
          down := fun j => y.down j++sentTo j (N.serve y.hub i (es k) f).2 } := by
      simp only [move, hy, List.cons_append, hi, if_true]
    obtain ⟨new, hout, hmoves⟩ := ih (k+1) (out++(N.serve y.hub i (es k) f).2)
      (move N y (.serve i (es k))) (by rw [hmove]; simp) (by rw [hmove]; exact hr _ _ _ _ _ hi)
    refine ⟨(N.serve y.hub i (es k) f).2++new,?_,?_⟩
    · rw [← List.append_assoc, ← hout, hmove]
      rfl
    · rw [List.length_cons, List.range'_succ, List.map_cons, List.foldl_cons, hmoves, hmove]
      simp only [Function.update_idem, sent_to_append, List.append_assoc]
      rfl

theorem hear_moves (i : ι) (ds : ℕ → δ) (fs rest : List (List α)) (k : ℕ)
    (out : List (List α)) (y : Queues ι σ τ α) (hy : y.down i = fs++rest) :
    ∃ new, (fs.foldl (hearNext N ds) (y.spoke i,out,k)).2.1 = out++new ∧
      ((List.range' k fs.length).map (fun k => Move.hear i (ds k))).foldl (move N) y =
        { y with
          spoke := Function.update y.spoke i (fs.foldl (hearNext N ds) (y.spoke i,out,k)).1
          up := Function.update y.up i (y.up i++new)
          down := Function.update y.down i rest } := by
  induction fs generalizing k out y with
  | nil =>
    have hdown : Function.update y.down i rest = y.down := by
      rw [Function.update_eq_self_iff, hy, List.nil_append]
    exact ⟨[],by simp,by simp [hdown]⟩
  | cons f fs ih =>
    have hmove : move N y (.hear i (ds k)) =
        { y with
          spoke := Function.update y.spoke i (N.hear (y.spoke i) (ds k) f).1
          up := Function.update y.up i (y.up i++(N.hear (y.spoke i) (ds k) f).2)
          down := Function.update y.down i (fs++rest) } := by
      simp only [move, hy, List.cons_append]
    obtain ⟨new, hout, hmoves⟩ := ih (k+1) (out++(N.hear (y.spoke i) (ds k) f).2)
      (move N y (.hear i (ds k))) (by rw [hmove]; simp)
    have hspoke : (move N y (.hear i (ds k))).spoke i = (N.hear (y.spoke i) (ds k) f).1 := by
      rw [hmove]
      simp
    rw [hspoke] at hout hmoves
    refine ⟨(N.hear (y.spoke i) (ds k) f).2++new,?_,?_⟩
    · rw [← List.append_assoc, ← hout]
      rfl
    · rw [List.length_cons, List.range'_succ, List.map_cons, List.foldl_cons, hmoves, hmove]
      simp only [Function.update_idem, Function.update_self, List.append_assoc]
      rfl

end Frames

section Refinement
variable (frame : List α → Prop) (admits : σ → β → Prop) (speaks : τ → γ → Prop)

/-- What nodes do on their own is restricted; frames are always handled. -/
def Allowed (y : Queues ι σ τ α) : Move ι ε δ β γ → Prop
  | .act a => admits y.hub a
  | .speak i b => speaks (y.spoke i) b
  | .serve _ _ => True
  | .hear _ _ => True

def Permitted (x : Wires ι σ τ α) : Read ι ε δ β γ → Prop
  | .act a => admits x.hub a
  | .speak i b => speaks (x.spoke i) b
  | .serve _ _ _ => True
  | .hear _ _ _ => True

/-- Every step of a run is permitted where it is taken. -/
def Permits (x : Wires ι σ τ α) : List (Read ι ε δ β γ) → Prop
  | [] => True
  | r::rs => Permitted admits speaks x r ∧
      ∀ x', step N next hubLimit spokeLimit x r = some x' → Permits x' rs

/-- An invariant of the upper level under which only delimited frames within
the limits are on the links. -/
structure Framing (Inv : Queues ι σ τ α → Prop) : Prop where
  delimits : Delimits next frame
  ready : StaysReady N
  keeps : ∀ y m, Inv y → Allowed admits speaks y m → Inv (move N y m)
  up : ∀ y, Inv y → ∀ i, ∀ f ∈ y.up i, frame f ∧ f.length ≤ hubLimit
  down : ∀ y, Inv y → ∀ i, ∀ f ∈ y.down i, frame f ∧ f.length ≤ spokeLimit

variable {N next hubLimit spokeLimit frame admits speaks} {Inv : Queues ι σ τ α → Prop}
variable (hF : Framing N next hubLimit spokeLimit frame admits speaks Inv)
include hF

theorem Framing.run (y : Queues ι σ τ α) (ms : List (Move ι ε δ β γ)) (hy : Inv y)
    (h : Along (move N) (Allowed admits speaks) y ms) : Inv (ms.foldl (move N) y) :=
  always_last _ _ _ _ (always_of_along (move N) (Allowed admits speaks) Inv hF.keeps y ms hy h)

/-- One step below is a list of moves above: none for a read without a whole
frame, one for each whole frame of a read. -/
theorem Framing.refine_step (x : Wires ι σ τ α) (y : Queues ι σ τ α) (r : Read ι ε δ β γ)
    (hy : Inv y) (hxy : Refines next x y) (hr : Permitted admits speaks x r) :
    ∃ x' ms, step N next hubLimit spokeLimit x r = some x' ∧
      Along (move N) (Allowed admits speaks) y ms ∧ Refines next x' (ms.foldl (move N) y) := by
  cases r with
  | act a =>
    have ha : admits y.hub a := hxy.hub ▸ hr
    refine ⟨_,[.act a],rfl,⟨ha,trivial⟩,?_⟩
    simp only [List.foldl_cons, List.foldl_nil, move, hxy.hub]
    exact ⟨rfl,hxy.spoke,hxy.up,fun j => (hxy.down j).push _⟩
  | speak i b =>
    have hb : speaks (y.spoke i) b := hxy.spoke ▸ hr
    refine ⟨_,[.speak i b],rfl,⟨hb,trivial⟩,?_⟩
    simp only [List.foldl_cons, List.foldl_nil, move, hxy.spoke]
    refine ⟨hxy.hub,rfl,fun j => ?_,hxy.down⟩
    by_cases hj : j = i
    · subst hj
      simpa only [Function.update_self] using (hxy.up j).push _
    · simpa only [Function.update_of_ne hj] using hxy.up j
  | serve i n es =>
    simp only [step]
    split_ifs with hi
    · obtain ⟨fs, rest, left, hq, hread, hleft⟩ := (hxy.up i).read hF.delimits
        (serveNext N i es) hubLimit n (x.hub,[],0) (hF.up y hy i)
      obtain ⟨new, hout, hmoves⟩ := serve_moves hF.ready i es fs rest 0 [] y hq (hxy.hub ▸ hi)
      rw [hread]
      refine ⟨_,_,rfl,along_of_forall _ _ ((List.range' 0 fs.length).map fun k => .serve i (es k))
        (by simp [Allowed]) y,?_⟩
      rw [hmoves]
      simp only [hxy.hub, hout, List.nil_append]
      refine ⟨rfl,hxy.spoke,fun j => ?_,fun j => (hxy.down j).push _⟩
      by_cases hj : j = i
      · subst hj
        simpa only [Function.update_self] using hleft
      · simpa only [Function.update_of_ne hj] using hxy.up j
    · exact ⟨x,[],rfl,trivial,hxy⟩
  | hear i n ds =>
    obtain ⟨fs, rest, left, hq, hread, hleft⟩ := (hxy.down i).read hF.delimits
      (hearNext N ds) spokeLimit n (x.spoke i,[],0) (hF.down y hy i)
    obtain ⟨new, hout, hmoves⟩ := hear_moves i ds fs rest 0 [] y hq
    simp only [step]
    rw [hread]
    refine ⟨_,_,rfl,along_of_forall _ _ ((List.range' 0 fs.length).map fun k => .hear i (ds k))
      (by simp [Allowed]) y,?_⟩
    rw [hmoves]
    simp only [hxy.spoke, hout, List.nil_append]
    refine ⟨hxy.hub,rfl,fun j => ?_,fun j => ?_⟩
    · by_cases hj : j = i
      · subst hj
        simpa only [Function.update_self] using (hxy.up j).push _
      · simpa only [Function.update_of_ne hj] using hxy.up j
    · by_cases hj : j = i
      · subst hj
        simpa only [Function.update_self] using hleft
      · simpa only [Function.update_of_ne hj] using hxy.down j

theorem Framing.refine_run (rs : List (Read ι ε δ β γ)) (x : Wires ι σ τ α) (y : Queues ι σ τ α)
    (hy : Inv y) (hxy : Refines next x y)
    (hr : Permits N next hubLimit spokeLimit admits speaks x rs) :
    ∃ x' ms, rs.foldlM (step N next hubLimit spokeLimit) x = some x' ∧
      Along (move N) (Allowed admits speaks) y ms ∧ Refines next x' (ms.foldl (move N) y) := by
  induction rs generalizing x y with
  | nil => exact ⟨x,[],rfl,trivial,hxy⟩
  | cons r rs ih =>
    obtain ⟨x₁, ms₁, hx₁, ha₁, hr₁⟩ := hF.refine_step x y r hy hxy hr.1
    obtain ⟨x₂, ms₂, hx₂, ha₂, hr₂⟩ := ih x₁ _ (hF.run y ms₁ hy ha₁) hr₁ (hr.2 x₁ hx₁)
    refine ⟨x₂,ms₁++ms₂,?_,along_append _ _ _ _ _ ha₁ ha₂,?_⟩
    · rw [List.foldlM_cons, hx₁]
      exact hx₂
    · rw [List.foldl_append]
      exact hr₂

end Refinement

end RexMq.StarNetwork
