import Mathlib.Tactic.Common
import RexMq.FrameData
import RexMq.SelfDelimiting

/-!
# The parse loops of server and client

Both sides take frames off the front of a receive buffer until the next one
is incomplete, and then drop a buffer that has outgrown its limit. The loop
is followed by fuel because a length word of zero makes it return to the
same buffer forever. The handler is a parameter.

A frame shares its allocation with the bytes behind it, and the setters of
the header write at fixed offsets. On a frame at least as long as the header
a handler leaves the buffer alone; through a shorter one it writes over the
bytes behind. `Storing` is a handler with these writes, and the termination
of the loops is settled for it.
-/

set_option autoImplicit false

namespace RexMq.FrameParser
open RexMq.ByteWords RexMq.FiniteRun RexMq.SelfDelimiting RexMq.FrameData

variable {σ : Type*}

def parseBody (handle : σ → RexData → σ) (i : σ × Bytes) : Flow (σ × Bytes) :=
  match RexData.tryDeserialize i.2 with
  | (.ok (some f),rest) => .again (handle i.1 f,rest)
  | (.ok none,rest) => .leave (i.1,rest)
  | (.error _,_) => .leave (i.1,[])

/-- The loop and the check of the buffer size after it; `none` when the fuel
ends before the loop does. `rejected` counts the clearings. -/
def parseFrames (handle : σ → RexData → σ) (maxBufferSize fuel : ℕ) (i : Inbox σ UInt8) :
    Option (Inbox σ UInt8) :=
  match loop (parseBody handle) fuel (i.state,i.buffer) with
  | .again _ => none
  | .leave (s,buffer) => if buffer.length > maxBufferSize then some ⟨s,[],i.rejected+1⟩
      else some ⟨s,buffer,i.rejected⟩

/-- The server's loop: a handler error is logged, then the peer's time of
last receipt is set. -/
def parseAndHandleBuffer (handle : σ → RexData → σ) (updateLastRecv : σ → σ)
    (maxBufferSize fuel : ℕ) (i : Inbox σ UInt8) : Option (Inbox σ UInt8) :=
  parseFrames (fun s f => updateLastRecv (handle s f)) maxBufferSize fuel i

def parseBuffer (handleReceivedData : σ → RexData → σ) (maxBufferSize fuel : ℕ)
    (i : Inbox σ UInt8) : Option (Inbox σ UInt8) :=
  parseFrames handleReceivedData maxBufferSize fuel i

def drive (handle : σ → RexData → σ) (updateLastRecv : σ → σ) (maxBufferSize fuel : ℕ)
    (i : Inbox σ UInt8) (bytes : Bytes) : Option (Inbox σ UInt8) :=
  parseAndHandleBuffer handle updateLastRecv maxBufferSize fuel
    { i with buffer := i.buffer++bytes }

def receiveData (handleReceivedData : σ → RexData → σ) (maxBufferSize fuel : ℕ)
    (i : Inbox σ UInt8) (bytes : Bytes) : Option (Inbox σ UInt8) :=
  parseBuffer handleReceivedData maxBufferSize fuel { i with buffer := i.buffer++bytes }

def declaredLen (buf : Bytes) : ℕ := ofLe (slice 0 4 buf)

theorem try_deserialize_eq (buf : Bytes) :
    RexData.tryDeserialize buf =
      if buf.length < 4 ∨ buf.length < declaredLen buf then (.ok none,buf)
      else (.ok (some ⟨buf.take (declaredLen buf)⟩),buf.drop (declaredLen buf)) := by
  match buf with
  | [] => simp [RexData.tryDeserialize]
  | [_] => simp [RexData.tryDeserialize]
  | [_,_] => simp [RexData.tryDeserialize]
  | [_,_,_] => simp [RexData.tryDeserialize]
  | b0::b1::b2::b3::rest =>
    have hd : declaredLen (b0::b1::b2::b3::rest) =
        (b0.toNat ||| b1.toNat <<< 8 ||| b2.toNat <<< 16 ||| b3.toNat <<< 24) := by
      rw [or_shift_bytes]
      rfl
    have h4 : ¬ (b0::b1::b2::b3::rest).length < 4 := by simp
    simp only [RexData.tryDeserialize, RexData.unpack, hd, h4, false_or]

theorem try_deserialize_some (buf rest : Bytes) (f : RexData) :
    RexData.tryDeserialize buf = (.ok (some f),rest) ↔
      4 ≤ buf.length ∧ declaredLen buf ≤ buf.length ∧
        f = ⟨buf.take (declaredLen buf)⟩ ∧ rest = buf.drop (declaredLen buf) := by
  rw [try_deserialize_eq]
  split_ifs with hc
  · simp only [Prod.mk.injEq, Except.ok.injEq, reduceCtorEq, false_and, false_iff]
    omega
  · simp only [Prod.mk.injEq, Except.ok.injEq, Option.some.injEq]
    rw [not_or, Nat.not_lt, Nat.not_lt] at hc
    exact ⟨fun h => ⟨hc.1,hc.2,h.1.symm,h.2.symm⟩,fun h => ⟨h.2.2.1.symm,h.2.2.2.symm⟩⟩

theorem parse_body_eq (handle : σ → RexData → σ) (s : σ) (buf : Bytes) :
    parseBody handle (s,buf) =
      if buf.length < 4 ∨ buf.length < declaredLen buf then .leave (s,buf)
      else .again (handle s ⟨buf.take (declaredLen buf)⟩,buf.drop (declaredLen buf)) := by
  rw [parseBody, try_deserialize_eq]
  split_ifs <;> rfl

/-- Offsets reached from the start of the buffer by following the length
words of whole frames. -/
inductive LengthChain (buf : Bytes) : ℕ → Prop where
  | start : LengthChain buf 0
  | follow (p : ℕ) : LengthChain buf p → p+4 ≤ buf.length →
      p+ofLe (slice p 4 buf) ≤ buf.length → LengthChain buf (p+ofLe (slice p 4 buf))

def NoZeroLength (buf : Bytes) : Prop :=
  ∀ p, LengthChain buf p → slice p 4 buf ≠ [0,0,0,0]

/-- No whole frame of the chain has a length between 1 and the header's. -/
def NoShortFrame (buf : Bytes) : Prop :=
  ∀ p, LengthChain buf p → p+4 ≤ buf.length → p+ofLe (slice p 4 buf) ≤ buf.length →
    ofLe (slice p 4 buf) = 0 ∨ rexHeadLen ≤ ofLe (slice p 4 buf)

theorem declared_len_drop (buf : Bytes) (p : ℕ) :
    declaredLen (buf.drop p) = ofLe (slice p 4 buf) := by
  simp [declaredLen, slice]

theorem of_le_zero_iff (bs : Bytes) (h : bs.length = 4) : ofLe bs = 0 ↔ bs = [0,0,0,0] := by
  match bs, h with
  | [a,b,c,d], _ =>
    simp only [ofLe, List.cons.injEq, and_true, ← UInt8.toNat_inj, UInt8.toNat_zero]
    omega

theorem length_chain_le (buf : Bytes) (p : ℕ) (h : LengthChain buf p) : p ≤ buf.length := by
  cases h with
  | start => exact Nat.zero_le _
  | follow p _ _ h => exact h

theorem nonzero_word_shortens (buf rest : Bytes) (f : RexData)
    (h : RexData.tryDeserialize buf = (.ok (some f),rest)) :
    rest.length < buf.length ∨ slice 0 4 buf = [0,0,0,0] := by
  obtain ⟨h4, hl, -, rfl⟩ := (try_deserialize_some buf rest f).mp h
  by_cases hz : declaredLen buf = 0
  · right
    exact (of_le_zero_iff _ (slice_length 0 4 buf (by omega))).mp hz
  · left
    rw [List.length_drop]
    omega

/-- A handler that returns, with what it leaves of the bytes behind its frame.
The setters of command, return code, message id and source write the bytes 4
to 36 from the start of the frame, wherever the frame ends. -/
structure Storing (σ : Type*) where
  run : σ → RexData → Bytes → σ × Bytes
  length_eq : ∀ s f rest, (run s f rest).2.length = rest.length
  lengthWord : ∀ s f rest, (run s f rest).2.take (4-f.content.length) =
    rest.take (4-f.content.length)
  behindHead : ∀ s f rest, (run s f rest).2.drop (rexHeadLen-f.content.length) =
    rest.drop (rexHeadLen-f.content.length)

namespace Storing

/-- The handler of the frames a loop takes off the buffer without looking
behind them. -/
def inPlace (handle : σ → RexData → σ) : Storing σ :=
  ⟨fun s f rest => (handle s f,rest),fun _ _ _ => rfl,fun _ _ _ => rfl,fun _ _ _ => rfl⟩

def andThen (handle : Storing σ) (after : σ → σ) : Storing σ :=
  ⟨fun s f rest => (after (handle.run s f rest).1,(handle.run s f rest).2),
    handle.length_eq,handle.lengthWord,handle.behindHead⟩

def parseBody (handle : Storing σ) (i : σ × Bytes) : Flow (σ × Bytes) :=
  match RexData.tryDeserialize i.2 with
  | (.ok (some f),rest) => .again (handle.run i.1 f rest)
  | (.ok none,rest) => .leave (i.1,rest)
  | (.error _,_) => .leave (i.1,[])

def parseFrames (handle : Storing σ) (maxBufferSize fuel : ℕ) (i : Inbox σ UInt8) :
    Option (Inbox σ UInt8) :=
  match loop handle.parseBody fuel (i.state,i.buffer) with
  | .again _ => none
  | .leave (s,buffer) => if buffer.length > maxBufferSize then some ⟨s,[],i.rejected+1⟩
      else some ⟨s,buffer,i.rejected⟩

def parseAndHandleBuffer (handle : Storing σ) (updateLastRecv : σ → σ)
    (maxBufferSize fuel : ℕ) (i : Inbox σ UInt8) : Option (Inbox σ UInt8) :=
  (handle.andThen updateLastRecv).parseFrames maxBufferSize fuel i

def parseBuffer (handleReceivedData : Storing σ) (maxBufferSize fuel : ℕ)
    (i : Inbox σ UInt8) : Option (Inbox σ UInt8) :=
  handleReceivedData.parseFrames maxBufferSize fuel i

theorem parse_frames_in_place (handle : σ → RexData → σ) (maxBufferSize fuel : ℕ)
    (i : Inbox σ UInt8) : (inPlace handle).parseFrames maxBufferSize fuel i =
      FrameParser.parseFrames handle maxBufferSize fuel i := rfl

variable (handle : Storing σ)

theorem parse_body_eq (s : σ) (buf : Bytes) :
    handle.parseBody (s,buf) =
      if buf.length < 4 ∨ buf.length < declaredLen buf then .leave (s,buf)
      else .again (handle.run s ⟨buf.take (declaredLen buf)⟩ (buf.drop (declaredLen buf))) := by
  rw [parseBody, try_deserialize_eq]
  split_ifs <;> rfl

theorem run_of_long (s : σ) (f : RexData) (rest : Bytes) (h : rexHeadLen ≤ f.content.length) :
    (handle.run s f rest).2 = rest := by
  simpa [Nat.sub_eq_zero_of_le h] using handle.behindHead s f rest

/-- A frame as long as its length word says, and no shorter than the header,
is handled without a write behind it. -/
theorem parse_body_long (s : σ) (buf : Bytes) (h4 : 4 ≤ buf.length)
    (hle : declaredLen buf ≤ buf.length) (hlong : rexHeadLen ≤ declaredLen buf) :
    ∃ t, handle.parseBody (s,buf) = .again (t,buf.drop (declaredLen buf)) := by
  have hlen : rexHeadLen ≤ (buf.take (declaredLen buf)).length := by
    rw [List.length_take]
    omega
  have hrest := handle.run_of_long s ⟨_⟩ (buf.drop (declaredLen buf)) hlen
  refine ⟨(handle.run s ⟨buf.take (declaredLen buf)⟩ (buf.drop (declaredLen buf))).1, ?_⟩
  rw [parse_body_eq, if_neg (by omega)]
  exact congrArg Flow.again (Prod.ext rfl hrest)

theorem zero_word_stays (i : σ × Bytes) (h : slice 0 4 i.2 = [0,0,0,0]) :
    ∃ j, handle.parseBody i = .again j ∧ slice 0 4 j.2 = [0,0,0,0] := by
  have h4 : 4 ≤ i.2.length := by
    have := congrArg List.length h
    simp only [slice, List.length_take, List.length_drop, List.length_cons, List.length_nil] at this
    omega
  have hz : declaredLen i.2 = 0 := by simp [declaredLen, h, ofLe]
  refine ⟨handle.run i.1 ⟨[]⟩ i.2, ?_, ?_⟩
  · rw [← Prod.eta i, parse_body_eq, hz, if_neg (by omega)]
    simp
  · have hw := handle.lengthWord i.1 ⟨[]⟩ i.2
    simp only [List.length_nil, Nat.sub_zero] at hw
    simpa [slice, hw] using h

theorem again_shortens (i j : σ × Bytes) (h : handle.parseBody i = .again j)
    (hz : slice 0 4 i.2 ≠ [0,0,0,0]) : j.2.length < i.2.length := by
  rw [← Prod.eta i, parse_body_eq] at h
  split_ifs at h with hc
  cases h
  rw [not_or, Nat.not_lt, Nat.not_lt] at hc
  have hd : declaredLen i.2 ≠ 0 := fun h0 =>
    hz ((of_le_zero_iff _ (slice_length 0 4 i.2 (by omega))).mp h0)
  rw [handle.length_eq, List.length_drop]
  omega

/-- No round of the loop begins with a zero length word, in the bytes as the
handlers of the rounds before left them. -/
def NoZeroRound (s : σ) (buf : Bytes) : Prop :=
  ∀ t b, Entered handle.parseBody (s,buf) (t,b) → slice 0 4 b ≠ [0,0,0,0]

/-- The loop ends exactly when no round begins with a zero length word:
otherwise it keeps handing over the empty frame. -/
theorem parse_frames_ends_iff (maxBufferSize : ℕ) (i : Inbox σ UInt8) :
    (∃ fuel out, handle.parseFrames maxBufferSize fuel i = some out) ↔
      handle.NoZeroRound i.state i.buffer := by
  constructor
  · rintro ⟨fuel, out, h⟩ t b ht hz
    obtain ⟨u, hu⟩ := loop_not_left handle.parseBody (fun j => slice 0 4 j.2 = [0,0,0,0])
      handle.zero_word_stays _ _ ht hz fuel
    simp [parseFrames, hu] at h
  · intro h
    obtain ⟨t, ht⟩ := loop_leaves handle.parseBody (fun j => j.2.length)
      (i.state,i.buffer) fun j k hj hb => handle.again_shortens j k hb (h j.1 j.2 hj)
    refine ⟨i.buffer.length+1, ?_⟩
    simp only [parseFrames, ht]
    split_ifs <;> simp

theorem shortens_of_no_zero_round (s : σ) (buf : Bytes) (h : handle.NoZeroRound s buf) (t : σ)
    (b : Bytes) (f : RexData) (rest : Bytes) (ht : Entered handle.parseBody (s,buf) (t,b))
    (hd : RexData.tryDeserialize b = (.ok (some f),rest)) : rest.length < b.length :=
  (nonzero_word_shortens b rest f hd).resolve_right (h t b ht)

/-- On a buffer whose frames are all empty or no shorter than the header, the
rounds go through the offsets of the chain. -/
theorem entered_of_chain (s : σ) (buf : Bytes) (hlong : NoShortFrame buf) (p : ℕ)
    (hp : LengthChain buf p) : ∃ t, Entered handle.parseBody (s,buf) (t,buf.drop p) := by
  induction hp with
  | start => exact ⟨s,0,by simp [loop]⟩
  | follow p hp h4 hl ih =>
    rcases hlong p hp h4 hl with hz | hw
    · simpa only [hz, Nat.add_zero] using ih
    · obtain ⟨t, k, hk⟩ := ih
      obtain ⟨u, hu⟩ := handle.parse_body_long t (buf.drop p) (by rw [List.length_drop]; omega)
        (by rw [declared_len_drop, List.length_drop]; omega) (by rwa [declared_len_drop])
      rw [declared_len_drop, List.drop_drop] at hu
      exact ⟨u,k+1,loop_again_snoc _ k _ _ _ hk hu⟩

theorem chain_of_entered (s : σ) (buf : Bytes) (hlong : NoShortFrame buf)
    (hzero : NoZeroLength buf) (t : σ) (b : Bytes)
    (h : Entered handle.parseBody (s,buf) (t,b)) : ∃ p, LengthChain buf p ∧ b = buf.drop p := by
  obtain ⟨k, hk⟩ := h
  suffices hs : ∀ k q s t, LengthChain buf q →
      loop handle.parseBody k (s,buf.drop q) = .again (t,b) →
      ∃ p, LengthChain buf p ∧ b = buf.drop p from hs k 0 s t .start (by simpa using hk)
  intro k
  induction k with
  | zero =>
    intro q s t hq h
    simp only [loop, Flow.again.injEq, Prod.mk.injEq] at h
    exact ⟨q,hq,h.2.symm⟩
  | succ k ih =>
    intro q s t hq h
    by_cases hc : (buf.drop q).length < 4 ∨ (buf.drop q).length < declaredLen (buf.drop q)
    · rw [loop, parse_body_eq, if_pos hc] at h
      cases h
    · rw [not_or, Nat.not_lt, Nat.not_lt] at hc
      have hle := length_chain_le buf q hq
      rw [declared_len_drop, List.length_drop] at hc
      have h4 : q+4 ≤ buf.length := by omega
      have hl : q+ofLe (slice q 4 buf) ≤ buf.length := by omega
      have hw := (hlong q hq h4 hl).resolve_left fun h0 =>
        hzero q hq ((of_le_zero_iff _ (slice_length q 4 buf h4)).mp h0)
      obtain ⟨u, hu⟩ := handle.parse_body_long s (buf.drop q) (by rw [List.length_drop]; omega)
        (by rw [declared_len_drop, List.length_drop]; omega) (by rwa [declared_len_drop])
      rw [declared_len_drop, List.drop_drop] at hu
      rw [loop, hu] at h
      exact ih _ _ t (.follow q hq h4 hl) h

theorem no_zero_round_iff (s : σ) (buf : Bytes) (hlong : NoShortFrame buf) :
    handle.NoZeroRound s buf ↔ NoZeroLength buf := by
  constructor
  · intro h p hp hz
    obtain ⟨t, ht⟩ := handle.entered_of_chain s buf hlong p hp
    exact h t _ ht (by simpa [slice] using hz)
  · intro h t b ht hz
    obtain ⟨p, hp, rfl⟩ := handle.chain_of_entered s buf hlong h t b ht
    exact h p hp (by simpa [slice] using hz)

end Storing

/-- Both parse loops leave, and every frame taken shortens the buffer. -/
structure Terminates (handle : Storing σ) (updateLastRecv : σ → σ)
    (handleReceivedData : Storing σ) (maxBufferSize : ℕ) (i : Inbox σ UInt8) : Prop where
  server : ∃ fuel out, handle.parseAndHandleBuffer updateLastRecv maxBufferSize fuel i = some out
  client : ∃ fuel out, handleReceivedData.parseBuffer maxBufferSize fuel i = some out
  shortens : ∀ t b f rest,
    Entered (handle.andThen updateLastRecv).parseBody (i.state,i.buffer) (t,b) ∨
      Entered handleReceivedData.parseBody (i.state,i.buffer) (t,b) →
    RexData.tryDeserialize b = (.ok (some f),rest) → rest.length < b.length

theorem terminates_iff_rounds (handle : Storing σ) (updateLastRecv : σ → σ)
    (handleReceivedData : Storing σ) (maxBufferSize : ℕ) (i : Inbox σ UInt8) :
    Terminates handle updateLastRecv handleReceivedData maxBufferSize i ↔
      (handle.andThen updateLastRecv).NoZeroRound i.state i.buffer ∧
        handleReceivedData.NoZeroRound i.state i.buffer := by
  constructor
  · intro h
    exact ⟨(Storing.parse_frames_ends_iff _ maxBufferSize i).mp h.server,
      (Storing.parse_frames_ends_iff _ maxBufferSize i).mp h.client⟩
  · rintro ⟨hserver, hclient⟩
    refine ⟨(Storing.parse_frames_ends_iff _ maxBufferSize i).mpr hserver,
      (Storing.parse_frames_ends_iff _ maxBufferSize i).mpr hclient, ?_⟩
    rintro t b f rest (ht | ht)
    · exact Storing.shortens_of_no_zero_round _ _ _ hserver t b f rest ht
    · exact Storing.shortens_of_no_zero_round _ _ _ hclient t b f rest ht

/-- The loops terminate exactly when no round begins with a zero length word
in the bytes as the handlers so far left them. Where no frame of the chain has
between 1 and 35 bytes, no handler writes behind its frame, and the condition
is that the chain of the received bytes meets no zero length word. -/
theorem parse_loops_terminate_iff (handle : Storing σ) (updateLastRecv : σ → σ)
    (handleReceivedData : Storing σ) (maxBufferSize : ℕ) (i : Inbox σ UInt8) :
    (Terminates handle updateLastRecv handleReceivedData maxBufferSize i ↔
      (handle.andThen updateLastRecv).NoZeroRound i.state i.buffer ∧
        handleReceivedData.NoZeroRound i.state i.buffer) ∧
      (NoShortFrame i.buffer →
        (Terminates handle updateLastRecv handleReceivedData maxBufferSize i ↔
          NoZeroLength i.buffer)) := by
  refine ⟨terminates_iff_rounds _ _ _ _ i, fun hlong => ?_⟩
  rw [terminates_iff_rounds, Storing.no_zero_round_iff _ _ _ hlong,
    Storing.no_zero_round_iff _ _ _ hlong, and_self]

/-- The header of a heartbeat whose length word is zero. -/
def zeroLengthCheck : Bytes :=
  RexData.encodeHead
    { totalLen := 0, command := RexCommand.check.asU32, retcode := 0, messageId := 0, source := 0 }

theorem zero_length_check_loops :
    (∀ fuel, (Storing.inPlace fun n _ => n+1).parseAndHandleBuffer id (8*1024*1024) fuel
        ⟨0,zeroLengthCheck,0⟩ = none) ∧
      RexData.tryDeserialize zeroLengthCheck = (.ok (some ⟨[]⟩),zeroLengthCheck) := by
  have hz : slice 0 4 zeroLengthCheck = [0,0,0,0] := by decide
  refine ⟨fun fuel => ?_, by decide⟩
  by_contra hne
  obtain ⟨out, ho⟩ := Option.ne_none_iff_exists'.mp hne
  exact (Storing.parse_frames_ends_iff _ _ _).mp ⟨fuel,out,ho⟩ _ _ (entered_self _ _) hz

end RexMq.FrameParser
