import Mathlib.Tactic.Common
import RexMq.FrameParser

/-!
# Frame streams under arbitrary chunking

Frames made by the constructor and the setters carry their own length, so
the parser delimits them. As long as the rest of a stream in the buffer
stays within the limit, server and client hand over exactly the frames that
have arrived wholly. The limit is also the end of this: after a clearing the
parser reads the middle of a frame as if a new one began there.
-/

set_option autoImplicit false

namespace RexMq.FrameStream
open RexMq.ByteWords RexMq.FiniteRun RexMq.SelfDelimiting RexMq.FrameData RexMq.FrameParser

variable {σ : Type*}

/-- `try_deserialize` as a splitter of byte strings. -/
def splitFrame (buf : Bytes) : Option (Bytes × Bytes) :=
  match RexData.tryDeserialize buf with
  | (.ok (some f),rest) => some (f.content,rest)
  | _ => none

theorem split_frame_eq (buf : Bytes) :
    splitFrame buf = if buf.length < 4 ∨ buf.length < declaredLen buf then none
      else some (buf.take (declaredLen buf),buf.drop (declaredLen buf)) := by
  rw [splitFrame, try_deserialize_eq]
  split_ifs <;> rfl

theorem parse_body_drain (handle : σ → RexData → σ) :
    parseBody handle = drainBody splitFrame (fun s b => handle s ⟨b⟩) := by
  funext i
  rw [parse_body_eq handle i.1 i.2, drainBody, split_frame_eq]
  split_ifs <;> rfl

theorem parse_frames_receive (handle : σ → RexData → σ) (maxBufferSize fuel : ℕ)
    (i : Inbox σ UInt8) (chunk : Bytes) :
    parseFrames handle maxBufferSize fuel { i with buffer := i.buffer++chunk } =
      receive splitFrame (fun s b => handle s ⟨b⟩) maxBufferSize fuel i chunk := by
  simp only [parseFrames, receive, parse_body_drain]
  cases loop (drainBody splitFrame fun s b => handle s ⟨b⟩) fuel (i.state,i.buffer++chunk) with
  | again j => rfl
  | leave j => rfl

def Counted (f : Bytes) : Prop := 4 ≤ f.length ∧ declaredLen f = f.length

theorem declared_len_append (b c : Bytes) (h : 4 ≤ b.length) :
    declaredLen (b++c) = declaredLen b := by
  rw [declaredLen, slice_append 0 4 b c (by omega), declaredLen]

theorem split_delimits : Delimits splitFrame Counted where
  empty := rfl
  whole := by
    intro f hf rest
    rw [split_frame_eq, declared_len_append f rest hf.1, hf.2, if_neg]
    · simp
    · have := hf.1
      simp only [List.length_append]
      omega
  short := by
    rintro f hf p ⟨q, rfl⟩ hlt
    rw [split_frame_eq]
    by_cases h4 : p.length < 4
    · simp [h4]
    · have hd := hf.2
      rw [declared_len_append p q (by omega)] at hd
      rw [if_pos (by omega)]

/-- The frames of a stream that its first `n` bytes contain wholly. -/
def arrived : List RexData → ℕ → List RexData
  | [], _ => []
  | f::fs, n => if f.content.length ≤ n then f::arrived fs (n-f.content.length) else []

def stream (fs : List RexData) : Bytes := (fs.map RexData.content).flatten

theorem arrived_whole (fs : List RexData) (n : ℕ) :
    wholeFrames (fs.map RexData.content) n = (arrived fs n).map RexData.content := by
  induction fs generalizing n with
  | nil => rfl
  | cons f fs ih =>
    simp only [List.map_cons, wholeFrames, arrived]
    split_ifs
    · rw [ih, List.map_cons]
    · rfl

theorem arrived_initial (fs : List RexData) (n : ℕ) : arrived fs n <+: fs := by
  induction fs generalizing n with
  | nil => exact List.prefix_refl _
  | cons f fs ih =>
    rw [arrived]
    split_ifs
    · exact List.cons_prefix_cons.mpr ⟨rfl,ih _⟩
    · exact List.nil_prefix

theorem arrived_all (fs : List RexData) (n : ℕ) (h : (stream fs).length ≤ n) :
    arrived fs n = fs := by
  induction fs generalizing n with
  | nil => rfl
  | cons f fs ih =>
    simp only [stream, List.map_cons, List.flatten_cons, List.length_append] at h
    rw [arrived, if_pos (by omega), ih _ (by rw [stream]; omega)]

/-- The bytes of the stream received so far that follow its whole frames. -/
def rest (fs : List RexData) (received : Bytes) : Bytes :=
  received.drop (stream (arrived fs received.length)).length

theorem rest_pending (fs : List RexData) (b : Bytes) :
    pending (fs.map RexData.content) b = rest fs b := by
  rw [pending, arrived_whole, rest, stream]

theorem foldl_content (handle : σ → RexData → σ) (fs : List RexData) (s : σ) :
    (fs.map RexData.content).foldl (fun s b => handle s ⟨b⟩) s = fs.foldl handle s := by
  induction fs generalizing s with
  | nil => rfl
  | cons f fs ih => exact ih _

/-- What server or client holds after the part `b` of a stream of frames. -/
def delivered (handle : σ → RexData → σ) (s : σ) (fs : List RexData) (b : Bytes) :
    Inbox σ UInt8 :=
  ⟨(arrived fs b.length).foldl handle s,rest fs b,0⟩

theorem inbox_after_delivered (handle : σ → RexData → σ) (s : σ) (fs : List RexData) (b : Bytes) :
    inboxAfter (fun s b => handle s ⟨b⟩) s (fs.map RexData.content) b =
      delivered handle s fs b := by
  rw [inboxAfter, arrived_whole, foldl_content, rest_pending, delivered]

theorem parse_chunks (handle : σ → RexData → σ) (maxBufferSize fuel : ℕ) (fs : List RexData)
    (hf : ∀ f ∈ fs, Counted f.content) (hfuel : fs.length < fuel) (s : σ) (chunks : List Bytes)
    (hc : chunks.flatten <+: stream fs)
    (hl : ∀ pre, pre <+: chunks → (rest fs pre.flatten).length ≤ maxBufferSize) :
    chunks.foldlM (fun i c => parseFrames handle maxBufferSize fuel
      { i with buffer := i.buffer++c }) ⟨s,[],0⟩ = some (delivered handle s fs chunks.flatten) := by
  have hr := receive_chunks splitFrame Counted split_delimits (fun s b => handle s ⟨b⟩)
    maxBufferSize fuel (fs.map RexData.content) (by simpa using hf) (by simpa using hfuel) s
    chunks hc (fun pre hp => by rw [rest_pending]; exact hl pre hp)
  rw [inbox_after_delivered] at hr
  rw [← hr]
  congr 1
  funext i c
  exact parse_frames_receive handle maxBufferSize fuel i c

/-- The rest of a stream is shorter than the frame it begins, so no buffer
limit that admits every single frame is exceeded. -/
theorem rest_length_le (fs : List RexData) (m : ℕ) (hm : ∀ f ∈ fs, f.content.length ≤ m)
    (b : Bytes) (h : b <+: stream fs) : (rest fs b).length ≤ m := by
  induction fs generalizing b with
  | nil =>
    have hb : b = [] := by simpa [stream] using h
    simp [hb, rest]
  | cons f fs ih =>
    rw [stream, List.map_cons, List.flatten_cons] at h
    by_cases hl : f.content.length ≤ b.length
    · obtain ⟨c, rfl⟩ : f.content <+: b :=
        List.prefix_of_prefix_length_le (List.prefix_append _ _) h hl
      have hc : c <+: stream fs := (List.prefix_append_right_inj _).mp h
      have he : rest (f::fs) (f.content++c) = rest fs c := by
        simp only [rest, arrived, List.length_append, Nat.le_add_right, if_true,
          Nat.add_sub_cancel_left, stream, List.map_cons, List.flatten_cons,
          List.drop_length_add_append]
      rw [he]
      exact ih (fun g hg => hm g (by simp [hg])) c hc
    · have := hm f (by simp)
      simp only [rest, List.length_drop]
      omega

/-- Frames as the programs make them: the constructor with a title whose
length fits its byte, then any setters. -/
inductive Built : RexData → Prop where
  | new (command : RexCommand) (title data : Bytes) : title.length ≤ 255 →
      Built (.new command title data)
  | setCommand (command : RexCommand) (f g : RexData) : Built f →
      f.setCommand command = .ok g → Built g
  | setSource (source : BitVec 128) (f g : RexData) : Built f →
      f.setSource source = .ok g → Built g
  | setRetcode (retcode : RetCode) (f g : RexData) : Built f →
      f.setRetcode retcode = .ok g → Built g
  | setMessageId (messageId : BitVec 64) (f g : RexData) : Built f →
      f.setMessageId messageId = .ok g → Built g
  | setData (data : Bytes) (f g : RexData) : Built f → f.setData data = .ok g → Built g
  | dataMut (w : Bytes) (f g : RexData) : Built f → f.dataMut w = .ok g → Built g

/-- The length word counts the bytes of the frame modulo its width, and the
title lies inside the frame. -/
structure Framed (f : RexData) : Prop where
  length : 37 ≤ f.content.length
  counted : readWord 32 0 f.content = BitVec.ofNat 32 f.content.length
  titled : ∃ b, f.content[36]? = some b ∧ 37+b.toNat ≤ f.content.length

theorem encode_head_length (h : RexHead) : (RexData.encodeHead h).length = 36 := by
  simp [RexData.encodeHead]

theorem encode_head_total (h : RexHead) (rest : Bytes) :
    readWord 32 0 (RexData.encodeHead h++rest) = h.totalLen := by
  simp only [RexData.encodeHead, List.append_assoc]
  exact read_word_append 4 0 h.totalLen [] _ rfl

theorem new_framed (command : RexCommand) (title data : Bytes) (h : title.length ≤ 255) :
    Framed (.new command title data) := by
  have hlen : (RexData.new command title data).content.length =
      37+title.length+data.length := by
    simp only [RexData.new, List.length_append, List.length_cons, encode_head_length]
    omega
  refine ⟨by omega, ?_, UInt8.ofNat title.length, ?_, ?_⟩
  · rw [hlen, RexData.new, encode_head_total]
    rfl
  · rw [RexData.new, List.getElem?_append_right (by rw [encode_head_length]),
      encode_head_length]
    rfl
  · rw [hlen, UInt8.toNat_ofNat']
    have : title.length%2^8 = title.length := Nat.mod_eq_of_lt (by omega)
    omega

theorem head_mut_framed (w off : ℕ) (x : BitVec w) (f g : RexData) (hf : Framed f)
    (h4 : 4 ≤ off) (h36 : off+w/8 ≤ 36) (h : f.headMut w off x = .ok g) : Framed g := by
  have hl := hf.length
  rw [RexData.headMut, if_neg (by simp only [rexHeadLen]; omega)] at h
  cases h
  have hlen := write_word_length w off x f.content (by omega)
  refine ⟨by simp only [hlen]; omega, ?_, ?_⟩
  · simp only [hlen]
    rw [read_write_before 32 0 w off x f.content h4 (by omega)]
    exact hf.counted
  · obtain ⟨b, hb, hle⟩ := hf.titled
    refine ⟨b, ?_, by simp only [hlen]; exact hle⟩
    rw [writeWord, getElem?_patch_after _ _ _ _ (by simp; omega) (by simp; omega)]
    exact hb

theorem set_data_framed (data : Bytes) (f g : RexData) (hf : Framed f)
    (h : f.setData data = .ok g) : Framed g := by
  obtain ⟨b, hb, hle⟩ := hf.titled
  have hpad : 37+b.toNat-f.content.length = 0 := by omega
  have ht : (f.content.take (37+b.toNat)).length = 37+b.toNat := by
    simp only [List.length_take]
    omega
  have hlen : (f.content.take (37+b.toNat)++data).length = 37+b.toNat+data.length := by
    rw [List.length_append, ht]
  rw [RexData.setData, data_offset_ok f b hb] at h
  change RexData.headMut 32 0 _ ⟨_⟩ = _ at h
  rw [hpad, List.replicate_zero, List.append_nil, RexData.headMut,
    if_neg (by simp only [rexHeadLen, hlen]; omega)] at h
  cases h
  have hwl := write_word_length 32 0 (BitVec.ofNat 32 (37+b.toNat+data.length))
    (f.content.take (37+b.toNat)++data) (by rw [hlen]; omega)
  refine ⟨by simp only [hwl, hlen]; omega, ?_, b, ?_, by simp only [hwl, hlen]; omega⟩
  · simp only [hwl, hlen]
    exact read_write_same 4 0 _ _ (by rw [hlen]; omega)
  · rw [writeWord, getElem?_patch_after _ _ _ _ (by simp) (by rw [to_le_length, hlen]; omega),
      List.getElem?_append_left (by omega), List.getElem?_take_of_lt (by omega)]
    exact hb

theorem data_mut_framed (w : Bytes) (f g : RexData) (hf : Framed f)
    (h : f.dataMut w = .ok g) : Framed g := by
  obtain ⟨b, hb, hle⟩ := hf.titled
  rw [RexData.dataMut, data_offset_ok f b hb] at h
  change (if f.content.length < 37+b.toNat then _ else _) = _ at h
  rw [if_neg (by omega)] at h
  cases h
  have hw : 37+b.toNat+(w.take (f.content.length-(37+b.toNat))).length ≤ f.content.length := by
    simp only [List.length_take]
    omega
  have hlen := patch_length _ _ _ hw
  refine ⟨by simp only [hlen]; exact hf.length, ?_, b, ?_, by simp only [hlen]; exact hle⟩
  · simp only [hlen]
    rw [readWord, slice_patch_before _ _ _ _ _ (by omega) hle]
    exact hf.counted
  · rw [getElem?_patch_before _ _ _ _ (by omega) hle]
    exact hb

theorem built_framed (f : RexData) (h : Built f) : Framed f := by
  induction h with
  | new command title data ht => exact new_framed command title data ht
  | setCommand c f g _ h ih => exact head_mut_framed 32 4 _ f g ih (by omega) (by omega) h
  | setSource x f g _ h ih => exact head_mut_framed 128 20 _ f g ih (by omega) (by omega) h
  | setRetcode r f g _ h ih => exact head_mut_framed 32 8 _ f g ih (by omega) (by omega) h
  | setMessageId m f g _ h ih => exact head_mut_framed 64 12 _ f g ih (by omega) (by omega) h
  | setData d f g _ h ih => exact set_data_framed d f g ih h
  | dataMut w f g _ h ih => exact data_mut_framed w f g ih h

theorem framed_counted (f : RexData) (hf : Framed f) (h : f.content.length < 2^32) :
    Counted f.content := by
  have hl := hf.length
  have hs := slice_length 0 4 f.content (by omega)
  have hlt := of_le_lt (slice 0 4 f.content)
  rw [hs] at hlt
  have hc := congrArg BitVec.toNat hf.counted
  rw [readWord, BitVec.toNat_ofNat, BitVec.toNat_ofNat, Nat.mod_eq_of_lt h] at hc
  refine ⟨by omega, ?_⟩
  rw [declaredLen]
  rwa [Nat.mod_eq_of_lt (by omega)] at hc

def logFrame (log : List RexData) (f : RexData) : List RexData := log++[f]

theorem foldl_log_frame (fs log : List RexData) : fs.foldl logFrame log = log++fs := by
  induction fs generalizing log with
  | nil => simp
  | cons f fs ih => rw [List.foldl_cons, ih, logFrame, List.append_assoc, List.singleton_append]

/-- The last chunk may be cleared: its whole frames have been handed over
before the size of the rest is looked at. -/
theorem parse_chunks_last (handle : σ → RexData → σ) (maxBufferSize fuel : ℕ) (fs : List RexData)
    (hf : ∀ f ∈ fs, Counted f.content) (hfuel : fs.length < fuel) (s : σ) (chunks : List Bytes)
    (hc : chunks.flatten <+: stream fs)
    (hl : ∀ pre, pre <+: chunks → pre ≠ chunks → (rest fs pre.flatten).length ≤ maxBufferSize) :
    ∃ out, chunks.foldlM (fun i c => parseFrames handle maxBufferSize fuel
      { i with buffer := i.buffer++c }) ⟨s,[],0⟩ = some out ∧
        out.state = (arrived fs chunks.flatten.length).foldl handle s := by
  rcases List.eq_nil_or_concat chunks with rfl | ⟨init, c, rfl⟩
  · exact ⟨_,parse_chunks handle maxBufferSize fuel fs hf hfuel s [] hc
      (by simp [rest]),rfl⟩
  · rw [List.concat_eq_append] at hc hl ⊢
    rw [List.flatten_append, List.flatten_singleton] at hc
    have hinit := parse_chunks handle maxBufferSize fuel fs hf hfuel s init
      ((List.prefix_append _ _).trans hc) (fun q hq => hl q (hq.trans (List.prefix_append _ _)) (by
        rintro rfl
        have := hq.length_le
        simp at this))
    have hlast := receive_chunk splitFrame Counted split_delimits (fun s b => handle s ⟨b⟩)
      maxBufferSize fuel (fs.map RexData.content) (by simpa using hf) (by simpa using hfuel) s
      init.flatten c hc
    rw [inbox_after_delivered, inbox_after_delivered, ← parse_frames_receive, arrived_whole,
      foldl_content] at hlast
    rw [List.foldlM_append, hinit, List.flatten_append, List.flatten_singleton]
    simp only [List.foldlM_cons, List.foldlM_nil, Option.bind_eq_bind, Option.bind_some, hlast]
    split_ifs
    · exact ⟨_,rfl,rfl⟩
    · exact ⟨_,rfl,rfl⟩

/-- While no chunk but the last leaves more than the limit behind, every
dispatched frame is a frame of the stream, in its order. -/
theorem dispatched_frames_of_stream (maxBufferSize fuel : ℕ) (fs : List RexData)
    (hw : ∀ f ∈ fs, Framed f ∧ f.content.length < 2^32) (hfuel : fs.length < fuel)
    (chunks : List Bytes) (hc : chunks.flatten = stream fs)
    (hl : ∀ pre, pre <+: chunks → pre ≠ chunks → (rest fs pre.flatten).length ≤ maxBufferSize) :
    ∀ pre, pre <+: chunks →
      ∃ out, pre.foldlM (drive logFrame id maxBufferSize fuel) ⟨[],[],0⟩ = some out ∧
        out.state.Sublist fs := by
  rintro pre ⟨suf, rfl⟩
  obtain ⟨out, ho, hs⟩ := parse_chunks_last logFrame maxBufferSize fuel fs
    (fun f hf => framed_counted f (hw f hf).1 (hw f hf).2) hfuel [] pre
    (by rw [← hc, List.flatten_append]; exact List.prefix_append _ _)
    (fun q hq hne => hl q (hq.trans (List.prefix_append _ _)) (by
      rintro rfl
      have hlen := hq.length_le
      rw [List.length_append] at hlen
      obtain rfl : suf = [] := List.length_eq_zero_iff.mp (by omega)
      simp at hne))
  refine ⟨out, ho, ?_⟩
  rw [hs, foldl_log_frame, List.nil_append]
  exact (arrived_initial fs _).sublist

/-- A message whose data ends with the bytes of a heartbeat. -/
def checkInside : RexData :=
  .new .title [] (List.replicate 1000 0++(RexData.new .check [] []).content)

theorem oversized_message_in_one_chunk :
    1024 < checkInside.content.length ∧
      ∃ out, [checkInside.content].foldlM (drive logFrame id 1024 2) ⟨[],[],0⟩ = some out ∧
        out.state.Sublist [checkInside] := by
  refine ⟨by decide +kernel, dispatched_frames_of_stream 1024 2 [checkInside] ?_ (by decide)
    [checkInside.content] (by simp [stream]) ?_ _ (List.prefix_refl _)⟩
  · intro f hf
    obtain rfl : f = checkInside := by simpa using hf
    exact ⟨new_framed _ _ _ (by decide),by decide +kernel⟩
  · intro pre hp hne
    have hnil : pre = [] := by
      rcases List.prefix_cons_iff.mp hp with h | ⟨t, rfl, ht⟩
      · exact h
      · exact absurd (by simpa using ht) hne
    simp [hnil, rest]

/-- Cut after 1037 bytes, the message exceeds the smallest configurable limit,
and after the clearing its last 37 bytes are dispatched as a heartbeat. -/
theorem data_dispatched_as_check :
    let chunks := [checkInside.content.take 1037,checkInside.content.drop 1037]
    Framed checkInside ∧ checkInside.content.length < 2^32 ∧
      chunks.flatten = stream [checkInside] ∧
      (chunks.foldlM (drive logFrame id 1024 2) ⟨[],[],0⟩).map Inbox.state =
        some [RexData.new .check [] []] ∧
      ¬ [RexData.new .check [] []].Sublist [checkInside] := by
  refine ⟨new_framed _ _ _ (by decide), by decide +kernel, by simp [stream], by decide +kernel, ?_⟩
  decide +kernel

end RexMq.FrameStream
