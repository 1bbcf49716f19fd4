import Mathlib.Tactic.Common
import RexMq.ClusterMessages
import RexMq.FrameData
import RexMq.SelfDelimiting

/-!
# Framing between cluster nodes

A message travels as its length in four bytes, big-endian, and its encoding.
Both receiving loops take frames off a buffer in the same way; a frame whose
length word exceeds the limit loses its header only, and what was inside is
read as frames. So the loops are faithful to streams of messages within the
limit and to no others: the sender has no limit of its own.
-/

set_option autoImplicit false

namespace RexMq.ClusterFraming
open RexMq.ByteWords RexMq.FiniteRun RexMq.SelfDelimiting RexMq.ClusterMessages
open RexMq.ServerState (NodeId)

def maxMessageSize : ℕ := 16*1024*1024
def headerSize : ℕ := 4

/-- `put_u32`: four bytes, the most significant first. -/
def putU32 (n : ℕ) : Bytes := (toLe 4 n).reverse

/-- The frame `send_to` writes; the length is cast to 32 bits. -/
def frameOf (data : Bytes) : Bytes := putU32 data.length++data

def lengthWord (b0 b1 b2 b3 : UInt8) : ℕ :=
  b0.toNat <<< 24 ||| b1.toNat <<< 16 ||| b2.toNat <<< 8 ||| b3.toNat

section Loops
variable {σ : Type*} (deliver : σ → Bytes → σ)

def parseBody (i : σ × Bytes) : Flow (σ × Bytes) :=
  match i.2 with
  | b0::b1::b2::b3::rest =>
    let length := lengthWord b0 b1 b2 b3
    if maxMessageSize < length then .again (i.1,rest)
    else if rest.length < length then .leave i
    else .again (deliver i.1 (rest.take length),rest.drop length)
  | _ => .leave i

/-- One chunk from the socket. Every round takes four bytes or more, so the
fuel is never used up. -/
def readChunk (i : σ × Bytes) (chunk : Bytes) : σ × Bytes :=
  match loop (parseBody deliver) ((i.2++chunk).length+1) (i.1,i.2++chunk) with
  | .again j => j
  | .leave j => j

end Loops

structure IncomingMessage where
  sourceNode : NodeId
  message : ClusterMessage
  deriving DecidableEq, Repr

/-- What a loop has taken off its stream and handed to the message handler. -/
structure Reading where
  payloads : List Bytes
  messages : List IncomingMessage

structure IncomingReading extends Reading where
  nodeIdStr : Option NodeId
  storedConnection : Bool
  connections : List NodeId

def deliverRead (deserialize : Bytes → Option ClusterMessage) (nodeId : NodeId) (s : Reading)
    (data : Bytes) : Reading :=
  let s := { s with payloads := s.payloads++[data] }
  match deserialize data with
  | none => s
  | some message => { s with messages := s.messages++[⟨nodeId,message⟩] }

/-- `handle_incoming_connection` on one payload: the first `Join` names the
connection. -/
def deliverIncoming (deserialize : Bytes → Option ClusterMessage) (s : IncomingReading)
    (data : Bytes) : IncomingReading :=
  let s := { s with payloads := s.payloads++[data] }
  match deserialize data with
  | none => s
  | some (.join node) =>
    let s := if !s.storedConnection then
        { s with connections := node.nodeId::s.connections, nodeIdStr := some node.nodeId,
                 storedConnection := true }
      else s
    { s with messages := s.messages++[⟨node.nodeId,.join node⟩] }
  | some message =>
    { s with messages := s.messages++[⟨s.nodeIdStr.getD "unknown",message⟩] }

/-- What a round takes off the buffer: a whole frame, or a header alone. -/
def nextItem (b : Bytes) : Option (Bytes × Bytes) :=
  match b with
  | b0::b1::b2::b3::rest =>
    if maxMessageSize < lengthWord b0 b1 b2 b3 then some ([b0,b1,b2,b3],rest)
    else if rest.length < lengthWord b0 b1 b2 b3 then none
    else some (b0::b1::b2::b3::rest.take (lengthWord b0 b1 b2 b3),
      rest.drop (lengthWord b0 b1 b2 b3))
  | _ => none

section Items
variable {σ : Type*} (deliver : σ → Bytes → σ)

def handleItem (s : σ) (item : Bytes) : σ :=
  match item with
  | b0::b1::b2::b3::data => if maxMessageSize < lengthWord b0 b1 b2 b3 then s else deliver s data
  | _ => s

theorem parse_body_eq : parseBody deliver = drainBody nextItem (handleItem deliver) := by
  funext i
  rcases i with ⟨s, b⟩
  unfold parseBody drainBody nextItem
  dsimp only
  split
  · split_ifs with hbig hshort
    · simp [handleItem, hbig]
    · rfl
    · simp [handleItem, hbig]
  · rfl

theorem read_chunk_eq : readChunk deliver = drainChunk nextItem (handleItem deliver) := by
  funext i chunk
  unfold readChunk drainChunk drainAll
  rw [parse_body_eq]
  cases loop (drainBody nextItem (handleItem deliver)) ((i.2++chunk).length+1) (i.1,i.2++chunk)
  · rfl
  · rfl

end Items

theorem next_item_extends : Extends nextItem where
  consumes := by
    intro b f r h
    unfold nextItem at h
    split at h
    · split_ifs at h
      · cases h
        exact ⟨rfl,by simp⟩
      · cases h
        exact ⟨by simp,by simp⟩
    · cases h
  extend := by
    intro b f r c h
    unfold nextItem at h
    split at h
    · rename_i b0 b1 b2 b3 rest
      simp only [nextItem, List.cons_append, List.length_append]
      split_ifs at h with hbig hshort
      · cases h
        rw [if_pos hbig]
      · cases h
        rw [if_neg hbig, if_neg (by omega), List.take_append_of_le_length (by omega),
          List.drop_append_of_le_length (by omega)]
    · cases h

theorem next_item_short (b : Bytes) (h : b.length < headerSize) : nextItem b = none := by
  unfold nextItem
  split
  · simp [headerSize] at h
    omega
  · rfl

theorem length_word_eq (b0 b1 b2 b3 : UInt8) : lengthWord b0 b1 b2 b3 = ofLe [b3,b2,b1,b0] := by
  rw [← or_shift_bytes, lengthWord]
  generalize b0.toNat <<< 24 = w
  generalize b1.toNat <<< 16 = x
  generalize b2.toNat <<< 8 = y
  rw [Nat.or_comm _ b3.toNat, Nat.or_comm _ y, Nat.or_comm w x, ← Nat.or_assoc, ← Nat.or_assoc]

theorem put_u32_eq (n : ℕ) : ∃ b0 b1 b2 b3, putU32 n = [b0,b1,b2,b3] ∧
    lengthWord b0 b1 b2 b3 = n%2^32 := by
  refine ⟨_,_,_,_,rfl,?_⟩
  rw [length_word_eq]
  exact of_le_to_le 4 n

/-- An item: a header beyond the limit, or a whole frame within it. -/
def IsItem (item : Bytes) : Prop :=
  match item with
  | b0::b1::b2::b3::data =>
    if maxMessageSize < lengthWord b0 b1 b2 b3 then data = []
    else data.length = lengthWord b0 b1 b2 b3
  | _ => False

instance (item : Bytes) : Decidable (IsItem item) := by
  unfold IsItem
  split
  · infer_instance
  · infer_instance

theorem next_item_of_item (item : Bytes) (h : IsItem item) (rest : Bytes) :
    nextItem (item++rest) = some (item,rest) := by
  unfold IsItem at h
  split at h
  · rename_i b0 b1 b2 b3 data
    unfold nextItem
    dsimp only [List.cons_append]
    split_ifs at h ⊢ with hbig hshort
    · rw [h]
      rfl
    · rw [List.length_append] at hshort
      omega
    · rw [← h, List.take_left, List.drop_left]
  · cases h

section Frames
variable {σ : Type*} (deliver : σ → Bytes → σ) (data : Bytes)

theorem frame_eq : ∃ b0 b1 b2 b3, frameOf data = b0::b1::b2::b3::data ∧
    lengthWord b0 b1 b2 b3 = data.length%2^32 := by
  obtain ⟨b0, b1, b2, b3, hb, hw⟩ := put_u32_eq data.length
  exact ⟨b0,b1,b2,b3,by rw [frameOf, hb]; rfl,hw⟩

theorem frame_length : (frameOf data).length = headerSize+data.length := by
  simp [frameOf, putU32, headerSize]

theorem word_within (h : data.length ≤ maxMessageSize) : data.length%2^32 = data.length :=
  Nat.mod_eq_of_lt (Nat.lt_of_le_of_lt h (by decide))

theorem frame_is_item (h : data.length ≤ maxMessageSize) : IsItem (frameOf data) := by
  obtain ⟨b0, b1, b2, b3, hf, hw⟩ := frame_eq data
  rw [word_within data h] at hw
  rw [hf]
  unfold IsItem
  dsimp only
  rw [hw, if_neg (Nat.not_lt.mpr h)]

theorem handle_frame (h : data.length ≤ maxMessageSize) (s : σ) :
    handleItem deliver s (frameOf data) = deliver s data := by
  obtain ⟨b0, b1, b2, b3, hf, hw⟩ := frame_eq data
  rw [word_within data h] at hw
  rw [hf]
  unfold handleItem
  dsimp only
  rw [hw, if_neg (Nat.not_lt.mpr h)]

end Frames

def WithinLimit (f : Bytes) : Prop := ∃ data, data.length ≤ maxMessageSize ∧ f = frameOf data

theorem next_item_delimits : Delimits nextItem WithinLimit where
  empty := rfl
  whole := by
    rintro f ⟨data, h, rfl⟩ rest
    exact next_item_of_item _ (frame_is_item data h) rest
  short := by
    rintro f ⟨data, h, rfl⟩ p hp hlen
    obtain ⟨b0, b1, b2, b3, hf, hw⟩ := frame_eq data
    rw [word_within data h] at hw
    rw [hf] at hp hlen
    by_cases hshort : p.length < headerSize
    · exact next_item_short p hshort
    · obtain ⟨rest, hrest⟩ := hp
      match p, hshort, hlen, hrest with
      | c0::c1::c2::c3::q, _, hlen, hrest =>
        simp only [List.cons_append, List.cons.injEq] at hrest
        obtain ⟨rfl, rfl, rfl, rfl, -⟩ := hrest
        simp only [List.length_cons] at hlen
        unfold nextItem
        dsimp only
        rw [hw, if_neg (Nat.not_lt.mpr h), if_pos (by omega)]
      | [], h4, _, _ => simp [headerSize] at h4
      | [_], h4, _, _ => simp [headerSize] at h4
      | [_,_], h4, _, _ => simp [headerSize] at h4
      | [_,_,_], h4, _, _ => simp [headerSize] at h4

section Streams
variable {σ : Type*} (deliver : σ → Bytes → σ) (ps : List Bytes)

theorem frames_within (hmax : ∀ p ∈ ps, p.length ≤ maxMessageSize) :
    ∀ f ∈ ps.map frameOf, WithinLimit f := by
  intro f hf
  obtain ⟨p, hp, rfl⟩ := List.mem_map.mp hf
  exact ⟨p,hmax p hp,rfl⟩

theorem fold_frames (hmax : ∀ p ∈ ps, p.length ≤ maxMessageSize) (s : σ) :
    (ps.map frameOf).foldl (handleItem deliver) s = ps.foldl deliver s := by
  induction ps generalizing s with
  | nil => rfl
  | cons p ps ih =>
    obtain ⟨hp, hps⟩ := List.forall_mem_cons.mp hmax
    rw [List.map_cons, List.foldl_cons, List.foldl_cons, handle_frame deliver p hp, ih hps]

/-- A received part of a stream within the limit: some whole frames, and the
beginning of the next one, which holds no item. -/
theorem received_frames (hmax : ∀ p ∈ ps, p.length ≤ maxMessageSize) (b : Bytes)
    (hb : b <+: (ps.map frameOf).flatten) :
    ∃ k buffer, b = ((ps.take k).map frameOf).flatten++buffer ∧ nextItem buffer = none ∧
      ∀ p, ps[k]? = some p → buffer.length < (frameOf p).length := by
  have hw := frames_within ps hmax
  have hsplit := received_split (ps.map frameOf) b hb
  have htake := whole_eq_take (ps.map frameOf) b.length
  rw [← List.map_take] at htake
  refine ⟨(wholeFrames (ps.map frameOf) b.length).length,pending (ps.map frameOf) b,?_,
    pending_short nextItem WithinLimit next_item_delimits _ hw b hb,fun p hp => ?_⟩
  · rw [← htake]
    exact hsplit
  · have hnext := whole_next (ps.map frameOf) (frameOf p) b.length
      (by rw [List.getElem?_map, hp]; rfl)
    have hlen := congrArg List.length hsplit
    rw [List.length_append] at hlen
    omega

theorem drain_received (hmax : ∀ p ∈ ps, p.length ≤ maxMessageSize) (s : σ) (k : ℕ)
    (buffer : Bytes) (hbuf : nextItem buffer = none) :
    drainAll nextItem (handleItem deliver) (s,((ps.take k).map frameOf).flatten++buffer) =
      ((ps.take k).foldl deliver s,buffer) := by
  have htake : ∀ p ∈ ps.take k, p.length ≤ maxMessageSize :=
    fun p hp => hmax p (List.mem_of_mem_take hp)
  rw [drain_all_frames next_item_extends, fold_frames deliver _ htake, drain_all_none _ _ hbuf]
  intro f hf rest
  exact next_item_delimits.whole f (frames_within _ htake f hf) rest

end Streams

def emptyReading : Reading := ⟨[],[]⟩

def emptyIncoming : IncomingReading := ⟨emptyReading,none,false,[]⟩

section Receiving
variable (deserialize : Bytes → Option ClusterMessage)
variable {σ : Type*} (view : σ → Reading) (deliver : σ → Bytes → σ) (s : σ)

/-- A loop that records every payload and hands over what can be decoded. -/
structure Records : Prop where
  payloads : ∀ s data, (view (deliver s data)).payloads = (view s).payloads++[data]
  messages : ∀ s data, (view (deliver s data)).messages.map IncomingMessage.message =
    (view s).messages.map IncomingMessage.message++(deserialize data).toList

/-- After the received part of a stream a loop has taken off the first `k`
payloads, handed over the messages among them and kept the bytes of the next
frame, which is incomplete. -/
structure InStep (ps : List Bytes) (received : Bytes) (k : ℕ) (r : Reading) (buffer : Bytes) :
    Prop where
  payloads : r.payloads = ps.take k
  messages : r.messages.map IncomingMessage.message = (ps.take k).filterMap deserialize
  received : received = ((ps.take k).map frameOf).flatten++buffer
  incomplete : ∀ p, ps[k]? = some p → buffer.length < (frameOf p).length

def readChunks (chunks : List Bytes) : σ × Bytes := chunks.foldl (readChunk deliver) (s,[])

/-- In step with the stream after every chunk, and through with it at its end. -/
structure Follows (ps chunks : List Bytes) : Prop where
  along : ∀ pre, pre <+: chunks → ∃ k, InStep deserialize ps pre.flatten k
    (view (readChunks deliver s pre).1) (readChunks deliver s pre).2
  complete : (view (readChunks deliver s chunks).1).payloads = ps ∧
    (readChunks deliver s chunks).2 = []

theorem read_chunks_eq (chunks : List Bytes) :
    readChunks deliver s chunks = drainAll nextItem (handleItem deliver) (s,chunks.flatten) := by
  rw [readChunks, read_chunk_eq, drain_chunks next_item_extends]

theorem records_read (nodeId : NodeId) :
    Records deserialize (fun r => r) (deliverRead deserialize nodeId) where
  payloads r data := by
    unfold deliverRead
    cases deserialize data <;> rfl
  messages r data := by
    unfold deliverRead
    cases deserialize data <;> simp

theorem records_incoming :
    Records deserialize IncomingReading.toReading (deliverIncoming deserialize) where
  payloads r data := by
    unfold deliverIncoming
    dsimp only
    split
    · rfl
    · split_ifs <;> rfl
    · rfl
  messages r data := by
    unfold deliverIncoming
    dsimp only
    split
    · rename_i hd
      simp [hd]
    · rename_i node hd
      split_ifs <;> simp [hd]
    · rename_i message _ hd
      simp [hd]

theorem records_fold (h : Records deserialize view deliver) (ps : List Bytes) :
    (view (ps.foldl deliver s)).payloads = (view s).payloads++ps ∧
      (view (ps.foldl deliver s)).messages.map IncomingMessage.message =
        (view s).messages.map IncomingMessage.message++ps.filterMap deserialize := by
  induction ps generalizing s with
  | nil => simp
  | cons p ps ih =>
    obtain ⟨hp, hm⟩ := ih (deliver s p)
    rw [List.foldl_cons, hp, hm, h.payloads, h.messages]
    constructor
    · simp
    · cases hd : deserialize p <;> simp [hd]

theorem records_drain (h : Records deserialize view deliver) (i : σ × Bytes)
    (m : ClusterMessage) :
    m ∈ (view i.1).messages.map IncomingMessage.message →
      m ∈ (view (drainAll nextItem (handleItem deliver) i).1).messages.map
        IncomingMessage.message := by
  apply drain_induct next_item_extends (handleItem deliver) (fun i =>
    m ∈ (view i.1).messages.map IncomingMessage.message →
      m ∈ (view (drainAll nextItem (handleItem deliver) i).1).messages.map IncomingMessage.message)
  · intro i hn hm
    rwa [drain_all_none _ _ hn]
  · intro i f r hn ih hm
    rw [drain_all_some next_item_extends _ i f r hn]
    apply ih
    unfold handleItem
    split
    · split_ifs
      · exact hm
      · rw [h.messages]
        exact List.mem_append_left _ hm
    · exact hm

theorem in_step_of_received (h : Records deserialize view deliver)
    (hs : view s = emptyReading) (ps : List Bytes)
    (hmax : ∀ p ∈ ps, p.length ≤ maxMessageSize) (chunks : List Bytes)
    (hc : chunks.flatten <+: (ps.map frameOf).flatten) :
    ∃ k, InStep deserialize ps chunks.flatten k (view (readChunks deliver s chunks).1)
      (readChunks deliver s chunks).2 := by
  obtain ⟨k, buffer, hb, hnone, hnext⟩ := received_frames ps hmax chunks.flatten hc
  have hdrain := drain_received deliver ps hmax s k buffer hnone
  obtain ⟨hp, hm⟩ := records_fold deserialize view deliver s h (ps.take k)
  rw [← hb, ← read_chunks_eq] at hdrain
  rw [hs] at hp hm
  rw [hdrain]
  exact ⟨k,hp,hm,hb,hnext⟩

theorem follows_of_records (h : Records deserialize view deliver) (hs : view s = emptyReading)
    (ps : List Bytes) (hmax : ∀ p ∈ ps, p.length ≤ maxMessageSize) (chunks : List Bytes)
    (hc : chunks.flatten = (ps.map frameOf).flatten) :
    Follows deserialize view deliver s ps chunks := by
  have hin := in_step_of_received deserialize view deliver s h hs ps hmax
  refine ⟨fun pre hp => hin pre ?_,?_⟩
  · obtain ⟨rest, rfl⟩ := hp
    rw [← hc, List.flatten_append]
    exact List.prefix_append _ _
  · -- a frame left over at the end would be both complete and incomplete
    obtain ⟨k, hk⟩ := hin chunks (by rw [hc])
    have hend : ps.length ≤ k := by
      by_contra hlt
      have hp : ps[k]? = some (ps.get ⟨k,by omega⟩) := List.getElem?_eq_getElem _
      have hshort := hk.incomplete _ hp
      have hlen := congrArg List.length (hc.symm.trans hk.received)
      have hsplit : ps = ps.take k++ps.get ⟨k,by omega⟩::ps.drop (k+1) := by
        conv_lhs => rw [← List.take_append_drop k ps, List.drop_eq_getElem_cons (by omega)]
        rfl
      conv at hlen => lhs; rw [hsplit]
      simp only [List.map_append, List.map_cons, List.flatten_append, List.flatten_cons,
        List.length_append] at hlen
      omega
    have hrest := hk.received
    rw [hc, List.take_of_length_le hend, List.self_eq_append_right] at hrest
    rw [hk.payloads, List.take_of_length_le hend]
    exact ⟨rfl,hrest⟩

end Receiving

/-- Streams within the limit are received faithfully by both loops, however
they are cut. -/
theorem cluster_streams_received (deserialize : Bytes → Option ClusterMessage) (nodeId : NodeId)
    (ps : List Bytes) (hmax : ∀ p ∈ ps, p.length ≤ maxMessageSize) (chunks : List Bytes)
    (hc : chunks.flatten = (ps.map frameOf).flatten) :
    Follows deserialize IncomingReading.toReading (deliverIncoming deserialize) emptyIncoming ps
        chunks ∧
      Follows deserialize (fun r => r) (deliverRead deserialize nodeId) emptyReading ps chunks :=
  ⟨follows_of_records deserialize _ _ _ (records_incoming deserialize) rfl ps hmax chunks hc,
    follows_of_records deserialize _ _ _ (records_read deserialize nodeId) rfl ps hmax chunks hc⟩

/-- An empty payload, which decodes to nothing, and a ping, cut inside the
second header. -/
theorem cut_ping_received :
    Follows bincode.deserialize IncomingReading.toReading (deliverIncoming bincode.deserialize)
        emptyIncoming [[],bincode.serialize (.ping "n" 5)]
        [[0,0,0,0,0],[0,0,21]++bincode.serialize (.ping "n" 5)] ∧
      Follows bincode.deserialize (fun r => r) (deliverRead bincode.deserialize "n") emptyReading
        [[],bincode.serialize (.ping "n" 5)]
        [[0,0,0,0,0],[0,0,21]++bincode.serialize (.ping "n" 5)] :=
  cluster_streams_received bincode.deserialize "n" [[],bincode.serialize (.ping "n" 5)]
    (by decide +kernel) [[0,0,0,0,0],[0,0,21]++bincode.serialize (.ping "n" 5)] (by decide +kernel)

section Sending
variable (codec : Codec)

/-- The bytes of a sequence of successful calls of `send_to`. -/
def sentStream (ms : List ClusterMessage) : Bytes :=
  ((ms.map codec.serialize).map frameOf).flatten

variable {σ : Type*} (view : σ → Reading) (deliver : σ → Bytes → σ) (s : σ)

/-- After every chunk the messages handed over are among those sent, in their
order, and every header was read where a message begins. -/
def NoForgery (ms : List ClusterMessage) (chunks : List Bytes) : Prop :=
  ∀ pre c, pre++[c] <+: chunks →
    List.Sublist ((view (readChunks deliver s (pre++[c])).1).messages.map IncomingMessage.message)
      ms ∧
    ∀ t, Entered (parseBody deliver)
        ((readChunks deliver s pre).1,(readChunks deliver s pre).2++c) t →
      headerSize ≤ t.2.length →
      ∃ j, (pre++[c]).flatten.length = (sentStream codec (ms.take j)).length+t.2.length

theorem sent_stream_append (ms ns : List ClusterMessage) :
    sentStream codec (ms++ns) = sentStream codec ms++sentStream codec ns := by
  simp [sentStream]

theorem sent_stream_cons (m : ClusterMessage) (ms : List ClusterMessage) :
    sentStream codec (m::ms) = frameOf (codec.serialize m)++sentStream codec ms := by
  simp [sentStream]

theorem decoded_all (ms : List ClusterMessage) (hfits : ∀ m ∈ ms, codec.fits m) :
    (ms.map codec.serialize).filterMap codec.deserialize = ms := by
  induction ms with
  | nil => rfl
  | cons m ms ih =>
    obtain ⟨hm, hms⟩ := List.forall_mem_cons.mp hfits
    rw [List.map_cons, List.filterMap_cons_some (codec.deserialize_serialize m hm), ih hms]

theorem no_forgery_within (h : Records codec.deserialize view deliver)
    (hs : view s = emptyReading) (ms : List ClusterMessage) (hfits : ∀ m ∈ ms, codec.fits m)
    (hmax : ∀ m ∈ ms, (codec.serialize m).length ≤ maxMessageSize) (chunks : List Bytes)
    (hc : chunks.flatten = sentStream codec ms) : NoForgery codec view deliver s ms chunks := by
  have hmax' : ∀ p ∈ ms.map codec.serialize, p.length ≤ maxMessageSize := by
    intro p hp
    obtain ⟨m, hm, rfl⟩ := List.mem_map.mp hp
    exact hmax m hm
  intro pre c hpre
  have hpart : (pre++[c]).flatten <+: ((ms.map codec.serialize).map frameOf).flatten := by
    obtain ⟨rest, rfl⟩ := hpre
    exact ⟨rest.flatten,by rw [← List.flatten_append]; exact hc⟩
  constructor
  · obtain ⟨k, hk⟩ := in_step_of_received codec.deserialize view deliver s h hs _ hmax' (pre++[c])
      hpart
    rw [hk.messages, ← List.map_take,
      decoded_all codec _ (fun m hm => hfits m (List.mem_of_mem_take hm))]
    exact List.take_sublist k ms
  · intro t ht hlen
    obtain ⟨k, buffer, hb, hnone, -⟩ := received_frames _ hmax' (pre++[c]).flatten hpart
    rw [read_chunks_eq, parse_body_eq] at ht
    have hent := entered_of_chunk next_item_extends (handleItem deliver) s pre.flatten c t ht
    have hflat : pre.flatten++c = (pre++[c]).flatten := by simp
    rw [hflat, hb] at hent
    obtain ⟨j, hj⟩ := entered_between (handleItem deliver) _ (fun f hf rest =>
      next_item_delimits.whole f (frames_within _ (fun p hp => hmax' p (List.mem_of_mem_take hp))
        f hf) rest) s buffer hnone t hent
    refine ⟨min j k,?_⟩
    have hstream : sentStream codec (ms.take (min j k)) =
        ((((ms.map codec.serialize).take k).map frameOf).take j).flatten := by
      rw [sentStream, ← List.map_take, ← List.map_take, ← List.map_take, List.take_take]
    have hcut := congrArg List.length (congrArg List.flatten
      (List.take_append_drop j (((ms.map codec.serialize).take k).map frameOf)))
    rw [List.flatten_append, List.length_append] at hcut
    rw [hb, hj, hstream, List.length_append, List.length_append]
    omega

theorem oversized_item (data rest : Bytes) (h : maxMessageSize < data.length) :
    ∃ item r, nextItem (frameOf data++rest) = some (item,r) ∧
      rest.length+headerSize ≤ r.length ∧ r.length < (frameOf data++rest).length := by
  obtain ⟨b0, b1, b2, b3, hf, hw⟩ := frame_eq data
  have hlen := frame_length data
  rw [hf]
  unfold nextItem
  dsimp only [List.cons_append]
  by_cases hbig : maxMessageSize < lengthWord b0 b1 b2 b3
  · rw [if_pos hbig]
    refine ⟨_,_,rfl,?_,?_⟩
    · rw [List.length_append]
      simp only [maxMessageSize, headerSize] at h ⊢
      omega
    · simp only [List.length_cons, List.length_append]
      omega
  · -- the length did not fit into 32 bits
    have hmod := Nat.mod_le data.length (2^32)
    have hgap : data.length%2^32+headerSize ≤ data.length := by
      rw [hw] at hbig
      have hdiv := Nat.div_add_mod data.length (2^32)
      have hpos : 0 < data.length/2^32 := by
        rcases Nat.eq_zero_or_pos (data.length/2^32) with h0 | h0
        · rw [h0] at hdiv
          omega
        · exact h0
      simp only [headerSize]
      omega
    rw [if_neg hbig, hw, if_neg (by rw [List.length_append]; omega)]
    refine ⟨_,_,rfl,?_,?_⟩
    · rw [List.length_drop, List.length_append]
      omega
    · simp only [List.length_cons, List.length_drop, List.length_append]
      omega

theorem first_oversized (ms : List ClusterMessage)
    (h : ¬ ∀ m ∈ ms, (codec.serialize m).length ≤ maxMessageSize) :
    ∃ as m bs, ms = as++m::bs ∧ (∀ a ∈ as, (codec.serialize a).length ≤ maxMessageSize) ∧
      maxMessageSize < (codec.serialize m).length := by
  induction ms with
  | nil => simp at h
  | cons m ms ih =>
    by_cases hm : (codec.serialize m).length ≤ maxMessageSize
    · obtain ⟨as, m', bs, rfl, has, hm'⟩ := ih (fun hall => h (List.forall_mem_cons.mpr ⟨hm,hall⟩))
      exact ⟨m::as,m',bs,rfl,List.forall_mem_cons.mpr ⟨hm,has⟩,hm'⟩
    · exact ⟨[],m,ms,rfl,by simp,Nat.lt_of_not_le hm⟩

theorem inside_not_boundary (as bs : List ClusterMessage) (m : ClusterMessage) (n j : ℕ)
    (hlow : (sentStream codec bs).length < n)
    (hhigh : n < (frameOf (codec.serialize m)).length+(sentStream codec bs).length) :
    (sentStream codec (as++m::bs)).length ≠
      (sentStream codec ((as++m::bs).take j)).length+n := by
  rw [sent_stream_append, sent_stream_cons, List.length_append, List.length_append]
  by_cases hj : j ≤ as.length
  · have htake : (as++m::bs).take j = as.take j := List.take_append_of_le_length hj
    have hsplit := congrArg List.length (sent_stream_append codec (as.take j) (as.drop j))
    rw [List.take_append_drop, List.length_append] at hsplit
    rw [htake]
    omega
  · obtain ⟨i, rfl⟩ := Nat.exists_eq_add_of_lt (Nat.lt_of_not_le hj)
    have htake : (as++m::bs).take (as.length+i+1) = as++m::bs.take i := by
      rw [List.take_append, List.take_of_length_le (by omega),
        show as.length+i+1-as.length = i+1 by omega, List.take_succ_cons]
    rw [htake, sent_stream_append, sent_stream_cons, List.length_append, List.length_append]
    omega

theorem header_inside_payload (ms : List ClusterMessage)
    (h : ¬ ∀ m ∈ ms, (codec.serialize m).length ≤ maxMessageSize) (chunks : List Bytes)
    (hc : chunks.flatten = sentStream codec ms) : ¬ NoForgery codec view deliver s ms chunks := by
  obtain ⟨as, m, bs, rfl, has, hm⟩ := first_oversized codec ms h
  obtain ⟨item, r, hitem, hlow, hhigh⟩ := oversized_item _ (sentStream codec bs) hm
  have hfront := entered_frames (handleItem deliver) ((as.map codec.serialize).map frameOf)
    (fun f hf rest => by
      refine next_item_delimits.whole f (frames_within _ (fun p hp => ?_) f hf) rest
      obtain ⟨a, ha, rfl⟩ := List.mem_map.mp hp
      exact has a ha) s (frameOf (codec.serialize m)++sentStream codec bs)
  have hstream : ((as.map codec.serialize).map frameOf).flatten++
      (frameOf (codec.serialize m)++sentStream codec bs) = chunks.flatten := by
    rw [hc, sent_stream_append, sent_stream_cons]
    rfl
  rw [hstream] at hfront
  obtain ⟨k, hk⟩ := hfront
  have hinside : Entered (drainBody nextItem (handleItem deliver)) (s,chunks.flatten)
      (handleItem deliver (((as.map codec.serialize).map frameOf).foldl (handleItem deliver) s)
        item,r) :=
    ⟨k+1,loop_again_snoc _ k _ _ _ hk (drain_body_some (handleItem deliver) _ item r hitem)⟩
  obtain ⟨pre, c, u, hp, hu, hum, he⟩ := entered_in_chunk next_item_extends (handleItem deliver) s
    headerSize (by decide) next_item_short chunks _ hinside (by dsimp only; omega)
  intro hno
  obtain ⟨j, hj⟩ := (hno pre c hp).2 u (by rw [read_chunks_eq, parse_body_eq]; exact hu) hum
  rw [hc] at he
  refine inside_not_boundary codec as bs m r.length j (by simp only [headerSize] at hlow; omega)
    (by rw [List.length_append] at hhigh; exact hhigh) ?_
  dsimp only at he
  omega

end Sending

/-- Neither loop forges a message or reads a header inside one exactly when
no message sent is encoded in more bytes than the limit. -/
theorem no_forgery_iff (codec : Codec) (nodeId : NodeId) (ms : List ClusterMessage)
    (hfits : ∀ m ∈ ms, codec.fits m) (chunks : List Bytes)
    (hc : chunks.flatten = sentStream codec ms) :
    (NoForgery codec IncomingReading.toReading (deliverIncoming codec.deserialize) emptyIncoming
        ms chunks ↔ ∀ m ∈ ms, (codec.serialize m).length ≤ maxMessageSize) ∧
      (NoForgery codec (fun r => r) (deliverRead codec.deserialize nodeId) emptyReading
        ms chunks ↔ ∀ m ∈ ms, (codec.serialize m).length ≤ maxMessageSize) := by
  constructor
  · constructor
    · intro hno
      by_contra hbig
      exact header_inside_payload codec _ _ _ ms hbig chunks hc hno
    · intro hmax
      exact no_forgery_within codec _ _ _ (records_incoming codec.deserialize) rfl ms hfits hmax
        chunks hc
  · constructor
    · intro hno
      by_contra hbig
      exact header_inside_payload codec _ _ _ ms hbig chunks hc hno
    · intro hmax
      exact no_forgery_within codec _ _ _ (records_read codec.deserialize nodeId) rfl ms hfits hmax
        chunks hc

theorem ping_not_forged :
    NoForgery bincode (fun r => r) (deliverRead bincode.deserialize "n") emptyReading
      [.ping "n" 5] [sentStream bincode [.ping "n" 5]] := by
  refine (no_forgery_iff bincode "n" [.ping "n" 5] (fun m hm => ?_)
    [sentStream bincode [.ping "n" 5]] (by simp)).2.mpr (by decide +kernel)
  rw [List.mem_singleton.mp hm]
  change "n".toByteArray.data.toList.length < 2^64 ∧ True
  decide +kernel

section Forging
open RexMq.ByteCodec.Coder

def forgedJoin : ClusterMessage := .join ⟨"x",.v4 [10,0,0,1] 7000,0⟩

/-- Three bytes that complete a header, the framed `Join`, and filling. -/
def forgingData (filling : Bytes) : Bytes :=
  [0,0,0]++frameOf (bincode.serialize forgedJoin)++filling

/-- A client's `Title` frame for the title `zzzz` with the source id 7. -/
def forgingFrame (filling : Bytes) : Bytes :=
  writeWord 128 20 7 (FrameData.RexData.new .title [122,122,122,122] (forgingData filling)).content

def forgingForward (filling : Bytes) : ClusterMessage :=
  .forward ⟨0,7,0,[122,122,122,122],forgingFrame filling,false,false,false⟩

/-- What the loop takes off the stream before the filling, word by word. -/
def forgingItems : List Bytes :=
  [[1,0,1,66],[3,0,0,0],[0,0,0,0],[0,0,0,0],[7,0,0,0],[0,0,0,0],[0,0,0,0],[0,0,0,0],
    [0,0,0,0],[0,0,0,0],[0,0,0,0],[0,0,0,0],[4,0,0,0],[0,0,0,0],[122,122,122,122],
    [255,0,0,1],[0,0,0,0],[255,0,0,1],[173,38,0,0],[0,0,0,0],[0,0,0,0],[0,0,0,0],
    [7,0,0,0],[0,0,0,0],[0,0,0,0],[0,0,0,0],[4,122,122,122],[122,0,0,0],
    frameOf (bincode.serialize forgedJoin)]

variable (filling : Bytes) (hz : filling.length = 16777392)

include hz

theorem forging_frame_eq : forgingFrame filling = (forgingItems.drop 17).flatten++filling := by
  have hlen : (forgingData filling).length = 16777430 := by
    rw [forgingData, List.length_append, hz]
    rfl
  unfold forgingFrame FrameData.RexData.new
  rw [hlen]
  rfl

theorem forging_payload_eq : counted.put (forgingFrame filling) =
    [255,0,0,1,0,0,0,0]++((forgingItems.drop 17).flatten++filling) := by
  have hlen : (forgingFrame filling).length = 16777471 := by
    rw [forging_frame_eq filling hz, List.length_append, hz]
    rfl
  change (word 8).put (BitVec.ofNat 64 (forgingFrame filling).length)++_ = _
  rw [hlen, forging_frame_eq filling hz]
  rfl

theorem forging_serialize : bincode.serialize (forgingForward filling) =
    (forgingItems.drop 1).flatten++(filling++[0,0,0]) := by
  change (word 4).put 3++((word 8).put 0++((word 16).put 7++((word 16).put 0++
    (utf8.put [122,122,122,122]++(counted.put (forgingFrame filling)++
      (bool.put false++(bool.put false++bool.put false))))))) = _
  rw [forging_payload_eq filling hz, List.append_assoc [255,0,0,1,0,0,0,0],
    List.append_assoc (forgingItems.drop 17).flatten]
  rfl

theorem forging_stream_eq : sentStream bincode [forgingForward filling] =
    forgingItems.flatten++(filling++[0,0,0]) := by
  have hlen : (bincode.serialize (forgingForward filling)).length = 16777538 := by
    rw [forging_serialize filling hz, List.length_append, List.length_append, hz]
    decide +kernel
  rw [sentStream, List.map_singleton, List.map_singleton, List.flatten_singleton, frameOf, hlen,
    forging_serialize filling hz]
  rfl

omit hz in
theorem forging_items : ∀ f ∈ forgingItems, IsItem f := by decide +kernel

theorem forged_join_handed_over :
    forgedJoin ∈ (readChunks (deliverRead bincode.deserialize "n") emptyReading
      [sentStream bincode [forgingForward filling]]).1.messages.map IncomingMessage.message := by
  rw [read_chunks_eq, List.flatten_singleton, forging_stream_eq filling hz,
    drain_all_frames next_item_extends _ _ (fun f hf => next_item_of_item f (forging_items f hf))]
  have hitems : forgedJoin ∈ (forgingItems.foldl (handleItem (deliverRead bincode.deserialize "n"))
      emptyReading).messages.map IncomingMessage.message := by decide +kernel
  exact records_drain bincode.deserialize (fun r => r) _ (records_read bincode.deserialize "n") _
    forgedJoin hitems

theorem forging_fits : bincode.fits (forgingForward filling) := by
  have htitle : [122,122,122,122].length < 2^64 ∧
      ByteArray.IsValidUTF8 ⟨([122,122,122,122] : Bytes).toArray⟩ := by decide +kernel
  refine ⟨htitle,?_⟩
  change (forgingFrame filling).length < 2^64
  rw [forging_frame_eq filling hz, List.length_append, hz]
  decide +kernel

end Forging

/-- One message is sent, a client's 16 MiB publish, and a `Join` that nobody
sent is handed over. -/
theorem payload_handed_over_as_join :
    bincode.fits (forgingForward (List.replicate 16777392 0)) ∧
      ¬ List.Sublist ((readChunks (deliverRead bincode.deserialize "n") emptyReading
          [sentStream bincode [forgingForward (List.replicate 16777392 0)]]).1.messages.map
            IncomingMessage.message)
        [forgingForward (List.replicate 16777392 0)] := by
  refine ⟨forging_fits _ List.length_replicate,fun hsub => ?_⟩
  have hin := hsub.subset (forged_join_handed_over _ List.length_replicate)
  exact absurd (List.mem_singleton.mp hin) ClusterMessage.noConfusion

end RexMq.ClusterFraming
