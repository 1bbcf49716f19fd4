import Mathlib.Tactic.Common
import RexMq.FrameFields

/-!
# The packet of an acknowledgement

Acknowledgements are packed by an encoder of their own. Like the general one
it stores byte ranges at fixed offsets into an allocation whose bytes can have
any values, the header last. Both encoders overwrite the whole allocation, and
what they leave is the same frame: no title, and the id as the data.
-/

set_option autoImplicit false

namespace RexMq.AckPacket
open RexMq.ByteWords RexMq.FrameData RexMq.FrameStream RexMq.FrameFields

/-- What `with_capacity` and `set_len` give: bytes of a fixed number and of
any values. -/
structure Allocation (n : ℕ) where
  bytes : Bytes
  sized : bytes.length = n

def frameLen (title data : Bytes) : ℕ := rexHeadLen+titleLenSize+title.length+data.length

/-- `RexData::new`, store by store. -/
def newStores (command : RexCommand) (title data : Bytes)
    (content : Allocation (frameLen title data)) : RexData :=
  let pos := rexHeadLen
  let bytes := patch pos [UInt8.ofNat title.length] content.bytes
  let pos := pos+titleLenSize
  let bytes := if 0 < title.length then patch pos title bytes else bytes
  let pos := if 0 < title.length then pos+title.length else pos
  let bytes := if 0 < data.length then patch pos data bytes else bytes
  ⟨patch 0 (RexData.encodeHead
    { totalLen := BitVec.ofNat 32 (frameLen title data)
      command := command.asU32
      retcode := RetCode.success.asU32
      messageId := 0
      source := 0 }) bytes⟩

def ackLen : ℕ := rexHeadLen+titleLenSize+8

/-- `AckData::to_rex_data`, store by store. -/
def toRexDataStores (a : AckData) (source : BitVec 128) (command : RexCommand)
    (content : Allocation ackLen) : RexData :=
  let bytes := patch rexHeadLen [0] content.bytes
  let bytes := writeWord 64 (rexHeadLen+titleLenSize) a.messageId bytes
  ⟨patch 0 (RexData.encodeHead
    { totalLen := BitVec.ofNat 32 ackLen
      command := command.asU32
      retcode := RetCode.success.asU32
      messageId := 0
      source := source }) bytes⟩

section Stores

theorem head_over_fill (h : RexHead) (ws : List Bytes) (bs : Bytes)
    (hlen : bs.length = rexHeadLen+ws.flatten.length) :
    patch 0 (RexData.encodeHead h) (fill rexHeadLen ws bs) =
      RexData.encodeHead h++ws.flatten := by
  have hfront : (bs.take rexHeadLen).length = rexHeadLen := by
    rw [List.length_take]
    omega
  have hrest : (bs.drop rexHeadLen).length = ws.flatten.length := by
    rw [List.length_drop]
    omega
  rw [← List.take_append_drop rexHeadLen bs, fill_append ws _ _ rexHeadLen hfront hrest]
  apply patch_append _ _ [] _ 0 rfl
  rw [hfront, encode_head_length]
  rfl

theorem guarded_copy (pos : ℕ) (w bs : Bytes) :
    (if 0 < w.length then patch pos w bs else bs) = patch pos w bs := by
  split_ifs with hw
  · rfl
  · rw [List.eq_nil_of_length_eq_zero (by omega : w.length = 0), patch_nil]

theorem guarded_pos (pos n : ℕ) : (if 0 < n then pos+n else pos) = pos+n := by
  split_ifs <;> omega

theorem new_stores_eq (command : RexCommand) (title data : Bytes)
    (content : Allocation (frameLen title data)) :
    newStores command title data content = .new command title data := by
  have hfill := head_over_fill
    ⟨BitVec.ofNat 32 (frameLen title data),command.asU32,RetCode.success.asU32,0,0⟩
    [[UInt8.ofNat title.length],title,data] content.bytes (by
      rw [content.sized, frameLen, titleLenSize]
      simp only [List.flatten_cons, List.flatten_nil, List.length_append, List.length_singleton,
        List.length_nil]
      omega)
  simp only [newStores, guarded_copy, guarded_pos]
  apply congrArg RexData.mk
  exact hfill.trans (by simp [frameLen])

theorem to_rex_data_stores_eq (a : AckData) (source : BitVec 128) (command : RexCommand)
    (content : Allocation ackLen) :
    toRexDataStores a source command content = a.toRexData source command := by
  have hfill := head_over_fill
    ⟨BitVec.ofNat 32 ackLen,command.asU32,RetCode.success.asU32,0,source⟩
    [[0],toLe 8 a.messageId.toNat] content.bytes (by rw [content.sized]; rfl)
  apply congrArg RexData.mk
  exact hfill.trans (by simp [ackLen])

end Stores

section Packet
variable (m : BitVec 64) (source : BitVec 128) (command : RexCommand) (r : RetCode)

def ackFields : Fields := ⟨command,source,r,0,[],toLe 8 m.toNat,Nat.zero_le _⟩

theorem to_rex_data_encode :
    (⟨m⟩ : AckData).toRexData source command = (ackFields m source command .success).encode := rfl

theorem from_ack_fields :
    AckData.fromRexData (ackFields m source command r).encode = .ok ⟨m⟩ := by
  have hlen : (ackFields m source command r).encode.content.length = 45 :=
    (Fields.encode_length _).trans rfl
  have hread := read_word_append 8 37 m
    (RexData.encodeHead (ackFields m source command r).head++[0]) []
    (by rw [List.length_append, encode_head_length, List.length_singleton])
  rw [List.append_nil, List.append_assoc] at hread
  rw [AckData.fromRexData, if_neg (by rw [hlen]; decide)]
  exact congrArg (fun x => Except.ok (AckData.mk x)) hread

end Packet

/-- Whatever the two allocations held, the packet is the frame the general
encoder makes of the id; with any return code it is read back from in front
of any bytes. -/
theorem ack_packet_is_frame (m : BitVec 64) (source : BitVec 128) (command : RexCommand)
    (content : Allocation ackLen) (content' : Allocation (frameLen [] (toLe 8 m.toNat))) :
    (newStores command [] (toLe 8 m.toNat) content').setSource source =
      .ok (toRexDataStores ⟨m⟩ source command content) ∧
    ∀ r, ∃ f, (toRexDataStores ⟨m⟩ source command content).setRetcode r = .ok f ∧
      ∀ suffix, RexData.tryDeserialize (f.content++suffix) = (.ok (some f),suffix) ∧
        AckData.fromRexData f = .ok ⟨m⟩ ∧ f.source = .ok source ∧ f.command = .ok command ∧
        f.retcode = .ok r := by
  rw [to_rex_data_stores_eq, new_stores_eq, to_rex_data_encode]
  constructor
  · rw [← Fields.encode_new command [] (toLe 8 m.toNat) (Nat.zero_le _)]
    exact apply_encode _ (.setSource source)
  · intro r
    obtain ⟨hc, hs, hr, -⟩ := head_fields (ackFields m source command r)
    refine ⟨(ackFields m source command r).encode,apply_encode _ (.setRetcode r),fun suffix => ?_⟩
    have hlen : (ackFields m source command r).length < 2^32 := by
      show 45 < 2^32
      decide
    exact ⟨deserialize_encode _ suffix hlen,from_ack_fields m source command r,hs,hc,hr⟩

example : (toRexDataStores ⟨0x0201⟩ 7 .ack ⟨List.replicate ackLen 255,rfl⟩).content.drop 36 =
    [0,1,2,0,0,0,0,0,0] := by decide

end RexMq.AckPacket
