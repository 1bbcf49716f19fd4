import Mathlib.Tactic.Common
import RexMq.FrameStream

/-!
# The fields of a frame under its mutators

A frame is the bytes of six fields: four words of the header, the title and
the data; the length word is computed from the last two. Every mutator takes
the bytes of one record of fields to the bytes of the record with that field
replaced, so any sequence of them is a sequence of record updates, and the
parser returns the record as it was left.
-/

set_option autoImplicit false

namespace RexMq.FrameFields
open RexMq.ByteWords RexMq.FrameData RexMq.FrameParser RexMq.FrameStream

section Header
variable (h : RexHead) (rest : Bytes)

theorem head_encode : (RexData.mk (RexData.encodeHead h++rest)).head = .ok h := by
  have hlen : ¬ (RexData.encodeHead h++rest).length < rexHeadLen := by
    rw [List.length_append, encode_head_length, rexHeadLen]
    omega
  have hc : readWord 32 4 (RexData.encodeHead h++rest) = h.command := by
    simp only [RexData.encodeHead, List.append_assoc]
    exact read_word_append 4 4 h.command (toLe 4 _) _ (by simp)
  have hr : readWord 32 8 (RexData.encodeHead h++rest) = h.retcode := by
    simp only [RexData.encodeHead, List.append_assoc]
    rw [← List.append_assoc]
    exact read_word_append 4 8 h.retcode (toLe 4 _++toLe 4 _) _ (by simp)
  have hm : readWord 64 12 (RexData.encodeHead h++rest) = h.messageId := by
    simp only [RexData.encodeHead]
    rw [List.append_assoc, List.append_assoc]
    exact read_word_append 8 12 h.messageId (toLe 4 _++toLe 4 _++toLe 4 _) _ (by simp)
  have hs : readWord 128 20 (RexData.encodeHead h++rest) = h.source := by
    rw [RexData.encodeHead, List.append_assoc]
    exact read_word_append 16 20 h.source _ rest (by simp)
  rw [RexData.head, if_neg hlen, encode_head_total, hc, hr, hm, hs]

section Reading
variable (f : RexData) (hh : f.head = .ok h)
include hh

theorem command_of_head : f.command = .ok (.fromU32 h.command) := by
  rw [RexData.command, hh]
  rfl

theorem retcode_of_head : f.retcode = .ok (.fromU32 h.retcode) := by
  rw [RexData.retcode, hh]
  rfl

theorem message_id_of_head : f.messageId = .ok h.messageId := by
  rw [RexData.messageId, hh]
  rfl

theorem source_of_head : f.source = .ok h.source := by
  rw [RexData.source, hh]
  rfl

end Reading

theorem head_mut_append (k off y : ℕ) (x : BitVec (8*k)) (a b : Bytes) (ha : a.length = off)
    (hb : 36 ≤ off+k+b.length) :
    RexData.headMut (8*k) off x ⟨a++(toLe k y++b)⟩ = .ok ⟨a++(toLe k x.toNat++b)⟩ := by
  have hlen : ¬ (a++(toLe k y++b)).length < rexHeadLen := by
    simp only [List.length_append, to_le_length, rexHeadLen]
    omega
  rw [RexData.headMut, if_neg hlen, write_word_append k off y x a b ha]

theorem head_mut_total (x : BitVec 32) :
    RexData.headMut 32 0 x ⟨RexData.encodeHead h++rest⟩ =
      .ok ⟨RexData.encodeHead { h with totalLen := x }++rest⟩ := by
  simp only [RexData.encodeHead, List.append_assoc]
  exact head_mut_append 4 0 _ x [] _ rfl (by simp; omega)

theorem head_mut_command (x : BitVec 32) :
    RexData.headMut 32 4 x ⟨RexData.encodeHead h++rest⟩ =
      .ok ⟨RexData.encodeHead { h with command := x }++rest⟩ := by
  simp only [RexData.encodeHead, List.append_assoc]
  exact head_mut_append 4 4 _ x (toLe 4 _) _ (by simp) (by simp; omega)

theorem head_mut_retcode (x : BitVec 32) :
    RexData.headMut 32 8 x ⟨RexData.encodeHead h++rest⟩ =
      .ok ⟨RexData.encodeHead { h with retcode := x }++rest⟩ := by
  have hm := head_mut_append 4 8 h.retcode.toNat x
    (toLe 4 h.totalLen.toNat++toLe 4 h.command.toNat)
    (toLe 8 h.messageId.toNat++(toLe 16 h.source.toNat++rest)) (by simp) (by simp; omega)
  simpa only [RexData.encodeHead, List.append_assoc] using hm

theorem head_mut_message_id (x : BitVec 64) :
    RexData.headMut 64 12 x ⟨RexData.encodeHead h++rest⟩ =
      .ok ⟨RexData.encodeHead { h with messageId := x }++rest⟩ := by
  have hm := head_mut_append 8 12 h.messageId.toNat x
    (toLe 4 h.totalLen.toNat++toLe 4 h.command.toNat++toLe 4 h.retcode.toNat)
    (toLe 16 h.source.toNat++rest) (by simp) (by simp; omega)
  simpa only [RexData.encodeHead, List.append_assoc] using hm

theorem head_mut_source (x : BitVec 128) :
    RexData.headMut 128 20 x ⟨RexData.encodeHead h++rest⟩ =
      .ok ⟨RexData.encodeHead { h with source := x }++rest⟩ := by
  have hm := head_mut_append 16 20 h.source.toNat x
    (toLe 4 h.totalLen.toNat++toLe 4 h.command.toNat++toLe 4 h.retcode.toNat++
      toLe 8 h.messageId.toNat) rest (by simp) (by omega)
  simpa only [RexData.encodeHead, List.append_assoc] using hm

end Header

theorem content_of_head (f : RexData) (h : RexHead) (hh : f.head = .ok h) :
    f.content = RexData.encodeHead h++f.content.drop rexHeadLen := by
  unfold RexData.head at hh
  split_ifs at hh with hlen
  cases hh
  simp only [rexHeadLen, Nat.not_lt] at hlen
  have h0 := to_le_read_word 4 0 f.content (by omega)
  have h4 := to_le_read_word 4 4 f.content (by omega)
  have h8 := to_le_read_word 4 8 f.content (by omega)
  have h12 := to_le_read_word 8 12 f.content (by omega)
  have h20 := to_le_read_word 16 20 f.content (by omega)
  simp only [RexData.encodeHead, h0, h4, h8, h12, h20, List.append_assoc, rexHeadLen]
  rw [slice_append_drop 20 16, slice_append_drop 12 8, slice_append_drop 8 4,
    slice_append_drop 4 4, slice_append_drop 0 4]
  rfl

section Stores
variable (f g : RexData) (h : RexHead) (hh : f.head = .ok h)
include hh

theorem head_set_source (x : BitVec 128) (hg : f.setSource x = .ok g) :
    g.head = .ok { h with source := x } := by
  rw [RexData.setSource, ← show RexData.mk f.content = f from rfl, content_of_head f h hh,
    head_mut_source] at hg
  cases hg
  exact head_encode _ _

theorem head_set_message_id (x : BitVec 64) (hg : f.setMessageId x = .ok g) :
    g.head = .ok { h with messageId := x } := by
  rw [RexData.setMessageId, ← show RexData.mk f.content = f from rfl, content_of_head f h hh,
    head_mut_message_id] at hg
  cases hg
  exact head_encode _ _

end Stores

/-- What a frame says, apart from its length. The title fits its length byte. -/
structure Fields where
  command : RexCommand
  source : BitVec 128
  retcode : RetCode
  messageId : BitVec 64
  title : Bytes
  data : Bytes
  titled : title.length ≤ 255

namespace Fields
variable (x : Fields)

def length : ℕ := 37+x.title.length+x.data.length

def head : RexHead :=
  ⟨BitVec.ofNat 32 x.length,x.command.asU32,x.retcode.asU32,x.messageId,x.source⟩

def encode : RexData :=
  ⟨RexData.encodeHead x.head++UInt8.ofNat x.title.length::(x.title++x.data)⟩

def new (command : RexCommand) (title data : Bytes) (h : title.length ≤ 255) : Fields :=
  ⟨command,0,.success,0,title,data,h⟩

theorem encode_new (command : RexCommand) (title data : Bytes) (h : title.length ≤ 255) :
    (new command title data h).encode = .new command title data := rfl

theorem encode_length : x.encode.content.length = x.length := by
  simp only [encode, length, List.length_append, List.length_cons, encode_head_length]
  omega

theorem title_byte : (UInt8.ofNat x.title.length).toNat = x.title.length := by
  have := x.titled
  rw [UInt8.toNat_ofNat', Nat.mod_eq_of_lt (by omega)]

theorem encode_byte : x.encode.content[36]? = some (UInt8.ofNat x.title.length) := by
  rw [encode, List.getElem?_append_right (by rw [encode_head_length]), encode_head_length]
  rfl

theorem encode_offset : x.encode.dataOffset = .ok (37+x.title.length) := by
  rw [data_offset_ok _ _ x.encode_byte, x.title_byte]

theorem encode_split : x.encode.content =
    (RexData.encodeHead x.head++UInt8.ofNat x.title.length::x.title)++x.data := by
  simp [encode]

theorem front_length :
    (RexData.encodeHead x.head++UInt8.ofNat x.title.length::x.title).length =
      37+x.title.length := by
  rw [List.length_append, encode_head_length, List.length_cons]
  omega

theorem title_encode : x.encode.title = .ok x.title := by
  have hlen : ¬ x.encode.content.length < titleOffset+x.title.length := by
    rw [encode_length, length, titleOffset, rexHeadLen, titleLenSize]
    omega
  have hslice : slice titleOffset x.title.length x.encode.content = x.title := by
    have hhead : (RexData.encodeHead x.head++[UInt8.ofNat x.title.length]).length =
        titleOffset := by
      rw [List.length_append, encode_head_length]
      rfl
    have hc : x.encode.content = (RexData.encodeHead x.head++[UInt8.ofNat x.title.length])++
        (x.title++x.data) := by simp [encode]
    rw [slice, hc, List.drop_left' hhead, List.take_left]
  rw [RexData.title, title_len_ok _ _ x.encode_byte, x.title_byte]
  change (if _ then _ else _) = _
  rw [if_neg hlen]
  exact congrArg Except.ok hslice

theorem data_encode : x.encode.data = .ok x.data := by
  rw [RexData.data, x.encode_offset]
  change (if _ then _ else _) = _
  rw [if_neg (by rw [encode_length, length]; omega)]
  show Except.ok (x.encode.content.drop (37+x.title.length)) = _
  rw [encode_split, List.drop_left' x.front_length]

end Fields

inductive Mutator where
  | setCommand (command : RexCommand)
  | setSource (source : BitVec 128)
  | setRetcode (retcode : RetCode)
  | setMessageId (messageId : BitVec 64)
  | setData (data : Bytes)
  | dataMut (w : Bytes)
  deriving DecidableEq, Repr

namespace Mutator

def apply : Mutator → RexData → Except Fault RexData
  | .setCommand c, f => f.setCommand c
  | .setSource s, f => f.setSource s
  | .setRetcode r, f => f.setRetcode r
  | .setMessageId m, f => f.setMessageId m
  | .setData d, f => f.setData d
  | .dataMut w, f => f.dataMut w

/-- The record update a mutator stands for. Stores through `data_mut` keep
the length of the data. -/
def update : Mutator → Fields → Fields
  | .setCommand c, x => { x with command := c }
  | .setSource s, x => { x with source := s }
  | .setRetcode r, x => { x with retcode := r }
  | .setMessageId m, x => { x with messageId := m }
  | .setData d, x => { x with data := d }
  | .dataMut w, x => { x with data := w.take x.data.length++x.data.drop w.length }

end Mutator

section Updates
variable (x : Fields)

theorem set_data_encode (data : Bytes) :
    x.encode.setData data = .ok (Fields.encode { x with data := data }) := by
  rw [RexData.setData, x.encode_offset]
  change RexData.headMut 32 0 _ ⟨_⟩ = _
  rw [x.encode_length, Fields.length, Nat.sub_eq_zero_of_le (by omega), List.replicate_zero,
    List.append_nil, x.encode_split, List.take_left' x.front_length, List.append_assoc,
    head_mut_total]
  simp only [Fields.encode, Fields.head, Fields.length, List.cons_append]

theorem data_mut_encode (w : Bytes) :
    x.encode.dataMut w =
      .ok (Fields.encode { x with data := w.take x.data.length++x.data.drop w.length }) := by
  rw [RexData.dataMut, x.encode_offset]
  change (if _ then _ else _) = _
  have hroom : x.encode.content.length-(37+x.title.length) = x.data.length := by
    rw [x.encode_length, Fields.length]
    omega
  rw [if_neg (by rw [x.encode_length, Fields.length]; omega), hroom]
  have hpatch : patch (37+x.title.length) (w.take x.data.length) x.encode.content =
      (RexData.encodeHead x.head++UInt8.ofNat x.title.length::x.title)++
        (w.take x.data.length++x.data.drop w.length) := by
    have hw : (x.data.take w.length).length = (w.take x.data.length).length := by
      rw [List.length_take, List.length_take, Nat.min_comm]
    have hp := patch_append (w.take x.data.length) (x.data.take w.length) _ (x.data.drop w.length)
      (37+x.title.length) x.front_length hw
    rwa [List.take_append_drop, ← x.encode_split] at hp
  have hlen : (w.take x.data.length++x.data.drop w.length).length = x.data.length := by
    rw [List.length_append, List.length_take, List.length_drop]
    omega
  show Except.ok (RexData.mk (patch _ _ _)) = _
  rw [hpatch]
  simp only [Fields.encode, Fields.head, Fields.length, hlen, List.append_assoc, List.cons_append]

theorem apply_encode (m : Mutator) : m.apply x.encode = .ok (m.update x).encode := by
  cases m with
  | setCommand c => exact head_mut_command x.head _ c.asU32
  | setSource s => exact head_mut_source x.head _ s
  | setRetcode r => exact head_mut_retcode x.head _ r.asU32
  | setMessageId m => exact head_mut_message_id x.head _ m
  | setData d => exact set_data_encode x d
  | dataMut w => exact data_mut_encode x w

theorem update_title (m : Mutator) : (m.update x).title = x.title := by
  cases m <;> rfl

end Updates

/-- The record a sequence of mutators leaves. -/
def updates (ms : List Mutator) (x : Fields) : Fields := ms.foldl (fun x m => m.update x) x

theorem mutated_encode (ms : List Mutator) (x : Fields) :
    ms.foldlM (fun f m => m.apply f) x.encode = .ok (updates ms x).encode := by
  induction ms generalizing x with
  | nil => rfl
  | cons m ms ih =>
    rw [List.foldlM_cons, apply_encode]
    exact ih _

theorem updates_title (ms : List Mutator) (x : Fields) : (updates ms x).title = x.title := by
  induction ms generalizing x with
  | nil => rfl
  | cons m ms ih => exact (ih _).trans (update_title x m)

theorem encode_framed (x : Fields) : Framed x.encode where
  length := by rw [x.encode_length, Fields.length]; omega
  counted := by rw [x.encode_length]; exact encode_head_total _ _
  titled := ⟨_,x.encode_byte,by rw [x.encode_length, x.title_byte, Fields.length]; omega⟩

theorem deserialize_encode (x : Fields) (suffix : Bytes) (h : x.length < 2^32) :
    RexData.tryDeserialize (x.encode.content++suffix) = (.ok (some x.encode),suffix) := by
  have hc := framed_counted x.encode (encode_framed x) (by rwa [x.encode_length])
  have hd : declaredLen (x.encode.content++suffix) = x.encode.content.length := by
    rw [declared_len_append _ _ hc.1, hc.2]
  apply (try_deserialize_some _ _ _).mpr
  rw [hd, List.take_left, List.drop_left]
  exact ⟨by rw [List.length_append]; have := hc.1; omega,by simp,rfl,rfl⟩

theorem head_fields (x : Fields) :
    x.encode.command = .ok x.command ∧ x.encode.source = .ok x.source ∧
      x.encode.retcode = .ok x.retcode ∧ x.encode.messageId = .ok x.messageId := by
  have hh : x.encode.head = .ok x.head := head_encode x.head _
  refine ⟨?_,source_of_head _ _ hh,?_,message_id_of_head _ _ hh⟩
  · rw [command_of_head _ _ hh]
    exact congrArg Except.ok (from_as_u32 x.command)
  · rw [retcode_of_head _ _ hh]
    exact congrArg Except.ok (ret_code_from_as x.retcode)

/-- No sequence of mutators faults; the frame it leaves holds what was set
last, and the length word and the parser agree with it as long as its length
fits the word. Each part of a sequence is itself one. -/
theorem mutated_frame_read (command : RexCommand) (title data : Bytes)
    (h : title.length ≤ 255) (ms : List Mutator) :
    ∃ f, ms.foldlM (fun f m => m.apply f) (RexData.new command title data) = .ok f ∧
      f.command = .ok (updates ms (.new command title data h)).command ∧
      f.source = .ok (updates ms (.new command title data h)).source ∧
      f.retcode = .ok (updates ms (.new command title data h)).retcode ∧
      f.messageId = .ok (updates ms (.new command title data h)).messageId ∧
      f.title = .ok title ∧
      f.data = .ok (updates ms (.new command title data h)).data ∧
      (f.content.length < 2^32 →
        (∃ head, f.head = .ok head ∧ head.totalLen.toNat = f.content.length) ∧
        ∀ suffix, RexData.tryDeserialize (f.content++suffix) = (.ok (some f),suffix)) := by
  have htitle := updates_title ms (.new command title data h)
  have hrun := mutated_encode ms (.new command title data h)
  rw [Fields.encode_new] at hrun
  generalize updates ms (.new command title data h) = x at htitle hrun ⊢
  obtain ⟨hc, hs, hr, hm⟩ := head_fields x
  refine ⟨x.encode,hrun,hc,hs,hr,hm,?_,x.data_encode,fun hl => ?_⟩
  · rw [x.title_encode, htitle]
    rfl
  · rw [x.encode_length] at hl ⊢
    refine ⟨⟨x.head,head_encode x.head _,?_⟩,fun suffix => deserialize_encode x suffix hl⟩
    exact (BitVec.toNat_ofNat ..).trans (Nat.mod_eq_of_lt hl)

theorem mutated_frame_read_grown :
    ∃ f, List.foldlM (fun f (m : Mutator) => m.apply f) (RexData.new .title [97] [1,2])
      [.setData [7,8,9],.dataMut [5],.setRetcode .noTarget] = .ok f ∧
      f.data = .ok [5,8,9] ∧ f.retcode = .ok .noTarget ∧
      RexData.tryDeserialize (f.content++[0]) = (.ok (some f),[0]) := by
  obtain ⟨f, hf, -, -, hr, -, -, hd, hp⟩ := mutated_frame_read .title [97] [1,2] (by decide)
    [.setData [7,8,9],.dataMut [5],.setRetcode .noTarget]
  have hlen : f.content.length < 2^32 := by
    cases hf
    decide
  exact ⟨f,hf,hd,hr,(hp hlen).2 [0]⟩

end RexMq.FrameFields
