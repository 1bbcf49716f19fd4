import Mathlib.Tactic.Common
import RexMq.ByteWords

/-!
# Frames of the client protocol

A frame is a byte buffer: a packed header of 36 bytes, one byte for the
length of the title, the title and the data. Header access reinterprets the
first 36 bytes without a check, and slices are checked by the language; both
are modelled as accesses that fault when they leave the buffer. Debug
assertions are compiled out, as in a release build. Strings are their UTF-8
bytes and the target is little-endian.
-/

set_option autoImplicit false

namespace RexMq.FrameData
open RexMq.ByteWords

inductive RexCommand where
  | title | titleReturn | group | groupReturn | cast | castReturn
  | login | loginReturn | check | checkReturn
  | regTitle | regTitleReturn | delTitle | delTitleReturn
  | ack | ackReturn
  deriving DecidableEq, Repr

def RexCommand.asU32 : RexCommand → BitVec 32
  | .title => 9901
  | .titleReturn => 9902
  | .group => 9903
  | .groupReturn => 9904
  | .cast => 9905
  | .castReturn => 9906
  | .login => 9907
  | .loginReturn => 9908
  | .check => 9909
  | .checkReturn => 9910
  | .regTitle => 9911
  | .regTitleReturn => 9912
  | .delTitle => 9913
  | .delTitleReturn => 9914
  | .ack => 9915
  | .ackReturn => 9916

/-- Every word outside the table is read as a login. -/
def RexCommand.fromU32 (value : BitVec 32) : RexCommand :=
  match value.toNat with
  | 9901 => .title
  | 9902 => .titleReturn
  | 9903 => .group
  | 9904 => .groupReturn
  | 9905 => .cast
  | 9906 => .castReturn
  | 9907 => .login
  | 9908 => .loginReturn
  | 9909 => .check
  | 9910 => .checkReturn
  | 9911 => .regTitle
  | 9912 => .regTitleReturn
  | 9913 => .delTitle
  | 9914 => .delTitleReturn
  | 9915 => .ack
  | 9916 => .ackReturn
  | _ => .login

theorem from_as_u32 (c : RexCommand) : RexCommand.fromU32 c.asU32 = c := by
  cases c <;> rfl

theorem from_u32_ack (value : BitVec 32) :
    RexCommand.fromU32 value = .ack ↔ value.toNat = 9915 := by
  constructor
  · intro h
    unfold RexCommand.fromU32 at h
    split at h <;> simp_all
  · intro h
    simp [RexCommand.fromU32, h]

inductive RetCode where
  | success | error | noTarget | ackTimeout | ackFailed
  deriving DecidableEq, Repr

def RetCode.asU32 : RetCode → BitVec 32
  | .success => 0
  | .error => 1
  | .noTarget => 8802
  | .ackTimeout => 8803
  | .ackFailed => 8804

def RetCode.fromU32 (value : BitVec 32) : RetCode :=
  match value.toNat with
  | 0 => .success
  | 1 => .error
  | 8802 => .noTarget
  | 8803 => .ackTimeout
  | 8804 => .ackFailed
  | _ => .error

theorem ret_code_from_as (r : RetCode) : RetCode.fromU32 r.asU32 = r := by
  cases r <;> rfl

structure RexHead where
  totalLen : BitVec 32
  command : BitVec 32
  retcode : BitVec 32
  messageId : BitVec 64
  source : BitVec 128
  deriving DecidableEq, Repr

structure RexData where
  content : Bytes
  deriving DecidableEq, Repr

def rexHeadLen : ℕ := 36
def titleLenSize : ℕ := 1
def titleLenOffset : ℕ := rexHeadLen
def titleOffset : ℕ := rexHeadLen+titleLenSize

/-- An access to bytes `offset..offset+length` that leaves the buffer. -/
inductive Fault where
  | outOfBounds (offset length : ℕ)
  deriving DecidableEq, Repr

namespace RexData

def head (f : RexData) : Except Fault RexHead :=
  if f.content.length < rexHeadLen then .error (.outOfBounds 0 rexHeadLen)
  else .ok
    { totalLen := readWord 32 0 f.content
      command := readWord 32 4 f.content
      retcode := readWord 32 8 f.content
      messageId := readWord 64 12 f.content
      source := readWord 128 20 f.content }

/-- `head_mut` followed by a store into the field of width `w` at `off`. -/
def headMut (w off : ℕ) (x : BitVec w) (f : RexData) : Except Fault RexData :=
  if f.content.length < rexHeadLen then .error (.outOfBounds 0 rexHeadLen)
  else .ok ⟨writeWord w off x f.content⟩

def unpack (buf : Bytes) : RexData := ⟨buf⟩

/-- The result and what is left in the buffer. The total length is taken
from the first four bytes and nothing else is compared with it. -/
def tryDeserialize (buf : Bytes) : Except String (Option RexData) × Bytes :=
  match buf with
  | b0::b1::b2::b3::_ =>
    let totalLen := b0.toNat ||| b1.toNat <<< 8 ||| b2.toNat <<< 16 ||| b3.toNat <<< 24
    if buf.length < totalLen then (.ok none,buf)
    else (.ok (some (unpack (buf.take totalLen))),buf.drop totalLen)
  | _ => (.ok none,buf)

def encodeHead (h : RexHead) : Bytes :=
  toLe 4 h.totalLen.toNat++toLe 4 h.command.toNat++toLe 4 h.retcode.toNat++
    toLe 8 h.messageId.toNat++toLe 16 h.source.toNat

def new (command : RexCommand) (title data : Bytes) : RexData :=
  let totalLen := rexHeadLen+titleLenSize+title.length+data.length
  ⟨encodeHead
    { totalLen := BitVec.ofNat 32 totalLen
      command := command.asU32
      retcode := RetCode.success.asU32
      messageId := 0
      source := 0 }++UInt8.ofNat title.length::(title++data)⟩

def command (f : RexData) : Except Fault RexCommand := do
  let h ← f.head
  return RexCommand.fromU32 h.command

def source (f : RexData) : Except Fault (BitVec 128) := do
  let h ← f.head
  return h.source

def retcode (f : RexData) : Except Fault RetCode := do
  let h ← f.head
  return RetCode.fromU32 h.retcode

def messageId (f : RexData) : Except Fault (BitVec 64) := do
  let h ← f.head
  return h.messageId

def setMessageId (messageId : BitVec 64) (f : RexData) : Except Fault RexData :=
  headMut 64 12 messageId f

def setCommand (command : RexCommand) (f : RexData) : Except Fault RexData :=
  headMut 32 4 command.asU32 f

def setSource (source : BitVec 128) (f : RexData) : Except Fault RexData :=
  headMut 128 20 source f

def setRetcode (retcode : RetCode) (f : RexData) : Except Fault RexData :=
  headMut 32 8 retcode.asU32 f

def titleLen (f : RexData) : Except Fault ℕ :=
  match f.content[titleLenOffset]? with
  | some b => .ok b.toNat
  | none => .error (.outOfBounds titleLenOffset 1)

def title (f : RexData) : Except Fault Bytes := do
  let len ← f.titleLen
  if f.content.length < titleOffset+len then throw (.outOfBounds titleOffset len)
  return slice titleOffset len f.content

def dataOffset (f : RexData) : Except Fault ℕ := do
  let len ← f.titleLen
  return titleOffset+len

def data (f : RexData) : Except Fault Bytes := do
  let offset ← f.dataOffset
  if f.content.length < offset then throw (.outOfBounds offset 0)
  return f.content.drop offset

/-- Stores through the slice `data_mut` returns: the bytes of `w` replace
those of the data, as far as the data reaches. -/
def dataMut (w : Bytes) (f : RexData) : Except Fault RexData := do
  let offset ← f.dataOffset
  if f.content.length < offset then throw (.outOfBounds offset 0)
  return ⟨patch offset (w.take (f.content.length-offset)) f.content⟩

/-- `resize` fills with zeros up to the data when a title length byte points
past the end of the buffer. -/
def setData (data : Bytes) (f : RexData) : Except Fault RexData := do
  let offset ← f.dataOffset
  let content := f.content.take offset++List.replicate (offset-f.content.length) 0++data
  headMut 32 0 (BitVec.ofNat 32 (offset+data.length)) ⟨content⟩

end RexData

theorem title_len_ok (f : RexData) (b : UInt8) (h : f.content[36]? = some b) :
    f.titleLen = .ok b.toNat := by
  simp [RexData.titleLen, titleLenOffset, rexHeadLen, h]

theorem data_offset_ok (f : RexData) (b : UInt8) (h : f.content[36]? = some b) :
    f.dataOffset = .ok (37+b.toNat) := by
  rw [RexData.dataOffset, title_len_ok f b h]
  rfl

structure AckData where
  messageId : BitVec 64
  deriving DecidableEq, Repr

namespace AckData

def toRexData (a : AckData) (source : BitVec 128) (command : RexCommand) : RexData :=
  let totalLen := rexHeadLen+titleLenSize+8
  ⟨RexData.encodeHead
    { totalLen := BitVec.ofNat 32 totalLen
      command := command.asU32
      retcode := RetCode.success.asU32
      messageId := 0
      source := source }++0::toLe 8 a.messageId.toNat⟩

def fromRexData (f : RexData) : Except Fault AckData :=
  if f.content.length < rexHeadLen+titleLenSize+8 then
    .error (.outOfBounds (rexHeadLen+titleLenSize) 8)
  else .ok ⟨readWord 64 (rexHeadLen+titleLenSize) f.content⟩

end AckData

end RexMq.FrameData
