import Mathlib.Tactic.Common
import RexMq.ByteWords

/-!
# Coders for binary formats

A coder writes a value and reads one off the front of a byte string. Values
that the format cannot hold, such as a list whose length does not fit its
length word, are written all the same and may be read differently; the round
trip is promised for the values that fit. Records, options and lists are put
together from coders of their parts.
-/

set_option autoImplicit false

namespace RexMq.ByteCodec
open RexMq.ByteWords

structure Coder (α : Type) where
  put : α → Bytes
  get : Bytes → Option (α × Bytes)
  fits : α → Prop
  get_put : ∀ a, fits a → ∀ rest, get (put a++rest) = some (a,rest)

namespace Coder

variable {α β : Type}

def fixed (k : ℕ) : Coder Bytes where
  put b := b
  get b := if b.length < k then none else some (b.take k,b.drop k)
  fits b := b.length = k
  get_put b h rest := by
    rw [if_neg (by rw [List.length_append]; omega), ← h, List.take_left, List.drop_left]

/-- A coder for `β` from one for `α`, where reading may reject a value. -/
def imap (c : Coder α) (build : α → Option β) (parts : β → α) (fits : β → Prop)
    (h : ∀ b, fits b → c.fits (parts b) ∧ build (parts b) = some b) : Coder β where
  put b := c.put (parts b)
  get bs := (c.get bs).bind (fun r => (build r.1).map (fun b => (b,r.2)))
  fits := fits
  get_put b hb rest := by
    obtain ⟨hf, ht⟩ := h b hb
    rw [c.get_put (parts b) hf rest]
    simp [ht]

def pair (c : Coder α) (d : Coder β) : Coder (α × β) where
  put x := c.put x.1++d.put x.2
  get bs := (c.get bs).bind (fun r => (d.get r.2).map (fun q => ((r.1,q.1),q.2)))
  fits x := c.fits x.1 ∧ d.fits x.2
  get_put x h rest := by
    rw [List.append_assoc, c.get_put x.1 h.1]
    simp [d.get_put x.2 h.2]

def word (k : ℕ) : Coder (BitVec (8*k)) :=
  (fixed k).imap (fun b => some (BitVec.ofNat (8*k) (ofLe b))) (fun x => toLe k x.toNat)
    (fun _ => True) (fun x _ => by
      refine ⟨to_le_length k x.toNat,?_⟩
      have hx : x.toNat%256^k = x.toNat := by
        apply Nat.mod_eq_of_lt
        have := x.isLt
        rwa [show 256 = 2^8 by rfl, ← pow_mul]
      rw [of_le_to_le, hx, BitVec.ofNat_toNat, BitVec.setWidth_eq])

def bool : Coder Bool :=
  (fixed 1).imap (fun b => if b = [0] then some false else if b = [1] then some true else none)
    (fun x => if x then [1] else [0]) (fun _ => True) (fun x _ => by cases x <;> exact ⟨rfl,rfl⟩)

def counted : Coder Bytes where
  put b := (word 8).put (BitVec.ofNat 64 b.length)++b
  get bs := ((word 8).get bs).bind (fun r => (fixed r.1.toNat).get r.2)
  fits b := b.length < 2^64
  get_put b h rest := by
    have hn : (BitVec.ofNat 64 b.length).toNat = b.length := by
      rw [BitVec.toNat_ofNat, Nat.mod_eq_of_lt h]
    rw [List.append_assoc, (word 8).get_put _ trivial]
    simp only [Option.bind_some]
    exact (fixed _).get_put b hn.symm rest

def utf8 : Coder Bytes :=
  counted.imap (fun b => if ByteArray.IsValidUTF8 ⟨b.toArray⟩ then some b else none) (fun b => b)
    (fun b => counted.fits b ∧ ByteArray.IsValidUTF8 ⟨b.toArray⟩)
    (fun _ h => ⟨h.1,if_pos h.2⟩)

def string : Coder String :=
  counted.imap
    (fun b => if h : ByteArray.IsValidUTF8 ⟨b.toArray⟩ then some ⟨⟨b.toArray⟩,h⟩ else none)
    (fun s => s.toByteArray.data.toList) (fun s => counted.fits s.toByteArray.data.toList)
    (fun s h => ⟨h,by simp [s.isValidUTF8]⟩)

def option (c : Coder α) : Coder (Option α) where
  put x := match x with
    | none => bool.put false
    | some a => bool.put true++c.put a
  get bs := (bool.get bs).bind (fun r =>
    if r.1 then (c.get r.2).map (fun q => (some q.1,q.2)) else some (none,r.2))
  fits x := ∀ a ∈ x, c.fits a
  get_put x h rest := by
    cases x with
    | none =>
      dsimp only
      rw [bool.get_put false trivial]
      rfl
    | some a =>
      dsimp only
      rw [List.append_assoc, bool.get_put true trivial]
      simp [c.get_put a (h a rfl)]

def getMany (c : Coder α) : ℕ → Bytes → Option (List α × Bytes)
  | 0, bs => some ([],bs)
  | n+1, bs => (c.get bs).bind (fun r => (getMany c n r.2).map (fun q => (r.1::q.1,q.2)))

theorem get_many_put (c : Coder α) (as : List α) (h : ∀ a ∈ as, c.fits a) (rest : Bytes) :
    c.getMany as.length ((as.map c.put).flatten++rest) = some (as,rest) := by
  induction as with
  | nil => rfl
  | cons a as ih =>
    obtain ⟨ha, has⟩ := List.forall_mem_cons.mp h
    rw [List.map_cons, List.flatten_cons, List.append_assoc, List.length_cons, getMany,
      c.get_put a ha]
    simp [ih has]

/-- A word of 8 bytes for the number of elements, then the elements. -/
def list (c : Coder α) : Coder (List α) where
  put as := (word 8).put (BitVec.ofNat 64 as.length)++(as.map c.put).flatten
  get bs := ((word 8).get bs).bind (fun r => c.getMany r.1.toNat r.2)
  fits as := as.length < 2^64 ∧ ∀ a ∈ as, c.fits a
  get_put as h rest := by
    have hn : (BitVec.ofNat 64 as.length).toNat = as.length := by
      rw [BitVec.toNat_ofNat, Nat.mod_eq_of_lt h.1]
    rw [List.append_assoc, (word 8).get_put _ trivial]
    simp only [Option.bind_some]
    exact hn.symm ▸ c.get_many_put as h.2 rest

/-- Reading from the front and ignoring what follows. -/
def decode (c : Coder α) (bs : Bytes) : Option α := (c.get bs).map Prod.fst

theorem decode_put (c : Coder α) (a : α) (h : c.fits a) : c.decode (c.put a) = some a := by
  have hg := c.get_put a h []
  rw [List.append_nil] at hg
  rw [decode, hg]
  rfl

end Coder

end RexMq.ByteCodec
