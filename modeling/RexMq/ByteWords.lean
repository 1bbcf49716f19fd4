import Mathlib.Data.List.Basic
import Mathlib.Algebra.Order.Ring.Nat
import Mathlib.Tactic.Ring

/-!
# Little-endian words in byte strings

Words of a fixed width are read from and written into byte strings. Writing
replaces the bytes of one window; a window read later sees the new word when
it is the same window and the old bytes when the two windows are disjoint.
Nothing here depends on a particular record layout.
-/

set_option autoImplicit false

namespace RexMq.ByteWords

abbrev Bytes := List UInt8

def toLe : ℕ → ℕ → Bytes
  | 0, _ => []
  | k+1, n => UInt8.ofNat n::toLe k (n/256)

def ofLe : Bytes → ℕ
  | [] => 0
  | b::bs => b.toNat+256*ofLe bs

@[simp] theorem to_le_length (k n : ℕ) : (toLe k n).length = k := by
  induction k generalizing n with
  | zero => rfl
  | succ k ih => simp [toLe, ih]

theorem of_le_to_le (k n : ℕ) : ofLe (toLe k n) = n%256^k := by
  induction k generalizing n with
  | zero => simp [toLe, ofLe, Nat.mod_one]
  | succ k ih =>
    rw [toLe, ofLe, ih, pow_succ', Nat.mod_mul]
    simp

theorem of_le_lt (bs : Bytes) : ofLe bs < 256^bs.length := by
  induction bs with
  | nil => simp [ofLe]
  | cons b bs ih =>
    have hb := b.toNat_lt
    simp only [ofLe, List.length_cons, pow_succ']
    omega

theorem to_le_of_le (bs : Bytes) : toLe bs.length (ofLe bs) = bs := by
  induction bs with
  | nil => rfl
  | cons b bs ih =>
    have hb : UInt8.ofNat (b.toNat+256*ofLe bs) = b := by
      apply UInt8.toNat_inj.mp
      rw [UInt8.toNat_ofNat', Nat.add_mul_mod_self_left, Nat.mod_eq_of_lt b.toNat_lt]
    have hdiv : (b.toNat+256*ofLe bs)/256 = ofLe bs := by
      have := b.toNat_lt
      omega
    rw [List.length_cons, toLe, ofLe, hb, hdiv, ih]

def slice (off len : ℕ) (bs : Bytes) : Bytes := (bs.drop off).take len

/-- Overwrite the bytes of `bs` from position `off` on with the word `w`. -/
def patch (off : ℕ) (w bs : Bytes) : Bytes := bs.take off++w++bs.drop (off+w.length)

theorem slice_length (off len : ℕ) (bs : Bytes) (h : off+len ≤ bs.length) :
    (slice off len bs).length = len := by
  simp only [slice, List.length_take, List.length_drop]
  omega

theorem slice_append (off len : ℕ) (bs rest : Bytes) (h : off+len ≤ bs.length) :
    slice off len (bs++rest) = slice off len bs := by
  rw [slice, slice, List.drop_append_of_le_length (by omega), List.take_append_of_le_length]
  simp only [List.length_drop]
  omega

theorem slice_append_drop (off len : ℕ) (bs : Bytes) :
    slice off len bs++bs.drop (off+len) = bs.drop off := by
  rw [slice, ← List.drop_drop, List.take_append_drop]

theorem patch_length (off : ℕ) (w bs : Bytes) (h : off+w.length ≤ bs.length) :
    (patch off w bs).length = bs.length := by
  simp only [patch, List.length_append, List.length_take, List.length_drop]
  omega

theorem slice_patch_before (off off' len : ℕ) (w bs : Bytes)
    (h : off'+len ≤ off) (hb : off ≤ bs.length) :
    slice off' len (patch off w bs) = slice off' len bs := by
  have ht : (bs.take off).length = off := by simp only [List.length_take]; omega
  rw [patch, List.append_assoc, slice_append _ _ _ _ (by omega)]
  conv_rhs => rw [← List.take_append_drop off bs, slice_append _ _ _ _ (by omega)]

theorem slice_patch_after (off off' len : ℕ) (w bs : Bytes)
    (h : off+w.length ≤ off') (hb : off+w.length ≤ bs.length) :
    slice off' len (patch off w bs) = slice off' len bs := by
  have ht : (bs.take off++w).length = off+w.length := by
    simp only [List.length_append, List.length_take]
    omega
  rw [slice, slice, patch, List.drop_append, List.drop_eq_nil_of_le (by omega), List.nil_append,
    List.drop_drop, ht, Nat.add_sub_of_le h]

theorem getElem?_patch_before (off i : ℕ) (w bs : Bytes) (h : i < off) (hb : off ≤ bs.length) :
    (patch off w bs)[i]? = bs[i]? := by
  have ht : (bs.take off).length = off := by simp only [List.length_take]; omega
  rw [patch, List.append_assoc, List.getElem?_append_left (by omega), List.getElem?_take_of_lt h]

theorem getElem?_patch_after (off i : ℕ) (w bs : Bytes) (h : off+w.length ≤ i)
    (hb : off+w.length ≤ bs.length) : (patch off w bs)[i]? = bs[i]? := by
  have ht : (bs.take off++w).length = off+w.length := by
    simp only [List.length_append, List.length_take]
    omega
  rw [patch, List.getElem?_append_right (by omega), List.getElem?_drop, ht]
  congr 1
  omega

theorem drop_patch (off n : ℕ) (w bs : Bytes) (h : off+w.length ≤ n)
    (hb : off+w.length ≤ bs.length) : (patch off w bs).drop n = bs.drop n := by
  have hlen : (bs.take off++w).length = off+w.length := by
    rw [List.length_append, List.length_take]
    omega
  rw [patch, List.drop_append, List.drop_eq_nil_of_le (by omega), hlen, List.nil_append,
    List.drop_drop]
  congr 1
  omega

def readWord (w off : ℕ) (bs : Bytes) : BitVec w := BitVec.ofNat w (ofLe (slice off (w/8) bs))

theorem to_le_read_word (k off : ℕ) (bs : Bytes) (h : off+k ≤ bs.length) :
    toLe k (readWord (8*k) off bs).toNat = slice off k bs := by
  have hk : 8*k/8 = k := by omega
  have hlt := of_le_lt (slice off k bs)
  have hback := to_le_of_le (slice off k bs)
  rw [slice_length off k bs h] at hlt hback
  rw [show (256 : ℕ) = 2^8 from rfl, ← Nat.pow_mul] at hlt
  rw [readWord, hk, BitVec.toNat_ofNat, Nat.mod_eq_of_lt hlt, hback]

def writeWord (w off : ℕ) (x : BitVec w) (bs : Bytes) : Bytes := patch off (toLe (w/8) x.toNat) bs

theorem write_word_length (w off : ℕ) (x : BitVec w) (bs : Bytes) (h : off+w/8 ≤ bs.length) :
    (writeWord w off x bs).length = bs.length :=
  patch_length _ _ _ (by simpa using h)

theorem read_word_append (k off : ℕ) (x : BitVec (8*k)) (a b : Bytes) (h : a.length = off) :
    readWord (8*k) off (a++(toLe k x.toNat++b)) = x := by
  have hk : 8*k/8 = k := by omega
  have hx : x.toNat%256^k = x.toNat := by
    apply Nat.mod_eq_of_lt
    have := x.isLt
    rwa [show 256 = 2^8 by rfl, ← pow_mul]
  have hs : slice off k (a++(toLe k x.toNat++b)) = toLe k x.toNat := by
    rw [slice, ← h, List.drop_left, List.take_append_of_le_length (by simp),
      List.take_of_length_le (by simp)]
  rw [readWord, hk, hs, of_le_to_le, hx, BitVec.ofNat_toNat, BitVec.setWidth_eq]

theorem patch_append (w old a b : Bytes) (off : ℕ) (ha : a.length = off)
    (hw : old.length = w.length) : patch off w (a++(old++b)) = a++(w++b) := by
  subst ha
  rw [patch, List.take_left, ← List.drop_drop, List.drop_left, ← hw, List.drop_left,
    List.append_assoc]

theorem patch_nil (off : ℕ) (bs : Bytes) : patch off [] bs = bs := by
  rw [patch, List.append_nil, List.length_nil, Nat.add_zero, List.take_append_drop]

/-- Stores of the pieces one behind the other, from position `off` on. -/
def fill : ℕ → List Bytes → Bytes → Bytes
  | _, [], bs => bs
  | off, w::ws, bs => fill (off+w.length) ws (patch off w bs)

theorem fill_append (ws : List Bytes) (a old : Bytes) (off : ℕ) (ha : a.length = off)
    (hold : old.length = ws.flatten.length) : fill off ws (a++old) = a++ws.flatten := by
  induction ws generalizing a old off with
  | nil =>
    rw [List.eq_nil_of_length_eq_zero hold]
    rfl
  | cons w ws ih =>
    rw [List.flatten_cons, List.length_append] at hold
    have hw : (old.take w.length).length = w.length := by
      rw [List.length_take]
      omega
    have hrest : (old.drop w.length).length = ws.flatten.length := by
      rw [List.length_drop]
      omega
    rw [fill, ← List.take_append_drop w.length old, patch_append w _ a _ off ha hw,
      ← List.append_assoc, ih (a++w) _ (off+w.length) (by rw [List.length_append, ha]) hrest,
      List.append_assoc, List.flatten_cons]

theorem write_word_append (k off y : ℕ) (x : BitVec (8*k)) (a b : Bytes) (h : a.length = off) :
    writeWord (8*k) off x (a++(toLe k y++b)) = a++(toLe k x.toNat++b) := by
  have hk : 8*k/8 = k := by omega
  rw [writeWord, hk]
  exact patch_append _ _ a b off h (by rw [to_le_length, to_le_length])

theorem read_write_same (k off : ℕ) (x : BitVec (8*k)) (bs : Bytes) (h : off+k ≤ bs.length) :
    readWord (8*k) off (writeWord (8*k) off x bs) = x := by
  have hk : 8*k/8 = k := by omega
  rw [writeWord, patch, hk, List.append_assoc]
  exact read_word_append k off x _ _ (by rw [List.length_take]; omega)

theorem read_write_before (w off w' off' : ℕ) (x : BitVec w') (bs : Bytes)
    (h : off+w/8 ≤ off') (hb : off' ≤ bs.length) :
    readWord w off (writeWord w' off' x bs) = readWord w off bs := by
  rw [readWord, writeWord, slice_patch_before _ _ _ _ _ h hb, readWord]

theorem or_shift (x y k : ℕ) (h : x < 2^k) : x ||| y <<< k = y <<< k+x := by
  rw [Nat.or_comm, Nat.shiftLeft_add_eq_or_of_lt h]

theorem or_shift_bytes (a b c d : UInt8) :
    a.toNat ||| b.toNat <<< 8 ||| c.toNat <<< 16 ||| d.toNat <<< 24 = ofLe [a,b,c,d] := by
  have ha := a.toNat_lt
  have hb := b.toNat_lt
  have hc := c.toNat_lt
  rw [or_shift _ _ 8 ha, or_shift _ _ 16 (by rw [Nat.shiftLeft_eq]; omega),
    or_shift _ _ 24 (by rw [Nat.shiftLeft_eq, Nat.shiftLeft_eq]; omega)]
  simp only [Nat.shiftLeft_eq, ofLe]
  omega

end RexMq.ByteWords
