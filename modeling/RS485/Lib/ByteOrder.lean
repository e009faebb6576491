import Mathlib.Algebra.Order.Ring.Nat
import Mathlib.Tactic.Ring

/-!
# Byte order

The bytes of a bit vector, least significant first, and back.  `toBytesLE` and `ofBytesLE`
are inverse to each other on byte strings of the right length, and `getElem?_toBytesLE` says
which bits the `i`-th byte holds.  `toBytes` and `ofBytes` take the byte order as an argument;
a function that reverses the bytes of every vector turns one order into the other
(`toBytes_swap`) and is an involution (`swap_swap`).
-/

namespace ByteOrder

/-- The `n` low bytes of a number, least significant first. -/
def bytesOfNat : ℕ → ℕ → List (BitVec 8)
  | 0, _ => []
  | n + 1, v => BitVec.ofNat 8 v :: bytesOfNat n (v / 256)

/-- The number with the given bytes, least significant first. -/
def natOfBytes : List (BitVec 8) → ℕ
  | [] => 0
  | b :: bs => b.toNat + 256 * natOfBytes bs

/-- The bytes of a bit vector, least significant first. -/
def toBytesLE {n : ℕ} (v : BitVec (8 * n)) : List (BitVec 8) := bytesOfNat n v.toNat

/-- The bit vector with the given bytes, least significant first. -/
def ofBytesLE (n : ℕ) (bs : List (BitVec 8)) : BitVec (8 * n) :=
  BitVec.ofNat (8 * n) (natOfBytes bs)

theorem length_bytesOfNat (n v : ℕ) : (bytesOfNat n v).length = n := by
  induction n generalizing v with
  | zero => rfl
  | succ n ih => simp [bytesOfNat, ih]

@[simp] theorem length_toBytesLE {n : ℕ} (v : BitVec (8 * n)) : (toBytesLE v).length = n :=
  length_bytesOfNat n v.toNat

theorem natOfBytes_bytesOfNat (n v : ℕ) : natOfBytes (bytesOfNat n v) = v % 256 ^ n := by
  induction n generalizing v with
  | zero => simp [bytesOfNat, natOfBytes, Nat.mod_one]
  | succ n ih =>
      have hsplit : v % 256 ^ (n + 1) = v % 256 + 256 * (v / 256 % 256 ^ n) := by
        rw [pow_succ', Nat.mod_mul]
      simp [bytesOfNat, natOfBytes, ih, hsplit]

theorem natOfBytes_lt (bs : List (BitVec 8)) : natOfBytes bs < 256 ^ bs.length := by
  induction bs with
  | nil => simp [natOfBytes]
  | cons b bs ih =>
      have hb : b.toNat < 256 := b.isLt
      rw [natOfBytes, List.length_cons, pow_succ']
      omega

theorem bytesOfNat_natOfBytes (bs : List (BitVec 8)) :
    bytesOfNat bs.length (natOfBytes bs) = bs := by
  induction bs with
  | nil => rfl
  | cons b bs ih =>
      have hb : b.toNat < 256 := b.isLt
      have hdiv : (b.toNat + 256 * natOfBytes bs) / 256 = natOfBytes bs := by omega
      have hhead : BitVec.ofNat 8 (b.toNat + 256 * natOfBytes bs) = b := by
        apply BitVec.eq_of_toNat_eq
        rw [BitVec.toNat_ofNat]
        omega
      rw [natOfBytes, List.length_cons, bytesOfNat, hdiv, ih, hhead]

theorem two_pow_eight_mul (n : ℕ) : 2 ^ (8 * n) = 256 ^ n :=
  pow_mul 2 8 n

@[simp] theorem ofBytesLE_toBytesLE {n : ℕ} (v : BitVec (8 * n)) :
    ofBytesLE n (toBytesLE v) = v := by
  have hv : v.toNat < 256 ^ n := two_pow_eight_mul n ▸ v.isLt
  apply BitVec.eq_of_toNat_eq
  rw [ofBytesLE, toBytesLE, natOfBytes_bytesOfNat, BitVec.toNat_ofNat, Nat.mod_eq_of_lt hv,
    Nat.mod_eq_of_lt v.isLt]

theorem toBytesLE_ofBytesLE {n : ℕ} {bs : List (BitVec 8)} (h : bs.length = n) :
    toBytesLE (ofBytesLE n bs) = bs := by
  subst h
  have hlt : natOfBytes bs < 2 ^ (8 * bs.length) := two_pow_eight_mul _ ▸ natOfBytes_lt bs
  rw [toBytesLE, ofBytesLE, BitVec.toNat_ofNat, Nat.mod_eq_of_lt hlt, bytesOfNat_natOfBytes]

theorem toBytesLE_injective {n : ℕ} {v w : BitVec (8 * n)} (h : toBytesLE v = toBytesLE w) :
    v = w := by
  rw [← ofBytesLE_toBytesLE v, h, ofBytesLE_toBytesLE]

theorem getElem?_bytesOfNat {n i : ℕ} (v : ℕ) (h : i < n) :
    (bytesOfNat n v)[i]? = some (BitVec.ofNat 8 (v / 256 ^ i)) := by
  induction n generalizing v i with
  | zero => omega
  | succ n ih =>
      cases i with
      | zero => simp [bytesOfNat]
      | succ i =>
          rw [bytesOfNat, List.getElem?_cons_succ, ih _ (by omega), Nat.div_div_eq_div_mul,
            pow_succ']

/-- Byte `i` of the image is the `i`-th least significant byte of the value. -/
theorem getElem?_toBytesLE {n i : ℕ} (v : BitVec (8 * n)) (h : i < n) :
    (toBytesLE v)[i]? = some (BitVec.ofNat 8 (v.toNat / 256 ^ i)) :=
  getElem?_bytesOfNat v.toNat h

/-! ### Either byte order -/

/-- The bytes of a bit vector in the given order. -/
def toBytes (littleEndian : Bool) {n : ℕ} (v : BitVec (8 * n)) : List (BitVec 8) :=
  if littleEndian then toBytesLE v else (toBytesLE v).reverse

/-- The bit vector with the given bytes in the given order. -/
def ofBytes (littleEndian : Bool) (n : ℕ) (bs : List (BitVec 8)) : BitVec (8 * n) :=
  ofBytesLE n (if littleEndian then bs else bs.reverse)

@[simp] theorem length_toBytes (littleEndian : Bool) {n : ℕ} (v : BitVec (8 * n)) :
    (toBytes littleEndian v).length = n := by
  cases littleEndian <;> simp [toBytes]

@[simp] theorem ofBytes_toBytes (littleEndian : Bool) {n : ℕ} (v : BitVec (8 * n)) :
    ofBytes littleEndian n (toBytes littleEndian v) = v := by
  cases littleEndian <;> simp [toBytes, ofBytes]

theorem toBytes_ofBytes (littleEndian : Bool) {n : ℕ} {bs : List (BitVec 8)}
    (h : bs.length = n) : toBytes littleEndian (ofBytes littleEndian n bs) = bs := by
  cases littleEndian with
  | true => exact toBytesLE_ofBytesLE h
  | false =>
      have hreverse : toBytesLE (ofBytesLE n bs.reverse) = bs.reverse :=
        toBytesLE_ofBytesLE (by rw [List.length_reverse, h])
      simp [toBytes, ofBytes, hreverse]

section Swap

variable {n : ℕ} {swap : BitVec (8 * n) → BitVec (8 * n)}
  (hswap : ∀ v, toBytesLE (swap v) = (toBytesLE v).reverse)
include hswap

/-- Reversing the bytes twice gives the value back. -/
theorem swap_swap (v : BitVec (8 * n)) : swap (swap v) = v :=
  toBytesLE_injective (by rw [hswap, hswap, List.reverse_reverse])

/-- The bytes of the swapped value in one order are those of the value in the other. -/
theorem toBytes_swap (littleEndian : Bool) (v : BitVec (8 * n)) :
    toBytes littleEndian (swap v) = toBytes (!littleEndian) v := by
  cases littleEndian <;> simp [toBytes, hswap]

end Swap

end ByteOrder
