import Mathlib.Data.BitVec
import Mathlib.Data.Nat.Digits.Lemmas

/-! Fixed-width little-endian integers as lists of octets. -/

namespace LittleEndian

/-- The `n` low octets of a number, least significant first. -/
def bytes : Nat → Nat → List (BitVec 8)
  | 0, _ => []
  | n + 1, x => BitVec.ofNat 8 x :: bytes n (x / 256)

def value (bs : List (BitVec 8)) : Nat := Nat.ofDigits 256 (bs.map BitVec.toNat)

@[simp] theorem value_nil : value [] = 0 := rfl

@[simp] theorem value_cons (b : BitVec 8) (bs : List (BitVec 8)) :
    value (b :: bs) = b.toNat + 256 * value bs := by
  simp [value, Nat.ofDigits_cons]

@[simp] theorem length_bytes (n x : Nat) : (bytes n x).length = n := by
  induction n generalizing x with
  | zero => rfl
  | succ n ih => simp only [bytes, List.length_cons, ih]

theorem value_bytes (n x : Nat) : value (bytes n x) = x % 256 ^ n := by
  induction n generalizing x with
  | zero => simp [bytes, Nat.mod_one]
  | succ n ih =>
    rw [bytes, value_cons, ih, pow_succ', Nat.mod_mul]
    simp only [BitVec.toNat_ofNat]

theorem value_bytes_of_lt {n x : Nat} (h : x < 256 ^ n) : value (bytes n x) = x := by
  rw [value_bytes, Nat.mod_eq_of_lt h]

theorem value_lt (bs : List (BitVec 8)) : value bs < 256 ^ bs.length := by
  induction bs with
  | nil => exact Nat.one_pos
  | cons b bs ih =>
    have hb := b.isLt
    rw [value_cons, List.length_cons, Nat.pow_succ]
    omega

theorem bytes_value (bs : List (BitVec 8)) : bytes bs.length (value bs) = bs := by
  induction bs with
  | nil => rfl
  | cons b bs ih =>
    have hb := b.isLt
    have hlow : BitVec.ofNat 8 (b.toNat + 256 * value bs) = b := by
      apply BitVec.eq_of_toNat_eq
      rw [BitVec.toNat_ofNat, Nat.add_mul_mod_self_left]
      exact Nat.mod_eq_of_lt hb
    have hhigh : (b.toNat + 256 * value bs) / 256 = value bs := by omega
    rw [value_cons, List.length_cons, bytes, hlow, hhigh, ih]

theorem ofNat_value_bytes {w : Nat} (n : Nat) (x : BitVec w) (h : 2 ^ w ≤ 256 ^ n) :
    BitVec.ofNat w (value (bytes n x.toNat)) = x := by
  rw [value_bytes_of_lt (lt_of_lt_of_le x.isLt h), BitVec.ofNat_toNat, BitVec.setWidth_eq]

theorem bytes_ofNat_value {w : Nat} (bs : List (BitVec 8)) (h : 256 ^ bs.length ≤ 2 ^ w) :
    bytes bs.length (BitVec.ofNat w (value bs)).toNat = bs := by
  rw [BitVec.toNat_ofNat, Nat.mod_eq_of_lt (lt_of_lt_of_le (value_lt bs) h), bytes_value]

theorem or_shiftLeft_eq {a b k : ℕ} (h : a < 2 ^ k) : a ||| b <<< k = a + b * 2 ^ k := by
  rw [Nat.or_comm, ← Nat.shiftLeft_add_eq_or_of_lt h, Nat.shiftLeft_eq, Nat.add_comm]

end LittleEndian
