import PartRack.Lib.Crc
import PartRack.Lib.ExclusiveOr

/-! How a checksum changes with its data: it is linear in them, and never forgets what it has
taken in. Two data that differ in the middle only have the same checksum exactly if the
difference of the middle leaves nothing in the register. -/

namespace Crc
open ExclusiveOr

variable {w : ℕ}

/-- The bits in which two data differ. -/
def difference (data data' : List (BitVec 8)) : List (BitVec 8) :=
  List.zipWith (fun b b' => b ^^^ b') data data'

theorem difference_append {data data' more more' : List (BitVec 8)}
    (h : data.length = data'.length) :
    difference (data ++ more) (data' ++ more') = difference data data' ++ difference more more' :=
  List.zipWith_append h

theorem difference_self (data : List (BitVec 8)) :
    difference data data = List.replicate data.length 0 := by
  induction data with
  | nil => rfl
  | cons b data ih =>
    rw [difference, List.zipWith_cons_cons, BitVec.xor_self, ← difference, ih]
    rfl

/-! ## The register is linear -/

theorem linear_step (g : BitVec w) : Linear (step g) := by
  intro u v
  have hshift : (u ^^^ v) <<< 1 = u <<< 1 ^^^ v <<< 1 := BitVec.shiftLeft_xor_distrib u v 1
  unfold step
  rw [BitVec.msb_xor, hshift]
  cases u.msb with
  | false =>
    cases v.msb with
    | false => rfl
    | true => exact BitVec.xor_assoc _ _ _
  | true =>
    cases v.msb with
    | false =>
      change u <<< 1 ^^^ v <<< 1 ^^^ g = u <<< 1 ^^^ g ^^^ v <<< 1
      rw [BitVec.xor_assoc, BitVec.xor_comm (v <<< 1), BitVec.xor_assoc]
    | true =>
      change u <<< 1 ^^^ v <<< 1 = u <<< 1 ^^^ g ^^^ (v <<< 1 ^^^ g)
      rw [xor_xor_xor_comm, BitVec.xor_self]
      exact BitVec.xor_zero.symm

theorem octet_xor (g u v : BitVec w) (b b' : BitVec 8) :
    octet g (u ^^^ v) (b ^^^ b') = octet g u b ^^^ octet g v b' := by
  have hwide : (b ^^^ b').setWidth w <<< (w - 8) =
      b.setWidth w <<< (w - 8) ^^^ b'.setWidth w <<< (w - 8) :=
    ((linear_shiftLeft (w - 8)).comp linear_setWidth) b b'
  unfold octet
  rw [hwide, xor_xor_xor_comm, linear_iterate (linear_step g)]

theorem crc_xor (g u v : BitVec w) {data data' : List (BitVec 8)}
    (h : data.length = data'.length) :
    crc g (u ^^^ v) (difference data data') = crc g u data ^^^ crc g v data' := by
  unfold crc difference
  induction data generalizing u v data' with
  | nil =>
    obtain rfl := List.eq_nil_of_length_eq_zero h.symm
    rfl
  | cons b data ih =>
    cases data' with
    | nil => exact absurd h (Nat.succ_ne_zero _)
    | cons b' data' =>
      rw [List.zipWith_cons_cons, List.foldl_cons, List.foldl_cons, List.foldl_cons, octet_xor]
      exact ih _ _ (Nat.succ.inj h)

theorem crc_difference (g : BitVec w) {data data' : List (BitVec 8)}
    (h : data.length = data'.length) :
    crc g 0 (difference data data') = crc g 0 data ^^^ crc g 0 data' := by
  have hxor := crc_xor g 0 0 h
  rwa [BitVec.xor_self] at hxor

theorem crc_append (g init : BitVec w) (data more : List (BitVec 8)) :
    crc g init (data ++ more) = crc g (crc g init data) more := List.foldl_append

/-! ## The register forgets nothing -/

theorem step_eq_zero {g v : BitVec w} (hg : g.getLsbD 0 = true) (h : step g v = 0) : v = 0 := by
  have hlow : ∀ u : BitVec w, (u <<< 1).getLsbD 0 = false := fun u => by simp
  have hmsb : v.msb = false := by
    by_contra hset
    rw [step, if_pos (Bool.of_not_eq_false hset)] at h
    have hbit := congrArg (fun u => BitVec.getLsbD u 0) h
    simp only [BitVec.getLsbD_xor, hlow, hg, Bool.false_xor, BitVec.ofNat_eq_ofNat,
      BitVec.getLsbD_zero] at hbit
    exact Bool.noConfusion hbit
  rw [step, hmsb, if_neg Bool.false_ne_true] at h
  apply BitVec.eq_of_getLsbD_eq
  intro i hi
  rw [BitVec.ofNat_eq_ofNat, BitVec.getLsbD_zero]
  by_cases hlast : i + 1 = w
  · have hindex : i = w - 1 := by omega
    rw [hindex, ← BitVec.msb_eq_getLsbD_last, hmsb]
  · have hbit := congrArg (fun u => BitVec.getLsbD u (i + 1)) h
    simp only [BitVec.getLsbD_shiftLeft, BitVec.ofNat_eq_ofNat, BitVec.getLsbD_zero,
      Nat.add_sub_cancel] at hbit
    have hlt : i + 1 < w := Nat.lt_of_le_of_ne hi hlast
    simpa [hlt] using hbit

theorem crc_injective {g : BitVec w} (hg : g.getLsbD 0 = true) {u v : BitVec w}
    {data : List (BitVec 8)} (h : crc g u data = crc g v data) : u = v := by
  have hiterate : ∀ (n : ℕ) (x : BitVec w), (step g)^[n] x = 0 → x = 0 := by
    intro n
    induction n with
    | zero => exact fun x hx => hx
    | succ n ih => exact fun x hx => step_eq_zero hg (ih (step g x) hx)
  have hoctet : ∀ (x y : BitVec w) (b : BitVec 8), octet g x b = octet g y b → x = y := by
    intro x y b hxy
    have hzero : octet g (x ^^^ y) (b ^^^ b) = 0 := by
      rw [octet_xor, hxy, BitVec.xor_self]
      rfl
    have hwide : (b ^^^ b).setWidth w <<< (w - 8) = 0 := by simp
    rw [octet, hwide] at hzero
    have hdiff := hiterate 8 _ hzero
    exact BitVec.xor_eq_zero_iff.mp (BitVec.xor_zero.symm.trans hdiff)
  induction data generalizing u v with
  | nil => exact h
  | cons b data ih => exact hoctet u v b (ih h)

theorem crc_eq_iff_of_middle {g : BitVec w} (hg : g.getLsbD 0 = true) (init : BitVec w)
    {middle middle' : List (BitVec 8)} (h : middle.length = middle'.length)
    (before after : List (BitVec 8)) :
    crc g init (before ++ middle ++ after) = crc g init (before ++ middle' ++ after) ↔
      crc g 0 middle = crc g 0 middle' := by
  have hshift : ∀ u : BitVec w, crc g u middle ^^^ crc g u middle' =
      crc g 0 middle ^^^ crc g 0 middle' := by
    intro u
    rw [← crc_xor g u u h, ← crc_difference g h, BitVec.xor_self]
    rfl
  rw [crc_append, crc_append, crc_append, crc_append]
  refine ⟨fun heq => ?_, fun heq => ?_⟩
  · have hmiddle := crc_injective hg heq
    rw [← BitVec.xor_eq_zero_iff, ← hshift (crc g init before), hmiddle, BitVec.xor_self]
  · have hmiddle : crc g (crc g init before) middle = crc g (crc g init before) middle' := by
      rw [← BitVec.xor_eq_zero_iff, hshift, heq, BitVec.xor_self]
    rw [hmiddle]

end Crc
