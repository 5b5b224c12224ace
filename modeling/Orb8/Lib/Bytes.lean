import Mathlib.Data.Nat.ModEq
import Mathlib.Tactic.Ring

/-!
# Numbers as bytes

`toLe w n` are the `w` low bytes of `n`, least significant first; `fromLe` and `fromBe` read a byte
string back as a number. A fixed-width load from memory is `fromLe (slice r off w)`.
-/

namespace Bytes

/-- The `w` low bytes of `n`, least significant first. -/
def toLe : Nat → Nat → List UInt8
  | 0, _ => []
  | w + 1, n => UInt8.ofNat n :: toLe w (n / 256)

def fromLe : List UInt8 → Nat
  | [] => 0
  | b :: bs => b.toNat + 256 * fromLe bs

def fromBe (bs : List UInt8) : Nat := fromLe bs.reverse

/-- The `w` bytes from offset `off` on. -/
def slice (r : List UInt8) (off w : Nat) : List UInt8 := (r.drop off).take w

@[simp] theorem fromLe_nil : fromLe [] = 0 := rfl

@[simp] theorem fromLe_cons (b : UInt8) (bs : List UInt8) :
    fromLe (b :: bs) = b.toNat + 256 * fromLe bs := rfl

@[simp] theorem length_toLe (w n : Nat) : (toLe w n).length = w := by
  induction w generalizing n with
  | zero => rfl
  | succ w ih => simp [toLe, ih]

theorem fromLe_toLe {w n : Nat} (h : n < 256 ^ w) : fromLe (toLe w n) = n := by
  induction w generalizing n with
  | zero => simp only [pow_zero] at h; simp [toLe]; omega
  | succ w ih =>
    have hdiv : n / 256 < 256 ^ w := by rw [pow_succ] at h; omega
    simp only [toLe, fromLe_cons, ih hdiv, UInt8.toNat_ofNat']
    omega

theorem fromLe_lt (bs : List UInt8) : fromLe bs < 256 ^ bs.length := by
  induction bs with
  | nil => simp
  | cons b bs ih =>
    have hb : b.toNat < 256 := b.toNat_lt
    rw [fromLe_cons, List.length_cons, pow_succ]
    omega

theorem fromLe_div_mod (bs : List UInt8) (i : Nat) (hi : i < bs.length) :
    fromLe bs / 256 ^ i % 256 = bs[i].toNat := by
  induction bs generalizing i with
  | nil => simp at hi
  | cons b bs ih =>
    have hb : b.toNat < 256 := b.toNat_lt
    cases i with
    | zero => simp only [fromLe_cons, pow_zero, Nat.div_one, List.getElem_cons_zero]; omega
    | succ i =>
      have hi' : i < bs.length := by simpa using hi
      have hdiv : (b.toNat + 256 * fromLe bs) / 256 = fromLe bs := by omega
      rw [fromLe_cons, pow_succ', ← Nat.div_div_eq_div_mul, hdiv, List.getElem_cons_succ]
      exact ih i hi'

theorem fromLe_inj {a b : List UInt8} (hlen : a.length = b.length) (h : fromLe a = fromLe b) : a = b := by
  induction a generalizing b with
  | nil => exact (List.length_eq_zero_iff.1 hlen.symm).symm
  | cons x a ih =>
    cases b with
    | nil => simp at hlen
    | cons y b =>
      have hx := x.toNat_lt
      have hy := y.toNat_lt
      simp only [fromLe_cons] at h
      rw [ih (by simpa using hlen) (by omega), UInt8.toNat_inj.1 (show x.toNat = y.toNat by omega)]

theorem fromBe_inj {a b : List UInt8} (hlen : a.length = b.length) (h : fromBe a = fromBe b) : a = b :=
  List.reverse_inj.1 (fromLe_inj (by simpa using hlen) h)

theorem fromBe_lt (bs : List UInt8) : fromBe bs < 256 ^ bs.length := by
  simpa [fromBe] using fromLe_lt bs.reverse

/-! ### Slices -/

section
variable {r r' : List UInt8} {n off w : Nat}

theorem length_slice (h : off + w ≤ r.length) : (slice r off w).length = w := by
  simp [slice]
  omega

/-- A slice lies in what two byte strings have in common. -/
theorem slice_congr (h : r.take n = r'.take n) (hle : off + w ≤ n) : slice r off w = slice r' off w := by
  have hcut (l : List UInt8) : slice l off w = slice (l.take n) off w := by
    rw [slice, slice, List.drop_take, List.take_take, Nat.min_eq_left (by omega)]
  rw [hcut r, hcut r', h]

end

end Bytes
