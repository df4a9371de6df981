import Mathlib.Algebra.Ring.Int.Defs
import Mathlib.Algebra.Ring.Nat
import Mathlib.Data.List.Nodup
import Mathlib.Data.Nat.ModEq

/-! Serial-number arithmetic on `w`-bit counters: the signed distance between two
numbers, the order it induces on numbers less than half the circle apart, and windows
of consecutive numbers. -/

namespace LightLivechat.Lib.Serial

variable {w : Nat}

/-- How far `a` is ahead of `b` on the circle; negative when it is behind. -/
def serialDiff (a b : BitVec w) : Int := (a - b).toInt

def Ahead (a b : BitVec w) : Prop := 0 < serialDiff a b

instance (a b : BitVec w) : Decidable (Ahead a b) := inferInstanceAs (Decidable (0 < _))

@[simp] theorem serialDiff_self (a : BitVec w) : serialDiff a a = 0 := by simp [serialDiff]

theorem not_ahead_self (a : BitVec w) : ¬ Ahead a a := by simp [Ahead]

theorem Ahead.ne {a b : BitVec w} (h : Ahead a b) : a ≠ b := by
  rintro rfl
  exact not_ahead_self a h

/-- A distance that is a sum of three is the sum of the three distances, as long
as that sum stays within half the circle. -/
theorem serialDiff_eq_add {a b x y c : BitVec w} (h : a - b = x + y + c)
    (hlo : -(2 ^ w : Nat) ≤ 2 * (x.toInt + y.toInt + c.toInt))
    (hhi : 2 * (x.toInt + y.toInt + c.toInt) < (2 ^ w : Nat)) :
    serialDiff a b = x.toInt + y.toInt + c.toInt := by
  rw [serialDiff, h, BitVec.toInt_add, BitVec.toInt_add, Int.bmod_add_bmod]
  exact Int.bmod_eq_of_le_mul_two (by omega) (by omega)

theorem ahead_iff_of_sub_eq {a b x y c : BitVec w} (h : a - b = x + y + c)
    (hlo : -(2 ^ w : Nat) ≤ 2 * (x.toInt + y.toInt + c.toInt))
    (hhi : 2 * (x.toInt + y.toInt + c.toInt) < (2 ^ w : Nat)) :
    Ahead a b ↔ 0 < x.toInt + y.toInt + c.toInt := by
  rw [Ahead, serialDiff_eq_add h hlo hhi]

theorem ofInt_sub (n m : Int) : BitVec.ofInt w (n - m) = BitVec.ofInt w n - BitVec.ofInt w m := by
  apply BitVec.eq_of_toInt_eq
  simp only [BitVec.toInt_sub, BitVec.toInt_ofInt, Int.bmod_sub_bmod, Int.sub_bmod_bmod]

theorem serialDiff_ofInt {n m : Int} (hlo : -(2 ^ w : Nat) ≤ 2 * (n - m))
    (hhi : 2 * (n - m) < (2 ^ w : Nat)) :
    serialDiff (BitVec.ofInt w n) (BitVec.ofInt w m) = n - m := by
  rw [serialDiff, ← ofInt_sub, BitVec.toInt_ofInt]
  exact Int.bmod_eq_of_le_mul_two (by omega) (by omega)

theorem ahead_ofInt_iff {n m : Int} (hlo : -(2 ^ w : Nat) ≤ 2 * (n - m))
    (hhi : 2 * (n - m) < (2 ^ w : Nat)) :
    Ahead (BitVec.ofInt w n) (BitVec.ofInt w m) ↔ m < n := by
  rw [Ahead, serialDiff_ofInt hlo hhi]
  omega

theorem toNat_ofInt_sub {n m : Int} (hlo : m ≤ n) (hhi : n < m + (2 ^ w : Nat)) :
    ((BitVec.ofInt w n - BitVec.ofInt w m).toNat : Int) = n - m := by
  rw [← ofInt_sub, BitVec.toNat_ofInt, Int.emod_eq_of_lt (by omega) (by omega)]
  omega
/-- One of the `m` numbers from `base` on, going round the circle. -/
def InWindow (base : BitVec w) (m : Nat) (a : BitVec w) : Prop := (a - base).toNat < m

instance (base : BitVec w) (m : Nat) (a : BitVec w) : Decidable (InWindow base m a) :=
  inferInstanceAs (Decidable (_ < _))

theorem InWindow.eq_of_mod_eq {m : Nat} (hm : m ∣ 2 ^ w) {base a b : BitVec w}
    (ha : InWindow base m a) (hb : InWindow base m b) (h : a.toNat % m = b.toNat % m) : a = b := by
  have hmod : ∀ c : BitVec w, c.toNat % m = (base.toNat + (c - base).toNat) % m := fun c => by
    rw [← Nat.mod_mod_of_dvd (base.toNat + _) hm, ← BitVec.toNat_add, BitVec.add_comm,
      BitVec.sub_add_cancel]
  have hsame : (a - base).toNat ≡ (b - base).toNat [MOD m] :=
    Nat.ModEq.add_left_cancel' base.toNat ((hmod a).symm.trans (h.trans (hmod b)))
  have hdiff : a - base = b - base := BitVec.eq_of_toNat_eq (hsame.eq_of_lt_of_lt ha hb)
  rw [← BitVec.sub_add_cancel a base, hdiff, BitVec.sub_add_cancel]

/-- The `k` numbers from `n` on, going round the circle. -/
def countFrom (n : BitVec w) (k : Nat) : List (BitVec w) :=
  (List.range k).map fun i => n + BitVec.ofNat w i

@[simp] theorem length_countFrom (n : BitVec w) (k : Nat) : (countFrom n k).length = k := by
  simp [countFrom]

theorem countFrom_add (n : BitVec w) (j k : Nat) :
    countFrom n (j + k) = countFrom n j ++ countFrom (n + BitVec.ofNat w j) k := by
  unfold countFrom
  rw [List.range_add, List.map_append, List.map_map]
  congr 1
  refine List.map_congr_left fun i _ => ?_
  rw [Function.comp_apply, BitVec.ofNat_add, BitVec.add_assoc]

theorem countFrom_nodup (n : BitVec w) {k : Nat} (hk : k ≤ 2 ^ w) : (countFrom n k).Nodup := by
  refine List.Nodup.map_on (fun i hi j hj h => ?_) List.nodup_range
  have hi := List.mem_range.mp hi
  have hj := List.mem_range.mp hj
  have heq := congrArg BitVec.toNat ((BitVec.add_right_inj n).mp h)
  rwa [BitVec.toNat_ofNat, BitVec.toNat_ofNat, Nat.mod_eq_of_lt (Nat.lt_of_lt_of_le hi hk),
    Nat.mod_eq_of_lt (Nat.lt_of_lt_of_le hj hk)] at heq

end LightLivechat.Lib.Serial
