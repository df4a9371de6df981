import Mathlib.Data.Nat.Size
import Mathlib.Algebra.Ring.Nat
import Mathlib.Order.Bounds.Basic

/-! Natural numbers cut down to a significand of `k` bits and a power of two. -/

namespace LightLivechat.Lib.Float

def Representable (k x : Nat) : Prop := ∃ m e, m < 2 ^ k ∧ x = m * 2 ^ e

/-- How many of its low bits a number has too many. -/
def exponent (k n : Nat) : Nat := n.size - k

def significand (k n : Nat) : Nat := n / 2 ^ exponent k n

def truncate (k n : Nat) : Nat := significand k n * 2 ^ exponent k n

variable (k n : Nat)

theorem significand_lt : significand k n < 2 ^ k := by
  have hsize : n.size ≤ k + exponent k n := by
    rw [exponent]
    omega
  rw [significand, Nat.div_lt_iff_lt_mul (Nat.two_pow_pos _), ← Nat.pow_add]
  exact Nat.size_le.mp hsize

variable {k n}

theorem exponent_eq_zero_iff : exponent k n = 0 ↔ n < 2 ^ k := by
  rw [exponent, Nat.sub_eq_zero_iff_le, Nat.size_le]

theorem exponent_le {w : Nat} (h : n < 2 ^ w) : exponent k n ≤ w - k :=
  Nat.sub_le_sub_right (Nat.size_le.mpr h) k

theorem exponent_half (h : 2 ^ k ≤ n) : exponent k n = exponent k (n / 2) + 1 := by
  have hhalf : ∀ j, (n / 2).size ≤ j ↔ n.size ≤ j + 1 := fun j => by
    rw [Nat.size_le, Nat.size_le, Nat.pow_succ, Nat.div_lt_iff_lt_mul Nat.two_pos]
  have hsize := Nat.lt_size.mpr h
  have hle := (hhalf (n.size - 1)).mpr (by omega)
  have hge := (hhalf (n / 2).size).mp (Nat.le_refl _)
  rw [exponent, exponent]
  omega

theorem significand_half (h : 2 ^ k ≤ n) : significand k n = significand k (n / 2) := by
  rw [significand, significand, exponent_half h, Nat.pow_succ', Nat.div_div_eq_div_mul]

theorem truncate_of_lt (h : n < 2 ^ k) : truncate k n = n := by
  rw [truncate, significand, exponent_eq_zero_iff.mpr h, Nat.pow_zero, Nat.div_one, Nat.mul_one]

variable (k n)

theorem truncate_le : truncate k n ≤ n := Nat.div_mul_le_self n _

theorem lt_truncate_add : n < truncate k n + 2 ^ exponent k n := by
  rw [truncate, ← Nat.succ_mul]
  exact Nat.lt_mul_of_div_lt (Nat.lt_succ_self _) (Nat.two_pow_pos _)

theorem truncate_representable : Representable k (truncate k n) :=
  ⟨significand k n, exponent k n, significand_lt k n, rfl⟩

variable {k n}

theorem pow_le_significand (hk : 0 < k) (h : 0 < exponent k n) : 2 ^ k ≤ 2 * significand k n := by
  have hsize : 2 ^ (k - 1 + exponent k n) ≤ n := by
    rw [exponent] at h ⊢
    exact Nat.lt_size.mp (by omega)
  have hkept : 2 ^ (k - 1) ≤ significand k n := by
    rwa [significand, Nat.le_div_iff_mul_le (Nat.two_pow_pos _), ← Nat.pow_add]
  calc 2 ^ k ≤ 2 ^ (k - 1 + 1) := Nat.pow_le_pow_right Nat.two_pos (by omega)
    _ = 2 * 2 ^ (k - 1) := Nat.pow_succ'
    _ ≤ 2 * significand k n := Nat.mul_le_mul_left 2 hkept

theorem Representable.le_truncate {x : Nat} (hx : Representable k x) (hle : x ≤ n) :
    x ≤ truncate k n := by
  obtain ⟨m, e, hm, rfl⟩ := hx
  rcases Nat.eq_zero_or_pos k with rfl | hk
  · rw [Nat.lt_one_iff.mp hm, Nat.zero_mul]
    exact Nat.zero_le _
  rcases Nat.lt_or_ge e (exponent k n) with he | he
  · have hkept := pow_le_significand hk (Nat.zero_lt_of_lt he)
    calc m * 2 ^ e ≤ 2 * significand k n * 2 ^ e :=
          Nat.mul_le_mul_right _ (Nat.le_trans (Nat.le_of_lt hm) hkept)
      _ = significand k n * 2 ^ (e + 1) := by rw [Nat.pow_succ']; ac_rfl
      _ ≤ truncate k n := Nat.mul_le_mul_left _ (Nat.pow_le_pow_right Nat.two_pos he)
  · obtain ⟨d, rfl⟩ := Nat.exists_eq_add_of_le he
    rw [Nat.pow_add, Nat.mul_left_comm, Nat.mul_comm] at hle ⊢
    exact Nat.mul_le_mul_right _ ((Nat.le_div_iff_mul_le (Nat.two_pow_pos _)).mpr hle)

theorem truncate_isGreatest : IsGreatest {x | Representable k x ∧ x ≤ n} (truncate k n) :=
  ⟨⟨truncate_representable k n, truncate_le k n⟩, fun _ ⟨hx, hle⟩ => hx.le_truncate hle⟩

theorem truncate_mono : Monotone (truncate k) := fun m _ h =>
  truncate_isGreatest.2 ⟨truncate_representable k m, Nat.le_trans (truncate_le k m) h⟩

end LightLivechat.Lib.Float
