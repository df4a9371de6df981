import Mathlib.Algebra.Ring.Int.Defs
import Mathlib.Algebra.Ring.Nat

/-! Truncated differences.  A sequence sent as differences, each one rounded toward
zero to a tick, is off by the sum of what the roundings left out. -/

namespace LightLivechat.Lib.Truncate

/-- The differences along `as`, the first one to `p`. -/
def diffs : Int → List Int → List Int
  | _, [] => []
  | p, a :: as => (a - p) :: diffs a as

def ticks (u : Int) (ds : List Int) : List Int := ds.map fun d => d.tdiv u

def remainders (u : Int) (ds : List Int) : List Int := ds.map fun d => d.tmod u

@[simp] theorem length_diffs (p : Int) (as : List Int) : (diffs p as).length = as.length := by
  induction as generalizing p with
  | nil => rfl
  | cons a as ih => simp only [diffs, List.length_cons, ih]

theorem sum_take_diffs (p : Int) {as : List Int} {k : Nat} (h : k < as.length) :
    ((diffs p as).take (k + 1)).sum = as[k] - p := by
  induction as generalizing p k with
  | nil => exact absurd h (Nat.not_lt_zero k)
  | cons a as ih =>
    cases k with
    | zero => simp [diffs]
    | succ k =>
      rw [diffs, List.take_succ_cons, List.sum_cons, ih a (Nat.lt_of_succ_lt_succ h),
        List.getElem_cons_succ]
      omega

theorem sum_ticks_add_sum_remainders (u : Int) (ds : List Int) :
    u * (ticks u ds).sum + (remainders u ds).sum = ds.sum := by
  induction ds with
  | nil => simp [ticks, remainders]
  | cons d ds ih =>
    have hd := Int.mul_tdiv_add_tmod d u
    simp only [ticks, remainders, List.map_cons, List.sum_cons, Int.mul_add] at ih ⊢
    omega

/-- How far the ticks sent so far are from the element they stand for. -/
theorem drift (u p : Int) {as : List Int} {k : Nat} (h : k < as.length) :
    u * ((ticks u (diffs p as)).take (k + 1)).sum - (as[k] - p) =
      -((remainders u (diffs p as)).take (k + 1)).sum := by
  have hsum := sum_ticks_add_sum_remainders u ((diffs p as).take (k + 1))
  rw [sum_take_diffs p h] at hsum
  simp only [ticks, remainders, List.map_take] at hsum ⊢
  omega

end LightLivechat.Lib.Truncate
