import Mathlib.Data.List.Induction
import Mathlib.Logic.Function.Basic

/-! Slots that keep the value written last.  A ring buffer is such a table whose
slot index forgets part of the key. -/

namespace LightLivechat.Lib.Ring

variable {α β : Type} {n : Nat}

abbrev Slots (n : Nat) (β : Type) := Fin n → Option β

def empty : Slots n β := fun _ => none

def put (s : Slots n β) (i : Fin n) (b : β) : Slots n β := Function.update s i (some b)

/-- The last element of a history that satisfies `p`. -/
def latest (p : α → Bool) (xs : List α) : Option α := (xs.filter p).getLast?

theorem latest_snoc (p : α → Bool) (xs : List α) (x : α) :
    latest p (xs ++ [x]) = if p x then some x else latest p xs := by
  by_cases h : p x <;> simp [latest, h]

theorem latest_some {p : α → Bool} {xs : List α} {x : α} (h : latest p xs = some x) :
    x ∈ xs ∧ p x := List.mem_filter.mp (List.mem_of_getLast? h)

theorem latest_append (p : α → Bool) (xs ys : List α) :
    latest p (xs ++ ys) = (latest p ys).or (latest p xs) := by
  rw [latest, List.filter_append, List.getLast?_append]
  rfl

theorem latest_congr {p q : α → Bool} {xs : List α} (h : ∀ x ∈ xs, p x = q x) :
    latest p xs = latest q xs := by
  rw [latest, List.filter_congr h]
  rfl

theorem exists_latest {p : α → Bool} {xs : List α} {x : α} (hx : x ∈ xs) (hp : p x) :
    ∃ y, latest p xs = some y := by
  have hne := List.ne_nil_of_mem (List.mem_filter.mpr ⟨hx, hp⟩)
  exact ⟨_, List.getLast?_eq_some_getLast hne⟩

theorem latest_map {γ : Type} (f : γ → α) (p : α → Bool) (xs : List γ) :
    latest p (xs.map f) = (latest (fun x => p (f x)) xs).map f := by
  rw [latest, List.filter_map, List.getLast?_map]
  rfl

theorem latest_of_rest {p : α → Bool} {x : α} (xs : List α) {ys : List α} (hx : p x)
    (hrest : ∀ y ∈ ys, ¬ p y) : latest p (xs ++ x :: ys) = some x := by
  have hnone : ys.filter p = [] := List.filter_eq_nil_iff.mpr hrest
  simp [latest, hx, hnone]

theorem latest_filter (p q : α → Bool) (xs : List α) :
    latest p (xs.filter q) = latest (fun x => p x && q x) xs := by
  simp [latest, List.filter_filter]

/-- What `p` singles out last is what `q` does, when `q` holds of it and only of
elements `p` holds of. -/
theorem latest_of_imp {p q : α → Bool} {xs : List α} {x : α} (h : latest p xs = some x)
    (hq : q x) (himp : ∀ y, q y → p y) : latest q xs = some x := by
  have hfilter : xs.filter q = (xs.filter p).filter q := by
    rw [List.filter_filter]
    congr 1
    funext y
    by_cases hy : q y
    · simp [hy, himp y hy]
    · simp [hy]
  obtain ⟨pre, hpre⟩ := List.getLast?_eq_some_iff.mp h
  rw [latest, hfilter, hpre]
  simp [hq]

theorem put_apply (s : Slots n β) (i j : Fin n) (b : β) :
    put s i b j = if j = i then some b else s j := Function.update_apply s i (some b) j

theorem foldl_put (index : α → Fin n) (value : α → β) (xs : List α) (s : Slots n β) (i : Fin n) :
    xs.foldl (fun s x => put s (index x) (value x)) s i =
      ((latest (fun x => index x = i) xs).map value).or (s i) := by
  induction xs using List.reverseRecOn with
  | nil => rfl
  | append_singleton xs x ih =>
    rw [List.foldl_append, List.foldl_cons, List.foldl_nil, put_apply, latest_snoc, ih]
    by_cases h : index x = i
    · simp [h]
    · simp [h, Ne.symm h]

end LightLivechat.Lib.Ring
