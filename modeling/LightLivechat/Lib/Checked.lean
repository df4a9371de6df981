import Mathlib.Algebra.Ring.Nat
import LightLivechat.Lib.Bytes
import LightLivechat.Lib.Walk

/-! Code whose accesses and additions are checked: what would stop the program is
a fault.  Sizes are 64-bit numbers. -/

namespace LightLivechat.Lib.Checked

open LightLivechat.Lib.Bytes LightLivechat.Lib.Walk

inductive Fault where
  | indexOutOfBounds
  | sliceOutOfRange
  | addOverflow
  | subOverflow
  | mulOverflow
  | outOfFuel
  deriving DecidableEq

abbrev Checked := Except Fault

/-- A buffer within the longest one there can be, of `isize::MAX` bytes. -/
structure Slice where
  bytes : Bytes
  bounded : bytes.length < 2 ^ 63

def index (b : Bytes) (i : Nat) : Checked U8 :=
  match b[i]? with
  | some x => .ok x
  | none => .error .indexOutOfBounds

def range (b : Bytes) (lo hi : Nat) : Checked Bytes :=
  if lo ≤ hi ∧ hi ≤ b.length then .ok (slice b lo (hi - lo)) else .error .sliceOutOfRange

def store (b : Bytes) (i : Nat) (x : U8) : Checked Bytes :=
  if i < b.length then .ok (write b i [x]) else .error .indexOutOfBounds

def storeAll (b : Bytes) (i : Nat) : Bytes → Checked Bytes
  | [] => return b
  | x :: src => do storeAll (← store b i x) (i + 1) src

def copyInto (b : Bytes) (lo : Nat) (src : Bytes) : Checked Bytes :=
  if lo + src.length ≤ b.length then .ok (write b lo src) else .error .sliceOutOfRange

def add (x y : Nat) : Checked Nat := if x + y < 2 ^ 64 then .ok (x + y) else .error .addOverflow

def sub (x y : Nat) : Checked Nat := if y ≤ x then .ok (x - y) else .error .subOverflow

def mul (x y : Nat) : Checked Nat := if x * y < 2 ^ 64 then .ok (x * y) else .error .mulOverflow

def u16At (b : Bytes) (i : Nat) : Checked U16 := do
  let hi ← index b i
  let lo ← index b (← add i 1)
  return hi ++ lo

def u32At (b : Bytes) (i : Nat) : Checked U32 := do
  let hi ← u16At b i
  let lo ← u16At b (← add i 2)
  return hi ++ lo

inductive Turn (σ ρ : Type) where
  | next (s : σ)
  | done (r : ρ)

/-- The turn of a loop that puts what is read into an accumulator. -/
def Turn.fold {α β : Type} (push : α → β → α) (acc : α) : Option (β × Nat) → Turn (α × Nat) α
  | none => .done acc
  | some (b, j) => .next (push acc b, j)

/-- The turn of a loop that looks for the first item with an answer. -/
def Turn.search {β ρ : Type} (f : β → Option ρ) : Option (β × Nat) → Turn Nat (Option ρ)
  | none => .done none
  | some (b, j) => match f b with
    | some r => .done (some r)
    | none => .next j

theorem Turn.search_hit {β ρ : Type} {f : β → Option ρ} {b : β} {j : Nat} {r : ρ}
    (h : f b = some r) : Turn.search f (some (b, j)) = .done (some r) := by
  simp only [Turn.search, h]

theorem Turn.search_miss {β ρ : Type} {f : β → Option ρ} {b : β} {j : Nat} (h : f b = none) :
    Turn.search f (some (b, j)) = .next j := by
  simp only [Turn.search, h]

/-- A loop that may take no more than `fuel` turns. -/
def loop {σ ρ : Type} (body : σ → Checked (Turn σ ρ)) : Nat → σ → Checked ρ
  | 0, _ => .error .outOfFuel
  | fuel + 1, s => do
    match ← body s with
    | .next s => loop body fuel s
    | .done r => return r

def NoFault {α : Type} (x : Checked α) : Prop := ∃ a, x = .ok a

section

variable {b src : Bytes} {i x y lo hi : Nat}

@[simp] theorem ok_bind {α β : Type} (a : α) (f : α → Checked β) : (.ok a >>= f) = f a := rfl

@[simp] theorem error_bind {α β : Type} (e : Fault) (f : α → Checked β) :
    (.error e >>= f) = .error e := rfl

theorem noFault_bind_iff {α β : Type} {x : Checked α} {f : α → Checked β} :
    NoFault (x >>= f) ↔ ∃ a, x = .ok a ∧ NoFault (f a) := by
  cases x with
  | error fault => simp [NoFault]
  | ok a => simp

theorem guard_ok {α : Type} {c : Prop} [Decidable c] {x : Checked α} {a a' : α}
    (h : ¬ c → x = .ok a') : (if c then pure a else x) = .ok (if c then a else a') := by
  split
  · rfl
  · exact h ‹_›

theorem index_ok (h : i < b.length) : index b i = .ok (byteAt b i) := by
  simp [index, byteAt, List.getD_eq_getElem?_getD, List.getElem?_eq_getElem h]

theorem range_ok (hlo : lo ≤ hi) (hhi : hi ≤ b.length) :
    range b lo hi = .ok (slice b lo (hi - lo)) := if_pos ⟨hlo, hhi⟩

theorem store_ok (h : i < b.length) (v : U8) : store b i v = .ok (write b i [v]) := if_pos h

theorem copyInto_ok (h : lo + src.length ≤ b.length) : copyInto b lo src = .ok (write b lo src) :=
  if_pos h

theorem storeAll_ok {b src : Bytes} {i : Nat} (h : i + src.length ≤ b.length) :
    storeAll b i src = .ok (write b i src) := by
  induction src generalizing b i with
  | nil => simp [storeAll, write]; rfl
  | cons x src ih =>
    have hfit : i + (src.length + 1) ≤ b.length := h
    rw [storeAll, store_ok (by omega), ok_bind,
      ih (by rw [length_write (by simp; omega)]; omega), write_write_cons x src (by omega)]

theorem add_ok (h : x + y < 2 ^ 64) : add x y = .ok (x + y) := if_pos h

theorem add_eq_ok_iff {z : Nat} : add x y = .ok z ↔ x + y < 2 ^ 64 ∧ x + y = z := by
  unfold add
  by_cases h : x + y < 2 ^ 64
  · rw [if_pos h, and_iff_right h, Except.ok.injEq]
  · rw [if_neg h]
    exact iff_of_false (fun hok => by cases hok) fun hboth => h hboth.1

theorem sub_ok (h : y ≤ x) : sub x y = .ok (x - y) := if_pos h

theorem mul_ok (h : x * y < 2 ^ 64) : mul x y = .ok (x * y) := if_pos h

theorem u16At_ok (hb : b.length < 2 ^ 63) (h : i + 2 ≤ b.length) : u16At b i = .ok (be16 b i) := by
  rw [u16At, index_ok (by omega), add_ok (by omega), ok_bind, ok_bind, index_ok (by omega)]
  rfl

theorem u32At_ok (hb : b.length < 2 ^ 63) (h : i + 4 ≤ b.length) : u32At b i = .ok (be32 b i) := by
  rw [u32At, u16At_ok hb (by omega), add_ok (by omega), ok_bind, ok_bind, u16At_ok hb (by omega)]
  rfl

end

section

variable {α β ρ : Type} {read : Reader β} {limit bound i fuel : Nat}

theorem loop_fold (h : Advances read limit) (push : α → β → α)
    {body : α × Nat → Checked (Turn (α × Nat) α)}
    (hbody : ∀ acc i, i ≤ bound → body (acc, i) = .ok (.fold push acc (read i)))
    (hnext : ∀ {i b j}, i ≤ bound → read i = some (b, j) → j ≤ bound) (hi : i ≤ bound)
    (hfuel : limit - i < fuel) (acc : α) :
    loop body fuel (acc, i) = .ok ((items read limit i).foldl push acc) := by
  induction fuel generalizing i acc with
  | zero => omega
  | succ fuel ih =>
    rw [loop, hbody acc i hi]
    cases hr : read i with
    | none => rw [items_stop hr]; rfl
    | some p =>
      obtain ⟨b, j⟩ := p
      have hlt := h.lt hr
      have hbound := h.bound hr
      rw [h.items_next hr, List.foldl_cons]
      exact ih (hnext hi hr) (by omega) (push acc b)

theorem loop_search (h : Advances read limit) (f : β → Option ρ)
    {body : Nat → Checked (Turn Nat (Option ρ))}
    (hbody : ∀ i, i ≤ bound → body i = .ok (.search f (read i)))
    (hnext : ∀ {i b j}, i ≤ bound → read i = some (b, j) → j ≤ bound) (hi : i ≤ bound)
    (hfuel : limit - i < fuel) :
    loop body fuel i = .ok ((items read limit i).findSome? f) := by
  induction fuel generalizing i with
  | zero => omega
  | succ fuel ih =>
    rw [loop, hbody i hi]
    cases hr : read i with
    | none => rw [items_stop hr]; rfl
    | some p =>
      obtain ⟨b, j⟩ := p
      have hlt := h.lt hr
      have hbound := h.bound hr
      rw [h.items_next hr, List.findSome?_cons]
      cases hf : f b with
      | some r =>
        rw [Turn.search_hit hf]
        rfl
      | none =>
        rw [Turn.search_miss hf]
        exact ih (hnext hi hr) (by omega)

end

end LightLivechat.Lib.Checked
