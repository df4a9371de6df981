/-! Bounded first-in-first-out channels whose sender does not wait: a full channel
refuses what it is offered. -/

namespace LightLivechat.Lib.Channel

universe u

inductive Op (α : Type u) where
  | offer (x : α)
  | take
  deriving DecidableEq

section

variable {α : Type u} (cap : Nat)

def apply (q : List α) : Op α → List α
  | .offer x => if q.length < cap then q ++ [x] else q
  | .take => q.tail

/-- What waits in the channel after the operations. -/
def waiting (q : List α) (ops : List (Op α)) : List α := ops.foldl (apply cap) q

def accepted : List α → List (Op α) → List α
  | _, [] => []
  | q, .offer x :: ops =>
    (if q.length < cap then [x] else []) ++ accepted (apply cap q (.offer x)) ops
  | q, .take :: ops => accepted (apply cap q .take) ops

def taken : List α → List (Op α) → List α
  | _, [] => []
  | q, .offer x :: ops => taken (apply cap q (.offer x)) ops
  | q, .take :: ops => q.head?.toList ++ taken (apply cap q .take) ops

def offered : List (Op α) → List α
  | [] => []
  | .offer x :: ops => x :: offered ops
  | .take :: ops => offered ops

/-- There is room for every offer. -/
def Roomy : List α → List (Op α) → Prop
  | _, [] => True
  | q, .offer x :: ops => q.length < cap ∧ Roomy (apply cap q (.offer x)) ops
  | q, .take :: ops => Roomy (apply cap q .take) ops

end

section

variable {α : Type u} {cap : Nat}

/-- What comes out is what went in, in the same order; the rest is still waiting. -/
theorem taken_append_waiting (q : List α) (ops : List (Op α)) :
    taken cap q ops ++ waiting cap q ops = q ++ accepted cap q ops := by
  induction ops generalizing q with
  | nil => simp [taken, waiting, accepted]
  | cons op ops ih =>
    cases op with
    | offer x =>
      simp only [taken, accepted]
      rw [waiting, List.foldl_cons, ← waiting, ih]
      simp only [apply]
      split <;> simp
    | take =>
      simp only [taken, accepted]
      rw [waiting, List.foldl_cons, ← waiting, List.append_assoc, ih, ← List.append_assoc]
      cases q <;> rfl

theorem accepted_sublist (q : List α) (ops : List (Op α)) :
    (accepted cap q ops).Sublist (offered ops) := by
  induction ops generalizing q with
  | nil => exact List.Sublist.slnil
  | cons op ops ih =>
    cases op with
    | offer x =>
      simp only [accepted, offered]
      split
      · exact (ih _).cons_cons x
      · exact (ih _).cons x
    | take => exact ih _

theorem accepted_of_roomy {q : List α} {ops : List (Op α)} (h : Roomy cap q ops) :
    accepted cap q ops = offered ops := by
  induction ops generalizing q with
  | nil => rfl
  | cons op ops ih =>
    cases op with
    | offer x =>
      simp only [accepted, offered]
      rw [if_pos h.1, ih h.2]
      rfl
    | take => exact ih h

theorem length_waiting {q : List α} (hq : q.length ≤ cap) (ops : List (Op α)) :
    (waiting cap q ops).length ≤ cap := by
  induction ops generalizing q with
  | nil => exact hq
  | cons op ops ih =>
    apply ih
    cases op with
    | offer x =>
      simp only [apply]
      split
      · rw [List.length_append]
        exact ‹q.length < cap›
      · exact hq
    | take => exact Nat.le_trans (by simp [apply]) hq

theorem waiting_append (q : List α) (ops ops' : List (Op α)) :
    waiting cap q (ops ++ ops') = waiting cap (waiting cap q ops) ops' := List.foldl_append

theorem taken_append (q : List α) (ops ops' : List (Op α)) :
    taken cap q (ops ++ ops') = taken cap q ops ++ taken cap (waiting cap q ops) ops' := by
  induction ops generalizing q with
  | nil => rfl
  | cons op ops ih =>
    cases op with
    | offer x => exact ih _
    | take =>
      simp only [List.cons_append, taken]
      rw [ih, List.append_assoc]
      rfl

theorem waiting_offers (q xs : List α) :
    waiting cap q (xs.map .offer) = q ++ xs.take (cap - q.length) := by
  induction xs generalizing q with
  | nil => simp [waiting]
  | cons x xs ih =>
    rw [waiting, List.map_cons, List.foldl_cons, ← waiting, ih]
    simp only [apply]
    split <;> rename_i h
    · have hone : cap - q.length = (cap - (q ++ [x]).length) + 1 := by
        rw [List.length_append, List.length_singleton]
        omega
      rw [hone, List.take_succ_cons, List.append_assoc]
      rfl
    · rw [Nat.sub_eq_zero_of_le (Nat.not_lt.mp h)]
      simp

theorem offered_offers (xs : List α) : offered (xs.map .offer) = xs := by
  induction xs with
  | nil => rfl
  | cons x xs ih => rw [List.map_cons, offered, ih]

theorem taken_offers (q xs : List α) : taken cap q (xs.map .offer) = [] := by
  induction xs generalizing q with
  | nil => rfl
  | cons x xs ih => exact ih _

theorem mem_waiting {q : List α} {ops : List (Op α)} {x : α} (h : x ∈ waiting cap q ops) :
    x ∈ q ∨ x ∈ offered ops := by
  induction ops generalizing q with
  | nil => exact .inl h
  | cons op ops ih =>
    rcases ih h with hq | hops
    · cases op with
      | offer y =>
        simp only [apply] at hq
        split at hq
        · rcases List.mem_append.mp hq with hq | hq
          · exact .inl hq
          · exact .inr (List.mem_cons.mpr (.inl (List.mem_singleton.mp hq)))
        · exact .inl hq
      | take => exact .inl (List.mem_of_mem_tail hq)
    · cases op with
      | offer y => exact .inr (List.mem_cons_of_mem _ hops)
      | take => exact .inr hops

end

end LightLivechat.Lib.Channel
