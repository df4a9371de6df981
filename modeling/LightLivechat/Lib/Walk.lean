/-! Walks over a buffer.  A reader yields the item at an offset and the offset of
the next one; a reader that moves forward below a limit never runs out of fuel. -/

namespace LightLivechat.Lib.Walk

variable {α β γ : Type}

abbrev Reader (β : Type) := Nat → Option (β × Nat)

def walk (read : Reader β) : Nat → Nat → List β
  | 0, _ => []
  | fuel + 1, i =>
    match read i with
    | none => []
    | some (b, j) => b :: walk read fuel j

/-- The items from offset `i` on. -/
def items (read : Reader β) (limit i : Nat) : List β := walk read (limit - i) i

/-- Records of known sizes one after the other, each with the offset it starts at. -/
def layout (size : α → Nat) : Nat → List α → List (Nat × α)
  | _, [] => []
  | i, x :: xs => (i, x) :: layout size (i + size x) xs

structure Advances (read : Reader β) (limit : Nat) : Prop where
  lt : ∀ {i b j}, read i = some (b, j) → i < j
  bound : ∀ {i b j}, read i = some (b, j) → i < limit

section

variable {read : Reader β} {limit i j : Nat} {b : β}

theorem walk_stop (fuel : Nat) (h : read i = none) : walk read fuel i = [] := by
  cases fuel with
  | zero => rfl
  | succ fuel => simp only [walk, h]

theorem walk_next (fuel : Nat) (h : read i = some (b, j)) :
    walk read (fuel + 1) i = b :: walk read fuel j := by simp only [walk, h]

theorem Advances.stop (h : Advances read limit) (hi : limit ≤ i) : read i = none := by
  cases hr : read i with
  | none => rfl
  | some p => exact absurd (h.bound hr) (by omega)

theorem Advances.walk_congr (h : Advances read limit) {fuel fuel' : Nat} (hf : limit - i ≤ fuel)
    (hf' : limit - i ≤ fuel') : walk read fuel i = walk read fuel' i := by
  induction fuel generalizing i fuel' with
  | zero => rw [walk, walk_stop fuel' (h.stop (by omega))]
  | succ fuel ih =>
    cases hr : read i with
    | none => rw [walk_stop _ hr, walk_stop _ hr]
    | some p =>
      obtain ⟨b, j⟩ := p
      have hlt := h.lt hr
      have hbound := h.bound hr
      obtain ⟨n, rfl⟩ : ∃ n, fuel' = n + 1 := ⟨fuel' - 1, by omega⟩
      have hrest : walk read fuel j = walk read n j := ih (by omega) (by omega)
      rw [walk_next fuel hr, walk_next n hr, hrest]

theorem items_stop (h : read i = none) : items read limit i = [] := walk_stop _ h

theorem Advances.items_next (h : Advances read limit) (hr : read i = some (b, j)) :
    items read limit i = b :: items read limit j := by
  have hlt := h.lt hr
  have hbound := h.bound hr
  have hfuel : items read limit i = walk read (limit - i - 1 + 1) i :=
    h.walk_congr (Nat.le_refl _) (by omega)
  rw [hfuel, walk_next _ hr]
  congr 1
  exact h.walk_congr (by omega) (Nat.le_refl _)

theorem Advances.items_stride (h : Advances read limit) {n d : Nat} {f : Nat → β}
    (hnext : ∀ k < n, read (i + d * k) = some (f k, i + d * (k + 1)))
    (hstop : read (i + d * n) = none) : items read limit i = (List.range n).map f := by
  induction n generalizing i f with
  | zero => exact items_stop (by simpa using hstop)
  | succ n ih =>
    have hrest : items read limit (i + d) = (List.range n).map fun k => f (k + 1) := by
      have hshift : ∀ k, i + d * (k + 1) = i + d + d * k := fun k => by rw [Nat.mul_succ]; omega
      refine ih (fun k hk => ?_) (hshift n ▸ hstop)
      rw [← hshift, ← hshift]
      exact hnext (k + 1) (by omega)
    have hfirst : read i = some (f 0, i + d) := by simpa using hnext 0 (by omega)
    rw [h.items_next hfirst, hrest, List.range_succ_eq_map, List.map_cons, List.map_map]
    rfl

/-- A walk over records written one after the other: one item each, then whatever
is read of the rest. -/
theorem Advances.items_flatMap (h : Advances read limit) (enc : α → List γ) {f : Nat → α → β}
    {xs : List α} (pre post : List γ)
    (hread : ∀ a x (ys : List α), x ∈ xs →
      pre ++ (xs.flatMap enc ++ post) = a ++ (enc x ++ (ys.flatMap enc ++ post)) →
      read a.length = some (f a.length x, a.length + (enc x).length)) :
    items read limit pre.length =
      ((layout (fun x => (enc x).length) pre.length xs).map fun p => f p.1 p.2) ++
        items read limit (pre.length + (xs.flatMap enc).length) := by
  induction xs generalizing pre with
  | nil => simp [layout]
  | cons x xs ih =>
    have hassoc : pre ++ ((x :: xs).flatMap enc ++ post) =
        pre ++ (enc x ++ (xs.flatMap enc ++ post)) := by simp
    have hfirst := hread pre x xs List.mem_cons_self hassoc
    have hrest := ih (pre ++ enc x) fun a y ys hy heq =>
      hread a y ys (List.mem_cons_of_mem x hy) (by rw [hassoc, ← List.append_assoc, heq])
    rw [List.length_append] at hrest
    rw [h.items_next hfirst, hrest, layout, List.map_cons, List.flatMap_cons, List.length_append,
      Nat.add_assoc, List.cons_append]

theorem map_layout {size : α → Nat} (i : Nat) (g : α → β) (xs : List α) :
    ((layout size i xs).map fun p => g p.2) = xs.map g := by
  induction xs generalizing i with
  | nil => rfl
  | cons x xs ih => rw [layout, List.map_cons, List.map_cons, ih]

theorem mem_of_mem_layout {size : α → Nat} {i : Nat} {xs : List α} {p : Nat × α}
    (hp : p ∈ layout size i xs) : p.2 ∈ xs := by
  have hmap := List.mem_map_of_mem (f := fun p : Nat × α => p.2) hp
  rwa [map_layout i (fun x => x), List.map_id'] at hmap

theorem exists_split_of_mem_layout {enc : α → List γ} {xs : List α} {pre : List γ} (post : List γ)
    {p : Nat × α} (hp : p ∈ layout (fun x => (enc x).length) pre.length xs) :
    ∃ a b, a.length = p.1 ∧ pre ++ (xs.flatMap enc ++ post) = a ++ (enc p.2 ++ b) := by
  induction xs generalizing pre with
  | nil => cases hp
  | cons x xs ih =>
    have hassoc : pre ++ ((x :: xs).flatMap enc ++ post) =
        pre ++ (enc x ++ (xs.flatMap enc ++ post)) := by simp
    rcases List.mem_cons.mp hp with rfl | hp
    · exact ⟨pre, _, rfl, hassoc⟩
    · have hp' : p ∈ layout (fun x => (enc x).length) (pre ++ enc x).length xs := by
        rwa [List.length_append]
      obtain ⟨a, b, ha, heq⟩ := ih hp'
      exact ⟨a, b, ha, by rw [hassoc, ← List.append_assoc, heq]⟩

theorem layout_append (enc : α → List γ) (i : Nat) (xs ys : List α) :
    layout (fun x => (enc x).length) i (xs ++ ys) =
      layout (fun x => (enc x).length) i xs ++
        layout (fun x => (enc x).length) (i + (xs.flatMap enc).length) ys := by
  induction xs generalizing i with
  | nil => rfl
  | cons x xs ih =>
    rw [List.cons_append, layout, ih, layout, List.cons_append, List.flatMap_cons,
      List.length_append, Nat.add_assoc]

/-- What holds of every item read where a condition on the offset holds, and each read keeps
the condition, holds of the items of a walk. -/
theorem forall_mem_items_of_inv {P : β → Prop} {Q : Nat → Prop}
    (h : ∀ i b j, Q i → read i = some (b, j) → P b ∧ Q j) (hi : Q i) :
    ∀ b ∈ items read limit i, P b := by
  unfold items
  generalize limit - i = fuel
  induction fuel generalizing i with
  | zero => simp [walk]
  | succ fuel ih =>
    cases hr : read i with
    | none => simp [walk_stop _ hr]
    | some p =>
      obtain ⟨hp, hj⟩ := h i p.1 p.2 hi hr
      rw [walk_next fuel hr]
      simpa [hp] using ih hj

theorem forall_mem_items {P : β → Prop} (h : ∀ i b j, read i = some (b, j) → P b) :
    ∀ b ∈ items read limit i, P b :=
  forall_mem_items_of_inv (Q := fun _ => True) (fun i b j _ hr => ⟨h i b j hr, trivial⟩) trivial

theorem Advances.forall_mem_items_from (h : Advances read limit) {P : β → Prop} {start : Nat}
    (hread : ∀ i b j, start ≤ i → read i = some (b, j) → P b) (hi : start ≤ i) :
    ∀ b ∈ items read limit i, P b :=
  forall_mem_items_of_inv (Q := fun i => start ≤ i) (fun i b j hstart hr =>
    ⟨hread i b j hstart hr, Nat.le_trans hstart (Nat.le_of_lt (h.lt hr))⟩) hi

end

end LightLivechat.Lib.Walk
