import LightLivechat.Lib.Runs

/-! Components of a system.  What the steps of a run put out is collected in order; a
part of the state that every step changes by operations of its own is, at the end of the
run, what the collected operations make of it. -/

namespace LightLivechat.Lib.Runs

universe u v w

variable {σ : Type u} {α : Type v} {β : Type w}

/-- What the steps along a run put out, oldest first. -/
def outputs (step : σ → α → Option σ) (f : σ → α → List β) : σ → List α → List β
  | _, [] => []
  | s, a :: as =>
    f s a ++ match step s a with
      | some s' => outputs step f s' as
      | none => []

/-- Some step along the run is taken where `Q` holds of it. -/
def Happened (step : σ → α → Option σ) (Q : σ → α → Prop) (s : σ) (as : List α) : Prop :=
  ∃ before a after s', as = before ++ a :: after ∧ run step s before = some s' ∧ Q s' a

section

variable {step : σ → α → Option σ} {f : σ → α → List β} {Q Q' : σ → α → Prop}
variable {s s' t t' : σ} {a : α} {as bs : List α} {b : β}

theorem run_append (h : run step s as = some t) : run step s (as ++ bs) = run step t bs := by
  induction as generalizing s with
  | nil =>
    cases h
    rfl
  | cons a as ih =>
    obtain ⟨s', hs, hr⟩ := run_cons_some h
    rw [List.cons_append, run_step hs]
    exact ih hr

theorem run_snoc (h : run step s as = some t) (ha : step t a = some t') :
    run step s (as ++ [a]) = some t' := by
  rw [run_append h, run_step ha]
  rfl

theorem outputs_step (hs : step s a = some s') (as : List α) :
    outputs step f s (a :: as) = f s a ++ outputs step f s' as := by
  rw [outputs, hs]

theorem outputs_append (h : run step s as = some t) :
    outputs step f s (as ++ bs) = outputs step f s as ++ outputs step f t bs := by
  induction as generalizing s with
  | nil =>
    cases h
    rfl
  | cons a as ih =>
    obtain ⟨s', hs, hr⟩ := run_cons_some h
    rw [List.cons_append, outputs_step hs, outputs_step hs, ih hr, List.append_assoc]

theorem outputs_snoc (h : run step s as = some t) :
    outputs step f s (as ++ [a]) = outputs step f s as ++ f t a := by
  rw [outputs_append h, outputs]
  cases step t a <;> simp [outputs]

theorem outputs_flatMap {γ : Type w} (g : β → List γ) :
    (outputs step f s as).flatMap g = outputs step (fun s a => (f s a).flatMap g) s as := by
  induction as generalizing s with
  | nil => rfl
  | cons a as ih =>
    rw [outputs, outputs, List.flatMap_append]
    cases step s a with
    | none => rfl
    | some s' => exact congrArg _ ih

theorem outputs_sublist {g : σ → α → List β} (hsub : ∀ s a, (f s a).Sublist (g s a)) :
    (outputs step f s as).Sublist (outputs step g s as) := by
  induction as generalizing s with
  | nil => exact .refl _
  | cons a as ih =>
    rw [outputs, outputs]
    refine (hsub s a).append ?_
    cases step s a with
    | none => exact .refl _
    | some s' => exact ih

theorem Happened.append (h : Happened step Q s as) (bs : List α) :
    Happened step Q s (as ++ bs) := by
  obtain ⟨before, a, after, s', rfl, hrun, hQ⟩ := h
  exact ⟨before, a, after ++ bs, s', by simp, hrun, hQ⟩

theorem Happened.here (h : run step s as = some t) (hQ : Q t a) :
    Happened step Q s (as ++ [a]) := ⟨as, a, [], t, rfl, h, hQ⟩

theorem Happened.imp (himp : ∀ s a, Q s a → Q' s a) (h : Happened step Q s as) :
    Happened step Q' s as := by
  obtain ⟨before, a, after, s', heq, hrun, hQ⟩ := h
  exact ⟨before, a, after, s', heq, hrun, himp s' a hQ⟩

/-- Induction along a run from its start, with the labels taken so far at hand. -/
theorem run_induction {P : List α → σ → Prop} (hinit : P [] s)
    (hstep : ∀ as t a t', run step s as = some t → P as t → step t a = some t' → P (as ++ [a]) t')
    (h : run step s as = some t) : P as t := by
  have hinv : ∀ pre t, run step s pre = some t → P pre t → ∀ as u, run step t as = some u →
      P (pre ++ as) u := by
    intro pre t hpre hP as
    induction as generalizing pre t with
    | nil =>
      rintro u ⟨⟩
      rwa [List.append_nil]
    | cons a as ih =>
      intro u hu
      obtain ⟨t', hs, hr⟩ := run_cons_some hu
      rw [List.append_cons]
      exact ih (pre ++ [a]) t' (run_snoc hpre hs) (hstep pre t a t' hpre hP hs) u hr
  exact hinv [] s rfl hinit as t h

theorem component {γ : Type w} {I : σ → Prop} {g : σ → γ} {op : γ → β → γ}
    (hstep : ∀ s a s', I s → step s a = some s' → I s' ∧ g s' = (f s a).foldl op (g s))
    (hI : I s) (h : run step s as = some t) : g t = (outputs step f s as).foldl op (g s) := by
  induction as generalizing s with
  | nil =>
    cases h
    rfl
  | cons a as ih =>
    obtain ⟨s', hs, hr⟩ := run_cons_some h
    obtain ⟨hI', hg⟩ := hstep s a s' hI hs
    rw [outputs_step hs, List.foldl_append, ← hg]
    exact ih hI' hr

end

section

variable {γ : Type w} {step : σ → α → σ} {xs : List α}

theorem foldl_sent {sent : σ → List β} {out : σ → α → List β}
    (hsent : ∀ s x, sent (step s x) = sent s ++ out s x)
    (hout : ∀ s x y, y ≠ x → out (step s x) y = out s y) (hnd : xs.Nodup) (s : σ) :
    sent (xs.foldl step s) = sent s ++ xs.flatMap (out s) := by
  induction xs generalizing s with
  | nil => simp
  | cons x xs ih =>
    obtain ⟨hx, hnd⟩ := List.nodup_cons.mp hnd
    have hrest : xs.map (out (step s x)) = xs.map (out s) :=
      List.map_congr_left fun y hy => hout s x y fun heq => hx (heq ▸ hy)
    rw [List.foldl_cons, ih hnd, hsent, List.flatMap_cons, List.append_assoc, List.flatMap_def, hrest,
      List.flatMap_def]

/-- Each step has its effect at its own place, and that effect depends on nothing the
others change. -/
theorem foldl_apply [DecidableEq α] {get new : σ → α → γ}
    (hself : ∀ s x, get (step s x) x = new s x)
    (hget : ∀ s x y, y ≠ x → get (step s x) y = get s y)
    (hnew : ∀ s x y, y ≠ x → new (step s x) y = new s y) (hnd : xs.Nodup) (s : σ) (y : α) :
    get (xs.foldl step s) y = if y ∈ xs then new s y else get s y := by
  induction xs generalizing s with
  | nil => simp
  | cons x xs ih =>
    obtain ⟨hx, hnd⟩ := List.nodup_cons.mp hnd
    rw [List.foldl_cons, ih hnd]
    by_cases hy : y = x
    · subst hy
      rw [if_neg hx, if_pos List.mem_cons_self, hself]
    · rw [hget s x y hy, hnew s x y hy]
      simp [hy]

end

end LightLivechat.Lib.Runs
