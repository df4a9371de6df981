import LightLivechat.Lib.Components

/-! A party that hears what a system puts out.  If it makes of every step's output what the
step meant, it makes of a run's output what the run meant. -/

namespace LightLivechat.Lib.Runs

universe u v w x y

variable {σ : Type u} {α : Type v} {β : Type w} {τ : Type x} {γ : Type y}

/-- What a party makes of what it hears, one thing after the other. -/
def hear (recv : τ → β → τ × List γ) : τ → List β → τ × List γ
  | t, [] => (t, [])
  | t, b :: bs =>
    let (t, made) := recv t b
    let (t, rest) := hear recv t bs
    (t, made ++ rest)

section

variable {recv : τ → β → τ × List γ} {step : σ → α → Option σ} {wire : σ → α → List β}
variable {meant : σ → α → List γ} {I : σ → τ → Prop} {s s' : σ} {t : τ} {as : List α}

@[simp] theorem hear_nil (t : τ) : hear recv t [] = (t, []) := rfl

@[simp] theorem hear_singleton (t : τ) (b : β) : hear recv t [b] = recv t b := by
  simp [hear]

theorem hear_append (t : τ) (bs bs' : List β) : hear recv t (bs ++ bs') =
    ((hear recv (hear recv t bs).1 bs').1, (hear recv t bs).2 ++ (hear recv (hear recv t bs).1 bs').2) := by
  induction bs generalizing t with
  | nil => simp
  | cons b bs ih => simp only [List.cons_append, hear, ih, List.append_assoc]

theorem hear_run (hstep : ∀ s a s' t, I s t → step s a = some s' →
      I s' (hear recv t (wire s a)).1 ∧ (hear recv t (wire s a)).2 = meant s a)
    (hI : I s t) (h : run step s as = some s') :
    I s' (hear recv t (outputs step wire s as)).1 ∧
      (hear recv t (outputs step wire s as)).2 = outputs step meant s as := by
  induction as generalizing s t with
  | nil =>
    cases h
    exact ⟨hI, rfl⟩
  | cons a as ih =>
    obtain ⟨s₁, hs, hr⟩ := run_cons_some h
    obtain ⟨hI', hmade⟩ := hstep s a s₁ t hI hs
    obtain ⟨hlast, hrest⟩ := ih hI' hr
    rw [outputs_step hs, outputs_step hs, hear_append]
    exact ⟨hlast, by rw [hmade, hrest]⟩

end

end LightLivechat.Lib.Runs
