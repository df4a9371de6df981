/-! Runs of a labelled step function.  `step s a = none` says that `a` is not
enabled in `s`; a run is the list of labels it takes, oldest first. -/

namespace LightLivechat.Lib.Runs

universe u v

variable {σ : Type u} {α : Type v}

def run (step : σ → α → Option σ) : σ → List α → Option σ
  | s, [] => some s
  | s, a :: as => (step s a).bind fun s' => run step s' as

/-- Every step taken along `as` from `s` satisfies `G` in the state it leaves. -/
def Along (step : σ → α → Option σ) (G : σ → α → Prop) : σ → List α → Prop
  | _, [] => True
  | s, a :: as => G s a ∧ ∀ s', step s a = some s' → Along step G s' as

/-- Every state along `as` from `s` satisfies `P`, the first and the last included. -/
def Always (step : σ → α → Option σ) (P : σ → Prop) : σ → List α → Prop
  | s, [] => P s
  | s, a :: as => P s ∧ ∀ s', step s a = some s' → Always step P s' as

instance Along.decide {step : σ → α → Option σ} {G : σ → α → Prop} [∀ s a, Decidable (G s a)] :
    (s : σ) → (as : List α) → Decidable (Along step G s as)
  | _, [] => isTrue trivial
  | s, a :: as =>
    match hs : step s a with
    | none =>
      decidable_of_iff (G s a) ⟨fun h => ⟨h, fun s' hs' => by simp [hs] at hs'⟩, fun h => h.1⟩
    | some s' =>
      have : Decidable (Along step G s' as) := Along.decide s' as
      decidable_of_iff (G s a ∧ Along step G s' as)
        ⟨fun h => ⟨h.1, fun t ht => Option.some.inj (hs.symm.trans ht) ▸ h.2⟩,
          fun h => ⟨h.1, h.2 s' hs⟩⟩

section

variable {step : σ → α → Option σ} {G : σ → α → Prop}

theorem run_cons (s : σ) (a : α) (as : List α) :
    run step s (a :: as) = (step s a).bind fun s' => run step s' as := rfl

theorem run_step {s s' : σ} {a : α} (h : step s a = some s') (as : List α) :
    run step s (a :: as) = run step s' as := by rw [run_cons, h, Option.bind_some]

theorem run_cons_some {s t : σ} {a : α} {as : List α} (h : run step s (a :: as) = some t) :
    ∃ s', step s a = some s' ∧ run step s' as = some t := Option.bind_eq_some_iff.mp h

theorem Along.head {s : σ} {a : α} {as : List α} (h : Along step G s (a :: as)) : G s a := h.1

theorem Along.tail {s s' : σ} {a : α} {as : List α} (h : Along step G s (a :: as))
    (hs : step s a = some s') : Along step G s' as := h.2 s' hs

theorem Along.of_forall (h : ∀ s a, G s a) (s : σ) (as : List α) : Along step G s as := by
  induction as generalizing s with
  | nil => trivial
  | cons a as ih => exact ⟨h s a, fun s' _ => ih s'⟩

theorem Along.imp_of_inv {I : σ → Prop} {G' : σ → α → Prop}
    (hstep : ∀ s a s', I s → step s a = some s' → I s') (himp : ∀ s a, I s → G s a → G' s a)
    {s : σ} {as : List α} (hI : I s) (h : Along step G s as) : Along step G' s as := by
  induction as generalizing s with
  | nil => trivial
  | cons a as ih => exact ⟨himp s a hI h.head, fun s' hs => ih (hstep s a s' hI hs) (h.tail hs)⟩

theorem Along.imp {G' : σ → α → Prop} (himp : ∀ s a, G s a → G' s a) {s : σ} {as : List α}
    (h : Along step G s as) : Along step G' s as :=
  h.imp_of_inv (I := fun _ => True) (fun _ _ _ _ _ => trivial) (fun s a _ => himp s a) trivial

theorem along_append {s : σ} {as bs : List α} :
    Along step G s (as ++ bs) ↔
      Along step G s as ∧ ∀ t, run step s as = some t → Along step G t bs := by
  induction as generalizing s with
  | nil => exact ⟨fun h => ⟨trivial, fun t ht => Option.some.inj ht ▸ h⟩, fun h => h.2 s rfl⟩
  | cons a as ih =>
    constructor
    · intro h
      refine ⟨⟨h.head, fun s' hs => (ih.mp (h.tail hs)).1⟩, fun t ht => ?_⟩
      obtain ⟨s', hs, hr⟩ := run_cons_some ht
      exact (ih.mp (h.tail hs)).2 t hr
    · rintro ⟨h, hrest⟩
      refine ⟨h.head, fun s' hs => ih.mpr ⟨h.tail hs, fun t ht => hrest t ?_⟩⟩
      rw [run_step hs]
      exact ht

/-- What every step that meets `G` keeps, every run whose steps meet `G` keeps. -/
theorem run_inv {P : σ → Prop} (hstep : ∀ s a s', P s → G s a → step s a = some s' → P s')
    {s t : σ} {as : List α} (hP : P s) (hG : Along step G s as) (hrun : run step s as = some t) :
    P t := by
  induction as generalizing s with
  | nil => exact Option.some.inj hrun ▸ hP
  | cons a as ih =>
    obtain ⟨s', hs, hr⟩ := run_cons_some hrun
    exact ih (hstep s a s' hP hG.head hs) (hG.tail hs) hr

/-- The same with the labels taken so far at hand: `P` relates a state to the
labels that led to it. -/
theorem run_inv_trace {P : List α → σ → Prop}
    (hstep : ∀ pre s a s', P pre s → G s a → step s a = some s' → P (pre ++ [a]) s')
    {s t : σ} {pre as : List α} (hP : P pre s) (hG : Along step G s as)
    (hrun : run step s as = some t) : P (pre ++ as) t := by
  induction as generalizing s pre with
  | nil => simpa using Option.some.inj hrun ▸ hP
  | cons a as ih =>
    obtain ⟨s', hs, hr⟩ := run_cons_some hrun
    simpa using ih (hstep pre s a s' hP hG.head hs) (hG.tail hs) hr

/-- Two guards that say the same of every step, under an invariant, say the same of a run. -/
theorem along_congr {I : σ → Prop} {G' : σ → α → Prop}
    (hstep : ∀ s a s', I s → step s a = some s' → I s' ∧ (G s a ↔ G' s a))
    {s t : σ} {as : List α} (hI : I s) (hrun : run step s as = some t) :
    Along step G s as ↔ Along step G' s as := by
  induction as generalizing s with
  | nil => exact Iff.rfl
  | cons a as ih =>
    obtain ⟨s', hs, hr⟩ := run_cons_some hrun
    obtain ⟨hI', hiff⟩ := hstep s a s' hI hs
    refine and_congr hiff (forall_congr' fun s'' => imp_congr_right fun hs'' => ?_)
    cases hs.symm.trans hs''
    exact ih hI' hr

theorem Always.head {P : σ → Prop} {s : σ} {as : List α} (h : Always step P s as) : P s := by
  cases as with
  | nil => exact h
  | cons a as => exact h.1

theorem Always.imp {P Q : σ → Prop} (himp : ∀ s, P s → Q s) {s : σ} {as : List α}
    (h : Always step P s as) : Always step Q s as := by
  induction as generalizing s with
  | nil => exact himp s h
  | cons a as ih => exact ⟨himp s h.1, fun s' hs => ih (h.2 s' hs)⟩

theorem Along.always {P : σ → Prop} (hstep : ∀ s a s', P s → G s a → step s a = some s' → P s')
    {s : σ} {as : List α} (hG : Along step G s as) (hP : P s) : Always step P s as := by
  induction as generalizing s with
  | nil => exact hP
  | cons a as ih => exact ⟨hP, fun s' hs => ih (hG.tail hs) (hstep s a s' hP hG.head hs)⟩

/-- If, under an invariant, a step keeps `P` just when it meets `G`, then a run stays in
`P` just when its steps meet `G`. -/
theorem always_iff_along {I P : σ → Prop}
    (hstep : ∀ s a s', I s → P s → step s a = some s' → I s' ∧ (P s' ↔ G s a))
    {s t : σ} {as : List α} (hI : I s) (hP : P s) (hrun : run step s as = some t) :
    Always step P s as ↔ Along step G s as := by
  induction as generalizing s with
  | nil => exact ⟨fun _ => trivial, fun _ => hP⟩
  | cons a as ih =>
    obtain ⟨s', hs, hr⟩ := run_cons_some hrun
    obtain ⟨hI', hiff⟩ := hstep s a s' hI hP hs
    constructor
    · intro h
      have hP' := (h.2 s' hs).head
      refine ⟨hiff.mp hP', fun s'' hs'' => ?_⟩
      cases hs.symm.trans hs''
      exact (ih hI' hP' hr).mp (h.2 s' hs)
    · intro h
      have hP' := hiff.mpr h.head
      refine ⟨hP, fun s'' hs'' => ?_⟩
      cases hs.symm.trans hs''
      exact (ih hI' hP' hr).mpr (h.tail hs)

end

end LightLivechat.Lib.Runs
