/-! What has happened and what has not happened since, in a list of events with the
oldest first. -/

namespace LightLivechat.Lib.Histories

universe u

variable {α : Type u}

/-- `P` has happened, and `Q` has not happened since. -/
def Since (P Q : α → Prop) (log : List α) : Prop :=
  ∃ a x b, log = a ++ x :: b ∧ P x ∧ ∀ y ∈ b, ¬ Q y

/-- `R` relates every event to those before it. -/
def Each (R : List α → α → Prop) (log : List α) : Prop :=
  ∀ a x b, log = a ++ x :: b → R a x

section

variable {P Q : α → Prop} {R : List α → α → Prop} {log : List α} {e : α}

theorem split_snoc {a b : List α} {x : α} : log ++ [e] = a ++ x :: b ↔
    a = log ∧ x = e ∧ b = [] ∨ ∃ b', log = a ++ x :: b' ∧ b = b' ++ [e] := by
  constructor
  · intro heq
    rcases List.eq_nil_or_concat b with rfl | ⟨b, y, rfl⟩
    · obtain ⟨rfl, he⟩ := List.append_inj' heq rfl
      exact .inl ⟨rfl, (List.cons.inj he).1.symm, rfl⟩
    · rw [List.concat_eq_append, ← List.cons_append, ← List.append_assoc] at heq
      obtain ⟨hlog, he⟩ := List.append_inj' heq rfl
      cases he
      exact .inr ⟨b, hlog, List.concat_eq_append⟩
  · rintro (⟨rfl, rfl, rfl⟩ | ⟨b', rfl, rfl⟩)
    · rfl
    · simp

theorem not_since_nil : ¬ Since P Q ([] : List α) := by
  rintro ⟨a, x, b, heq, -⟩
  simp at heq

theorem since_snoc : Since P Q (log ++ [e]) ↔ P e ∨ Since P Q log ∧ ¬ Q e := by
  constructor
  · rintro ⟨a, x, b, heq, hx, hb⟩
    rcases split_snoc.mp heq with ⟨rfl, rfl, rfl⟩ | ⟨b', hlog, rfl⟩
    · exact .inl hx
    · rw [List.forall_mem_append] at hb
      exact .inr ⟨⟨a, x, b', hlog, hx, hb.1⟩, by simpa using hb.2⟩
  · rintro (he | ⟨⟨a, x, b, rfl, hx, hb⟩, he⟩)
    · exact ⟨log, e, [], rfl, he, by simp⟩
    · exact ⟨a, x, b ++ [e], by simp, hx, List.forall_mem_append.mpr ⟨hb, by simpa using he⟩⟩

theorem each_nil : Each R ([] : List α) := by
  intro a x b heq
  simp at heq

theorem each_snoc : Each R (log ++ [e]) ↔ Each R log ∧ R log e := by
  constructor
  · exact fun h => ⟨fun a x b heq => h a x (b ++ [e]) (by simp [heq]), h log e [] rfl⟩
  · rintro ⟨h, he⟩ a x b heq
    rcases split_snoc.mp heq with ⟨rfl, rfl, -⟩ | ⟨b', hlog, -⟩
    · exact he
    · exact h a x b' hlog

end

end LightLivechat.Lib.Histories
