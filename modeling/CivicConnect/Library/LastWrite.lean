import CivicConnect.Library.Machine

/-!
# Last writes

A view of the state of a machine that every input either sets or leaves alone.
After a run the view is what the last input that set it has written.
-/

universe u v w x

namespace LastWrite

variable {σ : Type u} {ι : Type v} {ο : Type w} {υ : Type x}

/-- Each step sets the view to what its input writes, and keeps it otherwise. -/
def Written (step : σ → ι → σ × ο) (view : σ → υ) (writes : σ → ι → Option υ) : Prop :=
  ∀ s i, view (step s i).1 = (writes s i).getD (view s)

/-- No input of the run writes. -/
def Silent (step : σ → ι → σ × ο) (writes : σ → ι → Option υ) (s : σ) (is : List ι) : Prop :=
  ∀ before i after, is = before ++ i :: after → writes (Machine.final step s before) i = none

/-- The last input of the run that writes, writes `v`. -/
def Last (step : σ → ι → σ × ο) (writes : σ → ι → Option υ) (s : σ) (is : List ι) (v : υ) :
    Prop :=
  ∃ before i after, is = before ++ i :: after ∧
    writes (Machine.final step s before) i = some v ∧
      Silent step writes (Machine.final step s (before ++ [i])) after

variable {step : σ → ι → σ × ο} {view : σ → υ} {writes : σ → ι → Option υ} {s : σ} {i : ι}
  {is : List ι} {v : υ}

theorem silent_nil : Silent step writes s [] := by
  intro before i after heq
  exact absurd heq.symm (List.append_ne_nil_of_right_ne_nil before (List.cons_ne_nil i after))

/-- Where an element of a list that ends in `x` can stand. -/
theorem append_singleton_eq_iff {xs before after : List ι} {x y : ι} :
    xs ++ [x] = before ++ y :: after ↔
      (before = xs ∧ y = x ∧ after = []) ∨
        ∃ rest, after = rest ++ [x] ∧ xs = before ++ y :: rest := by
  constructor
  · intro h
    cases after using List.reverseRecOn with
    | nil =>
        obtain ⟨rfl, hlast⟩ := List.append_inj' h rfl
        exact Or.inl ⟨rfl, (List.singleton_inj.mp hlast).symm, rfl⟩
    | append_singleton rest last =>
        rw [← List.cons_append, ← List.append_assoc] at h
        obtain ⟨rfl, hlast⟩ := List.append_inj' h rfl
        exact Or.inr ⟨rest, by rw [List.singleton_inj.mp hlast], rfl⟩
  · rintro (⟨rfl, rfl, rfl⟩ | ⟨rest, rfl, rfl⟩)
    · rfl
    · rw [List.append_assoc, List.cons_append]

theorem silent_append_singleton_iff : Silent step writes s (is ++ [i]) ↔
    Silent step writes s is ∧ writes (Machine.final step s is) i = none := by
  constructor
  · intro h
    constructor
    · intro before j after heq
      exact h before j (after ++ [i]) (append_singleton_eq_iff.mpr (Or.inr ⟨after, rfl, heq⟩))
    · exact h is i [] rfl
  · rintro ⟨hbefore, hlast⟩ before j after heq
    rcases append_singleton_eq_iff.mp heq with ⟨rfl, rfl, _⟩ | ⟨rest, _, heq⟩
    · exact hlast
    · exact hbefore before j rest heq

/-- An input that writes has the last word, any other leaves it as it was. -/
theorem last_append_singleton_iff : Last step writes s (is ++ [i]) v ↔
    writes (Machine.final step s is) i = some v ∨
      Last step writes s is v ∧ writes (Machine.final step s is) i = none := by
  have hfinal : ∀ before j rest, is = before ++ j :: rest →
      Machine.final step (Machine.final step s (before ++ [j])) rest = Machine.final step s is := by
    rintro before j rest rfl
    rw [← Machine.final_append, List.append_assoc, List.singleton_append]
  constructor
  · rintro ⟨before, j, after, heq, hwrite, hsilent⟩
    rcases append_singleton_eq_iff.mp heq with ⟨rfl, rfl, _⟩ | ⟨rest, rfl, hsplit⟩
    · exact Or.inl hwrite
    · obtain ⟨hrest, hlast⟩ := silent_append_singleton_iff.mp hsilent
      rw [hfinal before j rest hsplit] at hlast
      exact Or.inr ⟨⟨before, j, rest, hsplit, hwrite, hrest⟩, hlast⟩
  · rintro (hwrite | ⟨⟨before, j, rest, heq, hwrite, hsilent⟩, hlast⟩)
    · exact ⟨is, i, [], rfl, hwrite, silent_nil⟩
    · rw [← hfinal before j rest heq] at hlast
      refine ⟨before, j, rest ++ [i], ?_, hwrite, silent_append_singleton_iff.mpr ⟨hsilent, hlast⟩⟩
      exact append_singleton_eq_iff.mpr (Or.inr ⟨rest, rfl, heq⟩)

/-- The view after a run is what was written last, or what it was. -/
theorem Written.view_final_iff (h : Written step view writes) (s : σ) (is : List ι) (v : υ) :
    view (Machine.final step s is) = v ↔
      Last step writes s is v ∨ view s = v ∧ Silent step writes s is := by
  induction is using List.reverseRecOn with
  | nil =>
      constructor
      · intro hview
        exact Or.inr ⟨hview, silent_nil⟩
      · rintro (⟨before, i, after, heq, _⟩ | ⟨hview, _⟩)
        · exact absurd heq.symm
            (List.append_ne_nil_of_right_ne_nil before (List.cons_ne_nil i after))
        · exact hview
  | append_singleton is i ih =>
      rw [last_append_singleton_iff, silent_append_singleton_iff, Machine.final_append]
      have hstep : view (Machine.final step (Machine.final step s is) [i]) =
          (writes (Machine.final step s is) i).getD (view (Machine.final step s is)) :=
        h (Machine.final step s is) i
      rw [hstep]
      cases hwrite : writes (Machine.final step s is) i with
      | none => simpa using ih
      | some w => simp

end LastWrite
