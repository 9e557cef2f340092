import Mathlib.Data.Set.Insert

/-!
# Steps at keys

A state is a function of keys.  Each position of some set has a key and a step, and what is to be
shown of an algorithm is that it takes the step of each position once, at its key, in whatever order
and however the steps are put together.  `Stepped` says this of two states; positions with different
keys can be handled one set after the other (`Stepped.trans`), and what comes out is determined
(`Stepped.unique`).
-/

namespace Pointwise

variable {ι κ σ : Type*}

/-- The step of each position has been taken at its key, and nothing else has changed. -/
structure Stepped (key : ι → κ) (step : ι → σ → σ) (A : Set ι) (s s' : κ → σ) : Prop where
  on : ∀ k ∈ A, s' (key k) = step k (s (key k))
  off : ∀ x, (∀ k ∈ A, key k ≠ x) → s' x = s x

variable {key : ι → κ} {step step' : ι → σ → σ} {A B : Set ι} {s s' s'' : κ → σ}

theorem Stepped.of_empty (hA : ∀ k, k ∉ A) : Stepped key step A s s :=
  ⟨fun k hk => absurd hk (hA k), fun _ _ => rfl⟩

/-- The same positions, with the same steps. -/
theorem Stepped.congr (h : Stepped key step A s s') (hAB : ∀ k, k ∈ B ↔ k ∈ A)
    (hstep : ∀ k ∈ A, step' k = step k) : Stepped key step' B s s' where
  on k hk := by
    have hA := (hAB k).mp hk
    rw [hstep k hA]
    exact h.on k hA
  off x hx := h.off x fun k hk => hx k ((hAB k).mpr hk)

/-- Two sets of positions with different keys, one after the other. -/
theorem Stepped.trans (h : Stepped key step A s s') (h' : Stepped key step B s' s'')
    (hne : ∀ a ∈ A, ∀ b ∈ B, key a ≠ key b) : Stepped key step (A ∪ B) s s'' where
  on k hk := by
    rcases hk with hk | hk
    · rw [h'.off _ fun b hb => (hne k hk b hb).symm, h.on k hk]
    · rw [h'.on k hk, h.off _ fun a ha => hne a ha k hk]
  off x hx := by
    rw [h'.off x fun b hb => hx b (.inr hb), h.off x fun a ha => hx a (.inl ha)]

theorem Stepped.unique (h : Stepped key step A s s') (h' : Stepped key step A s s'') :
    s' = s'' := by
  funext x
  by_cases hx : ∀ k ∈ A, key k ≠ x
  · rw [h.off x hx, h'.off x hx]
  · obtain ⟨k, hk, rfl⟩ : ∃ k ∈ A, key k = x := by
      simpa using hx
    rw [h.on k hk, h'.on k hk]

theorem stepped_update [DecidableEq κ] (key : ι → κ) (step : ι → σ → σ) (s : κ → σ) (k : ι) :
    Stepped key step {k} s (Function.update s (key k) (step k (s (key k)))) where
  on j hj := by
    rw [Set.mem_singleton_iff.mp hj, Function.update_self]
  off x hx := Function.update_of_ne (hx k rfl).symm _ _

end Pointwise
