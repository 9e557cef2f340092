import RealtekIpcam.Lib.Runs

/-!
# Losses

What a component has taken in and not accounted for is a measure that only grows: an amount that is
lost stays lost.  So a stretch of a run loses nothing exactly if none of its parts does, and the
condition for the whole is the conjunction of the conditions for the parts.

`Loses I φ s t ok` says this of the stretch from `s` to `t`, for a measure `φ` and an invariant `I`:
the measure does not fall, and stays the same exactly if `ok`.  `lossless_iff` carries it to the
runs of a partial step function.
-/

namespace Losses

open Runs

variable {σ ε P : Type*} [PartialOrder P] {I : σ → Prop} {φ : σ → P} {s t u : σ} {ok ok' : Prop}

/-- From `s` to `t` the invariant is kept, and the measure grows unless `ok`. -/
def Loses (I : σ → Prop) (φ : σ → P) (s t : σ) (ok : Prop) : Prop :=
  I s → I t ∧ φ s ≤ φ t ∧ (φ t = φ s ↔ ok)

theorem Loses.refl (s : σ) : Loses I φ s s True :=
  fun hs => ⟨hs, le_refl _, iff_of_true rfl trivial⟩

/-- A stretch that changes neither the measure nor the invariant. -/
theorem Loses.of_eq (hI : I s → I t) (hφ : φ t = φ s) : Loses I φ s t True :=
  fun hs => ⟨hI hs, le_of_eq hφ.symm, iff_of_true hφ trivial⟩

theorem Loses.congr (h : Loses I φ s t ok) (hok : I s → (ok ↔ ok')) : Loses I φ s t ok' := by
  intro hs
  obtain ⟨ht, hle, hiff⟩ := h hs
  exact ⟨ht, hle, hiff.trans (hok hs)⟩

/-- **Two stretches lose nothing if neither does.** -/
theorem Loses.trans (h : Loses I φ s t ok) (h' : Loses I φ t u ok') :
    Loses I φ s u (ok ∧ ok') := by
  intro hs
  obtain ⟨ht, hle, hiff⟩ := h hs
  obtain ⟨hu, hle', hiff'⟩ := h' ht
  refine ⟨hu, le_trans hle hle', ?_⟩
  rw [← hiff, ← hiff']
  constructor
  · intro heq
    have hts : φ t = φ s := le_antisymm (heq ▸ hle') hle
    exact ⟨hts, heq.trans hts.symm⟩
  · exact fun hboth => hboth.2.trans hboth.1

/-- After, or before, a stretch that loses nothing. -/
theorem Loses.trans_free (h : Loses I φ s t ok) (h' : Loses I φ t u True) : Loses I φ s u ok :=
  (h.trans h').congr fun _ => and_iff_left trivial

theorem Loses.free_trans (h : Loses I φ s t True) (h' : Loses I φ t u ok) : Loses I φ s u ok :=
  (h.trans h').congr fun _ => and_iff_right trivial

/-- **Lossless runs.**  The measure is the same in every state that a run reaches exactly if every
step of it meets the condition under which that step loses nothing. -/
theorem lossless_iff {step : σ → ε → Option σ} {C : σ → ε → Prop}
    (hstep : ∀ s e t, step s e = some t → Loses I φ s t (C s e))
    (hnone : ∀ s e, step s e = none → C s e) {es : List ε} (hs : I s) :
    (∀ es₁ es₂ t, es = es₁ ++ es₂ → exec step s es₁ = some t → φ t = φ s) ↔
      Along step C s es := by
  have hkeep : ∀ u e t, I u ∧ φ u = φ s → (∀ t, step u e = some t → φ t = φ s) →
      step u e = some t → I t ∧ φ t = φ s :=
    fun u e t hu hall ht => ⟨(hstep u e t ht hu.1).1, hall t ht⟩
  have hcond : ∀ u e, I u ∧ φ u = φ s → ((∀ t, step u e = some t → φ t = φ s) ↔ C u e) := by
    intro u e hu
    cases hue : step u e with
    | none => exact iff_of_true nofun (hnone u e hue)
    | some t =>
      rw [← (hstep u e t hue hu.1).2.2, hu.2]
      exact ⟨fun h => h t rfl, fun h t' ht' => Option.some.inj ht' ▸ h⟩
  rw [forall_reached_iff]
  exact (and_iff_right rfl).trans (Along.congr hkeep hcond ⟨hs, rfl⟩)

end Losses
