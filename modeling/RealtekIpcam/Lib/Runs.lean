import Mathlib

/-!
# Runs of a partial step function

An event-driven component is a partial step function `step : σ → ε → Option σ`: `none` says that the
event cannot happen in that state.  A run is a list of events executed from the left, and what a
proof needs of runs is always the same two things: that they compose, and that a property kept by
every step is kept by the run.

The second comes in the form used for conditional guarantees.  `Along step C s es` says that every
step of the run from `s` meets a condition `C` on the state *before* the step and the event, and
`exec_invariant` carries an invariant through a run under such a condition.
-/

namespace Runs

variable {σ ε : Type*} (step : σ → ε → Option σ)

/-- Execute a list of events from a state; `none` as soon as one of them cannot happen. -/
def exec : σ → List ε → Option σ
  | s, [] => some s
  | s, e :: es => (step s e).bind fun t => exec t es

/-- Every step of the run from `s` meets the condition `C` in the state it starts from. -/
def Along (C : σ → ε → Prop) : σ → List ε → Prop
  | _, [] => True
  | s, e :: es => C s e ∧ ∀ t, step s e = some t → Along C t es

variable {step}

@[simp] theorem exec_nil (s : σ) : exec step s [] = some s := rfl

theorem exec_cons {s t : σ} {e : ε} {es : List ε} :
    exec step s (e :: es) = some t ↔ ∃ u, step s e = some u ∧ exec step u es = some t :=
  Option.bind_eq_some_iff

/-- A run of a concatenation is a run of the first part followed by a run of the second. -/
theorem exec_append {s t : σ} {es fs : List ε} :
    exec step s (es ++ fs) = some t ↔ ∃ u, exec step s es = some u ∧ exec step u fs = some t := by
  induction es generalizing s with
  | nil => simp
  | cons e es ih =>
    rw [List.cons_append, exec_cons]
    constructor
    · rintro ⟨v, hv, h⟩
      obtain ⟨u, hu, ht⟩ := ih.mp h
      exact ⟨u, exec_cons.mpr ⟨v, hv, hu⟩, ht⟩
    · rintro ⟨u, hu, ht⟩
      obtain ⟨v, hv, hvu⟩ := exec_cons.mp hu
      exact ⟨v, hv, ih.mpr ⟨u, hvu, ht⟩⟩

theorem exec_singleton {s t : σ} {e : ε} : exec step s [e] = some t ↔ step s e = some t := by
  rw [exec_cons]
  constructor
  · rintro ⟨u, hu, ht⟩
    rw [exec_nil, Option.some_inj] at ht
    rw [hu, ht]
  · exact fun h => ⟨t, h, rfl⟩

instance Along.decidable {C : σ → ε → Prop} [∀ s e, Decidable (C s e)] :
    ∀ (s : σ) (es : List ε), Decidable (Along step C s es)
  | _, [] => isTrue trivial
  | s, e :: es =>
    match h : step s e with
    | none => decidable_of_iff (C s e)
        ⟨fun hC => ⟨hC, fun t ht => by rw [h] at ht; cases ht⟩, fun hA => hA.1⟩
    | some t =>
      have : Decidable (Along step C t es) := Along.decidable t es
      decidable_of_iff (C s e ∧ Along step C t es)
        ⟨fun hA => ⟨hA.1, fun u hu => by rw [h] at hu; cases hu; exact hA.2⟩,
          fun hA => ⟨hA.1, hA.2 t h⟩⟩

/-- The condition splits over a concatenation. -/
theorem Along.append {C : σ → ε → Prop} {s : σ} {es fs : List ε} (h : Along step C s (es ++ fs)) :
    Along step C s es ∧ ∀ t, exec step s es = some t → Along step C t fs := by
  induction es generalizing s with
  | nil =>
    refine ⟨trivial, fun t ht => ?_⟩
    rw [exec_nil, Option.some_inj] at ht
    exact ht ▸ h
  | cons e es ih =>
    obtain ⟨hC, hrest⟩ := h
    refine ⟨⟨hC, fun t ht => (ih (hrest t ht)).1⟩, fun t ht => ?_⟩
    obtain ⟨u, hu, hut⟩ := exec_cons.mp ht
    exact (ih (hrest u hu)).2 t hut

/-- A weaker condition holds along a run that meets a stronger one. -/
theorem Along.mono {C D : σ → ε → Prop} (hCD : ∀ s e, C s e → D s e) {s : σ} {es : List ε}
    (h : Along step C s es) : Along step D s es := by
  induction es generalizing s with
  | nil => trivial
  | cons e es ih => exact ⟨hCD s e h.1, fun t ht => ih (h.2 t ht)⟩

theorem Along.of_forall {C : σ → ε → Prop} (hC : ∀ s e, C s e) {s : σ} {es : List ε} :
    Along step C s es := by
  induction es generalizing s with
  | nil => trivial
  | cons e es ih => exact ⟨hC s e, fun _ _ => ih⟩

theorem Along.of_mem {D : ε → Prop} {s : σ} {es : List ε} (hD : ∀ e ∈ es, D e) :
    Along step (fun _ e => D e) s es := by
  induction es generalizing s with
  | nil => trivial
  | cons e es ih =>
    exact ⟨hD e List.mem_cons_self, fun t _ => ih fun e' he' => hD e' (List.mem_cons_of_mem e he')⟩

/-- A condition on the events alone holds along every run of events that meet it. -/
theorem Along.and_mem {C : σ → ε → Prop} {D : ε → Prop} {s : σ} {es : List ε}
    (h : Along step C s es) (hD : ∀ e ∈ es, D e) : Along step (fun s e => D e ∧ C s e) s es := by
  induction es generalizing s with
  | nil => trivial
  | cons e es ih =>
    exact ⟨⟨hD e List.mem_cons_self, h.1⟩,
      fun t ht => ih (h.2 t ht) fun e' he' => hD e' (List.mem_cons_of_mem e he')⟩

/-- What an invariant and a condition give at a step, they give along the run. -/
theorem Along.of_invariant {P : σ → Prop} {C D : σ → ε → Prop}
    (hstep : ∀ s e t, P s → C s e → step s e = some t → P t) (hD : ∀ s e, P s → C s e → D s e)
    {s : σ} {es : List ε} (hs : P s) (hC : Along step C s es) : Along step D s es := by
  induction es generalizing s with
  | nil => trivial
  | cons e es ih => exact ⟨hD s e hs hC.1, fun t ht => ih (hstep s e t hs hC.1 ht) (hC.2 t ht)⟩

/-- Two conditions that say the same under an invariant, which the steps meeting them keep. -/
theorem Along.congr {P : σ → Prop} {C D : σ → ε → Prop}
    (hstep : ∀ s e t, P s → C s e → step s e = some t → P t)
    (hCD : ∀ s e, P s → (C s e ↔ D s e)) {s : σ} {es : List ε} (hs : P s) :
    Along step C s es ↔ Along step D s es := by
  constructor
  · exact Along.of_invariant hstep (fun s e hs => (hCD s e hs).mp) hs
  · have hstep' : ∀ s e t, P s → D s e → step s e = some t → P t := by
      intro s e t hs hD
      exact hstep s e t hs ((hCD s e hs).mpr hD)
    exact Along.of_invariant hstep' (fun s e hs => (hCD s e hs).mpr) hs

theorem along_and {C D : σ → ε → Prop} {s : σ} {es : List ε} :
    Along step C s es ∧ Along step D s es ↔ Along step (fun s e => C s e ∧ D s e) s es := by
  induction es generalizing s with
  | nil => exact ⟨fun _ => trivial, fun _ => ⟨trivial, trivial⟩⟩
  | cons e es ih =>
    constructor
    · rintro ⟨⟨hC, hCs⟩, hD, hDs⟩
      exact ⟨⟨hC, hD⟩, fun t ht => ih.mp ⟨hCs t ht, hDs t ht⟩⟩
    · rintro ⟨⟨hC, hD⟩, hrest⟩
      exact ⟨⟨hC, fun t ht => (ih.mpr (hrest t ht)).1⟩, hD, fun t ht => (ih.mpr (hrest t ht)).2⟩

/-- A property of every state that a run reaches, as a condition on its steps. -/
theorem forall_reached_iff {P : σ → Prop} {s : σ} {es : List ε} :
    (∀ es₁ es₂ t, es = es₁ ++ es₂ → exec step s es₁ = some t → P t) ↔
      P s ∧ Along step (fun s e => ∀ t, step s e = some t → P t) s es := by
  induction es generalizing s with
  | nil =>
    constructor
    · exact fun h => ⟨h [] [] s rfl rfl, trivial⟩
    · rintro ⟨hs, -⟩ es₁ es₂ t heq hrun
      obtain ⟨rfl, -⟩ := List.append_eq_nil_iff.mp heq.symm
      exact Option.some.inj hrun ▸ hs
  | cons e es ih =>
    constructor
    · intro h
      refine ⟨h [] (e :: es) s rfl rfl, fun t ht => h [e] es t rfl (exec_singleton.mpr ht),
        fun t ht => (ih.mp fun es₁ es₂ u heq hrun => ?_).2⟩
      refine h (e :: es₁) es₂ u ?_ (exec_cons.mpr ⟨t, ht, hrun⟩)
      rw [heq, List.cons_append]
    · rintro ⟨hs, hstep, hrest⟩ es₁ es₂ t heq hrun
      cases es₁ with
      | nil => exact Option.some.inj hrun ▸ hs
      | cons f es₁ =>
        rw [List.cons_append, List.cons.injEq] at heq
        obtain ⟨rfl, heq⟩ := heq
        obtain ⟨u, hu, hut⟩ := exec_cons.mp hrun
        exact ih.mpr ⟨hstep u hu, hrest u hu⟩ es₁ es₂ t heq hut

/-- **The induction over runs.**  A property that every step meeting `C` keeps is kept by every run
whose steps meet `C`. -/
theorem exec_invariant {P : σ → Prop} {C : σ → ε → Prop}
    (hstep : ∀ s e t, P s → C s e → step s e = some t → P t) {s t : σ} {es : List ε}
    (hs : P s) (hC : Along step C s es) (hrun : exec step s es = some t) : P t := by
  induction es generalizing s with
  | nil =>
    rw [exec_nil, Option.some_inj] at hrun
    exact hrun ▸ hs
  | cons e es ih =>
    obtain ⟨u, hu, hut⟩ := exec_cons.mp hrun
    exact ih (hstep s e u hs hC.1 hu) (hC.2 u hu) hut

/-! ## Runs with output -/

section Output

variable {ο : Type*} (react : σ → ε → Option ο × σ)

/-- A component that always goes on and may put something out at a step: what it puts out along a
list of events, and the state after them. -/
def collect : σ → List ε → List ο × σ
  | s, [] => ([], s)
  | s, e :: es =>
    let rest := collect (react s e).2 es
    ((react s e).1.toList ++ rest.1, rest.2)

variable {react}

theorem collect_append (s : σ) (es fs : List ε) :
    collect react s (es ++ fs) =
      ((collect react s es).1 ++ (collect react (collect react s es).2 fs).1,
        (collect react (collect react s es).2 fs).2) := by
  induction es generalizing s with
  | nil => rfl
  | cons e es ih =>
    rw [List.cons_append, collect, ih]
    simp only [collect, List.append_assoc]

theorem collect_concat (s : σ) (es : List ε) (e : ε) :
    collect react s (es ++ [e]) =
      ((collect react s es).1 ++ (react (collect react s es).2 e).1.toList,
        (react (collect react s es).2 e).2) := by
  rw [collect_append]
  simp [collect]

/-- **The induction over silent runs.**  A property that knows how many events have passed, and that
every step keeps without putting anything out. -/
theorem collect_silent {P : Nat → σ → Prop} {s : σ} {es : List ε} (hs : P 0 s)
    (hstep : ∀ k (hk : k < es.length) t, P k t →
      (react t es[k]).1 = none ∧ P (k + 1) (react t es[k]).2) :
    (collect react s es).1 = [] ∧ P es.length (collect react s es).2 := by
  induction es using List.reverseRecOn with
  | nil => exact ⟨rfl, hs⟩
  | append_singleton es e ih =>
    have hprefix : ∀ k (hk : k < es.length) t, P k t →
        (react t es[k]).1 = none ∧ P (k + 1) (react t es[k]).2 := by
      intro k hk t ht
      have h := hstep k (by rw [List.length_append]; omega) t ht
      rwa [List.getElem_append_left hk] at h
    obtain ⟨hout, hP⟩ := ih hprefix
    have hlast := hstep es.length (by rw [List.length_append, List.length_singleton]; omega) _ hP
    rw [List.getElem_concat_length rfl] at hlast
    rw [collect_concat, hout, hlast.1, List.length_append, List.length_singleton]
    exact ⟨rfl, hlast.2⟩

end Output

end Runs
