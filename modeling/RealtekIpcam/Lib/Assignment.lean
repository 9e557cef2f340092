import Mathlib

/-!
# Claims and free places

Things are put into places.  Some of them come with a claim, a pair of a place and a thing, and the
claims are granted in their order unless the place has been taken or the thing has been placed,
`grants`.  The things that are left then go, in their order, to the places that are left, in theirs:
`complete`.

A claim is harmless if it asks for what would have happened without it.  `mem_complete_of_between`
says so for claims that have been granted, and `grants_subset_iff` says which lists of claims have
only harmless ones granted.  `complete_iff` has both: when foreign claims among the right ones do
not change the result.
-/

namespace Assignment

variable {ι α κ : Type*}

/-! ## Claims -/

/-- Two claims for one place, or for one thing. -/
def Clashes (a b : ι × α) : Prop := a.1 = b.1 ∨ a.2 = b.2

/-- No two claims clash. -/
def Matching (G : List (ι × α)) : Prop := G.Pairwise fun a b => ¬ Clashes a b

theorem Clashes.symm {a b : ι × α} (h : Clashes a b) : Clashes b a :=
  h.imp Eq.symm Eq.symm

/-- In a matching, claims that clash are one. -/
theorem Matching.eq_of_clashes {G : List (ι × α)} (h : Matching G) {a b : ι × α} (ha : a ∈ G)
    (hb : b ∈ G) (hab : Clashes a b) : a = b := by
  have : Std.Symm fun a b : ι × α => ¬ Clashes a b := ⟨fun _ _ hn hc => hn hc.symm⟩
  by_contra hne
  exact List.Pairwise.forall h ha hb hne hab

theorem Matching.zip {ps : List ι} {xs : List α} (hps : ps.Nodup) (hxs : xs.Nodup) :
    Matching (ps.zip xs) := by
  induction ps generalizing xs with
  | nil => exact List.Pairwise.nil
  | cons p ps ih =>
    cases xs with
    | nil => exact List.Pairwise.nil
    | cons x xs =>
      obtain ⟨hp, hps⟩ := List.nodup_cons.mp hps
      obtain ⟨hx, hxs⟩ := List.nodup_cons.mp hxs
      refine List.pairwise_cons.mpr ⟨fun a ha hc => ?_, ih hps hxs⟩
      obtain ⟨hap, hax⟩ := List.of_mem_zip ha
      rcases hc with h | h
      · exact hp ((show p = a.1 from h) ▸ hap)
      · exact hx ((show x = a.2 from h) ▸ hax)

variable [DecidableEq ι] [DecidableEq α]

instance (a b : ι × α) : Decidable (Clashes a b) :=
  inferInstanceAs (Decidable (_ ∨ _))

/-! ## Granting -/

/-- A claim is granted unless it clashes. -/
def grant (G : List (ι × α)) (c : ι × α) : List (ι × α) :=
  if ∃ a ∈ G, Clashes a c then G else G ++ [c]

def grants (cs : List (ι × α)) : List (ι × α) := cs.foldl grant []

@[simp] theorem grants_nil : grants ([] : List (ι × α)) = [] := rfl

@[simp] theorem grants_concat (cs : List (ι × α)) (c : ι × α) :
    grants (cs ++ [c]) = grant (grants cs) c := by
  rw [grants, List.foldl_append, List.foldl_cons, List.foldl_nil, grants]

theorem grant_of_clash {G : List (ι × α)} {a c : ι × α} (ha : a ∈ G) (h : Clashes a c) :
    grant G c = G :=
  if_pos ⟨a, ha, h⟩

theorem grant_of_free {G : List (ι × α)} {c : ι × α} (h : ∀ a ∈ G, ¬ Clashes a c) :
    grant G c = G ++ [c] :=
  if_neg fun ⟨a, ha, hc⟩ => h a ha hc

/-- A claim clashes with one that has been granted, or is granted. -/
theorem grant_cases (G : List (ι × α)) (c : ι × α) :
    (∃ a ∈ G, Clashes a c ∧ grant G c = G) ∨
      (∀ a ∈ G, ¬ Clashes a c) ∧ grant G c = G ++ [c] := by
  by_cases h : ∃ a ∈ G, Clashes a c
  · obtain ⟨a, ha, hc⟩ := h
    exact Or.inl ⟨a, ha, hc, grant_of_clash ha hc⟩
  · have hfree : ∀ a ∈ G, ¬ Clashes a c := fun a ha hc => h ⟨a, ha, hc⟩
    exact Or.inr ⟨hfree, grant_of_free hfree⟩

theorem subset_grant (G : List (ι × α)) (c : ι × α) : G ⊆ grant G c := by
  obtain ⟨_, _, _, h⟩ | ⟨_, h⟩ := grant_cases G c
  · rw [h]
    exact List.Subset.refl G
  · rw [h]
    exact List.subset_append_left G [c]

theorem grants_subset_append (l r : List (ι × α)) : grants l ⊆ grants (l ++ r) := by
  induction r using List.reverseRecOn with
  | nil => simp
  | append_singleton r c ih =>
    rw [← List.append_assoc, grants_concat]
    exact List.Subset.trans ih (subset_grant _ c)

theorem grants_subset (cs : List (ι × α)) : grants cs ⊆ cs := by
  induction cs using List.reverseRecOn with
  | nil => simp
  | append_singleton l c ih =>
    have hl := List.subset_append_of_subset_left [c] ih
    rw [grants_concat]
    obtain ⟨_, _, _, h⟩ | ⟨_, h⟩ := grant_cases (grants l) c
    · rwa [h]
    · rw [h]
      exact List.append_subset.mpr ⟨hl, List.subset_append_right l [c]⟩

theorem matching_grants (cs : List (ι × α)) : Matching (grants cs) := by
  induction cs using List.reverseRecOn with
  | nil => exact List.Pairwise.nil
  | append_singleton l c ih =>
    rw [grants_concat]
    obtain ⟨_, _, _, h⟩ | ⟨hfree, h⟩ := grant_cases (grants l) c
    · rwa [h]
    · rw [h]
      refine List.pairwise_append.mpr ⟨ih, List.pairwise_singleton _ _, fun a ha b hb => ?_⟩
      rw [List.mem_singleton.mp hb]
      exact hfree a ha

/-- Every claim clashes with one that has been granted, perhaps itself. -/
theorem exists_clash {cs : List (ι × α)} {c : ι × α} (hc : c ∈ cs) :
    ∃ a ∈ grants cs, Clashes a c := by
  induction cs using List.reverseRecOn with
  | nil => cases hc
  | append_singleton l d ih =>
    rw [grants_concat]
    rcases List.mem_append.mp hc with hc | hc
    · obtain ⟨a, ha, hac⟩ := ih hc
      exact ⟨a, subset_grant _ d ha, hac⟩
    · obtain rfl := List.mem_singleton.mp hc
      obtain ⟨a, ha, hac, _⟩ | ⟨_, h⟩ := grant_cases (grants l) c
      · exact ⟨a, subset_grant _ c ha, hac⟩
      · rw [h]
        exact ⟨c, List.mem_append_right _ (List.mem_singleton_self c), Or.inl rfl⟩

/-- If only what belongs to a matching is granted, then every claim that belongs to it is. -/
theorem mem_grants_of_mem {cs S : List (ι × α)} (hS : Matching S) (hsub : grants cs ⊆ S)
    {c : ι × α} (hc : c ∈ cs) (hcS : c ∈ S) : c ∈ grants cs := by
  obtain ⟨a, ha, hac⟩ := exists_clash hc
  rwa [← hS.eq_of_clashes (hsub ha) hcS hac]

/-- **Only claims of a matching are granted**, if and only if every other claim comes after one of
the matching with which it clashes. -/
theorem grants_subset_iff {S : List (ι × α)} (hS : Matching S) (f : κ → Option (ι × α))
    (cs : List κ) :
    grants (cs.filterMap f) ⊆ S ↔ ∀ l k c, l ++ [k] <+: cs → f k = some c →
      c ∈ S ∨ ∃ a ∈ l.filterMap f, a ∈ S ∧ Clashes a c := by
  constructor
  · rintro hsub l k c ⟨r, rfl⟩ hk
    have hpre : grants (l.filterMap f ++ [c]) ⊆ S := by
      refine List.Subset.trans ?_ hsub
      rw [List.filterMap_append, List.filterMap_append, List.filterMap_cons_some hk,
        List.filterMap_nil]
      exact grants_subset_append _ _
    rw [grants_concat] at hpre
    obtain ⟨a, ha, hac, _⟩ | ⟨_, h⟩ := grant_cases (grants (l.filterMap f)) c
    · exact Or.inr ⟨a, grants_subset _ ha, hpre (subset_grant _ c ha), hac⟩
    · refine Or.inl (hpre ?_)
      rw [h]
      exact List.mem_append_right _ (List.mem_singleton_self c)
  · intro h
    induction cs using List.reverseRecOn with
    | nil => simp
    | append_singleton l k ih =>
      have hl := ih fun l' k' c hpre => h l' k' c (hpre.trans (List.prefix_append l [k]))
      rw [List.filterMap_append]
      cases hk : f k with
      | none => simpa [hk] using hl
      | some c =>
        rw [List.filterMap_cons_some hk, List.filterMap_nil, grants_concat]
        obtain ⟨_, _, _, hgrant⟩ | ⟨hfree, hgrant⟩ := grant_cases (grants (l.filterMap f)) c
        · rwa [hgrant]
        · rw [hgrant]
          refine List.append_subset.mpr ⟨hl, fun d hd => ?_⟩
          obtain rfl := List.mem_singleton.mp hd
          obtain hc | ⟨a, ha, haS, hac⟩ := h l k d (List.prefix_refl _) hk
          · exact hc
          · exact absurd hac (hfree a (mem_grants_of_mem hS hl ha haS))

/-! ## The places and things that are left -/

def freePlaces (ps : List ι) (G : List (ι × α)) : List ι := ps.filter fun p => ∀ a ∈ G, a.1 ≠ p

def freeThings (xs : List α) (G : List (ι × α)) : List α := xs.filter fun x => ∀ a ∈ G, a.2 ≠ x

/-- The other things go to the other places. -/
def complete (ps : List ι) (xs : List α) (G : List (ι × α)) : List (ι × α) :=
  G ++ (freePlaces ps G).zip (freeThings xs G)

variable {ps : List ι} {xs : List α} {G H : List (ι × α)}

omit [DecidableEq α] in
@[simp] theorem mem_freePlaces {p : ι} : p ∈ freePlaces ps G ↔ p ∈ ps ∧ ∀ a ∈ G, a.1 ≠ p := by
  simp [freePlaces]

omit [DecidableEq ι] in
@[simp] theorem mem_freeThings {x : α} : x ∈ freeThings xs G ↔ x ∈ xs ∧ ∀ a ∈ G, a.2 ≠ x := by
  simp [freeThings]

theorem mem_complete {a : ι × α} :
    a ∈ complete ps xs G ↔ a ∈ G ∨ a ∈ (freePlaces ps G).zip (freeThings xs G) :=
  List.mem_append

theorem Matching.complete (hps : ps.Nodup) (hxs : xs.Nodup) (hG : Matching G) :
    Matching (complete ps xs G) := by
  refine List.pairwise_append.mpr
    ⟨hG, Matching.zip (hps.filter _) (hxs.filter _), fun a ha b hb hc => ?_⟩
  obtain ⟨hp, hx⟩ := List.of_mem_zip hb
  rcases hc with h | h
  · exact (mem_freePlaces.mp hp).2 a ha h
  · exact (mem_freeThings.mp hx).2 a ha h

/-- What is complete has things and places of the lists only, if the claims have. -/
theorem mem_of_mem_complete (hG : ∀ a ∈ G, a.1 ∈ ps ∧ a.2 ∈ xs) {a : ι × α}
    (ha : a ∈ Assignment.complete ps xs G) : a.1 ∈ ps ∧ a.2 ∈ xs := by
  rcases mem_complete.mp ha with h | h
  · exact hG a h
  · obtain ⟨hp, hx⟩ := List.of_mem_zip h
    exact ⟨(mem_freePlaces.mp hp).1, (mem_freeThings.mp hx).1⟩

omit [DecidableEq ι] [DecidableEq α] in
/-- One claim more takes away one component. -/
theorem filter_concat {β : Type*} [DecidableEq β] (f : ι × α → β) {ys : List β} (hys : ys.Nodup)
    (c : ι × α) :
    (ys.filter fun y => ∀ a ∈ G ++ [c], f a ≠ y) =
      (ys.filter fun y => ∀ a ∈ G, f a ≠ y).erase (f c) := by
  rw [(hys.filter _).erase_eq_filter, List.filter_filter]
  refine List.filter_congr fun y _ => ?_
  rw [Bool.eq_iff_iff]
  simp only [decide_eq_true_eq, Bool.and_eq_true, bne_iff_ne, List.forall_mem_append,
    List.forall_mem_singleton]
  exact ⟨fun ⟨h, hc⟩ => ⟨hc.symm, h⟩, fun ⟨hc, h⟩ => ⟨h, hc.symm⟩⟩

omit [DecidableEq ι] [DecidableEq α] in
/-- What claims leave, and then more claims that contain them. -/
theorem filter_of_subset {β : Type*} [DecidableEq β] (f : ι × α → β) (ys : List β) (h : G ⊆ H) :
    ((ys.filter fun y => ∀ a ∈ G, f a ≠ y).filter fun y => ∀ a ∈ H, f a ≠ y) =
      ys.filter fun y => ∀ a ∈ H, f a ≠ y := by
  rw [List.filter_filter]
  refine List.filter_congr fun y _ => Bool.and_eq_left_iff_imp.mpr fun hy => ?_
  simp only [decide_eq_true_eq] at hy ⊢
  exact fun a ha => hy a (h ha)

omit [DecidableEq α] in
theorem freePlaces_concat (hps : ps.Nodup) (c : ι × α) :
    freePlaces ps (G ++ [c]) = (freePlaces ps G).erase c.1 :=
  filter_concat Prod.fst hps c

omit [DecidableEq ι] in
theorem freeThings_concat (hxs : xs.Nodup) (c : ι × α) :
    freeThings xs (G ++ [c]) = (freeThings xs G).erase c.2 :=
  filter_concat Prod.snd hxs c

example : freePlaces [0, 1, 2] [(0, 3), (2, 4)] = [1] := by decide +kernel

/-- A matching leaves as many places and as many things fewer as it has claims. -/
theorem length_left (hps : ps.Nodup) (hxs : xs.Nodup) (hG : Matching G)
    (hmem : ∀ a ∈ G, a.1 ∈ ps ∧ a.2 ∈ xs) :
    (freePlaces ps G).length + G.length = ps.length ∧
      (freeThings xs G).length + G.length = xs.length := by
  induction G using List.reverseRecOn with
  | nil => simp [freePlaces, freeThings]
  | append_singleton G c ih =>
    obtain ⟨hG', -, hc⟩ := List.pairwise_append.mp hG
    obtain ⟨hp, hx⟩ := ih hG' fun a ha => hmem a (List.mem_append_left _ ha)
    obtain ⟨hcp, hcx⟩ := hmem c (List.mem_append_right _ (List.mem_singleton_self c))
    have hfree : ∀ a ∈ G, ¬ Clashes a c := fun a ha => hc a ha c (List.mem_singleton_self c)
    have hp' : c.1 ∈ freePlaces ps G :=
      mem_freePlaces.mpr ⟨hcp, fun a ha h => hfree a ha (Or.inl h)⟩
    have hx' : c.2 ∈ freeThings xs G :=
      mem_freeThings.mpr ⟨hcx, fun a ha h => hfree a ha (Or.inr h)⟩
    rw [freePlaces_concat hps, freeThings_concat hxs, List.length_erase_of_mem hp',
      List.length_erase_of_mem hx', List.length_append, List.length_singleton]
    have h1 := List.length_pos_of_mem hp'
    have h2 := List.length_pos_of_mem hx'
    omega

/-- **Everything gets a place** if there are enough. -/
theorem exists_place (hps : ps.Nodup) (hxs : xs.Nodup) (hG : Matching G)
    (hmem : ∀ a ∈ G, a.1 ∈ ps ∧ a.2 ∈ xs) (hle : xs.length ≤ ps.length) {x : α} (hx : x ∈ xs) :
    ∃ p, (p, x) ∈ complete ps xs G := by
  by_cases hG' : ∃ a ∈ G, a.2 = x
  · obtain ⟨a, ha, rfl⟩ := hG'
    exact ⟨a.1, mem_complete.mpr (Or.inl ha)⟩
  · have hfree : x ∈ freeThings xs G := mem_freeThings.mpr ⟨hx, fun a ha h => hG' ⟨a, ha, h⟩⟩
    obtain ⟨i, hi, rfl⟩ := List.mem_iff_getElem.mp hfree
    obtain ⟨hp, hx⟩ := length_left hps hxs hG hmem
    have hi' : i < (freePlaces ps G).length := by omega
    have hzip : i < ((freePlaces ps G).zip (freeThings xs G)).length := by
      rw [List.length_zip]
      exact Nat.lt_min.mpr ⟨hi', hi⟩
    refine ⟨(freePlaces ps G)[i], mem_complete.mpr (Or.inr ?_)⟩
    rw [← List.getElem_zip (h := hzip)]
    exact List.getElem_mem _

/-- To take pairs out of a zip, their components can be taken out of the two lists. -/
theorem zip_freePlaces_freeThings (hps : ps.Nodup) (hxs : xs.Nodup)
    (h : ∀ a ∈ H, a ∈ ps.zip xs ∨ a.1 ∉ ps ∧ a.2 ∉ xs) :
    (freePlaces ps H).zip (freeThings xs H) = (ps.zip xs).filter (· ∉ H) := by
  induction ps generalizing xs with
  | nil => simp [freePlaces]
  | cons p ps ih =>
    cases xs with
    | nil => simp [freeThings]
    | cons x xs =>
      obtain ⟨hp, hps⟩ := List.nodup_cons.mp hps
      obtain ⟨hx, hxs⟩ := List.nodup_cons.mp hxs
      have hrest : ∀ a ∈ H, a = (p, x) ∨ a ∈ ps.zip xs ∨
          (a.1 ∉ p :: ps ∧ a.2 ∉ x :: xs) := fun a ha => by
        simpa [List.zip_cons_cons, or_assoc] using h a ha
      have ih' := ih hps hxs fun a ha => by
        obtain rfl | hzip | ⟨h1, h2⟩ := hrest a ha
        · exact Or.inr ⟨hp, hx⟩
        · exact Or.inl hzip
        · exact Or.inr ⟨fun hm => h1 (List.mem_cons_of_mem p hm),
            fun hm => h2 (List.mem_cons_of_mem x hm)⟩
      by_cases hpx : (p, x) ∈ H
      · have hpH : ¬ ∀ a ∈ H, a.1 ≠ p := fun hn => hn _ hpx rfl
        have hxH : ¬ ∀ a ∈ H, a.2 ≠ x := fun hn => hn _ hpx rfl
        rw [freePlaces, freeThings, List.filter_cons_of_neg (by simpa using hpH),
          List.filter_cons_of_neg (by simpa using hxH), List.zip_cons_cons,
          List.filter_cons_of_neg (by simpa using hpx)]
        exact ih'
      · -- a component of a claim is one of a pair further on, or not in the list
        have hpH : ∀ a ∈ H, a.1 ≠ p := by
          rintro a ha rfl
          obtain heq | hzip | ⟨h1, _⟩ := hrest a ha
          · exact hpx (heq ▸ ha)
          · exact hp (List.of_mem_zip hzip).1
          · exact h1 List.mem_cons_self
        have hxH : ∀ a ∈ H, a.2 ≠ x := by
          rintro a ha rfl
          obtain heq | hzip | ⟨_, h2⟩ := hrest a ha
          · exact hpx (heq ▸ ha)
          · exact hx (List.of_mem_zip hzip).2
          · exact h2 List.mem_cons_self
        rw [freePlaces, freeThings, List.filter_cons_of_pos (by simpa using hpH),
          List.filter_cons_of_pos (by simpa using hxH), List.zip_cons_cons, List.zip_cons_cons,
          List.filter_cons_of_pos (by simpa using hpx)]
        exact congrArg _ ih'

/-- **Claims for what happens anyway change nothing.** -/
theorem mem_complete_of_between (hps : ps.Nodup) (hxs : xs.Nodup) (hGH : G ⊆ H)
    (hH : H ⊆ complete ps xs G) (a : ι × α) : a ∈ complete ps xs H ↔ a ∈ complete ps xs G := by
  have hzip : (freePlaces ps H).zip (freeThings xs H) =
      ((freePlaces ps G).zip (freeThings xs G)).filter (· ∉ H) := by
    have hfp : freePlaces (freePlaces ps G) H = freePlaces ps H := filter_of_subset Prod.fst ps hGH
    have hfx : freeThings (freeThings xs G) H = freeThings xs H := filter_of_subset Prod.snd xs hGH
    rw [← hfp, ← hfx]
    refine zip_freePlaces_freeThings (hps.filter _) (hxs.filter _) fun b hb => ?_
    rcases mem_complete.mp (hH hb) with hG | hz
    · exact Or.inr ⟨fun hm => (mem_freePlaces.mp hm).2 b hG rfl,
        fun hm => (mem_freeThings.mp hm).2 b hG rfl⟩
    · exact Or.inl hz
  constructor
  · intro ha
    rcases mem_complete.mp ha with h | h
    · exact hH h
    · rw [hzip] at h
      exact mem_complete.mpr (Or.inr (List.mem_of_mem_filter h))
  · intro ha
    by_cases hmem : a ∈ H
    · exact mem_complete.mpr (Or.inl hmem)
    · rcases mem_complete.mp ha with h | h
      · exact absurd (hGH h) hmem
      · refine mem_complete.mpr (Or.inr ?_)
        rw [hzip]
        exact List.mem_filter.mpr ⟨h, by simpa using hmem⟩

/-- **Foreign claims change nothing**, if and only if each asks for what happens anyway or comes
after one that does and clashes with it. -/
theorem complete_iff (hps : ps.Nodup) (hxs : xs.Nodup) {f g : κ → Option (ι × α)}
    (hg : ∀ k c, g k = some c → f k = some c) (cs : List κ) :
    (∀ a, a ∈ complete ps xs (grants (cs.filterMap f)) ↔
      a ∈ complete ps xs (grants (cs.filterMap g))) ↔
    ∀ l k c, l ++ [k] <+: cs → f k = some c → g k = none →
      c ∈ complete ps xs (grants (cs.filterMap g)) ∨
        ∃ a ∈ l.filterMap f, a ∈ complete ps xs (grants (cs.filterMap g)) ∧ Clashes a c := by
  have hS := (matching_grants (cs.filterMap g)).complete hps hxs
  have hgrants : grants (cs.filterMap g) ⊆ complete ps xs (grants (cs.filterMap g)) :=
    List.subset_append_left _ _
  have hsub (l : List κ) : l.filterMap g ⊆ l.filterMap f := fun c hc => by
    obtain ⟨k, hk, hkc⟩ := List.mem_filterMap.mp hc
    exact List.mem_filterMap.mpr ⟨k, hk, hg k c hkc⟩
  constructor
  · intro heq l k c hpre hk _
    exact (grants_subset_iff hS f cs).mp (fun a ha => (heq a).mp (mem_complete.mpr (Or.inl ha)))
      l k c hpre hk
  · intro h a
    have hmine : grants (cs.filterMap f) ⊆ complete ps xs (grants (cs.filterMap g)) := by
      refine (grants_subset_iff hS f cs).mpr fun l k c hpre hk => ?_
      cases hgk : g k with
      | none => exact h l k c hpre hk hgk
      | some d =>
        -- a right claim is granted among the right ones, or clashes with a right one before it
        obtain rfl : d = c := Option.some.inj ((hg k d hgk).symm.trans hk)
        obtain hd | ⟨a, ha, hS, had⟩ := (grants_subset_iff hS g cs).mp hgrants l k d hpre hgk
        · exact Or.inl hd
        · exact Or.inr ⟨a, hsub l ha, hS, had⟩
    refine mem_complete_of_between hps hxs (fun c hc => ?_) hmine a
    exact mem_grants_of_mem hS hmine (hsub cs (grants_subset _ hc)) (hgrants hc)

end Assignment
