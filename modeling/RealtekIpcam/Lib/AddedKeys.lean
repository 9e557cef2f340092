import Mathlib.Data.List.Basic

/-!
# Keys that are added to a map

A component that takes things one by one and gives them back when it fails works on a map from
keys to optional values.  `Added keys f g` says that `g` is `f` with values for `keys`, for which
`f` had none.  Taking one more key and giving the last one back are `Added.concat` and
`Added.erase_last`, and nothing has been taken exactly if no key is added: `Added.sameKeys_iff`.
-/

namespace AddedKeys

open Function

variable {ι β : Type*} {f g : ι → Option β} {keys : List ι} {k : ι}

def SameKeys (f g : ι → Option β) : Prop := ∀ k, (g k).isSome = (f k).isSome

/-- **`g` has values for `keys`**, for which `f` has none, and is the same elsewhere. -/
structure Added (keys : List ι) (f g : ι → Option β) : Prop where
  nodup : keys.Nodup
  free : ∀ k ∈ keys, f k = none
  held : ∀ k ∈ keys, (g k).isSome = true
  rest : ∀ k, k ∉ keys → g k = f k

theorem Added.nil (f : ι → Option β) : Added [] f f :=
  ⟨List.nodup_nil, nofun, nofun,
    fun _ _ => rfl⟩

/-- If anything is added, not the same keys have a value; and if nothing is, they have. -/
theorem Added.sameKeys_iff (h : Added keys f g) : SameKeys f g ↔ keys = [] := by
  constructor
  · intro hsame
    refine List.eq_nil_iff_forall_not_mem.mpr fun k hk => ?_
    have hk' := hsame k
    rw [h.held k hk, h.free k hk] at hk'
    cases hk'
  · rintro rfl k
    rw [h.rest k List.not_mem_nil]

/-- A key has a value if it had one or is one of those added. -/
theorem Added.isSome_iff (h : Added keys f g) (k : ι) :
    (g k).isSome = true ↔ (f k).isSome = true ∨ k ∈ keys := by
  by_cases hk : k ∈ keys
  · exact ⟨fun _ => Or.inr hk, fun _ => h.held k hk⟩
  · rw [h.rest k hk]
    exact ⟨Or.inl, fun h' => h'.resolve_right hk⟩

variable [DecidableEq ι]

theorem Added.concat (h : Added keys f g) (hk : g k = none) (v : β) :
    Added (keys ++ [k]) f (update g k (some v)) := by
  have hmem : k ∉ keys := fun hmem => by
    have hheld := h.held k hmem
    rw [hk] at hheld
    cases hheld
  refine ⟨?_, fun m hm => ?_, fun m hm => ?_, fun m hm => ?_⟩
  · rw [(List.perm_append_singleton k keys).nodup_iff]
    exact List.nodup_cons.mpr ⟨hmem, h.nodup⟩
  · rcases List.mem_append.mp hm with hm | hm
    · exact h.free m hm
    · rw [List.mem_singleton.mp hm, ← h.rest k hmem, hk]
  · by_cases hmk : m = k
    · rw [hmk, update_self]
      rfl
    · rw [update_of_ne hmk]
      exact h.held m ((List.mem_append.mp hm).resolve_right fun h' =>
        hmk (List.mem_singleton.mp h'))
  · rw [List.mem_append, not_or, List.mem_singleton] at hm
    rw [update_of_ne hm.2]
    exact h.rest m hm.1

theorem Added.erase_last (h : Added (keys ++ [k]) f g) :
    Added keys f (update g k none) := by
  have hk : k ∈ keys ++ [k] := List.mem_append_right keys (List.mem_singleton.mpr rfl)
  obtain ⟨hmem, hnodup⟩ :=
    List.nodup_cons.mp ((List.perm_append_singleton k keys).nodup_iff.mp h.nodup)
  refine ⟨hnodup, fun m hm => h.free m (List.mem_append_left [k] hm), fun m hm => ?_,
    fun m hm => ?_⟩
  · have hmk : m ≠ k := fun heq => hmem (heq ▸ hm)
    rw [update_of_ne hmk]
    exact h.held m (List.mem_append_left [k] hm)
  · by_cases hmk : m = k
    · rw [hmk, update_self, h.free k hk]
    · rw [update_of_ne hmk]
      refine h.rest m fun hm' => ?_
      rcases List.mem_append.mp hm' with hm' | hm'
      · exact hm hm'
      · exact hmk (List.mem_singleton.mp hm')

end AddedKeys
