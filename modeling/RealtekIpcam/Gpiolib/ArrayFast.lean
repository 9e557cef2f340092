import RealtekIpcam.Gpiolib.ArrayInfo
import RealtekIpcam.Gpiolib.ArrayRead
import RealtekIpcam.Gpiolib.ArrayWrite

/-!
# The lines that are done at one go

With the masks that came with it, an array operation does all the lines of a mask at one go,
whatever the number of positions it is called for, inverts what is to be inverted, and does the
others in rounds, from the first position that the mask leaves.
-/

namespace RealtekIpcam.Gpiolib.Arrays

open Bitmap Pointwise

/-! ## The first position that is left -/

/-- The first position that is left, or the end. -/
structure First (mask : Option Bitmap) (n i : Nat) : Prop where
  le : i ≤ n
  before : ∀ k < i, ¬ Clear mask k
  clear : i < n → Clear mask i

section Positions

variable {desc : Nat → Desc} {mask : Option Bitmap} {n i k m : Nat} {b : Bitmap}

theorem first_none (n : Nat) : First none n 0 :=
  ⟨Nat.zero_le n, fun k hk => absurd hk (Nat.not_lt_zero k), nofun⟩

theorem first_findNextZeroBit (b : Bitmap) (n : Nat) :
    First (some b) n (b.findNextZeroBit n 0) := by
  obtain ⟨_, hle, hset, hclear⟩ := findNextZeroBit_spec (b := b) (Nat.zero_le n)
  refine ⟨hle, fun k hk h => ?_, ?_⟩
  · exact Bool.noConfusion ((hset k (Nat.zero_le k) hk).symm.trans (h b rfl))
  · rintro hlt _ ⟨⟩
    exact hclear hlt

theorem first_of_isFull (h : b.isFull n = true) : First (some b) n n := by
  refine ⟨Nat.le_refl n, fun k hk hclear => ?_, fun habs => absurd habs (Nat.lt_irrefl n)⟩
  exact Bool.noConfusion ((isFull_iff.mp h k hk).symm.trans (hclear b rfl))

theorem First.starts (h : First mask n i) (hlt : i < n) : Starts desc n (Clear mask) i :=
  ⟨hlt, h.clear hlt, fun k hk hl => absurd hl (h.before k hk)⟩

theorem First.le_of_starts (h : First mask n i) (hm : Starts desc n (Clear mask) m) : i ≤ m :=
  Nat.not_lt.mp fun hlt => h.before m hlt hm.2.1

theorem First.passed_iff (h : First mask n i) :
    Passed (Clear mask) i n k ↔ k < n ∧ Clear mask k :=
  ⟨fun hk => hk.2, fun hk => ⟨Nat.not_lt.mp fun hlt => h.before k hlt hk.2, hk⟩⟩

theorem Starts.congr {left left' : Nat → Prop} (h : Starts desc n left m)
    (heq : ∀ k < n, left k ↔ left' k) : Starts desc n left' m := by
  refine ⟨h.1, (heq m h.1).mp h.2.1, fun k hk hl hnone => ?_⟩
  exact h.2.2 k hk ((heq k (hk.trans h.1)).mpr hl)
    fun j hkj hj hlj => hnone j hkj hj ((heq j (hj.trans h.1)).mp hlj)

end Positions

variable {σ : Type} (c : Chips σ) {desc : Nat → Desc} (env : Env) (raw : Bool) (n : Nat)
  (info : Option ArrayInfo)

/-- What the inversion of the bitmap does to a bit. -/
def flips (a : ArrayInfo) (k : Nat) : Bool :=
  !raw && !a.invertMask.isEmpty n && decide (k < wordBits env.bitsPerLong n) && a.invertMask k

theorem invertAll_apply (a : ArrayInfo) (value : Bitmap) (k : Nat) :
    invertAll env raw n a value k = (value k ^^ flips env raw n a k) := by
  unfold invertAll flips Bitmap.xor
  cases !raw && !a.invertMask.isEmpty n with
  | false => simp
  | true =>
    by_cases hk : k < wordBits env.bitsPerLong n
    · simp [hk]
    · simp [hk]

theorem flips_of_lt (a : ArrayInfo) {k : Nat} (hk : k < n) :
    flips env raw n a k = (!raw && a.invertMask k) := by
  have hword : k < wordBits env.bitsPerLong n :=
    hk.trans_le (le_wordBits env.bitsPerLong_pos n)
  unfold flips
  cases hinv : a.invertMask k with
  | false => simp
  | true =>
    have hsome : a.invertMask.isEmpty n = false := by
      refine Bool.eq_false_iff.mpr fun hempty => ?_
      exact Bool.noConfusion (hinv.symm.trans (isEmpty_iff.mp hempty k hk))
    simp [hsome, hword]

theorem flips_of_not {a : ArrayInfo} {k : Nat} (hk : a.invertMask k = false) :
    flips env raw n a k = false := by
  simp [flips, hk]

/-! ## Writing -/

/-- The caller's bitmap after the inversion. -/
def flipped (value : Bitmap) : Bitmap :=
  match info with
  | none => value
  | some a => invertAll env raw n a value

/-- The lines after those of the mask have been written. -/
def fastSet (bits : Bitmap) (s : Lines σ) : Lines σ :=
  match info with
  | none => s
  | some a => gpioChipSetMultiple c a.chip a.setMask bits s

variable {c env raw n info} {value : Bitmap} {s : Lines σ}

theorem validInfo_of_le (hn : ∀ a ∈ info, n ≤ a.size) : validInfo n info = info := by
  cases info with
  | none => rfl
  | some a => exact if_pos (decide_eq_true (hn a rfl))

theorem gpiodSetArrayValueComplex_eq (c : Chips σ) (desc : Nat → Desc) (env : Env) (raw : Bool)
    (hn : ∀ a ∈ info, n ≤ a.size) (value : Bitmap) (s : Lines σ) :
    ∃ i, First (info.map ArrayInfo.setMask) n i ∧
      gpiodSetArrayValueComplex c desc env raw n info value s =
        let set := setRounds c desc env raw n info (flipped env raw n info value) n i
          (fastSet c info (flipped env raw n info value) s)
        (set.1, flipped env raw n info value, set.2) := by
  rw [gpiodSetArrayValueComplex, validInfo_of_le hn]
  cases info with
  | none => exact ⟨0, first_none n, rfl⟩
  | some a =>
    by_cases hfull : a.setMask.isFull n = true
    · refine ⟨n, first_of_isFull hfull, ?_⟩
      have hend : ∀ v s', setRounds c desc env raw n (some a) v n n s' = (0, s') := by
        intro v s'
        cases n with
        | zero => rfl
        | succ n => rw [setRounds, if_neg (Nat.lt_irrefl _)]
      dsimp only
      rw [if_pos hfull, hend]
      rfl
    · refine ⟨a.setMask.findNextZeroBit n 0, first_findNextZeroBit a.setMask n, ?_⟩
      dsimp only
      rw [if_neg hfull]
      rfl

/-- A write by the fast path and, where that leaves lines out, by rounds. -/
theorem gpiodSetArrayValueComplex_spec (c : Chips σ) (desc : Nat → Desc) (env : Env) (raw : Bool)
    (value : Bitmap) (s : Lines σ)
    (hn : ∀ a ∈ info, n ≤ a.size)
    (hhw : ∀ k < n, (desc k).hwgpio < c.ngpio (desc k).chip)
    (hinj : ∀ k < n, ∀ k' < n, (desc k).key = (desc k').key → k = k') :
    let r := gpiodSetArrayValueComplex c desc env raw n info value s
    let bits := flipped env raw n info value
    let s' := fastSet c info bits s
    r.2.1 = bits ∧
      ((∀ m, Starts desc n (leftOut info) m → noMask c.ngpio desc env m = false) →
        Stepped (lineKey desc) (lineStep c desc raw (level desc raw info bits))
          {k | k < n ∧ leftOut info k} s' r.2.2) ∧
      ((∃ m, Starts desc n (leftOut info) m ∧ noMask c.ngpio desc env m = true) →
        ∃ k < n, leftOut info k ∧ r.2.2 (lineKey desc k) = s' (lineKey desc k)) ∧
      ∀ x, (∀ k < n, leftOut info k → lineKey desc k ≠ x) → r.2.2 x = s' x := by
  obtain ⟨i, hfirst, hr⟩ := gpiodSetArrayValueComplex_eq c desc env raw hn value s
  obtain ⟨hgood, hbad, hoff⟩ := setRounds_spec env raw (flipped env raw n info value)
    (fastSet c info (flipped env raw n info value) s) hhw hinj
    (Nat.sub_le n i) hfirst.le hfirst.starts
  rw [hr]
  refine ⟨rfl, fun hok => ?_, ?_, fun x hx => hoff x fun k hk => hx k hk.2.1 hk.2.2⟩
  · exact (hgood fun m _ hm => hok m hm).2.congr (fun k => hfirst.passed_iff.symm) fun _ _ => rfl
  · rintro ⟨m, hm, hno⟩
    obtain ⟨k, hk, hkeep⟩ := hbad ⟨m, hfirst.le_of_starts hm, hm, hno⟩
    exact ⟨k, hk.2.1, hk.2.2, hkeep⟩

variable (c env raw n info) in
/-- What the lines of the mask read, and the caller's bitmap then. -/
def fastGet (value : Bitmap) (s : Lines σ) : Int × Bitmap :=
  match info with
  | none => (0, value)
  | some a =>
    let got := gpioChipGetMultiple c a.chip a.getMask value s
    (got.1, invertAll env raw n a got.2)

/-- The positions that the mask for input leaves. -/
abbrev leftIn (info : Option ArrayInfo) : Nat → Prop := Clear (info.map ArrayInfo.getMask)

theorem gpiodGetArrayValueComplex_eq (c : Chips σ) (desc : Nat → Desc) (env : Env) (raw : Bool)
    (hn : ∀ a ∈ info, n ≤ a.size) (value : Bitmap) (s : Lines σ) :
    ((fastGet c env raw n info value s).1 ≠ 0 →
      (gpiodGetArrayValueComplex c desc env raw n info value s).1 ≠ 0) ∧
    ((fastGet c env raw n info value s).1 = 0 →
      ∃ i, First (info.map ArrayInfo.getMask) n i ∧
        gpiodGetArrayValueComplex c desc env raw n info value s =
          getRounds c desc env raw n (info.map ArrayInfo.getMask) s n i
            (fastGet c env raw n info value s).2) := by
  rw [gpiodGetArrayValueComplex, validInfo_of_le hn]
  cases info with
  | none => exact ⟨fun habs => absurd rfl habs, fun _ => ⟨0, first_none n, rfl⟩⟩
  | some a =>
    refine ⟨fun hret => ?_, fun hret => ?_⟩
    · dsimp only [fastGet] at hret ⊢
      rw [if_pos hret]
      exact hret
    · dsimp only [fastGet] at hret ⊢
      rw [if_neg (not_not.mpr hret)]
      by_cases hfull : a.getMask.isFull n = true
      · refine ⟨n, first_of_isFull hfull, ?_⟩
        rw [if_pos hfull]
        cases n with
        | zero => rfl
        | succ n => rw [getRounds, if_neg (Nat.lt_irrefl _)]
      · refine ⟨a.getMask.findNextZeroBit n 0, first_findNextZeroBit a.getMask n, ?_⟩
        rw [if_neg hfull]
        rfl

/-- A read by the fast path and, where that leaves lines out, by rounds. -/
theorem gpiodGetArrayValueComplex_spec (c : Chips σ) (desc : Nat → Desc) (env : Env) (raw : Bool)
    (value : Bitmap) (s : Lines σ)
    (hn : ∀ a ∈ info, n ≤ a.size)
    (hhw : ∀ k < n, (desc k).hwgpio < c.ngpio (desc k).chip) :
    let r := gpiodGetArrayValueComplex c desc env raw n info value s
    let fast := fastGet c env raw n info value s
    (r.1 = 0 → fast.1 = 0 ∧
      (∀ k < n, leftIn info k → 0 ≤ reading c s (desc k).key) ∧
        Stepped id (fun k _ => lineValue c desc raw s k) {k | k < n ∧ leftIn info k}
          fast.2 r.2) ∧
    ((∀ m, Starts desc n (leftIn info) m → noMask c.ngpio desc env m = false) →
      (∀ x, 0 ≤ reading c s x) → r.1 = 0) ∧
    ((∃ m, Starts desc n (leftIn info) m ∧ noMask c.ngpio desc env m = true) → r.1 ≠ 0) := by
  obtain ⟨hfail, hrest⟩ := gpiodGetArrayValueComplex_eq c desc env raw hn value s
  by_cases hret : (fastGet c env raw n info value s).1 = 0
  · obtain ⟨i, hfirst, hr⟩ := hrest hret
    obtain ⟨hgood, hok, hbad⟩ := getRounds_spec env raw s (fastGet c env raw n info value s).2 hhw
      (Nat.sub_le n i) hfirst.le hfirst.starts
    rw [hr]
    refine ⟨fun hzero => ⟨hret, fun k hk hl => ?_, ?_⟩, fun hm hall => ?_, ?_⟩
    · exact (hgood hzero).1 k (hfirst.passed_iff.mpr ⟨hk, hl⟩)
    · exact (hgood hzero).2.congr (fun k => hfirst.passed_iff.symm) fun _ _ => rfl
    · exact hok (fun m _ hs => hm m hs) fun k _ => hall _
    · rintro ⟨m, hm, hno⟩
      exact hbad ⟨m, hfirst.le_of_starts hm, hm, hno⟩
  · refine ⟨fun hzero => absurd hzero (hfail hret), fun _ hall => absurd ?_ hret,
      fun _ => hfail hret⟩
    cases info with
    | none => rfl
    | some a => exact gpioChipGetMultiple_eq_zero_iff.mpr fun o _ _ => hall _

end RealtekIpcam.Gpiolib.Arrays
