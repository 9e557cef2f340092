import RealtekIpcam.Gpiolib.ArrayRounds
import RealtekIpcam.Lib.Pointwise

/-!
# Writing the lines that are not done at one go

The rounds of `gpiod_set_array_value_complex` take the positions that the mask leaves, a chip at a
time.  Open drain and open source lines are set at once, the others are collected and pushed at the
end of the round; as the lines are distinct, this is the same as setting one after the other
(`Stepped`).  A round that finds no memory for its mask ends the call, and its lines are left.
-/

namespace RealtekIpcam.Gpiolib.Arrays

open Bitmap Pointwise

variable {σ : Type} (c : Chips σ) (desc : Nat → Desc) (env : Env) (raw : Bool)

/-! ## One line -/

/-- What is done for a line, with the level after the inversion. -/
def commitLine (d : Desc) (level : Bool) (l : Line σ) : Line σ :=
  if d.openDrain && !raw then gpioSetOpenDrainValueCommit (c.ops d.key) level l
  else if d.openSource && !raw then gpioSetOpenSourceValueCommit (c.ops d.key) level l
  else gpiodSetRawValue (c.ops d.key) level l

/-- The line is set by itself. -/
def SetAlone (d : Desc) : Prop := (d.openDrain || d.openSource) && !raw
  deriving Decidable

/-- The level of a line that the rounds set. -/
def level (info : Option ArrayInfo) (value : Bitmap) (j : Nat) : Bool :=
  value j ^^ (!raw && !(info.any fun a => a.invertMask j) && (desc j).activeLow)

def lineStep (w : Nat → Bool) (j : Nat) : Line σ → Line σ := commitLine c raw (desc j) (w j)

abbrev lineKey (j : Nat) : Key := (desc j).key

variable {c desc env raw} {n i : Nat} {left : Nat → Prop} {s : Lines σ}

theorem commitLine_of_not_setAlone {d : Desc} (h : ¬ SetAlone raw d) (w : Bool) :
    commitLine c raw d w = gpiodSetRawValue (c.ops d.key) w := by
  funext l
  unfold SetAlone at h
  unfold commitLine
  cases hraw : raw with
  | true => simp
  | false =>
    rw [hraw] at h
    simp only [Bool.not_false, Bool.and_true, Bool.or_eq_true, not_or, Bool.not_eq_true] at h
    simp [h.1, h.2]

theorem gpioChipSetMultiple_apply (chip : Nat) (mask bits : Bitmap) (s : Lines σ) (x : Key) :
    gpioChipSetMultiple c chip mask bits s x =
      if x.1 = chip ∧ x.2 < c.ngpio chip ∧ mask x.2 = true then
        gpiodSetRawValue (c.ops x) (bits x.2) (s x)
      else s x := by
  obtain ⟨xc, xo⟩ := x
  unfold gpioChipSetMultiple
  induction c.ngpio chip with
  | zero => simp
  | succ m ih =>
    rw [List.range_succ, List.foldl_append, List.foldl_cons, List.foldl_nil, setOne]
    by_cases hmask : mask m = true
    · rw [if_pos hmask]
      by_cases hx : (xc, xo) = (chip, m)
      · obtain ⟨rfl, rfl⟩ := Prod.mk.inj hx
        rw [Function.update_self, ih, if_neg fun h => Nat.lt_irrefl _ h.2.1,
          if_pos ⟨rfl, Nat.lt_succ_self _, hmask⟩]
      · rw [Function.update_of_ne hx, ih]
        have hiff : (xc = chip ∧ xo < m ∧ mask xo = true) ↔
            (xc = chip ∧ xo < m + 1 ∧ mask xo = true) := by
          refine and_congr_right fun hc => and_congr_left fun _ => ⟨fun h => by omega, fun h => ?_⟩
          have hne : xo ≠ m := fun ho => hx (by rw [hc, ho])
          omega
        simp only [hiff]
    · rw [if_neg hmask, ih]
      have hiff : (xc = chip ∧ xo < m ∧ mask xo = true) ↔
          (xc = chip ∧ xo < m + 1 ∧ mask xo = true) := by
        refine and_congr_right fun _ => ⟨fun h => ⟨by omega, h.2⟩, fun h => ⟨?_, h.2⟩⟩
        have hne : xo ≠ m := fun ho => hmask (ho ▸ h.2)
        omega
      simp only [hiff]

theorem stepped_setMultiple {A : Set Nat} {chip : Nat} {mask bits : Bitmap} {w : Nat → Bool}
    (hon : ∀ k ∈ A, (desc k).chip = chip ∧ (desc k).hwgpio < c.ngpio chip ∧
      mask (desc k).hwgpio = true ∧ bits (desc k).hwgpio = w k ∧ ¬ SetAlone raw (desc k))
    (hoff : ∀ o < c.ngpio chip, mask o = true → ∃ k ∈ A, (desc k).key = (chip, o)) :
    Stepped (lineKey desc) (lineStep c desc raw w) A s
      (gpioChipSetMultiple c chip mask bits s) where
  on k hk := by
    obtain ⟨hchip, hlt, hmask, hbits, halone⟩ := hon k hk
    rw [gpioChipSetMultiple_apply, if_pos ⟨hchip, hlt, hmask⟩, lineStep,
      commitLine_of_not_setAlone halone]
    exact congrArg (gpiodSetRawValue _ · _) hbits
  off x hx := by
    rw [gpioChipSetMultiple_apply, if_neg]
    rintro ⟨hchip, hlt, hmask⟩
    obtain ⟨k, hk, hkey⟩ := hoff _ hlt hmask
    refine hx k hk (hkey.trans ?_)
    rw [← hchip]

/-! ## One round -/

/-- What a round from `i` has collected below `j`. -/
structure Collected (c : Chips σ) (desc : Nat → Desc) (raw : Bool) (left : Nat → Prop)
    (w : Nat → Bool) (s : Lines σ) (i j : Nat) (b : Batch σ) : Prop where
  le : i ≤ j
  chip : ∀ k, Passed left i j k → (desc k).chip = (desc i).chip
  lines : Stepped (lineKey desc) (lineStep c desc raw w)
    {k | Passed left i j k ∧ SetAlone raw (desc k)} s b.lines
  mask : ∀ o, b.mask o = true ↔
    ∃ k, Passed left i j k ∧ ¬ SetAlone raw (desc k) ∧ (desc k).hwgpio = o
  bits : ∀ k, Passed left i j k → ¬ SetAlone raw (desc k) → b.bits (desc k).hwgpio = w k
  count : b.count = 0 → ∀ k, Passed left i j k → SetAlone raw (desc k)

theorem collected_start (w : Nat → Bool) (scratch : Bitmap) :
    Collected c desc raw left w s i i ⟨fun _ => false, scratch, 0, s⟩ := by
  have hnone : ∀ k, ¬ Passed left i i k := fun k hk => absurd hk.1 (Nat.not_le.mpr hk.2.1)
  refine ⟨Nat.le_refl i, fun k hk => absurd hk (hnone k),
    Stepped.of_empty fun k hk => hnone k hk.1, fun o => ?_, fun k hk => absurd hk (hnone k),
    fun _ k hk => absurd hk (hnone k)⟩
  exact iff_of_false nofun fun ⟨k, hk, _⟩ => hnone k hk

variable {w : Nat → Bool} {j : Nat} {b : Batch σ}

theorem Collected.skip (h : Collected c desc raw left w s i j b) (hleft : ¬ left j) :
    Collected c desc raw left w s i (j + 1) b := by
  have hpassed : ∀ k, Passed left i (j + 1) k ↔ Passed left i j k :=
    fun k => passed_succ_of_not_left hleft
  refine ⟨Nat.le_succ_of_le h.le, ?_, h.lines.congr (fun k => ?_) fun _ _ => rfl, ?_, ?_, ?_⟩
  · simpa only [hpassed] using h.chip
  · show Passed left i (j + 1) k ∧ _ ↔ Passed left i j k ∧ _
    rw [hpassed]
  · simpa only [hpassed] using h.mask
  · simpa only [hpassed] using h.bits
  · simpa only [hpassed] using h.count

theorem Collected.setAlone (h : Collected c desc raw left w s i j b) (hleft : left j)
    (hchip : (desc j).chip = (desc i).chip) (halone : SetAlone raw (desc j))
    (hinj : ∀ k < j, (desc k).key ≠ (desc j).key) :
    Collected c desc raw left w s i (j + 1) { b with
      lines := Function.update b.lines (desc j).key
        (commitLine c raw (desc j) (w j) (b.lines (desc j).key)) } := by
  have hpassed : ∀ k, Passed left i (j + 1) k ↔ Passed left i j k ∨ k = j :=
    fun k => passed_succ_of_left h.le hleft
  have hstep := stepped_update (lineKey desc) (lineStep c desc raw w) b.lines j
  refine ⟨Nat.le_succ_of_le h.le, fun k hk => ?_,
    (h.lines.trans hstep fun a ha b' hb' => ?_).congr (fun k => ?_) fun _ _ => rfl, fun o => ?_,
    fun k hk hnot => ?_, fun hcount k hk => ?_⟩
  · rcases (hpassed k).mp hk with hk | rfl
    · exact h.chip k hk
    · exact hchip
  · obtain rfl : b' = j := hb'
    exact hinj a ha.1.2.1
  · show Passed left i (j + 1) k ∧ _ ↔ (Passed left i j k ∧ _) ∨ k = j
    rw [hpassed]
    constructor
    · rintro ⟨hk | hk, hsa⟩
      · exact Or.inl ⟨hk, hsa⟩
      · exact Or.inr hk
    · rintro (⟨hk, hsa⟩ | rfl)
      · exact ⟨Or.inl hk, hsa⟩
      · exact ⟨Or.inr rfl, halone⟩
  · rw [h.mask]
    constructor
    · rintro ⟨k, hk, hrest⟩
      exact ⟨k, (hpassed k).mpr (Or.inl hk), hrest⟩
    · rintro ⟨k, hk, hnot, ho⟩
      rcases (hpassed k).mp hk with hk | rfl
      · exact ⟨k, hk, hnot, ho⟩
      · exact absurd halone hnot
  · rcases (hpassed k).mp hk with hk | rfl
    · exact h.bits k hk hnot
    · exact absurd halone hnot
  · rcases (hpassed k).mp hk with hk | rfl
    · exact h.count hcount k hk
    · exact halone

/-- A line joins those that are set together. -/
theorem Collected.collect (h : Collected c desc raw left w s i j b) (hleft : left j)
    (hchip : (desc j).chip = (desc i).chip) (hnot : ¬ SetAlone raw (desc j))
    (hinj : ∀ k < j, (desc k).key ≠ (desc j).key) :
    Collected c desc raw left w s i (j + 1)
      ⟨b.mask.assign (desc j).hwgpio true, b.bits.assign (desc j).hwgpio (w j), b.count + 1,
        b.lines⟩ := by
  have hpassed : ∀ k, Passed left i (j + 1) k ↔ Passed left i j k ∨ k = j :=
    fun k => passed_succ_of_left h.le hleft
  have hne : ∀ k, Passed left i j k → (desc k).hwgpio ≠ (desc j).hwgpio := by
    intro k hk ho
    exact hinj k hk.2.1 (Prod.ext ((h.chip k hk).trans hchip.symm) ho)
  refine ⟨Nat.le_succ_of_le h.le, fun k hk => ?_, h.lines.congr (fun k => ?_) fun _ _ => rfl,
    fun o => ?_, fun k hk hk' => ?_, fun hcount => absurd hcount (Nat.succ_ne_zero _)⟩
  · rcases (hpassed k).mp hk with hk | rfl
    · exact h.chip k hk
    · exact hchip
  · show Passed left i (j + 1) k ∧ _ ↔ Passed left i j k ∧ _
    rw [hpassed]
    constructor
    · rintro ⟨hk | rfl, hsa⟩
      · exact ⟨hk, hsa⟩
      · exact absurd hsa hnot
    · exact fun ⟨hk, hsa⟩ => ⟨Or.inl hk, hsa⟩
  · show b.mask.assign (desc j).hwgpio true o = true ↔ _
    rw [assign_apply]
    by_cases ho : o = (desc j).hwgpio
    · rw [if_pos ho]
      exact iff_of_true rfl ⟨j, (hpassed j).mpr (Or.inr rfl), hnot, ho.symm⟩
    · rw [if_neg ho, h.mask]
      constructor
      · rintro ⟨k, hk, hrest⟩
        exact ⟨k, (hpassed k).mpr (Or.inl hk), hrest⟩
      · rintro ⟨k, hk, hnotk, hko⟩
        rcases (hpassed k).mp hk with hk | rfl
        · exact ⟨k, hk, hnotk, hko⟩
        · exact absurd hko.symm ho
  · show b.bits.assign (desc j).hwgpio (w j) (desc k).hwgpio = w k
    rcases (hpassed k).mp hk with hk | rfl
    · rw [assign_of_ne (hne k hk)]
      exact h.bits k hk hk'
    · exact assign_self

theorem Collected.setBody {info : Option ArrayInfo} {value : Bitmap}
    (h : Collected c desc raw left (level desc raw info value) s i j b) (hleft : left j)
    (hchip : (desc j).chip = (desc i).chip) (hinj : ∀ k < j, (desc k).key ≠ (desc j).key) :
    Collected c desc raw left (level desc raw info value) s i (j + 1)
      (setBody c desc raw info value j b) := by
  by_cases halone : SetAlone raw (desc j)
  · have hset := h.setAlone hleft hchip halone hinj
    unfold SetAlone at halone
    unfold commitLine at hset
    unfold Arrays.setBody
    cases hod : (desc j).openDrain && !raw with
    | true =>
      rw [hod, if_pos rfl] at hset
      rw [if_pos hod]
      exact hset
    | false =>
      have hos : ((desc j).openSource && !raw) = true := by
        rw [Bool.and_or_distrib_right, hod, Bool.false_or] at halone
        exact halone
      rw [hod, if_neg Bool.false_ne_true, if_pos hos] at hset
      rw [if_neg (Bool.eq_false_iff.mp hod), if_pos hos]
      exact hset
  · have hcol := h.collect hleft hchip halone hinj
    unfold SetAlone at halone
    rw [Bool.and_or_distrib_right, Bool.or_eq_true, not_or] at halone
    unfold Arrays.setBody
    rw [if_neg halone.1, if_neg halone.2]
    exact hcol

theorem Collected.stepped_pushBatch (h : Collected c desc raw left w s i j b)
    (hhw : ∀ k < j, (desc k).hwgpio < c.ngpio (desc k).chip)
    (hinj : ∀ k < j, ∀ k' < j, (desc k).key = (desc k').key → k = k') :
    Stepped (lineKey desc) (lineStep c desc raw w) {k | Passed left i j k} s
      (pushBatch c (desc i).chip b) := by
  have hpush : Stepped (lineKey desc) (lineStep c desc raw w)
      {k | Passed left i j k ∧ ¬ SetAlone raw (desc k)} b.lines
      (gpioChipSetMultiple c (desc i).chip b.mask b.bits b.lines) := by
    refine stepped_setMultiple ?_ ?_
    · rintro k ⟨hk, hnot⟩
      have hchip := h.chip k hk
      exact ⟨hchip, hchip ▸ hhw k hk.2.1, (h.mask _).mpr ⟨k, hk, hnot, rfl⟩, h.bits k hk hnot, hnot⟩
    · intro o _ hmask
      obtain ⟨k, hk, hnot, rfl⟩ := (h.mask o).mp hmask
      exact ⟨k, ⟨hk, hnot⟩, Prod.ext (h.chip k hk) rfl⟩
  have hpushed : Stepped (lineKey desc) (lineStep c desc raw w)
      {k | Passed left i j k ∧ ¬ SetAlone raw (desc k)} b.lines (pushBatch c (desc i).chip b) := by
    unfold pushBatch
    by_cases hcount : b.count = 0
    · rw [if_neg (not_not.mpr hcount)]
      exact Stepped.of_empty fun k hk => hk.2 (h.count hcount k hk.1)
    · rw [if_pos hcount]
      exact hpush
  refine (h.lines.trans hpushed fun a ha b' hb' heq => ?_).congr (fun k => ?_) fun _ _ => rfl
  · obtain rfl := hinj a ha.1.2.1 b' hb'.1.2.1 heq
    exact hb'.2 ha.2
  · show Passed left i j k ↔ (Passed left i j k ∧ _) ∨ (Passed left i j k ∧ _)
    rw [← and_or_left, and_iff_left (em _)]

section Rounds

/-- The positions that the mask for output leaves. -/
abbrev leftOut (info : Option ArrayInfo) : Nat → Prop := Clear (info.map ArrayInfo.setMask)

variable {info : Option ArrayInfo}

/-- A round writes the lines of one chip, and no others. -/
theorem setRound_spec (raw : Bool) (value : Bitmap) (s : Lines σ)
    (hhw : ∀ k < n, (desc k).hwgpio < c.ngpio (desc k).chip)
    (hinj : ∀ k < n, ∀ k' < n, (desc k).key = (desc k').key → k = k') (hi : i < n)
    (hleft : leftOut info i) (hmem : noMask c.ngpio desc env i = false) :
    let r := setRound c desc env raw n info value i s
    r.1 = 0 ∧ OneChip desc n (leftOut info) i r.2.1 ∧
      Stepped (lineKey desc) (lineStep c desc raw (level desc raw info value))
        {k | Passed (leftOut info) i r.2.1 k} s r.2.2 := by
  have hloop := doWhile_spec (n := n) (i := i) (info.map ArrayInfo.setMask)
    (Arrays.setBody c desc raw info value)
    (fun j => decide (j < n) && decide ((desc j).chip = (desc i).chip))
    (Collected c desc raw (leftOut info) (level desc raw info value) s i)
    (fun j hj => of_decide_eq_true ((Bool.and_eq_true _ _ ▸ hj).1)) ?_
    (fun j b hj hP => hP.skip hj) hi hleft (Nat.le_refl _)
    (collected_start (level desc raw info value) (env.scratch i))
  · obtain ⟨hcol, hlt, hle, hmore, hnext⟩ := hloop
    have hr : setRound c desc env raw n info value i s =
        (0, (doWhile (Arrays.setBody c desc raw info value)
          (nextClear (info.map ArrayInfo.setMask) n)
          (fun j => decide (j < n) && decide ((desc j).chip = (desc i).chip)) (n - i) i
          ⟨fun _ => false, env.scratch i, 0, s⟩).1, pushBatch c (desc i).chip
            (doWhile (Arrays.setBody c desc raw info value)
          (nextClear (info.map ArrayInfo.setMask) n)
          (fun j => decide (j < n) && decide ((desc j).chip = (desc i).chip)) (n - i) i
          ⟨fun _ => false, env.scratch i, 0, s⟩).2) := by
      rw [setRound, if_neg (Bool.eq_false_iff.mp hmem)]
    rw [hr]
    refine ⟨rfl, ⟨hlt, hle, hcol.chip, fun hn => ⟨hnext hn, fun hchip => ?_⟩⟩,
      hcol.stepped_pushBatch (fun k hk => hhw k (hk.trans_le hle))
        fun k hk k' hk' => hinj k (hk.trans_le hle) k' (hk'.trans_le hle)⟩
    simp [hn, hchip] at hmore
  · intro j b hj hclear hok hP
    refine hP.setBody hclear ?_ fun k hk heq => ?_
    · rcases hok with rfl | hok
      · rfl
      · exact of_decide_eq_true (Bool.and_eq_true _ _ ▸ hok).2
    · exact absurd (hinj k (hk.trans hj) j hj heq) (Nat.ne_of_lt hk)

/-- **The rounds.**  Without a failure every line that is left is set; a start without memory is a
failure, and its line is not set; and no other line is touched. -/
theorem setRounds_spec (env : Env) (raw : Bool) (value : Bitmap) (s : Lines σ)
    (hhw : ∀ k < n, (desc k).hwgpio < c.ngpio (desc k).chip)
    (hinj : ∀ k < n, ∀ k' < n, (desc k).key = (desc k').key → k = k') {rounds : Nat}
    (hrounds : n - i ≤ rounds) (hin : i ≤ n) (hstart : i < n → Starts desc n (leftOut info) i) :
    let r := setRounds c desc env raw n info value rounds i s
    ((∀ m, i ≤ m → Starts desc n (leftOut info) m → noMask c.ngpio desc env m = false) →
      r.1 = 0 ∧ Stepped (lineKey desc) (lineStep c desc raw (level desc raw info value))
        {k | Passed (leftOut info) i n k} s r.2) ∧
    ((∃ m, i ≤ m ∧ Starts desc n (leftOut info) m ∧ noMask c.ngpio desc env m = true) →
      ∃ k, Passed (leftOut info) i n k ∧ r.2 (lineKey desc k) = s (lineKey desc k)) ∧
    ∀ x, (∀ k, Passed (leftOut info) i n k → lineKey desc k ≠ x) → r.2 x = s x := by
  have hend : ∀ s : Lines σ, i = n →
      Stepped (lineKey desc) (lineStep c desc raw (level desc raw info value))
        {k | Passed (leftOut info) i n k} s s := by
    rintro s rfl
    exact Stepped.of_empty fun k hk => absurd hk.1 (Nat.not_le.mpr hk.2.1)
  induction rounds generalizing i s with
  | zero =>
    obtain rfl : i = n := by omega
    exact ⟨fun _ => ⟨rfl, hend s rfl⟩, fun ⟨m, him, hm, _⟩ => absurd hm.1 (Nat.not_lt.mpr him),
      fun _ _ => rfl⟩
  | succ rounds ih =>
    rw [setRounds]
    by_cases hlt : i < n
    · rw [if_pos hlt]
      have hs := hstart hlt
      cases hmem : noMask c.ngpio desc env i with
      | true =>
        have hr : setRound c desc env raw n info value i s = (-ENOMEM, i, s) := by
          rw [setRound, if_pos hmem]
        simp only [hr]
        refine ⟨fun hok => ?_, fun _ => ⟨i, ⟨Nat.le_refl i, hlt, hs.2.1⟩, rfl⟩, fun _ _ => rfl⟩
        exact Bool.noConfusion (hmem.symm.trans (hok i (Nat.le_refl i) hs))
      | false =>
        obtain ⟨hzero, hchip, hstep⟩ :=
          setRound_spec raw value s hhw hinj hlt hs.2.1 hmem
        generalize setRound c desc env raw n info value i s = r at hzero hchip hstep
        obtain ⟨ret, i', s'⟩ := r
        dsimp only at hzero hchip hstep
        subst hzero
        have hnext := ih s' (i := i') (by have := hchip.lt; omega) hchip.le
          (hchip.starts hs.2.1) fun s hi' => by
            subst hi'
            exact Stepped.of_empty fun k hk => absurd hk.1 (Nat.not_le.mpr hk.2.1)
        have hsplit : ∀ k, Passed (leftOut info) i n k ↔
            Passed (leftOut info) i i' k ∨ Passed (leftOut info) i' n k :=
          fun k => passed_split hchip.lt.le hchip.le
        simp only [ne_eq, not_true_eq_false, if_false]
        refine ⟨fun hok => ?_, ?_, fun x hx => ?_⟩
        · obtain ⟨hret, hrest⟩ := hnext.1 fun m hm => hok m (hchip.lt.le.trans hm)
          refine ⟨hret, (hstep.trans hrest fun a ha b hb heq => ?_).congr hsplit fun _ _ => rfl⟩
          have hab := hinj a (ha.2.1.trans_le hchip.le) b hb.2.1 heq
          exact absurd hb.1 (Nat.not_le.mpr (hab ▸ ha.2.1))
        · rintro ⟨m, him, hm, hbad⟩
          have hne : i ≠ m := fun heq => Bool.noConfusion (hmem.symm.trans (heq ▸ hbad))
          have hi'm := hchip.le_of_starts hs.2.1 hm (Nat.lt_of_le_of_ne him hne)
          obtain ⟨k, hk, hkeep⟩ := hnext.2.1 ⟨m, hi'm, hm, hbad⟩
          refine ⟨k, (hsplit k).mpr (Or.inr hk), hkeep.trans (hstep.off _ fun a ha heq => ?_)⟩
          have hak := hinj a (ha.2.1.trans_le hchip.le) k hk.2.1 heq
          exact absurd hk.1 (Nat.not_le.mpr (hak ▸ ha.2.1))
        · rw [hnext.2.2 x fun k hk => hx k ((hsplit k).mpr (Or.inr hk))]
          exact hstep.off x fun k hk => hx k ((hsplit k).mpr (Or.inl hk))
    · rw [if_neg hlt]
      exact ⟨fun _ => ⟨rfl, hend s (by omega)⟩,
        fun ⟨m, him, hm, _⟩ => absurd hm.1 (by omega), fun _ _ => rfl⟩

end Rounds

end RealtekIpcam.Gpiolib.Arrays
