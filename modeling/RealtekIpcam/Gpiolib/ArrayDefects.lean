import RealtekIpcam.Gpiolib.ArrayAgreement

/-!
# Where arrays and single lines differ

An array operation that agrees with those on single lines meets the conditions.  For this it is
tried on chips whose lines keep what was done to them last: a line that is written though it should
not be, or is not though it should be, is told by its mark.  `arrays_agree_iff` puts both directions
together.

When a line breaks the order, `gpiod_get_array` gives up its pointer to the masks, and the array
keeps them: three lines of a chip in another order are written by their positions,
`not_agrees_swapped`.
-/

namespace RealtekIpcam.Gpiolib.Arrays

open Bitmap Pointwise

variable {ngpio : Nat → Nat} {a : DescArray ngpio} {env : Env} {raw : Bool} {n m k : Nat}
  {i : ArrayInfo} {info : Option ArrayInfo}

theorem lt_of_breaksOrder (hm : m < a.size) (h : BreaksOrder a.desc m) :
    m < (a.desc m).hwgpio := by
  refine Nat.lt_of_le_of_ne (Nat.not_lt.mp fun hlt => h.2.2 ?_) h.2.2.symm
  refine a.key_inj _ (hlt.trans hm) m hm ((h.1 _ hlt).key.trans ?_)
  exact Prod.ext h.2.1.symm rfl

theorem lt_ngpio_of_breaksOrder (hm : m < a.size) (h : BreaksOrder a.desc m) :
    (a.desc m).hwgpio < ngpio (a.desc 0).chip :=
  h.2.1 ▸ a.lt_ngpio m hm

/-! ## A chip that keeps what was done -/

/-- Lines that keep what was done to them last. -/
def marking : LineOps Nat where
  get mark := mark
  set value _ := value.toNat
  directionInput _ := (0, 2)
  directionOutput _ _ := (0, 3)

/-- Chips with such lines. -/
def markingChips (ngpio : Nat → Nat) : Chips Nat := ⟨ngpio, fun _ => marking⟩

/-- Nothing has been done yet. -/
def unmarked : Lines Nat := fun _ => ⟨4, false⟩

theorem setLine_marks (d : Desc) (value : Bool) (l : Line Nat) :
    (setLine (markingChips ngpio) raw d value l).hw ≠ 4 := by
  have hbit : ∀ b : Bool, b.toNat ≠ 4 := by decide
  have hin : 2 ≠ 4 := by decide
  have hout : 3 ≠ 4 := by decide
  rw [setLine_eq]
  generalize (value ^^ (!raw && d.activeLow)) = b
  unfold commitLine gpioSetOpenDrainValueCommit gpioSetOpenSourceValueCommit
  split
  · split
    · exact hin
    · exact hout
  · split
    · split
      · exact hout
      · exact hin
    · exact hbit b

theorem SetAgrees.marked (hn : n ≤ a.size) (hsize : ∀ i ∈ info, n ≤ i.size)
    (h : SetAgrees ngpio a.desc env raw n info) (value : Bitmap) :
    flipped env raw n info value = value ∧ ∀ x, (∀ k < n, leftOut info k → (a.desc k).key ≠ x) →
      fastSet (markingChips ngpio) info value unmarked x =
        setEach (markingChips ngpio) a.desc raw n value unmarked x := by
  obtain ⟨hbits, -, -, hoff⟩ := gpiodSetArrayValueComplex_spec (markingChips ngpio) a.desc env
    raw value unmarked hsize (a.lt_of_le hn) (a.inj_of_le hn)
  have hagree := h Nat (fun _ => marking) value unmarked
  have hflip : flipped env raw n info value = value := hbits.symm.trans (congrArg Prod.fst hagree)
  rw [hflip] at hoff
  exact ⟨hflip, fun x hx => (hoff x hx).symm.trans (congrFun (congrArg Prod.snd hagree) x)⟩

theorem SetAgrees.mem (hn : n ≤ a.size) (hsize : n ≤ i.size)
    (h : SetAgrees ngpio a.desc env raw n (some i)) {o : Nat} (ho : o < ngpio i.chip)
    (hmask : i.setMask o = true) : ∃ k < n, (a.desc k).key = (i.chip, o) := by
  by_contra hnone
  have hne : ∀ k < n, (a.desc k).key ≠ (i.chip, o) := fun k hk heq => hnone ⟨k, hk, heq⟩
  have hsame := (h.marked hn (fun _ hi => Option.some.inj hi ▸ hsize) (fun _ => false)).2 _
    fun k hk _ => hne k hk
  rw [(stepped_setEach _ _ (a.inj_of_le hn) _ unmarked).off _ hne, fastSet,
    gpioChipSetMultiple_apply, if_pos ⟨rfl, ho, hmask⟩] at hsame
  have hmarks : 0 = 4 := congrArg Line.hw hsame
  exact absurd hmarks (by decide)

theorem SetAgrees.not_breaksOrder (hn : n ≤ a.size) (hmarks : Marks a.desc a.size m i)
    (hm : m < a.size) (h : SetAgrees ngpio a.desc env raw n (some i)) :
    ¬ BreaksOrder a.desc m := by
  intro hbreaks
  have hsize : n ≤ i.size := hmarks.size ▸ hn
  have hgt := lt_of_breaksOrder hm hbreaks
  have hlt := lt_ngpio_of_breaksOrder hm hbreaks
  have hmask : ∀ j, m ≤ j → j < a.size → i.setMask j = true := fun j hmj hj =>
    (hmarks.setMask j).mpr ⟨hj, fun habs => absurd habs (Nat.not_lt.mpr hmj)⟩
  rcases Nat.lt_or_ge m n with hmn | hnm
  · -- the bit that reaches its line is another one, or none
    have hkeep := fun value => (h.marked hn (fun _ hi => Option.some.inj hi ▸ hsize) value).2
      (a.desc m).key fun k hk hl heq => by
        obtain rfl := a.inj_of_le hn k hk m hmn heq
        exact Bool.noConfusion ((hmask k (Nat.le_refl k) hm).symm.trans (hl _ rfl))
    have hset : ∀ value, setEach (markingChips ngpio) a.desc raw n value unmarked (a.desc m).key =
        setLine (markingChips ngpio) raw (a.desc m) (value m) (unmarked (a.desc m).key) :=
      fun value => (stepped_setEach _ _ (a.inj_of_le hn) value unmarked).on m hmn
    have hfast : ∀ value, fastSet (markingChips ngpio) (some i) value unmarked (a.desc m).key =
        if (a.desc m).hwgpio < a.size then ⟨(value (a.desc m).hwgpio).toNat, false⟩
          else ⟨4, false⟩ := by
      intro value
      refine (gpioChipSetMultiple_apply i.chip i.setMask value unmarked _).trans ?_
      by_cases hin : (a.desc m).hwgpio < a.size
      · rw [if_pos hin, if_pos ⟨hbreaks.2.1.trans hmarks.chip.symm, hmarks.chip ▸ hlt,
          hmask _ hgt.le hin⟩]
        rfl
      · rw [if_neg hin, if_neg fun hall => hin ((hmarks.setMask _).mp hall.2.2).1]
        rfl
    have hline := fun value => (hset value).symm.trans ((hkeep value).symm.trans (hfast value))
    by_cases hin : (a.desc m).hwgpio < a.size
    · have hlow := hline fun _ => false
      have hhigh := hline fun k => decide (k = (a.desc m).hwgpio)
      rw [if_pos hin] at hlow hhigh
      rw [decide_eq_false (Nat.ne_of_lt hgt), hlow] at hhigh
      have hbits : false.toNat = (decide ((a.desc m).hwgpio = (a.desc m).hwgpio)).toNat :=
        congrArg Line.hw hhigh
      simp at hbits
    · have hleft := hline fun _ => false
      rw [if_neg hin] at hleft
      exact setLine_marks _ _ _ (congrArg Line.hw hleft)
  · obtain ⟨k, hk, heq⟩ := h.mem hn hsize (o := m) (hmarks.chip ▸ hgt.trans hlt)
      (hmask m (Nat.le_refl m) hm)
    have hin := hbreaks.1 k (hk.trans_le hnm)
    exact absurd (hin.2.symm.trans (congrArg Prod.snd heq)) (Nat.ne_of_lt (hk.trans_le hnm))

theorem DescArray.order_of_marks (a : DescArray ngpio) (masks : Bool)
    (h : ∀ i m, a.info masks = some i → m < a.size → Marks a.desc a.size m i →
      ¬ BreaksOrder a.desc m) :
    (a.info masks).isSome → ∀ m < a.size, ¬ BreaksOrder a.desc m := by
  rcases a.info_cases masks with hinfo | ⟨i, hinfo, ⟨_, hnone⟩ | ⟨m, hm, hbreaks, hmarks⟩⟩
  · rw [hinfo]
    exact nofun
  · exact fun _ => hnone
  · exact absurd hbreaks (h i m hinfo hm hmarks)

theorem SetAgrees.met {masks : Bool} (hn : n ≤ a.size)
    (h : SetAgrees ngpio a.desc env raw n (a.info masks)) :
    SetMet ngpio a.size a.desc env raw n (a.info masks) := by
  have hsize := a.le_size masks hn
  have horder := a.order_of_marks masks fun i m hinfo hm hmarks =>
    SetAgrees.not_breaksOrder hn hmarks hm (hinfo ▸ h)
  have hmarks := a.marks_of_order masks horder
  generalize a.info masks = info at h hsize horder hmarks
  refine ⟨horder, fun hsome j hnj hj hout => ?_, fun hsome hraw k hk hin => ?_, fun m hm => ?_⟩
  · obtain ⟨i, rfl⟩ := Option.isSome_iff_exists.mp hsome
    have hmarks := hmarks i rfl
    obtain ⟨k, hk, heq⟩ := h.mem hn (hsize i rfl) (o := j)
      (hmarks.chip ▸ hout.1.lt_ngpio hj)
      (hmarks.setMask_iff.mpr ⟨hj, hout⟩)
    rw [hmarks.chip, ← hout.1.key] at heq
    have hkj := a.key_inj k (hk.trans_le hn) j hj heq
    exact absurd hk (Nat.not_lt.mpr (hkj ▸ hnj))
  · obtain ⟨i, rfl⟩ := Option.isSome_iff_exists.mp hsome
    refine Bool.eq_false_iff.mpr fun hlow => ?_
    have hinv := ((hmarks i rfl).invertMask k).mpr ⟨hk.trans_le hn, hin, hlow⟩
    have hbit := congrFun (h.marked hn hsize fun _ => false).1 k
    rw [flipped, invertAll_apply, flips_of_lt env raw n i hk, hraw, hinv] at hbit
    exact absurd hbit (by decide)
  · by_contra hmem
    have hm' : Starts a.desc n (leftOut info) m :=
      hm.congr fun k hk => (leftOut_iff hmarks (hk.trans_le hn)).symm
    obtain ⟨hbits, -, hbad, -⟩ := gpiodSetArrayValueComplex_spec (markingChips ngpio) a.desc env
      raw (fun _ => false) unmarked hsize (a.lt_of_le hn) (a.inj_of_le hn)
    obtain ⟨k, hk, hleft, hkeep⟩ := hbad ⟨m, hm', Bool.not_eq_false _ ▸ hmem⟩
    have hagree := h Nat (fun _ => marking) (fun _ => false) unmarked
    have hset := (stepped_setEach (markingChips ngpio) raw (a.inj_of_le hn)
      (fun _ => false) unmarked).on k hk
    have hsame := hkeep.symm.trans ((congrFun (congrArg Prod.snd hagree) _).trans hset)
    rw [fastSet_of_left hmarks (hk.trans_le hn) hleft] at hsame
    exact setLine_marks _ _ _ (congrArg Line.hw hsame).symm

/-! ## Reading -/

theorem GetAgrees.marked (hn : n ≤ a.size) (hsize : ∀ i ∈ info, n ≤ i.size)
    (hmem : ∀ m, Starts a.desc n (leftIn info) m → noMask ngpio a.desc env m = false)
    (h : GetAgrees ngpio a.desc env raw n info) (value : Bitmap) (s : Lines Nat)
    (hleft : ¬ (k < n ∧ leftIn info k)) :
    (k < n → (if (fastGet (markingChips ngpio) env raw n info value s).2 k then 1 else 0) =
      getLine (markingChips ngpio) raw (a.desc k) (s (a.desc k).key)) ∧
    (n ≤ k → (fastGet (markingChips ngpio) env raw n info value s).2 k = value k) := by
  obtain ⟨hgood, hok, -⟩ := gpiodGetArrayValueComplex_spec (markingChips ngpio) a.desc env raw
    value s hsize (a.lt_of_le hn)
  have hret := hok hmem fun x => Int.natCast_nonneg (s x).hw
  obtain ⟨_, _, hstep⟩ := hgood hret
  obtain ⟨hline, hrest⟩ := h Nat (fun _ => marking) value s hret
  have hsame := hstep.off k fun j hj heq => hleft ((show j = k from heq) ▸ hj)
  rw [← hsame]
  exact ⟨hline k, hrest k⟩

theorem fastGet_marked (hmask : i.getMask k = true) (hk : k < ngpio i.chip) (value : Bitmap)
    (s : Lines Nat) : (fastGet (markingChips ngpio) env raw n (some i) value s).2 k =
      (decide ((s (i.chip, k)).hw ≠ 0) ^^ flips env raw n i k) := by
  have hret : (gpioChipGetMultiple (markingChips ngpio) i.chip i.getMask value s).1 = 0 :=
    gpioChipGetMultiple_eq_zero_iff.mpr fun o _ _ => Int.natCast_nonneg _
  refine (invertAll_apply env raw n i _ k).trans (congrArg (· ^^ _) ?_)
  refine (gpioChipGetMultiple_apply hret k).trans ((if_pos ⟨hk, hmask⟩).trans ?_)
  refine decide_eq_decide.mpr (not_congr ?_)
  exact Int.natCast_eq_zero

theorem GetAgrees.lt (hn : n ≤ a.size) (hsize : n ≤ i.size)
    (hmem : ∀ m, Starts a.desc n (leftIn (some i)) m → noMask ngpio a.desc env m = false)
    (h : GetAgrees ngpio a.desc env raw n (some i)) (hk : k < ngpio i.chip)
    (hmask : i.getMask k = true) : k < n := by
  by_contra hge
  have hbit := fun value => (fastGet_marked hmask hk value unmarked).symm.trans
    ((h.marked hn (fun _ hi => Option.some.inj hi ▸ hsize) hmem value unmarked
      fun hlt => hge hlt.1).2 (Nat.not_lt.mp hge))
  exact Bool.noConfusion ((hbit fun _ => true).symm.trans (hbit fun _ => false))

theorem GetAgrees.not_breaksOrder (hn : n ≤ a.size) (hmarks : Marks a.desc a.size m i)
    (hm : m < a.size) (h : GetAgrees ngpio a.desc env raw n (some i)) :
    ¬ BreaksOrder a.desc m := by
  intro hbreaks
  have hsize : n ≤ i.size := hmarks.size ▸ hn
  have hio : m < ngpio i.chip :=
    hmarks.chip ▸ (lt_of_breaksOrder hm hbreaks).trans (lt_ngpio_of_breaksOrder hm hbreaks)
  have hfull : ∀ j < n, i.getMask j = true := fun j hj =>
    (hmarks.getMask j).mpr ⟨hj.trans_le hn, hbreaks.1 j⟩
  have hnone : ∀ j < n, ¬ leftIn (some i) j := fun j hj hl =>
    Bool.noConfusion ((hfull j hj).symm.trans (hl _ rfl))
  have hmem : ∀ j, Starts a.desc n (leftIn (some i)) j → noMask ngpio a.desc env j = false :=
    fun j hj => absurd hj.2.1 (hnone j hj.1)
  have hmask : i.getMask m = true :=
    (hmarks.getMask m).mpr ⟨hm, fun habs => absurd habs (Nat.lt_irrefl m)⟩
  have hlt := h.lt hn hsize hmem hio hmask
  have hflips : flips env raw n i m = false :=
    flips_of_not env raw n <| Bool.eq_false_iff.mpr fun hinv =>
      absurd ((hmarks.invertMask m).mp hinv).1 (Nat.lt_irrefl m)
  have hline : ∀ s : Lines Nat, (if decide ((s (i.chip, m)).hw ≠ 0) then (1 : Int) else 0) =
      getLine (markingChips ngpio) raw (a.desc m) (s (a.desc m).key) := by
    intro s
    have hbit := (h.marked hn (fun _ hi => Option.some.inj hi ▸ hsize) hmem (fun _ => false) s
      fun hl => hnone m hlt hl.2).1 hlt
    rwa [fastGet_marked hmask hio, hflips, Bool.xor_false] at hbit
  -- the line that is read is another one
  have hkey : (a.desc m).key ≠ (i.chip, m) := fun heq => hbreaks.2.2 (congrArg Prod.snd heq)
  have hlow := hline fun _ => ⟨0, false⟩
  have hhigh := hline (Function.update (fun _ => ⟨0, false⟩) (i.chip, m) ⟨1, false⟩)
  rw [Function.update_of_ne hkey, Function.update_self, ← hlow] at hhigh
  simp at hhigh

theorem GetAgrees.met {masks : Bool} (hn : n ≤ a.size)
    (h : GetAgrees ngpio a.desc env raw n (a.info masks)) :
    GetMet ngpio a.size a.desc env n (a.info masks) := by
  have hsize := a.le_size masks hn
  have horder := a.order_of_marks masks fun i m hinfo hm hmarks =>
    GetAgrees.not_breaksOrder hn hmarks hm (hinfo ▸ h)
  have hmarks := a.marks_of_order masks horder
  generalize a.info masks = info at h hsize horder hmarks
  refine ⟨horder, fun hsome => or_iff_not_imp_left.mpr fun hmem j hnj hj hin => ?_⟩
  obtain ⟨i, rfl⟩ := Option.isSome_iff_exists.mp hsome
  have hmark := hmarks i rfl
  have hlt := h.lt hn (hsize i rfl) (k := j) (fun m hm => ?_) (hmark.chip ▸ hin.lt_ngpio hj)
    (hmark.getMask_iff.mpr ⟨hj, hin⟩)
  · exact absurd hlt (Nat.not_lt.mpr hnj)
  · refine Bool.eq_false_iff.mpr fun hno => hmem ⟨m, hm.congr fun k hk => ?_, hno⟩
    exact leftIn_iff hmarks (hk.trans_le hn)

/-! ## Both -/

/-- **Arrays and single lines.**  Writing an array, and reading it, agrees with the operations on
its lines if and only if the condition is met. -/
theorem arrays_agree_iff (a : DescArray ngpio) (masks : Bool) (hn : n ≤ a.size) (env : Env)
    (raw : Bool) :
    (SetAgrees ngpio a.desc env raw n (a.info masks) ↔
      SetMet ngpio a.size a.desc env raw n (a.info masks)) ∧
    (GetAgrees ngpio a.desc env raw n (a.info masks) ↔
      GetMet ngpio a.size a.desc env n (a.info masks)) :=
  ⟨⟨SetAgrees.met hn, SetMet.agrees hn⟩, GetAgrees.met hn, GetMet.agrees hn⟩

/-- Words of 64 bits, and memory everywhere. -/
def plenty : Env := ⟨512, 64, by decide, fun _ => true, fun _ _ => false⟩

/-- Two lines of a chip in order; the second one is an open drain. -/
def pair : DescArray fun _ => 2 where
  size := 2
  desc k := ⟨0, if k = 0 then 0 else 1, false, decide (k = 1), false⟩
  lt_ngpio := by decide
  key_inj := by decide

/-- Two lines in order agree. -/
theorem agrees_pair : 2 ≤ pair.size ∧
    SetAgrees (fun _ => 2) pair.desc plenty false 2 (pair.info true) ∧
      GetAgrees (fun _ => 2) pair.desc plenty false 2 (pair.info true) := by
  have hle : 2 ≤ pair.size := by decide
  have hnone : ∀ m < 2, ¬ BreaksOrder pair.desc m := by decide
  have hout : ∀ j, 2 ≤ j → j < 2 → ¬ InOrder pair.desc j :=
    fun j hj hlt => absurd hj (Nat.not_le.mpr hlt)
  obtain ⟨hset, hget⟩ := arrays_agree_iff pair true hle plenty false
  have hmet : SetMet (fun _ => 2) 2 pair.desc plenty false 2 (pair.info true) :=
    ⟨fun _ => hnone, fun _ j hj hlt h => hout j hj hlt h.1, fun _ _ _ _ _ => rfl, fun _ _ => rfl⟩
  exact ⟨hle, hset.mpr hmet, hget.mpr ⟨fun _ => hnone, fun _ => Or.inr hout⟩⟩

/-- Three lines of a chip, of which the last two are the other way round. -/
def swapped : DescArray fun _ => 3 where
  size := 3
  desc k := ⟨0, if k = 0 then 0 else if k = 1 then 2 else 1, false, false, false⟩
  lt_ngpio := by decide
  key_inj := by decide

/-- The value for the second line reaches the third one. -/
theorem not_agrees_swapped :
    ¬ (SetAgrees (fun _ => 3) swapped.desc plenty false 3 (swapped.info true) ∧
      GetAgrees (fun _ => 3) swapped.desc plenty false 3 (swapped.info true)) := by
  rintro ⟨hset, -⟩
  have hlines := hset Nat (fun _ => marking) (fun k => decide (k = 1)) unmarked
  have hmark := congrArg Line.hw (congrFun (congrArg Prod.snd hlines) (0, 1))
  exact absurd hmark (by decide)

end RealtekIpcam.Gpiolib.Arrays
