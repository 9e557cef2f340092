import RealtekIpcam.Gpiolib.ArrayFast

/-!
# Arrays against single lines

An array operation should do what the operations on single lines do, one line after the other.
`SetMet` and `GetMet` are what it takes.  Without the masks of `gpiod_get_array` that is memory for
the rounds.  With them no line may break the order, and none from `array_size` on may be marked, as
the lines of a mask are all done; and where a line that is in order is active-low, the bitmap that
is inverted is the caller's.
-/

namespace RealtekIpcam.Gpiolib.Arrays

open Bitmap Pointwise

/-! ## Single lines -/

section SingleLines

variable {σ : Type} (c : Chips σ) (desc : Nat → Desc) (raw : Bool)

/-- A line is set by `gpiod_set_raw_value` or `gpiod_set_value_nocheck`. -/
def setLine (d : Desc) (value : Bool) (l : Line σ) : Line σ :=
  if raw then gpiodSetRawValue (c.ops d.key) value l
  else gpiodSetValueNocheck (c.ops d.key) d value l

/-- The lines below `n` are set one after the other. -/
def setEach (n : Nat) (value : Bitmap) (s : Lines σ) : Lines σ :=
  (List.range n).foldl (fun s k =>
    Function.update s (desc k).key (setLine c raw (desc k) (value k) (s (desc k).key))) s

/-- A line is read by `gpiod_get_raw_value` or `gpiod_get_value`. -/
def getLine (d : Desc) (l : Line σ) : Int :=
  if raw then gpiodGetRawValue (c.ops d.key) l else gpiodGetValue (c.ops d.key) d l

variable {c desc raw} {n : Nat} {s : Lines σ}

theorem setLine_eq (d : Desc) (value : Bool) :
    setLine c raw d value = commitLine c raw d (value ^^ (!raw && d.activeLow)) := by
  funext l
  unfold setLine commitLine gpiodSetValueNocheck
  cases raw with
  | true => simp
  | false => simp

theorem stepped_setEach (c : Chips σ) (raw : Bool)
    (hinj : ∀ k < n, ∀ k' < n, (desc k).key = (desc k').key → k = k')
    (value : Bitmap) (s : Lines σ) :
    Stepped (lineKey desc) (fun k => setLine c raw (desc k) (value k)) {k | k < n} s
      (setEach c desc raw n value s) := by
  induction n with
  | zero => exact Stepped.of_empty fun k hk => absurd hk (Nat.not_lt_zero k)
  | succ n ih =>
    have hprev := ih fun k hk k' hk' => hinj k (Nat.lt_succ_of_lt hk) k' (Nat.lt_succ_of_lt hk')
    unfold setEach at hprev ⊢
    rw [List.range_succ, List.foldl_append, List.foldl_cons, List.foldl_nil]
    refine (hprev.trans (stepped_update (lineKey desc)
      (fun k => setLine c raw (desc k) (value k)) _ n) fun a ha b hb => ?_).congr
        (fun k => Nat.lt_succ_iff_lt_or_eq) fun _ _ => rfl
    obtain rfl : b = n := hb
    intro heq
    exact absurd (hinj a (Nat.lt_succ_of_lt ha) b (Nat.lt_succ_self b) heq) (Nat.ne_of_lt ha)

theorem getLine_eq {k : Nat} (h : 0 ≤ reading c s (desc k).key) :
    getLine c raw (desc k) (s (desc k).key) = if lineValue c desc raw s k then 1 else 0 := by
  have hneg : ¬ (c.ops (desc k).key).get (s (desc k).key).hw < 0 := Int.not_lt.mpr h
  unfold getLine gpiodGetValue gpiodGetRawValue lineValue readValue
  simp only [reading, if_neg hneg]
  by_cases hzero : (c.ops (desc k).key).get (s (desc k).key).hw = 0
  · cases raw <;> cases (desc k).activeLow <;> simp [hzero]
  · cases raw <;> cases (desc k).activeLow <;> simp [hzero]

end SingleLines

/-! ## Agreement -/

section Agreement

variable (ngpio : Nat → Nat) (size : Nat) (desc : Nat → Desc) (env : Env) (raw : Bool) (n : Nat)
  (info : Option ArrayInfo)

/-- Writing does what setting each line does, and leaves the caller's bitmap. -/
def SetAgrees : Prop :=
  ∀ (σ : Type) (ops : Key → LineOps σ) (value : Bitmap) (s : Lines σ),
    (gpiodSetArrayValueComplex ⟨ngpio, ops⟩ desc env raw n info value s).2 =
      (value, setEach ⟨ngpio, ops⟩ desc raw n value s)

/-- When reading succeeds, the first `n` bits are what reading each line returns, and the others
are left. -/
def GetAgrees : Prop :=
  ∀ (σ : Type) (ops : Key → LineOps σ) (value : Bitmap) (s : Lines σ),
    let r := gpiodGetArrayValueComplex ⟨ngpio, ops⟩ desc env raw n info value s
    r.1 = 0 →
      (∀ k < n, (if r.2 k then 1 else 0) =
        getLine ⟨ngpio, ops⟩ raw (desc k) (s (desc k).key)) ∧
      ∀ k, n ≤ k → r.2 k = value k

/-- A line in order that is no open drain or open source. -/
def InOrderOut (j : Nat) : Prop :=
  InOrder desc j ∧ (desc j).openDrain = false ∧ (desc j).openSource = false

/-- A position that is written in rounds. -/
def RoundsOut (j : Nat) : Prop := info.isSome → ¬ InOrderOut desc j

/-- A position that is read in rounds. -/
def RoundsIn (j : Nat) : Prop := info.isSome → ¬ InOrder desc j

/-- No line breaks the order, none from `n` on can be written at one go, none of those below is
inverted, and there is memory for the rounds. -/
structure SetMet : Prop where
  order : info.isSome → ∀ m < size, ¬ BreaksOrder desc m
  within : info.isSome → ∀ j, n ≤ j → j < size → ¬ InOrderOut desc j
  plain : info.isSome → raw = false → ∀ k < n, InOrder desc k → (desc k).activeLow = false
  memory : ∀ m, Starts desc n (RoundsOut desc info) m → noMask ngpio desc env m = false

/-- No line breaks the order, and none from `n` on can be read at one go, or there is no memory for
a round. -/
structure GetMet : Prop where
  order : info.isSome → ∀ m < size, ¬ BreaksOrder desc m
  within : info.isSome → (∃ m, Starts desc n (RoundsIn desc info) m ∧
    noMask ngpio desc env m = true) ∨ ∀ j, n ≤ j → j < size → ¬ InOrder desc j

end Agreement

variable {ngpio : Nat → Nat}

/-- `descs->info`, or no masks. -/
def DescArray.info (a : DescArray ngpio) (masks : Bool) : Option ArrayInfo :=
  if masks then gpiodGetArray a.size a.desc else none

/-- The array comes with no masks, or with those of its lines in order, or a line breaks the order
and all from there on is marked. -/
theorem DescArray.info_cases (a : DescArray ngpio) (masks : Bool) :
    a.info masks = none ∨ ∃ i, a.info masks = some i ∧
      ((Marks a.desc a.size a.size i ∧ ∀ m < a.size, ¬ BreaksOrder a.desc m) ∨
        ∃ m < a.size, BreaksOrder a.desc m ∧ Marks a.desc a.size m i) := by
  unfold DescArray.info
  cases masks with
  | false => exact Or.inl rfl
  | true =>
    rw [if_pos rfl]
    cases h : gpiodGetArray a.size a.desc with
    | none => exact Or.inl rfl
    | some i => exact Or.inr ⟨i, rfl, (marks_of_gpiodGetArray h).2⟩

section Array

variable {a : DescArray ngpio} {env : Env} {raw : Bool} {n m k : Nat} {i : ArrayInfo}

theorem DescArray.lt_of_le (a : DescArray ngpio) (hn : n ≤ a.size) :
    ∀ k < n, (a.desc k).hwgpio < ngpio (a.desc k).chip :=
  fun k hk => a.lt_ngpio k (hk.trans_le hn)

theorem DescArray.inj_of_le (a : DescArray ngpio) (hn : n ≤ a.size) :
    ∀ k < n, ∀ k' < n, (a.desc k).key = (a.desc k').key → k = k' :=
  fun k hk k' hk' => a.key_inj k (hk.trans_le hn) k' (hk'.trans_le hn)

theorem InOrder.key {desc : Nat → Desc} {j : Nat} (h : InOrder desc j) :
    (desc j).key = ((desc 0).chip, j) :=
  Prod.ext h.1 h.2

theorem InOrder.lt_ngpio (hk : k < a.size) (h : InOrder a.desc k) : k < ngpio (a.desc 0).chip := by
  have hlt := a.lt_ngpio k hk
  rwa [h.1, h.2] at hlt

theorem DescArray.marks_of_order (masks : Bool)
    (h : (a.info masks).isSome → ∀ m < a.size, ¬ BreaksOrder a.desc m) :
    ∀ i ∈ a.info masks, Marks a.desc a.size a.size i := by
  rcases a.info_cases masks with hinfo | ⟨i, hinfo, hcases⟩
  · rw [hinfo]
    exact nofun
  · rw [hinfo] at h ⊢
    rintro _ ⟨⟩
    rcases hcases with ⟨hmarks, _⟩ | ⟨m, hm, hbreaks, _⟩
    · exact hmarks
    · exact absurd hbreaks (h rfl m hm)

theorem DescArray.le_size (a : DescArray ngpio) (masks : Bool) (hn : n ≤ a.size) :
    ∀ i ∈ a.info masks, n ≤ i.size := by
  rcases a.info_cases masks with hinfo | ⟨i, hinfo, ⟨hmarks, _⟩ | ⟨_, _, _, hmarks⟩⟩
  · rw [hinfo]
    exact nofun
  · rw [hinfo]
    rintro _ ⟨⟩
    exact hmarks.size ▸ hn
  · rw [hinfo]
    rintro _ ⟨⟩
    exact hmarks.size ▸ hn

section Marked

variable {info : Option ArrayInfo} (hmarks : ∀ i ∈ info, Marks a.desc a.size a.size i)

theorem Marks.setMask_iff (h : Marks a.desc a.size a.size i) {j : Nat} :
    i.setMask j = true ↔ j < a.size ∧ InOrderOut a.desc j :=
  (h.setMask j).trans (and_congr_right fun hj => forall_prop_of_true hj)

theorem Marks.getMask_iff (h : Marks a.desc a.size a.size i) {j : Nat} :
    i.getMask j = true ↔ j < a.size ∧ InOrder a.desc j :=
  (h.getMask j).trans (and_congr_right fun hj => forall_prop_of_true hj)

include hmarks in
theorem leftOut_iff (hk : k < a.size) : leftOut info k ↔ RoundsOut a.desc info k := by
  cases info with
  | none => exact iff_of_true nofun nofun
  | some i =>
    have hmask := (hmarks i rfl).setMask_iff (j := k)
    rw [and_iff_right hk] at hmask
    constructor
    · intro hclear _ hout
      exact Bool.noConfusion ((hmask.mpr hout).symm.trans (hclear _ rfl))
    · rintro hrounds _ ⟨⟩
      exact Bool.eq_false_iff.mpr fun hset => hrounds rfl (hmask.mp hset)

include hmarks in
theorem leftIn_iff (hk : k < a.size) : leftIn info k ↔ RoundsIn a.desc info k := by
  cases info with
  | none => exact iff_of_true nofun nofun
  | some i =>
    have hmask := (hmarks i rfl).getMask_iff (j := k)
    rw [and_iff_right hk] at hmask
    constructor
    · intro hclear _ hin
      exact Bool.noConfusion ((hmask.mpr hin).symm.trans (hclear _ rfl))
    · rintro hrounds _ ⟨⟩
      exact Bool.eq_false_iff.mpr fun hget => hrounds rfl (hmask.mp hget)

/-! ## Writing -/

variable {σ : Type}

include hmarks in
theorem flipped_eq (hplain : info.isSome → raw = false → ∀ k < n,
      InOrder a.desc k → (a.desc k).activeLow = false) (env : Env) (value : Bitmap) :
    flipped env raw n info value = value := by
  cases info with
  | none => rfl
  | some i =>
    funext k
    refine (invertAll_apply env raw n i value k).trans ?_
    have hempty : raw = false → i.invertMask.isEmpty n = true := by
      refine fun hraw => isEmpty_iff.mpr fun k hk => Bool.eq_false_iff.mpr fun hinv => ?_
      obtain ⟨_, hin, hlow⟩ := ((hmarks i rfl).invertMask k).mp hinv
      exact Bool.noConfusion (hlow.symm.trans (hplain rfl hraw k hk hin))
    have hflips : flips env raw n i k = false := by
      unfold flips
      cases hraw : raw with
      | true => rfl
      | false => rw [hempty hraw]; rfl
    rw [hflips, Bool.xor_false]

include hmarks in
theorem level_eq (hplain : info.isSome → raw = false → ∀ k < n,
      InOrder a.desc k → (a.desc k).activeLow = false) (value : Bitmap) (hk : k < n) :
    level a.desc raw info value k = (value k ^^ (!raw && (a.desc k).activeLow)) := by
  cases info with
  | none => simp [level]
  | some i =>
    cases hinv : i.invertMask k with
    | false => simp [level, hinv]
    | true =>
      obtain ⟨_, hin, hlow⟩ := ((hmarks i rfl).invertMask k).mp hinv
      cases hraw : raw with
      | true => simp [level]
      | false => exact Bool.noConfusion (hlow.symm.trans (hplain rfl hraw k hk hin))

include hmarks in
theorem stepped_fastSet (hn : n ≤ a.size)
    (hwithin : info.isSome → ∀ j, n ≤ j → j < a.size → ¬ InOrderOut a.desc j)
    (hplain : info.isSome → raw = false → ∀ k < n, InOrder a.desc k →
      (a.desc k).activeLow = false) (c : Chips σ) (hc : c.ngpio = ngpio) (value : Bitmap)
    (s : Lines σ) :
    Stepped (lineKey a.desc) (fun k => setLine c raw (a.desc k) (value k))
      {k | k < n ∧ ¬ leftOut info k} s (fastSet c info value s) := by
  subst hc
  cases info with
  | none => exact Stepped.of_empty fun k hk => hk.2 nofun
  | some i =>
    have h := hmarks i rfl
    have hfast : ∀ k < n, ¬ leftOut (some i) k → i.setMask k = true ∧ InOrderOut a.desc k := by
      intro k hk hleft
      have hmask : i.setMask k = true := by
        by_contra hset
        refine hleft ?_
        rintro _ ⟨⟩
        exact Bool.eq_false_iff.mpr hset
      exact ⟨hmask, (h.setMask_iff.mp hmask).2⟩
    have hset : Stepped (lineKey a.desc) (lineStep c a.desc raw value)
        {k | k < n ∧ ¬ leftOut (some i) k} s (gpioChipSetMultiple c i.chip i.setMask value s) := by
      refine stepped_setMultiple ?_ ?_
      · rintro k ⟨hk, hleft⟩
        obtain ⟨hmask, hout⟩ := hfast k hk hleft
        refine ⟨hout.1.1.trans h.chip.symm, ?_, ?_, ?_, ?_⟩
        · rw [h.chip, ← hout.1.1]
          exact a.lt_ngpio k (hk.trans_le hn)
        · rw [hout.1.2]
          exact hmask
        · rw [hout.1.2]
        · simp [SetAlone, hout.2.1, hout.2.2]
      · intro o _ hmask
        obtain ⟨ho, hout⟩ := h.setMask_iff.mp hmask
        have hlt : o < n := Nat.not_le.mp fun hle => hwithin rfl o hle ho hout
        refine ⟨o, ⟨hlt, fun hleft => ?_⟩, hout.1.key.trans ?_⟩
        · exact Bool.noConfusion (hmask.symm.trans (hleft _ rfl))
        · rw [h.chip]
    refine hset.congr (fun _ => Iff.rfl) fun k hk => ?_
    obtain ⟨_, hout⟩ := hfast k hk.1 hk.2
    show setLine c raw (a.desc k) (value k) = commitLine c raw (a.desc k) (value k)
    rw [setLine_eq]
    cases hraw : raw with
    | true => simp
    | false => rw [hplain rfl hraw k hk.1 hout.1]; simp

include hmarks in
theorem fastSet_of_left (hk : k < a.size) (hleft : leftOut info k) (c : Chips σ) (bits : Bitmap)
    (s : Lines σ) : fastSet c info bits s (a.desc k).key = s (a.desc k).key := by
  cases info with
  | none => rfl
  | some i =>
    have h := hmarks i rfl
    refine (gpioChipSetMultiple_apply ..).trans (if_neg ?_)
    rintro ⟨hchip, _, hmask⟩
    obtain ⟨ho, hout⟩ := h.setMask_iff.mp hmask
    have hkey := hout.1.key.trans (Prod.ext (h.chip.symm.trans hchip.symm) rfl)
    have hok : (a.desc k).hwgpio = k := a.key_inj _ ho k hk hkey
    rw [show (a.desc k).key.2 = k from hok] at hmask
    exact Bool.noConfusion (hmask.symm.trans (hleft _ rfl))

theorem SetMet.agrees {masks : Bool} (hn : n ≤ a.size)
    (h : SetMet ngpio a.size a.desc env raw n (a.info masks)) :
    SetAgrees ngpio a.desc env raw n (a.info masks) := by
  intro σ ops value s
  have hmarks := a.marks_of_order masks h.order
  have hflip := flipped_eq hmarks h.plain env value
  have hinj := a.inj_of_le hn
  obtain ⟨hbits, hgood, -, -⟩ := gpiodSetArrayValueComplex_spec ⟨ngpio, ops⟩ a.desc env raw value s
    (a.le_size masks hn) (a.lt_of_le hn) hinj
  rw [hflip] at hbits hgood
  have hfast := stepped_fastSet hmarks hn h.within h.plain ⟨ngpio, ops⟩ rfl value s
  have hslow := hgood fun m hm => h.memory m (hm.congr fun k hk =>
    leftOut_iff hmarks (hk.trans_le hn))
  have hslow' : Stepped (lineKey a.desc) (fun k => setLine ⟨ngpio, ops⟩ raw (a.desc k) (value k))
      {k | k < n ∧ leftOut (a.info masks) k} _ _ :=
    hslow.congr (fun _ => Iff.rfl) fun k hk => by
      rw [setLine_eq, ← level_eq hmarks h.plain value hk.1]
      rfl
  have hall := hfast.trans hslow' fun j hj k hk heq => by
    obtain rfl := hinj j hj.1 k hk.1 heq
    exact hj.2 hk.2
  refine Prod.ext hbits ((hall.congr (fun k => ?_) fun _ _ => rfl).unique
    (stepped_setEach _ _ hinj value s))
  show k < n ↔ (k < n ∧ _) ∨ (k < n ∧ _)
  rw [← and_or_left, and_iff_left (em' _)]

include hmarks in
/-- What the fast path reads. -/
theorem fastGet_spec (hn : n ≤ a.size) (c : Chips σ) (hc : c.ngpio = ngpio) (value : Bitmap)
    (s : Lines σ) (hret : (fastGet c env raw n info value s).1 = 0) :
    (∀ k < n, ¬ leftIn info k → 0 ≤ reading c s (a.desc k).key ∧
      (fastGet c env raw n info value s).2 k = lineValue c a.desc raw s k) ∧
    ((info.isSome → ∀ j, n ≤ j → j < a.size → ¬ InOrder a.desc j) →
      ∀ k, n ≤ k → (fastGet c env raw n info value s).2 k = value k) := by
  subst hc
  cases info with
  | none => exact ⟨fun k _ hleft => absurd nofun hleft, fun _ _ _ => rfl⟩
  | some i =>
    have h := hmarks i rfl
    have hret : (gpioChipGetMultiple c i.chip i.getMask value s).1 = 0 := hret
    have hbit : ∀ k, (fastGet c env raw n (some i) value s).2 k =
        ((if k < c.ngpio i.chip ∧ i.getMask k = true then decide (reading c s (i.chip, k) ≠ 0)
          else value k) ^^ flips env raw n i k) := fun k =>
      (invertAll_apply env raw n i _ k).trans (congrArg (· ^^ _) (gpioChipGetMultiple_apply hret k))
    refine ⟨fun k hk hleft => ?_, fun hwithin k hk => ?_⟩
    · have hmask : i.getMask k = true := by
        by_contra hget
        refine hleft ?_
        rintro _ ⟨⟩
        exact Bool.eq_false_iff.mpr hget
      obtain ⟨hlt, hin⟩ := h.getMask_iff.mp hmask
      have hkey : (a.desc k).key = (i.chip, k) := hin.key.trans (by rw [h.chip])
      have hio : k < c.ngpio i.chip := h.chip ▸ hin.lt_ngpio hlt
      have hinv : i.invertMask k = (a.desc k).activeLow :=
        Bool.eq_iff_iff.mpr ((h.invertMask k).trans
          ⟨fun hall => hall.2.2, fun hlow => ⟨hlt, hin, hlow⟩⟩)
      rw [hbit, if_pos ⟨hio, hmask⟩, flips_of_lt env raw n i hk, hinv, lineValue, hkey]
      exact ⟨gpioChipGetMultiple_eq_zero_iff.mp hret k hio hmask, rfl⟩
    · have hout : ¬ (k < a.size ∧ InOrder a.desc k) := fun hin => hwithin rfl k hk hin.1 hin.2
      have hinv : i.invertMask k = false := Bool.eq_false_iff.mpr fun hinv =>
        hout ⟨((h.invertMask k).mp hinv).1, ((h.invertMask k).mp hinv).2.1⟩
      rw [hbit, if_neg fun hall => hout (h.getMask_iff.mp hall.2), flips_of_not env raw n hinv,
        Bool.xor_false]

theorem GetMet.agrees {masks : Bool} (hn : n ≤ a.size)
    (h : GetMet ngpio a.size a.desc env n (a.info masks)) :
    GetAgrees ngpio a.desc env raw n (a.info masks) := by
  intro σ ops value s r hret
  have hmarks := a.marks_of_order masks h.order
  obtain ⟨hgood, -, hbad⟩ := gpiodGetArrayValueComplex_spec ⟨ngpio, ops⟩ a.desc env raw value s
    (a.le_size masks hn) (a.lt_of_le hn)
  obtain ⟨hfast, hnonneg, hstep⟩ := hgood hret
  obtain ⟨hone, hrest⟩ := fastGet_spec hmarks hn ⟨ngpio, ops⟩ rfl value s hfast
  refine ⟨fun k hk => ?_, fun k hk => ?_⟩
  · by_cases hleft : leftIn (a.info masks) k
    · rw [getLine_eq (hnonneg k hk hleft)]
      exact congrArg (fun b : Bool => if b then (1 : Int) else 0) (hstep.on k ⟨hk, hleft⟩)
    · obtain ⟨hk0, hbit⟩ := hone k hk hleft
      rw [getLine_eq hk0, ← hbit]
      exact congrArg (fun b : Bool => if b then (1 : Int) else 0)
        (hstep.off k fun j hj heq => hleft (heq ▸ hj.2))
  · refine (hstep.off k fun j hj heq => ?_).trans (hrest (fun hsome => ?_) k hk)
    · obtain rfl : j = k := heq
      exact absurd hj.1 (Nat.not_lt.mpr hk)
    · rcases h.within hsome with ⟨m, hm, hno⟩ | hnone
      · exact absurd hret (hbad ⟨m, hm.congr fun k hk =>
          (leftIn_iff hmarks (hk.trans_le hn)).symm, hno⟩)
      · exact hnone

end Marked

end Array

end RealtekIpcam.Gpiolib.Arrays
