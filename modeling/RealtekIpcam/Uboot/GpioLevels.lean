import RealtekIpcam.Lib.Runs
import RealtekIpcam.Uboot.Gpio

/-!
# The level of a boot loader GPIO

A user of a GPIO sets its level with `dm_gpio_set_value` and configures it with
`dm_gpio_clrset_flags` and `dm_gpio_set_dir_flags`.  The second kind of call sends direction and
level to the driver every time, and takes both from `desc->flags`.  The first kind reaches the line
but not `desc->flags`.

`Tracked` is a descriptor together with the level that was last asked for.  An operation is in
order, `Op.StepOk`, if an output shows that level afterwards, if flags other than the direction
leave direction and level as they are, and if a failure leaves `desc->flags` as it is.  Along a run
of operations on a fresh descriptor this is so exactly as long as each of them meets `Op.Cond`: what
`desc->flags` remembers is what the line does, whenever it is sent again for the sake of another
flag.
-/

namespace RealtekIpcam.Uboot.Gpio

open Runs

/-! ## Levels -/

namespace Desc

variable (g : Desc)

/-- The level at the pin: what is driven, or what a line shows that open drain or open source has
released; `none` for a line that floats. -/
def pinLevel : Option Bool :=
  if g.line.out then some g.line.level
  else if has g.flags gpiodOpenDrain then some true
  else if has g.flags gpiodOpenSource then some false
  else none

/-- The line is an output, at the pin or by its descriptor. -/
def IsOutput : Prop := g.line.out = true ∨ has g.flags gpiodIsOut = true

/-- The logical level, as `dm_gpio_get_value` gives it. -/
def logical : Option Bool := g.pinLevel.map g.gpioGetValue

end Desc

/-- A descriptor, and the level that was last asked for. -/
structure Tracked where
  desc : Desc
  want : Option Bool

/-- An output shows the level that was last asked for. -/
def Tracked.LevelOk (t : Tracked) : Prop :=
  ∀ v, t.want = some v → t.desc.IsOutput → t.desc.logical = some v

/-- A descriptor as a request finds it: flags without a direction, and any line. -/
structure Tracked.Fresh (t : Tracked) : Prop where
  reserved : t.desc.checkReserved = 0
  flags : t.desc.flags &&& gpiodMaskDir = 0#32
  want : t.want = none

/-! ## Operations -/

/-- A call on the descriptor; `ret` is what the driver returns if it is called. -/
inductive Op where
  | setValue (value : Bool) (ret : Int)
  | clrsetFlags (clr set : Flags) (ret : Int)

/-- A call of `dm_gpio_set_dir_flags`. -/
def Op.setDirFlags (flags : Flags) (ret : Int) : Op := .clrsetFlags gpiodMaskDir flags ret

/-- The masks name the direction or the level. -/
def touchesDir (clr set : Flags) : Bool := (clr ||| set) &&& gpiodMaskDir != 0#32

namespace Op

variable (d : Interface)

def run (g : Desc) : Op → Int × Desc
  | .setValue value ret => g.dmGpioSetValue d ret value
  | .clrsetFlags clr set ret => g.dmGpioClrsetFlags d ret clr set

/-- The level that a successful operation asks for; `flags` is `desc->flags` after it. -/
def asks (flags : Flags) : Op → Option Bool
  | .setValue value _ => some value
  | .clrsetFlags clr set _ =>
    if touchesDir clr set && has flags gpiodIsOut then some (has flags gpiodIsOutActive) else none

/-- An operation, and what is asked for after it. -/
def step (t : Tracked) (op : Op) : Int × Tracked :=
  let done := op.run d t.desc
  (done.1, ⟨done.2, if done.1 = 0 then (op.asks done.2.flags).or t.want else t.want⟩)

/-- Flags other than the direction leave the direction, and the level of an output. -/
def Keeps (t : Tracked) (op : Op) : Prop :=
  match op with
  | .setValue _ _ => True
  | .clrsetFlags clr set _ => (op.step d t).1 = 0 → touchesDir clr set = false →
      (op.step d t).2.desc.line.out = t.desc.line.out ∧
        (t.desc.line.out = true → (op.step d t).2.desc.logical = t.desc.logical)

/-- **The operation is in order.** -/
structure StepOk (t : Tracked) (op : Op) : Prop where
  level : (op.step d t).2.LevelOk
  keeps : op.Keeps d t
  fails : (op.step d t).1 ≠ 0 → (op.step d t).2.desc.flags = t.desc.flags

/-- The line does what `desc->flags` remembers of it, where the operation sends that again. -/
def Cond (t : Tracked) : Op → Prop
  | .setValue value ret =>
    -- a driver with `set_flags` is told a level without a direction
    d = .setFlags → ret = 0 → has t.desc.flags gpiodIsOut = false →
      has t.desc.flags gpiodIsIn = false → t.desc.line.out = true →
      t.desc.line.level = (value ^^ has t.desc.flags gpiodActiveLow)
  | .clrsetFlags clr set ret =>
    let flags := t.desc.flags &&& ~~~clr ||| set
    Desc.checkDirFlags flags = 0 → (Sends d flags → ret = 0) →
      if has flags gpiodIsOut then
        touchesDir clr set = false → t.desc.line =
          ⟨true, has t.desc.flags gpiodIsOutActive ^^ has t.desc.flags gpiodActiveLow⟩
      else if has flags gpiodIsIn then
        touchesDir clr set = false → t.desc.line.out = false
      else
        -- no direction is sent, so a change of polarity does not reach the line
        t.desc.line.out = true → (touchesDir clr set = true → t.want ≠ none) →
          has flags gpiodActiveLow = has t.desc.flags gpiodActiveLow

end Op

/-! ## What stays true -/

/-- What every operation keeps. -/
structure Inv (t : Tracked) : Prop where
  reserved : t.desc.checkReserved = 0
  checked : has t.desc.flags gpiodIsOut = true → Desc.checkDirFlags t.desc.flags = 0
  emulated : has t.desc.flags gpiodIsOut = true → t.desc.line.out = true ∨
    has t.desc.flags gpiodOpenDrain = true ∨ has t.desc.flags gpiodOpenSource = true
  level : t.LevelOk

variable {d : Interface} {t : Tracked} {ret : Int} {g : Desc} {flags clr set : Flags}

theorem has_eq_false_of_mask {x flag mask : Flags} (hx : x &&& mask = 0#32)
    (hflag : mask &&& flag = flag) : has x flag = false := by
  unfold has
  rw [← hflag, ← BitVec.and_assoc, hx, BitVec.zero_and]
  rfl

theorem Tracked.Fresh.inv (h : t.Fresh) : Inv t := by
  have hout : has t.desc.flags gpiodIsOut = false := has_eq_false_of_mask h.flags rfl
  refine ⟨h.reserved, fun h' => ?_, fun h' => ?_, fun v hv => ?_⟩
  · rw [hout] at h'
    cases h'
  · rw [hout] at h'
    cases h'
  · rw [h.want] at hv
    cases hv

theorem Desc.gpioGetValue_eq (value : Bool) :
    g.gpioGetValue value = (value ^^ has g.flags gpiodActiveLow) := by
  unfold gpioGetValue
  cases has g.flags gpiodActiveLow <;> simp

theorem Desc.logical_of_out (h : g.line.out = true) :
    g.logical = some (g.line.level ^^ has g.flags gpiodActiveLow) := by
  unfold logical pinLevel
  rw [if_pos h, Option.map_some, gpioGetValue_eq]

theorem not_both_of_checkDirFlags (h : Desc.checkDirFlags flags = 0)
    (hd : has flags gpiodOpenDrain = true) : has flags gpiodOpenSource = false := by
  refine Bool.eq_false_iff.mpr fun hs => ?_
  unfold Desc.checkDirFlags at h
  rw [hd, hs] at h
  split at h
  · exact absurd h (by decide)
  · split at h
    · exact absurd h (by decide)
    · exact absurd h (by decide)

theorem has_of_not_touchesDir (h : touchesDir clr set = false) {flag : Flags} (hflag : IsFlag flag)
    (hmask : gpiodMaskDir &&& flag = flag) :
    has (flags &&& ~~~clr ||| set) flag = has flags flag := by
  have hzero : (clr ||| set) &&& gpiodMaskDir = 0#32 := by
    unfold touchesDir at h
    exact of_not_not fun hne => Bool.eq_false_iff.mp h (bne_iff_ne.mpr hne)
  have hnone := has_eq_false_of_mask hzero hmask
  rw [has_or hflag, Bool.or_eq_false_iff] at hnone
  rw [has_or hflag, has_andNot hflag, hnone.1, hnone.2]
  simp

theorem Op.step_of_run (op : Op) {r : Int} (hrun : op.run d t.desc = (r, g)) :
    op.step d t = (r, ⟨g, if r = 0 then (op.asks g.flags).or t.want else t.want⟩) := by
  unfold Op.step
  rw [hrun]

theorem Op.step_setValue (hres : t.desc.checkReserved = 0) (value : Bool) :
    (Op.setValue value ret).step d t =
      if ret = 0 then (0, ⟨{ t.desc with
        line := Desc.valueLine d t.desc.flags (value ^^ has t.desc.flags gpiodActiveLow)
          t.desc.line }, some value⟩)
      else (ret, t) := by
  have hrun := Desc.dmGpioSetValue_eq d ret hres value
  by_cases hret : ret = 0
  · rw [if_pos hret] at hrun ⊢
    exact (Op.setValue value ret).step_of_run hrun
  · rw [if_neg hret] at hrun ⊢
    rw [(Op.setValue value ret).step_of_run hrun, if_neg hret]

theorem levelOk_directions (h : Inv t) (value : Bool) :
    Tracked.LevelOk ⟨{ t.desc with
      line := Desc.valueLine .directions t.desc.flags (value ^^ has t.desc.flags gpiodActiveLow)
        t.desc.line }, some value⟩ := by
  have hlogical : ((value ^^ has t.desc.flags gpiodActiveLow) ^^
      has t.desc.flags gpiodActiveLow) = value := by
    rw [Bool.xor_assoc, Bool.xor_self, Bool.xor_false]
  rintro v ⟨⟩ hout
  unfold Desc.valueLine at hout ⊢
  dsimp only at hout ⊢
  by_cases hrel : (has t.desc.flags gpiodOpenDrain && (value ^^ has t.desc.flags gpiodActiveLow) ||
      has t.desc.flags gpiodOpenSource && !(value ^^ has t.desc.flags gpiodActiveLow)) = true
  · -- the line is released, and shows what it is released to
    rw [if_pos hrel] at hout ⊢
    have hisout : has t.desc.flags gpiodIsOut = true := hout.resolve_left Bool.false_ne_true
    have hcheck := h.checked hisout
    unfold Desc.logical Desc.pinLevel
    dsimp only
    rw [if_neg Bool.false_ne_true]
    by_cases hd : has t.desc.flags gpiodOpenDrain = true
    · rw [hd, not_both_of_checkDirFlags hcheck hd] at hrel
      rw [if_pos hd, Option.map_some, Desc.gpioGetValue_eq]
      rw [show (value ^^ has t.desc.flags gpiodActiveLow) = true by simpa using hrel] at hlogical
      exact congrArg some hlogical
    · rw [Bool.eq_false_iff.mpr hd] at hrel
      have hs : has t.desc.flags gpiodOpenSource = true ∧
          (value ^^ has t.desc.flags gpiodActiveLow) = false := by simpa using hrel
      rw [if_neg hd, if_pos hs.1, Option.map_some, Desc.gpioGetValue_eq]
      rw [hs.2] at hlogical
      exact congrArg some hlogical
  · rw [if_neg hrel] at hout ⊢
    by_cases hod : (has t.desc.flags gpiodOpenDrain || has t.desc.flags gpiodOpenSource) = true
    · rw [if_pos hod, Desc.logical_of_out rfl]
      exact congrArg some hlogical
    · rw [if_neg hod] at hout ⊢
      rw [Bool.or_eq_true, not_or] at hod
      have hline : t.desc.line.out = true := by
        rcases hout with hline | hisout
        · exact hline
        · exact (h.emulated hisout).resolve_right (not_or.mpr hod)
      exact (Desc.logical_of_out (by exact hline)).trans (congrArg some hlogical)

theorem levelOk_setFlags_iff (value : Bool) :
    Tracked.LevelOk ⟨{ t.desc with
      line := Desc.valueLine .setFlags t.desc.flags (value ^^ has t.desc.flags gpiodActiveLow)
        t.desc.line }, some value⟩ ↔
      (has t.desc.flags gpiodIsOut = false → has t.desc.flags gpiodIsIn = false →
        t.desc.line.out = true →
        t.desc.line.level = (value ^^ has t.desc.flags gpiodActiveLow)) := by
  have hlogical : ((value ^^ has t.desc.flags gpiodActiveLow) ^^
      has t.desc.flags gpiodActiveLow) = value := by
    rw [Bool.xor_assoc, Bool.xor_self, Bool.xor_false]
  unfold Tracked.LevelOk Desc.valueLine
  dsimp only
  by_cases hisout : has t.desc.flags gpiodIsOut = true
  · rw [if_pos hisout]
    refine ⟨fun _ h => absurd (h.symm.trans hisout) Bool.false_ne_true, ?_⟩
    rintro - v ⟨⟩ -
    rw [Desc.logical_of_out rfl]
    exact congrArg some hlogical
  · have hnot := Bool.eq_false_iff.mpr hisout
    rw [if_neg hisout]
    by_cases hisin : has t.desc.flags gpiodIsIn = true
    · rw [if_pos hisin]
      refine ⟨fun _ _ h => absurd (h.symm.trans hisin) Bool.false_ne_true, ?_⟩
      rintro - v ⟨⟩ (hout | hout)
      · cases hout
      · exact absurd hout hisout
    · rw [if_neg hisin]
      constructor
      · intro h _ _ hout
        have hlevel := h value rfl (.inl hout)
        rw [Desc.logical_of_out hout, Option.some_inj] at hlevel
        rw [← hlevel]
        exact (by rw [Bool.xor_assoc, Bool.xor_self, Bool.xor_false])
      · rintro h v ⟨⟩ (hout | hout)
        · rw [Desc.logical_of_out hout]
          dsimp only
          rw [h hnot (Bool.eq_false_iff.mpr hisin) hout]
          exact congrArg some hlogical
        · exact absurd hout hisout

theorem Op.stepOk_setValue (h : Inv t) (value : Bool) :
    (Op.setValue value ret).StepOk d t ↔ (Op.setValue value ret).Cond d t := by
  have hstep : (Op.setValue value ret).step d t = _ := Op.step_setValue h.reserved value
  have hiff : (Op.setValue value ret).StepOk d t ↔
      ((Op.setValue value ret).step d t).2.LevelOk := by
    refine ⟨fun hok => hok.level, fun hlevel => ⟨hlevel, trivial, fun _ => ?_⟩⟩
    rw [hstep]
    split
    · rfl
    · rfl
  rw [hiff, hstep]
  unfold Op.Cond
  by_cases hret : ret = 0
  · rw [if_pos hret]
    cases d with
    | setFlags =>
      rw [levelOk_setFlags_iff]
      exact ⟨fun hok _ _ => hok, fun hcond => hcond rfl hret⟩
    | directions =>
      exact ⟨fun _ hd => absurd hd (by decide), fun _ => levelOk_directions h value⟩
  · rw [if_neg hret]
    exact ⟨fun _ _ h => absurd h hret, fun _ => h.level⟩

/-! ## Setting flags -/

/-- The descriptor after new flags are sent and remembered. -/
def Desc.sent (g : Desc) (flags : Flags) : Desc :=
  { g with flags := flags, line := sentLine flags g.line }

theorem Op.step_clrsetFlags (hres : t.desc.checkReserved = 0) (clr set : Flags) (ret : Int) :
    ((clrsetFlags clr set ret).step d t).1 ≠ 0 ∧ ((clrsetFlags clr set ret).step d t).2 = t ∧
        (Desc.checkDirFlags (t.desc.flags &&& ~~~clr ||| set) ≠ 0 ∨
          Sends d (t.desc.flags &&& ~~~clr ||| set) ∧ ret ≠ 0) ∨
      (clrsetFlags clr set ret).step d t =
          (0, ⟨t.desc.sent (t.desc.flags &&& ~~~clr ||| set),
            ((clrsetFlags clr set ret).asks (t.desc.flags &&& ~~~clr ||| set)).or t.want⟩) ∧
        Desc.checkDirFlags (t.desc.flags &&& ~~~clr ||| set) = 0 ∧
        (Sends d (t.desc.flags &&& ~~~clr ||| set) → ret = 0) := by
  rcases Desc.dmGpioClrsetFlags_eq d ret hres clr set with ⟨hne, hstay, hwhy⟩ | ⟨hrun, hcheck⟩
  · have hrun : (clrsetFlags clr set ret).run d t.desc =
        ((t.desc.dmGpioClrsetFlags d ret clr set).1, t.desc) := Prod.ext rfl hstay
    rw [step_of_run _ hrun, if_neg hne]
    exact .inl ⟨hne, rfl, hwhy⟩
  · exact .inr ⟨(clrsetFlags clr set ret).step_of_run hrun, hcheck⟩

theorem sent_out (hout : has flags gpiodIsOut = true) : (g.sent flags).line.out = true ∧
    (g.sent flags).logical = some (has flags gpiodIsOutActive) := by
  have hline : (g.sent flags).line =
      ⟨true, has flags gpiodIsOutActive ^^ has flags gpiodActiveLow⟩ := sentLine_out hout g.line
  have hdrives : (g.sent flags).line.out = true := by rw [hline]
  refine ⟨hdrives, ?_⟩
  rw [Desc.logical_of_out hdrives, hline]
  show some ((has flags gpiodIsOutActive ^^ has flags gpiodActiveLow) ^^
    has flags gpiodActiveLow) = _
  rw [Bool.xor_assoc, Bool.xor_self, Bool.xor_false]

theorem sent_in (hout : has flags gpiodIsOut = false) (hin : has flags gpiodIsIn = true) :
    (g.sent flags).line.out = false := by
  show (sentLine flags g.line).out = false
  rw [sentLine_in hout hin]

theorem sent_none (hout : has flags gpiodIsOut = false) (hin : has flags gpiodIsIn = false) :
    (g.sent flags).line = g.line :=
  sentLine_none hout hin g.line

theorem Op.asks_clrsetFlags (clr set : Flags) (ret : Int) :
    (clrsetFlags clr set ret).asks flags =
      if touchesDir clr set && has flags gpiodIsOut then some (has flags gpiodIsOutActive)
      else none := rfl

/-- A call that sets flags and succeeds is in order. -/
def SentOk (t : Tracked) (flags : Flags) (want : Option Bool) (touches : Bool) : Prop :=
  Tracked.LevelOk ⟨t.desc.sent flags, want⟩ ∧
    (touches = false → (t.desc.sent flags).line.out = t.desc.line.out ∧
      (t.desc.line.out = true → (t.desc.sent flags).logical = t.desc.logical))

theorem sentOk_out (h : Inv t) (hout : has flags gpiodIsOut = true) {touches : Bool}
    (hactive : touches = false →
      has flags gpiodIsOutActive = has t.desc.flags gpiodIsOutActive) :
    SentOk t flags
        ((if touches && has flags gpiodIsOut then some (has flags gpiodIsOutActive)
          else none).or t.want) touches ↔
      (touches = false → t.desc.line =
        ⟨true, has t.desc.flags gpiodIsOutActive ^^ has t.desc.flags gpiodActiveLow⟩) := by
  obtain ⟨hdrives, hlogical⟩ := sent_out (g := t.desc) hout
  constructor
  · rintro ⟨-, hkeeps⟩ htouch
    obtain ⟨hsame, hlevel⟩ := hkeeps htouch
    have hbefore : t.desc.line.out = true := hsame ▸ hdrives
    have heq := hlevel hbefore
    rw [hlogical, Desc.logical_of_out hbefore, Option.some_inj, hactive htouch] at heq
    refine Line.ext hbefore ?_
    rw [heq, Bool.xor_assoc, Bool.xor_self, Bool.xor_false]
  · intro hline
    cases touches with
    | true =>
      refine ⟨fun v hv _ => ?_, nofun⟩
      rw [hout] at hv
      exact hlogical.trans hv
    | false =>
      have hline := hline rfl
      have hbefore : t.desc.line.out = true := by rw [hline]
      have hsame : t.desc.logical = some (has flags gpiodIsOutActive) := by
        rw [Desc.logical_of_out hbefore, hline, hactive rfl, Bool.xor_assoc, Bool.xor_self,
          Bool.xor_false]
      refine ⟨fun v hv _ => ?_, fun _ => ⟨hdrives.trans hbefore.symm, fun _ => ?_⟩⟩
      · exact hlogical.trans (hsame.symm.trans (h.level v hv (.inl hbefore)))
      · rw [hlogical, hsame]

theorem sentOk_in (hout : has flags gpiodIsOut = false) (hin : has flags gpiodIsIn = true)
    {touches : Bool} :
    SentOk t flags t.want touches ↔ (touches = false → t.desc.line.out = false) := by
  have hoff := sent_in (g := t.desc) hout hin
  constructor
  · rintro ⟨-, hkeeps⟩ htouch
    exact (hkeeps htouch).1.symm.trans hoff
  · intro hline
    refine ⟨fun v _ hisout => ?_, fun htouch => ⟨hoff.trans (hline htouch).symm, ?_⟩⟩
    · rcases hisout with hisout | hisout
      · exact absurd (hoff.symm.trans hisout) Bool.false_ne_true
      · exact absurd (hout.symm.trans hisout) Bool.false_ne_true
    · intro hbefore
      exact absurd ((hline htouch).symm.trans hbefore) Bool.false_ne_true

theorem sentOk_none (h : Inv t) (hout : has flags gpiodIsOut = false)
    (hin : has flags gpiodIsIn = false) {touches : Bool} :
    SentOk t flags t.want touches ↔
      (t.desc.line.out = true → (touches = true → t.want ≠ none) →
        has flags gpiodActiveLow = has t.desc.flags gpiodActiveLow) := by
  have hline := sent_none (g := t.desc) hout hin
  have hlogical (hbefore : t.desc.line.out = true) : (t.desc.sent flags).logical =
      some (t.desc.line.level ^^ has flags gpiodActiveLow) := by
    rw [Desc.logical_of_out (hline ▸ hbefore), hline]
    rfl
  constructor
  · rintro ⟨hlevel, hkeeps⟩ hbefore hwant
    have hsame : (t.desc.sent flags).logical = t.desc.logical := by
      cases touches with
      | false => exact (hkeeps rfl).2 hbefore
      | true =>
        obtain ⟨v, hv⟩ := Option.ne_none_iff_exists'.mp (hwant rfl)
        exact (hlevel v hv (.inl (hline ▸ hbefore))).trans (h.level v hv (.inl hbefore)).symm
    rw [hlogical hbefore, Desc.logical_of_out hbefore, Option.some_inj] at hsame
    exact Bool.xor_right_inj.mp hsame
  · intro hpolarity
    have hsame (hbefore : t.desc.line.out = true) (hwant : touches = true → t.want ≠ none) :
        (t.desc.sent flags).logical = t.desc.logical := by
      rw [hlogical hbefore, Desc.logical_of_out hbefore, hpolarity hbefore hwant]
    refine ⟨fun v hv hisout => ?_, fun htouch => ⟨by rw [hline], fun hbefore =>
      hsame hbefore fun htrue => absurd (htouch.symm.trans htrue) Bool.false_ne_true⟩⟩
    have hbefore : t.desc.line.out = true := by
      rcases hisout with hisout | hisout
      · exact hline ▸ hisout
      · exact absurd (hout.symm.trans hisout) Bool.false_ne_true
    refine (hsame hbefore fun _ hnone => ?_).trans (h.level v hv (.inl hbefore))
    exact Option.some_ne_none v (hv.symm.trans hnone)

theorem Op.stepOk_clrsetFlags (h : Inv t) (clr set : Flags) :
    (clrsetFlags clr set ret).StepOk d t ↔ (clrsetFlags clr set ret).Cond d t := by
  unfold Cond
  dsimp only
  rcases Op.step_clrsetFlags (d := d) h.reserved clr set ret with
    ⟨hne, hstay, hwhy⟩ | ⟨hstep, hcheck, hret⟩
  · refine ⟨fun _ hcheck hret => ?_, fun _ => ⟨?_, fun hzero => absurd hzero hne, fun _ => ?_⟩⟩
    · rcases hwhy with hwhy | ⟨hsends, hwhy⟩
      · exact absurd hcheck hwhy
      · exact absurd (hret hsends) hwhy
    · rw [hstay]
      exact h.level
    · rw [hstay]
  · have hok : (clrsetFlags clr set ret).StepOk d t ↔
        SentOk t (t.desc.flags &&& ~~~clr ||| set)
          (((clrsetFlags clr set ret).asks (t.desc.flags &&& ~~~clr ||| set)).or t.want)
          (touchesDir clr set) := by
      constructor
      · rintro ⟨hlevel, hkeeps, -⟩
        unfold Keeps at hkeeps
        dsimp only at hkeeps
        rw [hstep] at hlevel hkeeps
        exact ⟨hlevel, hkeeps rfl⟩
      · rintro ⟨hlevel, hkeeps⟩
        refine ⟨?_, ?_, fun hfail => absurd (congrArg Prod.fst hstep) hfail⟩
        · rw [hstep]
          exact hlevel
        · unfold Keeps
          dsimp only
          rw [hstep]
          exact fun _ => hkeeps
    have hactive : touchesDir clr set = false →
        has (t.desc.flags &&& ~~~clr ||| set) gpiodIsOutActive =
          has t.desc.flags gpiodIsOutActive :=
      fun htouch => has_of_not_touchesDir htouch isFlag_isOutActive rfl
    rw [hok, asks_clrsetFlags]
    generalize t.desc.flags &&& ~~~clr ||| set = f at *
    have hcond {P : Prop} : (Desc.checkDirFlags f = 0 → (Sends d f → ret = 0) → P) ↔ P :=
      ⟨fun hp => hp hcheck hret, fun hp _ _ => hp⟩
    rw [hcond]
    by_cases hout : has f gpiodIsOut = true
    · rw [if_pos hout]
      exact sentOk_out h hout hactive
    · have hnot := Bool.eq_false_iff.mpr hout
      rw [if_neg hout, hnot, Bool.and_false, if_neg Bool.false_ne_true, Option.none_or]
      by_cases hin : has f gpiodIsIn = true
      · rw [if_pos hin]
        exact sentOk_in hnot hin
      · rw [if_neg hin]
        exact sentOk_none h hnot (Bool.eq_false_iff.mpr hin)

/-! ## Runs -/

theorem Op.stepOk_iff (h : Inv t) (op : Op) : op.StepOk d t ↔ op.Cond d t := by
  cases op with
  | setValue value ret => exact stepOk_setValue h value
  | clrsetFlags clr set ret => exact stepOk_clrsetFlags h clr set

theorem valueLine_emulated (h : Inv t) (value : Bool) (hout : has t.desc.flags gpiodIsOut = true) :
    (Desc.valueLine d t.desc.flags value t.desc.line).out = true ∨
      has t.desc.flags gpiodOpenDrain = true ∨ has t.desc.flags gpiodOpenSource = true := by
  unfold Desc.valueLine
  cases d with
  | setFlags =>
    dsimp only
    rw [if_pos hout]
    exact .inl rfl
  | directions =>
    dsimp only
    by_cases hod : (has t.desc.flags gpiodOpenDrain || has t.desc.flags gpiodOpenSource) = true
    · exact .inr (Bool.or_eq_true_iff.mp hod)
    · rw [if_neg hod]
      rw [Bool.or_eq_true, not_or] at hod
      rw [Bool.eq_false_iff.mpr hod.1, Bool.eq_false_iff.mpr hod.2]
      exact .inl ((h.emulated hout).resolve_right (not_or.mpr hod))

/-- An operation in order keeps the invariant. -/
theorem Op.StepOk.inv {op : Op} (hok : op.StepOk d t) (h : Inv t) : Inv (op.step d t).2 := by
  have hlevel := hok.level
  cases op with
  | setValue value ret =>
    rw [step_setValue h.reserved] at hlevel ⊢
    by_cases hret : ret = 0
    · rw [if_pos hret] at hlevel ⊢
      exact ⟨h.reserved, h.checked, valueLine_emulated h _, hlevel⟩
    · rw [if_neg hret]
      exact h
  | clrsetFlags clr set ret =>
    rcases step_clrsetFlags (d := d) h.reserved clr set ret with
      ⟨-, hstay, -⟩ | ⟨hstep, hcheck, -⟩
    · rw [hstay]
      exact h
    · rw [hstep] at hlevel ⊢
      exact ⟨h.reserved, fun _ => hcheck, fun hout => .inl (sent_out hout).1, hlevel⟩

/-- An operation of a run. -/
def next (d : Interface) (t : Tracked) (op : Op) : Option Tracked := some (op.step d t).2

/-- **Level and flags of a GPIO.**  Along a run of operations on a fresh descriptor all are in
order, exactly as long as the line does what `desc->flags` remembers of it whenever that is sent
again. -/
theorem inOrder_iff (d : Interface) {t : Tracked} (ht : t.Fresh) (ops : List Op) :
    Along (next d) (fun t op => op.StepOk d t) t ops ↔
      Along (next d) (fun t op => op.Cond d t) t ops := by
  refine Along.congr (P := Inv) ?_ (fun t op h => Op.stepOk_iff h op) ht.inv
  rintro t op u h hok ⟨⟩
  exact hok.inv h

/-- A line that is an input, requested without flags. -/
def plainLine : Tracked := ⟨⟨true, true, 0#32, ⟨false, false⟩⟩, none⟩

theorem fresh_plainLine : plainLine.Fresh := ⟨rfl, rfl, rfl⟩

/-- Make the line an output, set it, and switch its pull-up on. -/
def pullUpAfterSet : List Op :=
  [.setDirFlags gpiodIsOut 0, .setValue true 0, .clrsetFlags gpiodMaskPull gpiodPullUp 0]

theorem inOrder_iff_pullUpAfterSet :
    Along (next .directions) (fun t op => op.StepOk .directions t) plainLine pullUpAfterSet ↔
      Along (next .directions) (fun t op => op.Cond .directions t) plainLine pullUpAfterSet :=
  inOrder_iff .directions fresh_plainLine pullUpAfterSet

/-- Switching the pull-up on takes the line back to the level it had when it became an output. -/
theorem not_inOrder : ¬ ∀ (d : Interface) (t : Tracked) (ops : List Op), t.Fresh →
    Along (next d) (fun t op => op.StepOk d t) t ops := by
  intro h
  obtain ⟨-, hrest⟩ := h .directions plainLine pullUpAfterSet fresh_plainLine
  obtain ⟨-, hrest⟩ := hrest _ rfl
  obtain ⟨hlast, -⟩ := hrest _ rfl
  exact absurd (hlast.keeps rfl rfl).2 (by decide)

end RealtekIpcam.Uboot.Gpio
