import RealtekIpcam.Lib.BitField

/-!
# GPIO descriptors of the boot loader

The GPIO uclass keeps the configuration of a requested line in `desc->flags` and reaches the line
through its driver.  A driver offers one of two interfaces: `set_flags`, which takes the whole
flags word, or `direction_output`, `direction_input` and `set_value`.

The driver here does exactly what it is asked: `Line` is the direction and the level it drives, and
a call either succeeds and does that, or returns an error and does nothing.  What it returns is an
input of each operation.
-/

namespace RealtekIpcam.Uboot.Gpio

/-! ## Flags -/

abbrev Flags := BitVec 32

def gpiodIsOut : Flags := 1#32 <<< 1
def gpiodIsIn : Flags := 1#32 <<< 2
def gpiodActiveLow : Flags := 1#32 <<< 3
def gpiodIsOutActive : Flags := 1#32 <<< 4
def gpiodOpenDrain : Flags := 1#32 <<< 5
def gpiodOpenSource : Flags := 1#32 <<< 6
def gpiodPullUp : Flags := 1#32 <<< 7
def gpiodPullDown : Flags := 1#32 <<< 8

def gpiodMaskDir : Flags := gpiodIsOut ||| gpiodIsIn ||| gpiodIsOutActive
def gpiodMaskPull : Flags := gpiodPullUp ||| gpiodPullDown

/-- The truth value of `flags & flag`. -/
def has (flags flag : Flags) : Bool := flags &&& flag != 0#32

def ENOENT : Int := 2
def EBUSY : Int := 16
def EINVAL : Int := 22

/-! ## The driver -/

/-- What the driver does at the pin: whether it drives it, and the level it drives or would
drive. -/
@[ext] structure Line where
  out : Bool
  level : Bool
  deriving DecidableEq

namespace Line

def directionOutput (value : Bool) (_ : Line) : Line := ⟨true, value⟩

def directionInput (l : Line) : Line := { l with out := false }

def setValue (value : Bool) (l : Line) : Line := { l with level := value }

/-- The driver's `set_flags`.  Flags that name no direction ask for none. -/
def setFlags (flags : Flags) (l : Line) : Line :=
  if has flags gpiodIsOut then ⟨true, has flags gpiodIsOutActive⟩
  else if has flags gpiodIsIn then { l with out := false }
  else l

end Line

/-- Which of the two interfaces a driver provides. -/
inductive Interface where
  | setFlags
  | directions
  deriving DecidableEq

/-! ## The uclass -/

/-- A descriptor with what the uclass records of it, and its line. -/
structure Desc where
  /-- `desc->dev` is set. -/
  valid : Bool
  /-- `uc_priv->name[desc->offset]` is set. -/
  named : Bool
  flags : Flags
  line : Line

namespace Desc

variable (d : Interface) (ret : Int) (g : Desc)

/-- A call of the driver that returns `ret`. -/
def call (f : Line → Line) : Int × Desc :=
  if ret = 0 then (0, { g with line := f g.line }) else (ret, g)

def checkReserved : Int :=
  if ¬ g.valid then -ENOENT
  else if ¬ g.named then -EBUSY
  else 0

/-- `_gpio_get_value`, for the level that the driver's `get_value` finds at the pin. -/
def gpioGetValue (value : Bool) : Bool := if has g.flags gpiodActiveLow then !value else value

def dmGpioSetValue (value : Bool) : Int × Desc :=
  if g.checkReserved ≠ 0 then (g.checkReserved, g)
  else
    let value := if has g.flags gpiodActiveLow then !value else value
    if d = .setFlags then
      let flags :=
        if value then g.flags ||| gpiodIsOutActive else g.flags &&& ~~~gpiodIsOutActive
      g.call ret (Line.setFlags flags)
    else if (has g.flags gpiodOpenDrain && value) || (has g.flags gpiodOpenSource && !value) then
      g.call ret Line.directionInput
    else if has g.flags gpiodOpenDrain || has g.flags gpiodOpenSource then
      g.call ret (Line.directionOutput value)
    else g.call ret (Line.setValue value)

def checkDirFlags (flags : Flags) : Int :=
  if has flags gpiodIsOut && has flags gpiodIsIn then -EINVAL
  else if has flags gpiodPullUp && has flags gpiodPullDown then -EINVAL
  else if has flags gpiodOpenDrain && has flags gpiodOpenSource then -EINVAL
  else 0

/-- What `_dm_gpio_set_flags` hands to the driver: the state at the pin. -/
def pinFlags (flags : Flags) : Flags :=
  if flags &&& (gpiodIsOut ||| gpiodActiveLow) = gpiodIsOut ||| gpiodActiveLow then
    flags ^^^ gpiodIsOutActive
  else flags

def dmGpioSetFlags (flags : Flags) : Int × Desc :=
  if checkDirFlags flags ≠ 0 then (checkDirFlags flags, g)
  else
    let flags := pinFlags flags
    if d = .setFlags then g.call ret (Line.setFlags flags)
    else if has flags gpiodIsOut then
      g.call ret (Line.directionOutput (has flags gpiodIsOutActive))
    else if has flags gpiodIsIn then g.call ret Line.directionInput
    else (0, g)

def dmGpioClrsetFlags (clr set : Flags) : Int × Desc :=
  if g.checkReserved ≠ 0 then (g.checkReserved, g)
  else
    let flags := g.flags &&& ~~~clr ||| set
    let sent := g.dmGpioSetFlags d ret flags
    if sent.1 ≠ 0 then sent else (0, { sent.2 with flags := flags })

def dmGpioSetDirFlags (flags : Flags) : Int × Desc := g.dmGpioClrsetFlags d ret gpiodMaskDir flags

end Desc

/-! ## Single flags -/

/-- A single bit. -/
def IsFlag (flag : Flags) : Prop := ∃ n < 32, flag = 1#32 <<< n

theorem isFlag_isOut : IsFlag gpiodIsOut := ⟨1, by decide, rfl⟩
theorem isFlag_isIn : IsFlag gpiodIsIn := ⟨2, by decide, rfl⟩
theorem isFlag_activeLow : IsFlag gpiodActiveLow := ⟨3, by decide, rfl⟩
theorem isFlag_isOutActive : IsFlag gpiodIsOutActive := ⟨4, by decide, rfl⟩

variable {flags flags' flag : Flags}

theorem has_bit {n : Nat} (hn : n < 32) : has flags (1#32 <<< n) = flags.getLsbD n := by
  rw [Bool.eq_iff_iff]
  show (flags &&& 1#32 <<< n != 0#32) = true ↔ _
  rw [bne_iff_ne]
  exact BitField.and_one_shiftLeft_ne_zero hn

theorem has_or (h : IsFlag flag) :
    has (flags ||| flags') flag = (has flags flag || has flags' flag) := by
  obtain ⟨n, hn, rfl⟩ := h
  rw [has_bit hn, has_bit hn, has_bit hn, BitVec.getLsbD_or]

theorem has_andNot (h : IsFlag flag) :
    has (flags &&& ~~~flags') flag = (has flags flag && !has flags' flag) := by
  obtain ⟨n, hn, rfl⟩ := h
  rw [has_bit hn, has_bit hn, has_bit hn, BitVec.getLsbD_and, BitVec.getLsbD_not]
  simp [hn]

theorem has_xor (h : IsFlag flag) :
    has (flags ^^^ flags') flag = (has flags flag ^^ has flags' flag) := by
  obtain ⟨n, hn, rfl⟩ := h
  rw [has_bit hn, has_bit hn, has_bit hn, BitVec.getLsbD_xor]

theorem and_or_eq_iff {flag' : Flags} (h : IsFlag flag) (h' : IsFlag flag') :
    flags &&& (flag ||| flag') = flag ||| flag' ↔
      has flags flag = true ∧ has flags flag' = true := by
  obtain ⟨m, hm, rfl⟩ := h
  obtain ⟨n, hn, rfl⟩ := h'
  rw [has_bit hm, has_bit hn]
  constructor
  · intro heq
    have hbit (i : Nat) (hi : i < 32) (hmem : i = m ∨ i = n) : flags.getLsbD i = true := by
      have hi' := congrArg (BitVec.getLsbD · i) heq
      simpa [BitField.getLsbD_one_shiftLeft hi, hmem] using hi'
    exact ⟨hbit m hm (.inl rfl), hbit n hn (.inr rfl)⟩
  · rintro ⟨h, h'⟩
    refine BitVec.eq_of_getLsbD_eq fun i hi => ?_
    rw [BitVec.getLsbD_and, BitVec.getLsbD_or, BitField.getLsbD_one_shiftLeft hi,
      BitField.getLsbD_one_shiftLeft hi]
    by_cases him : i = m
    · rw [him, h, Bool.true_and]
    · by_cases hin : i = n
      · rw [hin, h', Bool.true_and]
      · simp [him, hin]

/-! ## What is handed to the driver -/

theorem has_pinFlags_of_ne (h : IsFlag flag) (hne : has gpiodIsOutActive flag = false) :
    has (Desc.pinFlags flags) flag = has flags flag := by
  unfold Desc.pinFlags
  split
  · rw [has_xor h, hne, Bool.xor_false]
  · rfl

theorem has_pinFlags_isOutActive (hout : has flags gpiodIsOut = true) :
    has (Desc.pinFlags flags) gpiodIsOutActive =
      (has flags gpiodIsOutActive ^^ has flags gpiodActiveLow) := by
  have hiff : flags &&& (gpiodIsOut ||| gpiodActiveLow) = gpiodIsOut ||| gpiodActiveLow ↔
      has flags gpiodIsOut = true ∧ has flags gpiodActiveLow = true :=
    and_or_eq_iff isFlag_isOut isFlag_activeLow
  unfold Desc.pinFlags
  by_cases hlow : has flags gpiodActiveLow = true
  · rw [if_pos (hiff.mpr ⟨hout, hlow⟩), has_xor isFlag_isOutActive, hlow]
    rfl
  · rw [if_neg fun h => hlow (hiff.mp h).2, Bool.eq_false_iff.mpr hlow, Bool.xor_false]

/-- The line after flags are sent. -/
def sentLine (flags : Flags) (l : Line) : Line :=
  if has flags gpiodIsOut then ⟨true, has flags gpiodIsOutActive ^^ has flags gpiodActiveLow⟩
  else if has flags gpiodIsIn then { l with out := false }
  else l

theorem sentLine_out (hout : has flags gpiodIsOut = true) (l : Line) :
    sentLine flags l = ⟨true, has flags gpiodIsOutActive ^^ has flags gpiodActiveLow⟩ := by
  unfold sentLine
  rw [if_pos hout]

theorem sentLine_in (hout : has flags gpiodIsOut = false) (hin : has flags gpiodIsIn = true)
    (l : Line) : sentLine flags l = { l with out := false } := by
  unfold sentLine
  rw [hout, if_neg Bool.false_ne_true, if_pos hin]

theorem sentLine_none (hout : has flags gpiodIsOut = false) (hin : has flags gpiodIsIn = false)
    (l : Line) : sentLine flags l = l := by
  unfold sentLine
  rw [hout, hin, if_neg Bool.false_ne_true, if_neg Bool.false_ne_true]

/-- The driver is called to apply flags: always, or if they name a direction. -/
def Sends (d : Interface) (flags : Flags) : Prop :=
  d = .setFlags ∨ has flags gpiodIsOut = true ∨ has flags gpiodIsIn = true

instance (d : Interface) (flags : Flags) : Decidable (Sends d flags) := instDecidableOr

theorem setFlags_pinFlags (l : Line) :
    Line.setFlags (Desc.pinFlags flags) l = sentLine flags l := by
  unfold Line.setFlags sentLine
  rw [has_pinFlags_of_ne isFlag_isOut rfl, has_pinFlags_of_ne isFlag_isIn rfl]
  by_cases hout : has flags gpiodIsOut = true
  · rw [if_pos hout, if_pos hout, has_pinFlags_isOutActive hout]
  · rw [if_neg hout, if_neg hout]

namespace Desc

variable (d : Interface) (ret : Int) {g : Desc}

theorem dmGpioSetFlags_eq (hcheck : checkDirFlags flags = 0) : g.dmGpioSetFlags d ret flags =
    if Sends d flags then g.call ret (sentLine flags) else (0, g) := by
  unfold dmGpioSetFlags
  rw [if_neg (not_not_intro hcheck)]
  dsimp only
  have hline : Line.setFlags (pinFlags flags) = sentLine flags := funext setFlags_pinFlags
  rw [hline, has_pinFlags_of_ne isFlag_isOut rfl, has_pinFlags_of_ne isFlag_isIn rfl]
  by_cases hd : d = .setFlags
  · rw [if_pos hd, if_pos (.inl hd)]
  · rw [if_neg hd]
    by_cases hout : has flags gpiodIsOut = true
    · rw [if_pos hout, if_pos (.inr (.inl hout)), has_pinFlags_isOutActive hout]
      rw [show sentLine flags = Line.directionOutput _ from funext fun l => sentLine_out hout l]
    · rw [if_neg hout]
      by_cases hin : has flags gpiodIsIn = true
      · rw [if_pos hin, if_pos (.inr (.inr hin))]
        rw [show sentLine flags = Line.directionInput from
          funext fun l => sentLine_in (Bool.eq_false_iff.mpr hout) hin l]
      · rw [if_neg hin, if_neg (by rintro (h | h | h); exacts [hd h, hout h, hin h])]

/-- **`dm_gpio_clrset_flags`** on a reserved descriptor: nothing, or the line as the new flags say
and the flags remembered. -/
theorem dmGpioClrsetFlags_eq (hres : g.checkReserved = 0) (clr set : Flags) :
    (g.dmGpioClrsetFlags d ret clr set).1 ≠ 0 ∧ (g.dmGpioClrsetFlags d ret clr set).2 = g ∧
        (checkDirFlags (g.flags &&& ~~~clr ||| set) ≠ 0 ∨
          Sends d (g.flags &&& ~~~clr ||| set) ∧ ret ≠ 0) ∨
      g.dmGpioClrsetFlags d ret clr set =
          (0, { g with
            flags := g.flags &&& ~~~clr ||| set
            line := sentLine (g.flags &&& ~~~clr ||| set) g.line }) ∧
        checkDirFlags (g.flags &&& ~~~clr ||| set) = 0 ∧
        (Sends d (g.flags &&& ~~~clr ||| set) → ret = 0) := by
  unfold dmGpioClrsetFlags
  rw [if_neg (not_not_intro hres)]
  dsimp only
  generalize g.flags &&& ~~~clr ||| set = f
  by_cases hcheck : checkDirFlags f = 0
  · rw [dmGpioSetFlags_eq d ret hcheck]
    by_cases hsends : Sends d f
    · rw [if_pos hsends]
      unfold call
      by_cases hret : ret = 0
      · rw [if_pos hret]
        exact .inr ⟨rfl, hcheck, fun _ => hret⟩
      · rw [if_neg hret, if_pos hret]
        exact .inl ⟨hret, rfl, .inr ⟨hsends, hret⟩⟩
    · rw [if_neg hsends]
      rw [sentLine_none (Bool.eq_false_iff.mpr fun h => hsends (.inr (.inl h)))
        (Bool.eq_false_iff.mpr fun h => hsends (.inr (.inr h)))]
      exact .inr ⟨rfl, hcheck, fun h => absurd h hsends⟩
  · have hsent : g.dmGpioSetFlags d ret f = (checkDirFlags f, g) := if_pos hcheck
    rw [hsent, if_pos hcheck]
    exact .inl ⟨hcheck, rfl, .inl hcheck⟩

/-- The line after a level is set, for the level `value` at the pin. -/
def valueLine (flags : Flags) (value : Bool) (l : Line) : Line :=
  match d with
  | .setFlags =>
    if has flags gpiodIsOut then ⟨true, value⟩
    else if has flags gpiodIsIn then { l with out := false }
    else l
  | .directions =>
    if (has flags gpiodOpenDrain && value) || (has flags gpiodOpenSource && !value) then
      { l with out := false }
    else if has flags gpiodOpenDrain || has flags gpiodOpenSource then ⟨true, value⟩
    else { l with level := value }

theorem setFlags_level (value : Bool) (l : Line) :
    Line.setFlags (if value then flags ||| gpiodIsOutActive else flags &&& ~~~gpiodIsOutActive) l =
      valueLine .setFlags flags value l := by
  have hother {flag : Flags} (h : IsFlag flag) (hne : has gpiodIsOutActive flag = false) :
      has (if value then flags ||| gpiodIsOutActive else flags &&& ~~~gpiodIsOutActive) flag =
        has flags flag := by
    cases value with
    | false => rw [if_neg Bool.false_ne_true, has_andNot h, hne]; simp
    | true => rw [if_pos rfl, has_or h, hne, Bool.or_false]
  have hactive :
      has (if value then flags ||| gpiodIsOutActive else flags &&& ~~~gpiodIsOutActive)
        gpiodIsOutActive = value := by
    have hself : has gpiodIsOutActive gpiodIsOutActive = true := rfl
    cases value with
    | false => rw [if_neg Bool.false_ne_true, has_andNot isFlag_isOutActive, hself]; simp
    | true => rw [if_pos rfl, has_or isFlag_isOutActive, hself, Bool.or_true]
  unfold Line.setFlags
  rw [hother isFlag_isOut rfl, hother isFlag_isIn rfl, hactive]
  rfl

/-- **`dm_gpio_set_value`** on a reserved descriptor; the flags never change. -/
theorem dmGpioSetValue_eq (hres : g.checkReserved = 0) (value : Bool) :
    g.dmGpioSetValue d ret value =
      if ret = 0 then (0, { g with
        line := valueLine d g.flags (value ^^ has g.flags gpiodActiveLow) g.line })
      else (ret, g) := by
  have hpin : (if has g.flags gpiodActiveLow then !value else value) =
      (value ^^ has g.flags gpiodActiveLow) := by
    cases has g.flags gpiodActiveLow <;> simp
  unfold dmGpioSetValue
  rw [if_neg (not_not_intro hres)]
  dsimp only
  rw [hpin]
  generalize (value ^^ has g.flags gpiodActiveLow) = v
  cases d with
  | setFlags =>
    rw [if_pos rfl]
    unfold call
    rw [setFlags_level]
  | directions =>
    rw [if_neg (by decide)]
    unfold call valueLine
    dsimp only
    split
    · rfl
    · split
      · rfl
      · rfl

end Desc

end RealtekIpcam.Uboot.Gpio
