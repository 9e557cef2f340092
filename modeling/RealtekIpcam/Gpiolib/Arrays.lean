import RealtekIpcam.Gpiolib.Numbers
import RealtekIpcam.Lib.Bitmap

/-!
# Arrays of GPIO lines

`gpiod_get_array` obtains a row of lines.  When the first of them is line 0 of its chip it also
prepares three masks: the positions whose line is the one with the same number on that chip can be
read at one go (`get_mask`), those that are no open drain or open source can be written at one go
(`set_mask`), and the active-low ones are to be inverted (`invert_mask`).
`gpiod_get_array_value_complex` and `gpiod_set_array_value_complex` do these positions first, and
then the others, as many at a time as follow each other on one chip.

Bitmaps are functions from positions to bits.  A chip is given by its operations for each line; its
operations for several lines are those of the fallback, one line after the other.
-/

namespace RealtekIpcam.Gpiolib.Arrays

open Bitmap

/-- `struct gpio_desc`: its chip, `gpio_chip_hwgpio`, and the flags that the operations go by. -/
structure Desc where
  chip : Nat
  hwgpio : Nat
  activeLow : Bool
  openDrain : Bool
  openSource : Bool
  deriving DecidableEq

/-- A line, by its chip and its number. -/
abbrev Key := Nat × Nat

def Desc.key (d : Desc) : Key := (d.chip, d.hwgpio)

/-- The operations of a chip for one line, on what the hardware has for it. -/
structure LineOps (σ : Type) where
  get : σ → Int
  set : Bool → σ → σ
  directionInput : σ → Int × σ
  directionOutput : Bool → σ → Int × σ

/-- A line: what the hardware has for it, and `FLAG_IS_OUT`. -/
structure Line (σ : Type) where
  hw : σ
  isOut : Bool

/-- The state of all lines. -/
abbrev Lines (σ : Type) := Key → Line σ

/-! ## One line -/

section PerLine

variable {σ : Type} (ops : LineOps σ)

/-- `gpiod_get_raw_value_commit`, and `gpiod_get_raw_value`. -/
def gpiodGetRawValue (l : Line σ) : Int :=
  let value := ops.get l.hw
  if value < 0 then value else if value = 0 then 0 else 1

def gpiodGetValue (d : Desc) (l : Line σ) : Int :=
  let value := gpiodGetRawValue ops l
  if value < 0 then value
  else if d.activeLow then (if value = 0 then 1 else 0)
  else value

/-- `direction_input`, as the open drain and open source lines use it. -/
def floats (l : Line σ) : Line σ := { l with hw := (ops.directionInput l.hw).2 }

/-- `direction_output`, as they use it. -/
def drives (value : Bool) (l : Line σ) : Line σ :=
  let ret := ops.directionOutput value l.hw
  { hw := ret.2, isOut := if ret.1 = 0 then true else l.isOut }

def gpioSetOpenDrainValueCommit (value : Bool) (l : Line σ) : Line σ :=
  if value then floats ops l else drives ops false l

def gpioSetOpenSourceValueCommit (value : Bool) (l : Line σ) : Line σ :=
  if value then drives ops true l else floats ops l

/-- `gpiod_set_raw_value_commit`, and `gpiod_set_raw_value`. -/
def gpiodSetRawValue (value : Bool) (l : Line σ) : Line σ := { l with hw := ops.set value l.hw }

def gpiodSetValueNocheck (d : Desc) (value : Bool) (l : Line σ) : Line σ :=
  let value := value ^^ d.activeLow
  if d.openDrain then gpioSetOpenDrainValueCommit ops value l
  else if d.openSource then gpioSetOpenSourceValueCommit ops value l
  else gpiodSetRawValue ops value l

end PerLine

/-! ## Several lines of a chip -/

/-- A set of chips: how many lines they have, and their operations. -/
structure Chips (σ : Type) where
  ngpio : Nat → Nat
  ops : Key → LineOps σ

section Multiple

variable {σ : Type} (c : Chips σ) (chip : Nat)

/-- The loop of `gpio_chip_get_multiple`. -/
def getMultipleLoop (mask : Bitmap) (s : Lines σ) : List Nat → Bitmap → Int × Bitmap
  | [], bits => (0, bits)
  | i :: is, bits =>
    if mask i then
      let value := (c.ops (chip, i)).get (s (chip, i)).hw
      if value < 0 then (value, bits)
      else getMultipleLoop mask s is (bits.assign i (value ≠ 0))
    else getMultipleLoop mask s is bits

def gpioChipGetMultiple (mask bits : Bitmap) (s : Lines σ) : Int × Bitmap :=
  getMultipleLoop c chip mask s (List.range (c.ngpio chip)) bits

/-- One round of the loop of `gpio_chip_set_multiple`. -/
def setOne (mask bits : Bitmap) (s : Lines σ) (i : Nat) : Lines σ :=
  if mask i then
    Function.update s (chip, i) (gpiodSetRawValue (c.ops (chip, i)) (bits i) (s (chip, i)))
  else s

def gpioChipSetMultiple (mask bits : Bitmap) (s : Lines σ) : Lines σ :=
  (List.range (c.ngpio chip)).foldl (setOne c chip mask bits) s

end Multiple

/-! ## `gpiod_get_array` -/

/-- `struct gpio_array`.  Its `desc` and its place are those of the array it was made with. -/
structure ArrayInfo where
  chip : Nat
  size : Nat
  getMask : Bitmap
  setMask : Bitmap
  invertMask : Bitmap

/-- What `gpiod_get_array` has built: `descs->info`, and whether its own `array_info` still points
there. -/
structure Building where
  info : Option ArrayInfo
  live : Bool

namespace ArrayInfo

/-- The position is unmarked for input and output. -/
def unmark (a : ArrayInfo) (k : Nat) : ArrayInfo :=
  { a with getMask := a.getMask.assign k false, setMask := a.setMask.assign k false }

/-- The position is in hardware order. -/
def mark (a : ArrayInfo) (d : Desc) (k : Nat) : ArrayInfo :=
  { a with
    setMask := if d.openDrain || d.openSource then a.setMask.assign k false else a.setMask
    invertMask := if d.activeLow then a.invertMask.assign k true else a.invertMask }

end ArrayInfo

/-- The first line selects its chip, when it is line 0 of it. -/
def selectChip (count : Nat) (d : Desc) (k : Nat) (b : Building) : Building :=
  if k = 0 ∧ d.hwgpio = 0 then
    { info := some
        { chip := d.chip, size := count, getMask := fun j => decide (j < count),
          setMask := fun j => decide (j < count), invertMask := fun _ => false }
      live := true }
  else b

/-- The masks for the `k`th line. -/
def classify (d : Desc) (k : Nat) (b : Building) : Building :=
  match b.info with
  | none => b
  | some a =>
    if b.live then
      if a.chip ≠ d.chip then { b with info := some (a.unmark k) }
      else if d.hwgpio ≠ k then
        if a.getMask.isFull k then { b with live := false }
        else { b with info := some (a.unmark k) }
      else { b with info := some (a.mark d k) }
    else b

/-- One round of the loop of `gpiod_get_array`, for the `k`th of `count` lines. -/
def addDesc (count : Nat) (desc : Nat → Desc) (b : Building) (k : Nat) : Building :=
  classify (desc k) k (selectChip count (desc k) k b)

/-- `gpiod_get_array`, for lines that are all obtained: `descs->info`. -/
def gpiodGetArray (count : Nat) (desc : Nat → Desc) : Option ArrayInfo :=
  ((List.range count).foldl (addDesc count desc) ⟨none, false⟩).info

/-- An array of distinct lines. -/
structure DescArray (ngpio : Nat → Nat) where
  size : Nat
  desc : Nat → Desc
  lt_ngpio : ∀ k < size, (desc k).hwgpio < ngpio (desc k).chip
  key_inj : ∀ j < size, ∀ k < size, (desc j).key = (desc k).key → j = k

/-- What an array operation finds: `FASTPATH_NGPIO`, `BITS_PER_LONG`, whether `kmalloc_array` has
memory in the round that starts at a position, and what is in the bits that the round does not
initialize. -/
structure Env where
  fastpathNgpio : Nat
  bitsPerLong : Nat
  bitsPerLong_pos : 0 < bitsPerLong
  kmalloc : Nat → Bool
  scratch : Nat → Bitmap

/-- No memory for the masks of a chip. -/
def noMask (ngpio : Nat → Nat) (desc : Nat → Desc) (env : Env) (i : Nat) : Bool :=
  decide (env.fastpathNgpio < ngpio (desc i).chip) && !env.kmalloc i

section Complex

variable {σ : Type} (c : Chips σ) (desc : Nat → Desc) (env : Env) (raw : Bool)

/-- The check of `array_info` against the array: both are from the same call. -/
def validInfo (n : Nat) (info : Option ArrayInfo) : Option ArrayInfo :=
  info.filter fun a => n ≤ a.size

/-! ### Reading -/

/-- What is stored for a position whose line reads `value`. -/
def readValue (d : Desc) (value : Bool) : Bool := value ^^ (!raw && d.activeLow)

/-- One round of the outer loop of `gpiod_get_array_value_complex`. -/
def getRound (n : Nat) (getMask : Option Bitmap) (s : Lines σ) (i : Nat) (value : Bitmap) :
    Int × Nat × Bitmap :=
  let chip := (desc i).chip
  if noMask c.ngpio desc env i then (-ENOMEM, i, value)
  else
    let collected := doWhile (fun j (mask : Bitmap) => mask.assign (desc j).hwgpio true)
      (nextClear getMask n) (fun j => decide (j < n) && decide ((desc j).chip = chip)) (n - i) i
      (fun _ => false)
    let ret := gpioChipGetMultiple c chip collected.2 (env.scratch i) s
    if ret.1 ≠ 0 then (ret.1, i, value)
    else
      let stored := doWhile
        (fun j (value : Bitmap) => value.assign j (readValue raw (desc j) (ret.2 (desc j).hwgpio)))
        (nextClear getMask collected.1) (fun j => decide (j < collected.1)) (n - i) i value
      (0, collected.1, stored.2)

/-- The outer loop. -/
def getRounds (n : Nat) (getMask : Option Bitmap) (s : Lines σ) :
    Nat → Nat → Bitmap → Int × Bitmap
  | 0, _, value => (0, value)
  | rounds + 1, i, value =>
    if i < n then
      let round := getRound c desc env raw n getMask s i value
      if round.1 ≠ 0 then (round.1, round.2.2)
      else getRounds n getMask s rounds round.2.1 round.2.2
    else (0, value)

/-- `bitmap_xor` with `invert_mask`, if it is needed. -/
def invertAll (n : Nat) (a : ArrayInfo) (value : Bitmap) : Bitmap :=
  if !raw && !a.invertMask.isEmpty n then value.xor env.bitsPerLong value a.invertMask n else value

/-- `gpiod_get_array_value_complex`: what it returns, and the caller's bitmap. -/
def gpiodGetArrayValueComplex (n : Nat) (info : Option ArrayInfo) (value : Bitmap) (s : Lines σ) :
    Int × Bitmap :=
  match validInfo n info with
  | some a =>
    let got := gpioChipGetMultiple c a.chip a.getMask value s
    if got.1 ≠ 0 then got
    else
      let value := invertAll env raw n a got.2
      if a.getMask.isFull n then (0, value)
      else getRounds c desc env raw n (some a.getMask) s n (a.getMask.findNextZeroBit n 0) value
  | none => getRounds c desc env raw n none s n 0 value

/-! ### Writing -/

/-- What is collected for the lines of a chip. -/
structure Batch (σ : Type) where
  mask : Bitmap
  bits : Bitmap
  count : Nat
  lines : Lines σ

/-- One round of the inner loop of `gpiod_set_array_value_complex`. -/
def setBody (info : Option ArrayInfo) (value : Bitmap) (i : Nat) (b : Batch σ) : Batch σ :=
  let d := desc i
  let inverted := info.any fun a => a.invertMask i
  let value := value i ^^ (!raw && !inverted && d.activeLow)
  let ops := c.ops d.key
  if d.openDrain && !raw then
    { b with
      lines := Function.update b.lines d.key (gpioSetOpenDrainValueCommit ops value
        (b.lines d.key)) }
  else if d.openSource && !raw then
    { b with
      lines := Function.update b.lines d.key (gpioSetOpenSourceValueCommit ops value
        (b.lines d.key)) }
  else
    { b with
      mask := b.mask.assign d.hwgpio true
      bits := b.bits.assign d.hwgpio value
      count := b.count + 1 }

/-- The collected bits are pushed to the outputs. -/
def pushBatch (chip : Nat) (b : Batch σ) : Lines σ :=
  if b.count ≠ 0 then gpioChipSetMultiple c chip b.mask b.bits b.lines else b.lines

/-- One round of the outer loop. -/
def setRound (n : Nat) (info : Option ArrayInfo) (value : Bitmap) (i : Nat) (s : Lines σ) :
    Int × Nat × Lines σ :=
  let chip := (desc i).chip
  if noMask c.ngpio desc env i then (-ENOMEM, i, s)
  else
    let done := doWhile (setBody c desc raw info value)
      (nextClear (info.map ArrayInfo.setMask) n)
      (fun j => decide (j < n) && decide ((desc j).chip = chip)) (n - i) i
      ⟨fun _ => false, env.scratch i, 0, s⟩
    (0, done.1, pushBatch c chip done.2)

/-- The outer loop. -/
def setRounds (n : Nat) (info : Option ArrayInfo) (value : Bitmap) :
    Nat → Nat → Lines σ → Int × Lines σ
  | 0, _, s => (0, s)
  | rounds + 1, i, s =>
    if i < n then
      let round := setRound c desc env raw n info value i s
      if round.1 ≠ 0 then (round.1, round.2.2)
      else setRounds n info value rounds round.2.1 round.2.2
    else (0, s)

/-- `gpiod_set_array_value_complex`: what it returns, the caller's bitmap and the lines. -/
def gpiodSetArrayValueComplex (n : Nat) (info : Option ArrayInfo) (value : Bitmap) (s : Lines σ) :
    Int × Bitmap × Lines σ :=
  match validInfo n info with
  | some a =>
    let value := invertAll env raw n a value
    let s := gpioChipSetMultiple c a.chip a.setMask value s
    if a.setMask.isFull n then (0, value, s)
    else
      let set := setRounds c desc env raw n (some a) value n (a.setMask.findNextZeroBit n 0) s
      (set.1, value, set.2)
  | none =>
    let set := setRounds c desc env raw n none value n 0 s
    (set.1, value, set.2)

end Complex

end RealtekIpcam.Gpiolib.Arrays
