import RealtekIpcam.Lib.Runs
import RealtekIpcam.Lib.BitField

/-!
# Sessions of the watchdog

`/dev/watchdog` is open in one file at a time, and what a session does to the driver stays
when the next one opens it: `expect_close` is neither cleared by `rtsx_wdt_open` nor by
`rtsx_wdt_release`.  The protocol of a watchdog asks three things of every sequence of
file operations, and each of them holds just as long as one particular step is not taken.

* A release stops the timer only after a magic character in its own session, unless an
  earlier session left one.
* With `nowayout` nothing stops the timer but `WDIOS_DISABLECARD`.
* The module is put no more often than it is got, until a magic close puts it: a module is
  got only with `nowayout`, and then there is no magic close.
-/

namespace RealtekIpcam.Watchdog

open Runs (Along exec)

/-- The parameter `nowayout`, and `CONFIG_EXTERNAL_RESET`. -/
structure WdtConfig where
  nowayout : Bool
  externalReset : Bool

/-- The static variables of the driver with the registers, and how often
`__module_get` and `module_put` were called. -/
structure Wdt where
  inuse : Bool
  expectClose : Int
  timeout : Int
  regs : BitField.Regs
  moduleGets : Nat
  modulePuts : Nat

/-- The flags of the watchdog that the driver announces. -/
inductive InfoOption where
  | setTimeout
  | keepalivePing
  | magicClose
  deriving DecidableEq

structure WatchdogInfo where
  options : List InfoOption
  identity : String
  deriving DecidableEq

def ident : WatchdogInfo where
  options := [.setTimeout, .keepalivePing, .magicClose]
  identity := "RTSX_WDT Watchdog"

/-- What the user asks for with `WDIOC_SETOPTIONS`. -/
inductive SetOption where
  | enableCard
  | disableCard
  | other (value : UInt32)
  deriving DecidableEq

/-- The commands of `rtsx_wdt_ioctl`.  An argument is `none` where `copy_from_user` fails, and
`left` is the number of bytes that `copy_to_user` does not copy. -/
inductive WdtCommand where
  | getSupport (left : Nat)
  | getStatus (left : Nat)
  | getBootStatus (left : Nat)
  | setOptions (value : Option SetOption)
  | keepAlive
  | setTimeout (newTimeout : Option Int)
  | getTimeout (left : Nat)
  | other (cmd : UInt32)
  deriving DecidableEq

/-- What an ioctl hands to the user. -/
inductive WdtAnswer where
  | ident (info : WatchdogInfo)
  | int (value : Int)
  deriving DecidableEq

def cfgReg : Nat := 0
def ctlReg : Nat := 4

/-- The offsets of the fields in `WATCHDOG_CFG_REG`. -/
def wdogTime2 : Nat := 16
def wdogRstPmuEnable : Nat := 4
def wdogRstEn : Nat := 1
def wdogEn : Nat := 0

/-- The value that `rtsx_wdt_write` keeps for the character `V`. -/
def magic : Int := 42

/-- The character `V`. -/
def magicChar : UInt8 := 86

namespace Wdt

variable (cfg : WdtConfig) (w : Wdt)

/-- `rts_set_field`. -/
def setField (reg : Nat) (field : BitVec 32) (width offset : Nat) : Wdt :=
  { w with regs := BitField.write w.regs ⟨reg, field, width, offset⟩ }

/-- The time-out that the hardware has for the one asked for, and its code. -/
def roundTimeout (newTimeout : Int) : Int × BitVec 32 :=
  if 64 ≤ newTimeout then (64, 6)
  else if 32 ≤ newTimeout then (32, 5)
  else if 16 ≤ newTimeout then (16, 4)
  else if 8 ≤ newTimeout then (8, 3)
  else if 4 ≤ newTimeout then (4, 2)
  else if 2 ≤ newTimeout then (2, 1)
  else (1, 0)

/-- `rtsx_wdt_set`; it returns 0. -/
def set (newTimeout : Int) : Wdt :=
  { w with timeout := (roundTimeout newTimeout).1 }.setField cfgReg (roundTimeout newTimeout).2
    3 wdogTime2

/-- `rtsx_wdt_start`. -/
def start : Wdt :=
  let w := w.set w.timeout
  let w :=
    if cfg.externalReset then w.setField cfgReg 1 1 wdogRstPmuEnable
    else w.setField cfgReg 1 1 wdogRstEn
  w.setField cfgReg 1 1 wdogEn

/-- `rtsx_wdt_stop`. -/
def stop : Wdt := w.setField cfgReg 0 1 wdogEn

/-- `rtsx_wdt_ping`. -/
def ping : Wdt := w.setField ctlReg 1 1 0

/-- `rtsx_wdt_open`. -/
def openFile : Int × Wdt :=
  if w.inuse then (-16, w)
  else
    let w := { w with inuse := true }
    let w := if cfg.nowayout then { w with moduleGets := w.moduleGets + 1 } else w
    (0, (w.start cfg).ping)

/-- `rtsx_wdt_release`. -/
def release : Int × Wdt :=
  let w :=
    if w.expectClose = magic then { w.stop with modulePuts := w.modulePuts + 1 } else w.ping
  (0, { w with inuse := false })

/-- The loop of `rtsx_wdt_write` over the user's bytes, `none` for one that cannot be read:
the last value of `expect_close`, and whether all were read. -/
def scan : Int → List (Option UInt8) → Int × Bool
  | expectClose, [] => (expectClose, true)
  | expectClose, none :: _ => (expectClose, false)
  | expectClose, some c :: data => scan (if c = magicChar then magic else expectClose) data

/-- `rtsx_wdt_write`. -/
def write (data : List (Option UInt8)) : Int × Wdt :=
  if data.length ≠ 0 then
    if !cfg.nowayout then
      let w' := { w with expectClose := (scan 0 data).1 }
      if (scan 0 data).2 then (data.length, w'.ping) else (-14, w')
    else (data.length, w.ping)
  else (0, w)

/-- `rtsx_wdt_ioctl`. -/
def ioctl : WdtCommand → Int × Option WdtAnswer × Wdt
  | .getSupport left =>
    if left ≠ 0 then (-14, none, w) else (0, some (.ident Watchdog.ident), w)
  | .getStatus left | .getBootStatus left =>
    if left ≠ 0 then (-14, none, w) else (0, some (.int 0), w)
  | .setOptions none => (-14, none, w)
  | .setOptions (some .enableCard) => (0, none, w.start cfg)
  | .setOptions (some .disableCard) => (0, none, w.stop)
  | .setOptions (some (.other _)) => (-22, none, w)
  | .keepAlive => (0, none, w.ping)
  | .setTimeout none => (-14, none, w)
  | .setTimeout (some newTimeout) => (0, none, w.set newTimeout)
  | .getTimeout left => (left, if left = 0 then some (.int w.timeout) else none, w)
  | .other _ => (-25, none, w)

/-- The timer runs: `WDOG_EN` is set. -/
def started : Bool := (w.regs cfgReg).getLsbD wdogEn

end Wdt

/-- `rtsx_wdt_probe`, whatever is in the registers before. -/
def probe (regs : BitField.Regs) : Wdt :=
  ({ inuse := false, expectClose := 0, timeout := 8, regs := regs, moduleGets := 0,
     modulePuts := 0 : Wdt }.stop).set 8

/-! ## Runs -/

/-- A file operation. -/
inductive WdtEvent where
  | openFile
  | write (data : List (Option UInt8))
  | ioctl (cmd : WdtCommand)
  | release
  deriving DecidableEq

/-- The driver, and the last non-empty write of the session, which it does not keep. -/
structure Session where
  wdt : Wdt
  lastWrite : Option (List (Option UInt8))

/-- The file operations.  All but `rtsx_wdt_open` are called for an open file. -/
def step (cfg : WdtConfig) (s : Session) : WdtEvent → Option Session
  | .openFile =>
    some ⟨(s.wdt.openFile cfg).2, if s.wdt.inuse then s.lastWrite else none⟩
  | .write data =>
    if s.wdt.inuse then
      some ⟨(s.wdt.write cfg data).2, if data.length ≠ 0 then some data else s.lastWrite⟩
    else none
  | .ioctl cmd =>
    if s.wdt.inuse then some ⟨(s.wdt.ioctl cfg cmd).2.2, s.lastWrite⟩ else none
  | .release => if s.wdt.inuse then some ⟨s.wdt.release.2, none⟩ else none

/-- The session before the first file operation. -/
def afterProbe (regs : BitField.Regs) : Session := ⟨probe regs, none⟩

/-- A step stops the timer. -/
def Stops (s t : Session) : Prop := s.wdt.started = true ∧ t.wdt.started = false

/-- The last non-empty write of the session contained the magic character. -/
def MagicWritten (s : Session) : Prop := ∃ data ∈ s.lastWrite, some magicChar ∈ data

/-- A release stops the timer only after a magic write in its session. -/
def ReleaseOk (cfg : WdtConfig) (s : Session) (e : WdtEvent) : Prop :=
  e = .release → ∀ t, step cfg s e = some t → Stops s t → MagicWritten s

/-- With `nowayout` the operation does not stop the timer. -/
def NoWayOut (cfg : WdtConfig) (s : Session) (e : WdtEvent) : Prop :=
  cfg.nowayout = true → ∀ t, step cfg s e = some t → ¬ Stops s t

/-- After the operation the module was put no more often than it was got. -/
def Balanced (cfg : WdtConfig) (s : Session) (e : WdtEvent) : Prop :=
  ∀ t, step cfg s e = some t → t.wdt.modulePuts ≤ t.wdt.moduleGets

/-- No release finds the timer started and the magic value of an earlier session. -/
def NoStaleMagic (s : Session) (e : WdtEvent) : Prop :=
  e = .release → s.wdt.inuse = true → s.wdt.started = true → s.wdt.expectClose = magic →
    s.lastWrite ≠ none
  deriving Decidable

/-- With `nowayout` no `WDIOS_DISABLECARD` finds the timer started. -/
def NoDisable (cfg : WdtConfig) (s : Session) (e : WdtEvent) : Prop :=
  e = .ioctl (.setOptions (some .disableCard)) → cfg.nowayout = true → s.wdt.inuse = true →
    s.wdt.started = false
  deriving Decidable

/-- No release finds the magic value. -/
def NoMagicClose (s : Session) (e : WdtEvent) : Prop :=
  e = .release → s.wdt.inuse = true → s.wdt.expectClose ≠ magic
  deriving Decidable

/-! ## What the operations do to the timer -/

namespace Wdt

variable {cfg : WdtConfig} {w w' w'' : Wdt}

/-- Nothing but the time-out and the registers differs. -/
structure SameFile (w w' : Wdt) : Prop where
  inuse : w'.inuse = w.inuse
  expectClose : w'.expectClose = w.expectClose
  moduleGets : w'.moduleGets = w.moduleGets
  modulePuts : w'.modulePuts = w.modulePuts

theorem SameFile.refl (w : Wdt) : SameFile w w := ⟨rfl, rfl, rfl, rfl⟩

theorem SameFile.trans (h : SameFile w w') (h' : SameFile w' w'') : SameFile w w'' where
  inuse := h'.inuse.trans h.inuse
  expectClose := h'.expectClose.trans h.expectClose
  moduleGets := h'.moduleGets.trans h.moduleGets
  modulePuts := h'.modulePuts.trans h.modulePuts

theorem sameFile_set (newTimeout : Int) : SameFile w (w.set newTimeout) :=
  ⟨rfl, rfl, rfl, rfl⟩

theorem sameFile_start : SameFile w (w.start cfg) := by
  unfold start
  split <;> exact ⟨rfl, rfl, rfl, rfl⟩

theorem sameFile_stop : SameFile w w.stop := ⟨rfl, rfl, rfl, rfl⟩

theorem sameFile_ping : SameFile w w.ping := ⟨rfl, rfl, rfl, rfl⟩

theorem openFile_of_inuse (h : w.inuse = true) : w.openFile cfg = (-16, w) := if_pos h

theorem openFile_of_not_inuse (h : w.inuse ≠ true) :
    SameFile { w with
      inuse := true
      moduleGets := if cfg.nowayout then w.moduleGets + 1 else w.moduleGets }
      (w.openFile cfg).2 := by
  unfold openFile
  rw [if_neg h]
  refine SameFile.trans ?_ (sameFile_start.trans sameFile_ping)
  dsimp only
  split <;> exact ⟨rfl, rfl, rfl, rfl⟩

/-- A write leaves `expect_close` as it is with `nowayout`, and sets it from the characters
otherwise. -/
theorem sameFile_write (data : List (Option UInt8)) :
    SameFile { w with
      expectClose :=
        if data.length ≠ 0 ∧ cfg.nowayout = false then (scan 0 data).1 else w.expectClose }
      (w.write cfg data).2 := by
  unfold write
  by_cases hlen : data.length ≠ 0
  · rw [if_pos hlen]
    cases hn : cfg.nowayout with
    | false =>
      rw [if_pos Bool.not_false, if_pos ⟨hlen, rfl⟩]
      dsimp only
      split
      · exact sameFile_ping
      · exact SameFile.refl _
    | true =>
      rw [if_neg (by decide : ¬ (!true) = true), if_neg fun h => Bool.noConfusion h.2]
      exact sameFile_ping
  · rw [if_neg hlen, if_neg fun h => hlen h.1]
    exact SameFile.refl _

theorem sameFile_release :
    SameFile { w with
      inuse := false
      modulePuts := if w.expectClose = magic then w.modulePuts + 1 else w.modulePuts }
      w.release.2 := by
  unfold release
  dsimp only
  split <;> exact ⟨rfl, rfl, rfl, rfl⟩

theorem ioctl_cases (cmd : WdtCommand) :
    (w.ioctl cfg cmd).2.2 = w ∨ (w.ioctl cfg cmd).2.2 = w.start cfg ∨
      (w.ioctl cfg cmd).2.2 = w.ping ∨ (∃ n, (w.ioctl cfg cmd).2.2 = w.set n) ∨
      cmd = .setOptions (some .disableCard) ∧ (w.ioctl cfg cmd).2.2 = w.stop := by
  cases cmd with
  | getSupport left =>
    refine .inl ?_
    simp only [ioctl]
    split <;> rfl
  | getStatus left =>
    refine .inl ?_
    simp only [ioctl]
    split <;> rfl
  | getBootStatus left =>
    refine .inl ?_
    simp only [ioctl]
    split <;> rfl
  | setOptions value =>
    rcases value with _ | ⟨_ | _ | v⟩
    · exact .inl rfl
    · exact .inr (.inl rfl)
    · exact .inr (.inr (.inr (.inr ⟨rfl, rfl⟩)))
    · exact .inl rfl
  | keepAlive => exact .inr (.inr (.inl rfl))
  | setTimeout newTimeout =>
    cases newTimeout with
    | none => exact .inl rfl
    | some n => exact .inr (.inr (.inr (.inl ⟨n, rfl⟩)))
  | getTimeout left => exact .inl rfl
  | other cmd => exact .inl rfl

theorem sameFile_ioctl (cmd : WdtCommand) : SameFile w (w.ioctl cfg cmd).2.2 := by
  rcases @ioctl_cases cfg w cmd with h | h | h | ⟨n, h⟩ | ⟨-, h⟩
  · rw [h]
    exact SameFile.refl w
  · rw [h]
    exact sameFile_start
  · rw [h]
    exact sameFile_ping
  · rw [h]
    exact sameFile_set n
  · rw [h]
    exact sameFile_stop

theorem started_setField {reg width offset : Nat} {field : BitVec 32} (hw : width < 32)
    (h : reg ≠ cfgReg ∨ 0 < offset) :
    (w.setField reg field width offset).started = w.started := by
  have hcov : ¬ (⟨reg, field, width, offset⟩ : BitField.FieldWrite).Covers cfgReg wdogEn := by
    rintro ⟨hreg, hoff, -⟩
    rcases h with h | h
    · exact h hreg
    · exact absurd h (Nat.not_lt.mpr hoff)
  unfold started setField
  rw [BitField.getLsbD_write hw (by decide), if_neg hcov]

theorem started_setField_wdogEn {field : BitVec 32} :
    (w.setField cfgReg field 1 wdogEn).started = field.getLsbD 0 := by
  unfold started setField
  have hcov : (⟨cfgReg, field, 1, wdogEn⟩ : BitField.FieldWrite).Covers cfgReg wdogEn :=
    ⟨rfl, Nat.le_refl _, Nat.lt_succ_self _⟩
  rw [BitField.getLsbD_write (by decide : 1 < 32) (by decide), if_pos hcov]
  rfl

@[simp] theorem started_set (newTimeout : Int) : (w.set newTimeout).started = w.started :=
  started_setField (by decide) (Or.inr (by decide))

@[simp] theorem started_start : (w.start cfg).started = true := started_setField_wdogEn

@[simp] theorem started_stop : w.stop.started = false := started_setField_wdogEn

@[simp] theorem started_ping : w.ping.started = w.started :=
  started_setField (by decide) (Or.inl (by decide))

theorem started_openFile (h : w.started = true) : (w.openFile cfg).2.started = true := by
  unfold openFile
  split
  · exact h
  · exact started_ping.trans started_start

theorem started_write (data : List (Option UInt8)) :
    (w.write cfg data).2.started = w.started := by
  unfold write
  split
  · split
    · dsimp only
      split
      · exact started_ping
      · rfl
    · exact started_ping
  · rfl

theorem started_ioctl {cmd : WdtCommand} (hcmd : cmd ≠ .setOptions (some .disableCard))
    (hs : w.started = true) : (w.ioctl cfg cmd).2.2.started = true := by
  rcases @ioctl_cases cfg w cmd with h | h | h | ⟨n, h⟩ | ⟨heq, -⟩
  · rw [h]
    exact hs
  · rw [h]
    exact started_start
  · rw [h]
    exact started_ping.trans hs
  · rw [h]
    exact (started_set n).trans hs
  · exact absurd heq hcmd

theorem started_release :
    w.release.2.started = if w.expectClose = magic then false else w.started := by
  unfold release
  by_cases h : w.expectClose = magic
  · rw [if_pos h, if_pos h]
    exact started_stop
  · rw [if_neg h, if_neg h]
    exact started_ping

theorem mem_of_scan {expectClose : Int} {data : List (Option UInt8)}
    (h : (scan expectClose data).1 = magic) :
    expectClose = magic ∨ some magicChar ∈ data := by
  induction data generalizing expectClose with
  | nil => exact Or.inl h
  | cons c data ih =>
    cases c with
    | none => exact Or.inl h
    | some c =>
      by_cases hc : c = magicChar
      · rw [hc]
        exact Or.inr List.mem_cons_self
      · rw [scan, if_neg hc] at h
        exact (ih h).imp_right (List.mem_cons_of_mem _)

end Wdt

/-- With `nowayout` there is no magic value; without it the module is not got.  The magic
value comes from the last non-empty write of the session, if there was one. -/
structure Kept (cfg : WdtConfig) (s : Session) : Prop where
  expectClose : cfg.nowayout = true → s.wdt.expectClose ≠ magic
  moduleGets : cfg.nowayout = false → s.wdt.moduleGets = 0
  written : s.wdt.expectClose = magic → s.lastWrite ≠ none → MagicWritten s

variable {cfg : WdtConfig} {s t : Session}

theorem kept_afterProbe (cfg : WdtConfig) (regs : BitField.Regs) :
    Kept cfg (afterProbe regs) where
  expectClose _ := (by decide : (0 : Int) ≠ magic)
  moduleGets _ := rfl
  written h := absurd h (by decide : (0 : Int) ≠ magic)

theorem Kept.of_sameFile (h : Kept cfg s) {w : Wdt} (hw : Wdt.SameFile s.wdt w) :
    Kept cfg ⟨w, s.lastWrite⟩ where
  expectClose hn := hw.expectClose ▸ h.expectClose hn
  moduleGets hn := hw.moduleGets ▸ h.moduleGets hn
  written hm := h.written (hw.expectClose ▸ hm)

/-- Every event keeps what is known of the magic value. -/
theorem Kept.step {e : WdtEvent} (h : Kept cfg s) (hstep : step cfg s e = some t) :
    Kept cfg t := by
  cases e with
  | openFile =>
    obtain rfl := Option.some.inj hstep
    by_cases hin : s.wdt.inuse = true
    · rw [Wdt.openFile_of_inuse hin, if_pos hin]
      exact h
    · have hw := @Wdt.openFile_of_not_inuse cfg _ hin
      rw [if_neg hin]
      refine ⟨fun hn => ?_, fun hn => ?_, fun _ hne => absurd rfl hne⟩
      · exact hw.expectClose ▸ h.expectClose hn
      · rw [hw.moduleGets, hn]
        exact h.moduleGets hn
  | write data =>
    obtain ⟨hin, ⟨⟩⟩ := Option.ite_none_right_eq_some.mp hstep
    have hw := @Wdt.sameFile_write cfg s.wdt data
    refine ⟨fun hn => ?_, fun hn => ?_, fun hm => ?_⟩
    · rw [hw.expectClose]
      dsimp only
      rw [if_neg fun hd => Bool.noConfusion (hn.symm.trans hd.2)]
      exact h.expectClose hn
    · rw [hw.moduleGets]
      exact h.moduleGets hn
    · dsimp only at hm ⊢
      rw [hw.expectClose] at hm
      by_cases hlen : data.length ≠ 0
      · rw [if_pos hlen]
        cases hn : cfg.nowayout with
        | true =>
          rw [if_neg fun hd => Bool.noConfusion (hn.symm.trans hd.2)] at hm
          exact absurd hm (h.expectClose hn)
        | false =>
          rw [if_pos ⟨hlen, hn⟩] at hm
          have hmem := (Wdt.mem_of_scan hm).resolve_left (by decide)
          exact fun _ => ⟨data, rfl, hmem⟩
      · rw [if_neg fun hd => hlen hd.1] at hm
        rw [if_neg hlen]
        exact h.written hm
  | ioctl cmd =>
    obtain ⟨hin, ⟨⟩⟩ := Option.ite_none_right_eq_some.mp hstep
    exact h.of_sameFile (Wdt.sameFile_ioctl cmd)
  | release =>
    obtain ⟨hin, ⟨⟩⟩ := Option.ite_none_right_eq_some.mp hstep
    have hw := Wdt.sameFile_release (w := s.wdt)
    refine ⟨fun hn => ?_, fun hn => ?_, fun _ hne => absurd rfl hne⟩
    · exact hw.expectClose ▸ h.expectClose hn
    · rw [hw.moduleGets]
      exact h.moduleGets hn

/-! ## The three parts -/

theorem stops_release_iff (hstep : step cfg s .release = some t) :
    Stops s t ↔ s.wdt.started = true ∧ s.wdt.expectClose = magic := by
  obtain ⟨-, ⟨⟩⟩ := Option.ite_none_right_eq_some.mp hstep
  rw [Stops, Wdt.started_release]
  refine and_congr_right fun hs => ?_
  by_cases hm : s.wdt.expectClose = magic
  · simp [hm]
  · simp [hm, hs]

theorem releaseOk_iff (h : Kept cfg s) (e : WdtEvent) :
    ReleaseOk cfg s e ↔ NoStaleMagic s e := by
  constructor
  · rintro hok rfl hin hs hm
    have hstep : step cfg s .release = some ⟨s.wdt.release.2, none⟩ := if_pos hin
    obtain ⟨data, hdata, -⟩ := hok rfl _ hstep ((stops_release_iff hstep).mpr ⟨hs, hm⟩)
    rw [hdata]
    exact Option.some_ne_none data
  · rintro hno rfl t hstep hstops
    obtain ⟨hs, hm⟩ := (stops_release_iff hstep).mp hstops
    have hin := (Option.ite_none_right_eq_some.mp hstep).1
    exact h.written hm (hno rfl hin hs hm)

theorem noWayOut_iff (h : Kept cfg s) (e : WdtEvent) : NoWayOut cfg s e ↔ NoDisable cfg s e := by
  constructor
  · rintro hno rfl hn hin
    have hstep : step cfg s (.ioctl (.setOptions (some .disableCard))) =
        some ⟨s.wdt.stop, s.lastWrite⟩ := if_pos hin
    by_contra hs
    exact hno hn _ hstep ⟨eq_true_of_ne_false hs, Wdt.started_stop⟩
  · rintro hdis hn t hstep ⟨hs, ht⟩
    have hkeep : t.wdt.started = true := by
      cases e with
      | openFile =>
        obtain ⟨⟩ := hstep
        exact Wdt.started_openFile hs
      | write data =>
        obtain ⟨-, ⟨⟩⟩ := Option.ite_none_right_eq_some.mp hstep
        exact (Wdt.started_write data).trans hs
      | ioctl cmd =>
        obtain ⟨hin, ⟨⟩⟩ := Option.ite_none_right_eq_some.mp hstep
        refine Wdt.started_ioctl (fun hcmd => ?_) hs
        subst hcmd
        exact Bool.noConfusion (hs.symm.trans (hdis rfl hn hin))
      | release =>
        have hm := (stops_release_iff hstep).mp ⟨hs, ht⟩
        exact absurd hm.2 (h.expectClose hn)
    exact Bool.noConfusion (hkeep.symm.trans ht)

/-- The module is put at a release after the magic value. -/
theorem modulePuts_step {e : WdtEvent} (hstep : step cfg s e = some t) :
    t.wdt.modulePuts =
      if e = .release ∧ s.wdt.expectClose = magic then s.wdt.modulePuts + 1
      else s.wdt.modulePuts := by
  cases e with
  | openFile =>
    obtain ⟨⟩ := hstep
    simp only [reduceCtorEq, false_and, if_false]
    by_cases hin : s.wdt.inuse = true
    · rw [Wdt.openFile_of_inuse hin]
    · exact (Wdt.openFile_of_not_inuse hin).modulePuts
  | write data =>
    obtain ⟨-, ⟨⟩⟩ := Option.ite_none_right_eq_some.mp hstep
    simp only [reduceCtorEq, false_and, if_false]
    exact (Wdt.sameFile_write data).modulePuts
  | ioctl cmd =>
    obtain ⟨-, ⟨⟩⟩ := Option.ite_none_right_eq_some.mp hstep
    simp only [reduceCtorEq, false_and, if_false]
    exact (Wdt.sameFile_ioctl cmd).modulePuts
  | release =>
    obtain ⟨-, ⟨⟩⟩ := Option.ite_none_right_eq_some.mp hstep
    rw [Wdt.sameFile_release.modulePuts]
    simp

theorem balanced_iff (h : Kept cfg s) (hputs : s.wdt.modulePuts = 0) (e : WdtEvent) :
    Balanced cfg s e ↔ NoMagicClose s e := by
  constructor
  · rintro hbal rfl hin hm
    have hstep : step cfg s .release = some ⟨s.wdt.release.2, none⟩ := if_pos hin
    have hle := hbal _ hstep
    have hgets : s.wdt.moduleGets = 0 :=
      h.moduleGets (Bool.eq_false_iff.mpr fun hn => h.expectClose hn hm)
    rw [modulePuts_step hstep, if_pos ⟨rfl, hm⟩, Wdt.sameFile_release.moduleGets] at hle
    dsimp only at hle
    omega
  · intro hno t hstep
    rw [modulePuts_step hstep, hputs]
    rw [if_neg ?_]
    · exact Nat.zero_le _
    · rintro ⟨rfl, hm⟩
      exact hno rfl (Option.ite_none_right_eq_some.mp hstep).1 hm

variable (cfg) (regs : BitField.Regs) (es : List WdtEvent)

theorem along_releaseOk_iff :
    Along (step cfg) (ReleaseOk cfg) (afterProbe regs) es ↔
      Along (step cfg) NoStaleMagic (afterProbe regs) es :=
  Along.congr (fun _ _ _ h _ hstep => h.step hstep) (fun _ e h => releaseOk_iff h e)
    (kept_afterProbe cfg regs)

theorem along_noWayOut_iff :
    Along (step cfg) (NoWayOut cfg) (afterProbe regs) es ↔
      Along (step cfg) (NoDisable cfg) (afterProbe regs) es :=
  Along.congr (fun _ _ _ h _ hstep => h.step hstep) (fun _ e h => noWayOut_iff h e)
    (kept_afterProbe cfg regs)

theorem along_balanced_iff :
    Along (step cfg) (Balanced cfg) (afterProbe regs) es ↔
      Along (step cfg) NoMagicClose (afterProbe regs) es := by
  refine Along.congr (P := fun s => Kept cfg s ∧ s.wdt.modulePuts = 0) ?_
    (fun s e h => balanced_iff h.1 h.2 e) ⟨kept_afterProbe cfg regs, rfl⟩
  rintro s e t ⟨h, hputs⟩ hbal hstep
  have hno := (balanced_iff h hputs e).mp hbal
  refine ⟨h.step hstep, ?_⟩
  rw [modulePuts_step hstep, if_neg ?_]
  · exact hputs
  · rintro ⟨rfl, hm⟩
    exact hno rfl (Option.ite_none_right_eq_some.mp hstep).1 hm

/-- **The three parts of the protocol**, for every sequence of file operations.  Each holds of
the sequence just when the step that breaks it is not taken. -/
theorem protocol_iff :
    (Along (step cfg) (ReleaseOk cfg) (afterProbe regs) es ↔
      Along (step cfg) NoStaleMagic (afterProbe regs) es) ∧
    (Along (step cfg) (NoWayOut cfg) (afterProbe regs) es ↔
      Along (step cfg) (NoDisable cfg) (afterProbe regs) es) ∧
    (Along (step cfg) (Balanced cfg) (afterProbe regs) es ↔
      Along (step cfg) NoMagicClose (afterProbe regs) es) :=
  ⟨along_releaseOk_iff cfg regs es, along_noWayOut_iff cfg regs es, along_balanced_iff cfg regs es⟩

/-- A magic close puts a module that was never got, and the next session stops the timer
without a write; with `nowayout` an ioctl stops it. -/
theorem not_protocol :
    ¬ Along (step ⟨false, false⟩) (Balanced ⟨false, false⟩) (afterProbe fun _ => 0)
        [.openFile, .write [some magicChar], .release] ∧
    ¬ Along (step ⟨false, false⟩) (ReleaseOk ⟨false, false⟩) (afterProbe fun _ => 0)
        [.openFile, .write [some magicChar], .release, .openFile, .release] ∧
    ¬ Along (step ⟨true, false⟩) (NoWayOut ⟨true, false⟩) (afterProbe fun _ => 0)
        [.openFile, .ioctl (.setOptions (some .disableCard))] := by
  rw [along_balanced_iff, along_releaseOk_iff, along_noWayOut_iff]
  decide +kernel

end RealtekIpcam.Watchdog
