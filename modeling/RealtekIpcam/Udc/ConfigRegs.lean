import RealtekIpcam.Lib.BitField
import RealtekIpcam.Udc.Enable

/-!
# The registers that enabling an endpoint writes

`rts_config_ep` writes the number and the packet size of an endpoint into its configuration register
before it asks for a FIFO channel, and everything else after it has one.  Here `rts_ep_enable` runs
on the driver's data and on the registers together; `Layout.rtsEpEnable_udc` says that the data goes
through what `Udc.rtsEpEnable` says, and `rtsEpEnable_refused` what a refused enable has done: it
has written the endpoint's own configuration register and no other, and claimed nothing.

The addresses and the bits of the registers are in a header that is not part of the source, so a
register is named by what it belongs to, and the bits are a parameter, `Layout`.
-/

namespace RealtekIpcam.Udc

open BitField

/-! ## Registers -/

/-- The kinds of endpoints, whose registers are laid out differently. -/
inductive EpClass where
  | bulk
  | uac
  | uvc
  | intr
  deriving DecidableEq

/-- The kind of an endpoint number. -/
def epClass (epnum : Nat) : EpClass :=
  if epnum ≤ 3 then .bulk else if epnum = 4 then .uac else if epnum ≤ 6 then .uvc else .intr

/-- The registers of the endpoints and of the FIFO channels. -/
inductive Reg where
  /-- `USB_BULKINEPA_CFG`, `USB_UACINEP_CFG`, `USB_UVCINEPA_CFG`, `USB_INTEREPA_CFG` and so on. -/
  | cfg (dirIn : Bool) (epnum : Nat)
  /-- `USB_BULKINEPA_CTL` and so on, and `USB_EP_CTL0` for ep0. -/
  | ctl (dirIn : Bool) (epnum : Nat)
  /-- `USB_UVCINEPA_CFG5` and `USB_UVCINEPB_CFG5`. -/
  | cfg5 (epnum : Nat)
  /-- `USB_UVCINEPA_PHINF0` and `USB_UVCINEPB_PHINF0`. -/
  | phinf0 (epnum : Nat)
  /-- `USB_INTEREPA_TOGGLE_CTRL`, `USB_BULKOUTEPA_TOGGLE_CTRL` and so on. -/
  | toggle (dirIn : Bool) (epnum : Nat)
  /-- `MC_FIFO0_DMA_STOP + 0x100 * mcnum`. -/
  | fifoDmaStop (mcnum : Nat)
  /-- `MC_FIFO0_CTRL + 0x100 * mcnum`. -/
  | fifoCtrl (mcnum : Nat)
  /-- `R_MC_DUMMY0`, with a bit for the direction of each channel. -/
  | dummy0
  deriving DecidableEq

/-- A field of a register: its lowest bit and its mask. -/
structure Field where
  offset : Nat
  mask : BitVec 32

/-- The bits of the registers. -/
structure Layout where
  epnum : EpClass → Field
  maxpkt : EpClass → Field
  bufEnSel : EpClass → Field
  isotype : Field
  en : EpClass → Nat
  stall : EpClass → Nat
  uvcHead : BitVec 32

abbrev RegFile := Reg → BitVec 32

/-- `usb_write_reg` and `mc_write_reg`. -/
def writeReg (regs : RegFile) (reg : Reg) (value : BitVec 32) : RegFile :=
  Function.update regs reg value

/-- `usb_write_reg_mask` of a value shifted to its field. -/
def writeRegMask (regs : RegFile) (reg : Reg) (f : Field) (value : BitVec 32) : RegFile :=
  writeReg regs reg (regs reg &&& ~~~f.mask ||| value <<< f.offset &&& f.mask)

namespace Layout

variable (L : Layout)

/-! ## Enabling -/

/-- The endpoint numbers of a direction that have a configuration register. -/
def hasCfg (x : Endpoint) : Bool :=
  if x.dirIn then 1 ≤ x.epnum && x.epnum ≤ 12 else 1 ≤ x.epnum && x.epnum ≤ 4

def rtsSetEpnum (x : Endpoint) (regs : RegFile) : RegFile :=
  if hasCfg x then
    writeRegMask regs (.cfg x.dirIn x.epnum) (L.epnum (epClass x.epnum)) (BitVec.ofNat 32 x.epnum)
  else regs

/-- The write of `rts_set_ep_maxpkt`, which passes over the audio IN endpoint. -/
def rtsSetEpMaxpkt (x : Endpoint) (regs : RegFile) : RegFile :=
  if hasCfg x && !(x.dirIn && x.epnum == 4) then
    writeRegMask regs (.cfg x.dirIn x.epnum) (L.maxpkt (epClass x.epnum))
      (BitVec.ofNat 32 x.maxpkt.toNat)
  else regs

/-- The writes of `rts_set_ep_fifo_mapping`, once the channel is known to be free. -/
def fifoMapping (x : Endpoint) (regs : RegFile) : RegFile :=
  let regs :=
    if hasFifo x then
      writeRegMask regs (.cfg x.dirIn x.epnum) (L.bufEnSel (epClass x.epnum)) (1#32 <<< x.mcnum)
    else regs
  if x.dirIn then writeReg regs .dummy0 (setBit (regs .dummy0) x.mcnum)
  else writeReg regs .dummy0 (clearBit (regs .dummy0) x.mcnum)

def rtsSetMcDisable (x : Endpoint) (regs : RegFile) : RegFile :=
  writeReg (writeReg regs (.fifoDmaStop x.mcnum) 1) (.fifoCtrl x.mcnum) 1

/-- The endpoints whose data toggle is reset. -/
def hasToggle (x : Endpoint) : Bool :=
  if x.dirIn then 7 ≤ x.epnum && x.epnum ≤ 12 else 1 ≤ x.epnum && x.epnum ≤ 3

/-- The writes of `rts_set_ep_enable`. -/
def rtsSetEpEnable (x : Endpoint) (regs : RegFile) : RegFile :=
  let regs :=
    if hasStallBit x then
      writeReg regs (.ctl x.dirIn x.epnum)
        (clearBit (regs (.ctl x.dirIn x.epnum)) (L.stall (epClass x.epnum)))
    else regs
  let regs := if hasFifo x then rtsSetMcDisable x regs else regs
  let regs := if hasToggle x then writeReg regs (.toggle x.dirIn x.epnum) 0 else regs
  if hasCfg x then
    writeReg regs (.cfg x.dirIn x.epnum)
      (setBit (regs (.cfg x.dirIn x.epnum)) (L.en (epClass x.epnum)))
  else regs

/-- The writes of `rts_config_ep` for a UVC endpoint. -/
def uvcWrites (epnum : Nat) (pid : UInt16) (regs : RegFile) : RegFile :=
  writeRegMask (writeReg regs (.phinf0 epnum) L.uvcHead) (.cfg5 epnum) L.isotype
    (BitVec.ofNat 32 pid.toNat)

def rtsConfigEp (u : Udc) (regs : RegFile) (e : EpId) (desc : EpDesc) : Int × Udc × RegFile :=
  let pid := (desc.wMaxPacketSize >>> 11) &&& 0x3
  let regs := L.rtsSetEpnum (u.ep e) regs
  let regs := L.rtsSetEpMaxpkt ((u.rtsSetEpMaxpkt e 0).ep e) regs
  let (ret, v) := u.configMapping e
  if ret ≠ 0 then (ret, v, regs)
  else
    let regs := if usesDma (v.ep e) then L.fifoMapping (v.ep e) regs else regs
    let isUvc := (v.ep e).epnum = 5 ∨ (v.ep e).epnum = 6
    let regs := if isUvc then L.uvcWrites (v.ep e).epnum pid regs else regs
    let v := if isUvc then v.setEp e fun x => { x with pid := pid } else v
    (0, v.rtsSetEpEnable e, L.rtsSetEpEnable (v.ep e) regs)

def rtsEpEnable (u : Udc) (regs : RegFile) (e : EpId) (desc : EpDesc) : Int × Udc × RegFile :=
  if usbEndpointNum desc = 0 then ((u.rtsEpEnable e desc).1, (u.rtsEpEnable e desc).2, regs)
  else L.rtsConfigEp (u.copyDesc e desc) regs e desc

variable {L} {u : Udc} {regs : RegFile} {e : EpId} {desc : EpDesc} {reg : Reg}

theorem rtsConfigEp_udc :
    (L.rtsConfigEp u regs e desc).1 = (u.rtsConfigEp e desc).1 ∧
      (L.rtsConfigEp u regs e desc).2.1 = (u.rtsConfigEp e desc).2 := by
  unfold rtsConfigEp Udc.rtsConfigEp
  change (if (u.configMapping e).1 ≠ 0 then _ else _ : Int × Udc × RegFile).1 =
      (if (u.configMapping e).1 ≠ 0 then _ else _ : Int × Udc).1 ∧
    (if (u.configMapping e).1 ≠ 0 then _ else _ : Int × Udc × RegFile).2.1 =
      (if (u.configMapping e).1 ≠ 0 then _ else _ : Int × Udc).2
  by_cases hret : (u.configMapping e).1 = 0
  · rw [if_neg (not_not.mpr hret), if_neg (not_not.mpr hret)]
    exact ⟨rfl, rfl⟩
  · rw [if_pos hret, if_pos hret]
    exact ⟨rfl, rfl⟩

theorem rtsEpEnable_udc (L : Layout) (u : Udc) (regs : RegFile) (e : EpId) (desc : EpDesc) :
    (L.rtsEpEnable u regs e desc).1 = (u.rtsEpEnable e desc).1 ∧
      (L.rtsEpEnable u regs e desc).2.1 = (u.rtsEpEnable e desc).2 := by
  unfold rtsEpEnable
  split
  · exact ⟨rfl, rfl⟩
  · next hnum =>
    rw [Udc.rtsEpEnable_eq hnum]
    exact rtsConfigEp_udc

/-! ## A refused enable -/

theorem writeReg_of_ne (h : reg ≠ reg') (regs : RegFile) (value : BitVec 32) :
    writeReg regs reg' value reg = regs reg :=
  Function.update_of_ne h _ regs

theorem rtsSetEpnum_of_ne {x : Endpoint} (h : reg ≠ .cfg x.dirIn x.epnum) (regs : RegFile) :
    L.rtsSetEpnum x regs reg = regs reg := by
  unfold rtsSetEpnum
  split
  · exact writeReg_of_ne h regs _
  · rfl

theorem rtsSetEpMaxpkt_of_ne {x : Endpoint} (h : reg ≠ .cfg x.dirIn x.epnum) (regs : RegFile) :
    L.rtsSetEpMaxpkt x regs reg = regs reg := by
  unfold rtsSetEpMaxpkt
  split
  · exact writeReg_of_ne h regs _
  · rfl

theorem mcm_configMapping (u : Udc) (e : EpId) (h : (u.configMapping e).1 ≠ 0) :
    (u.configMapping e).2.mcm = u.mcm := by
  revert h
  unfold configMapping rtsSetEpFifoMapping
  dsimp only
  split
  · split
    · exact fun _ => rfl
    · exact fun h => absurd rfl h
  · exact fun h => absurd rfl h

theorem cfg_rtsSetEpMaxpkt (u : Udc) (e : EpId) (n : UInt16) :
    Reg.cfg ((u.rtsSetEpMaxpkt e n).ep e).dirIn ((u.rtsSetEpMaxpkt e n).ep e).epnum =
      .cfg (u.ep e).dirIn (u.ep e).epnum := by
  show Reg.cfg ((u.rtsSetEpMaxpkt e n).ep e).route.dirIn
    ((u.rtsSetEpMaxpkt e n).ep e).route.epnum = _
  rw [(quiet_rtsSetEpMaxpkt u e n).route e]
  rfl

theorem rtsConfigEp_refused (hret : (L.rtsConfigEp u regs e desc).1 ≠ 0) :
    (L.rtsConfigEp u regs e desc).2.1.mcm = u.mcm ∧
      ∀ reg, reg ≠ .cfg (u.ep e).dirIn (u.ep e).epnum →
        (L.rtsConfigEp u regs e desc).2.2 reg = regs reg := by
  revert hret
  unfold rtsConfigEp
  dsimp only
  split
  · next hmap =>
    refine fun _ => ⟨mcm_configMapping u e hmap, fun reg hreg => ?_⟩
    have hreg' := hreg
    rw [← cfg_rtsSetEpMaxpkt u e 0] at hreg'
    exact (rtsSetEpMaxpkt_of_ne hreg' _).trans (rtsSetEpnum_of_ne hreg regs)
  · exact fun hret => absurd rfl hret

/-- **A refused enable** claims no channel, and writes only the configuration register of the number
and direction in the descriptor. -/
theorem rtsEpEnable_refused (hret : (L.rtsEpEnable u regs e desc).1 ≠ 0) :
    (L.rtsEpEnable u regs e desc).2.1.mcm = u.mcm ∧
      ∀ reg, reg ≠ .cfg (usbEndpointDirIn desc) (usbEndpointNum desc) →
        (L.rtsEpEnable u regs e desc).2.2 reg = regs reg := by
  revert hret
  unfold rtsEpEnable
  split
  · next h0 =>
    intro hret
    refine absurd ?_ hret
    show (u.rtsEpEnable e desc).1 = 0
    unfold Udc.rtsEpEnable
    rw [if_pos h0]
  · intro hret
    obtain ⟨hnum, hin, -⟩ := copyDesc_fields u e desc
    have h := rtsConfigEp_refused hret
    rwa [hnum, hin] at h

end Layout
end RealtekIpcam.Udc
