import RealtekIpcam.Udc.SameOwners
import RealtekIpcam.Udc.UvcReenable

/-!
# The packet size of a video frame

Before each transfer on a UVC endpoint `rts_uvc_quirks` chooses the packet size and the number of
packets per microframe for the length of the request.  A request that does not fit into one packet
of the largest size per microframe, times the extra packets of the descriptor, gets the largest of
both.  Any other request gets one packet per microframe, and its size is cut to the request only
when the request is short for the size that the request *before* it has left behind.

So what is programmed depends on the requests before.  `Tuner` is the driver's data with the two
register fields that hold the result, and a history is a list of requests that are started one after
the other.  `historyFree_iff` says of any two histories when they make no difference.
-/

namespace RealtekIpcam.Udc

open Function

/-- The fields `EP_MAXPKT10_0` and `EP_ISOTYPE1_0` of a UVC endpoint. -/
structure UvcFields where
  maxpkt : UInt16
  pid : UInt16
  deriving DecidableEq

/-- The driver's data and the fields of the UVC endpoints. -/
structure Tuner where
  udc : Udc
  fields : EpId → UvcFields

namespace Tuner

variable (s : Tuner) (e : EpId)

/-! ## Programming -/

def rtsSetEpMaxpkt (size : UInt16) : Tuner :=
  let v := s.udc.rtsSetEpMaxpkt e size
  ⟨v, update s.fields e { s.fields e with maxpkt := (v.ep e).maxpkt }⟩

/-- The write of the packets per microframe. -/
def writePid (pid : UInt16) : Tuner :=
  ⟨s.udc.setEp e fun x => { x with pid := pid },
    update s.fields e { s.fields e with pid := pid }⟩

/-- `rts_uvc_quirks`, with its writes. -/
def rtsUvcQuirks (r : ReqId) : Tuner :=
  let x := s.udc.ep e
  match x.desc with
  | none => s
  | some desc =>
    if ¬ isUvcNum x.epnum then s
    else
      let length := (s.udc.req r).length
      let maxpid := (desc.wMaxPacketSize >>> 11) &&& 0x3
      let epMaxpkt := (desc.wMaxPacketSize &&& 0x7ff).toUInt32
      let whole := length > (epMaxpkt - 12) * (maxpid.toUInt32 + 1)
      let pid := if whole then maxpid else 0
      let maxpkt :=
        if whole then epMaxpkt
        else if length < x.maxpkt.toUInt32 - 12 then 12 + ((length - 1) - (length - 1) % 4)
        else x.maxpkt.toUInt32
      let s := if maxpkt ≠ x.maxpkt.toUInt32 then s.rtsSetEpMaxpkt e maxpkt.toUInt16 else s
      if pid ≠ x.pid then s.writePid e pid else s

/-- `rts_ep_enable` of a UVC endpoint: the largest packet size and the packets per microframe of the
descriptor are written. -/
def enable (desc : EpDesc) : Tuner :=
  let v := (s.udc.rtsEpEnable e desc).2
  ⟨v, update s.fields e ⟨(v.ep e).maxpkt, (desc.wMaxPacketSize >>> 11) &&& 0x3⟩⟩

/-- A request: its endpoint, its address and its length. -/
structure Sent where
  ep : EpId
  req : ReqId
  length : UInt32
  deriving DecidableEq

/-- The gadget driver sets the length of a request. -/
def setLength (r : ReqId) (length : UInt32) : Tuner :=
  { s with udc := s.udc.setReq r fun q => { q with length := length } }

/-- A request is started: `rts_start_dma_transfer`, which tunes the endpoint first if the device
has the quirk. -/
def start (q : Sent) : Tuner :=
  let s := s.setLength q.req q.length
  ⟨s.udc.rtsStartDmaTransfer q.ep q.req,
    (if s.udc.dynamicMaxpktsize then s.rtsUvcQuirks q.ep q.req else s).fields⟩

/-- The requests of a history, one after the other. -/
def history (h : List Sent) : Tuner := h.foldl start s

/-- What `rts_uvc_quirks` programs for a request after a history. -/
def programmed (h : List Sent) (r : ReqId) (length : UInt32) : UvcFields :=
  (((s.history h).setLength r length).rtsUvcQuirks e r).fields e

variable {s e} {desc : EpDesc} {r : ReqId} {length : UInt32}

theorem setEp_eq_self {u : Udc} {f : Endpoint → Endpoint} (h : f (u.ep e) = u.ep e) :
    u.setEp e f = u := by
  unfold setEp
  rw [h, update_eq_self]

theorem program_udc (c : Prop) [Decidable c] (size pid : UInt16) :
    (if pid ≠ (s.udc.ep e).pid then (if c then s.rtsSetEpMaxpkt e size else s).writePid e pid
      else if c then s.rtsSetEpMaxpkt e size else s).udc =
      (if c then s.udc.rtsSetEpMaxpkt e size else s.udc).setEp e
        fun x => { x with pid := pid } := by
  have hudc : (if c then s.rtsSetEpMaxpkt e size else s).udc =
      if c then s.udc.rtsSetEpMaxpkt e size else s.udc := by
    split
    · rfl
    · rfl
  have hpid : ((if c then s.udc.rtsSetEpMaxpkt e size else s.udc).ep e).pid =
      (s.udc.ep e).pid := by
    split
    · unfold Udc.rtsSetEpMaxpkt
      rw [setEp_ep_self]
    · rfl
  by_cases hnew : pid = (s.udc.ep e).pid
  · rw [if_neg (not_not.mpr hnew), hudc, setEp_eq_self]
    rw [hnew, ← hpid]
  · rw [if_pos hnew, ← hudc]
    rfl

theorem rtsUvcQuirks_udc : (s.rtsUvcQuirks e r).udc = s.udc.rtsUvcQuirks e r := by
  unfold rtsUvcQuirks Udc.rtsUvcQuirks
  dsimp only
  cases (s.udc.ep e).desc with
  | none => rfl
  | some desc =>
    dsimp only
    split
    · rfl
    · exact program_udc _ _ _

end Tuner

/-! ## What is programmed -/

/-- The payload of the descriptor, which is its largest packet. -/
def EpDesc.payload (desc : EpDesc) : UInt16 := desc.wMaxPacketSize &&& 0x7ff

/-- The extra packets per microframe of the descriptor. -/
def EpDesc.mult (desc : EpDesc) : UInt16 := (desc.wMaxPacketSize >>> 11) &&& 0x3

/-- What fits into a microframe of the largest packets, without their headers. -/
def EpDesc.capacity (desc : EpDesc) : Nat := (desc.payload.toNat - 12) * (desc.mult.toNat + 1)

/-- The test of `rts_uvc_quirks` for a request that needs all packets. -/
def whole (desc : EpDesc) (length : UInt32) : Prop :=
  length > (desc.payload.toUInt32 - 12) * (desc.mult.toUInt32 + 1)
  deriving Decidable

/-- The packet size that `rts_uvc_quirks` asks for, when the size before is `maxpkt`. -/
def askedSize (desc : EpDesc) (maxpkt : UInt16) (length : UInt32) : UInt32 :=
  if whole desc length then desc.payload.toUInt32
  else if length < maxpkt.toUInt32 - 12 then 12 + ((length - 1) - (length - 1) % 4)
  else maxpkt.toUInt32

/-- What `rts_set_ep_maxpkt` makes of it. -/
def tunedSize (desc : EpDesc) (maxpkt : UInt16) (length : UInt32) : UInt16 :=
  let size := askedSize desc maxpkt length
  if size ≠ maxpkt.toUInt32 then
    if size.toUInt16 ≠ 0 ∧ size.toUInt16 < desc.payload then size.toUInt16 &&& 0x7ff
    else desc.payload
  else maxpkt

/-- The packets per microframe that `rts_uvc_quirks` chooses. -/
def tunedPid (desc : EpDesc) (length : UInt32) : UInt16 :=
  if whole desc length then desc.mult else 0

/-- The request is short for the packet size: `length < maxpkt - 12` in unsigned arithmetic, which
any request meets when the packet is smaller than its header. -/
def Cut (maxpkt length : Nat) : Prop := maxpkt < 12 ∨ length + 12 < maxpkt
  deriving Decidable

/-- The size that a packet is cut to for a request that is not empty. -/
def cutSize (desc : EpDesc) (length : Nat) : Nat :=
  min (12 + 4 * ((length - 1) / 4)) desc.payload.toNat

variable {desc : EpDesc} {maxpkt : UInt16} {length : UInt32}

theorem payload_le (desc : EpDesc) : desc.payload.toNat ≤ 2047 := by
  unfold EpDesc.payload
  rw [UInt16.toNat_and]
  exact Nat.and_le_right

theorem mult_le (desc : EpDesc) : desc.mult.toNat ≤ 3 := by
  unfold EpDesc.mult
  rw [UInt16.toNat_and]
  exact Nat.and_le_right

theorem capacity_le (desc : EpDesc) : desc.capacity ≤ 8140 := by
  have hpay := payload_le desc
  have hmult := mult_le desc
  calc desc.capacity ≤ 2035 * 4 := Nat.mul_le_mul (by omega) (by omega)
    _ = 8140 := rfl

theorem whole_iff (hpay : 12 < desc.payload.toNat) :
    whole desc length ↔ desc.capacity < length.toNat := by
  have hcap := capacity_le desc
  have hle := payload_le desc
  have hmult := mult_le desc
  have h12 : (12 : UInt32) ≤ desc.payload.toUInt32 := by
    rw [UInt32.le_iff_toNat_le, UInt16.toNat_toUInt32]
    show 12 ≤ _
    omega
  have hsub : (desc.payload.toUInt32 - 12).toNat = desc.payload.toNat - 12 := by
    rw [UInt32.toNat_sub_of_le _ _ h12, UInt16.toNat_toUInt32]
    rfl
  have hadd : (desc.mult.toUInt32 + 1).toNat = desc.mult.toNat + 1 := by
    rw [UInt32.toNat_add, UInt16.toNat_toUInt32]
    show (desc.mult.toNat + 1) % 2 ^ 32 = _
    omega
  unfold whole
  rw [gt_iff_lt, UInt32.lt_iff_toNat_lt, UInt32.toNat_mul, hsub, hadd]
  show desc.capacity % 2 ^ 32 < _ ↔ _
  rw [Nat.mod_eq_of_lt (by omega)]

theorem cut_iff (hsmall : length.toNat ≤ 8140) :
    length < maxpkt.toUInt32 - 12 ↔ Cut maxpkt.toNat length.toNat := by
  have hlt := maxpkt.toNat_lt
  unfold Cut
  rw [UInt32.lt_iff_toNat_lt, UInt32.toNat_sub, UInt16.toNat_toUInt32]
  show _ < (2 ^ 32 - 12 + maxpkt.toNat) % 2 ^ 32 ↔ _
  omega

/-- The size that the code computes for a short request.  For the empty request the subtraction
wraps. -/
theorem cut_toNat (length : UInt32) (hsmall : length.toNat ≤ 8140) :
    (12 + ((length - 1) - (length - 1) % 4)).toNat =
      if length.toNat = 0 then 8 else 12 + 4 * ((length.toNat - 1) / 4) := by
  have hsub : (length - 1).toNat = (2 ^ 32 - 1 + length.toNat) % 2 ^ 32 := UInt32.toNat_sub ..
  have hmod : ((length - 1) % 4).toNat = (length - 1).toNat % 4 := UInt32.toNat_mod ..
  have hle : (length - 1) % 4 ≤ length - 1 := by
    rw [UInt32.le_iff_toNat_le, hmod]
    exact Nat.mod_le _ _
  rw [UInt32.toNat_add, UInt32.toNat_sub_of_le _ _ hle, hmod, hsub]
  show (12 + _) % 2 ^ 32 = _
  split
  · next h0 =>
    rw [h0]
    rfl
  · omega

theorem clamped_toNat {size : UInt32} (h8 : 8 ≤ size.toNat) (hbig : size.toNat ≤ 8152) :
    (if size.toUInt16 ≠ 0 ∧ size.toUInt16 < desc.payload then size.toUInt16 &&& 0x7ff
      else desc.payload).toNat = min size.toNat desc.payload.toNat := by
  have hpay := payload_le desc
  have h16 : size.toUInt16.toNat = size.toNat := by
    rw [UInt32.toNat_toUInt16]
    omega
  have hne : size.toUInt16 ≠ 0 := by
    intro h0
    rw [h0] at h16
    have h0' : (0 : UInt16).toNat = 0 := rfl
    omega
  by_cases hlt : size.toUInt16 < desc.payload
  · rw [if_pos ⟨hne, hlt⟩, UInt16.toNat_and, h16]
    rw [UInt16.lt_iff_toNat_lt, h16] at hlt
    show size.toNat &&& (2 ^ 11 - 1) = _
    rw [Nat.and_two_pow_sub_one_eq_mod, Nat.mod_eq_of_lt (by omega), Nat.min_eq_left hlt.le]
  · rw [if_neg fun h => hlt h.2]
    rw [UInt16.lt_iff_toNat_lt, h16, Nat.not_lt] at hlt
    rw [Nat.min_eq_right hlt]

theorem tunedSize_toNat (hpay : 12 < desc.payload.toNat) (hle : maxpkt.toNat ≤ desc.payload.toNat) :
    (tunedSize desc maxpkt length).toNat =
      if desc.capacity < length.toNat then desc.payload.toNat
      else if Cut maxpkt.toNat length.toNat then
        if length.toNat = 0 then 8 else cutSize desc length.toNat
      else maxpkt.toNat := by
  have hcap := capacity_le desc
  have h16 := maxpkt.toNat_lt
  unfold tunedSize askedSize
  dsimp only
  by_cases hw : whole desc length
  · rw [if_pos hw, if_pos ((whole_iff hpay).mp hw)]
    split
    · rw [UInt16.toUInt16_toUInt32, if_neg fun h => UInt16.lt_irrefl _ h.2]
    · next heq =>
      have hsize := congrArg UInt32.toNat (not_not.mp heq)
      rw [UInt16.toNat_toUInt32, UInt16.toNat_toUInt32] at hsize
      exact hsize.symm
  · have hsmall : length.toNat ≤ desc.capacity := Nat.not_lt.mp fun h => hw ((whole_iff hpay).mpr h)
    rw [if_neg hw, if_neg (Nat.not_lt.mpr hsmall)]
    by_cases hc : Cut maxpkt.toNat length.toNat
    · rw [if_pos ((cut_iff (by omega)).mpr hc), if_pos hc]
      have hcut := cut_toNat length (by omega)
      have hmin : (if length.toNat = 0 then 8 else cutSize desc length.toNat) =
          min (12 + ((length - 1) - (length - 1) % 4)).toNat desc.payload.toNat := by
        rw [hcut]
        split
        · omega
        · rfl
      have hrange : 8 ≤ (12 + ((length - 1) - (length - 1) % 4)).toNat ∧
          (12 + ((length - 1) - (length - 1) % 4)).toNat ≤ 8152 := by
        rw [hcut]
        split <;> omega
      rw [hmin]
      split
      · exact clamped_toNat hrange.1 hrange.2
      · next heq =>
        have hsize := congrArg UInt32.toNat (not_not.mp heq)
        rw [UInt16.toNat_toUInt32] at hsize
        omega
    · rw [if_neg fun h => hc ((cut_iff (by omega)).mp h), if_neg hc]
      exact congrArg UInt16.toNat (if_neg (not_not.mpr rfl))

theorem tunedPid_eq (hpay : 12 < desc.payload.toNat) :
    tunedPid desc length = if desc.capacity < length.toNat then desc.mult else 0 := by
  unfold tunedPid
  exact if_congr (whole_iff hpay) rfl rfl

/-! ## A tuned endpoint -/

namespace Tuner

variable {s : Tuner} {e e' : EpId} {r : ReqId}

/-- The endpoint has the descriptor, its packets are no larger than the payload, and its fields hold
what its data says. -/
structure Tunable (e : EpId) (desc : EpDesc) (s : Tuner) : Prop where
  described : (s.udc.ep e).desc = some desc
  epnum : isUvcNum (s.udc.ep e).epnum = true
  maxpacket : (s.udc.ep e).maxpacket = desc.payload
  size : (s.udc.ep e).maxpkt.toNat ≤ desc.payload.toNat
  fields : s.fields e = ⟨(s.udc.ep e).maxpkt, (s.udc.ep e).pid⟩

theorem payload_and (desc : EpDesc) : desc.payload &&& 0x7ff = desc.payload := by
  unfold EpDesc.payload
  rw [UInt16.and_assoc]
  rfl

theorem maybe_rtsSetEpMaxpkt (c : Prop) [Decidable c] (size : UInt16)
    (hf : s.fields e = ⟨(s.udc.ep e).maxpkt, (s.udc.ep e).pid⟩)
    (hpkt : (s.udc.ep e).maxpacket = desc.payload) :
    (((if c then s.rtsSetEpMaxpkt e size else s).udc.ep e) = { s.udc.ep e with
        maxpkt := if c then (if size ≠ 0 ∧ size < desc.payload then size &&& 0x7ff
          else desc.payload) else (s.udc.ep e).maxpkt }) ∧
      (if c then s.rtsSetEpMaxpkt e size else s).fields e =
        ⟨((if c then s.rtsSetEpMaxpkt e size else s).udc.ep e).maxpkt, (s.udc.ep e).pid⟩ := by
  split
  · have hep : (s.rtsSetEpMaxpkt e size).udc.ep e = { s.udc.ep e with
        maxpkt := if size ≠ 0 ∧ size < desc.payload then size &&& 0x7ff else desc.payload } := by
      show (s.udc.rtsSetEpMaxpkt e size).ep e = _
      unfold Udc.rtsSetEpMaxpkt
      rw [setEp_ep_self]
      dsimp only
      rw [hpkt, payload_and]
    refine ⟨hep, ?_⟩
    show update s.fields e _ e = _
    rw [update_self, hf]
    rfl
  · exact ⟨rfl, hf⟩

theorem maybe_writePid {old : UInt16} (pid : UInt16)
    (hf : s.fields e = ⟨(s.udc.ep e).maxpkt, old⟩) (hold : (s.udc.ep e).pid = old) :
    (if pid ≠ old then s.writePid e pid else s).udc.ep e = { s.udc.ep e with pid := pid } ∧
      (if pid ≠ old then s.writePid e pid else s).fields e = ⟨(s.udc.ep e).maxpkt, pid⟩ := by
  by_cases hnew : pid = old
  · rw [if_neg (not_not.mpr hnew), hnew, ← hold]
    refine ⟨rfl, ?_⟩
    rw [hf, hold]
  · rw [if_pos hnew]
    have hep : (s.writePid e pid).udc.ep e = { s.udc.ep e with pid := pid } :=
      setEp_ep_self (u := s.udc) e fun x => { x with pid := pid }
    refine ⟨hep, ?_⟩
    show update s.fields e _ e = _
    rw [update_self, hf]

theorem rtsUvcQuirks_self (h : Tunable e desc s) :
    (s.rtsUvcQuirks e r).udc.ep e = { s.udc.ep e with
        maxpkt := tunedSize desc (s.udc.ep e).maxpkt (s.udc.req r).length
        pid := tunedPid desc (s.udc.req r).length } ∧
      (s.rtsUvcQuirks e r).fields e = ⟨tunedSize desc (s.udc.ep e).maxpkt (s.udc.req r).length,
        tunedPid desc (s.udc.req r).length⟩ := by
  obtain ⟨hep, hfields⟩ := maybe_rtsSetEpMaxpkt (e := e)
    (askedSize desc (s.udc.ep e).maxpkt (s.udc.req r).length ≠ (s.udc.ep e).maxpkt.toUInt32)
    (askedSize desc (s.udc.ep e).maxpkt (s.udc.req r).length).toUInt16 h.fields h.maxpacket
  have hpid := congrArg Endpoint.pid hep
  obtain ⟨hep', hfields'⟩ := maybe_writePid (tunedPid desc (s.udc.req r).length) hfields hpid
  rw [hep] at hep' hfields'
  have hrun : s.rtsUvcQuirks e r = if tunedPid desc (s.udc.req r).length ≠ (s.udc.ep e).pid then
      (if askedSize desc (s.udc.ep e).maxpkt (s.udc.req r).length ≠
          (s.udc.ep e).maxpkt.toUInt32 then
        s.rtsSetEpMaxpkt e (askedSize desc (s.udc.ep e).maxpkt (s.udc.req r).length).toUInt16
        else s).writePid e (tunedPid desc (s.udc.req r).length)
      else if askedSize desc (s.udc.ep e).maxpkt (s.udc.req r).length ≠
          (s.udc.ep e).maxpkt.toUInt32 then
        s.rtsSetEpMaxpkt e (askedSize desc (s.udc.ep e).maxpkt (s.udc.req r).length).toUInt16
      else s := by
    unfold rtsUvcQuirks
    dsimp only
    rw [h.described]
    dsimp only
    rw [if_neg (not_not.mpr h.epnum)]
    rfl
  rw [hrun]
  exact ⟨hep', hfields'⟩

theorem rtsUvcQuirks_other (hne : e' ≠ e) :
    (s.rtsUvcQuirks e r).udc.ep e' = s.udc.ep e' ∧
      (s.rtsUvcQuirks e r).fields e' = s.fields e' := by
  have hsize (c : Prop) [Decidable c] (size : UInt16) :
      (if c then s.rtsSetEpMaxpkt e size else s).udc.ep e' = s.udc.ep e' ∧
        (if c then s.rtsSetEpMaxpkt e size else s).fields e' = s.fields e' := by
    have hep : (s.rtsSetEpMaxpkt e size).udc.ep e' = s.udc.ep e' := by
      show (s.udc.rtsSetEpMaxpkt e size).ep e' = _
      unfold Udc.rtsSetEpMaxpkt
      rw [setEp_ep_of_ne hne]
    split
    · exact ⟨hep, update_of_ne hne _ _⟩
    · exact ⟨rfl, rfl⟩
  have hprogram (c d : Prop) [Decidable c] [Decidable d] (size pid : UInt16) :
      (if d then (if c then s.rtsSetEpMaxpkt e size else s).writePid e pid
          else if c then s.rtsSetEpMaxpkt e size else s).udc.ep e' = s.udc.ep e' ∧
        (if d then (if c then s.rtsSetEpMaxpkt e size else s).writePid e pid
          else if c then s.rtsSetEpMaxpkt e size else s).fields e' = s.fields e' := by
    obtain ⟨hep, hf⟩ := hsize c size
    generalize (if c then s.rtsSetEpMaxpkt e size else s) = t at hep hf
    have hep' : (t.writePid e pid).udc.ep e' = t.udc.ep e' := by
      show (t.udc.setEp e fun x => { x with pid := pid }).ep e' = _
      rw [setEp_ep_of_ne hne]
    split
    · exact ⟨hep'.trans hep, (update_of_ne hne _ t.fields).trans hf⟩
    · exact ⟨hep, hf⟩
  unfold rtsUvcQuirks
  dsimp only
  split
  · exact ⟨rfl, rfl⟩
  · split
    · exact ⟨rfl, rfl⟩
    · exact hprogram _ _ _ _

/-! ## Histories -/

/-- An endpoint reduced to what the tuning reads and writes. -/
def Endpoint.tuning (x : Endpoint) : Endpoint :=
  { desc := x.desc, epnum := x.epnum, maxpacket := x.maxpacket, maxpkt := x.maxpkt, pid := x.pid }

theorem Endpoint.tuning_inj {x y : Endpoint} (h : Endpoint.tuning x = Endpoint.tuning y) :
    x.epnum = y.epnum ∧ x.maxpacket = y.maxpacket ∧ x.desc = y.desc ∧ x.maxpkt = y.maxpkt ∧
      x.pid = y.pid := by
  simpa [Endpoint.tuning] using h

theorem Tunable.of_tuning {t : Tuner} (h : Tunable e desc s)
    (hep : Endpoint.tuning (t.udc.ep e) = Endpoint.tuning (s.udc.ep e))
    (hf : t.fields e = s.fields e) : Tunable e desc t := by
  obtain ⟨hnum, hpkt, hdesc, hsize, hpid⟩ := Endpoint.tuning_inj hep
  refine ⟨hdesc.trans h.described, by rw [hnum, h.epnum], hpkt.trans h.maxpacket, ?_, ?_⟩
  · rw [hsize]
    exact h.size
  · rw [hf, hsize, hpid, h.fields]

theorem Tunable.setLength (h : Tunable e desc s) (r : ReqId) (length : UInt32) :
    Tunable e desc (s.setLength r length) :=
  h.of_tuning rfl rfl

theorem tunedSize_le (hpay : 12 < desc.payload.toNat) {maxpkt : UInt16}
    (hle : maxpkt.toNat ≤ desc.payload.toNat) (length : UInt32) :
    (tunedSize desc maxpkt length).toNat ≤ desc.payload.toNat := by
  rw [tunedSize_toNat hpay hle]
  unfold cutSize
  split
  · exact le_rfl
  · split
    · split
      · omega
      · exact Nat.min_le_right _ _
    · exact hle

theorem Tunable.rtsUvcQuirks (h : Tunable e desc s) (hpay : 12 < desc.payload.toNat) (e' : EpId)
    (r : ReqId) : Tunable e desc (s.rtsUvcQuirks e' r) := by
  by_cases he : e = e'
  · subst he
    obtain ⟨hep, hfields⟩ := rtsUvcQuirks_self (r := r) h
    refine ⟨?_, ?_, ?_, ?_, ?_⟩
    · rw [hep]
      exact h.described
    · rw [hep]
      exact h.epnum
    · rw [hep]
      exact h.maxpacket
    · rw [hep]
      exact tunedSize_le hpay h.size _
    · rw [hfields, hep]
  · obtain ⟨hep, hfields⟩ := rtsUvcQuirks_other (s := s) (r := r) he
    exact h.of_tuning (by rw [hep]) hfields

theorem Tunable.start (h : Tunable e desc s) (hpay : 12 < desc.payload.toNat) (q : Sent) :
    Tunable e desc (s.start q) := by
  have hlen := h.setLength q.req q.length
  have hquirk : Tunable e desc (if (s.setLength q.req q.length).udc.dynamicMaxpktsize then
      (s.setLength q.req q.length).rtsUvcQuirks q.ep q.req else s.setLength q.req q.length) := by
    split
    · exact hlen.rtsUvcQuirks hpay q.ep q.req
    · exact hlen
  refine hquirk.of_tuning ?_ rfl
  have hcount (x : Udc.Endpoint) : Endpoint.tuning (stepUacCnt x) = Endpoint.tuning x := by
    unfold stepUacCnt
    split <;> rfl
  have hudc : (if (s.setLength q.req q.length).udc.dynamicMaxpktsize then
      (s.setLength q.req q.length).rtsUvcQuirks q.ep q.req else s.setLength q.req q.length).udc =
      if (s.setLength q.req q.length).udc.dynamicMaxpktsize then
        (s.setLength q.req q.length).udc.rtsUvcQuirks q.ep q.req
      else (s.setLength q.req q.length).udc := by
    split
    · exact rtsUvcQuirks_udc
    · rfl
  rw [hudc]
  exact setEp_apply hcount _ q.ep e

theorem Tunable.history (h : Tunable e desc s) (hpay : 12 < desc.payload.toNat) (l : List Sent) :
    Tunable e desc (s.history l) := by
  induction l generalizing s with
  | nil => exact h
  | cons q l ih => exact ih (h.start hpay q)

theorem tuning_rtsSetEpEnable (u : Udc) (e : EpId) :
    Endpoint.tuning ((u.rtsSetEpEnable e).ep e) = Endpoint.tuning (u.ep e) := by
  have hmark : Endpoint.tuning ((u.markEnabled e).ep e) = Endpoint.tuning (u.ep e) := by
    have hclear := (setEp_apply (p := Endpoint.tuning) (f := fun x => { x with stall := false })
      (fun _ => rfl) (u.setEp e fun x => { x with epEnable := true }) e e).trans
      (setEp_apply (p := Endpoint.tuning) (f := fun x => { x with epEnable := true })
        (fun _ => rfl) u e e)
    unfold markEnabled rtsClearEpnstall
    dsimp only
    split
    · exact hclear
    · exact hclear
  have hstop (c : Prop) [Decidable c] : (if c then (u.markEnabled e).emit
      (.mcDisable ((u.markEnabled e).ep e).mcnum) else u.markEnabled e).ep e =
        (u.markEnabled e).ep e := by
    split
    · rfl
    · rfl
  unfold rtsSetEpEnable
  change Endpoint.tuning ((if _ then setEp (if _ then (u.markEnabled e).emit _
    else u.markEnabled e) e _ else if _ then (u.markEnabled e).emit _
      else u.markEnabled e).ep e) = _
  split
  · exact ((setEp_apply (p := Endpoint.tuning) (fun _ => by rfl) _ e e).trans
      (congrArg Endpoint.tuning (hstop _))).trans hmark
  · exact (congrArg Endpoint.tuning (hstop _)).trans hmark

theorem tuning_configMapping (u : Udc) (e : EpId) :
    Endpoint.tuning ((u.configMapping e).2.ep e) =
      { Endpoint.tuning (u.ep e) with maxpkt := (u.ep e).maxpacket &&& 0x7ff } := by
  have hpkt : Endpoint.tuning ((u.rtsSetEpMaxpkt e 0).ep e) =
      { Endpoint.tuning (u.ep e) with maxpkt := (u.ep e).maxpacket &&& 0x7ff } := by
    unfold Udc.rtsSetEpMaxpkt
    rw [setEp_ep_self]
    rfl
  have hmap (v : Udc) : Endpoint.tuning ((v.rtsSetEpFifoMapping e).2.ep e) =
      Endpoint.tuning (v.ep e) := by
    have h := setEp_apply (p := Endpoint.tuning)
      (f := fun x => { x with mcnum := (fifoOf (v.ep e)).1 }) (fun _ => rfl) v e e
    unfold rtsSetEpFifoMapping
    dsimp only
    split
    · exact h
    · exact h
  unfold configMapping
  split
  · rw [hmap, hpkt]
  · exact hpkt

theorem tuning_rtsConfigEp {u : Udc} (huvc : isUvcNum (u.ep e).epnum = true)
    (hin : (u.ep e).dirIn = true) :
    Endpoint.tuning ((u.rtsConfigEp e desc).2.ep e) =
      { Endpoint.tuning (u.ep e) with
        maxpkt := (u.ep e).maxpacket &&& 0x7ff, pid := desc.mult } := by
  have hroute := (quiet_rtsSetEpMaxpkt u e 0).route e
  have h0 : (u.configMapping e).1 = 0 := by
    obtain ⟨huse, hfifo⟩ := fifoOf_uvc (x := (u.rtsSetEpMaxpkt e 0).ep e)
      ((congrArg Udc.Endpoint.dirIn hroute).trans hin)
      ((congrArg (fun x => isUvcNum x.epnum) hroute).trans huvc)
    unfold configMapping rtsSetEpFifoMapping
    rw [if_pos huse, hfifo]
    rfl
  have hnum : ((u.configMapping e).2.ep e).epnum = 5 ∨ ((u.configMapping e).2.ep e).epnum = 6 := by
    have hepnum := congrArg Udc.Endpoint.epnum (configMapping_route u e)
    have hepnum' : ((u.configMapping e).2.ep e).epnum = (u.ep e).epnum := hepnum
    rw [hepnum']
    simpa [isUvcNum] using huvc
  have hfinal : (u.rtsConfigEp e desc).2 = ((u.configMapping e).2.setEp e fun x =>
      { x with pid := desc.mult }).rtsSetEpEnable e := by
    unfold rtsConfigEp
    change (if (u.configMapping e).1 ≠ 0 then _ else (0, Udc.rtsSetEpEnable
      (if ((u.configMapping e).2.ep e).epnum = 5 ∨ ((u.configMapping e).2.ep e).epnum = 6 then _
        else _) e) : Int × Udc).2 = _
    rw [if_neg (not_not.mpr h0), if_pos hnum]
    rfl
  rw [hfinal, tuning_rtsSetEpEnable, setEp_ep_self]
  exact congrArg (fun x : Udc.Endpoint => { x with pid := desc.mult }) (tuning_configMapping u e)

/-- **Enabling a UVC endpoint** programs the largest packets of its descriptor. -/
theorem tunable_enable (s : Tuner) (huvc : isUvcNum e.num = true)
    (hnum : usbEndpointNum desc = e.num) (hin : usbEndpointDirIn desc = true) :
    Tunable e desc (s.enable e desc) ∧
      ((s.enable e desc).udc.ep e).maxpkt = desc.payload := by
  obtain ⟨hepnum, hdir, -⟩ := copyDesc_fields s.udc e desc
  have hnum0 : usbEndpointNum desc ≠ 0 := by
    intro h0
    rw [← hnum, h0] at huvc
    cases huvc
  have huvc' : isUvcNum ((s.udc.copyDesc e desc).ep e).epnum = true := by
    rw [hepnum, hnum, huvc]
  have hcopy : ((s.udc.copyDesc e desc).ep e).desc = some desc ∧
      ((s.udc.copyDesc e desc).ep e).maxpacket = desc.payload := by
    unfold copyDesc
    rw [setEp_ep_self, setEp_ep_self]
    exact ⟨rfl, rfl⟩
  have htuning : Endpoint.tuning ((s.enable e desc).udc.ep e) =
      Endpoint.tuning { (s.udc.copyDesc e desc).ep e with
        maxpkt := ((s.udc.copyDesc e desc).ep e).maxpacket &&& 0x7ff, pid := desc.mult } := by
    show Endpoint.tuning ((s.udc.rtsEpEnable e desc).2.ep e) = _
    rw [rtsEpEnable_eq hnum0]
    exact tuning_rtsConfigEp huvc' (hdir.trans hin)
  obtain ⟨hepnum', hpkt, hdesc, hsize, hpid⟩ := Endpoint.tuning_inj htuning
  rw [hcopy.2, payload_and] at hsize
  refine ⟨⟨hdesc.trans hcopy.1, by rw [hepnum', huvc'], hpkt.trans hcopy.2, ?_, ?_⟩, hsize⟩
  · rw [hsize]
  · show update s.fields e _ e = _
    rw [update_self, hpid]
    rfl

/-! ## Two histories -/

/-- A packet is larger than its header and no larger than the payload of the descriptor, and there
are no more packets per microframe than the descriptor has. -/
structure Within (desc : EpDesc) (f : UvcFields) : Prop where
  header : 12 < f.maxpkt.toNat
  maxpkt : f.maxpkt.toNat ≤ desc.payload.toNat
  pid : f.pid.toNat ≤ desc.mult.toNat

/-- Two endpoints that are enabled with the same descriptor and have had the requests of `h₁` and of
`h₂` get the same for a request of this length, and it suits the descriptor. -/
def HistoryFree (e : EpId) (desc : EpDesc) (r : ReqId) (length : UInt32) (s₁ s₂ : Tuner)
    (h₁ h₂ : List Sent) : Prop :=
  (s₁.enable e desc).programmed e h₁ r length = (s₂.enable e desc).programmed e h₂ r length ∧
    Within desc ((s₁.enable e desc).programmed e h₁ r length) ∧
    Within desc ((s₂.enable e desc).programmed e h₂ r length)

/-- The packet size that a history leaves behind. -/
def leftSize (s : Tuner) (e : EpId) (desc : EpDesc) (h : List Sent) : Nat :=
  (((s.enable e desc).history h).udc.ep e).maxpkt.toNat

/-- The sizes `p₁` and `p₂` left behind make no difference for a request that is not whole: if it is
short for one of them it must have five bytes, and if it is short for one of them only, the other
must be what the first is cut to; if it is short for neither, they are the same and hold more than
the header. -/
def SameSize (desc : EpDesc) (length p₁ p₂ : Nat) : Prop :=
  if Cut p₁ length then 5 ≤ length ∧ (Cut p₂ length ∨ p₂ = cutSize desc length)
  else if Cut p₂ length then 5 ≤ length ∧ p₁ = cutSize desc length
  else p₁ = p₂ ∧ 12 < p₁

theorem programmed_eq (h : Tunable e desc s) (hpay : 12 < desc.payload.toNat) (l : List Sent)
    (r : ReqId) (length : UInt32) :
    s.programmed e l r length =
      ⟨tunedSize desc ((s.history l).udc.ep e).maxpkt length, tunedPid desc length⟩ := by
  have hself := (rtsUvcQuirks_self (r := r) ((h.history hpay l).setLength r length)).2
  have hlen : (((s.history l).setLength r length).udc.req r).length = length := by
    show (((s.history l).udc.setReq r fun q => { q with length := length }).req r).length = length
    rw [setReq_req_self]
  rw [hlen] at hself
  exact hself

theorem tunedSize_of_not_whole (hpay : 12 < desc.payload.toNat) {maxpkt : UInt16}
    (hle : maxpkt.toNat ≤ desc.payload.toNat) {length : UInt32} (hlen : 1 ≤ length.toNat)
    (hw : ¬ desc.capacity < length.toNat) :
    (tunedSize desc maxpkt length).toNat =
      if Cut maxpkt.toNat length.toNat then cutSize desc length.toNat else maxpkt.toNat := by
  rw [tunedSize_toNat hpay hle, if_neg hw]
  have h0 : ¬ length.toNat = 0 := by omega
  rw [if_neg h0]

theorem header_lt_cutSize (hpay : 12 < desc.payload.toNat) (length : Nat) :
    12 < cutSize desc length ↔ 5 ≤ length := by
  unfold cutSize
  rw [Nat.lt_min]
  omega

theorem sameSize_iff (hpay : 12 < desc.payload.toNat) {length p₁ p₂ : Nat} :
    ((if Cut p₁ length then cutSize desc length else p₁) =
        (if Cut p₂ length then cutSize desc length else p₂) ∧
      12 < (if Cut p₁ length then cutSize desc length else p₁)) ↔ SameSize desc length p₁ p₂ := by
  have hcut := header_lt_cutSize hpay length
  unfold SameSize
  by_cases h₁ : Cut p₁ length
  · rw [if_pos h₁, if_pos h₁]
    by_cases h₂ : Cut p₂ length
    · rw [if_pos h₂, hcut]
      exact ⟨fun h => ⟨h.2, .inl h₂⟩, fun h => ⟨rfl, h.1⟩⟩
    · rw [if_neg h₂, hcut]
      exact ⟨fun h => ⟨h.2, .inr h.1.symm⟩, fun h => ⟨(h.2.resolve_left h₂).symm, h.1⟩⟩
  · rw [if_neg h₁, if_neg h₁]
    by_cases h₂ : Cut p₂ length
    · rw [if_pos h₂, if_pos h₂, ← hcut]
      exact ⟨fun h => ⟨h.1 ▸ h.2, h.1⟩, fun h => ⟨h.2, h.2 ▸ h.1⟩⟩
    · rw [if_neg h₂, if_neg h₂]

/-- **When histories make no difference.**  After any two histories, a request that is not empty
gets the same packets, and suitable ones, exactly when it needs all packets of a microframe or the
sizes that the histories leave behind make no difference for it. -/
theorem historyFree_iff (huvc : isUvcNum e.num = true) (hnum : usbEndpointNum desc = e.num)
    (hin : usbEndpointDirIn desc = true) (hpay : 12 < desc.payload.toNat) (r : ReqId)
    {length : UInt32} (hlen : 1 ≤ length.toNat) (s₁ s₂ : Tuner) (h₁ h₂ : List Sent) :
    HistoryFree e desc r length s₁ s₂ h₁ h₂ ↔ desc.capacity < length.toNat ∨
      SameSize desc length.toNat (leftSize s₁ e desc h₁) (leftSize s₂ e desc h₂) := by
  have ht₁ := (tunable_enable s₁ huvc hnum hin).1
  have ht₂ := (tunable_enable s₂ huvc hnum hin).1
  have hsize₁ := (ht₁.history hpay h₁).size
  have hsize₂ := (ht₂.history hpay h₂).size
  have hbound₁ := tunedSize_le hpay hsize₁ length
  have hbound₂ := tunedSize_le hpay hsize₂ length
  unfold HistoryFree
  rw [programmed_eq ht₁ hpay, programmed_eq ht₂ hpay]
  by_cases hw : desc.capacity < length.toNat
  · have hfull {maxpkt : UInt16} (hle : maxpkt.toNat ≤ desc.payload.toNat) :
        tunedSize desc maxpkt length = desc.payload := by
      refine UInt16.toNat_inj.mp ?_
      rw [tunedSize_toNat hpay hle, if_pos hw]
    have hpid : tunedPid desc length = desc.mult := by
      rw [tunedPid_eq hpay, if_pos hw]
    rw [hfull hsize₁, hfull hsize₂, hpid]
    exact iff_of_true ⟨rfl, ⟨hpay, le_rfl, le_rfl⟩, ⟨hpay, le_rfl, le_rfl⟩⟩ (.inl hw)
  · have hpid : tunedPid desc length = 0 := by
      rw [tunedPid_eq hpay, if_neg hw]
    have h1 := tunedSize_of_not_whole hpay hsize₁ hlen hw
    have h2 := tunedSize_of_not_whole hpay hsize₂ hlen hw
    rw [or_iff_right hw, ← sameSize_iff hpay]
    unfold leftSize
    rw [← h1, ← h2, hpid]
    constructor
    · rintro ⟨heq, hwithin, -⟩
      exact ⟨congrArg (fun f : UvcFields => f.maxpkt.toNat) heq, hwithin.header⟩
    · rintro ⟨heq, hheader⟩
      have hsame := UInt16.toNat_inj.mp heq
      refine ⟨by rw [hsame], ⟨hheader, hbound₁, Nat.zero_le _⟩, ⟨?_, hbound₂, Nat.zero_le _⟩⟩
      exact heq ▸ hheader

/-- A device whose packets are tuned, after its probe. -/
def probedTuner : Tuner := ⟨probed true, fun _ => ⟨0, 0⟩⟩

/-- A frame of ten bytes. -/
def shortFrame : Sent := ⟨.epIn 5, 2, 10⟩

theorem historyFree_wholeFrame :
    HistoryFree (.epIn 5) uvcInDesc 1 2000 probedTuner probedTuner [] [shortFrame] :=
  (historyFree_iff (by decide) (by decide) (by decide) (by decide) 1 (by decide) probedTuner
    probedTuner [] [shortFrame]).mpr (.inl (by decide))

/-- **History matters.**  After a frame of ten bytes, a frame of a hundred gets packets of 20 bytes
and not of 108.  The first frame gets packets that hold nothing but the header when it has a single
byte. -/
theorem not_historyFree_shortFrame :
    (probedTuner.enable (.epIn 5) uvcInDesc).programmed (.epIn 5) [] 1 100 = ⟨108, 0⟩ ∧
      (probedTuner.enable (.epIn 5) uvcInDesc).programmed (.epIn 5) [shortFrame] 1 100 = ⟨20, 0⟩ ∧
      (probedTuner.enable (.epIn 5) uvcInDesc).programmed (.epIn 5) [] 1 1 = ⟨12, 0⟩ ∧
      ¬ ∀ (e : EpId) (desc : EpDesc) (r : ReqId) (length : UInt32) (s₁ s₂ : Tuner)
          (h₁ h₂ : List Sent), isUvcNum e.num = true → usbEndpointNum desc = e.num →
          usbEndpointDirIn desc = true → 12 < desc.payload.toNat → 1 ≤ length.toNat →
          HistoryFree e desc r length s₁ s₂ h₁ h₂ := by
  have hlong : (probedTuner.enable (.epIn 5) uvcInDesc).programmed (.epIn 5) [] 1 100 =
      ⟨108, 0⟩ := by decide +kernel
  have hshort : (probedTuner.enable (.epIn 5) uvcInDesc).programmed (.epIn 5) [shortFrame] 1 100 =
      ⟨20, 0⟩ := by decide +kernel
  refine ⟨hlong, hshort, by decide +kernel, fun h => ?_⟩
  have hfree := (h (.epIn 5) uvcInDesc 1 100 probedTuner probedTuner [] [shortFrame] (by decide)
    (by decide) (by decide) (by decide) (by decide)).1
  rw [hlong, hshort] at hfree
  exact absurd hfree (by decide)

end Tuner
end RealtekIpcam.Udc
