import RealtekIpcam.Lib.Runs
import RealtekIpcam.Udc.Program

/-!
# The device address

SET_ADDRESS writes the address into the lowest seven bits of the register `USB_ADDR`.  The other
bits are not its own, so the register is read, changed and written back, before or after the status
stage is acknowledged.

What it should do is `Assigned`: an address above 127 is stalled and the register stays, any other
one replaces the seven bits.  The driver misses this in two ways.  It refuses only values from 256
on, and acknowledges those from 128 to 255; and it ORs the new address into the register without
clearing the old one, so a second address works only if it has all the bits of the first.
`Assignable` is what is left, and `assignment_iff` says so for rows of requests.
-/

namespace RealtekIpcam.Udc

open LockLogic Runs

/-! ## Seven bits -/

def address (u : Udc) : UInt32 := u.usbAddr &&& 0x7f

theorem and_7f_of_le {w : UInt16} (h : w ≤ 127) : w.toUInt32 &&& 0x7f = w.toUInt32 := by
  have hle : w.toNat ≤ 127 := UInt16.le_iff_toNat_le.mp h
  apply UInt32.toNat_inj.mp
  rw [UInt32.toNat_and, UInt16.toNat_toUInt32]
  show w.toNat &&& (2 ^ 7 - 1) = w.toNat
  rw [Nat.and_two_pow_sub_one_eq_mod]
  omega

theorem eq_iff_getLsbD {x y : UInt32} :
    x = y ↔ ∀ i, x.toBitVec.getLsbD i = y.toBitVec.getLsbD i := by
  constructor
  · intro h i
    rw [h]
  · intro h
    apply UInt32.toBitVec_inj.mp
    exact BitVec.eq_of_getLsbD_eq fun i _ => h i

theorem or_eq_right_iff (a w : UInt32) : a ||| w = w ↔ a &&& w = a := by
  rw [eq_iff_getLsbD, eq_iff_getLsbD]
  refine forall_congr' fun i => ?_
  rw [UInt32.toBitVec_or, UInt32.toBitVec_and, BitVec.getLsbD_or, BitVec.getLsbD_and]
  cases a.toBitVec.getLsbD i <;> cases w.toBitVec.getLsbD i <;> simp

theorem or_and (a w m : UInt32) : (a ||| w) &&& m = (a &&& m) ||| (w &&& m) := by
  apply UInt32.toBitVec_inj.mp
  exact BitVec.and_or_distrib_right

theorem address_or (a : UInt32) {w : UInt16} (h : w ≤ 127) :
    (a ||| (w.toUInt32 &&& 0x7f)) &&& 0x7f = (a &&& 0x7f) ||| w.toUInt32 := by
  rw [or_and, and_7f_of_le h, and_7f_of_le h]

theorem rest_or (a w : UInt32) : (a ||| (w &&& 0x7f)) &&& ~~~0x7f = a &&& ~~~0x7f := by
  have hzero : (w &&& 0x7f) &&& ~~~0x7f = 0 := by
    rw [UInt32.and_assoc]
    exact UInt32.and_zero
  rw [or_and, hzero, UInt32.or_zero]

/-! ## One request -/

/-- A SET_ADDRESS request: the speed bit of `USB_CTRL`, and the packet. -/
abbrev AddressReq := Bool × SetupPacket

/-- One run of `rts_usb_req_ep0_set_address`. -/
def addressStep (u : Udc) (q : AddressReq) : Option Udc :=
  match rtsUsbReqEp0SetAddress q.1 q.2 u true with
  | .ret _ v _ => some v
  | _ => none

/-- What a request for the address `w` should do. -/
def Assigned (w : UInt16) (u v : Udc) : Prop :=
  if 127 < w then v.log = .cxstall :: u.log ∧ v.usbAddr = u.usbAddr
  else .cxstall ∉ v.log.take (v.log.length - u.log.length) ∧ v.address = w.toUInt32 ∧
    v.usbAddr &&& ~~~0x7f = u.usbAddr &&& ~~~0x7f

/-- The value is refused by the driver, or it is an address with all the bits of the present one. -/
def Assignable (u : Udc) (q : AddressReq) : Prop :=
  256 ≤ q.2.wValue ∨ q.2.wValue ≤ 127 ∧ u.address &&& q.2.wValue.toUInt32 = u.address
  deriving Decidable

variable {u v : Udc} {q : AddressReq} {w : UInt16}

theorem rtsSetDevAddr_spec (w : UInt16) (u : Udc) :
    (rtsSetDevAddr w u).usbAddr = u.usbAddr ||| (w.toUInt32 &&& 0x7f) ∧
      ∃ a, a ≠ .cxstall ∧ (rtsSetDevAddr w u).log.length = u.log.length + 2 ∧
        ((rtsSetDevAddr w u).log.take 2 = [a, .cxdone] ∨
          (rtsSetDevAddr w u).log.take 2 = [.cxdone, a]) := by
  unfold rtsSetDevAddr
  dsimp only
  split
  · exact ⟨rfl, .usbAddr _, by simp, rfl, .inl rfl⟩
  · exact ⟨rfl, .usbAddr _, by simp, rfl, .inr rfl⟩

theorem addressStep_of_ge (h : 256 ≤ q.2.wValue) : addressStep u q =
    some ({ u with speed := if q.1 then .high else .full } : Udc).rtsSetCxstall := by
  unfold addressStep rtsUsbReqEp0SetAddress
  rw [modify_bind, if_pos h]
  rfl

theorem addressStep_of_lt (h : q.2.wValue < 256) : addressStep u q =
    some (rtsSetDevAddr q.2.wValue { u with speed := if q.1 then .high else .full }) := by
  have hnot : ¬ q.2.wValue ≥ 0x100 := UInt16.not_le.mpr h
  unfold addressStep rtsUsbReqEp0SetAddress
  rw [modify_bind, if_neg hnot]
  rfl

theorem not_cxstall_of_write (w : UInt16) (u : Udc) :
    .cxstall ∉ (rtsSetDevAddr w u).log.take ((rtsSetDevAddr w u).log.length - u.log.length) := by
  obtain ⟨-, a, ha, hlen, hlog⟩ := rtsSetDevAddr_spec w u
  rw [hlen, Nat.add_sub_cancel_left]
  rcases hlog with h | h
  · rw [h]
    simpa using ha.symm
  · rw [h]
    simpa using ha.symm

/-- **One request.**  It does what it should exactly when it is assignable. -/
theorem assigned_iff (h : addressStep u q = some v) :
    Assigned q.2.wValue u v ↔ Assignable u q := by
  by_cases hbig : 256 ≤ q.2.wValue
  · rw [addressStep_of_ge hbig] at h
    cases h
    have habove : 127 < q.2.wValue := UInt16.lt_of_lt_of_le (by decide) hbig
    unfold Assigned
    rw [if_pos habove]
    exact iff_of_true ⟨rfl, rfl⟩ (.inl hbig)
  · have hlt : q.2.wValue < 256 := UInt16.not_le.mp hbig
    rw [addressStep_of_lt hlt] at h
    cases h
    obtain ⟨haddr, a, ha, hlen, hlog⟩ := rtsSetDevAddr_spec q.2.wValue
      { u with speed := if q.1 then .high else .full }
    by_cases habove : 127 < q.2.wValue
    · -- it is acknowledged
      have hnot : ¬ q.2.wValue ≤ 127 := UInt16.not_le.mpr habove
      unfold Assigned
      rw [if_pos habove]
      refine iff_of_false ?_ fun hok => hok.elim hbig fun hle => hnot hle.1
      rintro ⟨hstall, -⟩
      rw [hstall] at hlen
      simp at hlen
    · have hle : q.2.wValue ≤ 127 := UInt16.not_lt.mp habove
      unfold Assigned
      rw [if_neg habove]
      constructor
      · rintro ⟨-, hnew, -⟩
        refine .inr ⟨hle, ?_⟩
        unfold address at hnew
        rw [haddr, address_or _ hle] at hnew
        exact (or_eq_right_iff _ _).mp hnew
      · rintro (hge | ⟨-, hincl⟩)
        · exact absurd hge hbig
        · refine ⟨not_cxstall_of_write _ { u with speed := if q.1 then .high else .full }, ?_, ?_⟩
          · unfold address
            rw [haddr, address_or _ hle]
            exact (or_eq_right_iff _ _).mpr hincl
          · rw [haddr]
            exact rest_or _ _

/-! ## Rows of requests -/

/-- The address that was accepted last, if the device had the address `a` before. -/
def lastAccepted (a : UInt32) (qs : List AddressReq) : UInt32 :=
  qs.foldl (fun a q => if 127 < q.2.wValue then a else q.2.wValue.toUInt32) a

/-- Every request does what it should, and after each of them the device answers to the address that
was accepted last. -/
def Assignment (u : Udc) (qs : List AddressReq) : Prop :=
  Along addressStep (fun u q => ∀ v, addressStep u q = some v → Assigned q.2.wValue u v) u qs ∧
    ∀ done rest v, qs = done ++ rest → exec addressStep u done = some v →
      v.address = lastAccepted u.address done

theorem addressStep_isSome (u : Udc) (q : AddressReq) : ∃ v, addressStep u q = some v := by
  by_cases h : 256 ≤ q.2.wValue
  · exact ⟨_, addressStep_of_ge h⟩
  · exact ⟨_, addressStep_of_lt (UInt16.not_le.mp h)⟩

theorem Assigned.address_eq (h : Assigned w u v) :
    v.address = if 127 < w then u.address else w.toUInt32 := by
  unfold Assigned at h
  split at h
  · next habove =>
    rw [if_pos habove]
    exact congrArg (· &&& 0x7f) h.2
  · next habove =>
    rw [if_neg habove]
    exact h.2.1

theorem address_exec {qs : List AddressReq}
    (h : Along addressStep
      (fun u q => ∀ v, addressStep u q = some v → Assigned q.2.wValue u v) u qs)
    (hrun : exec addressStep u qs = some v) : v.address = lastAccepted u.address qs := by
  induction qs generalizing u with
  | nil =>
    cases hrun
    rfl
  | cons q qs ih =>
    obtain ⟨u', hstep, hrest⟩ := exec_cons.mp hrun
    rw [ih (h.2 u' hstep) hrest, (h.1 u' hstep).address_eq]
    rfl

/-- **Address assignment.**  Along a row of SET_ADDRESS requests every one is refused or assigned as
it should be, and the device answers to the address it accepted last, exactly when every request of
the row is assignable in the state it meets. -/
theorem assignment_iff (u : Udc) (qs : List AddressReq) :
    Assignment u qs ↔ Along addressStep Assignable u qs := by
  have hsame : Along addressStep
      (fun u q => ∀ v, addressStep u q = some v → Assigned q.2.wValue u v) u qs ↔
      Along addressStep Assignable u qs := by
    refine Along.congr (P := fun _ => True) (fun _ _ _ _ _ _ => trivial) ?_ trivial
    intro u q _
    obtain ⟨v, hv⟩ := addressStep_isSome u q
    constructor
    · exact fun h => (assigned_iff hv).mp (h v hv)
    · exact fun h w hw => (assigned_iff hw).mpr h
  constructor
  · exact fun h => hsame.mp h.1
  · intro h
    refine ⟨hsame.mpr h, fun done rest v heq hrun => ?_⟩
    have hdone := hsame.mpr h
    rw [heq] at hdone
    exact address_exec hdone.append.1 hrun

def setAddressTo (w : UInt16) : AddressReq := (true, ⟨0x00, 0x05, w, 0, 0⟩)

/-- From the address 5, the address 2 makes 7; and the value 128 is acknowledged. -/
theorem not_assignment :
    (∀ v, exec addressStep addressed [setAddressTo 5, setAddressTo 2] = some v →
      v.address = 7) ∧
    (∀ v, exec addressStep addressed [setAddressTo 128] = some v → .cxdone ∈ v.log) ∧
    ¬ ∀ u qs, Assignment u qs := by
  refine ⟨fun v hv => ?_, fun v hv => ?_, fun h => ?_⟩
  · cases hv
    decide
  · cases hv
    decide
  · have hlast := (h addressed [setAddressTo 5, setAddressTo 2]).2
      [setAddressTo 5, setAddressTo 2] [] _ rfl rfl
    exact absurd hlast (by decide)

end RealtekIpcam.Udc
