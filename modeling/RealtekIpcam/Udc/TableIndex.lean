import RealtekIpcam.Udc.Setup

/-!
# Endpoint indices from the host

`wIndex` of a SETUP packet names an endpoint by a direction bit and a number of four bits, and three
standard requests look that endpoint up: GET_STATUS, CLEAR_FEATURE and SET_FEATURE.  The two tables
are shorter than sixteen entries, `ep_in` has 13 and `ep_out` has 5, and no handler compares the
number with a table's length.  A load past the end is the outcome `fault` of `Udc.Program`.

GET_STATUS and SET_FEATURE load the pointer only when the recipient is an endpoint.  CLEAR_FEATURE
loads it first and looks at the recipient afterwards.  So the packets that lead a handler past the
end of a table are those whose index is not in its table, for CLEAR_FEATURE with any recipient, for
the other two with the recipient endpoint.
-/

namespace RealtekIpcam.Udc

open LockLogic

variable {ctrl : SetupPacket}

/-! ## The lookup -/

/-- The number in `wIndex` is inside the table that its direction bit selects. -/
def InTable (ctrl : SetupPacket) : Prop :=
  (ctrl.wIndex &&& 0x0f).toNat < if ctrl.wIndex &&& 0x80 ≠ 0 then 13 else 5

instance (ctrl : SetupPacket) : Decidable (InTable ctrl) := Nat.decLt _ _

theorem isSome_epInSlot {i : Nat} : (epInSlot i).isSome ↔ i < 13 := by
  unfold epInSlot
  by_cases h : i < 13
  · simp [h]
  · simp [h]

theorem isSome_epOutSlot {i : Nat} : (epOutSlot i).isSome ↔ i < 5 := by
  unfold epOutSlot
  by_cases h0 : i = 0
  · simp [h0]
  · by_cases h : i - 1 < 4
    · simp [h0, h]
      omega
    · simp [h0, h]
      omega

theorem isSome_targetSlot : (targetSlot ctrl).isSome ↔ InTable ctrl := by
  unfold targetSlot InTable
  by_cases h : ctrl.wIndex &&& 0x80 ≠ 0
  · rw [if_pos h, if_pos h]
    exact isSome_epInSlot
  · rw [if_neg h, if_neg h]
    exact isSome_epOutSlot

theorem inTable_of_targetsEp0 (h : targetsEp0 ctrl = true) : InTable ctrl := by
  have hzero : ctrl.wIndex &&& 0x0f = 0 := eq_of_beq h
  unfold InTable
  rw [hzero]
  split
  · decide
  · decide

/-- The standard requests that look an endpoint up. -/
inductive Lookup where
  | getStatus
  | clearFeature
  | setFeature
  deriving DecidableEq

def Lookup.handler (g : Callbacks) (ctrl : SetupPacket) : Lookup → Prog Udc Unit
  | .getStatus => rtsUsbReqEp0GetStatus g ctrl
  | .clearFeature => rtsUsbReqEp0ClearFeature ctrl
  | .setFeature => rtsUsbReqEp0SetFeature ctrl

/-- The packet does not lead the handler past the end of a table. -/
def Lookup.Covered (ctrl : SetupPacket) : Lookup → Prop
  | .clearFeature => InTable ctrl
  | _ => recipient ctrl = 2 → InTable ctrl

/-! ## Loads past the end -/

variable {g : Callbacks} {u : Udc}

theorem targetSlot_eq_none (h : ¬ InTable ctrl) : targetSlot ctrl = none := by
  rw [← isSome_targetSlot] at h
  exact Option.not_isSome_iff_eq_none.mp h

theorem exists_targetSlot (h : InTable ctrl) : ∃ e, targetSlot ctrl = some e :=
  Option.isSome_iff_exists.mp (isSome_targetSlot.mpr h)

theorem targetsEp0_eq_false (h : ¬ InTable ctrl) : targetsEp0 ctrl = false :=
  Bool.eq_false_iff.mpr fun h0 => h (inTable_of_targetsEp0 h0)

theorem getStatusData_fault (h2 : recipient ctrl = 2) (h : ¬ InTable ctrl) :
    getStatusData ctrl u true = .fault := by
  unfold getStatusData
  rw [if_neg (by rw [h2]; decide), if_neg (by rw [h2]; decide), if_pos h2]
  dsimp only
  rw [targetsEp0_eq_false h, targetSlot_eq_none h]
  rfl

theorem rtsUsbReqEp0GetStatus_fault (h2 : recipient ctrl = 2) (h : ¬ InTable ctrl) :
    rtsUsbReqEp0GetStatus g ctrl u true = .fault := by
  unfold rtsUsbReqEp0GetStatus
  exact bind_fault (getStatusData_fault h2 h)

theorem rtsUsbReqEp0ClearFeature_fault (h : ¬ InTable ctrl) :
    rtsUsbReqEp0ClearFeature ctrl u true = .fault := by
  unfold rtsUsbReqEp0ClearFeature
  rw [targetSlot_eq_none h]
  rfl

theorem rtsUsbReqEp0SetFeature_fault (h2 : recipient ctrl = 2) (h : ¬ InTable ctrl) :
    rtsUsbReqEp0SetFeature ctrl u true = .fault := by
  unfold rtsUsbReqEp0SetFeature
  rw [if_neg (by rw [h2]; decide), if_neg (by rw [h2]; decide), if_pos h2]
  dsimp only
  rw [targetsEp0_eq_false h, targetSlot_eq_none h]
  rfl

theorem getStatusData_ret (h : recipient ctrl = 2 → InTable ctrl) :
    ∃ a v, getStatusData ctrl u true = .ret a v true := by
  unfold getStatusData
  split
  · exact ⟨_, _, rfl⟩
  · split
    · exact ⟨_, _, rfl⟩
    · split
      · next h2 =>
        obtain ⟨e, he⟩ := exists_targetSlot (h h2)
        rw [he]
        dsimp only
        split
        · exact ⟨_, _, rfl⟩
        · exact ⟨_, _, rfl⟩
      · exact ⟨_, _, rfl⟩

theorem rtsUsbReqEp0GetStatus_defined (h : recipient ctrl = 2 → InTable ctrl) :
    (rtsUsbReqEp0GetStatus g ctrl u true).Defined := by
  obtain ⟨answers, v, hret⟩ := getStatusData_ret (u := u) h
  unfold rtsUsbReqEp0GetStatus
  rw [bind_ret hret]
  cases answers with
  | false => trivial
  | true =>
    -- the answer has two bytes, so it is queued without a callback
    let w := v.setReq ep0Req fun q => { q with length := 2, zero := false }
    have hlen : (w.req ep0Req).length = 2 := by
      show ((Udc.setReq _ _ _).req ep0Req).length = 2
      rw [setReq_req_self]
    have hne : (w.req ep0Req).length ≠ 0 := by
      rw [hlen]
      decide
    obtain ⟨a, x, hqueue, -⟩ := rtsEpQueue_eq g ep0 ep0Req 0 [] (.inr hne)
    show Outcome.Defined ((rtsEpQueue g ep0 ep0Req 0 >>= fun _ => spinLock) w false)
    rw [bind_ret hqueue]
    trivial

theorem rtsUsbReqEp0ClearFeature_defined (h : InTable ctrl) :
    (rtsUsbReqEp0ClearFeature ctrl u true).Defined := by
  obtain ⟨e, he⟩ := exists_targetSlot h
  unfold rtsUsbReqEp0ClearFeature
  rw [he]
  dsimp only
  split
  · trivial
  · split
    · split
      · trivial
      · rw [get_bind]
        split
        · trivial
        · -- a halt is cleared by a call that takes the lock again
          split
          · trivial
          · trivial
    · trivial

theorem rtsUsbReqEp0SetFeature_defined (h : recipient ctrl = 2 → InTable ctrl) :
    (rtsUsbReqEp0SetFeature ctrl u true).Defined := by
  unfold rtsUsbReqEp0SetFeature
  split
  · rw [modify_bind]
    split
    · trivial
    · trivial
  · split
    · trivial
    · split
      · next h2 =>
        obtain ⟨e, he⟩ := exists_targetSlot (h h2)
        rw [he]
        dsimp only
        split
        · trivial
        · trivial
      · trivial

/-- **A handler stays inside the tables** exactly for the packets that cover it: in every state,
with the lock held as the interrupt handler holds it, and whatever the gadget driver does. -/
theorem handler_defined_iff (h : Lookup) (g : Callbacks) (ctrl : SetupPacket) (u : Udc) :
    (h.handler g ctrl u true).Defined ↔ h.Covered ctrl := by
  cases h with
  | getStatus =>
    refine ⟨fun hrun h2 => by_contra fun hout => ?_, rtsUsbReqEp0GetStatus_defined⟩
    exact (rtsUsbReqEp0GetStatus_fault h2 hout ▸ hrun : (Outcome.fault : Outcome Udc Unit).Defined)
  | clearFeature =>
    refine ⟨fun hrun => by_contra fun hout => ?_, rtsUsbReqEp0ClearFeature_defined⟩
    exact (rtsUsbReqEp0ClearFeature_fault hout ▸ hrun : (Outcome.fault : Outcome Udc Unit).Defined)
  | setFeature =>
    refine ⟨fun hrun h2 => by_contra fun hout => ?_, rtsUsbReqEp0SetFeature_defined⟩
    exact (rtsUsbReqEp0SetFeature_fault h2 hout ▸ hrun : (Outcome.fault : Outcome Udc Unit).Defined)

/-- CLEAR_FEATURE to the device, with an OUT endpoint number 15 in `wIndex`. -/
def clearBeyond : SetupPacket := ⟨0x00, 0x01, 0, 0x0f, 0⟩

/-- CLEAR_FEATURE leaves the table of OUT endpoints although its recipient is the device. -/
theorem not_handler_defined :
    ¬ ∀ (h : Lookup) (g : Callbacks) (ctrl : SetupPacket) (u : Udc),
      (h.handler g ctrl u true).Defined :=
  fun h => h .clearFeature noCallbacks clearBeyond addressed

end RealtekIpcam.Udc
