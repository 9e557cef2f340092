import RealtekIpcam.Lib.Runs
import RealtekIpcam.Composite.Model

/-!
# Interface numbers

`usb_interface_id` hands out the lowest interface number from `next_interface_id` on that has no
owner, and sets `next_interface_id` one above it.  `usb_remove_interface_id` takes a number back
and lowers `next_interface_id` to it.  The same field is the number of interfaces in the
configuration descriptor, while `set_config` goes through the table up to the first number
without an owner.

All numbers below `next_interface_id` have owners, in every run.  So no number is handed out
twice, and none is refused while there is one left.  The count is another matter: a number that is
handed out again directly below one that is owned leaves `next_interface_id` at that one.
`KeepsCount` excludes such calls, and then `next_interface_id` is the first number without an owner.
-/

namespace RealtekIpcam.Composite

open Function

open Runs (Along exec)

/-! ## The functions -/

namespace Configuration

variable (c : Configuration)

def usbInterfaceId (f : FnId) : Int × Configuration :=
  match (List.range' c.nextInterfaceId (maxConfigInterfaces - c.nextInterfaceId)).find?
      fun id => (c.interface id).isNone with
  | some id =>
    (id, { c with interface := update c.interface id (some f), nextInterfaceId := id + 1 })
  | none => (-ENODEV, c)

def usbRemoveInterfaceId (id : Nat) : Configuration :=
  if id < maxConfigInterfaces ∧ (c.interface id).isSome then
    { c with
      interface := update c.interface id none
      nextInterfaceId := if id < c.nextInterfaceId then id else c.nextInterfaceId }
  else c

end Configuration

/-- `struct usb_config_descriptor`. -/
structure ConfigDescriptor where
  bLength : UInt8
  bDescriptorType : UInt8
  /-- Written last, and only if everything fits. -/
  wTotalLength : Option UInt16
  bNumInterfaces : UInt8
  bConfigurationValue : UInt8
  iConfiguration : UInt8
  bmAttributes : UInt8
  bMaxPower : UInt8

/-- `encode_bMaxPower`; `vbusDraw` is `CONFIG_USB_GADGET_VBUS_DRAW`. -/
def encodeBMaxPower (vbusDraw : Nat) (speedSuper : Bool) (c : Configuration) : UInt8 :=
  let val := if c.maxPower ≠ 0 ∨ c.bmAttributes &&& 0x40 ≠ 0 then c.maxPower else vbusDraw
  UInt8.ofNat (if speedSuper then min val 900 / 8 else min val 500 / 2)

/-- The part of `config_buf` that adds descriptors: those of the configuration, then those of each
function.  `fillbuf` is `usb_descriptor_fillbuf` for them with the room that is left, `none` where
there are no descriptors.  The result is the length, or the error. -/
def fillDescriptors (fillbuf : Option FnId → Int → Option Int) : List (Option FnId) → Int → Int
  | [], len => len
  | owner :: owners, len =>
    match fillbuf owner (usbCompEp0Bufsiz - len) with
    | none => fillDescriptors fillbuf owners len
    | some status =>
      if status < 0 then status else fillDescriptors fillbuf owners (len + status)

/-- `config_buf`, with the descriptor that it writes at the start of the buffer. -/
def configBuf (fillbuf : Option FnId → Int → Option Int) (vbusDraw : Nat) (c : Configuration)
    (speedSuper : Bool) (type : UInt8) : Int × ConfigDescriptor :=
  let len := fillDescriptors fillbuf (none :: c.functions.map some) 9
  (len,
    { bLength := 9
      bDescriptorType := type
      wTotalLength := if len < 0 then none else some (UInt16.ofNat len.toNat)
      bNumInterfaces := UInt8.ofNat c.nextInterfaceId
      bConfigurationValue := c.bConfigurationValue
      iConfiguration := c.iConfiguration
      bmAttributes := 0x80 ||| c.bmAttributes
      bMaxPower := encodeBMaxPower vbusDraw speedSuper c })

/-! ## Runs -/

/-- The two calls. -/
inductive InterfaceCall where
  | interfaceId (f : FnId)
  | removeInterfaceId (id : Nat)

/-- A configuration, and the owners as those who made the calls know them. -/
structure Numbering where
  config : Configuration
  owner : Nat → Option FnId

/-- One call.  A number that is returned belongs to the function until it is removed. -/
def Numbering.step (s : Numbering) : InterfaceCall → Option Numbering
  | .interfaceId f =>
    let (id, c) := s.config.usbInterfaceId f
    some
      { config := c
        owner := if 0 ≤ id then update s.owner id.toNat (some f) else s.owner }
  | .removeInterfaceId id =>
    some
      { config := s.config.usbRemoveInterfaceId id
        owner := update s.owner id none }

/-- A configuration after `usb_add_config_only`. -/
def freshConfig (bConfigurationValue : UInt8) : Configuration where
  bConfigurationValue := bConfigurationValue

/-- No function has a number yet. -/
def freshNumbering (bConfigurationValue : UInt8) : Numbering where
  config := freshConfig bConfigurationValue
  owner _ := none

/-! ## What should hold -/

/-- The numbers with owners are `0..n-1`. -/
def Contiguous (owner : Nat → Option FnId) (n : Nat) : Prop :=
  ∀ id, (owner id).isSome ↔ id < n

/-- The interfaces whose `set_alt` is called, with the functions that are called. -/
def setAlts (calls : List Call) : List (Nat × Option FnId) :=
  calls.filterMap fun
    | .setAlt f intf _ _ => some (intf, some f)
    | _ => none

/-- The descriptor announces `n` interfaces. -/
def Announces (c : Configuration) (n : Nat) : Prop :=
  ∀ fillbuf vbusDraw speedSuper type,
    (configBuf fillbuf vbusDraw c speedSuper type).2.bNumInterfaces.toNat = n

/-- `set_config` for the configuration calls `set_alt` of the owners of the first `n` interfaces,
if they all accept. -/
def Sets (c : Configuration) (owner : Nat → Option FnId) (n : Nat) : Prop :=
  ∀ (cdev : CompositeDev) (setAlt : FnId → Nat → Nat → Int) (number : Nat), number ≠ 0 →
    cdev.configs.find? (fun c => c.bConfigurationValue.toNat = number) = some c →
    (∀ f intf alt, 0 ≤ setAlt f intf alt) →
    setAlts (cdev.setConfig setAlt number).2.2 = (List.range n).map fun id => (id, owner id)

/-- What should hold of interface numbers: one that has an owner is not handed out, one is refused
only when all are owned, and if the owned ones are the first `n`, then `n` interfaces are announced
and set. -/
structure NumberingOk (s : Numbering) : Prop where
  fresh : ∀ f id : Nat, (s.config.usbInterfaceId f).1 = id → s.owner id = none
  full : ∀ f, (s.config.usbInterfaceId f).1 < 0 → ∀ id < maxConfigInterfaces,
    (s.owner id).isSome
  count : ∀ n, Contiguous s.owner n → Announces s.config n ∧ Sets s.config s.owner n

/-- The calls that keep the count right: a number is handed out only if the one above it has no
owner.  It is the first number without an owner that is handed out. -/
def KeepsCount (s : Numbering) : InterfaceCall → Prop
  | .interfaceId _ => ∀ id < maxConfigInterfaces, s.owner id = none →
    (∀ j < id, (s.owner j).isSome) → s.owner (id + 1) = none
  | .removeInterfaceId _ => True

instance (s : Numbering) : DecidablePred (KeepsCount s)
  | .interfaceId _ => inferInstanceAs (Decidable (∀ id < _, _ → (∀ j < id, _) → _))
  | .removeInterfaceId _ => inferInstanceAs (Decidable True)

/-! ## What holds in every run -/

/-- The owners are those of the table, and all numbers below `next_interface_id` have one. -/
structure Numbered (s : Numbering) : Prop where
  table : s.config.interface = s.owner
  bound : ∀ id, maxConfigInterfaces ≤ id → s.owner id = none
  below : ∀ id < s.config.nextInterfaceId, (s.owner id).isSome

variable {s t : Numbering}

theorem Numbered.lt_of_isSome (h : Numbered s) {id : Nat} (hsome : (s.owner id).isSome) :
    id < maxConfigInterfaces := by
  by_contra hge
  rw [h.bound id (Nat.le_of_not_lt hge)] at hsome
  exact Bool.noConfusion hsome

theorem Numbered.next_le (h : Numbered s) : s.config.nextInterfaceId ≤ maxConfigInterfaces := by
  by_contra hlt
  exact Nat.lt_irrefl _ (h.lt_of_isSome (h.below _ (Nat.lt_of_not_le hlt)))

/-- **`usb_interface_id`** hands out the first number without an owner. -/
theorem Numbered.usbInterfaceId_cases (h : Numbered s) (f : FnId) :
    (∃ id < maxConfigInterfaces, s.owner id = none ∧ (∀ j < id, (s.owner j).isSome) ∧
      s.config.usbInterfaceId f = ((id : Int), { s.config with
        interface := update s.config.interface id (some f), nextInterfaceId := id + 1 })) ∨
    (∀ id < maxConfigInterfaces, (s.owner id).isSome) ∧
      s.config.usbInterfaceId f = (-ENODEV, s.config) := by
  have hle := h.next_le
  unfold Configuration.usbInterfaceId
  cases hfind : (List.range' s.config.nextInterfaceId
      (maxConfigInterfaces - s.config.nextInterfaceId)).find?
      fun id => (s.config.interface id).isNone with
  | some id =>
    obtain ⟨hnone, hmem, hbelow⟩ := List.find?_range'_eq_some.mp hfind
    rw [List.mem_range'_1] at hmem
    rw [h.table] at hnone
    refine .inl ⟨id, by omega, Option.isNone_iff_eq_none.mp hnone, fun j hj => ?_, rfl⟩
    by_cases hnext : j < s.config.nextInterfaceId
    · exact h.below j hnext
    · have hj' := hbelow j (Nat.le_of_not_lt hnext) hj
      rw [h.table] at hj'
      simpa using hj'
  | none =>
    refine .inr ⟨fun j hj => ?_, rfl⟩
    by_cases hnext : j < s.config.nextInterfaceId
    · exact h.below j hnext
    · have hj' := List.find?_range'_eq_none.mp hfind j (Nat.le_of_not_lt hnext) (by omega)
      rw [h.table] at hj'
      simpa using hj'

/-- `usb_interface_id` hands out the first number that is free, or none. -/
theorem Numbered.step_interfaceId (h : Numbered s) {f : FnId}
    (hstep : s.step (.interfaceId f) = some t) :
    (∃ id < maxConfigInterfaces, s.owner id = none ∧ (∀ j < id, (s.owner j).isSome) ∧
      t.owner = update s.owner id (some f) ∧ t.config.interface = t.owner ∧
      t.config.nextInterfaceId = id + 1) ∨
    (∀ id < maxConfigInterfaces, (s.owner id).isSome) ∧ t = s := by
  rcases h.usbInterfaceId_cases f with ⟨id, hid, hfree, hbelow, hret⟩ | ⟨hfull, hret⟩
  · rw [Numbering.step, hret] at hstep
    dsimp only at hstep
    rw [if_pos (Int.natCast_nonneg id), Int.toNat_natCast, h.table] at hstep
    obtain rfl := Option.some.inj hstep
    exact .inl ⟨id, hid, hfree, hbelow, rfl, rfl, rfl⟩
  · refine .inr ⟨hfull, ?_⟩
    rw [Numbering.step, hret] at hstep
    exact (Option.some.inj hstep).symm

/-- `usb_remove_interface_id` takes a number back. -/
theorem Numbered.step_removeInterfaceId (h : Numbered s) {id : Nat}
    (hstep : s.step (.removeInterfaceId id) = some t) :
    t.owner = update s.owner id none ∧ t.config.interface = t.owner ∧
      t.config.nextInterfaceId = min id s.config.nextInterfaceId ∨ s.owner id = none ∧ t = s := by
  obtain rfl := Option.some.inj hstep
  unfold Configuration.usbRemoveInterfaceId
  by_cases hown : id < maxConfigInterfaces ∧ (s.config.interface id).isSome
  · refine .inl ⟨rfl, ?_, ?_⟩
    · rw [if_pos hown, h.table]
    · rw [if_pos hown]
      dsimp only
      split <;> omega
  · have hnone : s.owner id = none := by
      by_cases hid : id < maxConfigInterfaces
      · rw [← h.table]
        exact Option.not_isSome_iff_eq_none.mp fun hsome => hown ⟨hid, hsome⟩
      · exact h.bound id (Nat.le_of_not_lt hid)
    refine .inr ⟨hnone, ?_⟩
    rw [if_neg hown, ← hnone, update_eq_self]

/-- **The step lemma.**  Every call keeps the numbers below `next_interface_id` owned. -/
theorem Numbered.step {e : InterfaceCall} (h : Numbered s) (hstep : s.step e = some t) :
    Numbered t := by
  cases e with
  | interfaceId f =>
    rcases h.step_interfaceId hstep with
      ⟨id, hid, -, hbelow, howner, htable, hnext⟩ | ⟨-, rfl⟩
    · refine ⟨htable, fun j hj => ?_, fun j hj => ?_⟩
      · rw [howner, update_of_ne (by omega)]
        exact h.bound j hj
      · rw [hnext] at hj
        rw [howner]
        by_cases hjd : j = id
        · rw [hjd, update_self]
          rfl
        · rw [update_of_ne hjd]
          exact hbelow j (by omega)
    · exact h
  | removeInterfaceId id =>
    rcases h.step_removeInterfaceId hstep with ⟨howner, htable, hnext⟩ | ⟨-, rfl⟩
    · refine ⟨htable, fun j hj => ?_, fun j hj => ?_⟩
      · rw [howner, update_apply, h.bound j hj, ite_self]
      · rw [hnext] at hj
        rw [howner, update_of_ne (by omega)]
        exact h.below j (by omega)
    · exact h

theorem numbered_fresh (bConfigurationValue : UInt8) :
    Numbered (freshNumbering bConfigurationValue) :=
  ⟨rfl, fun _ _ => rfl, fun _ h => absurd h (Nat.not_lt_zero _)⟩

/-! ## The count -/

theorem setAlts_setInterfaces {c : Configuration} {setAlt : FnId → Nat → Nat → Int}
    (haccept : ∀ f intf alt, 0 ≤ setAlt f intf alt) (m : Nat) :
    ∀ (k tmp : Nat) (cdev : CompositeDev) (result : Int),
      (∀ id, tmp ≤ id → id < tmp + m → (c.interface id).isSome) →
      c.interface (tmp + m) = none → m ≤ k →
      setAlts (setInterfaces c setAlt tmp k cdev result).2.2 =
        (List.range' tmp m).map fun id => (id, c.interface id) := by
  induction m with
  | zero =>
    intro k tmp cdev result _ hend _
    cases k with
    | zero => rfl
    | succ k =>
      rw [setInterfaces, show c.interface tmp = none from hend]
      rfl
  | succ m ih =>
    intro k tmp cdev result hown hend hk
    obtain ⟨k, rfl⟩ : ∃ k', k = k' + 1 := ⟨k - 1, by omega⟩
    obtain ⟨f, hf⟩ := Option.isSome_iff_exists.mp (hown tmp (Nat.le_refl _) (by omega))
    have hrest := ih k (tmp + 1) ((cdev.recordEndpoints f).countDelay (setAlt f tmp 0))
      (setAlt f tmp 0)
      (fun id hlo hhi => hown id (by omega) (by omega))
      (by rw [← hend]; congr 1; omega) (by omega)
    rw [setInterfaces, hf]
    dsimp only
    rw [if_neg (Int.not_lt.mpr (haccept f tmp 0)), List.range'_succ, List.map_cons, hf, ← hrest]
    rfl

theorem Numbered.sets (h : Numbered s) {n : Nat} (hcont : Contiguous s.owner n) :
    Sets s.config s.owner n := by
  have hn : n ≤ maxConfigInterfaces := by
    by_contra hlt
    exact Nat.lt_irrefl _ (h.lt_of_isSome ((hcont _).mpr (Nat.lt_of_not_le hlt)))
  intro cdev setAlt number hnumber hfind haccept
  have hloop := setAlts_setInterfaces (c := s.config) haccept n maxConfigInterfaces 0
    { cdev.leaveConfig.1 with config := some s.config } 0
    (fun id _ hid => by rw [h.table]; exact (hcont id).mpr (by omega))
    (by
      rw [h.table]
      exact Option.not_isSome_iff_eq_none.mp fun hsome => by
        have := (hcont _).mp hsome
        omega)
    hn
  unfold CompositeDev.setConfig
  rw [if_neg hnumber, hfind]
  dsimp only
  have hleave : setAlts cdev.leaveConfig.2 = [] := by
    unfold CompositeDev.leaveConfig
    split <;> rfl
  unfold setAlts at hleave hloop ⊢
  rw [List.filterMap_append, hleave, List.nil_append, hloop, List.range_eq_range', h.table]

theorem Numbered.announces_iff (h : Numbered s) {n : Nat} :
    Announces s.config n ↔ s.config.nextInterfaceId = n := by
  have hnext : (UInt8.ofNat s.config.nextInterfaceId).toNat = s.config.nextInterfaceId := by
    have hle : s.config.nextInterfaceId ≤ 16 := h.next_le
    exact Nat.mod_eq_of_lt (by omega)
  constructor
  · intro hann
    exact hnext.symm.trans (hann (fun _ _ => none) 0 false 0)
  · rintro rfl fillbuf vbusDraw speedSuper type
    exact hnext

theorem Numbered.numberingOk_iff (h : Numbered s) :
    NumberingOk s ↔ ∀ n, Contiguous s.owner n → s.config.nextInterfaceId = n := by
  constructor
  · intro hok n hcont
    exact h.announces_iff.mp (hok.count n hcont).1
  · intro hcount
    refine ⟨fun f id hret => ?_, fun f hret id hid => ?_, fun n hcont =>
      ⟨h.announces_iff.mpr (hcount n hcont), h.sets hcont⟩⟩
    · rcases h.usbInterfaceId_cases f with ⟨id', -, hfree, -, heq⟩ | ⟨-, heq⟩
      · rw [heq] at hret
        rwa [← Int.ofNat.inj hret]
      · rw [heq] at hret
        exact absurd hret (by unfold ENODEV; omega)
    · rcases h.usbInterfaceId_cases f with ⟨id', -, -, -, heq⟩ | ⟨hfull, -⟩
      · rw [heq] at hret
        exact absurd hret (by simp)
      · exact hfull id hid

/-- The number after the last that was handed out or taken back has no owner. -/
structure Topped (s : Numbering) : Prop where
  numbered : Numbered s
  next : s.owner s.config.nextInterfaceId = none

theorem Topped.numberingOk (h : Topped s) : NumberingOk s := by
  refine h.numbered.numberingOk_iff.mpr fun n hcont => ?_
  have hge : ¬ s.config.nextInterfaceId < n := fun hlt => by
    have howned := (hcont _).mpr hlt
    rw [h.next] at howned
    exact Bool.noConfusion howned
  have hle : ¬ n < s.config.nextInterfaceId := fun hlt =>
    Nat.lt_irrefl n ((hcont n).mp (h.numbered.below n hlt))
  omega

/-- **A call that keeps the count** leaves `next_interface_id` at a number without an owner. -/
theorem Topped.step {e : InterfaceCall} (h : Topped s) (hkeep : KeepsCount s e)
    (hstep : s.step e = some t) : Topped t := by
  refine ⟨h.numbered.step hstep, ?_⟩
  cases e with
  | interfaceId f =>
    rcases h.numbered.step_interfaceId hstep with
      ⟨id, hid, hfree, hbelow, howner, -, hnext⟩ | ⟨-, rfl⟩
    · rw [hnext, howner, update_of_ne (Nat.succ_ne_self id)]
      exact hkeep id hid hfree hbelow
    · exact h.next
  | removeInterfaceId id =>
    rcases h.numbered.step_removeInterfaceId hstep with ⟨howner, -, hnext⟩ | ⟨-, rfl⟩
    · rw [hnext, howner]
      rcases Nat.le_total id s.config.nextInterfaceId with hle | hle
      · rw [Nat.min_eq_left hle, update_self]
      · rw [Nat.min_eq_right hle, update_apply, h.next, ite_self]
    · exact h.next

theorem topped_fresh (bConfigurationValue : UInt8) : Topped (freshNumbering bConfigurationValue) :=
  ⟨numbered_fresh bConfigurationValue, rfl⟩

/-- **Interface numbering.**  In every state that calls which keep the count lead to, no number with
an owner is handed out, none is refused while one is left, and the announced and the set interfaces
are the owned ones. -/
theorem numbering_of_keepsCount {bConfigurationValue : UInt8} {es : List InterfaceCall}
    (hkeep : Along Numbering.step KeepsCount (freshNumbering bConfigurationValue) es)
    (hrun : exec Numbering.step (freshNumbering bConfigurationValue) es = some s) :
    NumberingOk s :=
  (Runs.exec_invariant (fun _ _ _ h hkeep hstep => h.step hkeep hstep)
    (topped_fresh bConfigurationValue) hkeep hrun).numberingOk

/-- Three numbers are handed out, and the last two are taken back; one is handed out again. -/
def retaken : List InterfaceCall :=
  [.interfaceId 7, .interfaceId 7, .interfaceId 8, .removeInterfaceId 1, .removeInterfaceId 2,
    .interfaceId 9]

theorem numbering_retaken : ∃ s, exec Numbering.step (freshNumbering 1) retaken = some s ∧
    s.owner 1 = some 9 ∧ NumberingOk s := by
  have hobs : (exec Numbering.step (freshNumbering 1) retaken).map (·.owner 1) = some (some 9) :=
    rfl
  obtain ⟨s, hrun, hs⟩ := Option.map_eq_some_iff.mp hobs
  exact ⟨s, hrun, hs, numbering_of_keepsCount (by decide +kernel) hrun⟩

theorem numbered_exec {bConfigurationValue : UInt8} {es : List InterfaceCall}
    (hrun : exec Numbering.step (freshNumbering bConfigurationValue) es = some s) : Numbered s :=
  Runs.exec_invariant (C := fun _ _ => True) (fun _ _ _ h _ hstep => h.step hstep)
    (numbered_fresh bConfigurationValue) (Along.of_forall fun _ _ => trivial) hrun

/-- Three numbers are handed out, the first is taken back and handed out again: one interface is
announced, though three are owned and set. -/
theorem reused_not_announced :
    ∃ s, exec Numbering.step (freshNumbering 1)
        [.interfaceId 7, .interfaceId 7, .interfaceId 8, .removeInterfaceId 0, .interfaceId 9] =
          some s ∧
      ¬ NumberingOk s ∧ Announces s.config 1 ∧ Sets s.config s.owner 3 := by
  have hobs : (exec Numbering.step (freshNumbering 1)
      [.interfaceId 7, .interfaceId 7, .interfaceId 8, .removeInterfaceId 0, .interfaceId 9]).map
        (fun s => (s.config.nextInterfaceId,
          decide (∀ id < maxConfigInterfaces, (s.owner id).isSome ↔ id < 3))) =
      some (1, true) := by decide +kernel
  obtain ⟨s, hrun, hs⟩ := Option.map_eq_some_iff.mp hobs
  obtain ⟨hnext, htable⟩ := Prod.ext_iff.mp hs
  have h := numbered_exec hrun
  have hcont : Contiguous s.owner 3 := by
    intro id
    by_cases hid : id < maxConfigInterfaces
    · exact of_decide_eq_true htable id hid
    · rw [h.bound id (Nat.le_of_not_lt hid)]
      unfold maxConfigInterfaces at hid
      exact iff_of_false nofun (by omega)
  refine ⟨s, hrun, fun hok => ?_, h.announces_iff.mpr hnext, h.sets hcont⟩
  have := (h.numberingOk_iff.mp hok) 3 hcont
  omega

end RealtekIpcam.Composite
