import RealtekIpcam.Lib.RangeTable
import RealtekIpcam.Opensbi.TrapRedirect

/-!
# The extensions of the SBI

An `ecall` of the lower mode is handled by the extension whose range of ids contains the id in `a7`.
The extensions are registered in a list, which refuses a range that overlaps with one that it has.
What the handler of an extension leaves is turned into the answer of the call: the trap that it asks
for, or an error and a value with which the caller goes on behind its `ecall`.

An `ecall` of the old specification has no value, and its caller keeps `a1`.  The dispatcher takes a
call for one of those when its id is and an extension has handled it.
-/

namespace RealtekIpcam.Opensbi

open BitField Function RangeTable

variable {x : Xlen}

/-! ## The registry -/

/-- A `struct sbi_ecall_extension`, as an object. -/
abbrev ExtId := Nat

/-- What a handler leaves: its error, the value, the trap that it fills in, and the CSRs. -/
structure Handled (x : Xlen) where
  ret : Int
  outVal : Ulong x
  trap : SbiTrapInfo x
  hart : Hart x

/-- `struct sbi_ecall_extension`.  `probe` gets an id and answers with an error and a value;
`handle` gets the ids of the extension and of the function, and registers that it cannot change. -/
structure SbiEcallExtension (x : Xlen) where
  extidStart : Ulong x
  extidEnd : Ulong x
  probe : Option (Ulong x → Int × Ulong x)
  handle : Option (Ulong x → Ulong x → SbiTrapRegs x → Hart x → Handled x)

variable (err : SbiError) (ext : ExtId → SbiEcallExtension x)

/-- `sbi_ecall_find_extension`, in the list `ecall_exts_list`. -/
def sbiEcallFindExtension (exts : List ExtId) (extid : Ulong x) : Option ExtId :=
  exts.find? fun t => (ext t).extidStart ≤ extid && extid ≤ (ext t).extidEnd

/-- `sbi_ecall_register_extension`, where no extension is the null pointer. -/
def sbiEcallRegisterExtension (exts : List ExtId) : Option ExtId → Int × List ExtId
  | none => (err.EINVAL, exts)
  | some e =>
    if (ext e).extidEnd < (ext e).extidStart ∨ (ext e).handle.isNone then (err.EINVAL, exts)
    else if exts.all fun t =>
        (ext t).extidEnd < (ext e).extidStart || (ext e).extidEnd < (ext t).extidStart then
      (0, exts ++ [e])
    else (err.EINVAL, exts)

def sbiEcallUnregisterExtension (exts : List ExtId) : Option ExtId → List ExtId
  | none => exts
  | some e => if e ∈ exts then exts.erase e else exts

/-- A change of the registry. -/
inductive RegistryCall where
  | register (e : Option ExtId)
  | unregister (e : Option ExtId)

/-- The registry after a call. -/
def registryStep (exts : List ExtId) : RegistryCall → List ExtId
  | .register e => (sbiEcallRegisterExtension err ext exts e).2
  | .unregister e => sbiEcallUnregisterExtension exts e

/-- The list `ecall_exts_list` after a row of calls. -/
def registry (calls : List RegistryCall) : List ExtId := calls.foldl (registryStep err ext) []

/-! ## The dispatcher -/

def SBI_EXT_0_1_SHUTDOWN : Nat := 8
def SBI_ERR_FAILED : Int := -1
def SBI_LAST_ERR : Int := -6

/-- A `struct sbi_trap_info` of zeros. -/
def noTrap : SbiTrapInfo x := ⟨0, 0, 0, 0, 0⟩

/-- The extension that handles an id, if it has a handler. -/
def handlerOf (exts : List ExtId) (extid : Ulong x) :
    Option (Ulong x → Ulong x → SbiTrapRegs x → Hart x → Handled x) :=
  (sbiEcallFindExtension ext exts extid).bind fun t => (ext t).handle

def callHandler (exts : List ExtId) (h : Hart x) (regs : SbiTrapRegs x) : Handled x :=
  match handlerOf ext exts (regs.gpr a7) with
  | some handle => handle (regs.gpr a7) (regs.gpr a6) regs h
  | none => ⟨err.ENOTSUPP, 0, noTrap, h⟩

def is01Spec (exts : List ExtId) (regs : SbiTrapRegs x) : Bool :=
  (handlerOf ext exts (regs.gpr a7)).isSome && (regs.gpr a7).toNat ≤ SBI_EXT_0_1_SHUTDOWN

/-- The error that the caller sees. -/
def answerOf (ret : Int) : Int := if ret < SBI_LAST_ERR then SBI_ERR_FAILED else ret

def sbiEcallHandler (exts : List ExtId) (h : Hart x) (regs : SbiTrapRegs x) :
    Int × Hart x × SbiTrapRegs x :=
  let r := callHandler err ext exts h regs
  if r.ret = err.ETRAP then
    (0, (sbiTrapRedirect err r.hart regs { r.trap with epc := regs.mepc }).2)
  else
    let gpr := update regs.gpr a0 (BitVec.ofInt x.width (answerOf r.ret))
    (0, r.hart, { regs with
      mepc := regs.mepc + 4#x.width
      gpr := if is01Spec ext exts regs then gpr else update gpr a1 r.outVal })

def sbiEcallBaseProbe (exts : List ExtId) (extid : Ulong x) : Int × Ulong x :=
  match sbiEcallFindExtension ext exts extid with
  | none => (0, 0)
  | some t =>
    match (ext t).probe with
    | some probe => probe extid
    | none => (0, 1)

/-! ## What should hold -/

def ids (t : ExtId) : Set Nat := Set.Icc (ext t).extidStart.toNat (ext t).extidEnd.toNat

/-- The ranges do not meet and are not empty, and the extensions have handlers. -/
structure Registered (exts : List ExtId) : Prop where
  table : Table (ids ext) exts
  handle : ∀ t ∈ exts, (ext t).handle.isSome = true

/-- The answer of a call that is not turned into a trap: the caller goes on behind its `ecall`, with
the error in `a0` and the value in `a1`. -/
structure Answered (r : Handled x) (keepA1 : Prop) (regs regs' : SbiTrapRegs x) : Prop where
  mepc : regs'.mepc = regs.mepc + 4#x.width
  a0 : regs'.gpr a0 = BitVec.ofInt x.width (answerOf r.ret)
  a1 : regs'.gpr a1 = r.outVal ∧ ¬ keepA1 ∨ regs'.gpr a1 = regs.gpr a1 ∧ keepA1
  others : ∀ g, g ≠ Opensbi.a0 → g ≠ Opensbi.a1 → regs'.gpr g = regs.gpr g
  mstatus : regs'.mstatus = regs.mstatus ∧ regs'.mstatusH = regs.mstatusH

/-- A call of the old specification that an extension handles. -/
def Legacy (exts : List ExtId) (regs : SbiTrapRegs x) : Prop :=
  (regs.gpr a7).toNat ≤ SBI_EXT_0_1_SHUTDOWN ∧ ∃ t ∈ exts, (regs.gpr a7).toNat ∈ ids ext t

/-- The dispatch of an `ecall`.  A trap that the handler asks for is redirected, for a caller below
M-mode, and `mepc` is then a trap vector; every other result is an answer. -/
structure Dispatched (exts : List ExtId) (h : Hart x) (regs : SbiTrapRegs x) : Prop where
  trap : (callHandler err ext exts h regs).ret = err.ETRAP → modeOf regs.mstatus ≠ .m →
    ∃ h' regs', sbiTrapRedirect err (callHandler err ext exts h regs).hart regs
        { (callHandler err ext exts h regs).trap with epc := regs.mepc } = (0, h', regs') ∧
      sbiEcallHandler err ext exts h regs = (0, h', regs') ∧
      (regs'.mepc = (callHandler err ext exts h regs).hart.s.tvec.val ∨
        regs'.mepc = (callHandler err ext exts h regs).hart.vs.tvec.val)
  answer : (callHandler err ext exts h regs).ret ≠ err.ETRAP →
    (sbiEcallHandler err ext exts h regs).2.1 = (callHandler err ext exts h regs).hart ∧
      Answered (callHandler err ext exts h regs) (Legacy ext exts regs) regs
        (sbiEcallHandler err ext exts h regs).2.2

/-! ## The registry -/

variable {exts : List ExtId}

theorem mem_ids {t : ExtId} {extid : Ulong x} :
    ((ext t).extidStart ≤ extid && extid ≤ (ext t).extidEnd) = true ↔ extid.toNat ∈ ids ext t := by
  rw [Bool.and_eq_true, decide_eq_true_eq, decide_eq_true_eq, BitVec.le_def, BitVec.le_def]
  exact Iff.rfl

theorem sbiEcallFindExtension_iff (h : Registered ext exts) {extid : Ulong x} {t : ExtId} :
    sbiEcallFindExtension ext exts extid = some t ↔ t ∈ exts ∧ extid.toNat ∈ ids ext t :=
  h.table.find?_eq_some_iff fun _ _ => mem_ids ext

/-- **A registration** keeps the registry, or fails and changes nothing. -/
theorem Registered.register (h : Registered ext exts) (e : Option ExtId) :
    Registered ext (sbiEcallRegisterExtension err ext exts e).2 ∧
      ((sbiEcallRegisterExtension err ext exts e).1 ≠ 0 →
        (sbiEcallRegisterExtension err ext exts e).2 = exts) := by
  cases e with
  | none => exact ⟨h, fun _ => rfl⟩
  | some e =>
    unfold sbiEcallRegisterExtension
    dsimp only
    split
    · exact ⟨h, fun _ => rfl⟩
    · next hok =>
      split
      · next hall =>
        obtain ⟨hle, hhandle⟩ := not_or.mp hok
        rw [BitVec.not_lt, BitVec.le_def] at hle
        refine ⟨⟨h.table.concat (Set.nonempty_Icc.mpr hle) fun t ht => ?_, fun t ht => ?_⟩,
          fun hno => absurd rfl hno⟩
        · obtain ⟨k, hk⟩ := h.table.nonempty t ht
          have happ := List.all_eq_true.mp hall t ht
          rw [Bool.or_eq_true, decide_eq_true_eq, decide_eq_true_eq, BitVec.lt_def,
            BitVec.lt_def] at happ
          exact (disjoint_Icc_iff (hk.1.trans hk.2) hle).mpr happ
        · rcases List.mem_append.mp ht with ht | ht
          · exact h.handle t ht
          · rw [List.mem_singleton.mp ht]
            simpa [Option.isSome_iff_ne_none] using hhandle
      · exact ⟨h, fun _ => rfl⟩

theorem Registered.unregister (h : Registered ext exts) (e : Option ExtId) :
    Registered ext (sbiEcallUnregisterExtension exts e) := by
  cases e with
  | none => exact h
  | some e =>
    unfold sbiEcallUnregisterExtension
    dsimp only
    split
    · exact ⟨h.table.sublist List.erase_sublist, fun t ht => h.handle t (List.mem_of_mem_erase ht)⟩
    · exact h

theorem registered_registry (calls : List RegistryCall) :
    Registered ext (registry err ext calls) := by
  unfold registry
  refine List.foldlRecOn calls (registryStep err ext) ⟨Table.nil, nofun⟩ ?_
  intro exts h c _
  cases c with
  | register e => exact (h.register err ext e).1
  | unregister e => exact h.unregister ext e

/-! ## The dispatch -/

theorem handlerOf_isSome (h : Registered ext exts) (extid : Ulong x) :
    (handlerOf ext exts extid).isSome = true ↔ ∃ t ∈ exts, extid.toNat ∈ ids ext t := by
  unfold handlerOf
  constructor
  · intro hsome
    obtain ⟨handle, hbind⟩ := Option.isSome_iff_exists.mp hsome
    obtain ⟨t, hfind, -⟩ := Option.bind_eq_some_iff.mp hbind
    exact ⟨t, (sbiEcallFindExtension_iff ext h).mp hfind⟩
  · rintro ⟨t, ht⟩
    rw [(sbiEcallFindExtension_iff ext h).mpr ht]
    exact h.handle t ht.1

theorem is01Spec_iff (h : Registered ext exts) (regs : SbiTrapRegs x) :
    is01Spec ext exts regs = true ↔ Legacy ext exts regs := by
  unfold is01Spec Legacy
  rw [Bool.and_eq_true, handlerOf_isSome ext h, decide_eq_true_eq, and_comm]

/-- **Probing tells what is registered**: after every row of registrations and their like the probe
of an id is answered by the extension that has it, and with 0 if none has it. -/
theorem sbiEcallBaseProbe_registry (calls : List RegistryCall) (extid : Ulong x) :
    (∀ t ∈ registry err ext calls, extid.toNat ∈ ids ext t →
      sbiEcallBaseProbe ext (registry err ext calls) extid =
        ((ext t).probe.map fun probe => probe extid).getD (0, 1)) ∧
    ((∀ t ∈ registry err ext calls, extid.toNat ∉ ids ext t) →
      sbiEcallBaseProbe ext (registry err ext calls) extid = (0, 0)) := by
  have h := registered_registry err ext calls
  unfold sbiEcallBaseProbe
  refine ⟨fun t ht hid => ?_, fun hno => ?_⟩
  · rw [(sbiEcallFindExtension_iff ext h).mpr ⟨ht, hid⟩]
    cases hprobe : (ext t).probe <;> simp [hprobe]
  · cases hfind : sbiEcallFindExtension ext (registry err ext calls) extid with
    | none => rfl
    | some t =>
      obtain ⟨ht, hid⟩ := (sbiEcallFindExtension_iff ext h).mp hfind
      exact absurd hid (hno t ht)

theorem sbiTrapRedirect_mepc (h : Hart x) {regs : SbiTrapRegs x} (trap : SbiTrapInfo x)
    (hm : modeOf regs.mstatus ≠ .m) :
    ∃ h' regs', sbiTrapRedirect err h regs trap = (0, h', regs') ∧
      (regs'.mepc = h.s.tvec.val ∨ regs'.mepc = h.vs.tvec.val) := by
  cases hvs : toVs h regs trap with
  | true => exact ⟨_, _, sbiTrapRedirect_vs err hm hvs, .inr rfl⟩
  | false => exact ⟨_, _, sbiTrapRedirect_s err hm hvs, .inl rfl⟩

theorem sbiEcallHandler_answered (hr : Registered ext exts) (h : Hart x) (regs : SbiTrapRegs x)
    (hret : (callHandler err ext exts h regs).ret ≠ err.ETRAP) :
    (sbiEcallHandler err ext exts h regs).2.1 = (callHandler err ext exts h regs).hart ∧
      Answered (callHandler err ext exts h regs) (Legacy ext exts regs) regs
        (sbiEcallHandler err ext exts h regs).2.2 := by
  unfold sbiEcallHandler
  dsimp only
  rw [if_neg hret]
  have ha : a0 ≠ a1 := by decide
  refine ⟨rfl, rfl, ?_, ?_, fun g h0 h1 => ?_, rfl, rfl⟩
  · dsimp only
    split
    · exact update_self ..
    · rw [update_of_ne ha, update_self]
  · rw [← is01Spec_iff ext hr]
    dsimp only
    split
    · next hold =>
      rw [update_of_ne ha.symm]
      exact .inr ⟨rfl, hold⟩
    · next hnew =>
      rw [update_self]
      exact .inl ⟨rfl, hnew⟩
  · dsimp only
    split
    · rw [update_of_ne h0]
    · rw [update_of_ne h1, update_of_ne h0]

/-- **Registry and dispatch.**  After every row of registrations and their like the ranges are a
table, which is searched exactly and whatever its order; a registration that fails changes nothing;
and every `ecall` is dispatched. -/
theorem registry_and_dispatch (calls : List RegistryCall) :
    Registered ext (registry err ext calls) ∧
      (∀ exts extid t, exts.Perm (registry err ext calls) →
        (sbiEcallFindExtension ext exts extid = some t ↔
          t ∈ registry err ext calls ∧ extid.toNat ∈ ids ext t)) ∧
      (∀ e, (sbiEcallRegisterExtension err ext (registry err ext calls) e).1 ≠ 0 →
        (sbiEcallRegisterExtension err ext (registry err ext calls) e).2 = registry err ext calls) ∧
      ∀ h regs, Dispatched err ext (registry err ext calls) h regs := by
  have hr := registered_registry err ext calls
  refine ⟨hr, ?_, fun e => (hr.register err ext e).2, fun h regs => ⟨fun hret hm => ?_, ?_⟩⟩
  · intro exts extid t hp
    have hexts : Registered ext exts :=
      ⟨hr.table.perm hp, fun t ht => hr.handle t (hp.subset ht)⟩
    rw [sbiEcallFindExtension_iff ext hexts, hp.mem_iff]
  · obtain ⟨h', regs', hrun, hmepc⟩ := sbiTrapRedirect_mepc err
      (callHandler err ext (registry err ext calls) h regs).hart
      { (callHandler err ext (registry err ext calls) h regs).trap with epc := regs.mepc } hm
    refine ⟨h', regs', hrun, ?_, hmepc⟩
    unfold sbiEcallHandler
    dsimp only
    rw [if_pos hret, hrun]
  · exact sbiEcallHandler_answered err ext hr h regs

/-- An extension for one id, whose handler asks for a trap. -/
def trapping : SbiEcallExtension .rv64 where
  extidStart := 0x0a000000#64
  extidEnd := 0x0a000000#64
  probe := none
  handle := some fun _ _ _ h => ⟨sbiError.ETRAP, 0, noTrap, h⟩

theorem direct_base : (0x80000000#64).getLsbD 1 = false := rfl

/-- A hart without the hypervisor extension. -/
def plainHart : Hart .rv64 where
  misaH := false
  misaC := true
  s := ⟨⟨0x80000000#64, direct_base⟩, 0#64, 0#64, 0#64⟩
  vs := ⟨⟨0#64, rfl⟩, 0#64, 0#64, 0#64⟩
  vsstatus := 0#64
  hstatus := 0#64
  htval := 0#64
  htinst := 0#64

/-- An `ecall` of an id, with 7 in all other registers. -/
def ecallOf (id mstatus : Ulong .rv64) : SbiTrapRegs .rv64 :=
  ⟨update (fun _ => 7#64) a7 id, 0x80001000#64, mstatus, 0⟩

/-- Without an extension for it a legacy call loses its `a1`; and an `ecall` of M-mode whose handler
asks for a trap is neither redirected nor answered. -/
theorem not_dispatched_as_legacy :
    ((sbiEcallHandler sbiError (fun _ => trapping) (registry sbiError (fun _ => trapping) [])
        plainHart (ecallOf 0 0x800#64)).2.2.gpr a1 ≠ (ecallOf 0 0x800#64).gpr a1 ∧
      (callHandler sbiError (fun _ => trapping) (registry sbiError (fun _ => trapping) [])
        plainHart (ecallOf 0 0x800#64)).ret ≠ sbiError.ETRAP) ∧
    (sbiTrapRedirect sbiError plainHart (ecallOf 0x0a000000#64 0x1800#64)
        { noTrap with epc := 0x80001000#64 }).1 ≠ 0 ∧
      (sbiEcallHandler sbiError (fun _ => trapping)
        (registry sbiError (fun _ => trapping) [.register (some 0)]) plainHart
        (ecallOf 0x0a000000#64 0x1800#64)).2.2.mepc.toNat = 0x80001000 := by
  decide +kernel

end RealtekIpcam.Opensbi
