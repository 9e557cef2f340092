import RealtekIpcam.Lib.Runs

/-!
# Registering ports in the slots of the 8250 core

The 8250 core has a fixed table of port structures.  A hardware driver fills in a template and
registers it: the core finds a slot, copies the template's configuration into it, resets the
register accessors to those of its I/O type, lets the template override accessors and operations,
and hands the slot to the serial core.  Unregistering gives the slot back to the core's own platform
device.

The accessors are reset on every registration.  The ten optional operations are only ever
overridden, never reset, so a slot keeps an operation of an earlier occupant until a template brings
another one: `op_eq_none_iff` says which slots are free of them, and `installed_iff` when a
registration is.

The serial core (`uart_match_port`, `uart_remove_one_port`, `uart_add_one_port`) is not in the
source and is a parameter.  Adding a port runs the 8250 probe, which goes by the port's addresses,
flags and accessors and may replace its capabilities; the module parameter that
`serial8250_apply_quirks` copies into the flags is left to it.  The inner test for `PORT_8250_CIR`
is commented out in the source together with the brace it opens; it is kept here, since its `else`
is not.
-/

namespace RealtekIpcam.Serial

open Runs

/-! ## Ports -/

/-- `iotype`. -/
inductive Upio where
  | port
  | hub6
  | mem
  | mem16
  | mem32
  | mem32be
  | au
  | tsi
  deriving DecidableEq

/-- A port type, as far as registration distinguishes it. -/
inductive PortType where
  | unknown
  | cir
  | other (type : Nat)
  deriving DecidableEq

/-- A function that may be installed in a port: one of the 8250 core or one of a driver. -/
inductive Fn where
  | ioSerialIn
  | ioSerialOut
  | hub6SerialIn
  | hub6SerialOut
  | memSerialIn
  | memSerialOut
  | mem16SerialIn
  | mem16SerialOut
  | mem32SerialIn
  | mem32SerialOut
  | mem32beSerialIn
  | mem32beSerialOut
  | defaultDlRead
  | defaultDlWrite
  | defaultHandleIrq
  | driver (address : Nat)
  deriving DecidableEq

/-- The callbacks that the core has a default for. -/
inductive Accessor where
  | serialIn
  | serialOut
  | handleIrq
  | dlRead
  | dlWrite
  deriving DecidableEq

/-- The optional callbacks. -/
inductive PortOp where
  | setTermios
  | setLdisc
  | getMctrl
  | setMctrl
  | getDivisor
  | setDivisor
  | startup
  | shutdown
  | pm
  | handleBreak
  deriving DecidableEq

/-- `struct uart_8250_port` with its `uart_port`; a null callback is `none`. -/
structure Uart where
  line : Nat := 0
  iobase : Nat := 0
  membase : Nat := 0
  irq : Nat := 0
  irqflags : Nat := 0
  uartclk : Nat := 0
  fifosize : Nat := 0
  regshift : Nat := 0
  iotype : Upio := .port
  flags : BitVec 32 := 0#32
  mapbase : Nat := 0
  mapsize : Nat := 0
  privateData : Nat := 0
  throttle : Option Fn := none
  unthrottle : Option Fn := none
  rs485Config : Option Fn := none
  rs485 : Nat := 0
  dev : Option Nat := none
  type : PortType := .unknown
  bugs : Nat := 0
  txLoadsz : Nat := 0
  capabilities : Nat := 0
  dma : Nat := 0
  /-- `cur_iotype`, `none` for 0xFF. -/
  curIotype : Option Upio := none
  overrunBackoffTimeMs : Nat := 0
  accessor : Accessor → Option Fn := fun _ => none
  op : PortOp → Option Fn := fun _ => none

def upfFixedType : BitVec 32 := 1#32 <<< 27
def upfBootAutoconf : BitVec 32 := 1#32 <<< 28

def EINVAL : Int := 22
def ENOSPC : Int := 28

/-- What the probe of a port goes by. -/
structure Resources where
  iobase : Nat
  membase : Nat
  mapbase : Nat
  mapsize : Nat
  regshift : Nat
  iotype : Upio
  flags : BitVec 32
  accessor : Accessor → Option Fn

def Uart.resources (u : Uart) : Resources where
  iobase := u.iobase
  membase := u.membase
  mapbase := u.mapbase
  mapsize := u.mapsize
  regshift := u.regshift
  iotype := u.iotype
  flags := u.flags
  accessor := u.accessor

/-- The serial core, and the hardware that a probe finds. -/
structure SerialCore where
  /-- `uart_match_port`. -/
  matchPort : Uart → Uart → Bool
  /-- `uart_remove_one_port`. -/
  removeOnePort : Uart → Uart
  /-- `uart_add_one_port`. -/
  addOnePort : Uart → Int × Uart
  /-- The capabilities after the probe of a port with these resources and capabilities. -/
  probed : Resources → Nat → Nat
  removeOnePort_op : ∀ u, (removeOnePort u).op = u.op
  removeOnePort_type : ∀ u, (removeOnePort u).type = .unknown
  addOnePort_nonpos : ∀ u, (addOnePort u).1 ≤ 0
  addOnePort_op : ∀ u, (addOnePort u).2.op = u.op
  addOnePort_privateData : ∀ u, (addOnePort u).2.privateData = u.privateData
  addOnePort_accessor : ∀ u, u.curIotype = some u.iotype → (addOnePort u).2.accessor = u.accessor
  addOnePort_capabilities : ∀ u,
    (addOnePort u).2.capabilities = probed u.resources u.capabilities

/-! ## Registration -/

/-- The accessor that `set_io_from_upio` installs. -/
def defaultAccessor : Upio → Accessor → Fn
  | _, .dlRead => .defaultDlRead
  | _, .dlWrite => .defaultDlWrite
  | _, .handleIrq => .defaultHandleIrq
  | .hub6, .serialIn => .hub6SerialIn
  | .hub6, .serialOut => .hub6SerialOut
  | .mem, .serialIn => .memSerialIn
  | .mem, .serialOut => .memSerialOut
  | .mem16, .serialIn => .mem16SerialIn
  | .mem16, .serialOut => .mem16SerialOut
  | .mem32, .serialIn => .mem32SerialIn
  | .mem32, .serialOut => .mem32SerialOut
  | .mem32be, .serialIn => .mem32beSerialIn
  | .mem32be, .serialOut => .mem32beSerialOut
  | _, .serialIn => .ioSerialIn
  | _, .serialOut => .ioSerialOut

/-- `set_io_from_upio`, which is all that is left of `serial8250_set_defaults`. -/
def setIoFromUpio (u : Uart) : Uart :=
  { u with
    accessor := fun a => some (defaultAccessor u.iotype a)
    curIotype := some u.iotype }

/-- The part of `serial8250_register_8250_port` that copies the configuration of the template. -/
def copyConfig (uart up : Uart) : Uart :=
  { uart with
    iobase := up.iobase
    membase := up.membase
    irq := up.irq
    irqflags := up.irqflags
    uartclk := up.uartclk
    fifosize := up.fifosize
    regshift := up.regshift
    iotype := up.iotype
    flags := up.flags ||| upfBootAutoconf
    bugs := up.bugs
    mapbase := up.mapbase
    mapsize := up.mapsize
    privateData := up.privateData
    txLoadsz := if up.fifosize ≠ 0 ∧ up.txLoadsz = 0 then up.fifosize else up.txLoadsz
    capabilities := up.capabilities
    throttle := up.throttle
    unthrottle := up.unthrottle
    rs485Config := up.rs485Config
    rs485 := up.rs485
    dma := up.dma
    dev := up.dev.or uart.dev
    type := if up.flags &&& upfFixedType ≠ 0#32 then up.type else uart.type }

/-- The part that overrides callbacks with those that the template has. -/
def override (uart up : Uart) : Uart :=
  { uart with
    accessor := fun a => (up.accessor a).or (uart.accessor a)
    op := fun o => (up.op o).or (uart.op o) }

/-- A slot filled from a template. -/
def install (uart up : Uart) : Uart := override (setIoFromUpio (copyConfig uart up)) up

/-- The initialisation of the interrupt backoff. -/
def initBackoff (uart up : Uart) : Uart :=
  { uart with overrunBackoffTimeMs := up.overrunBackoffTimeMs }

/-- The table `serial8250_ports`, with the core's own platform device. -/
structure Ports where
  slot : Nat → Uart
  nrUarts : Nat
  isaDevs : Option Nat

namespace Ports

variable (core : SerialCore) (s : Ports)

/-- Replace a slot. -/
def put (i : Nat) (u : Uart) : Ports := { s with slot := fun j => if j = i then u else s.slot j }

/-- The first slot that satisfies a test. -/
def first (p : Uart → Bool) : Option Nat := (List.range s.nrUarts).find? fun i => p (s.slot i)

/-- The slot has no type and was never used. -/
def unused (u : Uart) : Bool := u.type = .unknown ∧ u.iobase = 0

/-- `serial8250_find_match_or_unused`. -/
def findMatchOrUnused (port : Uart) : Option Nat :=
  (s.first fun u => core.matchPort u port).or <|
    if port.line < s.nrUarts ∧ unused (s.slot port.line) = true then some port.line
    else (s.first unused).or (s.first fun u => u.type = .unknown)

/-- The slot before the template is copied into it. -/
def vacate (uart : Uart) : Uart := if uart.dev.isSome then core.removeOnePort uart else uart

/-- `serial8250_register_8250_port`. -/
def register (up : Uart) : Int × Ports :=
  if up.uartclk = 0 then (-EINVAL, s)
  else
    match s.findMatchOrUnused core up with
    | none => (-ENOSPC, s)
    | some i =>
      if (s.slot i).type = .cir then (-ENOSPC, s)
      else
        let uart := install (vacate core (s.slot i)) up
        if uart.type ≠ .cir then
          let added := core.addOnePort uart
          if added.1 ≠ 0 then (added.1, s.put i { added.2 with dev := none })
          else (added.2.line, s.put i (initBackoff added.2 up))
        else (0, s.put i (initBackoff uart up))

/-- `serial8250_unregister_port`. -/
def unregister (line : Nat) : Ports :=
  let uart := core.removeOnePort (s.slot line)
  match s.isaDevs with
  | none => s.put line { uart with dev := none }
  | some dev =>
    let uart := { uart with
      flags := uart.flags &&& ~~~upfBootAutoconf
      type := .unknown
      dev := some dev
      capabilities := 0 }
    s.put line (core.addOnePort uart).2

end Ports

/-! ## Runs -/

/-- A call of a hardware driver. -/
inductive Call where
  | register (up : Uart)
  | unregister (line : Nat)

/-- The table after a call. -/
def Call.apply (core : SerialCore) (s : Ports) : Call → Ports
  | .register up => (s.register core up).2
  | .unregister line => s.unregister core line

/-- The table after a row of calls. -/
def run (core : SerialCore) (s : Ports) (cs : List Call) : Ports := cs.foldl (Call.apply core) s

/-- The registration gets as far as filling the slot `i`. -/
def Ports.Takes (core : SerialCore) (s : Ports) (up : Uart) (i : Nat) : Prop :=
  up.uartclk ≠ 0 ∧ s.findMatchOrUnused core up = some i ∧ (s.slot i).type ≠ .cir

instance (core : SerialCore) (s : Ports) (up : Uart) (i : Nat) : Decidable (s.Takes core up i) :=
  instDecidableAnd

/-- The templates that a row of calls has filled the slot `i` from. -/
def occupants (core : SerialCore) (i : Nat) : Ports → List Call → List Uart
  | _, [] => []
  | s, .register up :: cs =>
    (if s.Takes core up i then [up] else []) ++
      occupants core i (Call.apply core s (.register up)) cs
  | s, .unregister line :: cs => occupants core i (Call.apply core s (.unregister line)) cs

/-- The type a slot filled from the template has, if it is a consumer infrared one. -/
def Uart.IsCir (up : Uart) : Prop := up.flags &&& upfFixedType ≠ 0#32 ∧ up.type = .cir

instance (up : Uart) : Decidable up.IsCir := instDecidableAnd

/-- **A slot that carries no history**: accessors, operations, private data and capabilities are the
template's, or the defaults of the 8250 core and its probe. -/
structure Installed (core : SerialCore) (up u : Uart) : Prop where
  accessor : ∀ a, u.accessor a = some ((up.accessor a).getD (defaultAccessor up.iotype a))
  op : ∀ o, u.op o = up.op o
  privateData : u.privateData = up.privateData
  capabilities : u.capabilities =
    if up.IsCir then up.capabilities
    else core.probed { up.resources with
      flags := up.flags ||| upfBootAutoconf
      accessor := fun a => some ((up.accessor a).getD (defaultAccessor up.iotype a)) }
        up.capabilities

/-! ## Operations -/

section

variable {core : SerialCore} {s : Ports} {up : Uart} {i : Nat}

@[simp] theorem Ports.put_slot_self (s : Ports) (i : Nat) (u : Uart) : (s.put i u).slot i = u :=
  if_pos rfl

theorem Ports.put_slot_of_ne {s : Ports} {i j : Nat} {u : Uart} (h : j ≠ i) :
    (s.put i u).slot j = s.slot j := if_neg h

@[simp] theorem vacate_op (u : Uart) : (Ports.vacate core u).op = u.op := by
  rw [Ports.vacate]
  split
  · exact core.removeOnePort_op u
  · rfl

@[simp] theorem install_op (u up : Uart) (o : PortOp) :
    (install u up).op o = (up.op o).or (u.op o) := rfl

theorem install_accessor (u up : Uart) (a : Accessor) :
    (install u up).accessor a = some ((up.accessor a).getD (defaultAccessor up.iotype a)) := by
  show (up.accessor a).or (some (defaultAccessor up.iotype a)) = _
  cases up.accessor a <;> rfl

theorem Ports.Takes.register (h : s.Takes core up i) :
    s.register core up =
      (let uart := install (Ports.vacate core (s.slot i)) up
       if uart.type ≠ .cir then
         let added := core.addOnePort uart
         if added.1 ≠ 0 then (added.1, s.put i { added.2 with dev := none })
         else (added.2.line, s.put i (initBackoff added.2 up))
       else (0, s.put i (initBackoff uart up))) := by
  obtain ⟨hclk, hfind, hcir⟩ := h
  rw [Ports.register, if_neg hclk]
  simp only [hfind]
  rw [if_neg hcir]

theorem Ports.register_eq_self (h : ∀ i, ¬ s.Takes core up i) : (s.register core up).2 = s := by
  rw [Ports.register]
  by_cases hclk : up.uartclk = 0
  · rw [if_pos hclk]
  · rw [if_neg hclk]
    cases hfind : s.findMatchOrUnused core up with
    | none => rfl
    | some i =>
      have hcir : (s.slot i).type = .cir := by
        by_contra hne
        exact h i ⟨hclk, hfind, hne⟩
      simp only [if_pos hcir]

/-- In the slot that a registration fills, an operation is the template's or the one that was
there. -/
theorem Ports.Takes.slot_op (h : s.Takes core up i) (o : PortOp) :
    ((s.register core up).2.slot i).op o = (up.op o).or ((s.slot i).op o) := by
  have hop : ((install (Ports.vacate core (s.slot i)) up).op o) =
      (up.op o).or ((s.slot i).op o) := by
    rw [install_op, vacate_op]
  rw [h.register]
  dsimp only
  split
  · split
    · rw [put_slot_self, ← hop]
      exact congrFun (core.addOnePort_op _) o
    · rw [put_slot_self, ← hop]
      exact congrFun (core.addOnePort_op _) o
  · rw [put_slot_self, ← hop]
    rfl

theorem Ports.Takes.slot_of_ne {j : Nat} (h : s.Takes core up i) (hj : j ≠ i) :
    (s.register core up).2.slot j = s.slot j := by
  rw [h.register]
  dsimp only
  split
  · split <;> exact put_slot_of_ne hj
  · exact put_slot_of_ne hj

/-- **A registration adds to the operations of the slot it fills and leaves the other slots.** -/
theorem register_op (s : Ports) (up : Uart) (i : Nat) (o : PortOp) :
    ((s.register core up).2.slot i).op o =
      if s.Takes core up i then (up.op o).or ((s.slot i).op o) else (s.slot i).op o := by
  by_cases h : s.Takes core up i
  · rw [if_pos h, h.slot_op]
  · rw [if_neg h]
    by_cases hany : ∃ j, s.Takes core up j
    · obtain ⟨j, hj⟩ := hany
      have hij : i ≠ j := by
        rintro rfl
        exact h hj
      rw [hj.slot_of_ne hij]
    · rw [Ports.register_eq_self fun j hj => hany ⟨j, hj⟩]

theorem unregister_op (s : Ports) (line i : Nat) : ((s.unregister core line).slot i).op =
    (s.slot i).op := by
  by_cases hi : i = line
  · subst hi
    rw [Ports.unregister]
    cases s.isaDevs with
    | none =>
      dsimp only
      rw [Ports.put_slot_self]
      exact core.removeOnePort_op _
    | some dev =>
      dsimp only
      rw [Ports.put_slot_self, core.addOnePort_op]
      exact core.removeOnePort_op _
  · rw [Ports.unregister]
    cases s.isaDevs with
    | none =>
      dsimp only
      rw [Ports.put_slot_of_ne hi]
    | some dev =>
      dsimp only
      rw [Ports.put_slot_of_ne hi]

/-- **A slot is free of an operation exactly if it was so and every template it was filled from
is.** -/
theorem op_eq_none_iff (cs : List Call) (s : Ports) (i : Nat) (o : PortOp) :
    ((run core s cs).slot i).op o = none ↔
      (s.slot i).op o = none ∧ ∀ up ∈ occupants core i s cs, up.op o = none := by
  induction cs generalizing s with
  | nil => simp [run, occupants]
  | cons c cs ih =>
    have hrun : run core s (c :: cs) = run core (c.apply core s) cs := rfl
    rw [hrun, ih]
    cases c with
    | register up =>
      have hslot : ((Call.apply core s (.register up)).slot i).op o =
          if s.Takes core up i then (up.op o).or ((s.slot i).op o) else (s.slot i).op o :=
        register_op s up i o
      rw [hslot, occupants]
      by_cases h : s.Takes core up i
      · rw [if_pos h, if_pos h, Option.or_eq_none_iff, List.forall_mem_append,
          List.forall_mem_singleton]
        tauto
      · rw [if_neg h, if_neg h, List.nil_append]
    | unregister line =>
      have hslot : ((Call.apply core s (.unregister line)).slot i).op = (s.slot i).op :=
        unregister_op s line i
      rw [hslot, occupants]

end

/-! ## A successful registration -/

section

variable {core : SerialCore} {s : Ports} {up : Uart} {i : Nat}

theorem vacate_type_ne_cir {u : Uart} (hu : u.type ≠ .cir) : (Ports.vacate core u).type ≠ .cir := by
  rw [Ports.vacate]
  split
  · rw [core.removeOnePort_type]
    exact nofun
  · exact hu

theorem install_type_eq_cir_iff {u : Uart} (hu : u.type ≠ .cir) :
    (install u up).type = .cir ↔ up.IsCir := by
  show (if up.flags &&& upfFixedType ≠ 0#32 then up.type else u.type) = .cir ↔ _
  by_cases h : up.flags &&& upfFixedType ≠ 0#32
  · rw [if_pos h]
    exact ⟨fun ht => ⟨h, ht⟩, fun ht => ht.2⟩
  · rw [if_neg h]
    exact ⟨fun ht => absurd ht hu, fun ht => absurd ht.1 h⟩

theorem install_resources (u up : Uart) :
    (install u up).resources = { up.resources with
      flags := up.flags ||| upfBootAutoconf
      accessor := fun a => some ((up.accessor a).getD (defaultAccessor up.iotype a)) } := by
  rw [Uart.resources, Uart.resources]
  congr 1
  exact funext (install_accessor u up)

/-- A successful registration leaves the filled slot with the template's accessors, private data and
capabilities, whatever was there before. -/
theorem Ports.Takes.fresh (h : s.Takes core up i) (hok : 0 ≤ (s.register core up).1) :
    Installed core up ((s.register core up).2.slot i) ↔
      ∀ o, ((s.register core up).2.slot i).op o = up.op o := by
  refine ⟨fun hinst => hinst.op, fun hop => ?_⟩
  have hcir : (install (Ports.vacate core (s.slot i)) up).type = .cir ↔ up.IsCir :=
    install_type_eq_cir_iff (vacate_type_ne_cir h.2.2)
  obtain ⟨v, hv⟩ : ∃ v, v = Ports.vacate core (s.slot i) := ⟨_, rfl⟩
  have hreg := h.register
  rw [← hv] at hcir hreg
  dsimp only at hreg
  by_cases ht : (install v up).type = .cir
  · rw [if_neg (not_not_intro ht)] at hreg
    rw [hreg, put_slot_self] at hop ⊢
    refine ⟨install_accessor v up, hop, rfl, ?_⟩
    rw [if_pos (hcir.mp ht)]
    rfl
  · rw [if_pos ht] at hreg
    by_cases hret : (core.addOnePort (install v up)).1 ≠ 0
    · rw [if_pos hret] at hreg
      rw [hreg] at hok
      have hle := core.addOnePort_nonpos (install v up)
      exact absurd (Int.le_antisymm hle hok) hret
    · rw [if_neg hret] at hreg
      rw [hreg, put_slot_self] at hop ⊢
      refine ⟨fun a => ?_, hop, core.addOnePort_privateData _, ?_⟩
      · rw [← install_accessor v up]
        exact congrFun (core.addOnePort_accessor (install v up) rfl) a
      · rw [if_neg fun hc => ht (hcir.mpr hc), ← install_resources v up]
        exact core.addOnePort_capabilities _

/-- **What a slot keeps of its earlier occupants.**  From a table without optional operations, and
after any calls, a successful registration leaves its slot as the template and the defaults have it
exactly if no earlier occupant of the slot brought an operation that the template lacks. -/
theorem installed_iff (core : SerialCore) (s : Ports) (cs : List Call) (up : Uart) (i : Nat)
    (hboot : ∀ o, (s.slot i).op o = none) (htakes : (run core s cs).Takes core up i)
    (hok : 0 ≤ ((run core s cs).register core up).1) :
    Installed core up (((run core s cs).register core up).2.slot i) ↔
      ∀ o, up.op o = none → ∀ earlier ∈ occupants core i s cs, earlier.op o = none := by
  rw [htakes.fresh hok]
  constructor
  · intro hop o hnone
    have hslot := hop o
    rw [htakes.slot_op, hnone, Option.none_or] at hslot
    exact ((op_eq_none_iff cs s i o).mp hslot).2
  · intro hold o
    rw [htakes.slot_op]
    cases hup : up.op o with
    | none =>
      rw [Option.none_or]
      exact (op_eq_none_iff cs s i o).mpr ⟨hboot o, hold o hup⟩
    | some f => rfl

end

/-! ## A port reused by another driver -/

/-- A serial core that accepts every port and whose probe changes nothing. -/
def plainCore : SerialCore where
  matchPort := fun u v => u.iotype = v.iotype ∧ u.mapbase = v.mapbase
  removeOnePort := fun u => { u with type := .unknown }
  addOnePort := fun u => (0, u)
  probed := fun _ c => c
  removeOnePort_op := fun _ => rfl
  removeOnePort_type := fun _ => rfl
  addOnePort_nonpos := fun _ => Int.le_refl 0
  addOnePort_op := fun _ => rfl
  addOnePort_privateData := fun _ => rfl
  addOnePort_accessor := fun _ _ => rfl
  addOnePort_capabilities := fun _ => rfl

/-- The table after boot. -/
def bootPorts : Ports where
  slot := fun i => { line := i, dev := some 0 }
  nrUarts := 4
  isaDevs := some 0

/-- The template of a port that comes with a power management callback of its driver. -/
def dwTemplate : Uart :=
  { iotype := .mem32, mapbase := 0x18810000, uartclk := 24000000, type := .other 4,
    flags := upfFixedType, dev := some 1, privateData := 1,
    op := fun o => if o = .pm then some (.driver 0) else none }

def plainTemplate : Uart :=
  { iotype := .mem, mapbase := 0x18810100, uartclk := 24000000, type := .other 4,
    flags := upfFixedType, dev := some 2, privateData := 2 }

/-- A driver's port that comes and goes. -/
def dwComesAndGoes : List Call := [.register dwTemplate, .unregister 0]

theorem bootPorts_op (i : Nat) (o : PortOp) : (bootPorts.slot i).op o = none := rfl

/-- The driver that left the slot finds it as it was. -/
theorem installed_iff_dwTemplate :
    Installed plainCore dwTemplate
        (((run plainCore bootPorts dwComesAndGoes).register plainCore dwTemplate).2.slot 0) ↔
      ∀ o, dwTemplate.op o = none →
        ∀ earlier ∈ occupants plainCore 0 bootPorts dwComesAndGoes, earlier.op o = none :=
  installed_iff plainCore bootPorts dwComesAndGoes dwTemplate 0 (bootPorts_op 0)
    (by decide +kernel) (by decide +kernel)

/-- Another driver's port in that slot is powered by the first driver's callback. -/
theorem not_installed :
    ¬ ∀ (core : SerialCore) (s : Ports) (cs : List Call) (up : Uart) (i : Nat),
      (∀ o, (s.slot i).op o = none) → (run core s cs).Takes core up i →
        0 ≤ ((run core s cs).register core up).1 →
        Installed core up (((run core s cs).register core up).2.slot i) := by
  intro hclaim
  have hinst := hclaim plainCore bootPorts dwComesAndGoes plainTemplate 0 (bootPorts_op 0)
    (by decide +kernel) (by decide +kernel)
  have hstale : ((((run plainCore bootPorts dwComesAndGoes).register plainCore
      plainTemplate).2.slot 0).op .pm) = some (.driver 0) := by decide +kernel
  have hpm := hinst.op .pm
  rw [hstale] at hpm
  cases hpm

end RealtekIpcam.Serial
