import RealtekIpcam.I2c.SlaveTrack

/-!
# The simulated EEPROM

`i2c_slave_eeprom_slave_cb` answers the events of a slave like an EEPROM.  The first bytes of a
write are the address, the others go to the buffer; a read goes on from where the address is.  The
index into the buffer is moved on only when a byte is known to have been taken, has 16 bits, and is
masked at each access.

`Memory` is what the buffer is for: cells in a circle, and a pointer that goes along it.  The
callback does what the memory does, whatever transactions come: `eeprom_memory`.  An access behind
the end of the buffer would give no result.
-/

namespace RealtekIpcam.I2c

/-! ## The callback -/

structure EepromData where
  bufferIdx : BitVec 16
  addressMask : BitVec 16
  numAddressBytes : BitVec 8
  idxWriteCnt : BitVec 8
  readOnly : Bool
  buffer : List Byte
  deriving DecidableEq

namespace EepromData

variable (e : EepromData)

/-- `eeprom->buffer_idx & eeprom->address_mask`. -/
def index : Nat := (e.bufferIdx &&& e.addressMask).toNat

/-- The byte at the index. -/
def load : Option (EepromData × Byte) := e.buffer[e.index]?.map fun val => (e, val)

/-- A byte is stored at the index, which goes on. -/
def store (val : Byte) : Option EepromData :=
  if e.index < e.buffer.length then
    some { e with buffer := e.buffer.set e.index val, bufferIdx := e.bufferIdx + 1 }
  else none

def receiveAddress (val : Byte) : EepromData :=
  let bufferIdx := if e.idxWriteCnt = 0 then 0 else e.bufferIdx
  { e with
    bufferIdx := val.setWidth 16 ||| (bufferIdx <<< 8)
    idxWriteCnt := e.idxWriteCnt + 1 }

/-- `i2c_slave_eeprom_slave_cb`, with what it leaves in `*val`. -/
def i2cSlaveEepromSlaveCb (event : I2cSlaveEvent) (val : Byte) : Option (EepromData × Byte) :=
  match event with
  | .writeReceived val =>
    if e.idxWriteCnt < e.numAddressBytes then some (e.receiveAddress val, val)
    else if e.readOnly then some (e, val)
    else (e.store val).map fun e => (e, val)
  | .readProcessed => load { e with bufferIdx := e.bufferIdx + 1 }
  | .readRequested => e.load
  | .stop => some ({ e with idxWriteCnt := 0 }, val)
  | .writeRequested => some ({ e with idxWriteCnt := 0 }, val)

end EepromData

/-- The driver is asked for a byte. -/
def I2cSlaveEvent.isRead : I2cSlaveEvent → Bool
  | .readRequested | .readProcessed => true
  | _ => false

/-- The events one after the other, and the bytes that were read. -/
def runEvents : EepromData → List I2cSlaveEvent → Option (EepromData × List Byte)
  | e, [] => some (e, [])
  | e, event :: events =>
    (e.i2cSlaveEepromSlaveCb event 0).bind fun r =>
      (runEvents r.1 events).map fun q => (q.1, if event.isRead then r.2 :: q.2 else q.2)

/-! ## The probe -/

/-- `I2C_SLAVE_DEVICE_MAGIC`, with `I2C_SLAVE_FLAG_ADDR16` and `I2C_SLAVE_FLAG_RO`. -/
def i2cSlaveDeviceMagic (len : Nat) (addr16 readOnly : Bool) : Nat :=
  (addr16.toNat <<< 16 ||| readOnly.toNat <<< 17) ||| (len - 1)

/-- What `i2c_slave_eeprom_probe` calls: `devm_kzalloc`, the property with the name of a firmware
and what `request_firmware_into_buf` loads for it, and the two registrations. -/
structure EepromProbe where
  kzalloc : Bool
  firmware : Option (Except Int (List Byte))
  sysfsCreateBinFile : Int
  slaveRegister : Int

/-- `i2c_slave_init_eeprom_data`.  The buffer was allocated with zeros. -/
def i2cSlaveInitEepromData (p : EepromProbe) (size : Nat) : Except Int (List Byte) :=
  match p.firmware with
  | some (.error ret) => .error ret
  | some (.ok fw) => .ok ((fw ++ List.replicate size 0).take size)
  | none => .ok (List.replicate size 0xff)

def ENOMEM : Int := 12

/-- `i2c_slave_eeprom_probe`, for the driver data of a device. -/
def i2cSlaveEepromProbe (p : EepromProbe) (driverData : Nat) : Except Int EepromData :=
  let size := driverData % 2 ^ 16 + 1
  if !p.kzalloc then .error (-ENOMEM)
  else
    match i2cSlaveInitEepromData p size with
    | .error ret => .error ret
    | .ok buffer =>
      if p.sysfsCreateBinFile ≠ 0 then .error p.sysfsCreateBinFile
      else if p.slaveRegister ≠ 0 then .error p.slaveRegister
      else .ok
        { bufferIdx := 0
          addressMask := BitVec.ofNat 16 (size - 1)
          numAddressBytes := if driverData.testBit 16 then 2 else 1
          idxWriteCnt := 0
          readOnly := driverData.testBit 17
          buffer := buffer }

/-! ## The memory -/

/-- Cells in a circle, and a pointer. -/
structure Memory (size : Nat) where
  cells : Fin size → Byte
  pointer : Nat

/-- The number that bytes stand for, the highest one first. -/
def bigEndian (bytes : List Byte) : Nat := bytes.foldl (fun n b => 256 * n + b.toNat) 0

namespace Memory

variable {size : Nat} [NeZero size] (m : Memory size)

/-- The cell behind the pointer by a distance. -/
def cellAt (d : Nat) : Fin size := Fin.ofNat size (m.pointer + d)

/-- A byte is stored, and the pointer goes on. -/
def store (val : Byte) : Memory size :=
  ⟨Function.update m.cells (m.cellAt 0) val, m.pointer + 1⟩

/-- The pointer is set. -/
def seek (bytes : List Byte) : Memory size :=
  if bytes = [] then m else { m with pointer := bigEndian bytes }

/-- A transaction, and the bytes that are read.  Of these the last one is not known to have been
taken. -/
def perform (addressBytes : Nat) (readOnly : Bool) : Transaction → Memory size × List Byte
  | .write vals _ =>
    let m := m.seek (vals.take addressBytes)
    (if readOnly then m else (vals.drop addressBytes).foldl store m, [])
  | .read more _ =>
    ({ m with pointer := m.pointer + more },
      (List.range (more + 1)).map fun d => m.cells (m.cellAt d))

/-- The transactions one after the other. -/
def performAll (addressBytes : Nat) (readOnly : Bool) :
    Memory size → List Transaction → Memory size × List Byte
  | m, [] => (m, [])
  | m, t :: ts =>
    let (m, vals) := m.perform addressBytes readOnly t
    let (m, more) := performAll addressBytes readOnly m ts
    (m, vals ++ more)

end Memory

/-! ## One event -/

theorem runEvents_append {e e₁ e₂ : EepromData} {xs ys : List I2cSlaveEvent} {us vs : List Byte}
    (hx : runEvents e xs = some (e₁, us)) (hy : runEvents e₁ ys = some (e₂, vs)) :
    runEvents e (xs ++ ys) = some (e₂, us ++ vs) := by
  induction xs generalizing e us with
  | nil =>
    obtain ⟨rfl, rfl⟩ := Prod.mk.inj (Option.some.inj hx)
    exact hy
  | cons x xs ih =>
    rw [List.cons_append, runEvents]
    rw [runEvents] at hx
    obtain ⟨r, hr, hrest⟩ := Option.bind_eq_some_iff.mp hx
    obtain ⟨q, hq, heq⟩ := Option.map_eq_some_iff.mp hrest
    obtain ⟨rfl, rfl⟩ := Prod.mk.inj heq
    rw [hr, Option.bind_some, ih hq, Option.map_some]
    cases x.isRead <;> rfl

theorem runEvents_singleton {e e' : EepromData} {x : I2cSlaveEvent} {val : Byte}
    (h : e.i2cSlaveEepromSlaveCb x 0 = some (e', val)) :
    runEvents e [x] = some (e', if x.isRead then [val] else []) := by
  rw [runEvents, h]
  rfl

theorem mod_add_one {x y size k : Nat} (hsize : size = 2 ^ k) (hk : k ≤ 16)
    (h : x % size = y % size) : (x + 1) % 2 ^ 16 % size = (y + 1) % size := by
  have hdvd : size ∣ 2 ^ 16 := hsize ▸ Nat.pow_dvd_pow 2 hk
  rw [Nat.mod_mod_of_dvd _ hdvd, Nat.add_mod, h, ← Nat.add_mod]

theorem toNat_assemble (val : Byte) (idx : BitVec 16) :
    (val.setWidth 16 ||| idx <<< 8).toNat = 256 * (idx.toNat % 256) + val.toNat := by
  have hval : val.toNat % 2 ^ 16 = val.toNat := Nat.mod_eq_of_lt (val.isLt.trans (by decide))
  have hshift : idx.toNat <<< 8 % 2 ^ 16 = 2 ^ 8 * (idx.toNat % 256) := by
    rw [Nat.shiftLeft_eq]
    omega
  rw [BitVec.toNat_or, BitVec.toNat_setWidth, BitVec.toNat_shiftLeft, hval, hshift, Nat.or_comm,
    ← Nat.two_pow_add_eq_or_of_lt val.isLt]

section Sim

variable {size k n : Nat} [NeZero size] {readOnly : Bool} {e : EepromData} {m : Memory size}

/-- The callback's data stands for a memory. -/
structure Sim (n : Nat) (readOnly : Bool) (e : EepromData) (m : Memory size) : Prop where
  mask : e.addressMask.toNat = size - 1
  addressBytes : e.numAddressBytes.toNat = n
  readOnly : e.readOnly = readOnly
  buffer : e.buffer = List.ofFn m.cells
  index : e.bufferIdx.toNat % size = m.pointer % size

theorem Sim.index_eq (h : Sim n readOnly e m) (hsize : size = 2 ^ k) :
    e.index = (m.cellAt 0).val := by
  have hand : (e.bufferIdx &&& e.addressMask).toNat = e.bufferIdx.toNat % size := by
    rw [BitVec.toNat_and, h.mask, hsize, Nat.and_two_pow_sub_one_eq_mod]
  exact hand.trans h.index

theorem Sim.load (h : Sim n readOnly e m) (hsize : size = 2 ^ k) :
    e.load = some (e, m.cells (m.cellAt 0)) := by
  have hget : e.buffer[(m.cellAt 0).val]? = some (m.cells (m.cellAt 0)) := by
    rw [h.buffer]
    simp
  rw [EepromData.load, h.index_eq hsize, hget]
  rfl

omit [NeZero size] in
theorem Sim.advance (h : Sim n readOnly e m) (hsize : size = 2 ^ k) (hk : k ≤ 16) :
    Sim n readOnly { e with bufferIdx := e.bufferIdx + 1 }
      { m with pointer := m.pointer + 1 } := by
  refine ⟨h.mask, h.addressBytes, h.readOnly, h.buffer, ?_⟩
  show (e.bufferIdx + 1).toNat % size = (m.pointer + 1) % size
  rw [BitVec.toNat_add]
  exact mod_add_one hsize hk h.index

theorem Sim.store (h : Sim n readOnly e m) (hsize : size = 2 ^ k) (hk : k ≤ 16) (val : Byte) :
    ∃ e', e.store val = some e' ∧ Sim n readOnly e' (m.store val) ∧
      e'.idxWriteCnt = e.idxWriteCnt := by
  have hlt : e.index < e.buffer.length := by
    rw [h.index_eq hsize, h.buffer, List.length_ofFn]
    exact (m.cellAt 0).isLt
  refine ⟨_, if_pos hlt, ⟨h.mask, h.addressBytes, h.readOnly, ?_, (h.advance hsize hk).index⟩, rfl⟩
  show e.buffer.set e.index val = List.ofFn (Function.update m.cells (m.cellAt 0) val)
  rw [h.index_eq hsize, h.buffer]
  refine List.ext_getElem (by simp) fun i hi _ => ?_
  rw [List.getElem_set, List.getElem_ofFn, List.getElem_ofFn, Function.update_apply]
  by_cases hc : (m.cellAt 0).val = i
  · rw [if_pos hc, if_pos (Fin.ext hc.symm)]
  · rw [if_neg hc, if_neg fun heq => hc (congrArg Fin.val heq).symm]

/-! ## A transaction -/

theorem Sim.data (h : Sim n readOnly e m) (hsize : size = 2 ^ k) (hk : k ≤ 16)
    (hcnt : n ≤ e.idxWriteCnt.toNat) (vals : List Byte) :
    ∃ e', runEvents e (vals.map .writeReceived) = some (e', []) ∧
      Sim n readOnly e' (if readOnly then m else vals.foldl Memory.store m) := by
  induction vals generalizing e m with
  | nil => exact ⟨e, rfl, by cases readOnly <;> exact h⟩
  | cons val vals ih =>
    have haddr : ¬ e.idxWriteCnt < e.numAddressBytes := by
      rw [BitVec.lt_def, h.addressBytes]
      exact Nat.not_lt.mpr hcnt
    cases hro : readOnly with
    | true =>
      have hcb : e.i2cSlaveEepromSlaveCb (.writeReceived val) 0 = some (e, val) := by
        simp [EepromData.i2cSlaveEepromSlaveCb, haddr, h.readOnly, hro]
      obtain ⟨e', hrun, hsim⟩ := ih h hcnt
      rw [hro] at hsim
      exact ⟨e', runEvents_append (runEvents_singleton hcb) hrun, hsim⟩
    | false =>
      obtain ⟨e₁, hstore, hsim₁, hcnt₁⟩ := h.store hsize hk val
      have hcb : e.i2cSlaveEepromSlaveCb (.writeReceived val) 0 = some (e₁, val) := by
        simp [EepromData.i2cSlaveEepromSlaveCb, haddr, h.readOnly, hro, hstore]
      obtain ⟨e', hrun, hsim⟩ := ih hsim₁ (hcnt₁ ▸ hcnt)
      rw [hro] at hsim
      exact ⟨e', runEvents_append (runEvents_singleton hcb) hrun, hsim⟩

theorem Sim.processed (h : Sim n readOnly e m) (hsize : size = 2 ^ k) (hk : k ≤ 16) (more : Nat) :
    ∃ e', runEvents e (List.replicate more .readProcessed) =
        some (e', (List.range more).map fun d => m.cells (m.cellAt (d + 1))) ∧
      Sim n readOnly e' { m with pointer := m.pointer + more } := by
  induction more with
  | zero => exact ⟨e, rfl, h⟩
  | succ more ih =>
    obtain ⟨e₁, hrun, hsim⟩ := ih
    have hnext := hsim.advance hsize hk
    have hcb : e₁.i2cSlaveEepromSlaveCb .readProcessed 0 =
        some ({ e₁ with bufferIdx := e₁.bufferIdx + 1 }, m.cells (m.cellAt (more + 1))) :=
      hnext.load hsize
    refine ⟨_, ?_, hnext⟩
    rw [List.replicate_succ', List.range_succ, List.map_append]
    exact runEvents_append hrun (runEvents_singleton hcb)

omit [NeZero size] in
theorem Sim.receive (h : Sim n readOnly e m) (hcnt : e.idxWriteCnt.toNat < n) (hn : n ≤ 2)
    (val : Byte) :
    let idx := if e.idxWriteCnt.toNat = 0 then 0 else e.bufferIdx.toNat
    ∃ e', runEvents e [.writeReceived val] = some (e', []) ∧
      Sim n readOnly e' { m with pointer := 256 * (idx % 256) + val.toNat } ∧
      e'.bufferIdx.toNat = 256 * (idx % 256) + val.toNat ∧
      e'.idxWriteCnt.toNat = e.idxWriteCnt.toNat + 1 := by
  have haddr : e.idxWriteCnt < e.numAddressBytes := by
    rw [BitVec.lt_def, h.addressBytes]
    exact hcnt
  have hidx : (e.receiveAddress val).bufferIdx.toNat =
      256 * ((if e.idxWriteCnt.toNat = 0 then 0 else e.bufferIdx.toNat) % 256) + val.toNat := by
    refine (toNat_assemble _ _).trans ?_
    by_cases hzero : e.idxWriteCnt = 0
    · have hnat : e.idxWriteCnt.toNat = 0 := congrArg BitVec.toNat hzero
      rw [if_pos hzero, if_pos hnat]
      rfl
    · have hnat : ¬ e.idxWriteCnt.toNat = 0 := fun h0 => hzero (BitVec.eq_of_toNat_eq h0)
      rw [if_neg hzero, if_neg hnat]
  have hcb : e.i2cSlaveEepromSlaveCb (.writeReceived val) 0 = some (e.receiveAddress val, val) :=
    if_pos haddr
  refine ⟨e.receiveAddress val, runEvents_singleton hcb,
    ⟨h.mask, h.addressBytes, h.readOnly, h.buffer, congrArg (· % size) hidx⟩, hidx, ?_⟩
  show (e.idxWriteCnt + 1).toNat = _
  have hone : (1 : BitVec 8).toNat = 1 := rfl
  rw [BitVec.toNat_add, hone]
  exact Nat.mod_eq_of_lt (by omega)

/-- A write refines the writes of its bytes. -/
theorem Sim.write (h : Sim n readOnly e m) (hsize : size = 2 ^ k) (hk : k ≤ 16)
    (hn : n = 1 ∨ n = 2) (vals : List Byte) (stop : Bool) :
    ∃ e', runEvents e (.writeRequested :: vals.map .writeReceived) = some (e', []) ∧
      Sim n readOnly e' (m.perform n readOnly (.write vals stop)).1 := by
  have hcb : e.i2cSlaveEepromSlaveCb .writeRequested 0 =
      some ({ e with idxWriteCnt := 0 }, 0) := rfl
  have hstart : Sim n readOnly { e with idxWriteCnt := 0 } m := { h with }
  have hn2 : n ≤ 2 := by omega
  suffices hrest : ∃ e', runEvents { e with idxWriteCnt := 0 } (vals.map .writeReceived) =
      some (e', []) ∧ Sim n readOnly e' (m.perform n readOnly (.write vals stop)).1 by
    obtain ⟨e', hrun, hsim⟩ := hrest
    exact ⟨e', runEvents_append (runEvents_singleton hcb) hrun, hsim⟩
  cases vals with
  | nil =>
    refine ⟨_, rfl, ?_⟩
    have hm : (m.perform n readOnly (.write [] stop)).1 = m := by
      cases readOnly <;> simp [Memory.perform, Memory.seek]
    rw [hm]
    exact hstart
  | cons a vals =>
    obtain ⟨e₁, hrun₁, hsim₁, hidx₁, hcnt₁⟩ := hstart.receive (show 0 < n by omega) hn2 a
    have hcnt₁ : e₁.idxWriteCnt.toNat = 1 := hcnt₁
    rcases hn with rfl | rfl
    · obtain ⟨e', hrun, hsim⟩ := hsim₁.data hsize hk (Nat.le_of_eq hcnt₁.symm) vals
      refine ⟨e', runEvents_append hrun₁ hrun, ?_⟩
      simpa [Memory.perform, Memory.seek, bigEndian] using hsim
    · cases vals with
      | nil =>
        refine ⟨e₁, hrun₁, ?_⟩
        simpa [Memory.perform, Memory.seek, bigEndian] using hsim₁
      | cons b vals =>
        have hlt : e₁.idxWriteCnt.toNat < 2 := by omega
        obtain ⟨e₂, hrun₂, hsim₂, -, hcnt₂⟩ := hsim₁.receive hlt hn2 b
        have hle : 2 ≤ e₂.idxWriteCnt.toNat := by omega
        obtain ⟨e', hrun, hsim⟩ := hsim₂.data hsize hk hle vals
        refine ⟨e', runEvents_append hrun₁ (runEvents_append hrun₂ hrun), ?_⟩
        have hptr : 256 * ((if e₁.idxWriteCnt.toNat = 0 then 0 else e₁.bufferIdx.toNat) % 256) +
            b.toNat = bigEndian [a, b] := by
          have ha := a.isLt
          rw [hcnt₁, hidx₁]
          simp [bigEndian]
          omega
        rw [hptr] at hsim
        simpa [Memory.perform, Memory.seek] using hsim

theorem Sim.perform (h : Sim n readOnly e m) (hsize : size = 2 ^ k) (hk : k ≤ 16)
    (hn : n = 1 ∨ n = 2) (t : Transaction) :
    ∃ e', runEvents e t.events = some (e', (m.perform n readOnly t).2) ∧
      Sim n readOnly e' (m.perform n readOnly t).1 := by
  have hstop : ∀ {e₁ : EepromData} {m₁ : Memory size} (stop : Bool), Sim n readOnly e₁ m₁ →
      ∃ e', runEvents e₁ (if stop then [.stop] else []) = some (e', []) ∧
        Sim n readOnly e' m₁ := by
    intro e₁ m₁ stop h₁
    cases stop with
    | false => exact ⟨e₁, rfl, h₁⟩
    | true => exact ⟨_, rfl, { h₁ with }⟩
  cases t with
  | write vals stop =>
    obtain ⟨e₁, hrun₁, hsim₁⟩ := h.write hsize hk hn vals stop
    obtain ⟨e', hrun, hsim⟩ := hstop stop hsim₁
    exact ⟨e', runEvents_append hrun₁ hrun, hsim⟩
  | read more stop =>
    obtain ⟨e₁, hrun₁, hsim₁⟩ := h.processed hsize hk more
    have hcb : e.i2cSlaveEepromSlaveCb .readRequested 0 = some (e, m.cells (m.cellAt 0)) :=
      h.load hsize
    obtain ⟨e', hrun, hsim⟩ := hstop stop hsim₁
    refine ⟨e', ?_, hsim⟩
    have hall := runEvents_append (runEvents_append (runEvents_singleton hcb) hrun₁) hrun
    refine hall.trans (congrArg some (Prod.ext rfl ?_))
    show [m.cells (m.cellAt 0)] ++ _ ++ [] = (List.range (more + 1)).map _
    rw [List.append_nil, List.range_succ_eq_map, List.map_cons, List.map_map]
    rfl

theorem Sim.performAll (h : Sim n readOnly e m) (hsize : size = 2 ^ k) (hk : k ≤ 16)
    (hn : n = 1 ∨ n = 2) (ts : List Transaction) :
    ∃ e', runEvents e (ts.flatMap Transaction.events) =
        some (e', (m.performAll n readOnly ts).2) ∧
      Sim n readOnly e' (m.performAll n readOnly ts).1 := by
  induction ts generalizing e m with
  | nil => exact ⟨e, rfl, h⟩
  | cons t ts ih =>
    obtain ⟨e₁, hrun₁, hsim₁⟩ := h.perform hsize hk hn t
    obtain ⟨e', hrun, hsim⟩ := ih hsim₁
    exact ⟨e', runEvents_append hrun₁ hrun, hsim⟩

end Sim

/-! ## From the probe on -/

theorem magic_size {len : Nat} (hlen : len - 1 < 2 ^ 16) (addr16 readOnly : Bool) :
    i2cSlaveDeviceMagic len addr16 readOnly % 2 ^ 16 = len - 1 := by
  have hflags : (addr16.toNat <<< 16 ||| readOnly.toNat <<< 17) % 2 ^ 16 = 0 := by
    cases addr16 <;> cases readOnly <;> rfl
  rw [i2cSlaveDeviceMagic, Nat.or_mod_two_pow, hflags, Nat.mod_eq_of_lt hlen, Nat.zero_or]

theorem magic_flags {len : Nat} (hlen : len - 1 < 2 ^ 16) (addr16 readOnly : Bool) :
    (i2cSlaveDeviceMagic len addr16 readOnly).testBit 16 = addr16 ∧
      (i2cSlaveDeviceMagic len addr16 readOnly).testBit 17 = readOnly := by
  have h16 : (len - 1).testBit 16 = false := Nat.testBit_lt_two_pow hlen
  have h17 : (len - 1).testBit 17 = false :=
    Nat.testBit_lt_two_pow (hlen.trans (by decide))
  unfold i2cSlaveDeviceMagic
  simp only [Nat.testBit_or, h16, h17]
  cases addr16 <;> cases readOnly <;> exact ⟨rfl, rfl⟩

theorem length_initEepromData {p : EepromProbe} {size : Nat} {buffer : List Byte}
    (h : i2cSlaveInitEepromData p size = .ok buffer) : buffer.length = size := by
  unfold i2cSlaveInitEepromData at h
  split at h
  · cases h
  · cases h
    simp
  · cases h
    simp

/-- The EEPROM that a probe makes. -/
theorem probe_spec {p : EepromProbe} {size : Nat} {addr16 readOnly : Bool} {e : EepromData}
    (hpos : 0 < size) (hsize : size ≤ 2 ^ 16)
    (h : i2cSlaveEepromProbe p (i2cSlaveDeviceMagic size addr16 readOnly) = .ok e) :
    e.addressMask.toNat = size - 1 ∧ e.numAddressBytes.toNat = (if addr16 then 2 else 1) ∧
      e.readOnly = readOnly ∧ e.bufferIdx = 0 ∧ e.buffer.length = size := by
  have hlen : size - 1 < 2 ^ 16 := by omega
  obtain ⟨h16, h17⟩ := magic_flags hlen addr16 readOnly
  unfold i2cSlaveEepromProbe at h
  simp only [magic_size hlen, h16, h17, Nat.sub_add_cancel hpos] at h
  split at h
  · cases h
  · split at h
    · cases h
    · next buffer hbuffer =>
      split at h
      · cases h
      · split at h
        · cases h
        · cases h
          refine ⟨Nat.mod_eq_of_lt hlen, ?_, rfl, rfl, length_initEepromData hbuffer⟩
          cases addr16 <;> rfl

/-- **The EEPROM is a memory.**  After any transactions the bytes that were read and the buffer are
those of the memory, and no access was behind the end. -/
theorem eeprom_memory {k : Nat} (hk : k ≤ 16) (addr16 readOnly : Bool) {p : EepromProbe}
    {e : EepromData}
    (hprobe : i2cSlaveEepromProbe p (i2cSlaveDeviceMagic (2 ^ k) addr16 readOnly) = .ok e)
    (ts : List Transaction) :
    ∃ cells : Fin (2 ^ k) → Byte, e.buffer = List.ofFn cells ∧
      let r := Memory.performAll (if addr16 then 2 else 1) readOnly ⟨cells, 0⟩ ts
      ∃ e', runEvents e (ts.flatMap Transaction.events) = some (e', r.2) ∧
        e'.buffer = List.ofFn r.1.cells := by
  obtain ⟨hmask, haddr, hro, hidx, hlength⟩ :=
    probe_spec (Nat.two_pow_pos k) (Nat.pow_le_pow_right (by decide) hk) hprobe
  have hcells : e.buffer = List.ofFn fun i : Fin (2 ^ k) => e.buffer.get (i.cast hlength.symm) := by
    refine List.ext_getElem (by simp [hlength]) fun i _ _ => ?_
    rw [List.getElem_ofFn]
    rfl
  have hsim : Sim (if addr16 then 2 else 1) readOnly e
      ⟨fun i : Fin (2 ^ k) => e.buffer.get (i.cast hlength.symm), 0⟩ :=
    ⟨hmask, haddr, hro, hcells, by rw [hidx]; rfl⟩
  obtain ⟨e', hrun, hsim'⟩ := hsim.performAll rfl hk (by cases addr16 <;> simp) ts
  exact ⟨_, hcells, e', hrun, hsim'.buffer⟩

def fourBytes : EepromProbe := ⟨true, some (.ok [10, 11, 12, 13]), 0, 0⟩

/-- A write that goes around the end. -/
def aroundTheEnd : List Transaction := [.write [3, 20, 21] false, .read 1 true]

theorem eeprom_memory_fourBytes :
    let e : EepromData := ⟨0, 3, 1, 0, false, [10, 11, 12, 13]⟩
    i2cSlaveEepromProbe fourBytes (i2cSlaveDeviceMagic (2 ^ 2) false false) = .ok e ∧
      ∃ cells : Fin (2 ^ 2) → Byte, e.buffer = List.ofFn cells ∧
        let r := Memory.performAll 1 false ⟨cells, 0⟩ aroundTheEnd
        ∃ e', runEvents e (aroundTheEnd.flatMap Transaction.events) = some (e', r.2) ∧
          e'.buffer = List.ofFn r.1.cells := by
  have hprobe : i2cSlaveEepromProbe fourBytes (i2cSlaveDeviceMagic (2 ^ 2) false false) =
      .ok ⟨0, 3, 1, 0, false, [10, 11, 12, 13]⟩ := rfl
  exact ⟨hprobe, eeprom_memory (by decide) false false hprobe aroundTheEnd⟩

end RealtekIpcam.I2c
