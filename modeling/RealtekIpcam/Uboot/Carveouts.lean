import RealtekIpcam.Lib.Cells
import RealtekIpcam.Lib.DeviceTree
import RealtekIpcam.Lib.Runs

/-!
# Carveouts of the memory

A region of the memory can be set aside for a device: `fdtdec_add_reserved_memory` adds a node for
it below `/reserved-memory`, and `fdtdec_set_carveout` writes the phandle of that node into a
property of the device.  `fdtdec_get_carveout` goes the other way.  A region is given by its first
and its last address, and is stored as its first address and its size.

The model has the device tree behind the accessors of `libfdt`.  Addresses and sizes are as wide as
`phys_addr_t`, 32 or 64 bits, and nothing is translated.  A call that fails returns its error; what
it has done to the tree until then is left out.
-/

namespace RealtekIpcam.Uboot.Carveouts

open DeviceTree

def FDT_ERR_NOTFOUND : Int := 1
def FDT_ERR_BADOFFSET : Int := 4
def FDT_ERR_BADPHANDLE : Int := 6
def FDT_ERR_BADNCELLS : Int := 14
def FDT_ERR_BADVALUE : Int := 15

/-! ## Addresses -/

/-- The width of `phys_addr_t`, `fdt_addr_t` and `fdt_size_t`. -/
inductive Width where
  | bits32
  | bits64
  deriving DecidableEq

/-- `sizeof(fdt_addr_t) / sizeof(fdt32_t)`. -/
def Width.cells : Width → Nat
  | bits32 => 1
  | bits64 => 2

/-- The number of addresses. -/
def Width.range (W : Width) : Nat := 2 ^ (32 * W.cells)

/-- `FDT_ADDR_T_NONE`. -/
def Width.addrNone (W : Width) : Nat := W.range - 1

structure FdtMemory where
  start : Nat
  end_ : Nat
  deriving DecidableEq

def FdtMemory.size (W : Width) (c : FdtMemory) : Nat := (c.end_ + W.range - c.start + 1) % W.range

def upper32Bits (x : Nat) : UInt32 := UInt32.ofNat (x / 2 ^ 32)

def lower32Bits (x : Nat) : UInt32 := UInt32.ofNat x

/-- One or two cells for a number. -/
def storeCells (n : Int) (x : Nat) : List UInt32 :=
  (if 1 < n then [upper32Bits x] else []) ++ [lower32Bits x]

def fdtdecGetNumber (cells : List UInt32) : Nat := cells.foldl Cells.shiftIn 0

/-- `fdtdec_get_addr_size_fixed` for the index 0: the address, and the size, which is only set if
there is an address. -/
def getAddrSizeFixed (W : Width) (prop : Option Value) (na ns : Nat) : Nat × Nat :=
  match prop with
  | none => (W.addrNone, 0)
  | some prop =>
    if prop.cells.length < na + ns then (W.addrNone, 0)
    else (fdtdecGetNumber (prop.cells.take na) % W.range,
      fdtdecGetNumber ((prop.cells.drop na).take ns) % W.range)

/-! ## The functions -/

/-- The name of a node for a region: `snprintf` with `"%s@%x,%x"` or `"%s@%x"`, into 64 bytes. -/
def nodeName (basename : String) (na : Int) (start : Nat) : String :=
  let hex (x : UInt32) := String.ofList (Nat.toDigits 16 x.toNat)
  let name :=
    if 1 < na ∧ 0 < upper32Bits start then
      basename ++ "@" ++ hex (upper32Bits start) ++ "," ++ hex (lower32Bits start)
    else basename ++ "@" ++ hex (lower32Bits start)
  String.ofList (name.toList.take 63)

variable (F : Libfdt) (W : Width) (T : Tree)

/-- `fdtdec_init_reserved_memory`. -/
def initReservedMemory : Except Int (Tree × Nat) := do
  let na := F.addressCells (T.prop 0 "#address-cells")
  let ns := F.sizeCells (T.prop 0 "#size-cells")
  let (T, node) ← F.addSubnode T 0 "reserved-memory"
  let T ← F.setprop T node "ranges" { cells := [], rest := [] }
  let T ← F.setprop T node "#size-cells" (cell (UInt32.ofInt ns))
  let T ← F.setprop T node "#address-cells" (cell (UInt32.ofInt na))
  return (T, node)

/-- The node `/reserved-memory`, which is added if there is none. -/
def reservedMemory : Except Int (Tree × Nat) :=
  match F.pathOffset T "/reserved-memory" with
  | .ok parent => .ok (T, parent)
  | .error _ => initReservedMemory F T

/-- The comparison that is to find out whether a node is for the region. -/
def isMatch (W : Width) (reg : Option Value) (carveout : FdtMemory) : Bool :=
  let (addr, size) := getAddrSizeFixed W reg W.cells W.cells
  addr != W.addrNone && (addr == carveout.start && (addr + size) % W.range == carveout.end_)

def findMatch (parent : Nat) (carveout : FdtMemory) : Option Nat :=
  (T.children parent).find? fun node => isMatch W (T.prop node "reg") carveout

/-- A node for the region, with a phandle if it is asked for. -/
def createNode (parent : Nat) (na ns : Int) (basename : String) (carveout : FdtMemory)
    (phandlep : Bool) : Except Int (Tree × Option UInt32) := do
  let (T, node) ← F.addSubnode T parent (nodeName basename na carveout.start)
  let reg : Value :=
    { cells := storeCells na carveout.start ++ storeCells ns (carveout.size W), rest := [] }
  if phandlep = true then
    let phandle ← F.generatePhandle T
    let T ← F.setPhandle T node phandle
    let T ← F.setprop T node "reg" reg
    return (T, some phandle)
  else
    let T ← F.setprop T node "reg" reg
    return (T, none)

/-- `fdtdec_add_reserved_memory`: the tree, and `*phandlep` if there is a place for it. -/
def addReservedMemory (basename : String) (carveout : FdtMemory) (phandlep : Bool) :
    Except Int (Tree × Option UInt32) := do
  let (T, parent) ← reservedMemory F T
  let na := F.addressCells (T.prop parent "#address-cells")
  let ns := F.sizeCells (T.prop parent "#size-cells")
  if na < 1 ∨ 2 < na then .error (-FDT_ERR_BADNCELLS)
  else if ns < 1 ∨ 2 < ns then .error (-FDT_ERR_BADNCELLS)
  else
    match findMatch W T parent carveout with
    | some node => return (T, if phandlep = true then some (F.phandle T node) else none)
    | none =>
      if na ≤ 1 ∧ 0 < upper32Bits carveout.start then .error (-FDT_ERR_BADVALUE)
      else createNode F W T parent na ns basename carveout phandlep

/-- `fdtdec_get_addr_size_auto_noparent` for `reg` and the index 0. -/
def getAddrSizeAutoNoparent (node : Nat) : Nat × Nat :=
  match T.parent node with
  | none => (W.addrNone, 0)
  | some parent =>
    let na := F.addressCells (T.prop parent "#address-cells")
    let ns := F.sizeCells (T.prop parent "#size-cells")
    if na < 1 ∨ ns < 0 then (W.addrNone, 0)
    else getAddrSizeFixed W (T.prop node "reg") na.toNat ns.toNat

/-- `fdtdec_get_carveout`. -/
def getCarveout (node name : String) (index : Nat) : Except Int FdtMemory := do
  let offset ← F.pathOffset T node
  match T.prop offset name with
  | none => .error (-FDT_ERR_NOTFOUND)
  | some prop =>
    if prop.rest ≠ [] then .error (-FDT_ERR_BADPHANDLE)
    else
      match prop.cells[index]? with
      | none => .error (-FDT_ERR_BADPHANDLE)
      | some phandle =>
        let offset ← F.nodeOffsetByPhandle T phandle
        let (start, size) := getAddrSizeAutoNoparent F W T offset
        if start = W.addrNone then .error (-FDT_ERR_NOTFOUND)
        else return { start := start, end_ := (start + size + (W.range - 1)) % W.range }

/-- `fdtdec_set_carveout`. -/
def setCarveout (node propName : String) (index : Nat) (name : String) (carveout : FdtMemory) :
    Except Int Tree := do
  if 0 < index then .error (-FDT_ERR_BADOFFSET)
  else
    let (T, phandle) ← addReservedMemory F W T name carveout true
    let offset ← F.pathOffset T node
    F.setprop T offset propName (cell (phandle.getD 0))

/-- The region of a node, in the cells that its parent says. -/
def region (n : Nat) : Option FdtMemory :=
  match T.parent n, T.prop n "reg" with
  | some parent, some reg =>
    let na := (F.addressCells (T.prop parent "#address-cells")).toNat
    let ns := (F.sizeCells (T.prop parent "#size-cells")).toNat
    let start := Cells.value (reg.cells.take na)
    let size := Cells.value ((reg.cells.drop na).take ns)
    if reg.cells.length < na + ns ∨ size = 0 then none
    else some { start := start, end_ := start + size - 1 }
  | _, _ => none

/-- The node is for the region. -/
structure IsCarveout (n : Nat) (c : FdtMemory) : Prop where
  mem : n ∈ T.nodes
  below : ∃ parent, F.pathOffset T "/reserved-memory" = .ok parent ∧ T.parent n = some parent
  region_eq : region F T n = some c

/-- A region with addresses and a size that fit into `phys_addr_t`. -/
structure FdtMemory.Fits (W : Width) (c : FdtMemory) : Prop where
  le : c.start ≤ c.end_
  end_lt : c.end_ < W.range
  size_lt : c.end_ + 1 - c.start < W.range

/-- **What adding a region should do**: if there is a node for it, return its phandle and change
nothing, and otherwise give it a node of its own. -/
structure AddMeets (basename : String) (c : FdtMemory) : Prop where
  again : (∃ n, IsCarveout F T n c) →
    ∃ n, IsCarveout F T n c ∧
      addReservedMemory F W T basename c true = .ok (T, some (F.phandle T n))
  own : (¬ ∃ n, IsCarveout F T n c) → ∀ T' phandle,
    addReservedMemory F W T basename c true = .ok (T', phandle) →
    ∃ n, n ∉ T.nodes ∧ IsCarveout F T' n c ∧ phandle = some (F.phandle T' n)

/-! ## Runs -/

/-- A call of `fdtdec_set_carveout` for the index 0. -/
structure Call where
  node : String
  propName : String
  name : String
  carveout : FdtMemory

/-- A call that returns 0. -/
def step (T : Tree) (e : Call) : Option Tree :=
  (setCarveout F W T e.node e.propName 0 e.name e.carveout).toOption

/-- The node whose property the call sets. -/
def Sets (e : Call) (n : Nat) : Prop :=
  ∃ T' phandle, addReservedMemory F W T e.name e.carveout true = .ok (T', phandle) ∧
    F.pathOffset T' e.node = .ok n

/-- **What was set last is read back** after the calls: a call has set a property of a node, and no
call behind it has set the same one. -/
def RoundTrips (T₀ : Tree) (calls : List Call) (T : Tree) : Prop :=
  ∀ l e r T₁ T₂ n, calls = l ++ e :: r → Runs.exec (step F W) T₀ l = some T₁ →
    step F W T₁ e = some T₂ → Sets F W T₁ e n →
    Runs.Along (step F W) (fun T e' => ¬ (Sets F W T e' n ∧ e'.propName = e.propName)) T₂ r →
    ∀ path, F.pathOffset T path = .ok n → getCarveout F W T path e.propName 0 = .ok e.carveout

/-- The cells of the root are as wide as `fdt_size_t`. -/
def RootCells : Prop := F.sizeCells (T.prop 0 "#size-cells") = W.cells

/-- The region is not there, no node is taken for it, and its size fits into the cells of
`/reserved-memory`. -/
structure AddCond (c : FdtMemory) : Prop where
  absent : ∀ n, ¬ IsCarveout F T n c
  noMatch : ∀ parent, F.pathOffset T "/reserved-memory" = .ok parent →
    ∀ n ∈ T.children parent, isMatch W (T.prop n "reg") c = false
  wide : ∀ parent, F.pathOffset T "/reserved-memory" = .ok parent →
    c.size W < 2 ^ (32 * (F.sizeCells (T.prop parent "#size-cells")).toNat)

/-- Nothing of what the carveouts are made of is overwritten: neither a phandle, nor `reg` of a node
below `/reserved-memory`, nor the numbers of cells of that one. -/
structure WriteCond (n : Nat) (p : String) : Prop where
  phandle : ∀ v, F.phandle (T.setProp n p v) n = F.phandle T n
  reg : ∀ parent, F.pathOffset T "/reserved-memory" = .ok parent → T.parent n = some parent →
    p ≠ "reg"
  cells : F.pathOffset T "/reserved-memory" = .ok n → p ≠ "#address-cells" ∧ p ≠ "#size-cells"

/-- The condition on a call, in the state before it; the property is that of the node found once the
region has been added. -/
structure CallCond (e : Call) : Prop where
  fits : e.carveout.Fits W
  add : AddCond F W T e.carveout
  start_ne : e.carveout.start ≠ W.addrNone
  write : ∀ T' phandle n, addReservedMemory F W T e.name e.carveout true = .ok (T', phandle) →
    F.pathOffset T' e.node = .ok n → WriteCond F T' n e.propName

end RealtekIpcam.Uboot.Carveouts
