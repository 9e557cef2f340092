import RealtekIpcam.Lib.Cells
import RealtekIpcam.Uboot.Gpio

/-!
# Memory banks from the device tree

The device tree describes the memory by nodes whose `reg` property is a list of ranges.  An address
and a size take as many cells as the parent of the node says.  `fdt_get_resource` finds a range by
its index, with a pointer that goes through the property; `fdtdec_setup_memory_banksize_fdt` goes
through the ranges of a node, then to the next node that is enabled, and fills in the table of
banks.

The nodes are those with the device type of memory, in the order of the tree, and each comes with
what the accessors return for it.  A number of cells can be an error, and then the pointer goes
anywhere: pointers are offsets from the start of the property, and what is read is logged.
-/

namespace RealtekIpcam.Uboot.MemoryBanks

open Gpio (EINVAL)

/-! ## The tree -/

/-- `CONFIG_NR_DRAM_BANKS`, and whether physical addresses have 64 bits. -/
structure Config where
  nrDramBanks : Nat
  phys64 : Bool

/-- The numbers of an address type. -/
def Config.range (C : Config) : Nat := if C.phys64 = true then 2 ^ 64 else 2 ^ 32

/-- What `fdt_address_cells` and `fdt_size_cells` return for a parent: a number, or a negative
error. -/
structure ParentCells where
  na : Int
  ns : Int
  na_ne : na ≠ 0
  na_range : -2 ^ 31 ≤ na ∧ na < 2 ^ 31
  ns_range : -2 ^ 31 ≤ ns ∧ ns < 2 ^ 31

/-- A property in memory: its whole words, and the words around it. -/
structure Property where
  words : List UInt32
  elsewhere : Int → UInt32
  /-- The property is not longer than memory. -/
  length_lt : words.length < 2 ^ 30

/-- A memory node; only the root has no parent. -/
structure Node where
  status : Option String
  parent : Option ParentCells
  reg : Option Property

/-- `fdtdec_get_is_enabled`. -/
def Node.isEnabled (m : Node) : Bool :=
  match m.status with
  | some cell => decide (cell = "okay")
  | none => true

/-! ## Resources -/

def Property.read (p : Property) (x : Int) : UInt32 :=
  if 0 ≤ x then p.words.getD x.toNat (p.elsewhere x) else p.elsewhere x

/-- What `fdtdec_get_number` reads: the number of cells is an `unsigned int`. -/
def numberReads (ptr cells : Int) : List Int :=
  (List.range (cells % 2 ^ 32).toNat).map fun i : Nat => ptr + i

def fdtdecGetNumber (p : Property) (ptr cells : Int) : Nat :=
  ((numberReads ptr cells).map p.read).foldl Cells.shiftIn 0

/-- `struct fdt_resource`. -/
structure Resource where
  start : Nat
  end_ : Nat

/-- What `fdt_get_resource` does: the resource, or `-FDT_ERR_NOTFOUND`, and what it reads. -/
structure Access where
  res : Option Resource
  reads : List Int

/-- The resource under the pointer. -/
def resourceAt (C : Config) (p : Property) (c : ParentCells) (ptr : Int) : Access :=
  let start := fdtdecGetNumber p ptr c.na % C.range
  let size := fdtdecGetNumber p (ptr + c.na) c.ns
  { res := some { start := start, end_ := (start + (size + (2 ^ 64 - 1)) % 2 ^ 64) % C.range }
    reads := numberReads ptr c.na ++ numberReads (ptr + c.na) c.ns }

/-- The loop of `fdt_get_resource`, with so many resources still to be passed. -/
def scan (C : Config) (p : Property) (c : ParentCells) : Nat → Int → Access
  | 0, ptr =>
    if ptr + c.na + c.ns ≤ p.words.length then resourceAt C p c ptr
    else { res := none, reads := [] }
  | left + 1, ptr =>
    if ptr + c.na + c.ns ≤ p.words.length then scan C p c left (ptr + (c.na + c.ns))
    else { res := none, reads := [] }

/-- `fdt_get_resource` for `reg`. -/
def fdtGetResource (C : Config) (m : Node) (index : Nat) : Access :=
  match m.parent, m.reg with
  | some c, some p => scan C p c index 0
  | _, _ => { res := none, reads := [] }

/-! ## Banks -/

/-- An entry of `bi_dram`. -/
structure Bank where
  start : Nat
  size : Nat
  deriving DecidableEq

/-- `get_next_memory_node`, among the nodes that follow; an error counts as enabled. -/
def getNextMemoryNode : List Node → Option (Node × List Node)
  | [] => none
  | m :: rest => if m.isEnabled = true then some (m, rest) else getNextMemoryNode rest

def bankOf (C : Config) (res : Resource) : Bank where
  start := res.start % C.range
  size := (res.end_ + C.range - res.start + 1) % C.range

/-- The loop of `fdtdec_setup_memory_banksize_fdt`, with so many banks left. -/
def fillBanks (C : Config) : Nat → Nat → Node → List Node → Nat → (Nat → Bank) → Int × (Nat → Bank)
  | 0, _, _, _, _, dram => (0, dram)
  | left + 1, bank, mem, rest, reg, dram =>
    match (fdtGetResource C mem reg).res with
    | some res =>
      fillBanks C left (bank + 1) mem rest (reg + 1) (Function.update dram bank (bankOf C res))
    | none =>
      match getNextMemoryNode rest with
      | none => (0, dram)
      | some (mem, rest) =>
        match (fdtGetResource C mem 0).res with
        | some res =>
          fillBanks C left (bank + 1) mem rest 1 (Function.update dram bank (bankOf C res))
        | none => (0, dram)

/-- `fdtdec_setup_memory_banksize_fdt`: the value, and `bi_dram` after it. -/
def setupMemoryBanksize (C : Config) (nodes : List Node) (dram : Nat → Bank) :
    Int × (Nat → Bank) :=
  match getNextMemoryNode nodes with
  | none => (-EINVAL, dram)
  | some (mem, rest) => fillBanks C C.nrDramBanks 0 mem rest 0 dram

/-! ## What the tree says -/

/-- The ranges in the words of a `reg` property. -/
def ranges (C : Config) (na ns : Nat) (words : List UInt32) : List Bank :=
  (List.range (words.length / (na + ns))).map fun i =>
    { start := Cells.value ((words.drop (i * (na + ns))).take na) % C.range
      size := Cells.value ((words.drop (i * (na + ns) + na)).take ns) % C.range }

def Node.entries (C : Config) (m : Node) : List Bank :=
  match m.parent, m.reg with
  | some c, some p =>
    if 0 ≤ c.na ∧ 0 ≤ c.ns then ranges C c.na.toNat c.ns.toNat p.words else []
  | _, _ => []

/-- The memory nodes that are enabled. -/
def enabled (nodes : List Node) : List Node := nodes.filter Node.isEnabled

/-- The entries of all memory nodes that are enabled. -/
def entries (C : Config) (nodes : List Node) : List Bank := (enabled nodes).flatMap (Node.entries C)

/-- **What is promised**: only words of the property are read, and the banks are the first entries,
whatever there was in the table before. -/
structure Meets (C : Config) (nodes : List Node) : Prop where
  reads : ∀ m ∈ nodes, ∀ p, m.reg = some p → ∀ index, ∀ x ∈ (fdtGetResource C m index).reads,
    0 ≤ x ∧ x < p.words.length
  banks : ∀ dram, (setupMemoryBanksize C nodes dram).1 ≠ 0 ∨
    ∀ i (hi : i < (entries C nodes).length), i < C.nrDramBanks →
      (setupMemoryBanksize C nodes dram).2 i = (entries C nodes)[i]

end RealtekIpcam.Uboot.MemoryBanks
