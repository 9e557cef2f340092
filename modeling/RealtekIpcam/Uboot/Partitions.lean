import RealtekIpcam.Lib.Forest
import RealtekIpcam.Lib.Words

/-!
# The partitions of the device tree

The update commands take the place and the size of a partition from the device tree: below the node
`partitions` they look for the node with a given label and read a cell of its `reg`.

`fdt_node_offset_by_label` goes through the nodes in document order from `partitions` on and keeps
no count of the depth, so that behind the last partition it goes on with the nodes that follow in
the tree.  A label that no partition carries may then be found on a node that is none.  And
`get_dtb_data_of_size` reads the second cell of any `reg` whose length is a multiple of four, also
of one with a single cell.  `partitionLookup_iff` says that these are the only ways out of the
partitions.
-/

namespace RealtekIpcam.Uboot

open Forest

/-! ## The tree and libfdt -/

/-- A node of a device tree. -/
structure FdtNode where
  name : String
  props : List (String × List UInt8)
  deriving DecidableEq

/-- A device tree; the offset of a node stands for its place in document order. -/
structure Fdt where
  root : FdtNode
  nodes : Forest FdtNode

def FDT_ERR_NOTFOUND : Int := 1

def FDT_ERR_BADOFFSET : Int := 4

namespace Fdt

/-- The tree with its root. -/
def forest (t : Fdt) : Forest FdtNode := .cons t.root t.nodes .nil

/-- `fdt_next_node` without a depth: the next node in document order. -/
def fdtNextNode (t : Fdt) (offset : Nat) : Except Int Nat :=
  if offset + 1 < t.forest.size then .ok (offset + 1) else .error (-FDT_ERR_NOTFOUND)

/-- `fdt_getprop`: the value of a property, or what it leaves in `len`. -/
def fdtGetprop (t : Fdt) (offset : Nat) (name : String) : Except Int (List UInt8) :=
  match t.forest.preorder[offset]? with
  | none => .error (-FDT_ERR_BADOFFSET)
  | some node =>
    match node.props.lookup name with
    | none => .error (-FDT_ERR_NOTFOUND)
    | some prop => .ok prop

end Fdt

/-- The rest of libfdt that the lookup uses. -/
structure Libfdt where
  /-- `fdt_path_offset`, as the walk to the node of this path. -/
  path : Fdt → String → Option (List Step)
  /-- `fdt_stringlist_contains`. -/
  stringlistContains : List UInt8 → String → Bool
  /-- A path leads to a node. -/
  path_node : ∀ t pathp π, path t pathp = some π → ∃ node c s, t.forest.walk π = .cons node c s

/-- What a lookup returns, and the bytes it has read of the value of `reg`: the node, and the place
in the value. -/
structure PartitionRead where
  ret : Int
  reads : List (Nat × Nat)
  deriving DecidableEq

/-- The tree that a lookup goes by, and where: `kernel_fdt` if it is valid, or else the one that is
copied from flash, and the memory behind a property. -/
structure PartitionSource where
  /-- `kernel_fdt`, if it is set and valid. -/
  kernelFdt : Option Fdt
  /-- What `dma_copy_dtb_to_ddr` and its siblings copy, if it is valid. -/
  copied : Option Fdt
  /-- `CONFIG_RTS_EMMC_BOOT`. -/
  emmcBoot : Bool
  /-- What a read beyond the value of a property finds. -/
  beyond : Nat → UInt8

/-! ## `cmd_update.c` -/

/-- The byte `i` at the value of a property. -/
def byteOf (beyond : Nat → UInt8) (data : List UInt8) (i : Nat) : UInt8 := data.getD i (beyond i)

/-- `fdt32_to_cpu(p[k])`. -/
def fdt32 (bytes : Nat → UInt8) (k : Nat) : UInt32 :=
  Words.le32 (bytes (4 * k + 3)) (bytes (4 * k + 2)) (bytes (4 * k + 1)) (bytes (4 * k))

/-- The cell `k` at the value of a property, as `get_dtb_data_of_offset` and `get_dtb_data_of_size`
fetch it, and the bytes they read. -/
def getDtbData (k : Nat) (beyond : Nat → UInt8) (data : List UInt8) : UInt32 × List Nat :=
  if data.length = 0 then (-1, [])
  else if data.length % 4 = 0 then
    (fdt32 (byteOf beyond data) k, [4 * k, 4 * k + 1, 4 * k + 2, 4 * k + 3])
  else (-1, [])

def getDtbDataOfOffset := getDtbData 0

def getDtbDataOfSize := getDtbData 1

/-- The `int` that a word is assigned to, and 0 in place of a negative one. -/
def nonNegative (w : UInt32) : Int := if w.toBitVec.toInt < 0 then 0 else w.toBitVec.toInt

def PartitionSource.pathp (src : PartitionSource) : String :=
  if src.emmcBoot then "/soc/mmc_sdhc/partitions" else "/soc/spic/partitions"

/-- The tree after it has been copied, if it had to be. -/
def PartitionSource.fdt (src : PartitionSource) : Option Fdt :=
  match src.kernelFdt with
  | some t => some t
  | none => src.copied

namespace Libfdt

variable (lib : Libfdt)

def fdtNodeCheckLabel (t : Fdt) (nodeoffset : Nat) (label : String) : Int :=
  match t.fdtGetprop nodeoffset "label" with
  | .error len => len
  | .ok prop => if lib.stringlistContains prop label then 0 else 1

/-- The loop of `fdt_node_offset_by_label`.  There is no result when the fuel is used up. -/
def labelLoop (t : Fdt) (label : String) : Nat → Except Int Nat → Option (Except Int Nat)
  | 0, _ => none
  | _ + 1, .error e => some (.error e)
  | fuel + 1, .ok offset =>
    let err := lib.fdtNodeCheckLabel t offset label
    if err < 0 ∧ err ≠ -FDT_ERR_NOTFOUND then some (.error err)
    else if err = 0 then some (.ok offset)
    else labelLoop t label fuel (t.fdtNextNode offset)

def fdtNodeOffsetByLabel (t : Fdt) (startoffset : Nat) (label : String) :
    Option (Except Int Nat) :=
  lib.labelLoop t label (t.forest.size + 1) (t.fdtNextNode startoffset)

/-- `_do_get_offset` and `_do_get_size`, by the function that fetches the cell. -/
def doGet (fetch : (Nat → UInt8) → List UInt8 → UInt32 × List Nat) (src : PartitionSource)
    (label : String) : Option PartitionRead :=
  match src.fdt with
  | none => some ⟨0, []⟩
  | some t =>
    match lib.path t src.pathp with
    | none => some ⟨0, []⟩
    | some π =>
      (lib.fdtNodeOffsetByLabel t (t.forest.offset π) label).map fun
        | .error _ => ⟨0, []⟩
        | .ok nodeoffset =>
          if nodeoffset = 0 then ⟨0, []⟩
          else
            match t.fdtGetprop nodeoffset "reg" with
            | .error _ => ⟨0, []⟩
            | .ok nodep =>
              if nodep.length > 0 then
                let (cell, bytes) := fetch src.beyond nodep
                ⟨nonNegative cell, bytes.map fun i => (nodeoffset, i)⟩
              else ⟨0, []⟩

def doGetOffset := lib.doGet getDtbDataOfOffset

def doGetSize := lib.doGet getDtbDataOfSize

/-! ## What a lookup is to do -/

/-- The node carries the label. -/
def Labelled (label : String) (node : FdtNode) : Prop :=
  ∃ prop, node.props.lookup "label" = some prop ∧ lib.stringlistContains prop label = true

/-- A partition with this label: a node below the partitions that carries it. -/
def Partition (src : PartitionSource) (label : String) (offset : Nat) (node : FdtNode) : Prop :=
  ∃ t π, src.fdt = some t ∧ lib.path t src.pathp = some π ∧ t.forest.Below π offset node ∧
    lib.Labelled label node

/-- The cell `k` of the `reg` of a node, if there is one. -/
def regCell (k : Nat) (node : FdtNode) : Int :=
  match node.props.lookup "reg" with
  | none => 0
  | some reg =>
    if reg.length % 4 = 0 ∧ 4 * k + 4 ≤ reg.length then nonNegative (fdt32 (reg.getD · 0) k) else 0

/-- The lookup reads nothing but the `reg` of partitions with this label; it returns the cell of the
first of them, and 0 if there is no partition or no such cell. -/
structure FromPartition (src : PartitionSource) (label : String) (k : Nat) (out : PartitionRead) :
    Prop where
  reads : ∀ r ∈ out.reads, ∃ node reg, lib.Partition src label r.1 node ∧
    node.props.lookup "reg" = some reg ∧ r.2 < reg.length
  found : ∀ offset node, lib.Partition src label offset node →
    (∀ offset' < offset, ∀ node', ¬ lib.Partition src label offset' node') →
      out.ret = regCell k node
  missing : (∀ offset node, ¬ lib.Partition src label offset node) → out.ret = 0

/-- The first node behind `start` that carries the label. -/
def FirstBehind (t : Fdt) (start : Nat) (label : String) (offset : Nat) (node : FdtNode) : Prop :=
  start < offset ∧ t.forest.preorder[offset]? = some node ∧ lib.Labelled label node ∧
    ∀ offset' node', start < offset' → offset' < offset →
      t.forest.preorder[offset']? = some node' → ¬ lib.Labelled label node'

/-- If the first node behind `partitions` that carries the label has a `reg` of cells, it is a
partition and has the cell `k`. -/
def Contained (src : PartitionSource) (label : String) (k : Nat) : Prop :=
  ∀ t π offset node reg, src.fdt = some t → lib.path t src.pathp = some π →
    lib.FirstBehind t (t.forest.offset π) label offset node →
    node.props.lookup "reg" = some reg → 0 < reg.length → reg.length % 4 = 0 →
      t.forest.Below π offset node ∧ 4 * k + 4 ≤ reg.length

variable {lib}

theorem fdtNodeCheckLabel_eq (lib : Libfdt) {t : Fdt} {offset : Nat} {node : FdtNode}
    (h : t.forest.preorder[offset]? = some node) (label : String) :
    (lib.fdtNodeCheckLabel t offset label = 0 ↔ lib.Labelled label node) ∧
      ¬ (lib.fdtNodeCheckLabel t offset label < 0 ∧
        lib.fdtNodeCheckLabel t offset label ≠ -FDT_ERR_NOTFOUND) := by
  cases hprop : node.props.lookup "label" with
  | none => simp [fdtNodeCheckLabel, Fdt.fdtGetprop, h, hprop, Labelled, FDT_ERR_NOTFOUND]
  | some prop =>
    by_cases hc : lib.stringlistContains prop label <;>
      simp [fdtNodeCheckLabel, Fdt.fdtGetprop, h, hprop, Labelled, hc]

/-- The loop goes on from `offset`, behind `start` and nodes without the label; it finds the first
with the label, or there is none. -/
theorem labelLoop_spec {t : Fdt} {label : String} {start : Nat} (fuel : Nat) {offset : Nat}
    (hfuel : t.forest.size < fuel + offset) (hoffset : offset < t.forest.size)
    (hstart : start < offset)
    (hnone : ∀ offset' node', start < offset' → offset' < offset →
      t.forest.preorder[offset']? = some node' → ¬ lib.Labelled label node') :
    ∃ found, lib.labelLoop t label fuel (.ok offset) = some found ∧
      ((∃ offset node, found = .ok offset ∧ lib.FirstBehind t start label offset node) ∨
        ∃ e, found = .error e ∧ ∀ offset node, start < offset →
          t.forest.preorder[offset]? = some node → ¬ lib.Labelled label node) := by
  induction fuel generalizing offset with
  | zero => omega
  | succ fuel ih =>
    have hget : t.forest.preorder[offset]? = some t.forest.preorder[offset] :=
      List.getElem?_eq_getElem hoffset
    obtain ⟨hzero, hneg⟩ := fdtNodeCheckLabel_eq lib hget label
    simp only [labelLoop]
    rw [if_neg hneg]
    by_cases hl : lib.Labelled label t.forest.preorder[offset]
    · rw [if_pos (hzero.mpr hl)]
      exact ⟨_, rfl, Or.inl ⟨offset, _, rfl, hstart, hget, hl, hnone⟩⟩
    · rw [if_neg fun h => hl (hzero.mp h)]
      have hnone' : ∀ offset' node', start < offset' → offset' < offset + 1 →
          t.forest.preorder[offset']? = some node' → ¬ lib.Labelled label node' := by
        intro offset' node' hlt hle hnode
        rcases Nat.lt_succ_iff_lt_or_eq.mp hle with h | rfl
        · exact hnone offset' node' hlt h hnode
        · rw [hget, Option.some_inj] at hnode
          exact hnode ▸ hl
      by_cases hnext : offset + 1 < t.forest.size
      · rw [Fdt.fdtNextNode, if_pos hnext]
        exact ih (by omega) hnext (by omega) hnone'
      · rw [Fdt.fdtNextNode, if_neg hnext]
        obtain ⟨fuel, rfl⟩ : ∃ m, fuel = m + 1 := ⟨fuel - 1, by omega⟩
        refine ⟨_, rfl, Or.inr ⟨_, rfl, fun offset' node' hlt hnode => ?_⟩⟩
        have hsize : offset' < t.forest.size := (List.getElem?_eq_some_iff.mp hnode).1
        exact hnone' offset' node' hlt (by omega) hnode

/-- **The search finds the first node behind the start that carries the label.** -/
theorem fdtNodeOffsetByLabel_spec (lib : Libfdt) (t : Fdt) (start : Nat) (label : String) :
    ∃ found, lib.fdtNodeOffsetByLabel t start label = some found ∧
      ((∃ offset node, found = .ok offset ∧ lib.FirstBehind t start label offset node) ∨
        ∃ e, found = .error e ∧ ∀ offset node, start < offset →
          t.forest.preorder[offset]? = some node → ¬ lib.Labelled label node) := by
  rw [fdtNodeOffsetByLabel, Fdt.fdtNextNode]
  by_cases hnext : start + 1 < t.forest.size
  · rw [if_pos hnext]
    exact labelLoop_spec _ (by omega) hnext (by omega) fun _ _ _ _ => by omega
  · rw [if_neg hnext]
    refine ⟨_, rfl, Or.inr ⟨_, rfl, fun offset node hlt hnode => ?_⟩⟩
    have hsize : offset < t.forest.size := (List.getElem?_eq_some_iff.mp hnode).1
    omega

theorem FirstBehind.unique {t : Fdt} {start offset offset' : Nat} {label : String}
    {node node' : FdtNode} (h : lib.FirstBehind t start label offset node)
    (h' : lib.FirstBehind t start label offset' node') : offset' = offset ∧ node' = node := by
  obtain ⟨hlt, hget, hl, hfirst⟩ := h
  obtain ⟨hlt', hget', hl', hfirst'⟩ := h'
  have heq : offset' = offset := by
    rcases Nat.lt_trichotomy offset' offset with hc | hc | hc
    · exact absurd hl' (hfirst offset' node' hlt' hc hget')
    · exact hc
    · exact absurd hl (hfirst' offset node hlt hc hget)
  subst heq
  rw [hget, Option.some_inj] at hget'
  exact ⟨rfl, hget'.symm⟩

/-! ## The partitions in document order -/

section Source

variable {src : PartitionSource} {label : String} {t : Fdt} {π : List Step} {offset k : Nat}
  {node : FdtNode}

theorem partition_iff (hfdt : src.fdt = some t) (hpath : lib.path t src.pathp = some π) :
    lib.Partition src label offset node ↔
      t.forest.Below π offset node ∧ lib.Labelled label node := by
  constructor
  · rintro ⟨t', π', hfdt', hpath', hbelow, hl⟩
    rw [hfdt, Option.some_inj] at hfdt'
    subst hfdt'
    rw [hpath, Option.some_inj] at hpath'
    subst hpath'
    exact ⟨hbelow, hl⟩
  · rintro ⟨hbelow, hl⟩
    exact ⟨t, π, hfdt, hpath, hbelow, hl⟩

theorem Partition.get (hfdt : src.fdt = some t) (hpath : lib.path t src.pathp = some π)
    (h : lib.Partition src label offset node) :
    t.forest.offset π < offset ∧ t.forest.preorder[offset]? = some node ∧
      lib.Labelled label node := by
  obtain ⟨hbelow, hl⟩ := (partition_iff hfdt hpath).mp h
  obtain ⟨parent, c, s, hwalk⟩ := lib.path_node t _ π hpath
  obtain ⟨⟨hlt, -⟩, hget⟩ := (below_iff hwalk).mp hbelow
  exact ⟨hlt, hget, hl⟩

theorem FirstBehind.partition (hfdt : src.fdt = some t) (hpath : lib.path t src.pathp = some π)
    (h : lib.FirstBehind t (t.forest.offset π) label offset node)
    (hbelow : t.forest.Below π offset node) :
    lib.Partition src label offset node ∧
      ∀ offset' < offset, ∀ node', ¬ lib.Partition src label offset' node' := by
  refine ⟨(partition_iff hfdt hpath).mpr ⟨hbelow, h.2.2.1⟩, fun offset' hlt node' hp => ?_⟩
  obtain ⟨hstart, hget, hl⟩ := hp.get hfdt hpath
  exact h.2.2.2 offset' node' hstart hlt hget hl

theorem FirstBehind.no_partition (hfdt : src.fdt = some t)
    (hpath : lib.path t src.pathp = some π)
    (h : lib.FirstBehind t (t.forest.offset π) label offset node)
    (hbelow : ¬ t.forest.Below π offset node) (offset' : Nat) (node' : FdtNode) :
    ¬ lib.Partition src label offset' node' := by
  intro hp
  obtain ⟨parent, c, s, hwalk⟩ := lib.path_node t _ π hpath
  obtain ⟨hbelow', hl'⟩ := (partition_iff hfdt hpath).mp hp
  obtain ⟨⟨hlt', hle'⟩, hget'⟩ := (below_iff hwalk).mp hbelow'
  obtain ⟨hlt, hget, hl, hfirst⟩ := h
  have hle : ¬ offset ≤ t.forest.offset π + c.size := fun hle =>
    hbelow ((below_iff hwalk).mpr ⟨⟨hlt, hle⟩, hget⟩)
  exact hfirst offset' node' hlt' (by omega) hget' hl'

theorem FirstBehind.eq_partition (hfdt : src.fdt = some t) (hpath : lib.path t src.pathp = some π)
    (h : lib.FirstBehind t (t.forest.offset π) label offset node)
    (hbelow : t.forest.Below π offset node) {offset' : Nat} {node' : FdtNode}
    (hp : lib.Partition src label offset' node')
    (hfirst : ∀ q < offset', ∀ node, ¬ lib.Partition src label q node) : node' = node := by
  obtain ⟨hpart, hmin⟩ := h.partition hfdt hpath hbelow
  have heq : offset' = offset := by
    rcases Nat.lt_trichotomy offset' offset with hc | hc | hc
    · exact absurd hp (hmin offset' hc node')
    · exact hc
    · exact absurd hpart (hfirst offset hc node)
  have hget := (hp.get hfdt hpath).2.1
  rw [heq, h.2.1, Option.some_inj] at hget
  exact hget.symm

/-! ## The outcomes of a lookup -/

theorem fromPartition_zero
    (h : ∀ offset node, lib.Partition src label offset node →
      (∀ offset' < offset, ∀ node', ¬ lib.Partition src label offset' node') →
        regCell k node = 0) :
    lib.FromPartition src label k ⟨0, []⟩ :=
  ⟨nofun, fun offset node hp hfirst => (h offset node hp hfirst).symm,
    fun _ => rfl⟩

theorem fromPartition_of_no_cells (hfdt : src.fdt = some t)
    (hpath : lib.path t src.pathp = some π)
    (h : lib.FirstBehind t (t.forest.offset π) label offset node)
    (hreg : ∀ reg, node.props.lookup "reg" = some reg → 0 < reg.length → reg.length % 4 ≠ 0) :
    lib.FromPartition src label k ⟨0, []⟩ ∧ lib.Contained src label k := by
  constructor
  · refine fromPartition_zero fun offset' node' hp hfirst => ?_
    by_cases hbelow : t.forest.Below π offset node
    · rw [h.eq_partition hfdt hpath hbelow hp hfirst, regCell]
      cases hlook : node.props.lookup "reg" with
      | none => rfl
      | some reg => exact if_neg fun hc => hreg reg hlook (by omega) hc.1
    · exact absurd hp (h.no_partition hfdt hpath hbelow offset' node')
  · intro t' π' offset' node' reg hfdt' hpath' h' hlook hpos hmod
    rw [hfdt, Option.some_inj] at hfdt'
    subst hfdt'
    rw [hpath, Option.some_inj] at hpath'
    subst hpath'
    obtain ⟨-, rfl⟩ := h.unique h'
    exact absurd hmod (hreg reg hlook hpos)

/-- A lookup that fetches the cell `k` of a `reg` is right exactly if the node is a partition and
the `reg` has this cell. -/
theorem fromPartition_fetch_iff (hfdt : src.fdt = some t)
    (hpath : lib.path t src.pathp = some π)
    (h : lib.FirstBehind t (t.forest.offset π) label offset node) {reg : List UInt8}
    (hlook : node.props.lookup "reg" = some reg) (hmod : reg.length % 4 = 0) :
    lib.FromPartition src label k
        ⟨nonNegative (fdt32 (byteOf src.beyond reg) k),
          [4 * k, 4 * k + 1, 4 * k + 2, 4 * k + 3].map fun i => (offset, i)⟩ ↔
      t.forest.Below π offset node ∧ 4 * k + 4 ≤ reg.length := by
  constructor
  · intro hright
    obtain ⟨node', reg', hp, hlook', hlt⟩ :=
      hright.reads (offset, 4 * k + 3) (by simp)
    have hget := (hp.get hfdt hpath).2.1
    rw [h.2.1, Option.some_inj] at hget
    subst hget
    rw [hlook, Option.some_inj] at hlook'
    subst hlook'
    have hlt' : 4 * k + 3 < reg.length := hlt
    exact ⟨((partition_iff hfdt hpath).mp hp).1, by omega⟩
  · rintro ⟨hbelow, hle⟩
    have hpart := (h.partition hfdt hpath hbelow).1
    refine ⟨fun r hr => ?_, fun offset' node' hp hfirst => ?_, fun hnone => ?_⟩
    · obtain ⟨i, hi, rfl⟩ := List.mem_map.mp hr
      refine ⟨node, reg, hpart, hlook, ?_⟩
      simp only [List.mem_cons, List.not_mem_nil, or_false] at hi
      show i < reg.length
      omega
    · have hbyte : ∀ i < reg.length, byteOf src.beyond reg i = reg.getD i 0 := fun i hi => by
        simp [byteOf, List.getD, List.getElem?_eq_getElem hi]
      simp only [h.eq_partition hfdt hpath hbelow hp hfirst, regCell, hlook]
      rw [if_pos ⟨hmod, hle⟩, fdt32, fdt32, hbyte _ (by omega), hbyte _ (by omega),
        hbyte _ (by omega), hbyte _ (by omega)]
    · exact absurd hpart (hnone offset node)

end Source

section Outcome

variable {src : PartitionSource} {label : String} {t : Fdt} {π : List Step} {k : Nat}

theorem fromPartition_of_none
    (h : ∀ t π, src.fdt = some t → lib.path t src.pathp = some π → ∀ offset node,
      t.forest.offset π < offset → t.forest.preorder[offset]? = some node →
        ¬ lib.Labelled label node) :
    lib.FromPartition src label k ⟨0, []⟩ ↔ lib.Contained src label k := by
  refine iff_of_true (fromPartition_zero fun offset node hp _ => ?_) ?_
  · have hp' := hp
    obtain ⟨t, π, hfdt, hpath, -⟩ := hp
    obtain ⟨hlt, hget, hl⟩ := hp'.get hfdt hpath
    exact absurd hl (h t π hfdt hpath offset node hlt hget)
  · intro t π offset node reg hfdt hpath hfirst
    exact absurd hfirst.2.2.1 (h t π hfdt hpath offset node hfirst.1 hfirst.2.1)

theorem doGet_of_first (hfdt : src.fdt = some t) (hpath : lib.path t src.pathp = some π)
    {offset : Nat} {node : FdtNode}
    (hfound : lib.fdtNodeOffsetByLabel t (t.forest.offset π) label = some (.ok offset))
    (h : lib.FirstBehind t (t.forest.offset π) label offset node) :
    ∃ out, lib.doGet (getDtbData k) src label = some out ∧
      (lib.FromPartition src label k out ↔ lib.Contained src label k) := by
  have hpos : offset ≠ 0 := by
    have hlt := h.1
    omega
  have hget := h.2.1
  by_cases hcells : ∃ reg, node.props.lookup "reg" = some reg ∧ 0 < reg.length ∧
      reg.length % 4 = 0
  · obtain ⟨reg, hlook, hlen, hmod⟩ := hcells
    have hne : reg ≠ [] := List.length_pos_iff.mp hlen
    have hout : lib.doGet (getDtbData k) src label =
        some ⟨nonNegative (fdt32 (byteOf src.beyond reg) k),
          [4 * k, 4 * k + 1, 4 * k + 2, 4 * k + 3].map fun i => (offset, i)⟩ := by
      simp [doGet, hfdt, hpath, hfound, hpos, Fdt.fdtGetprop, hget, hlook, getDtbData, hmod, hne]
    refine ⟨_, hout, (fromPartition_fetch_iff hfdt hpath h hlook hmod).trans ?_⟩
    constructor
    · intro hin t' π' offset' node' reg' hfdt' hpath' h' hlook' _ _
      rw [hfdt, Option.some_inj] at hfdt'
      subst hfdt'
      rw [hpath, Option.some_inj] at hpath'
      subst hpath'
      obtain ⟨rfl, rfl⟩ := h.unique h'
      rw [hlook, Option.some_inj] at hlook'
      exact hlook' ▸ hin
    · intro hcont
      exact hcont t π offset node reg hfdt hpath h hlook hlen hmod
  · have hreg : ∀ reg, node.props.lookup "reg" = some reg → 0 < reg.length →
        reg.length % 4 ≠ 0 := fun reg hlook hlen hmod => hcells ⟨reg, hlook, hlen, hmod⟩
    have hout : lib.doGet (getDtbData k) src label = some ⟨0, []⟩ := by
      have hminus : nonNegative (-1) = 0 := by decide
      cases hlook : node.props.lookup "reg" with
      | none => simp [doGet, hfdt, hpath, hfound, hpos, Fdt.fdtGetprop, hget, hlook]
      | some reg =>
        by_cases hnil : reg = []
        · simp [doGet, hfdt, hpath, hfound, hpos, Fdt.fdtGetprop, hget, hlook, hnil]
        · have hmod := hreg reg hlook (List.length_pos_iff.mpr hnil)
          simp [doGet, hfdt, hpath, hfound, hpos, Fdt.fdtGetprop, hget, hlook, getDtbData, hnil,
            hmod, hminus]
    obtain ⟨hright, hcont⟩ := fromPartition_of_no_cells (k := k) hfdt hpath h hreg
    exact ⟨_, hout, iff_of_true hright hcont⟩

end Outcome

/-- **A lookup is right exactly if the first node with the label is contained in the partitions.**
-/
theorem doGet_iff (src : PartitionSource) (label : String) (k : Nat) :
    ∃ out, lib.doGet (getDtbData k) src label = some out ∧
      (lib.FromPartition src label k out ↔ lib.Contained src label k) := by
  cases hfdt : src.fdt with
  | none =>
    refine ⟨⟨0, []⟩, by simp [doGet, hfdt], fromPartition_of_none fun t π hfdt' => ?_⟩
    rw [hfdt] at hfdt'
    cases hfdt'
  | some t =>
    cases hpath : lib.path t src.pathp with
    | none =>
      refine ⟨⟨0, []⟩, by simp [doGet, hfdt, hpath],
        fromPartition_of_none fun t' π hfdt' hpath' => ?_⟩
      rw [hfdt, Option.some_inj] at hfdt'
      rw [← hfdt', hpath] at hpath'
      cases hpath'
    | some π =>
      obtain ⟨found, hfound, hspec⟩ :=
        fdtNodeOffsetByLabel_spec lib t (t.forest.offset π) label
      rcases hspec with ⟨offset, node, rfl, h⟩ | ⟨e, rfl, hnone⟩
      · exact doGet_of_first hfdt hpath hfound h
      · refine ⟨⟨0, []⟩, by simp [doGet, hfdt, hpath, hfound],
          fromPartition_of_none fun t' π' hfdt' hpath' => ?_⟩
        rw [hfdt, Option.some_inj] at hfdt'
        subst hfdt'
        rw [hpath, Option.some_inj] at hpath'
        subst hpath'
        exact hnone

/-- **What the lookups of a partition return comes from the partitions exactly if the first node
with the label is one of them and has the cell, or has no cells at all.** -/
theorem partitionLookup_iff (lib : Libfdt) (src : PartitionSource) (label : String) :
    (∃ out, lib.doGetOffset src label = some out ∧
        (lib.FromPartition src label 0 out ↔ lib.Contained src label 0)) ∧
      ∃ out, lib.doGetSize src label = some out ∧
        (lib.FromPartition src label 1 out ↔ lib.Contained src label 1) :=
  ⟨doGet_iff src label 0, doGet_iff src label 1⟩

end Libfdt

/-! ## A label outside and a `reg` of one cell -/

/-- The walk to the node with these names, one for each level. -/
def resolve : Forest FdtNode → List String → Option (List Step)
  | _, [] => none
  | .nil, _ :: _ => none
  | .cons node c s, name :: names =>
    if node.name = name then
      if names = [] then some [] else (resolve c names).map (.down :: ·)
    else (resolve s (name :: names)).map (.next :: ·)

theorem resolve_node {f : Forest FdtNode} {names : List String} {π : List Step}
    (h : resolve f names = some π) : ∃ node c s, f.walk π = .cons node c s := by
  induction f generalizing names π with
  | nil => cases names <;> cases h
  | cons node c s ihc ihs =>
    cases names with
    | nil => cases h
    | cons name names =>
      rw [resolve] at h
      by_cases hname : node.name = name
      · rw [if_pos hname] at h
        by_cases hnil : names = []
        · rw [if_pos hnil, Option.some_inj] at h
          subst h
          exact ⟨node, c, s, rfl⟩
        · rw [if_neg hnil] at h
          obtain ⟨π', hπ, rfl⟩ := Option.map_eq_some_iff.mp h
          exact ihc hπ
      · rw [if_neg hname] at h
        obtain ⟨π', hπ, rfl⟩ := Option.map_eq_some_iff.mp h
        exact ihs hπ

/-- libfdt on trees whose labels are single strings, each with its terminating zero. -/
def plainLibfdt : Libfdt where
  path t pathp :=
    if pathp = "/soc/spic/partitions" then resolve t.forest ["", "soc", "spic", "partitions"]
    else if pathp = "/soc/mmc_sdhc/partitions" then
      resolve t.forest ["", "soc", "mmc_sdhc", "partitions"]
    else none
  stringlistContains prop label := prop == label.toList.map (fun c => UInt8.ofNat c.toNat) ++ [0]
  path_node t pathp π h := by
    by_cases hspic : pathp = "/soc/spic/partitions"
    · rw [if_pos hspic] at h
      exact resolve_node h
    · rw [if_neg hspic] at h
      by_cases hmmc : pathp = "/soc/mmc_sdhc/partitions"
      · rw [if_pos hmmc] at h
        exact resolve_node h
      · rw [if_neg hmmc] at h
        cases h

/-- One partition, whose `reg` has one cell, and behind the flash controller a node with a label of
its own. -/
def strayTree : Fdt where
  root := ⟨"", []⟩
  nodes :=
    .cons ⟨"soc", []⟩
      (.cons ⟨"spic", []⟩
        (.cons ⟨"partitions", []⟩
          (.cons ⟨"partition@0", [("label", [98, 111, 111, 116, 0]), ("reg", [0, 0, 1, 0])]⟩
            .nil .nil)
          .nil)
        (.cons ⟨"lcd", [("label", [108, 99, 100, 0]), ("reg", [0, 0, 0, 16, 0, 0, 0, 8])]⟩
          .nil .nil))
      .nil

def straySource : PartitionSource := ⟨some strayTree, none, false, fun _ => 0⟩

namespace Libfdt

/-- The node outside is taken for the partition "lcd", and the size of "boot" is read beyond its
`reg`. -/
theorem not_fromPartition_stray :
    (∃ out, plainLibfdt.doGetOffset straySource "lcd" = some out ∧
        ¬ plainLibfdt.FromPartition straySource "lcd" 0 out) ∧
      ∃ out, plainLibfdt.doGetSize straySource "boot" = some out ∧
        ¬ plainLibfdt.FromPartition straySource "boot" 1 out := by
  have hpath : plainLibfdt.path strayTree straySource.pathp = some [.down, .down, .down] := by
    decide +kernel
  have hwalk : ∃ a c s, strayTree.forest.walk [.down, .down, .down] = .cons a c s ∧ c.size = 1 :=
    ⟨_, _, _, rfl, rfl⟩
  have hoffset : strayTree.forest.offset [.down, .down, .down] = 3 := rfl
  constructor
  · refine ⟨⟨16, [(5, 0), (5, 1), (5, 2), (5, 3)]⟩, by decide +kernel, fun h => ?_⟩
    obtain ⟨node, reg, hp, -⟩ := h.reads (5, 0) (by simp)
    obtain ⟨a, c, s, hw, hsize⟩ := hwalk
    obtain ⟨⟨-, hle⟩, -⟩ := (below_iff hw).mp ((partition_iff rfl hpath).mp hp).1
    have hfive : (5 : Nat) ≤ strayTree.forest.offset [.down, .down, .down] + c.size := hle
    omega
  · refine ⟨⟨0, [(4, 4), (4, 5), (4, 6), (4, 7)]⟩, by decide +kernel, fun h => ?_⟩
    obtain ⟨node, reg, hp, hlook, hlt⟩ := h.reads (4, 4) (by simp)
    have hget : strayTree.forest.preorder[4]? = some node := (hp.get rfl hpath).2.1
    have hnode : node = ⟨"partition@0", [("label", [98, 111, 111, 116, 0]),
        ("reg", [0, 0, 1, 0])]⟩ := (Option.some_inj.mp hget).symm
    rw [hnode] at hlook
    have hreg : reg = [0, 0, 1, 0] := (Option.some_inj.mp hlook).symm
    rw [hreg] at hlt
    exact absurd hlt (by decide)

end Libfdt
end RealtekIpcam.Uboot
