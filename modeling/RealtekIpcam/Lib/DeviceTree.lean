import Mathlib

/-!
# Device trees and their library

A device tree has nodes with names and properties.  A program does not see the tree itself but the
accessors of `libfdt`, and these may fail where the tree is full.  `Libfdt` has what they are
documented to do when they do not fail.

Nodes are named by numbers that they keep, in place of offsets that move.  `Grows` says that nodes
have been added and that the others are as they were; so is what is read of them.
-/

namespace DeviceTree

open Function

/-! ## Trees -/

theorem nil_lt : ([] : List UInt8).length < 4 := by decide

/-- A property: whole cells, and less than a cell behind them. -/
structure Value where
  cells : List UInt32
  rest : List UInt8
  rest_lt : rest.length < 4 := by exact nil_lt
  deriving DecidableEq

def cell (c : UInt32) : Value where
  cells := [c]
  rest := []

/-- A tree; its root is the node 0, and `nodes` are in the order of the tree. -/
structure Tree where
  nodes : List Nat
  parent : Nat → Option Nat
  name : Nat → String
  prop : Nat → String → Option Value
  root_mem : 0 ∈ nodes
  root_parent : parent 0 = none
  parent_mem : ∀ n ∈ nodes, ∀ p, parent n = some p → p ∈ nodes

namespace Tree

/-- The nodes below a node, in their order. -/
def children (T : Tree) (par : Nat) : List Nat := T.nodes.filter fun n => T.parent n = some par

def setProp (T : Tree) (n : Nat) (p : String) (v : Value) : Tree :=
  { T with prop := update T.prop n (update (T.prop n) p (some v)) }

variable {T T' U : Tree} {n m par : Nat} {p q s : String} {v : Value}

@[simp] theorem setProp_self : (T.setProp n p v).prop n p = some v := by
  simp [setProp]

theorem setProp_of_node_ne (h : m ≠ n) : (T.setProp n p v).prop m = T.prop m :=
  update_of_ne h _ _

theorem setProp_of_prop_ne (h : q ≠ p) : (T.setProp n p v).prop m q = T.prop m q := by
  by_cases hm : m = n
  · subst hm
    simp [setProp, update_of_ne h]
  · rw [setProp_of_node_ne hm]

/-- Another property than the one that is set. -/
theorem setProp_of_ne (h : ¬ (m = n ∧ q = p)) : (T.setProp n p v).prop m q = T.prop m q := by
  by_cases hm : m = n
  · exact setProp_of_prop_ne fun hq => h ⟨hm, hq⟩
  · rw [setProp_of_node_ne hm]

/-- `T'` is `T` with one more node, which has no properties yet. -/
structure Adds (T T' : Tree) (par m : Nat) (s : String) : Prop where
  fresh : m ∉ T.nodes
  nodes : ∀ n, n ∈ T'.nodes ↔ n = m ∨ n ∈ T.nodes
  parent : T'.parent m = some par
  name : T'.name m = s
  bare : ∀ p, T'.prop m p = none
  parents : ∀ n ∈ T.nodes, T'.parent n = T.parent n
  names : ∀ n ∈ T.nodes, T'.name n = T.name n
  props : ∀ n ∈ T.nodes, T'.prop n = T.prop n

/-- Nodes have been added, and the others are as they were. -/
structure Grows (T T' : Tree) : Prop where
  mem : ∀ n ∈ T.nodes, n ∈ T'.nodes
  parents : ∀ n ∈ T.nodes, T'.parent n = T.parent n
  props : ∀ n ∈ T.nodes, T'.prop n = T.prop n

theorem Grows.refl (T : Tree) : Grows T T :=
  ⟨fun _ hn => hn, fun _ _ => rfl, fun _ _ => rfl⟩

theorem Grows.trans (h : Grows T T') (h' : Grows T' U) : Grows T U :=
  ⟨fun n hn => h'.mem n (h.mem n hn),
    fun n hn => (h'.parents n (h.mem n hn)).trans (h.parents n hn),
    fun n hn => (h'.props n (h.mem n hn)).trans (h.props n hn)⟩

theorem Adds.grows (h : Adds T T' par m s) : Grows T T' :=
  ⟨fun n hn => (h.nodes n).mpr (Or.inr hn), h.parents, h.props⟩

/-- What is set of a new node is nothing to the others. -/
theorem Grows.setProp (h : Grows T T') (hm : m ∉ T.nodes) (p : String) (v : Value) :
    Grows T (T'.setProp m p v) := by
  refine ⟨h.mem, h.parents, fun n hn => ?_⟩
  have hne : n ≠ m := fun he => hm (he ▸ hn)
  rw [setProp_of_node_ne hne, h.props n hn]

end Tree

/-! ## The library -/

/-- The accessors that change a tree or find something in it, with what they are documented to do;
an error is a negative number.  Behind an error the tree does not matter here. -/
structure Libfdt where
  pathOffset : Tree → String → Except Int Nat
  addSubnode : Tree → Nat → String → Except Int (Tree × Nat)
  setprop : Tree → Nat → String → Value → Except Int Tree
  setPhandle : Tree → Nat → UInt32 → Except Int Tree
  generatePhandle : Tree → Except Int UInt32
  nodeOffsetByPhandle : Tree → UInt32 → Except Int Nat
  /-- `fdt_address_cells`, of the property `#address-cells`. -/
  addressCells : Option Value → Int
  /-- `fdt_size_cells`, of the property `#size-cells`. -/
  sizeCells : Option Value → Int
  /-- `fdt_get_phandle`, of the properties `phandle` and `linux,phandle`; 0 if there is none. -/
  getPhandle : Option Value → Option Value → UInt32
  /-- A path leads to a node, -/
  pathOffset_mem : ∀ {T path n}, pathOffset T path = .ok n → n ∈ T.nodes
  /-- an absolute one does not depend on properties, -/
  pathOffset_setProp : ∀ T n p v s,
    pathOffset (T.setProp n p v) ("/" ++ s) = pathOffset T ("/" ++ s)
  /-- and one with a single name does not depend on nodes below others than the root -/
  pathOffset_below : ∀ {T T' par m s}, addSubnode T par s = .ok (T', m) → par ≠ 0 →
    ∀ t : String, '/' ∉ t.toList → pathOffset T' ("/" ++ t) = pathOffset T ("/" ++ t)
  /-- but leads to a node below the root. -/
  pathOffset_child : ∀ {T s n}, pathOffset T ("/" ++ s) = .ok n → s ≠ "" → '/' ∉ s.toList →
    T.parent n = some 0
  /-- If there was none, it leads to the one that has been added. -/
  pathOffset_added : ∀ {T T' m s e}, pathOffset T ("/" ++ s) = .error e → s ≠ "" → '/' ∉ s.toList →
    addSubnode T 0 s = .ok (T', m) → pathOffset T' ("/" ++ s) = .ok m
  addSubnode_ok : ∀ {T par s T' m}, addSubnode T par s = .ok (T', m) → T.Adds T' par m s
  setprop_ok : ∀ {T n p v T'}, setprop T n p v = .ok T' → T' = T.setProp n p v
  setPhandle_ok : ∀ {T n h T'}, setPhandle T n h = .ok T' → T' = T.setProp n "phandle" (cell h)
  sizeCells_cell : ∀ c : UInt32, 1 ≤ c.toNat → c.toNat ≤ 4 → sizeCells (some (cell c)) = c.toNat
  getPhandle_cell : ∀ h w, getPhandle (some (cell h)) w = h
  getPhandle_none : getPhandle none none = 0
  /-- A new phandle is one more than the highest one. -/
  generatePhandle_ok : ∀ {T h}, generatePhandle T = .ok h → h ≠ 0xffffffff ∧ ∀ n ∈ T.nodes,
    getPhandle (T.prop n "phandle") (T.prop n "linux,phandle") < h
  /-- A phandle that one node has leads to this node. -/
  nodeOffsetByPhandle_ok : ∀ {T h n}, 0 < h → h ≠ 0xffffffff → n ∈ T.nodes →
    getPhandle (T.prop n "phandle") (T.prop n "linux,phandle") = h →
    (∀ m ∈ T.nodes, getPhandle (T.prop m "phandle") (T.prop m "linux,phandle") = h → m = n) →
    nodeOffsetByPhandle T h = .ok n

namespace Libfdt

variable (F : Libfdt)

def phandle (T : Tree) (n : Nat) : UInt32 :=
  F.getPhandle (T.prop n "phandle") (T.prop n "linux,phandle")

variable {F} {T T' : Tree} {n m par : Nat} {p s : String} {v : Value} {h : UInt32}

theorem phandle_congr (hp : T'.prop n = T.prop n) : F.phandle T' n = F.phandle T n := by
  rw [phandle, hp, phandle]

theorem phandle_of_cell (hp : T.prop n "phandle" = some (cell h)) : F.phandle T n = h := by
  rw [phandle, hp, F.getPhandle_cell]

theorem phandle_of_none (h1 : T.prop n "phandle" = none) (h2 : T.prop n "linux,phandle" = none) :
    F.phandle T n = 0 := by
  rw [phandle, h1, h2, F.getPhandle_none]

/-- Other properties than these two are nothing to it. -/
theorem phandle_setProp (h1 : p ≠ "phandle") (h2 : p ≠ "linux,phandle") (m : Nat) :
    F.phandle (T.setProp m p v) n = F.phandle T n := by
  rw [phandle, Tree.setProp_of_prop_ne h1.symm, Tree.setProp_of_prop_ne h2.symm, phandle]

end Libfdt

/-! ## A small library

The nodes are numbered as they are added, and paths have one name at most.  This is enough for trees
with one level.
-/

namespace Small

/-- A number that no node has. -/
def next (T : Tree) : Nat := T.nodes.foldr max 0 + 1

theorem next_not_mem (T : Tree) : next T ∉ T.nodes := fun h =>
  absurd (List.le_max_of_le' 0 h le_rfl) (Nat.not_succ_le_self _)

theorem ne_next {T : Tree} {n : Nat} (hn : n ∈ T.nodes) : n ≠ next T := fun h =>
  next_not_mem T (h ▸ hn)

/-- One node more, behind the others. -/
def addNode (T : Tree) (par : Nat) (s : String) (hpar : par ∈ T.nodes) : Tree where
  nodes := T.nodes ++ [next T]
  parent := update T.parent (next T) (some par)
  name := update T.name (next T) s
  prop := update T.prop (next T) fun _ => none
  root_mem := List.mem_append_left _ T.root_mem
  root_parent := (update_of_ne (ne_next T.root_mem) _ _).trans T.root_parent
  parent_mem := fun n hn p hp => by
    rcases List.mem_append.mp hn with hn | hn
    · rw [update_of_ne (ne_next hn)] at hp
      exact List.mem_append_left _ (T.parent_mem n hn p hp)
    · rw [List.mem_singleton.mp hn, update_self] at hp
      exact List.mem_append_left _ (Option.some.inj hp ▸ hpar)

theorem adds_addNode {T : Tree} {par : Nat} {s : String} (hpar : par ∈ T.nodes) :
    T.Adds (addNode T par s hpar) par (next T) s where
  fresh := next_not_mem T
  nodes := fun n => by simp [addNode, or_comm]
  parent := update_self _ _ _
  name := update_self _ _ _
  bare := fun p => by simp [addNode]
  parents := fun _ hn => update_of_ne (ne_next hn) _ _
  names := fun _ hn => update_of_ne (ne_next hn) _ _
  props := fun _ hn => update_of_ne (ne_next hn) _ _

def addSubnode (T : Tree) (par : Nat) (s : String) : Except Int (Tree × Nat) :=
  if hpar : par ∈ T.nodes then
    if ∃ n ∈ T.children par, T.name n = s then .error (-2)
    else .ok (addNode T par s hpar, next T)
  else .error (-4)

theorem addSubnode_eq {T T' : Tree} {par m : Nat} {s : String}
    (h : addSubnode T par s = .ok (T', m)) :
    ∃ hpar : par ∈ T.nodes, T' = addNode T par s hpar ∧ m = next T := by
  rw [addSubnode] at h
  split at h
  · split at h
    · cases h
    · cases h
      exact ⟨‹_›, rfl, rfl⟩
  · cases h

/-- The node is below the root, and has the name of the path. -/
def atPath (T : Tree) (path : String) (n : Nat) : Bool :=
  decide (T.parent n = some 0) && "/" ++ T.name n == path

def pathOffset (T : Tree) (path : String) : Except Int Nat :=
  if path = "/" then .ok 0
  else
    match T.nodes.find? (atPath T path) with
    | some n => .ok n
    | none => .error (-1)

theorem append_ne {s : String} (hs : s ≠ "") : "/" ++ s ≠ "/" := fun h =>
  hs (String.append_eq_left_iff.mp h)

theorem pathOffset_eq {T : Tree} {s : String} (hs : s ≠ "") :
    pathOffset T ("/" ++ s) =
      match T.nodes.find? (atPath T ("/" ++ s)) with
      | some n => .ok n
      | none => .error (-1) :=
  if_neg (append_ne hs)

/-- A search among the nodes comes to the new one last. -/
theorem find?_addNode {T : Tree} {par : Nat} {s : String} (hpar : par ∈ T.nodes) (path : String) :
    (addNode T par s hpar).nodes.find? (atPath (addNode T par s hpar) path) =
      (T.nodes.find? (atPath T path)).or
        (if par = 0 ∧ "/" ++ s = path then some (next T) else none) := by
  have hold : T.nodes.find? (atPath (addNode T par s hpar) path) = T.nodes.find? (atPath T path) :=
    List.find?_congr fun n hn => by
      rw [atPath, atPath, (adds_addNode hpar).parents n hn, (adds_addNode hpar).names n hn]
  have hnew : atPath (addNode T par s hpar) path (next T) = decide (par = 0 ∧ "/" ++ s = path) := by
    simp [atPath, (adds_addNode hpar).parent, (adds_addNode hpar).name, Bool.beq_eq_decide_eq]
  change (T.nodes ++ [next T]).find? _ = _
  rw [List.find?_append, hold, List.find?_cons, hnew, List.find?_nil]
  by_cases h : par = 0 ∧ "/" ++ s = path
  · simp [h]
  · simp [h]

def oneCell : Option Value → Option UInt32
  | some { cells := [c], rest := [], .. } => some c
  | _ => none

def cellCount (default : Int) (v : Option Value) : Int :=
  match v, oneCell v with
  | none, _ => default
  | some _, some c => if 1 ≤ c.toNat ∧ c.toNat ≤ 4 then c.toNat else -14
  | some _, none => -14

def getPhandle (v w : Option Value) : UInt32 := ((oneCell v).or (oneCell w)).getD 0

def phandle (T : Tree) (n : Nat) : UInt32 :=
  getPhandle (T.prop n "phandle") (T.prop n "linux,phandle")

def maxPhandle (T : Tree) : Nat := (T.nodes.map fun n => (phandle T n).toNat).foldr max 0

def generatePhandle (T : Tree) : Except Int UInt32 :=
  if maxPhandle T + 1 < 0xffffffff then .ok (UInt32.ofNat (maxPhandle T + 1)) else .error (-17)

def nodeOffsetByPhandle (T : Tree) (h : UInt32) : Except Int Nat :=
  match T.nodes.find? fun n => phandle T n == h with
  | some n => .ok n
  | none => .error (-1)

theorem generatePhandle_ok {T : Tree} {h : UInt32} (hgen : generatePhandle T = .ok h) :
    h ≠ 0xffffffff ∧ ∀ n ∈ T.nodes, phandle T n < h := by
  rw [generatePhandle] at hgen
  split at hgen
  · rename_i hlt
    cases hgen
    have htoNat : (UInt32.ofNat (maxPhandle T + 1)).toNat = maxPhandle T + 1 := by
      rw [UInt32.toNat_ofNat']
      exact Nat.mod_eq_of_lt (by omega)
    refine ⟨fun he => ?_, fun n hn => ?_⟩
    · rw [he] at htoNat
      exact absurd htoNat.symm (Nat.ne_of_lt hlt)
    · rw [UInt32.lt_iff_toNat_lt, htoNat]
      exact Nat.lt_succ_of_le (List.le_max_of_le' 0 (List.mem_map_of_mem hn) le_rfl)
  · cases hgen

theorem nodeOffsetByPhandle_ok {T : Tree} {h : UInt32} {n : Nat} (hn : n ∈ T.nodes)
    (hphandle : phandle T n = h) (hunique : ∀ m ∈ T.nodes, phandle T m = h → m = n) :
    nodeOffsetByPhandle T h = .ok n := by
  rw [nodeOffsetByPhandle]
  cases hfind : T.nodes.find? fun n => phandle T n == h with
  | none =>
    have hne := List.find?_eq_none.mp hfind n hn
    rw [hphandle] at hne
    exact absurd (beq_self_eq_true h) hne
  | some m =>
    have hm := List.find?_some (p := fun n => phandle T n == h) hfind
    rw [hunique m (List.mem_of_find?_eq_some hfind) (eq_of_beq hm)]

end Small

/-- A library that does what is documented. -/
def small : Libfdt where
  pathOffset := Small.pathOffset
  addSubnode := Small.addSubnode
  setprop := fun T n p v => .ok (T.setProp n p v)
  setPhandle := fun T n h => .ok (T.setProp n "phandle" (cell h))
  generatePhandle := Small.generatePhandle
  nodeOffsetByPhandle := Small.nodeOffsetByPhandle
  addressCells := Small.cellCount 2
  sizeCells := Small.cellCount 1
  getPhandle := Small.getPhandle
  pathOffset_mem := fun {T path n} h => by
    rw [Small.pathOffset] at h
    split at h
    · cases h
      exact T.root_mem
    · split at h
      · cases h
        exact List.mem_of_find?_eq_some ‹_›
      · cases h
  pathOffset_setProp := fun _ _ _ _ _ => rfl
  pathOffset_below := fun {T T' par m s} hadd hpar t _ => by
    obtain ⟨hmem, rfl, rfl⟩ := Small.addSubnode_eq hadd
    have hother : ¬ (par = 0 ∧ "/" ++ s = "/" ++ t) := fun h => hpar h.1
    rw [Small.pathOffset, Small.pathOffset, Small.find?_addNode, if_neg hother, Option.or_none]
  pathOffset_child := fun {T s n} h hs _ => by
    rw [Small.pathOffset_eq hs] at h
    split at h
    · cases h
      have hat := List.find?_some ‹_›
      exact of_decide_eq_true (Bool.and_eq_true_iff.mp hat).1
    · cases h
  pathOffset_added := fun {T T' m s e} h hs _ hadd => by
    obtain ⟨hmem, rfl, rfl⟩ := Small.addSubnode_eq hadd
    rw [Small.pathOffset_eq hs] at h
    rw [Small.pathOffset_eq hs, Small.find?_addNode, if_pos ⟨rfl, rfl⟩]
    split at h
    · cases h
    · rw [‹T.nodes.find? _ = none›, Option.none_or]
  addSubnode_ok := fun hadd => by
    obtain ⟨hmem, rfl, rfl⟩ := Small.addSubnode_eq hadd
    exact Small.adds_addNode hmem
  setprop_ok := fun h => by cases h; rfl
  setPhandle_ok := fun h => by cases h; rfl
  sizeCells_cell := fun _ h1 h4 => if_pos ⟨h1, h4⟩
  getPhandle_cell := fun _ _ => rfl
  getPhandle_none := rfl
  generatePhandle_ok := Small.generatePhandle_ok
  nodeOffsetByPhandle_ok := fun _ _ hn hphandle hunique =>
    Small.nodeOffsetByPhandle_ok hn hphandle hunique

end DeviceTree
