import RealtekIpcam.Lib.Assignment

/-!
# Nodes in the order of their aliases

The peripherals of one kind are numbered by the aliases of the device tree: `i2c2 = "/i2c@7000c500"`
says that this controller is number 2.  `fdtdec_find_aliases_for_id` makes the list of the enabled
nodes of a kind in this order; the nodes without an alias go into the holes.  An entry 0 is a hole,
as the root node is not expected to be of any kind.

The tree is behind the accessors of `libfdt`: the nodes of the kind, the `status` of a node, the
properties of `/aliases`, and the node at a path.
-/

namespace RealtekIpcam.Uboot.AliasList

open Assignment

/-! ## The tree and the arguments -/

/-- A property of `/aliases`: its name, and the path in it. -/
structure Property where
  name : List Char
  data : List UInt8

/-- What the accessors say of a tree: the offsets of the nodes that are compatible with `id`, in
the order of the tree, and what is read of a node and of the aliases.  Without a node `/aliases`
there is no alias. -/
structure Tree where
  compatible : List Nat
  sorted : compatible.Pairwise (· < ·)
  status : Nat → Option String
  aliases : List Property
  pathOffset : List UInt8 → Int

/-- The other arguments. -/
structure Query where
  name : List Char
  maxcount : Nat
  maxcount_lt : maxcount < 2 ^ 31

/-- The number that decimal digits stand for. -/
def decimal (ds : List Char) : Nat := ds.foldl (fun n c => 10 * n + (c.toNat - '0'.toNat)) 0

/-- There is at least one digit, and nothing else. -/
def IsDecimal (ds : List Char) : Prop := ds ≠ [] ∧ ∀ c ∈ ds, c.isDigit = true

instance (ds : List Char) : Decidable (IsDecimal ds) :=
  @instDecidableAnd _ _ _ (List.decidableBAll _ ds)

/-- `simple_strtoul` for the base 10, on a machine with 32 bits.  It reads a decimal number that
fits; what it makes of other strings is left open. -/
structure Strtoul where
  read : List Char → UInt32
  read_decimal : ∀ ds, IsDecimal ds → decimal ds < 2 ^ 32 → (read ds).toNat = decimal ds

namespace Tree

variable (T : Tree)

/-- `fdtdec_get_is_enabled`. -/
def isEnabled (node : Nat) : Bool :=
  match T.status node with
  | some cell => cell == "okay"
  | none => true

/-- `fdtdec_next_compatible`. -/
def nextCompatible (node : Nat) : Option Nat := T.compatible.find? (node < ·)

/-- All the compatible nodes behind `node`, while there is room. -/
def collect : Nat → Nat → List Nat
  | 0, _ => []
  | room + 1, node =>
    match T.nextCompatible node with
    | none => []
    | some next => next :: collect room next

/-- The node of an alias, or 0 if its name does not begin as it should. -/
def aliasNode (q : Query) (p : Property) : Int :=
  if p.data ≠ [] ∧ q.name <+: p.name then T.pathOffset p.data else 0

end Tree

/-- What is read behind the common part of the name, as an `int`. -/
def Strtoul.number (S : Strtoul) (q : Query) (p : Property) : Int :=
  (S.read (p.name.drop q.name.length)).toBitVec.toInt

/-! ## The function -/

/-- `node_list` and `num_found`. -/
structure Slots where
  nodeList : List Nat
  numFound : Nat

/-- An entry is filled. -/
def Slots.place (s : Slots) (i node : Nat) : Slots where
  nodeList := s.nodeList.set i node
  numFound := if s.numFound ≤ i then i + 1 else s.numFound

/-- The first `count` entries of `nodes`, and the list. -/
structure State where
  nodes : List Nat
  slots : Slots

namespace Tree

variable (T : Tree) (S : Strtoul) (q : Query)

def visit (s : State) (p : Property) : State :=
  let node := T.aliasNode q p
  let number := S.number q p
  if node ≤ 0 then s
  else if number < 0 ∨ q.maxcount ≤ number then s
  else if node.toNat ∉ s.nodes then s
  else if T.isEnabled node.toNat = true then
    -- a node whose place has been taken stays among those to be placed
    if s.slots.nodeList.getD number.toNat 0 ≠ 0 then s
    else
      { nodes := s.nodes.replace node.toNat 0
        slots := s.slots.place number.toNat node.toNat }
  else { s with nodes := s.nodes.replace node.toNat 0 }

/-- An entry of `nodes` that is still to be placed. -/
def live (node : Nat) : Bool := node != 0 && T.isEnabled node

/-- The nodes that no alias mentions, from the entry `i` on; `nodes` are those from `j` on. -/
def addRest : Nat → Nat → List Nat → Slots → Slots
  | 0, _, _, s => s
  | room + 1, i, nodes, s =>
    if s.nodeList.getD i 0 ≠ 0 then addRest room (i + 1) nodes s
    else
      match nodes.dropWhile (fun node => !T.live node) with
      | [] => s
      | node :: nodes => addRest room (i + 1) nodes (s.place i node)

/-- `fdtdec_add_aliases_for_id`: the list, and the value that is returned. -/
def addAliasesForId (nodeList : List Nat) : Slots :=
  let nodes := T.collect q.maxcount 0
  let s := T.aliases.foldl (T.visit S q)
    { nodes := nodes, slots := { nodeList := nodeList, numFound := 0 } }
  T.addRest q.maxcount 0 (s.nodes ++ List.replicate (q.maxcount - nodes.length) 0) s.slots

/-- `fdtdec_find_aliases_for_id`. -/
def findAliasesForId : Slots := T.addAliasesForId S q (List.replicate q.maxcount 0)

/-! ## What the list should be -/

/-- The enabled nodes of the kind, in the order of the tree. -/
def enabledCompatible : List Nat := T.compatible.filter T.isEnabled

/-- The node that a property of `/aliases` refers to. -/
def target (p : Property) : Option Nat :=
  if p.data = [] ∨ T.pathOffset p.data < 0 then none else some (T.pathOffset p.data).toNat

/-- An alias that is the name followed by a decimal number claims the entry with this number for
its node. -/
def rightClaim (p : Property) : Option (Nat × Nat) :=
  let number := p.name.drop q.name.length
  match T.target p with
  | none => none
  | some node =>
    if q.name <+: p.name ∧ IsDecimal number ∧ decimal number < q.maxcount ∧
      node ∈ T.enabledCompatible then some (decimal number, node)
    else none

/-- The entries as they should be: claims are granted in the order of the properties, and the other
nodes go into the holes from the lowest upward. -/
def due : List (Nat × Nat) :=
  complete (List.range q.maxcount) T.enabledCompatible
    (grants (T.aliases.filterMap (T.rightClaim q)))

/-- What is made of an alias whose name only begins as it should. -/
def claim (p : Property) : Option (Nat × Nat) :=
  let node := T.aliasNode q p
  let number := S.number q p
  if 0 < node ∧ 0 ≤ number ∧ number < q.maxcount ∧ node.toNat ∈ T.enabledCompatible then
    some (number.toNat, node.toNat)
  else none

end Tree

/-- A node stands at an entry. -/
def Slots.Holds (s : Slots) (i node : Nat) : Prop := s.nodeList[i]? = some node ∧ node ≠ 0

/-- **The list is what it should be**: every enabled node of the kind occurs once, and no other
does; each stands where it should; and the value is one more than the last entry that is filled. -/
structure Tree.Meets (T : Tree) (q : Query) (s : Slots) : Prop where
  once : ∀ node ∈ T.enabledCompatible, ∃! i, s.Holds i node
  only : ∀ i node, s.Holds i node → node ∈ T.enabledCompatible
  order : ∀ i node, s.Holds i node ↔ (i, node) ∈ T.due q
  below : ∀ i node, s.Holds i node → i < s.numFound
  last : s.numFound = 0 ∨ ∃ node, s.Holds (s.numFound - 1) node

/-! ## Lists with holes -/

namespace Slots

variable {s : Slots}

/-- The value is one more than the last entry that is filled. -/
structure Counted (s : Slots) : Prop where
  below : ∀ i node, s.Holds i node → i < s.numFound
  last : s.numFound = 0 ∨ ∃ node, s.Holds (s.numFound - 1) node

@[simp] theorem length_place (s : Slots) (i node : Nat) :
    (s.place i node).nodeList.length = s.nodeList.length :=
  List.length_set

theorem getD_ne_zero_iff (s : Slots) (i : Nat) :
    s.nodeList.getD i 0 ≠ 0 ↔ ∃ node, s.Holds i node := by
  rw [List.getD_eq_getElem?_getD]
  cases h : s.nodeList[i]? with
  | none => simp [Holds, h]
  | some node => simp [Holds, h]

theorem holds_place {i node : Nat} (hi : i < s.nodeList.length) (hnode : node ≠ 0)
    (hfree : ∀ m, ¬ s.Holds i m) (k m : Nat) :
    (s.place i node).Holds k m ↔ s.Holds k m ∨ (k, m) = (i, node) := by
  by_cases hk : i = k
  · subst hk
    simp only [Holds, place, List.getElem?_set_self hi, Option.some.injEq, Prod.mk.injEq, true_and]
    exact ⟨fun h => Or.inr h.1.symm, fun h => h.elim (fun h => absurd h (hfree m))
      fun h => ⟨h.symm, h ▸ hnode⟩⟩
  · simp [Holds, place, List.getElem?_set_ne hk, Ne.symm hk]

theorem Counted.place (h : s.Counted) {i node : Nat} (hi : i < s.nodeList.length)
    (hnode : node ≠ 0) (hfree : ∀ m, ¬ s.Holds i m) : (s.place i node).Counted := by
  have hplace := holds_place hi hnode hfree
  constructor
  · intro k m hk
    have hcases := (hplace k m).mp hk
    simp only [Slots.place]
    split
    · rcases hcases with hk | hk
      · exact Nat.lt_succ_of_lt (Nat.lt_of_lt_of_le (h.below k m hk) ‹_›)
      · rw [Prod.mk.injEq] at hk
        omega
    · rcases hcases with hk | hk
      · exact h.below k m hk
      · rw [Prod.mk.injEq] at hk
        omega
  · right
    by_cases hle : s.numFound ≤ i
    · refine ⟨node, (hplace _ _).mpr (Or.inr ?_)⟩
      simp [Slots.place, hle]
    · obtain h0 | ⟨m, hm⟩ := h.last
      · omega
      · refine ⟨m, (hplace _ _).mpr (Or.inl ?_)⟩
        simpa [Slots.place, hle] using hm

end Slots

end RealtekIpcam.Uboot.AliasList
