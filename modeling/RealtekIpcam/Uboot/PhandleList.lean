import Mathlib
import RealtekIpcam.Uboot.Gpio

/-!
# Lists of phandles with arguments

A property of a device tree can be a list of entries, each a phandle and the arguments that go with
it; how many these are is said by a property of the node that the phandle names, or by the caller.
A phandle 0 is an empty entry.  `fdtdec_parse_phandle_with_args` finds an entry by its index, or
counts the entries.

It walks the list with a pointer, and on a 32-bit machine the pointer wraps: an argument count from
another node can be anything, and `list + count` is compared with the end of the property after it
has been reduced modulo `2^32`.  So the model has addresses, with the words of the property among
others in memory, and a log of what is read.  The other nodes are behind two accessors of the tree.
-/

namespace RealtekIpcam.Uboot.PhandleList

open Gpio (ENOENT EINVAL)

/-! ## Memory and the tree -/

/-- The property in memory: its address, its whole words, and the words elsewhere. -/
structure Blob where
  base : Nat
  words : List UInt32
  elsewhere : Nat → UInt32
  /-- The property ends below the top of memory, as objects do. -/
  end_lt : base + 4 * words.length < 2 ^ 32

/-- The accessors: `fdt_node_offset_by_phandle`, which is negative if no node has the phandle, and
`fdtdec_get_int` for `cells_name` and the default -1, as an `uint32_t`. -/
structure Tree where
  nodeOffsetByPhandle : UInt32 → Int
  getInt : Int → UInt32
  /-- There is nothing at a negative offset. -/
  getInt_neg : ∀ node < 0, getInt node = 0xffffffff

/-- The other arguments of a call: whether there is a `cells_name`, and whether there are
`out_args`. -/
structure Query where
  cellsName : Bool
  cellCount : UInt32
  index : Int
  outArgs : Bool
  maxPhandleArgs : Nat

namespace Blob

variable (B : Blob)

def listEnd : Nat := B.base + 4 * B.words.length

/-- A load of a word. -/
def read (x : Nat) : UInt32 :=
  if B.base ≤ x ∧ (x - B.base) % 4 = 0 then B.words.getD ((x - B.base) / 4) (B.elsewhere x)
  else B.elsewhere x

/-- The address is that of a word of the property. -/
def InProperty (x : Nat) : Prop := ∃ i < B.words.length, x = B.base + 4 * i

end Blob

/-! ## The function -/

/-- A pointer to the word after so many. -/
def advance (list n : Nat) : Nat := (list + 4 * n) % 2 ^ 32

/-- `struct fdtdec_phandle_args`. -/
structure PhandleArgs where
  node : Int
  args : List UInt32

/-- What a call does: the value it returns, `out_args` if it is filled, and the words it reads. -/
structure Result where
  rc : Int
  out : Option PhandleArgs
  reads : List Nat

/-- The variables of the loop, and the words read so far. -/
structure State where
  list : Nat
  curIndex : Nat
  reads : List Nat

/-- The provider of the entry is looked up. -/
def Query.Looks (q : Query) (curIndex : Nat) : Prop :=
  q.cellsName = true ∨ (curIndex : Int) = q.index
  deriving Decidable

/-- The number of arguments of an entry whose provider is `node`. -/
def Query.count (q : Query) (T : Tree) (node : Int) : UInt32 :=
  if q.cellsName = true then T.getInt node else q.cellCount

/-- The provider of an entry and the number of its arguments, or an error; `list` is behind the
phandle. -/
def provider (B : Blob) (T : Tree) (q : Query) (curIndex list : Nat) (phandle : UInt32) :
    Option (Int × UInt32) :=
  if phandle = 0 then some (-1, 0)
  else
    let node := if q.Looks curIndex then T.nodeOffsetByPhandle phandle else -1
    if q.Looks curIndex ∧ node = 0 then none
    else if q.cellsName = true ∧ T.getInt node = 0xffffffff then none
    else if B.listEnd < advance list (q.count T node).toNat then none
    else some (node, q.count T node)

/-- The copy of the arguments. -/
def fill (B : Blob) (q : Query) (list : Nat) (node : Int) (count : UInt32) (reads : List Nat) :
    Result :=
  if q.outArgs = true then
    let args := (List.range (min count.toNat q.maxPhandleArgs)).map (advance list)
    { rc := 0, out := some { node := node, args := args.map B.read }, reads := reads ++ args }
  else { rc := 0, out := none, reads := reads }

/-- The loop, for at most so many rounds. -/
def loop (B : Blob) (T : Tree) (q : Query) : Nat → State → Option Result
  | 0, _ => none
  | fuel + 1, s =>
    if s.list < B.listEnd then
      let phandle := B.read s.list
      let list := advance s.list 1
      let reads := s.reads ++ [s.list]
      match provider B T q s.curIndex list phandle with
      | none => some { rc := -EINVAL, out := none, reads := reads }
      | some (node, count) =>
        if (s.curIndex : Int) = q.index then
          if phandle = 0 then some { rc := -ENOENT, out := none, reads := reads }
          else some (fill B q list node count reads)
        else loop B T q fuel
          { list := advance list count.toNat, curIndex := s.curIndex + 1, reads := reads }
    else some { rc := if q.index < 0 then s.curIndex else -ENOENT, out := none, reads := s.reads }

/-- `fdtdec_parse_phandle_with_args`, for a property that exists. -/
def parsePhandleWithArgs (B : Blob) (T : Tree) (q : Query) (fuel : Nat) : Option Result :=
  loop B T q fuel { list := B.base, curIndex := 0, reads := [] }

/-- The number of arguments that an entry should have: the provider has to exist, and to say it,
unless the caller does. -/
def Query.args (q : Query) (T : Tree) (phandle : UInt32) : Option Nat :=
  if q.cellsName = true then
    if T.nodeOffsetByPhandle phandle < 0 ∨
      T.getInt (T.nodeOffsetByPhandle phandle) = 0xffffffff then none
    else some (T.getInt (T.nodeOffsetByPhandle phandle)).toNat
  else some q.cellCount.toNat

/-- The entry `k` of the list begins with these words; the entries in front of it are well
formed. -/
inductive At (T : Tree) (q : Query) (words : List UInt32) : Nat → List UInt32 → Prop where
  | start : At T q words 0 words
  | empty {k : Nat} {rest : List UInt32} : At T q words k (0 :: rest) → At T q words (k + 1) rest
  | entry {k : Nat} {phandle : UInt32} {rest : List UInt32} {n : Nat} :
    At T q words k (phandle :: rest) → phandle ≠ 0 → q.args T phandle = some n →
      n ≤ rest.length → At T q words (k + 1) (rest.drop n)

/-- **What the caller is promised.** -/
structure Parsed (B : Blob) (T : Tree) (q : Query) (r : Result) : Prop where
  reads : ∀ x ∈ r.reads, B.InProperty x
  /-- The entry is there, its provider exists, and its arguments lie in the property. -/
  found : r.rc = 0 → 0 ≤ q.index → ∃ phandle rest n,
    At T q B.words q.index.toNat (phandle :: rest) ∧ phandle ≠ 0 ∧
    0 ≤ T.nodeOffsetByPhandle phandle ∧ q.args T phandle = some n ∧ n ≤ rest.length ∧
    (q.outArgs = true → r.out = some
      { node := T.nodeOffsetByPhandle phandle, args := rest.take (min n q.maxPhandleArgs) })
  /-- A list that is well formed to its end has so many entries. -/
  counted : q.index < 0 → ∀ m, At T q B.words m [] → r.rc = m

end RealtekIpcam.Uboot.PhandleList
