import Mathlib

/-!
# The boot arguments of a board with two systems

`boot_fdt_set_new_bootargs` puts the value of the variable `bootargs_db` after the boot arguments of
the device tree and makes the result the value of `bootargs`.  A board that boots from NOR flash
copies the property as it is.  One that boots from NAND flash takes it apart with `strtok`, to
replace the number of the UBI volume, and looks at every token before it asks whether there is one.

Strings are lists of bytes without the zero that ends them.
-/

namespace RealtekIpcam.Uboot.Bootargs

/-! ## The model -/

abbrev Str := List UInt8

def space : UInt8 := 0x20
def tab : UInt8 := 0x09

def ubiMtd : Str := [0x75, 0x62, 0x69, 0x2e, 0x6d, 0x74, 0x64, 0x3d]

def ubiMtd7 : Str := ubiMtd ++ [0x37]

def raucSlotB : Str := [0x72, 0x61, 0x75, 0x63, 0x2e, 0x73, 0x6c, 0x6f, 0x74, 0x3d, 0x42]

/-- `CONFIG_RTS_NOR_BOOT` or `CONFIG_RTS_NAND_BOOT`. -/
inductive Variant where
  | nor
  | nand
  deriving DecidableEq

/-- What can go wrong: NULL is taken for a token, or the buffer is too small. -/
inductive Fault where
  | nullToken
  | overflow
  deriving DecidableEq

/-- `strtok`: the token, and where the next call goes on; none for NULL. -/
def strtok (delim : List UInt8) (s : Str) : Option (Str × Str) :=
  let s := s.dropWhile (· ∈ delim)
  if s = [] then none
  else some (s.takeWhile (· ∉ delim), (s.dropWhile (· ∉ delim)).drop 1)

/-- A string that is written to a buffer of so many bytes, with its zero. -/
def fits (size : Nat) (s : Str) : Except Fault Str :=
  if s.length + 1 ≤ size then .ok s else .error .overflow

theorem length_of_strtok {delim : List UInt8} {s args rest : Str}
    (h : strtok delim s = some (args, rest)) : rest.length < s.length := by
  simp only [strtok] at h
  split at h
  · cases h
  next hne =>
    cases h
    have hdrop := (List.dropWhile_suffix (l := s) (· ∈ delim)).length_le
    have hrest := (List.dropWhile_suffix (l := s.dropWhile (· ∈ delim)) (· ∉ delim)).length_le
    have hpos := List.length_pos_iff.mpr hne
    rw [List.length_drop]
    omega

/-- The loop over the tokens after the first.  The token is compared before it is asked for. -/
def nandLoop (size : Nat) (bootargsDb : Str) (rest newBootargs : Str) : Except Fault Str :=
  match h : strtok [tab, space] rest with
  | none => .error .nullToken
  | some (args, rest') =>
    have : rest'.length < rest.length := length_of_strtok h
    -- The comparison is as long as `bootargs_db`.
    let args := if ubiMtd <+: args ∧ bootargsDb <+: raucSlotB then ubiMtd7 else args
    match fits size (newBootargs ++ space :: args) with
    | .error fault => .error fault
    | .ok newBootargs => nandLoop size bootargsDb rest' newBootargs
termination_by rest.length

/-- The text that is put together for a property of `len` bytes, in a buffer of that and what
`bootargs_db` needs. -/
def newBootargs (variant : Variant) (nodep : Str) (len : Nat) (bootargsDb : Str) :
    Except Fault Str :=
  let size := bootargsDb.length + len + 1
  match variant with
  | .nor => fits size (nodep ++ space :: bootargsDb)
  | .nand =>
    match strtok [space] nodep with
    | none => .error .nullToken
    | some (args, rest) => do
      let new ← fits size args
      let new ← nandLoop size bootargsDb rest new
      fits size (new ++ space :: bootargsDb)

/-- `boot_fdt_set_new_bootargs`: the new value of `bootargs`, if it is set.  The inputs are the
value of `bootargs_db`, and what `fdt_find_or_add_subnode` and `fdt_getprop` return. -/
def bootFdtSetNewBootargs (variant : Variant) (bootargsDb : Option Str) (nodeoffset : Int)
    (nodep : Option (Str × Nat)) : Except Fault (Option Str) :=
  match bootargsDb with
  | none => .ok none
  | some bootargsDb =>
    if nodeoffset < 0 then .ok none
    else
      match nodep with
      | none => .ok none
      | some (nodep, len) => (newBootargs variant nodep len bootargsDb).map some

/-! ## What is asked of it -/

/-- The tokens of a string, between spaces and tabs. -/
def tokens (s : Str) : List Str :=
  (s.splitOnP fun b => b = space || b = tab).filter (· ≠ [])

/-- What is to become of a token. -/
def replacement (variant : Variant) (bootargsDb token : Str) : Str :=
  if variant = .nand ∧ ubiMtd <+: token ∧ bootargsDb = raucSlotB then ubiMtd7 else token

/-- **The arguments are rewritten**: nothing goes wrong, and `bootargs` is set to the tokens of the
property, each replaced as it is to be, followed by a space and `bootargs_db`. -/
def Rewrites (variant : Variant) (nodep : Str) (len : Nat) (bootargsDb : Str) : Prop :=
  ∃ args, bootFdtSetNewBootargs variant (some bootargsDb) 0 (some (nodep, len)) =
      .ok (some (args ++ space :: bootargsDb)) ∧
    tokens args = (tokens nodep).map (replacement variant bootargsDb)

theorem nandLoop_none (size : Nat) (bootargsDb : Str) {rest : Str} (new : Str)
    (h : strtok [tab, space] rest = none) :
    nandLoop size bootargsDb rest new = .error .nullToken := by
  unfold nandLoop
  split
  · rfl
  next hsome =>
    rw [h] at hsome
    cases hsome

theorem nandLoop_some (size : Nat) (bootargsDb : Str) {rest rest' args : Str} (new : Str)
    (h : strtok [tab, space] rest = some (args, rest')) :
    nandLoop size bootargsDb rest new =
      (fits size (new ++ space ::
        if ubiMtd <+: args ∧ bootargsDb <+: raucSlotB then ubiMtd7 else args)).bind
          (nandLoop size bootargsDb rest') := by
  conv_lhs => unfold nandLoop
  split
  next hnone =>
    rw [h] at hnone
    cases hnone
  next args' rest'' hsome =>
    obtain ⟨rfl, rfl⟩ := Prod.mk.inj (Option.some.inj (h.symm.trans hsome))
    dsimp only
    split
    next hfits =>
      rw [hfits]
      rfl
    next hfits =>
      rw [hfits]
      rfl

theorem nandLoop_error (size : Nat) (bootargsDb rest new : Str) :
    ∃ fault, nandLoop size bootargsDb rest new = .error fault := by
  induction hn : rest.length using Nat.strongRecOn generalizing rest new with
  | ind n ih =>
    cases htok : strtok [tab, space] rest with
    | none => exact ⟨_, nandLoop_none size bootargsDb new htok⟩
    | some token =>
      obtain ⟨args, rest'⟩ := token
      rw [nandLoop_some size bootargsDb new htok]
      cases fits size (new ++ space ::
          if ubiMtd <+: args ∧ bootargsDb <+: raucSlotB then ubiMtd7 else args) with
      | error fault => exact ⟨fault, rfl⟩
      | ok new' => exact ih _ (hn ▸ length_of_strtok htok) rest' new' rfl

theorem newBootargs_nand (nodep : Str) (len : Nat) (bootargsDb : Str) :
    ∃ fault, newBootargs .nand nodep len bootargsDb = .error fault := by
  simp only [newBootargs]
  split
  · exact ⟨_, rfl⟩
  next args rest _ =>
    cases hfits : fits (bootargsDb.length + len + 1) args with
    | error fault => exact ⟨fault, rfl⟩
    | ok new =>
      obtain ⟨fault, hloop⟩ := nandLoop_error (bootargsDb.length + len + 1) bootargsDb rest new
      exact ⟨fault, by simp only [bind, Except.bind, hloop]⟩

/-- **The rewriting of the boot arguments** is right with NOR flash and never with NAND flash, for
every property, which has `len` bytes with its zero, and every value of `bootargs_db`. -/
theorem rewrites_iff (variant : Variant) {nodep : Str} {len : Nat} (bootargsDb : Str)
    (hlen : nodep.length < len) :
    Rewrites variant nodep len bootargsDb ↔ variant = .nor := by
  cases variant with
  | nand =>
    refine iff_of_false ?_ (by decide)
    rintro ⟨args, hset, -⟩
    obtain ⟨fault, herr⟩ := newBootargs_nand nodep len bootargsDb
    rw [bootFdtSetNewBootargs, if_neg (by decide), herr] at hset
    cases hset
  | nor =>
    refine iff_of_true ⟨nodep, ?_, ?_⟩ rfl
    · have hfits : (nodep ++ space :: bootargsDb).length + 1 ≤ bootargsDb.length + len + 1 := by
        rw [List.length_append, List.length_cons]
        omega
      rw [bootFdtSetNewBootargs, if_neg (by decide), newBootargs, fits, if_pos hfits]
      rfl
    · have hsame : replacement .nor bootargsDb = id := by
        funext token
        exact if_neg fun h => absurd h.1 (by decide)
      rw [hsame, List.map_id]

/-- "quiet ubi.mtd=3". -/
def quietArgs : Str := [0x71, 0x75, 0x69, 0x65, 0x74, space] ++ ubiMtd ++ [0x33]

theorem rewrites_quietArgs : Rewrites .nor quietArgs 16 raucSlotB :=
  (rewrites_iff .nor raucSlotB (by decide)).mpr rfl

/-- With NAND flash the token after the last is looked at. -/
theorem not_rewrites_quietArgs :
    bootFdtSetNewBootargs .nand (some raucSlotB) 0 (some (quietArgs, 16)) = .error .nullToken ∧
      ¬ Rewrites .nand quietArgs 16 raucSlotB := by
  have hcall : bootFdtSetNewBootargs .nand (some raucSlotB) 0 (some (quietArgs, 16)) =
      .error .nullToken := by
    have hfirst : strtok [space] quietArgs = some (quietArgs.take 5, ubiMtd ++ [0x33]) := by
      decide +kernel
    have hsecond : strtok [tab, space] (ubiMtd ++ [0x33]) = some (ubiMtd ++ [0x33], []) := by
      decide +kernel
    have hthird : strtok [tab, space] [] = none := rfl
    have hloop : nandLoop 28 raucSlotB (ubiMtd ++ [0x33]) (quietArgs.take 5) =
        .error .nullToken := by
      rw [nandLoop_some 28 raucSlotB _ hsecond]
      exact nandLoop_none 28 raucSlotB _ hthird
    simp only [bootFdtSetNewBootargs, newBootargs, hfirst]
    exact congrArg (fun r => Except.map some (r >>= fun new => fits 28 (new ++ space :: raucSlotB)))
      hloop
  refine ⟨hcall, ?_⟩
  rintro ⟨args, hset, -⟩
  rw [hcall] at hset
  cases hset

end RealtekIpcam.Uboot.Bootargs
