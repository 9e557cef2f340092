import RealtekIpcam.Uboot.MemoryBanks

/-!
# Which memory banks are found

A pointer that goes through a property in steps of a positive number of cells finds the entries of
the node, one by one, and stays in the property.  If a number of cells is an error, the pointer
still passes the check unless the sum exceeds the property, and the error is taken for a huge number
of cells.

The loop over the banks goes from a node to the next one when its entries are used up.  If that one
has no entry, it stops, so that the entries of the nodes behind it are lost; only the first node may
be without entries.  `setup_meets_iff` says that the promise is kept if and only if neither
happens.
-/

namespace RealtekIpcam.Uboot.MemoryBanks

open Function

open Gpio (EINVAL)

variable {C : Config} {m : Node} {nodes rest : List Node} {p : Property} {c : ParentCells}

/-! ## Numbers -/

theorem numberReads_natCast (ptr : Int) {k : Nat} (hk : k < 2 ^ 32) :
    numberReads ptr k = (List.range k).map fun i : Nat => ptr + i := by
  have hcells : ((k : Int) % 2 ^ 32).toNat = k := by omega
  rw [numberReads, hcells]

theorem mem_numberReads (ptr : Int) {k : Nat} (hk : k < 2 ^ 32) {x : Int}
    (hx : x ∈ numberReads ptr k) : ptr ≤ x ∧ x < ptr + k := by
  rw [numberReads_natCast ptr hk] at hx
  obtain ⟨i, hi, rfl⟩ := List.mem_map.mp hx
  rw [List.mem_range] at hi
  omega

theorem fdtdecGetNumber_eq {j k : Nat} (hk : k < 2 ^ 32) (hfits : j + k ≤ p.words.length) :
    fdtdecGetNumber p j k = Cells.value ((p.words.drop j).take k) % 2 ^ 64 := by
  have hwords : (numberReads j k).map p.read = (p.words.drop j).take k := by
    rw [numberReads_natCast _ hk]
    refine List.ext_getElem (by simp; omega) fun i hi hi' => ?_
    rw [List.length_take, List.length_drop] at hi'
    rw [List.getElem_map, List.getElem_map, List.getElem_range, List.getElem_take,
      List.getElem_drop, Property.read, if_pos (by omega), List.getD_eq_getElem?_getD,
      show ((j : Int) + (i : Int)).toNat = j + i by omega,
      List.getElem?_eq_getElem (by omega), Option.getD_some]
  rw [fdtdecGetNumber, hwords, Cells.accumulate_eq _ 0 (by decide), Nat.zero_mul, Nat.zero_add]

theorem bankOf_resourceAt {j na ns : Nat} (hna : c.na = na) (hns : c.ns = ns) (hna' : na < 2 ^ 32)
    (hns' : ns < 2 ^ 32) (hfits : j + (na + ns) ≤ p.words.length) :
    (resourceAt C p c j).res.map (bankOf C) = some
      { start := Cells.value ((p.words.drop j).take na) % C.range
        size := Cells.value ((p.words.drop (j + na)).take ns) % C.range } := by
  have hstart := fdtdecGetNumber_eq (p := p) (j := j) hna' (by omega)
  have hsize := fdtdecGetNumber_eq (p := p) (j := j + na) hns' (by omega)
  rw [Int.natCast_add] at hsize
  simp only [resourceAt, hna, hns, hstart, hsize, Option.map_some, bankOf, Config.range]
  generalize Cells.value ((p.words.drop j).take na) = a
  generalize Cells.value ((p.words.drop (j + na)).take ns) = b
  congr 2
  · split <;> omega
  · split <;> omega

/-! ## The entries of a node -/

/-- **The loop goes from range to range**, with cells that are numbers. -/
theorem scan_eq {na ns : Nat} (hna : c.na = na) (hns : c.ns = ns) (left j : Nat) :
    scan C p c left (j * (na + ns) : Nat) =
      if (j + left + 1) * (na + ns) ≤ p.words.length then
        resourceAt C p c ((j + left) * (na + ns) : Nat)
      else { res := none, reads := [] } := by
  have hnext (j : Nat) :
      ((j * (na + ns) : Nat) : Int) + c.na + c.ns = ((j + 1) * (na + ns) : Nat) := by
    rw [hna, hns, Nat.succ_mul]
    omega
  induction left generalizing j with
  | zero =>
    rw [scan, hnext, Nat.add_zero]
    exact if_congr Int.ofNat_le rfl rfl
  | succ left ih =>
    rw [scan, hnext, ← Int.add_assoc, hnext, ih, Nat.add_right_comm j 1 left, ← Nat.add_assoc]
    have hle : (j + 1) * (na + ns) ≤ (j + left + 1 + 1) * (na + ns) :=
      Nat.mul_le_mul_right _ (by omega)
    by_cases hfits : (j + left + 1 + 1) * (na + ns) ≤ p.words.length
    · rw [if_pos (Int.ofNat_le.mpr (hle.trans hfits)), if_pos hfits]
    · rw [if_neg hfits, ite_self]

/-- The cells are numbers, or there is no room for a single range of so many. -/
def Node.CellsOk (m : Node) : Prop :=
  ∀ c p, m.parent = some c → m.reg = some p →
    (0 ≤ c.na ∧ 0 ≤ c.ns) ∨ (p.words.length : Int) < c.na + c.ns

/-- What a node gives. -/
structure Gives (C : Config) (m : Node) (bs : List Bank) : Prop where
  found : ∀ index (hi : index < bs.length),
    (fdtGetResource C m index).res.map (bankOf C) = some bs[index]
  missing : ∀ index, bs.length ≤ index → (fdtGetResource C m index).res = none
  reads : ∀ p, m.reg = some p → ∀ index, ∀ x ∈ (fdtGetResource C m index).reads,
    0 ≤ x ∧ x < p.words.length

theorem gives_nil (h : ∀ index, fdtGetResource C m index = { res := none, reads := [] }) :
    Gives C m [] where
  found := nofun
  missing := fun index _ => by rw [h]
  reads := fun p _ index => by
    rw [h]
    exact nofun

theorem gives_ranges {na ns : Nat} (hna : c.na = na) (hns : c.ns = ns)
    (hparent : m.parent = some c) (hreg : m.reg = some p) :
    Gives C m (ranges C na ns p.words) := by
  have hpos : 0 < na + ns := by
    have := c.na_ne
    omega
  have hna' : na < 2 ^ 32 := by
    have := c.na_range
    omega
  have hns' : ns < 2 ^ 32 := by
    have := c.ns_range
    omega
  have hlength : (ranges C na ns p.words).length = p.words.length / (na + ns) := by
    rw [ranges, List.length_map, List.length_range]
  have hget (index : Nat) : fdtGetResource C m index =
      if (index + 1) * (na + ns) ≤ p.words.length then resourceAt C p c (index * (na + ns) : Nat)
      else { res := none, reads := [] } := by
    have hscan := scan_eq (C := C) (p := p) hna hns index 0
    rw [Nat.zero_mul, Nat.zero_add] at hscan
    rw [fdtGetResource, hparent, hreg]
    exact hscan
  constructor
  · intro index hi
    have hfits : (index + 1) * (na + ns) ≤ p.words.length := by
      rw [hlength] at hi
      exact (Nat.le_div_iff_mul_le hpos).mp hi
    rw [hget, if_pos hfits, bankOf_resourceAt hna hns hna' hns'
      (by rw [← Nat.succ_mul]; exact hfits)]
    simp only [ranges, List.getElem_map, List.getElem_range]
  · intro index hi
    rw [hlength] at hi
    rw [hget, if_neg]
    exact fun hfits => Nat.not_lt.mpr hi ((Nat.le_div_iff_mul_le hpos).mpr hfits)
  · intro p' hreg' index x hx
    obtain rfl : p = p' := Option.some.inj (hreg.symm.trans hreg')
    rw [hget] at hx
    split at hx
    · rename_i hfits
      rw [Nat.succ_mul] at hfits
      rcases List.mem_append.mp hx with hx | hx
      · rw [hna] at hx
        have := mem_numberReads _ hna' hx
        omega
      · rw [hna, hns] at hx
        have := mem_numberReads _ hns' hx
        omega
    · cases hx

theorem Node.CellsOk.gives (h : m.CellsOk) (C : Config) : Gives C m (m.entries C) := by
  cases hparent : m.parent with
  | none =>
    rw [Node.entries, hparent]
    exact gives_nil fun index => by rw [fdtGetResource, hparent]
  | some c =>
    cases hreg : m.reg with
    | none =>
      rw [Node.entries, hparent, hreg]
      exact gives_nil fun index => by rw [fdtGetResource, hparent, hreg]
    | some p =>
      have hget (index : Nat) : fdtGetResource C m index = scan C p c index 0 := by
        rw [fdtGetResource, hparent, hreg]
      rw [Node.entries, hparent, hreg]
      dsimp only
      split
      · rename_i hcells
        exact gives_ranges (Int.toNat_of_nonneg hcells.1).symm (Int.toNat_of_nonneg hcells.2).symm
          hparent hreg
      · rename_i hcells
        have hlong := (h c p hparent hreg).resolve_left hcells
        refine gives_nil fun index => ?_
        rw [hget]
        cases index <;> exact if_neg (by omega)

theorem reads_behind (hparent : m.parent = some c) (hreg : m.reg = some p)
    (hcells : ¬ (0 ≤ c.na ∧ 0 ≤ c.ns)) (hcheck : c.na + c.ns ≤ p.words.length) (C : Config) :
    ∃ x ∈ (fdtGetResource C m 0).reads, (p.words.length : Int) ≤ x := by
  have hna := c.na_range
  have hns := c.ns_range
  have hlength := p.length_lt
  have hmem (ptr cells : Int) (hneg : cells < 0) (hrange : -2 ^ 31 ≤ cells) :
      ptr + p.words.length ∈ numberReads ptr cells := by
    rw [numberReads]
    refine List.mem_map.mpr ⟨p.words.length, ?_, rfl⟩
    rw [List.mem_range]
    omega
  have hget : fdtGetResource C m 0 = resourceAt C p c 0 := by
    rw [fdtGetResource, hparent, hreg]
    exact if_pos (by omega)
  rw [hget]
  by_cases hneg : c.na < 0
  · exact ⟨_, List.mem_append_left _ (hmem 0 c.na hneg hna.1), by omega⟩
  · exact ⟨_, List.mem_append_right _ (hmem (0 + c.na) c.ns (by omega) hns.1), by omega⟩

/-! ## From node to node -/

theorem getNextMemoryNode_eq (nodes : List Node) :
    (enabled nodes = [] ∧ getNextMemoryNode nodes = none) ∨
      ∃ m rest, getNextMemoryNode nodes = some (m, rest) ∧ enabled nodes = m :: enabled rest ∧
        m :: rest <:+ nodes := by
  induction nodes with
  | nil => exact .inl ⟨rfl, rfl⟩
  | cons m nodes ih =>
    rw [enabled, List.filter_cons, getNextMemoryNode]
    split
    · exact .inr ⟨m, nodes, rfl, rfl, List.suffix_rfl⟩
    · obtain hnone | ⟨m', rest, hnext, hsome, hsuffix⟩ := ih
      · exact .inl hnone
      · exact .inr ⟨m', rest, hnext, hsome, hsuffix.trans (List.suffix_cons m nodes)⟩

/-- The entries of the nodes, up to the first node without entries. -/
def upToGap (C : Config) : List Node → List Bank
  | [] => []
  | m :: ms => if m.entries C = [] then [] else m.entries C ++ upToGap C ms

/-- The entries that the loop gets to: the first node may be without. -/
def reached (C : Config) : List Node → List Bank
  | [] => []
  | m :: ms => m.entries C ++ upToGap C ms

/-- A table with these banks from `k` on. -/
def put (dram : Nat → Bank) (k : Nat) : List Bank → Nat → Bank
  | [] => dram
  | b :: bs => put (update dram k b) (k + 1) bs

/-- **The banks** are the entries of the nodes up to a gap. -/
theorem fillBanks_eq (left bank reg : Nat) (mem : Node) (rest : List Node) (dram : Nat → Bank)
    (hmem : Gives C mem (mem.entries C)) (hrest : ∀ m ∈ rest, Gives C m (m.entries C)) :
    fillBanks C left bank mem rest reg dram =
      (0, put dram bank (((mem.entries C).drop reg ++ upToGap C (enabled rest)).take left)) := by
  induction left generalizing bank reg mem rest dram with
  | zero => rfl
  | succ left ih =>
    rw [fillBanks]
    by_cases hreg : reg < (mem.entries C).length
    · obtain ⟨res, hres, hbank⟩ := Option.map_eq_some_iff.mp (hmem.found reg hreg)
      rw [hres]
      dsimp only
      rw [ih _ _ _ _ _ hmem hrest, hbank, List.drop_eq_getElem_cons hreg]
      rfl
    · rw [hmem.missing reg (Nat.not_lt.mp hreg), List.drop_of_length_le (Nat.not_lt.mp hreg),
        List.nil_append]
      dsimp only
      obtain ⟨hnone, hnext⟩ | ⟨m, rest', hnext, hsome, hsuffix⟩ := getNextMemoryNode_eq rest
      · rw [hnext, hnone]
        rfl
      · have hm : m ∈ rest := hsuffix.subset List.mem_cons_self
        have hrest' : ∀ n ∈ rest', Gives C n (n.entries C) :=
          fun n hn => hrest n (hsuffix.subset (List.mem_cons_of_mem m hn))
        rw [hnext, hsome, upToGap]
        dsimp only
        cases hentries : m.entries C with
        | nil =>
          rw [(hrest m hm).missing 0 (by rw [hentries]; exact Nat.le_refl 0)]
          rfl
        | cons b bs =>
          have hzero : 0 < (m.entries C).length := by
            rw [hentries]
            exact Nat.succ_pos _
          obtain ⟨res, hres, hbank⟩ := Option.map_eq_some_iff.mp ((hrest m hm).found 0 hzero)
          rw [hres]
          dsimp only
          rw [ih _ _ _ _ _ (hrest m hm) hrest', hbank]
          simp only [hentries]
          rfl

/-- **The banks are what the loop gets to**, unless no memory node is enabled. -/
theorem setupMemoryBanksize_eq (dram : Nat → Bank)
    (h : ∀ m ∈ nodes, Gives C m (m.entries C)) :
    (enabled nodes = [] ∧ setupMemoryBanksize C nodes dram = (-EINVAL, dram)) ∨
      setupMemoryBanksize C nodes dram =
        (0, put dram 0 ((reached C (enabled nodes)).take C.nrDramBanks)) := by
  rw [setupMemoryBanksize]
  obtain ⟨hnone, hnext⟩ | ⟨m, rest, hnext, hsome, hsuffix⟩ := getNextMemoryNode_eq nodes
  · rw [hnext]
    exact .inl ⟨hnone, rfl⟩
  · rw [hnext, hsome]
    refine .inr (fillBanks_eq _ _ _ m rest dram (h m (hsuffix.subset List.mem_cons_self))
      fun n hn => h n (hsuffix.subset (List.mem_cons_of_mem m hn)))

theorem put_below (dram : Nat → Bank) (k : Nat) (bs : List Bank) {j : Nat} (hj : j < k) :
    put dram k bs j = dram j := by
  induction bs generalizing dram k with
  | nil => rfl
  | cons b bs ih => rw [put, ih _ _ (Nat.lt_succ_of_lt hj), update_of_ne (Nat.ne_of_lt hj)]

theorem put_eq (dram : Nat → Bank) (k : Nat) (bs : List Bank) (i : Nat) :
    put dram k bs (k + i) = bs.getD i (dram (k + i)) := by
  induction bs generalizing dram k i with
  | nil => rfl
  | cons b bs ih =>
    rw [put]
    cases i with
    | zero =>
      show put (update dram k b) (k + 1) bs k = b
      rw [put_below _ _ _ (Nat.lt_succ_self k), update_self]
    | succ i =>
      rw [← Nat.add_assoc, Nat.add_right_comm, ih, update_of_ne (by omega)]
      rfl

/-! ## Gaps -/

/-- **No entries are lost behind a gap**: before an enabled memory node without entries, other than
the first, the banks are full already, or there are no entries behind it. -/
def Gapless (C : Config) (nodes : List Node) : Prop :=
  ∀ front m back, enabled nodes = front ++ m :: back → front ≠ [] → m.entries C = [] →
    C.nrDramBanks ≤ (front.flatMap (Node.entries C)).length ∨ back.flatMap (Node.entries C) = []

theorem upToGap_eq (C : Config) (ms : List Node) :
    upToGap C ms = ms.flatMap (Node.entries C) ∨
      ∃ front m back, ms = front ++ m :: back ∧ m.entries C = [] ∧
        upToGap C ms = front.flatMap (Node.entries C) := by
  induction ms with
  | nil => exact .inl rfl
  | cons m ms ih =>
    rw [upToGap]
    split
    · rename_i hempty
      exact .inr ⟨[], m, ms, rfl, hempty, rfl⟩
    · rw [List.flatMap_cons]
      obtain hall | ⟨front, m', back, rfl, hempty, hfront⟩ := ih
      · exact .inl (congrArg _ hall)
      · refine .inr ⟨m :: front, m', back, rfl, hempty, ?_⟩
        rw [hfront, List.flatMap_cons]

theorem length_upToGap_le (C : Config) (front : List Node) {m : Node} (back : List Node)
    (hempty : m.entries C = []) :
    (upToGap C (front ++ m :: back)).length ≤ (front.flatMap (Node.entries C)).length := by
  induction front with
  | nil =>
    rw [List.nil_append, upToGap, if_pos hempty]
    exact Nat.le_refl 0
  | cons n front ih =>
    rw [List.cons_append, upToGap, List.flatMap_cons, List.length_append]
    split
    · exact Nat.zero_le _
    · rw [List.length_append]
      exact Nat.add_le_add_left ih _

theorem reached_prefix (C : Config) (nodes : List Node) :
    reached C (enabled nodes) <+: entries C nodes := by
  rw [entries]
  cases enabled nodes with
  | nil => exact List.prefix_rfl
  | cons m₀ ms =>
    rw [reached, List.flatMap_cons, List.prefix_append_right_inj]
    obtain hall | ⟨front, m, back, rfl, -, hfront⟩ := upToGap_eq C ms
    · exact hall ▸ List.prefix_rfl
    · rw [hfront, List.flatMap_append]
      exact List.prefix_append _ _

/-- **Without a gap, and only then,** the loop gets to as many entries as there are banks. -/
theorem gapless_iff (C : Config) (nodes : List Node) : Gapless C nodes ↔
    min C.nrDramBanks (entries C nodes).length ≤ (reached C (enabled nodes)).length := by
  rw [Gapless, entries]
  cases enabled nodes with
  | nil =>
    refine iff_of_true (fun front m back h => ?_) (Nat.min_le_right _ _)
    exact absurd h (List.append_ne_nil_of_right_ne_nil _ (List.cons_ne_nil _ _)).symm
  | cons m₀ ms =>
    rw [reached, List.flatMap_cons, List.length_append, List.length_append]
    constructor
    · intro hgap
      obtain hall | ⟨front, m, back, rfl, hempty, hfront⟩ := upToGap_eq C ms
      · rw [hall]
        exact Nat.min_le_right _ _
      · have hlength := hgap (m₀ :: front) m back rfl (List.cons_ne_nil _ _) hempty
        rw [List.flatMap_cons, List.length_append, ← List.length_eq_zero_iff] at hlength
        rw [hfront, List.flatMap_append, List.flatMap_cons, hempty, List.nil_append,
          List.length_append]
        omega
    · intro hlength front m back hsplit hne hempty
      obtain ⟨n, front, rfl⟩ := List.exists_cons_of_ne_nil hne
      have hsplit : m₀ :: ms = n :: (front ++ m :: back) := hsplit
      obtain ⟨rfl, rfl⟩ := List.cons.inj hsplit
      have hle := length_upToGap_le C front back hempty
      rw [List.flatMap_append, List.flatMap_cons, hempty, List.nil_append,
        List.length_append] at hlength
      rw [List.flatMap_cons, List.length_append, ← List.length_eq_zero_iff]
      omega

/-- **The banks are the first entries** if the loop gets to that many, and only then, as the table
may have held anything before. -/
theorem banks_iff (h : ∀ m ∈ nodes, Gives C m (m.entries C)) :
    (∀ dram, (setupMemoryBanksize C nodes dram).1 ≠ 0 ∨
      ∀ i (hi : i < (entries C nodes).length), i < C.nrDramBanks →
        (setupMemoryBanksize C nodes dram).2 i = (entries C nodes)[i]) ↔
    min C.nrDramBanks (entries C nodes).length ≤ (reached C (enabled nodes)).length := by
  have hput (dram : Nat → Bank) (i : Nat) (hnr : i < C.nrDramBanks) :
      put dram 0 ((reached C (enabled nodes)).take C.nrDramBanks) i =
        (reached C (enabled nodes)).getD i (dram i) := by
    have h := put_eq dram 0 ((reached C (enabled nodes)).take C.nrDramBanks) i
    rw [Nat.zero_add] at h
    rw [h, List.getD_eq_getElem?_getD, List.getElem?_take_of_lt hnr, List.getD_eq_getElem?_getD]
  constructor
  · intro hbanks
    by_contra hlt
    have hi : (reached C (enabled nodes)).length < (entries C nodes).length := by omega
    have hnr : (reached C (enabled nodes)).length < C.nrDramBanks := by omega
    -- the bank that is not filled in held something else before
    let dram : Nat → Bank := fun _ =>
      { start := (entries C nodes)[(reached C (enabled nodes)).length].start + 1, size := 0 }
    obtain ⟨hnone, -⟩ | hsetup := setupMemoryBanksize_eq dram h
    · rw [entries, hnone] at hi
      cases hi
    · have hbank := ((hbanks dram).resolve_left fun hc => hc (by rw [hsetup])) _ hi hnr
      rw [hsetup] at hbank
      dsimp only at hbank
      rw [hput dram _ hnr, List.getD_eq_getElem?_getD, List.getElem?_eq_none (Nat.le_refl _),
        Option.getD_none] at hbank
      have hstart := congrArg Bank.start hbank
      exact absurd hstart (Nat.succ_ne_self _)
  · intro hle dram
    obtain ⟨-, hsetup⟩ | hsetup := setupMemoryBanksize_eq dram h
    · rw [hsetup]
      exact .inl (show -EINVAL ≠ 0 by decide)
    · refine .inr fun i hi hnr => ?_
      have hlt : i < (reached C (enabled nodes)).length := by omega
      rw [hsetup]
      dsimp only
      rw [hput dram i hnr, List.getD_eq_getElem?_getD, List.getElem?_eq_getElem hlt,
        Option.getD_some]
      have hreached := reached_prefix C nodes
      exact hreached.getElem hlt

theorem Meets.cellsOk (h : Meets C nodes) : ∀ m ∈ nodes, m.CellsOk := by
  intro m hm c p hparent hreg
  by_contra hbad
  rw [not_or] at hbad
  obtain ⟨x, hx, hbehind⟩ := reads_behind hparent hreg hbad.1 (Int.not_lt.mp hbad.2) C
  exact absurd (h.1 m hm p hreg 0 x hx).2 (Int.not_lt.mpr hbehind)

theorem Meets.gapless (h : Meets C nodes) : Gapless C nodes :=
  (gapless_iff C nodes).mpr ((banks_iff fun m hm => (h.cellsOk m hm).gives C).mp h.2)

/-- **The promise is kept** if and only if no memory node with room for one range has an error for a
number of cells, and no entries are lost behind a gap. -/
theorem setup_meets_iff (C : Config) (nodes : List Node) :
    Meets C nodes ↔ (∀ m ∈ nodes, m.CellsOk) ∧ Gapless C nodes := by
  constructor
  · exact fun h => ⟨h.cellsOk, h.gapless⟩
  · rintro ⟨hcells, hgap⟩
    exact ⟨fun m hm => ((hcells m hm).gives C).reads,
      (banks_iff fun m hm => (hcells m hm).gives C).mpr ((gapless_iff C nodes).mp hgap)⟩

/-- Cells of one address and one size word. -/
def oneOne : ParentCells where
  na := 1
  ns := 1
  na_ne := by decide
  na_range := by decide
  ns_range := by decide

/-- A memory node with these words for ranges. -/
def node (words : List UInt32) (h : words.length < 2 ^ 30) : Node where
  status := none
  parent := some oneOne
  reg := some { words := words, elsewhere := fun _ => 0, length_lt := h }

/-- A machine with four banks and 32-bit addresses. -/
def fourBanks : Config where
  nrDramBanks := 4
  phys64 := false

/-- The middle one of three nodes is empty, and the last one's memory is lost. -/
theorem not_meets_gap : ¬ ∀ (C : Config) (nodes : List Node),
    (∃ m ∈ nodes, m.isEnabled = true) → Meets C nodes := by
  intro hclaim
  have hmeets := hclaim fourBanks [node [0, 16] (by decide), node [] (by decide),
    node [32, 16] (by decide)] ⟨_, List.mem_cons_self, rfl⟩
  have hgap := hmeets.gapless [node [0, 16] (by decide)] (node [] (by decide))
    [node [32, 16] (by decide)] rfl (List.cons_ne_nil _ _) (by decide)
  exact absurd hgap (by decide)

end RealtekIpcam.Uboot.MemoryBanks
