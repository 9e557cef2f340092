import RealtekIpcam.Uboot.Carveouts

/-!
# What is read back of the carveouts

A node that is added for a region is read back as this region, `Filled.getAddrSize`, as long as
nobody writes to it.  The phandle that it gets is above all others, so that it leads to this node,
now and after more nodes have been added.

This holds where a node is added at all, and it is not where `addr + size == end` finds a node that
is one byte shorter than the region.  A node for the region itself is never found, so that there are
two of them after a second call.
-/

namespace RealtekIpcam.Uboot.Carveouts

open DeviceTree Runs

/-! ## Cells -/

theorem upper32Bits_toNat {x : Nat} (hx : x < 2 ^ 64) : (upper32Bits x).toNat = x / 2 ^ 32 := by
  rw [upper32Bits, UInt32.toNat_ofNat']
  exact Nat.mod_eq_of_lt (by omega)

theorem storeCells_eq {n : Int} (hn : n = 1 ∨ n = 2) (x : Nat) :
    storeCells n x = Cells.cells n.toNat x := by
  rcases hn with rfl | rfl
  · simp [storeCells, Cells.cells, lower32Bits]
  · simp [storeCells, Cells.cells, lower32Bits, upper32Bits]

theorem length_storeCells {n : Int} (hn : n = 1 ∨ n = 2) (x : Nat) :
    (storeCells n x).length = n.toNat := by
  rw [storeCells_eq hn, Cells.length_cells]

theorem value_storeCells {n : Int} (hn : n = 1 ∨ n = 2) {x : Nat} (hx : x < 2 ^ (32 * n.toNat)) :
    Cells.value (storeCells n x) = x := by
  rw [storeCells_eq hn, Cells.value_cells hx]

theorem range_cases (W : Width) : W.range = 2 ^ 32 ∨ W.range = 2 ^ 64 := by
  cases W
  · exact Or.inl rfl
  · exact Or.inr rfl

theorem fdtdecGetNumber_mod (W : Width) (cells : List UInt32) :
    fdtdecGetNumber cells % W.range = Cells.value cells % W.range := by
  have hmod : fdtdecGetNumber cells = Cells.value cells % 2 ^ 64 := by
    rw [fdtdecGetNumber, Cells.accumulate_eq cells 0 (by decide), Nat.zero_mul, Nat.zero_add]
  rw [hmod]
  rcases range_cases W with h | h <;> rw [h]
  · exact Nat.mod_mod_of_dvd _ (by decide)
  · exact Nat.mod_mod _ _

theorem lt_of_lt_range {W : Width} {x : Nat} (hx : x < W.range) : x < 2 ^ 64 := by
  rcases range_cases W with h | h <;> omega

theorem lt_of_upper {n : Int} (hn : n = 1 ∨ n = 2) {W : Width} {x : Nat} (hx : x < W.range)
    (hupper : ¬ (n ≤ 1 ∧ 0 < upper32Bits x)) : x < 2 ^ (32 * n.toNat) := by
  have hx' := lt_of_lt_range hx
  rcases hn with rfl | rfl
  · have hzero : (upper32Bits x).toNat = 0 := by
      by_contra hne
      exact hupper ⟨Int.le_refl 1, UInt32.lt_iff_toNat_lt.mpr (Nat.pos_of_ne_zero hne)⟩
    rw [upper32Bits_toNat hx'] at hzero
    change x < 2 ^ 32
    omega
  · exact hx'

theorem size_lt (W : Width) (c : FdtMemory) : c.size W < W.range :=
  Nat.mod_lt _ (Nat.two_pow_pos _)

namespace FdtMemory.Fits

variable {W : Width} {c : FdtMemory}

theorem start_lt (h : c.Fits W) : c.start < W.range :=
  Nat.lt_of_le_of_lt h.le h.end_lt

theorem size_eq (h : c.Fits W) : c.size W = c.end_ + 1 - c.start := by
  have h1 := h.le
  have h2 := h.size_lt
  have h3 := h.end_lt
  have heq : c.end_ + W.range - c.start + 1 = (c.end_ + 1 - c.start) + W.range := by omega
  rw [FdtMemory.size, heq, Nat.add_mod_right, Nat.mod_eq_of_lt h2]

theorem end_eq (h : c.Fits W) : (c.start + c.size W + (W.range - 1)) % W.range = c.end_ := by
  have h1 := h.le
  have h2 := h.size_lt
  have h3 := h.end_lt
  have heq : c.start + (c.end_ + 1 - c.start) + (W.range - 1) = c.end_ + W.range := by omega
  rw [h.size_eq, heq, Nat.add_mod_right, Nat.mod_eq_of_lt h3]

end FdtMemory.Fits

/-! ## Nodes for regions -/

variable {F : Libfdt} {W : Width} {T T₁ : Tree} {m R n : Nat} {na ns : Int} {c : FdtMemory}

/-- The node has been filled in for the region, below `R` with these numbers of cells. -/
structure Filled (F : Libfdt) (W : Width) (T : Tree) (m : Nat) (c : FdtMemory) (R : Nat)
    (na ns : Int) : Prop where
  reserved : F.pathOffset T "/reserved-memory" = .ok R
  mem : m ∈ T.nodes
  parent : T.parent m = some R
  na_eq : F.addressCells (T.prop R "#address-cells") = na
  ns_eq : F.sizeCells (T.prop R "#size-cells") = ns
  na_cases : na = 1 ∨ na = 2
  ns_cases : ns = 1 ∨ ns = 2
  start_lt : c.start < 2 ^ (32 * na.toNat)
  size_lt : c.size W < 2 ^ (32 * ns.toNat)
  reg : T.prop m "reg" =
    some { cells := storeCells na c.start ++ storeCells ns (c.size W), rest := [] }

namespace Filled

theorem values (h : Filled F W T m c R na ns) :
    let cells := storeCells na c.start ++ storeCells ns (c.size W)
    cells.length = na.toNat + ns.toNat ∧ Cells.value (cells.take na.toNat) = c.start ∧
      Cells.value ((cells.drop na.toNat).take ns.toNat) = c.size W := by
  have hna := length_storeCells h.na_cases c.start
  have hns := length_storeCells h.ns_cases (c.size W)
  refine ⟨by rw [List.length_append, hna, hns], ?_, ?_⟩
  · rw [← hna, List.take_left, value_storeCells h.na_cases h.start_lt]
  · rw [← hna, List.drop_left, ← hns, List.take_length, value_storeCells h.ns_cases h.size_lt]

theorem region_eq (h : Filled F W T m c R na ns) (hfits : c.Fits W) : region F T m = some c := by
  obtain ⟨hlen, hstart, hsize⟩ := h.values
  have hle := hfits.le
  have hsize' := hfits.size_eq
  simp only [region, h.parent, h.reg, h.na_eq, h.ns_eq, hlen, hstart, hsize]
  rw [if_neg (by omega), hsize']
  have hend : c.start + (c.end_ + 1 - c.start) - 1 = c.end_ := by omega
  rw [hend]

theorem isCarveout (h : Filled F W T m c R na ns) (hfits : c.Fits W) : IsCarveout F T m c :=
  ⟨h.mem, ⟨R, h.reserved, h.parent⟩, h.region_eq hfits⟩

theorem getAddrSize (h : Filled F W T m c R na ns) (hfits : c.Fits W) :
    getAddrSizeAutoNoparent F W T m = (c.start, c.size W) := by
  obtain ⟨hlen, hstart, hsize⟩ := h.values
  have hna : ¬ (na < 1 ∨ ns < 0) := by
    have h1 := h.na_cases
    have h2 := h.ns_cases
    omega
  simp only [getAddrSizeAutoNoparent, h.parent, h.na_eq, h.ns_eq, if_neg hna, getAddrSizeFixed,
    h.reg, hlen, Nat.lt_irrefl, if_false, fdtdecGetNumber_mod, hstart, hsize]
  rw [Nat.mod_eq_of_lt hfits.start_lt, Nat.mod_eq_of_lt (Carveouts.size_lt W c)]

theorem grows (h : Filled F W T m c R na ns) (hgrows : T.Grows T₁)
    (hreserved : F.pathOffset T₁ "/reserved-memory" = .ok R) : Filled F W T₁ m c R na ns := by
  have hR := F.pathOffset_mem h.reserved
  exact
    { reserved := hreserved
      mem := hgrows.mem m h.mem
      parent := (hgrows.parents m h.mem).trans h.parent
      na_eq := by rw [hgrows.props R hR, h.na_eq]
      ns_eq := by rw [hgrows.props R hR, h.ns_eq]
      na_cases := h.na_cases
      ns_cases := h.ns_cases
      start_lt := h.start_lt
      size_lt := h.size_lt
      reg := by rw [hgrows.props m h.mem, h.reg] }

theorem setProp (h : Filled F W T m c R na ns) {p : String} (hwrite : WriteCond F T n p)
    (v : Value) : Filled F W (T.setProp n p v) m c R na ns := by
  have hcells (q : String) (hq : q = "#address-cells" ∨ q = "#size-cells") : ¬ (R = n ∧ q = p) := by
    rintro ⟨rfl, rfl⟩
    have hne := hwrite.cells h.reserved
    exact hq.elim hne.1 hne.2
  have hreg : ¬ (m = n ∧ "reg" = p) := by
    rintro ⟨rfl, rfl⟩
    exact hwrite.reg R h.reserved h.parent rfl
  exact
    { reserved := (F.pathOffset_setProp T n p v "reserved-memory").trans h.reserved
      mem := h.mem
      parent := h.parent
      na_eq := by rw [Tree.setProp_of_ne (hcells _ (Or.inl rfl)), h.na_eq]
      ns_eq := by rw [Tree.setProp_of_ne (hcells _ (Or.inr rfl)), h.ns_eq]
      na_cases := h.na_cases
      ns_cases := h.ns_cases
      start_lt := h.start_lt
      size_lt := h.size_lt
      reg := by rw [Tree.setProp_of_ne hreg, h.reg] }

end Filled

/-! ## Adding a node -/

theorem bind_eq_ok {ε α β : Type} {x : Except ε α} {f : α → Except ε β} {b : β} :
    x >>= f = .ok b ↔ ∃ a, x = .ok a ∧ f a = .ok b := by
  cases x with
  | error e => exact ⟨nofun, fun ⟨_, h, _⟩ => nomatch h⟩
  | ok a =>
    refine ⟨fun h => ⟨a, rfl, h⟩, ?_⟩
    rintro ⟨_, ⟨⟩, h⟩
    exact h

theorem reservedMemory_cases (h : reservedMemory F T = .ok (T₁, R)) :
    (F.pathOffset T "/reserved-memory" = .ok R ∧ T₁ = T) ∨
    ((∃ e, F.pathOffset T "/reserved-memory" = .error e) ∧
      F.pathOffset T₁ "/reserved-memory" = .ok R ∧ T.Grows T₁ ∧ R ∉ T.nodes ∧
      (∀ k, k ∈ T₁.nodes ↔ k = R ∨ k ∈ T.nodes) ∧ F.phandle T₁ R = 0 ∧
      T₁.prop R "#size-cells" =
        some (cell (UInt32.ofInt (F.sizeCells (T.prop 0 "#size-cells")))) ∧
      T₁.children R = []) := by
  rw [reservedMemory] at h
  cases hpath : F.pathOffset T "/reserved-memory" with
  | ok parent =>
    rw [hpath] at h
    cases h
    exact Or.inl ⟨rfl, rfl⟩
  | error e =>
    rw [hpath] at h
    refine Or.inr ⟨⟨e, rfl⟩, ?_⟩
    simp only [initReservedMemory, bind_eq_ok] at h
    obtain ⟨⟨T', R'⟩, hadd, U₁, h₁, U₂, h₂, U₃, h₃, h⟩ := h
    cases h
    obtain rfl := F.setprop_ok h₁
    obtain rfl := F.setprop_ok h₂
    obtain rfl := F.setprop_ok h₃
    have hadds := F.addSubnode_ok hadd
    have hfound := F.pathOffset_added (s := "reserved-memory") hpath (by decide) (by decide) hadd
    have hset (U : Tree) (p : String) (v : Value) :=
      F.pathOffset_setProp U R' p v "reserved-memory"
    refine ⟨?_, ?_, hadds.fresh, hadds.nodes, ?_, ?_, ?_⟩
    · exact (hset _ _ _).trans ((hset _ _ _).trans ((hset _ _ _).trans hfound))
    · exact ((hadds.grows.setProp hadds.fresh _ _).setProp hadds.fresh _ _).setProp hadds.fresh _ _
    · refine Libfdt.phandle_of_none ?_ ?_
      all_goals
        rw [Tree.setProp_of_prop_ne (by decide), Tree.setProp_of_prop_ne (by decide),
          Tree.setProp_of_prop_ne (by decide)]
        exact hadds.bare _
    · rw [Tree.setProp_of_prop_ne (by decide), Tree.setProp_self]
    · refine List.filter_eq_nil_iff.mpr fun k hk hkR => ?_
      have hparent : T'.parent k = some R' := of_decide_eq_true hkR
      rcases (hadds.nodes k).mp hk with rfl | hk
      · rw [hadds.parent] at hparent
        exact hadds.fresh (Option.some.inj hparent ▸ T.root_mem)
      · rw [hadds.parents k hk] at hparent
        exact hadds.fresh (T.parent_mem k hk R' hparent)

/-- What has been added for a region: a node that is filled in, and perhaps `/reserved-memory`. -/
structure Added (F : Libfdt) (W : Width) (T T₁ : Tree) (c : FdtMemory) (m : Nat) (h : UInt32) :
    Prop where
  grows : T.Grows T₁
  reserved : ∀ R, F.pathOffset T "/reserved-memory" = .ok R →
    F.pathOffset T₁ "/reserved-memory" = .ok R
  fresh : m ∉ T.nodes
  filled : ∃ R na ns, Filled F W T₁ m c R na ns
  phandle_eq : F.phandle T₁ m = h
  above : ∀ k ∈ T.nodes, F.phandle T k < h
  bare : ∀ k ∈ T₁.nodes, k ∈ T.nodes ∨ k = m ∨ F.phandle T₁ k = 0
  valid : h ≠ 0xffffffff

/-- What a new node below `/reserved-memory` has. -/
theorem createNode_spec {basename : String} {x : Option UInt32} (hR : R ≠ 0)
    (h : createNode F W T R na ns basename c true = .ok (T₁, x)) :
    ∃ m phandle, x = some phandle ∧ T.Grows T₁ ∧ m ∉ T.nodes ∧
      (∀ k, k ∈ T₁.nodes ↔ k = m ∨ k ∈ T.nodes) ∧
      F.pathOffset T₁ "/reserved-memory" = F.pathOffset T "/reserved-memory" ∧
      T₁.parent m = some R ∧
      T₁.prop m "reg" =
        some { cells := storeCells na c.start ++ storeCells ns (c.size W), rest := [] } ∧
      F.phandle T₁ m = phandle ∧ (∀ k ∈ T.nodes, F.phandle T k < phandle) ∧
      phandle ≠ 0xffffffff := by
  simp only [createNode, bind_eq_ok, if_true] at h
  obtain ⟨⟨T', m⟩, hadd, phandle, hgen, U₁, h₁, U₂, h₂, h⟩ := h
  cases h
  obtain rfl := F.setPhandle_ok h₁
  obtain rfl := F.setprop_ok h₂
  have hadds := F.addSubnode_ok hadd
  have hbelow := F.pathOffset_below hadd hR "reserved-memory" (by decide)
  have hset (U : Tree) (p : String) (v : Value) := F.pathOffset_setProp U m p v "reserved-memory"
  obtain ⟨hvalid, habove⟩ := F.generatePhandle_ok hgen
  refine ⟨m, phandle, rfl, ?_, hadds.fresh, hadds.nodes, ?_, hadds.parent, Tree.setProp_self, ?_,
    ?_, hvalid⟩
  · exact (hadds.grows.setProp hadds.fresh _ _).setProp hadds.fresh _ _
  · exact (hset _ _ _).trans ((hset _ _ _).trans hbelow)
  · exact Libfdt.phandle_of_cell
      ((Tree.setProp_of_prop_ne (by decide)).trans Tree.setProp_self)
  · intro k hk
    have hlt := habove k (hadds.grows.mem k hk)
    rwa [hadds.props k hk] at hlt

theorem reserved_ne_zero (h : F.pathOffset T "/reserved-memory" = .ok R) : R ≠ 0 := by
  rintro rfl
  have hparent := F.pathOffset_child (s := "reserved-memory") h (by decide) (by decide)
  rw [T.root_parent] at hparent
  cases hparent

/-- The tree in which a node is looked for, under the condition. -/
structure Opened (F : Libfdt) (W : Width) (T T₁ : Tree) (c : FdtMemory) (R : Nat) : Prop where
  grows : T.Grows T₁
  path : F.pathOffset T₁ "/reserved-memory" = .ok R
  reserved : ∀ R', F.pathOffset T "/reserved-memory" = .ok R' → R' = R
  noMatch : findMatch W T₁ R c = none
  wide : c.size W < 2 ^ (32 * (F.sizeCells (T₁.prop R "#size-cells")).toNat)
  bare : ∀ k ∈ T₁.nodes, k ∈ T.nodes ∨ F.phandle T₁ k = 0

theorem opened_of_cond (hroot : RootCells F W T ∨ ∃ R, F.pathOffset T "/reserved-memory" = .ok R)
    (hcond : AddCond F W T c) (h : reservedMemory F T = .ok (T₁, R)) : Opened F W T T₁ c R := by
  obtain ⟨hpath, rfl⟩ | ⟨⟨e, he⟩, hpath, hgrows, _, hnodes, hphandle, hcells, hchildren⟩ :=
    reservedMemory_cases h
  · refine ⟨Tree.Grows.refl _, hpath, fun R' hR' => ?_, ?_, hcond.wide R hpath,
      fun k hk => Or.inl hk⟩
    · rw [hpath] at hR'
      exact (Except.ok.inj hR').symm
    · exact List.find?_eq_none.mpr fun n hn => by simp [hcond.noMatch R hpath n hn]
  · have hnone (R' : Nat) : F.pathOffset T "/reserved-memory" ≠ .ok R' := by
      rw [he]
      exact nofun
    have hroot' : F.sizeCells (T.prop 0 "#size-cells") = W.cells :=
      hroot.resolve_right fun ⟨R', hR'⟩ => hnone R' hR'
    refine ⟨hgrows, hpath, fun R' hR' => absurd hR' (hnone R'), ?_, ?_, fun k hk => ?_⟩
    · rw [findMatch, hchildren, List.find?_nil]
    · have hns : F.sizeCells (T₁.prop R "#size-cells") = W.cells := by
        rw [hcells, hroot']
        cases W
        · exact F.sizeCells_cell 1 (by decide) (by decide)
        · exact F.sizeCells_cell 2 (by decide) (by decide)
      rw [hns, Int.toNat_natCast]
      exact size_lt W c
    · rcases (hnodes k).mp hk with rfl | hk
      · exact Or.inr hphandle
      · exact Or.inl hk

theorem added_of_cond {basename : String} {x : Option UInt32}
    (hroot : RootCells F W T ∨ ∃ R, F.pathOffset T "/reserved-memory" = .ok R)
    (hfits : c.Fits W) (hcond : AddCond F W T c)
    (h : addReservedMemory F W T basename c true = .ok (T₁, x)) :
    ∃ m phandle, x = some phandle ∧ Added F W T T₁ c m phandle := by
  simp only [addReservedMemory, bind_eq_ok] at h
  obtain ⟨⟨T', R⟩, hres, h⟩ := h
  have hopened := opened_of_cond hroot hcond hres
  dsimp only at h
  by_cases hna : F.addressCells (T'.prop R "#address-cells") < 1 ∨
      2 < F.addressCells (T'.prop R "#address-cells")
  · rw [if_pos hna] at h
    cases h
  by_cases hns : F.sizeCells (T'.prop R "#size-cells") < 1 ∨
      2 < F.sizeCells (T'.prop R "#size-cells")
  · rw [if_neg hna, if_pos hns] at h
    cases h
  rw [if_neg hna, if_neg hns, hopened.noMatch] at h
  dsimp only at h
  by_cases hupper : F.addressCells (T'.prop R "#address-cells") ≤ 1 ∧ 0 < upper32Bits c.start
  · rw [if_pos hupper] at h
    cases h
  rw [if_neg hupper] at h
  obtain ⟨m, phandle, hx, hgrows, hfresh, hnodes, hpath, hparent, hreg, hphandle, habove, hvalid⟩ :=
    createNode_spec (reserved_ne_zero hopened.path) h
  have hR := F.pathOffset_mem hopened.path
  rw [hopened.path] at hpath
  refine ⟨m, phandle, hx, hopened.grows.trans hgrows, fun R' hR' => ?_, fun hm => ?_, ?_, hphandle,
    fun k hk => ?_, fun k hk => ?_, hvalid⟩
  · rw [hopened.reserved R' hR', hpath]
  · exact hfresh (hopened.grows.mem m hm)
  · have hna' : F.addressCells (T'.prop R "#address-cells") = 1 ∨
        F.addressCells (T'.prop R "#address-cells") = 2 := by omega
    exact ⟨R, _, _, hpath, (hnodes m).mpr (Or.inl rfl), hparent, by rw [hgrows.props R hR],
      by rw [hgrows.props R hR], hna', by omega, lt_of_upper hna' hfits.start_lt hupper,
      hopened.wide, hreg⟩
  · have hlt := habove k (hopened.grows.mem k hk)
    rwa [Libfdt.phandle_congr (hopened.grows.props k hk)] at hlt
  · rcases (hnodes k).mp hk with rfl | hk'
    · exact Or.inr (Or.inl rfl)
    · rw [Libfdt.phandle_congr (hgrows.props k hk')]
      exact (hopened.bare k hk').imp_right Or.inr

theorem addMeets_of_cond {basename : String}
    (hroot : RootCells F W T ∨ ∃ R, F.pathOffset T "/reserved-memory" = .ok R)
    (hfits : c.Fits W) (hcond : AddCond F W T c) : AddMeets F W T basename c := by
  refine ⟨fun ⟨n, hn⟩ => absurd hn (hcond.absent n), fun _ T' x h => ?_⟩
  obtain ⟨m, phandle, rfl, hadded⟩ := added_of_cond hroot hfits hcond h
  obtain ⟨R, na, ns, hfilled⟩ := hadded.filled
  exact ⟨m, hadded.fresh, hfilled.isCarveout hfits, by rw [hadded.phandle_eq]⟩

/-! ## Reading back -/

/-- A property of a node has the phandle of a node that is filled in for a region, and no other node
has that phandle. -/
structure Stored (F : Libfdt) (W : Width) (T : Tree) (n : Nat) (p : String) (c : FdtMemory) :
    Prop where
  node : n ∈ T.nodes
  filled : ∃ m R na ns, Filled F W T m c R na ns ∧
    T.prop n p = some (cell (F.phandle T m)) ∧ 0 < F.phandle T m ∧
    F.phandle T m ≠ 0xffffffff ∧ ∀ k ∈ T.nodes, F.phandle T k = F.phandle T m → k = m

theorem Stored.getCarveout {p path : String} (h : Stored F W T n p c) (hfits : c.Fits W)
    (hstart : c.start ≠ W.addrNone) (hpath : F.pathOffset T path = .ok n) :
    getCarveout F W T path p 0 = .ok c := by
  obtain ⟨m, R, na, ns, hfilled, hprop, hpos, hvalid, hunique⟩ := h.filled
  have hfound := F.nodeOffsetByPhandle_ok hpos hvalid hfilled.mem rfl hunique
  refine bind_eq_ok.mpr ⟨n, hpath, ?_⟩
  simp only [hprop, cell, ne_eq, not_true, if_false, List.getElem?_cons_zero]
  refine bind_eq_ok.mpr ⟨m, hfound, ?_⟩
  simp only [hfilled.getAddrSize hfits, if_neg hstart, hfits.end_eq]
  rfl

theorem Stored.added {p : String} {c' : FdtMemory} {phandle : UInt32} (h : Stored F W T n p c)
    (hadded : Added F W T T₁ c' m phandle) : Stored F W T₁ n p c := by
  obtain ⟨m₀, R, na, ns, hfilled, hprop, hpos, hvalid, hunique⟩ := h.filled
  have hsame := Libfdt.phandle_congr (F := F) (hadded.grows.props m₀ hfilled.mem)
  refine ⟨hadded.grows.mem n h.node, m₀, R, na, ns,
    hfilled.grows hadded.grows (hadded.reserved R hfilled.reserved), ?_, ?_, ?_, fun k hk heq => ?_⟩
  · rw [hadded.grows.props n h.node, hsame, hprop]
  · rwa [hsame]
  · rwa [hsame]
  · -- a node that has come since has a higher phandle, or none
    rw [hsame] at heq
    obtain hk | rfl | hzero := hadded.bare k hk
    · rw [Libfdt.phandle_congr (hadded.grows.props k hk)] at heq
      exact hunique k hk heq
    · have hlt := hadded.above m₀ hfilled.mem
      rw [← heq, hadded.phandle_eq] at hlt
      exact absurd hlt (UInt32.lt_irrefl _)
    · rw [← heq, hzero] at hpos
      exact absurd hpos (UInt32.lt_irrefl _)

theorem phandle_of_writeCond {p : String} (hwrite : WriteCond F T n p) (v : Value) (k : Nat) :
    F.phandle (T.setProp n p v) k = F.phandle T k := by
  by_cases hk : k = n
  · rw [hk]
    exact hwrite.phandle v
  · exact Libfdt.phandle_congr (Tree.setProp_of_node_ne hk)

theorem Stored.setProp {p q : String} {k : Nat} (h : Stored F W T n p c)
    (hwrite : WriteCond F T k q) (hne : ¬ (k = n ∧ q = p)) (v : Value) :
    Stored F W (T.setProp k q v) n p c := by
  obtain ⟨m₀, R, na, ns, hfilled, hprop, hpos, hvalid, hunique⟩ := h.filled
  refine ⟨h.node, m₀, R, na, ns, hfilled.setProp hwrite v, ?_⟩
  simp only [phandle_of_writeCond hwrite]
  refine ⟨?_, hpos, hvalid, hunique⟩
  rw [Tree.setProp_of_ne fun he => hne ⟨he.1.symm, he.2.symm⟩, hprop]

theorem Added.stored {p : String} {phandle : UInt32} (hadded : Added F W T T₁ c m phandle)
    (hn : n ∈ T₁.nodes) (hwrite : WriteCond F T₁ n p) :
    Stored F W (T₁.setProp n p (cell phandle)) n p c := by
  obtain ⟨R, na, ns, hfilled⟩ := hadded.filled
  have hpos : 0 < phandle := by
    have hlt := hadded.above 0 T.root_mem
    exact UInt32.lt_of_le_of_lt (UInt32.zero_le) hlt
  refine ⟨hn, m, R, na, ns, hfilled.setProp hwrite _, ?_⟩
  simp only [phandle_of_writeCond hwrite, hadded.phandle_eq]
  refine ⟨Tree.setProp_self, hpos, hadded.valid, fun k hk heq => ?_⟩
  obtain hk | rfl | hzero := hadded.bare k hk
  · have hlt := hadded.above k hk
    rw [← Libfdt.phandle_congr (hadded.grows.props k hk), heq] at hlt
    exact absurd hlt (UInt32.lt_irrefl _)
  · rfl
  · rw [← heq, hzero] at hpos
    exact absurd hpos (UInt32.lt_irrefl _)

/-! ## Runs -/

/-- **One call** under the condition: a region is added, and its phandle is written. -/
theorem step_spec {T₂ : Tree} {e : Call}
    (hroot : RootCells F W T ∨ ∃ R, F.pathOffset T "/reserved-memory" = .ok R)
    (hcond : CallCond F W T e) (h : step F W T e = some T₂) :
    ∃ T₁ m phandle k, Added F W T T₁ e.carveout m phandle ∧ k ∈ T₁.nodes ∧
      WriteCond F T₁ k e.propName ∧ T₂ = T₁.setProp k e.propName (cell phandle) ∧
      ∀ k', Sets F W T e k' ↔ k' = k := by
  have hok : setCarveout F W T e.node e.propName 0 e.name e.carveout = .ok T₂ := by
    rw [step] at h
    cases hres : setCarveout F W T e.node e.propName 0 e.name e.carveout with
    | error err =>
      rw [hres] at h
      cases h
    | ok T' =>
      rw [hres] at h
      exact congrArg Except.ok (Option.some.inj h)
  simp only [setCarveout, Nat.lt_irrefl, if_false, bind_eq_ok] at hok
  obtain ⟨⟨T₁, x⟩, hadd, k, hpath, hset⟩ := hok
  obtain ⟨m, phandle, rfl, hadded⟩ := added_of_cond hroot hcond.fits hcond.add hadd
  refine ⟨T₁, m, phandle, k, hadded, F.pathOffset_mem hpath, hcond.write T₁ _ k hadd hpath,
    F.setprop_ok hset, fun k' => ⟨?_, ?_⟩⟩
  · rintro ⟨T', x', hadd', hpath'⟩
    rw [hadd] at hadd'
    cases hadd'
    rw [hpath] at hpath'
    exact (Except.ok.inj hpath').symm
  · rintro rfl
    exact ⟨T₁, _, hadd, hpath⟩

/-- The cells of the root are what they should be, or no longer matter. -/
def Ready (F : Libfdt) (W : Width) (T : Tree) : Prop :=
  RootCells F W T ∨ ∃ R, F.pathOffset T "/reserved-memory" = .ok R

theorem ready_step {T₂ : Tree} {e : Call} (hready : Ready F W T) (hcond : CallCond F W T e)
    (h : step F W T e = some T₂) : Ready F W T₂ := by
  obtain ⟨T₁, m, phandle, k, hadded, -, -, rfl, -⟩ := step_spec hready hcond h
  obtain ⟨R, na, ns, hfilled⟩ := hadded.filled
  exact Or.inr ⟨R, (F.pathOffset_setProp T₁ k _ _ "reserved-memory").trans hfilled.reserved⟩

theorem Stored.step {T₂ : Tree} {e : Call} {p : String} (h : Stored F W T n p c)
    (hready : Ready F W T) (hcond : CallCond F W T e)
    (hother : ¬ (Sets F W T e n ∧ e.propName = p)) (hstep : step F W T e = some T₂) :
    Stored F W T₂ n p c := by
  obtain ⟨T₁, m, phandle, k, hadded, -, hwrite, rfl, hsets⟩ := step_spec hready hcond hstep
  refine (h.added hadded).setProp hwrite (fun he => hother ⟨?_, he.2⟩) _
  exact (hsets n).mpr he.1.symm

theorem Stored.run {r : List Call} {T₂ : Tree} {p : String} (h : Stored F W T n p c)
    (hready : Ready F W T) (hcond : Along (Carveouts.step F W) (CallCond F W) T r)
    (hlast : Along (Carveouts.step F W)
      (fun T e => ¬ (Sets F W T e n ∧ e.propName = p)) T r)
    (hrun : exec (Carveouts.step F W) T r = some T₂) : Stored F W T₂ n p c := by
  refine (exec_invariant (P := fun T => Ready F W T ∧ Stored F W T n p c) ?_ ⟨hready, h⟩
    (along_and.mp ⟨hcond, hlast⟩) hrun).2
  rintro T e T' ⟨hready, h⟩ ⟨hcond, hother⟩ hstep
  exact ⟨ready_step hready hcond hstep, h.step hready hcond hother hstep⟩

/-- In a run that meets the condition, what was set is read back. -/
theorem roundTrips_of_run {T₀ : Tree} {calls : List Call} (hready : Ready F W T₀)
    (hcond : Along (step F W) (CallCond F W) T₀ calls)
    (hrun : exec (step F W) T₀ calls = some T) : RoundTrips F W T₀ calls T := by
  rintro l e r T₁ T₂ n rfl hl hstep hsets hlast path hpath
  obtain ⟨hcondl, hcondr⟩ := hcond.append
  obtain ⟨hconde, hrest⟩ := hcondr T₁ hl
  have hready₁ : Ready F W T₁ :=
    exec_invariant (fun T e T' hready hcond hstep => ready_step hready hcond hstep) hready
      hcondl hl
  have hr : exec (step F W) T₂ r = some T := by
    obtain ⟨U, hU, hrun⟩ := exec_append.mp hrun
    obtain ⟨V, hV, hrun⟩ := exec_cons.mp hrun
    rw [hl] at hU
    obtain rfl := Option.some.inj hU
    rw [hstep] at hV
    obtain rfl := Option.some.inj hV
    exact hrun
  have hready₂ := ready_step hready₁ hconde hstep
  have hrest₂ := hrest T₂ hstep
  obtain ⟨T', m, phandle, k, hadded, hk, hwrite, rfl, hsetsk⟩ := step_spec hready₁ hconde hstep
  obtain rfl := (hsetsk n).mp hsets
  exact ((hadded.stored hk hwrite).run hready₂ hrest₂ hlast hr).getCarveout hconde.fits
    hconde.start_ne hpath

/-- **Carveouts.**  In a run whose calls meet the condition, what is set last is read back, every
call gives its region a node of its own, and so does a further one under the condition. -/
theorem carveouts_of_run (F : Libfdt) (W : Width) {T₀ T : Tree} {calls : List Call}
    (hroot : RootCells F W T₀) (hcond : Along (step F W) (CallCond F W) T₀ calls)
    (hrun : exec (step F W) T₀ calls = some T) :
    RoundTrips F W T₀ calls T ∧
      Along (step F W) (fun T e => AddMeets F W T e.name e.carveout) T₀ calls ∧
      ∀ basename (c : FdtMemory), c.Fits W → AddCond F W T c → AddMeets F W T basename c := by
  have hready : Ready F W T₀ := Or.inl hroot
  have hstep : ∀ T e T', Ready F W T → CallCond F W T e → step F W T e = some T' →
      Ready F W T' := fun T e T' hready hcond h => ready_step hready hcond h
  refine ⟨roundTrips_of_run hready hcond hrun, ?_, fun basename c hfits hadd => ?_⟩
  · exact hcond.of_invariant hstep
      (fun T e hready hcond => addMeets_of_cond hready hcond.fits hcond.add) hready
  · exact addMeets_of_cond (exec_invariant hstep hready hcond hrun) hfits hadd

/-! ## A region for a video device -/

/-- A property of one cell each for the cells. -/
def oneOne (p : String) : Option Value :=
  if p = "#address-cells" ∨ p = "#size-cells" then some (cell 1) else none

/-- A tree with nothing but its root. -/
def bare : Tree where
  nodes := [0]
  parent := fun _ => none
  name := fun _ => ""
  prop := fun _ => oneOne
  root_mem := by decide
  root_parent := rfl
  parent_mem := nofun

/-- 4 KiB at 4096. -/
def page : FdtMemory where
  start := 0x1000
  end_ := 0x1fff

theorem page_fits : page.Fits .bits32 := ⟨by decide, by decide, by decide⟩

/-- The root refers to the region. -/
def video : Call where
  node := "/"
  propName := "memory-region"
  name := "video"
  carveout := page

theorem callCond_video : CallCond small .bits32 bare video := by
  have hpath (R : Nat) : small.pathOffset bare "/reserved-memory" ≠ .ok R := nofun
  refine ⟨page_fits, ⟨fun n hn => ?_, fun R hR => absurd hR (hpath R),
    fun R hR => absurd hR (hpath R)⟩, by decide, fun T' x n _ hn => ?_⟩
  · obtain ⟨R, hR, _⟩ := hn.below
    exact hpath R hR
  · exact ⟨fun v => Libfdt.phandle_setProp (by decide) (by decide) n, fun _ _ _ => by decide,
      fun _ => ⟨by decide, by decide⟩⟩

/-- What is set is read back. -/
theorem carveouts_video : ∃ T, exec (step small .bits32) bare [video] = some T ∧
    RoundTrips small .bits32 bare [video] T := by
  have hsome : (exec (step small .bits32) bare [video]).isSome = true := by decide
  obtain ⟨T, hT⟩ := Option.isSome_iff_exists.mp hsome
  have hroot : RootCells small .bits32 bare := rfl
  have hcond : Along (step small .bits32) (CallCond small .bits32) bare [video] :=
    ⟨callCond_video, fun _ _ => trivial⟩
  exact ⟨T, hT, (carveouts_of_run small .bits32 hroot hcond hT).1⟩

/-- A tree with a node for the region. -/
def onePage : Tree where
  nodes := [0, 1, 2]
  parent := fun n => if n = 0 then none else if n = 1 then some 0 else some 1
  name := fun n => if n = 0 then "" else if n = 1 then "reserved-memory" else "video@1000"
  prop := fun n p =>
    if n = 2 then
      if p = "reg" then some { cells := [0x1000, 0x1000], rest := [] }
      else if p = "phandle" then some (cell 1)
      else none
    else oneOne p
  root_mem := by decide
  root_parent := rfl
  parent_mem := by decide

/-- The region is there, and a second node is added for it. -/
theorem not_addMeets_onePage : ¬ ∀ (F : Libfdt) (W : Width) (T : Tree) basename (c : FdtMemory),
    RootCells F W T → c.Fits W → AddMeets F W T basename c := by
  intro hclaim
  have hthere : IsCarveout small onePage 2 page := ⟨by decide, ⟨1, rfl, rfl⟩, by decide⟩
  obtain ⟨n, hn, hadd⟩ := (hclaim small .bits32 onePage "audio" page rfl page_fits).again
    ⟨2, hthere⟩
  have hphandle : (addReservedMemory small .bits32 onePage "audio" page true).toOption.map
      Prod.snd = some (some 2) := by decide
  rw [hadd] at hphandle
  have hother : ∀ k ∈ onePage.nodes, some (some (small.phandle onePage k)) ≠ some (some 2) := by
    decide
  exact hother n hn.mem hphandle

end RealtekIpcam.Uboot.Carveouts
