import RealtekIpcam.Uboot.AliasList

/-!
# Where the nodes of a list of aliases stand

The first loop of `fdtdec_add_aliases_for_id` grants claims one after the other, `Tracks.visit`, and
the second completes them, `holds_addRest`.  So the list is complete for the claims that the code
sees, `holds_findAliasesForId`, and it is what it should be if the claims that it sees and should
not see are harmless.  There are such claims: the number is what `simple_strtoul` makes of the rest
of the name, and it makes 0 of no number at all.
-/

namespace RealtekIpcam.Uboot.AliasList

open Assignment

/-! ## Lists -/

theorem filter_replace {p : Nat → Bool} {a b : Nat} (hb : p b = false) (l : List Nat) :
    (l.replace a b).filter p = (l.filter p).erase a := by
  induction l with
  | nil => rfl
  | cons x l ih =>
    by_cases hx : x = a
    · rw [hx]
      cases ha : p a with
      | true => simp [ha, hb]
      | false =>
        have hnot : a ∉ l.filter p := fun h => by
          rw [(List.mem_filter.mp h).2] at ha
          cases ha
        simp [ha, hb, List.erase_of_not_mem hnot]
    · have hxa : (a == x) = false := by simpa using Ne.symm hx
      have hax : (x == a) = false := by simpa using hx
      cases hpx : p x with
      | true => simp [List.replace_cons, hxa, hpx, ih, hax]
      | false => simp [List.replace_cons, hxa, hpx, ih]

theorem dropWhile_cases (p : Nat → Bool) (l : List Nat) :
    (l.dropWhile (fun x => !p x) = [] ∧ l.filter p = []) ∨
      ∃ x r, l.dropWhile (fun x => !p x) = x :: r ∧ p x = true ∧ l.filter p = x :: r.filter p := by
  induction l with
  | nil => exact Or.inl ⟨rfl, rfl⟩
  | cons x l ih =>
    cases hpx : p x with
    | true => exact Or.inr ⟨x, l, by simp [hpx], hpx, by simp [hpx]⟩
    | false => simpa [hpx] using ih

namespace Tree

variable {T : Tree} {S : Strtoul} {q : Query}

/-! ## The compatible nodes -/

theorem filter_lt_of_cons {node next : Nat} {r : List Nat}
    (h : T.compatible.filter (node < ·) = next :: r) : T.compatible.filter (next < ·) = r := by
  have hnext : node < next := by
    have hmem : next ∈ T.compatible.filter (node < ·) := h ▸ List.mem_cons_self
    simpa using (List.mem_filter.mp hmem).2
  have hr : ∀ x ∈ r, next < x := by
    have hsorted := T.sorted.filter (node < ·)
    rw [h] at hsorted
    exact (List.pairwise_cons.mp hsorted).1
  calc T.compatible.filter (next < ·)
      = (T.compatible.filter (node < ·)).filter (next < ·) := by
        rw [List.filter_filter]
        refine List.filter_congr fun x _ => ?_
        simpa using fun hx => Nat.lt_trans hnext hx
    _ = r := by
        rw [h, List.filter_cons_of_neg (by simp)]
        exact List.filter_eq_self.mpr fun x hx => by simpa using hr x hx

theorem collect_eq (room node : Nat) :
    T.collect room node = (T.compatible.filter (node < ·)).take room := by
  induction room generalizing node with
  | zero => rfl
  | succ room ih =>
    rw [collect, nextCompatible, ← List.head?_filter]
    cases h : T.compatible.filter (node < ·) with
    | nil => rfl
    | cons next r =>
      rw [List.head?_cons, List.take_succ_cons]
      exact congrArg (next :: ·) (by rw [ih, filter_lt_of_cons h])

theorem collect_all (h : T.compatible.length ≤ q.maxcount) :
    T.collect q.maxcount 0 = T.compatible.filter (0 < ·) := by
  rw [collect_eq]
  exact List.take_of_length_le (Nat.le_trans (List.length_filter_le _ _) h)

theorem nodup_enabledCompatible (T : Tree) : T.enabledCompatible.Nodup :=
  List.Nodup.filter _ (T.sorted.imp Nat.ne_of_lt)

theorem live_of_mem (h0 : 0 ∉ T.enabledCompatible) {node : Nat}
    (h : node ∈ T.enabledCompatible) : T.live node = true := by
  have hne : node ≠ 0 := fun he => h0 (he ▸ h)
  simp [live, hne, (List.mem_filter.mp h).2]

theorem filter_live (h0 : 0 ∉ T.enabledCompatible) :
    (T.compatible.filter (0 < ·)).filter T.live = T.enabledCompatible := by
  rw [List.filter_filter, enabledCompatible]
  refine List.filter_congr fun x hx => ?_
  cases hen : T.isEnabled x with
  | false => simp [live, hen]
  | true =>
    have hlive := live_of_mem h0 (List.mem_filter.mpr ⟨hx, hen⟩)
    have hne : x ≠ 0 := by
      rintro rfl
      exact h0 (List.mem_filter.mpr ⟨hx, hen⟩)
    simpa [hlive] using Nat.pos_of_ne_zero hne

/-! ## The aliases -/

/-- The claims that are granted stand in the list, and the enabled nodes that they leave are still
to be placed. -/
structure Tracks (T : Tree) (q : Query) (G : List (Nat × Nat)) (s : State) : Prop where
  length : s.slots.nodeList.length = q.maxcount
  holds : ∀ i node, s.slots.Holds i node ↔ (i, node) ∈ G
  left : s.nodes.filter T.live = freeThings T.enabledCompatible G
  counted : s.slots.Counted

theorem claim_eq_some {p : Property} {c : Nat × Nat} (h : T.claim S q p = some c) :
    0 < T.aliasNode q p ∧ 0 ≤ S.number q p ∧ c.1 < q.maxcount ∧ c.2 ∈ T.enabledCompatible ∧
      c = ((S.number q p).toNat, (T.aliasNode q p).toNat) := by
  by_cases hc : 0 < T.aliasNode q p ∧ 0 ≤ S.number q p ∧ S.number q p < q.maxcount ∧
      (T.aliasNode q p).toNat ∈ T.enabledCompatible
  · rw [claim, if_pos hc] at h
    cases h
    exact ⟨hc.1, hc.2.1, (Int.toNat_lt hc.2.1).mpr hc.2.2.1, hc.2.2.2, rfl⟩
  · rw [claim, if_neg hc] at h
    cases h

/-- What one round does: nothing, to strike out a node that is disabled, nothing as the place has
been taken, or to place the node. -/
theorem visit_cases (S : Strtoul) (q : Query) (s : State) (p : Property) :
    ((T.claim S q p = none ∨ (T.aliasNode q p).toNat ∉ s.nodes) ∧ T.visit S q s p = s) ∨
    (T.isEnabled (T.aliasNode q p).toNat = false ∧
      T.visit S q s p = { s with nodes := s.nodes.replace (T.aliasNode q p).toNat 0 }) ∨
    (0 < T.aliasNode q p ∧ 0 ≤ S.number q p ∧ S.number q p < q.maxcount ∧
      (T.aliasNode q p).toNat ∈ s.nodes ∧ T.isEnabled (T.aliasNode q p).toNat = true ∧
      ((∃ node, s.slots.Holds (S.number q p).toNat node) ∧ T.visit S q s p = s ∨
        (∀ node, ¬ s.slots.Holds (S.number q p).toNat node) ∧
        T.visit S q s p =
          { nodes := s.nodes.replace (T.aliasNode q p).toNat 0
            slots := s.slots.place (S.number q p).toNat (T.aliasNode q p).toNat })) := by
  rw [visit]
  by_cases hnode : T.aliasNode q p ≤ 0
  · exact Or.inl ⟨Or.inl (if_neg fun h => absurd h.1 (by omega)), if_pos hnode⟩
  by_cases hnum : S.number q p < 0 ∨ q.maxcount ≤ S.number q p
  · refine Or.inl ⟨Or.inl (if_neg fun h => ?_), by simp only [hnode, hnum, if_true, if_false]⟩
    obtain ⟨-, h1, h2, -⟩ := h
    omega
  by_cases hmem : (T.aliasNode q p).toNat ∈ s.nodes
  swap
  · exact Or.inl ⟨Or.inr hmem, by simp only [hnode, hnum, hmem, not_false_iff, if_true, if_false]⟩
  right
  cases hen : T.isEnabled (T.aliasNode q p).toNat with
  | false =>
    exact Or.inl ⟨rfl, by simp only [hnode, hnum, hmem, not_true, if_false, Bool.false_eq_true]⟩
  | true =>
    refine Or.inr ⟨by omega, by omega, by omega, hmem, rfl, ?_⟩
    by_cases hfull : ∃ node, s.slots.Holds (S.number q p).toNat node
    · refine Or.inl ⟨hfull, ?_⟩
      rw [← Slots.getD_ne_zero_iff] at hfull
      simp only [hnode, hnum, hmem, not_true, if_true, if_false, if_pos hfull]
    · refine Or.inr ⟨not_exists.mp hfull, ?_⟩
      rw [← Slots.getD_ne_zero_iff] at hfull
      simp only [hnode, hnum, hmem, not_true, if_true, if_false, if_neg hfull]

theorem Tracks.mem_free {G : List (Nat × Nat)} {s : State} (h : Tracks T q G s) {node : Nat}
    (hmem : node ∈ s.nodes) (hlive : T.live node = true) :
    node ∈ freeThings T.enabledCompatible G := by
  rw [← h.left]
  exact List.mem_filter.mpr ⟨hmem, hlive⟩

/-- One alias is visited. -/
theorem Tracks.visit {G : List (Nat × Nat)} {s : State} (h : Tracks T q G s) (p : Property) :
    Tracks T q ((T.claim S q p).toList.foldl grant G) (T.visit S q s p) := by
  obtain ⟨hnone, hs⟩ | ⟨hdis, hs⟩ | ⟨hnode, hnum, hlt, hmem, hen, hs⟩ :=
    visit_cases (T := T) S q s p
  · rw [hs]
    cases hc : T.claim S q p with
    | none => exact h
    | some c =>
      -- the node has been placed before
      obtain ⟨-, -, -, hc2, rfl⟩ := claim_eq_some hc
      have hgone : (T.aliasNode q p).toNat ∉ freeThings T.enabledCompatible G := by
        rw [← h.left]
        exact fun hm => hnone.elim (fun hn => by rw [hc] at hn; cases hn)
          fun hn => hn (List.mem_of_mem_filter hm)
      have hclash : ∃ a ∈ G, a.2 = (T.aliasNode q p).toNat := by
        by_contra hn
        exact hgone (mem_freeThings.mpr ⟨hc2, fun a ha he => hn ⟨a, ha, he⟩⟩)
      obtain ⟨a, ha, he⟩ := hclash
      rw [Option.toList_some, List.foldl_cons, List.foldl_nil, grant_of_clash ha (Or.inr he)]
      exact h
  · have hc : T.claim S q p = none := by
      refine if_neg fun hc => ?_
      have htrue := (List.mem_filter.mp hc.2.2.2).2
      rw [hdis] at htrue
      cases htrue
    rw [hs, hc]
    have hlive : T.live (T.aliasNode q p).toNat = false := by simp [live, hdis]
    have hnot : (T.aliasNode q p).toNat ∉ s.nodes.filter T.live := fun hm => by
      rw [(List.mem_filter.mp hm).2] at hlive
      cases hlive
    refine ⟨h.length, h.holds, ?_, h.counted⟩
    rw [filter_replace rfl, List.erase_of_not_mem hnot, h.left]
    rfl
  · have hlive : T.live (T.aliasNode q p).toNat = true := by
      have hne : (T.aliasNode q p).toNat ≠ 0 := by omega
      simp [live, hne, hen]
    have hfree := h.mem_free hmem hlive
    have hc : T.claim S q p = some ((S.number q p).toNat, (T.aliasNode q p).toNat) :=
      if_pos ⟨hnode, hnum, hlt, (mem_freeThings.mp hfree).1⟩
    rw [hc, Option.toList_some, List.foldl_cons, List.foldl_nil]
    obtain ⟨⟨node, hfull⟩, hs⟩ | ⟨hhole, hs⟩ := hs
    · have hclash : Clashes ((S.number q p).toNat, node)
          ((S.number q p).toNat, (T.aliasNode q p).toNat) := Or.inl rfl
      rw [hs, grant_of_clash ((h.holds _ node).mp hfull) hclash]
      exact h
    · have hi : (S.number q p).toNat < s.slots.nodeList.length := by
        rw [h.length]
        omega
      have hne : (T.aliasNode q p).toNat ≠ 0 := by omega
      have hno : ∀ a ∈ G, ¬ Clashes a ((S.number q p).toNat, (T.aliasNode q p).toNat) := by
        rintro ⟨i, node⟩ ha (he | he)
        · obtain rfl : i = (S.number q p).toNat := he
          exact hhole node ((h.holds _ node).mpr ha)
        · exact (mem_freeThings.mp hfree).2 _ ha he
      rw [hs, grant_of_free hno]
      refine ⟨(Slots.length_place _ _ _).trans h.length, fun i node => ?_, ?_,
        h.counted.place hi hne hhole⟩
      · rw [Slots.holds_place hi hne hhole, h.holds, List.mem_append, List.mem_singleton]
      · rw [freeThings_concat (nodup_enabledCompatible T), ← h.left]
        exact filter_replace rfl s.nodes

theorem Tracks.foldl {s : State} (h : Tracks T q [] s) (ps : List Property) :
    Tracks T q (grants (ps.filterMap (T.claim S q))) (ps.foldl (T.visit S q) s) := by
  induction ps using List.reverseRecOn with
  | nil => exact h
  | append_singleton ps p ih =>
    rw [List.foldl_append, List.foldl_cons, List.foldl_nil, List.filterMap_append]
    have hstep := ih.visit (S := S) p
    cases hc : T.claim S q p with
    | none => simpa [hc] using hstep
    | some c => simpa [hc] using hstep

/-! ## The nodes without an alias -/

/-- The holes from the entry `i` on. -/
def holes (s : Slots) (i room : Nat) : List Nat :=
  (List.range' i room).filter fun k => s.nodeList.getD k 0 = 0

theorem holes_of_ne {s : Slots} {i : Nat} (h : s.nodeList.getD i 0 ≠ 0) (room : Nat) :
    holes s i (room + 1) = holes s (i + 1) room := by
  rw [holes, List.range'_succ, List.filter_cons_of_neg (by simpa using h), holes]

theorem holes_of_eq {s : Slots} {i : Nat} (h : ¬ s.nodeList.getD i 0 ≠ 0) (room : Nat) :
    holes s i (room + 1) = i :: holes s (i + 1) room := by
  rw [holes, List.range'_succ, List.filter_cons_of_pos (by simpa using h), holes]

theorem holes_place (s : Slots) (i node room : Nat) :
    holes (s.place i node) (i + 1) room = holes s (i + 1) room := by
  refine List.filter_congr fun k hk => ?_
  have hne : i ≠ k := by
    have := (List.mem_range'_1.mp hk).1
    omega
  simp [Slots.place, List.getD_eq_getElem?_getD, List.getElem?_set_ne hne]

/-- **The second loop** puts the entries that are to be placed into the holes. -/
theorem holds_addRest (room i : Nat) (nodes : List Nat) {s : Slots} (hs : s.Counted)
    (hroom : i + room ≤ s.nodeList.length) :
    (∀ k node, (T.addRest room i nodes s).Holds k node ↔
      s.Holds k node ∨ (k, node) ∈ (holes s i room).zip (nodes.filter T.live)) ∧
    (T.addRest room i nodes s).Counted := by
  induction room generalizing i nodes s with
  | zero => exact ⟨fun k node => by simp [addRest, holes], hs⟩
  | succ room ih =>
    rw [addRest]
    by_cases hi : s.nodeList.getD i 0 ≠ 0
    · rw [if_pos hi, holes_of_ne hi]
      exact ih (i + 1) nodes hs (by omega)
    · rw [if_neg hi, holes_of_eq hi]
      obtain ⟨hdrop, hlive⟩ | ⟨node, r, hdrop, hnode, hlive⟩ := dropWhile_cases T.live nodes
      · rw [hdrop, hlive]
        exact ⟨fun k node => by simp, hs⟩
      · rw [hdrop, hlive]
        have hne : node ≠ 0 := by
          rintro rfl
          exact absurd hnode (by simp [live])
        have hfree : ∀ m, ¬ s.Holds i m := fun m hm => hi ((s.getD_ne_zero_iff i).mpr ⟨m, hm⟩)
        have hlt : i < s.nodeList.length := by omega
        obtain ⟨hholds, hcounted⟩ := ih (i + 1) r (hs.place hlt hne hfree)
          (by rw [Slots.length_place]; omega)
        refine ⟨fun k m => ?_, hcounted⟩
        rw [hholds, Slots.holds_place hlt hne hfree, holes_place, List.zip_cons_cons,
          List.mem_cons, or_assoc]

theorem Tracks.holes_eq {G : List (Nat × Nat)} {s : State} (h : Tracks T q G s) :
    holes s.slots 0 q.maxcount = freePlaces (List.range q.maxcount) G := by
  rw [holes, freePlaces, List.range_eq_range']
  refine List.filter_congr fun k _ => ?_
  rw [Bool.eq_iff_iff, decide_eq_true_eq, decide_eq_true_eq, ← not_iff_not, ← ne_eq,
    Slots.getD_ne_zero_iff]
  simp only [h.holds, not_forall, not_not]
  constructor
  · rintro ⟨node, hm⟩
    exact ⟨(k, node), hm, rfl⟩
  · rintro ⟨a, ha, hk⟩
    exact ⟨a.2, hk ▸ ha⟩

/-- **The list is complete for the claims that are seen**, and the value counts it. -/
theorem holds_findAliasesForId (S : Strtoul) (h : T.compatible.length ≤ q.maxcount)
    (h0 : 0 ∉ T.enabledCompatible) :
    (∀ i node, (T.findAliasesForId S q).Holds i node ↔
      (i, node) ∈ complete (List.range q.maxcount) T.enabledCompatible
        (grants (T.aliases.filterMap (T.claim S q)))) ∧
    (T.findAliasesForId S q).Counted := by
  rw [findAliasesForId, addAliasesForId, collect_all h]
  have hempty : ∀ i node, ¬ (Slots.mk (List.replicate q.maxcount 0) 0).Holds i node := by
    rintro i node ⟨hi, hne⟩
    exact hne (List.eq_of_mem_replicate (List.mem_of_getElem? hi))
  have hstart : Tracks T q []
      ⟨T.compatible.filter (0 < ·), ⟨List.replicate q.maxcount 0, 0⟩⟩ := by
    refine ⟨List.length_replicate, fun i node => by simpa using hempty i node, ?_,
      ⟨fun i node hi => absurd hi (hempty i node), Or.inl rfl⟩⟩
    simp [filter_live h0, freeThings]
  have hrun := hstart.foldl (S := S) T.aliases
  have hzeros (n : Nat) : (List.replicate n 0).filter T.live = [] :=
    List.filter_eq_nil_iff.mpr fun x hx => by simp [List.eq_of_mem_replicate hx, live]
  obtain ⟨hholds, hcounted⟩ := holds_addRest (T := T) q.maxcount 0 _ hrun.counted
    (by rw [hrun.length, Nat.zero_add])
  refine ⟨fun i node => ?_, hcounted⟩
  rw [hholds, hrun.holds, mem_complete, hrun.holes_eq, List.filter_append, hzeros,
    List.append_nil, hrun.left]

/-! ## Right claims and others -/

theorem number_eq {p : Property} (hdec : IsDecimal (p.name.drop q.name.length))
    (hlt : decimal (p.name.drop q.name.length) < q.maxcount) :
    S.number q p = decimal (p.name.drop q.name.length) := by
  have hmax := q.maxcount_lt
  have hread := S.read_decimal _ hdec (by omega)
  rw [← UInt32.toNat_toBitVec] at hread
  rw [Strtoul.number, BitVec.toInt_eq_toNat_of_lt (by omega), hread]

theorem claim_of_rightClaim (h0 : 0 ∉ T.enabledCompatible) {p : Property} {c : Nat × Nat}
    (h : T.rightClaim q p = some c) : T.claim S q p = some c := by
  by_cases htarget : p.data = [] ∨ T.pathOffset p.data < 0
  · rw [rightClaim, target, if_pos htarget] at h
    cases h
  · rw [rightClaim, target, if_neg htarget] at h
    dsimp only at h
    by_cases hc : q.name <+: p.name ∧ IsDecimal (p.name.drop q.name.length) ∧
        decimal (p.name.drop q.name.length) < q.maxcount ∧
        (T.pathOffset p.data).toNat ∈ T.enabledCompatible
    · rw [if_pos hc] at h
      cases h
      obtain ⟨hname, hdec, hlt, hmem⟩ := hc
      rw [not_or] at htarget
      have hnode : T.aliasNode q p = T.pathOffset p.data := if_pos ⟨htarget.1, hname⟩
      have hpos : (T.pathOffset p.data).toNat ≠ 0 := fun he => h0 (he ▸ hmem)
      have hnum : S.number q p = decimal (p.name.drop q.name.length) := number_eq hdec hlt
      rw [claim, hnode, hnum, if_pos ⟨by omega, by omega, by omega, hmem⟩, Int.toNat_natCast]
    · rw [if_neg hc] at h
      cases h

theorem rightClaim_mem {p : Property} {c : Nat × Nat} (h : T.rightClaim q p = some c) :
    c.1 ∈ List.range q.maxcount ∧ c.2 ∈ T.enabledCompatible := by
  rw [rightClaim] at h
  split at h
  · cases h
  · split at h
    · rename_i hc
      cases h
      exact ⟨List.mem_range.mpr hc.2.2.1, hc.2.2.2⟩
    · cases h

theorem rightClaims_mem (T : Tree) (q : Query) :
    ∀ a ∈ grants (T.aliases.filterMap (T.rightClaim q)),
      a.1 ∈ List.range q.maxcount ∧ a.2 ∈ T.enabledCompatible := by
  intro a ha
  obtain ⟨p, _, hp⟩ := List.mem_filterMap.mp (grants_subset _ ha)
  exact rightClaim_mem hp

theorem matching_due (T : Tree) (q : Query) : Matching (T.due q) :=
  (matching_grants _).complete List.nodup_range (nodup_enabledCompatible T)

theorem existsUnique_due (h : T.compatible.length ≤ q.maxcount) {node : Nat}
    (hnode : node ∈ T.enabledCompatible) : ∃! i, (i, node) ∈ T.due q := by
  have hle : T.enabledCompatible.length ≤ (List.range q.maxcount).length := by
    rw [List.length_range]
    exact Nat.le_trans (List.length_filter_le _ _) h
  obtain ⟨i, hi⟩ := exists_place List.nodup_range (nodup_enabledCompatible T) (matching_grants _)
    (rightClaims_mem T q) hle hnode
  refine ⟨i, hi, fun k hk => ?_⟩
  exact congrArg Prod.fst ((matching_due T q).eq_of_clashes hk hi (Or.inr rfl))

/-- **The list is what it should be** if and only if the root is no enabled node of the kind, and
every alias that claims an entry without being the name and its number claims it for the node that
stands there anyway, or comes after a clashing claim for what is there anyway. -/
theorem find_meets_iff (T : Tree) (S : Strtoul) (q : Query)
    (h : T.compatible.length ≤ q.maxcount) :
    T.Meets q (T.findAliasesForId S q) ↔
      0 ∉ T.enabledCompatible ∧
      ∀ l p c, l ++ [p] <+: T.aliases → T.claim S q p = some c → T.rightClaim q p = none →
        c ∈ T.due q ∨ ∃ a ∈ l.filterMap (T.claim S q), a ∈ T.due q ∧ Clashes a c := by
  constructor
  · intro hmeets
    have h0 : 0 ∉ T.enabledCompatible := fun h0 => by
      obtain ⟨i, ⟨_, hne⟩, _⟩ := hmeets.once 0 h0
      exact hne rfl
    refine ⟨h0, ?_⟩
    obtain ⟨hholds, _⟩ := holds_findAliasesForId S h h0
    exact (complete_iff List.nodup_range (nodup_enabledCompatible T)
      (fun _ _ hp => claim_of_rightClaim h0 hp) T.aliases).mp
        fun a => (hholds a.1 a.2).symm.trans (hmeets.order a.1 a.2)
  · rintro ⟨h0, hharmless⟩
    obtain ⟨hholds, hcounted⟩ := holds_findAliasesForId S h h0
    have heq := (complete_iff List.nodup_range (nodup_enabledCompatible T)
      (fun _ _ hp => claim_of_rightClaim h0 hp) T.aliases).mpr hharmless
    have horder : ∀ i node, (T.findAliasesForId S q).Holds i node ↔ (i, node) ∈ T.due q :=
      fun i node => (hholds i node).trans (heq (i, node))
    refine ⟨fun node hnode => ?_, fun i node hi => ?_, horder, hcounted.below, hcounted.last⟩
    · simpa only [horder] using existsUnique_due h hnode
    · exact (mem_of_mem_complete (rightClaims_mem T q) ((horder i node).mp hi)).2

end Tree

/-! ## Two controllers -/

/-- Two nodes, at 8 and 16, and an alias for the second one. -/
def twoNodes (name : List Char) : Tree where
  compatible := [8, 16]
  sorted := by decide
  status := fun _ => none
  aliases := [{ name := name, data := [47, 98] }]
  pathOffset := fun _ => 16

/-- The number is that of the digits in front. -/
def digitsInFront : Strtoul where
  read := fun ds => UInt32.ofNat (decimal (ds.takeWhile Char.isDigit))
  read_decimal := fun ds hds hlt => by
    rw [List.takeWhile_eq_self_iff.mpr hds.2, UInt32.toNat_ofNat', Nat.mod_eq_of_lt hlt]

/-- At most two controllers. -/
def i2c : Query where
  name := ['i', '2', 'c']
  maxcount := 2
  maxcount_lt := by decide

/-- The second node is number 0, and the first one gets the hole. -/
theorem find_meets_i2c0 :
    (twoNodes ['i', '2', 'c', '0']).Meets i2c
      ((twoNodes ['i', '2', 'c', '0']).findAliasesForId digitsInFront i2c) := by
  refine (Tree.find_meets_iff _ digitsInFront i2c (by decide)).mpr
    ⟨by decide, fun l p c hpre _ hp => ?_⟩
  have hmem : p ∈ (twoNodes ['i', '2', 'c', '0']).aliases :=
    hpre.subset (List.mem_append_right l (List.mem_singleton_self p))
  obtain rfl := List.mem_singleton.mp hmem
  exact absurd hp (by decide)

/-- The alias `i2cmux` has no number, and takes the entry 0. -/
theorem not_meets_i2cmux : ¬ ∀ (T : Tree) (S : Strtoul) (q : Query),
    T.compatible.length ≤ q.maxcount → T.Meets q (T.findAliasesForId S q) := by
  intro hclaim
  have hmeets := hclaim (twoNodes ['i', '2', 'c', 'm', 'u', 'x']) digitsInFront i2c (by decide)
  exact absurd ((hmeets.order 0 16).mp ⟨by decide, by decide⟩) (by decide)

end RealtekIpcam.Uboot.AliasList
