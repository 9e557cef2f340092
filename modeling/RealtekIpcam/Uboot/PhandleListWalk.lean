import RealtekIpcam.Uboot.PhandleList

/-!
# What the parser of phandle lists finds

The loop goes from entry to entry: `Reach` are the entries that it gets to, and at each of them it
goes on or stops, as `Stop` says.  Both are about lists of words; `loop_reach` and `loop_stop` are
that the pointers follow them, as long as no pointer wraps.

Three things go wrong.  The provider of an entry whose argument count the caller gives is only
compared with the root, so that a phandle that nothing has is accepted.  The comparison also takes
the root for a phandle that nothing has.  And an argument count for which `list + count` wraps
passes the check against the end of the property.  `parse_meets_iff` says what is left.
-/

namespace RealtekIpcam.Uboot.PhandleList

open Gpio (ENOENT EINVAL)

variable {B : Blob} {T : Tree} {q : Query} {words rest rest' : List UInt32} {phandle : UInt32}
  {k m n : Nat}

/-! ## Entries -/

theorem At.succ_cases (h : At T q words (k + 1) rest') :
    ∃ phandle rest, At T q words k (phandle :: rest) ∧ ((phandle = 0 ∧ rest' = rest) ∨
      (phandle ≠ 0 ∧ ∃ n, q.args T phandle = some n ∧ n ≤ rest.length ∧ rest' = rest.drop n)) := by
  cases h with
  | empty h => exact ⟨_, _, h, .inl ⟨rfl, rfl⟩⟩
  | entry h hne hargs hn => exact ⟨_, _, h, .inr ⟨hne, _, hargs, hn, rfl⟩⟩

theorem At.unique (h : At T q words k rest) (h' : At T q words k rest') : rest = rest' := by
  induction k generalizing rest rest' with
  | zero =>
    cases h
    cases h'
    rfl
  | succ k ih =>
    obtain ⟨p, l, hat, hcase⟩ := h.succ_cases
    obtain ⟨p', l', hat', hcase'⟩ := h'.succ_cases
    obtain ⟨rfl, rfl⟩ := List.cons.inj (ih hat hat')
    rcases hcase with ⟨hp, rfl⟩ | ⟨hp, n, hargs, -, rfl⟩
    · rcases hcase' with ⟨-, rfl⟩ | ⟨hp', -⟩
      · rfl
      · exact absurd hp hp'
    · rcases hcase' with ⟨hp', -⟩ | ⟨-, n', hargs', -, rfl⟩
      · exact absurd hp' hp
      · rw [hargs, Option.some_inj] at hargs'
        rw [hargs']

theorem At.before (h : At T q words m rest') (hk : k < m) :
    ∃ phandle rest, At T q words k (phandle :: rest) ∧
      (phandle ≠ 0 → ∃ n, q.args T phandle = some n ∧ n ≤ rest.length) := by
  induction m generalizing rest' with
  | zero => exact absurd hk (Nat.not_lt_zero k)
  | succ m ih =>
    obtain ⟨p, l, hat, hcase⟩ := h.succ_cases
    rcases Nat.lt_succ_iff_lt_or_eq.mp hk with hlt | rfl
    · exact ih hat hlt
    · refine ⟨p, l, hat, fun hp => ?_⟩
      rcases hcase with ⟨hzero, -⟩ | ⟨-, n, hargs, hn, -⟩
      · exact absurd hzero hp
      · exact ⟨n, hargs, hn⟩

theorem At.lt_of_end (hend : At T q words m []) (h : At T q words k (phandle :: rest)) : k < m := by
  by_contra hle
  rcases Nat.eq_or_lt_of_le (Nat.not_lt.mp hle) with rfl | hlt
  · cases hend.unique h
  · obtain ⟨p, l, hat, -⟩ := h.before hlt
    cases hend.unique hat

theorem At.wellFormed (hend : At T q words m []) (h : At T q words k (phandle :: rest))
    (hne : phandle ≠ 0) : ∃ n, q.args T phandle = some n ∧ n ≤ rest.length := by
  obtain ⟨p, l, hat, hwell⟩ := hend.before (hend.lt_of_end h)
  obtain ⟨rfl, rfl⟩ := List.cons.inj (hat.unique h)
  exact hwell hne

theorem At.end_unique (hend : At T q words m []) (h : At T q words k []) : k = m := by
  rcases Nat.lt_trichotomy k m with hlt | heq | hlt
  · obtain ⟨p, l, hat, -⟩ := hend.before hlt
    cases h.unique hat
  · exact heq
  · obtain ⟨p, l, hat, -⟩ := h.before hlt
    cases hend.unique hat

theorem At.suffix (h : At T q words k rest) : rest <:+ words := by
  induction h with
  | start => exact List.suffix_rfl
  | empty _ ih => exact (List.suffix_cons _ _).trans ih
  | entry _ _ _ _ ih => exact (List.drop_suffix _ _).trans ((List.suffix_cons _ _).trans ih)

/-! ## The walk -/

/-- The loop gets to the entry `k`, which begins with these words. -/
inductive Reach (T : Tree) (q : Query) (words : List UInt32) : Nat → List UInt32 → Prop where
  | start : Reach T q words 0 words
  | empty {k : Nat} {rest : List UInt32} : Reach T q words k (0 :: rest) → (k : Int) ≠ q.index →
    Reach T q words (k + 1) rest
  | entry {k : Nat} {phandle : UInt32} {rest : List UInt32} {n : Nat} :
    Reach T q words k (phandle :: rest) → (k : Int) ≠ q.index → phandle ≠ 0 →
      (q.cellsName = true → T.nodeOffsetByPhandle phandle ≠ 0) → q.args T phandle = some n →
      n ≤ rest.length → Reach T q words (k + 1) (rest.drop n)

/-- The pointer to these last words of the property. -/
def Blob.addr (B : Blob) (rest : List UInt32) : Nat := B.listEnd - 4 * rest.length

/-- The loop stops at the entry `k`, with this value and these `out_args`. -/
inductive Stop (B : Blob) (T : Tree) (q : Query) (k : Nat) :
    List UInt32 → Int → Option PhandleArgs → Prop where
  | finish {rc : Int} : rc = (if q.index < 0 then (k : Int) else -ENOENT) → Stop B T q k [] rc none
  | vacant {rest : List UInt32} : (k : Int) = q.index → Stop B T q k (0 :: rest) (-ENOENT) none
  | root {phandle : UInt32} {rest : List UInt32} : phandle ≠ 0 → q.Looks k →
    T.nodeOffsetByPhandle phandle = 0 → Stop B T q k (phandle :: rest) (-EINVAL) none
  | unknown {phandle : UInt32} {rest : List UInt32} : phandle ≠ 0 → q.args T phandle = none →
    Stop B T q k (phandle :: rest) (-EINVAL) none
  | long {phandle : UInt32} {rest : List UInt32} {n : Nat} : phandle ≠ 0 →
    (q.Looks k → T.nodeOffsetByPhandle phandle ≠ 0) → q.args T phandle = some n →
      B.listEnd < advance (B.addr rest) n → Stop B T q k (phandle :: rest) (-EINVAL) none
  | found {phandle : UInt32} {rest : List UInt32} {n : Nat} : phandle ≠ 0 →
    T.nodeOffsetByPhandle phandle ≠ 0 → q.args T phandle = some n → n ≤ rest.length →
      (k : Int) = q.index → Stop B T q k (phandle :: rest) 0
        (if q.outArgs = true then some
          { node := T.nodeOffsetByPhandle phandle, args := rest.take (min n q.maxPhandleArgs) }
          else none)

/-- **The arguments of an entry do not fit, and the check does not see it**, because the pointer
wraps. -/
def Wraps (B : Blob) (T : Tree) (q : Query) (k : Nat) (phandle : UInt32) (rest : List UInt32) :
    Prop :=
  phandle ≠ 0 ∧ (q.Looks k → T.nodeOffsetByPhandle phandle ≠ 0) ∧
    ∃ n, q.args T phandle = some n ∧ rest.length < n ∧ advance (B.addr rest) n ≤ B.listEnd

theorem Reach.at_ (h : Reach T q words k rest) : At T q words k rest := by
  induction h with
  | start => exact .start
  | empty _ _ ih => exact .empty ih
  | entry _ _ hne _ hargs hn ih => exact .entry ih hne hargs hn

theorem Reach.ne_root (h : Reach T q words m rest') (hk : k < m) (hcells : q.cellsName = true)
    (hat : At T q words k (phandle :: rest)) (hne : phandle ≠ 0) :
    T.nodeOffsetByPhandle phandle ≠ 0 := by
  induction h with
  | start => exact absurd hk (Nat.not_lt_zero k)
  | empty h _ ih =>
    rcases Nat.lt_succ_iff_lt_or_eq.mp hk with hlt | rfl
    · exact ih hlt
    · cases hat.unique h.at_
      exact absurd rfl hne
  | entry h _ _ hroot _ _ ih =>
    rcases Nat.lt_succ_iff_lt_or_eq.mp hk with hlt | rfl
    · exact ih hlt
    · cases hat.unique h.at_
      exact hroot hcells

theorem At.reach (h : At T q words k rest) (hcells : q.cellsName = false)
    (hindex : ∀ j < k, (j : Int) ≠ q.index) : Reach T q words k rest := by
  induction h with
  | start => exact .start
  | empty _ ih =>
    exact .empty (ih fun j hj => hindex j (Nat.lt_succ_of_lt hj)) (hindex _ (Nat.lt_succ_self _))
  | entry _ hne hargs hn ih =>
    refine .entry (ih fun j hj => hindex j (Nat.lt_succ_of_lt hj)) (hindex _ (Nat.lt_succ_self _))
      hne (fun hc => ?_) hargs hn
    rw [hcells] at hc
    cases hc

theorem Reach.stops (B : Blob) (h : Reach T q words k rest) :
    ∃ k' rest', Reach T q words k' rest' ∧ ((∃ rc out, Stop B T q k' rest' rc out) ∨
      ∃ phandle l, rest' = phandle :: l ∧ Wraps B T q k' phandle l) := by
  induction hlen : rest.length using Nat.strongRecOn generalizing k rest with
  | ind len ih =>
    cases rest with
    | nil => exact ⟨k, [], h, .inl ⟨_, _, .finish rfl⟩⟩
    | cons phandle rest =>
      by_cases hzero : phandle = 0
      · subst hzero
        by_cases hindex : (k : Int) = q.index
        · exact ⟨k, _, h, .inl ⟨_, _, .vacant hindex⟩⟩
        · exact ih rest.length (by rw [← hlen, List.length_cons]; omega) (h.empty hindex) rfl
      by_cases hroot : q.Looks k ∧ T.nodeOffsetByPhandle phandle = 0
      · exact ⟨k, _, h, .inl ⟨_, _, .root hzero hroot.1 hroot.2⟩⟩
      have hnode : q.Looks k → T.nodeOffsetByPhandle phandle ≠ 0 := fun hl hn => hroot ⟨hl, hn⟩
      cases hargs : q.args T phandle with
      | none => exact ⟨k, _, h, .inl ⟨_, _, .unknown hzero hargs⟩⟩
      | some n =>
        by_cases hlong : B.listEnd < advance (B.addr rest) n
        · exact ⟨k, _, h, .inl ⟨_, _, .long hzero hnode hargs hlong⟩⟩
        by_cases hn : n ≤ rest.length
        · by_cases hindex : (k : Int) = q.index
          · exact ⟨k, _, h, .inl ⟨_, _, .found hzero (hnode (.inr hindex)) hargs hn hindex⟩⟩
          · refine ih (rest.drop n).length ?_
              (h.entry hindex hzero (fun hc => hnode (.inl hc)) hargs hn) rfl
            rw [← hlen, List.length_cons, List.length_drop]
            omega
        · exact ⟨k, _, h, .inr ⟨phandle, rest, rfl, hzero, hnode, n, hargs, Nat.not_le.mp hn,
            Nat.not_lt.mp hlong⟩⟩

/-! ## Pointers -/

section

variable (hsuffix : rest <:+ B.words)
include hsuffix

theorem addr_add : B.addr rest + 4 * rest.length = B.listEnd := by
  have hlen := hsuffix.length_le
  have : 4 * rest.length ≤ B.listEnd := by
    unfold Blob.listEnd
    omega
  unfold Blob.addr
  omega

theorem advance_addr (hn : n ≤ rest.length) : advance (B.addr rest) n = B.addr (rest.drop n) := by
  have hadd := addr_add hsuffix
  have hadd' := addr_add ((List.drop_suffix n rest).trans hsuffix)
  have hend := B.end_lt
  rw [List.length_drop] at hadd'
  have hend : B.listEnd < 2 ^ 32 := hend
  unfold advance
  omega

theorem advance_addr_le (hn : n ≤ rest.length) : advance (B.addr rest) n ≤ B.listEnd := by
  rw [advance_addr hsuffix hn]
  exact Nat.sub_le _ _

end

section

variable (hsuffix : phandle :: rest <:+ B.words)
include hsuffix

theorem addr_lt : B.addr (phandle :: rest) < B.listEnd := by
  have hadd := addr_add hsuffix
  rw [List.length_cons] at hadd
  omega

theorem inProperty_addr : B.InProperty (B.addr (phandle :: rest)) := by
  have hadd := addr_add hsuffix
  have hlen := hsuffix.length_le
  rw [List.length_cons] at hadd hlen
  refine ⟨B.words.length - (rest.length + 1), by omega, ?_⟩
  have hend : B.listEnd = B.base + 4 * B.words.length := rfl
  omega

theorem read_addr : B.read (B.addr (phandle :: rest)) = phandle := by
  have hadd := addr_add hsuffix
  have hend : B.listEnd = B.base + 4 * B.words.length := rfl
  obtain ⟨front, hfront⟩ := hsuffix
  have hlen := congrArg List.length hfront
  rw [List.length_append, List.length_cons] at hlen
  rw [List.length_cons] at hadd
  have hoffset : B.addr (phandle :: rest) - B.base = 4 * front.length := by omega
  unfold Blob.read
  rw [hoffset, if_pos ⟨by omega, by omega⟩, Nat.mul_div_cancel_left _ (by decide), ← hfront,
    List.getD_eq_getElem?_getD, List.getElem?_append_right (Nat.le_refl _), Nat.sub_self]
  rfl

theorem advance_one : advance (B.addr (phandle :: rest)) 1 = B.addr rest := by
  rw [advance_addr hsuffix (by rw [List.length_cons]; omega)]
  rfl

end

theorem read_args (hsuffix : rest <:+ B.words) (hn : n ≤ rest.length) :
    ((List.range n).map (advance (B.addr rest))).map B.read = rest.take n := by
  refine List.ext_getElem (by simp [hn]) fun i hi hi' => ?_
  rw [List.length_take] at hi'
  have hne : rest.drop i = rest[i] :: rest.drop (i + 1) := List.drop_eq_getElem_cons (by omega)
  rw [List.getElem_map, List.getElem_map, List.getElem_range, advance_addr hsuffix (by omega),
    List.getElem_take, hne]
  exact read_addr (hne ▸ (List.drop_suffix i rest).trans hsuffix)

theorem inProperty_args (hsuffix : rest <:+ B.words) (hn : n ≤ rest.length) :
    ∀ x ∈ (List.range n).map (advance (B.addr rest)), B.InProperty x := by
  intro x hx
  obtain ⟨i, hi, rfl⟩ := List.mem_map.mp hx
  rw [List.mem_range] at hi
  rw [advance_addr hsuffix (by omega)]
  have hne : rest.drop i = rest[i] :: rest.drop (i + 1) := List.drop_eq_getElem_cons (by omega)
  rw [hne]
  refine inProperty_addr (hne ▸ (List.drop_suffix i rest).trans hsuffix)

section

variable {list : Nat} (hne : phandle ≠ 0)
include hne

theorem provider_root (hlooks : q.Looks k) (hnode : T.nodeOffsetByPhandle phandle = 0) :
    provider B T q k list phandle = none := by
  simp only [provider, if_neg hne, hnode, hlooks, and_self, if_true]

theorem provider_unknown (hargs : q.args T phandle = none) :
    provider B T q k list phandle = none := by
  cases hcells : q.cellsName with
  | false =>
    rw [Query.args, hcells, if_neg Bool.false_ne_true] at hargs
    cases hargs
  | true =>
    rw [Query.args, hcells, if_pos rfl, ite_eq_left_iff] at hargs
    have hmissing : T.getInt (T.nodeOffsetByPhandle phandle) = 0xffffffff := by
      by_contra hc
      refine absurd (hargs ?_) (Option.some_ne_none _)
      rintro (hneg | heq)
      · exact hc (T.getInt_neg _ hneg)
      · exact hc heq
    have hlooks : q.Looks k := .inl hcells
    simp only [provider, if_neg hne, if_pos hlooks, hcells, hmissing, and_self, if_true, ite_self]

theorem provider_args (B : Blob) (list : Nat)
    (hnode : q.Looks k → T.nodeOffsetByPhandle phandle ≠ 0) (hargs : q.args T phandle = some n) :
    ∃ count : UInt32, count.toNat = n ∧ provider B T q k list phandle =
      if B.listEnd < advance list n then none
      else some (if q.Looks k then T.nodeOffsetByPhandle phandle else -1, count) := by
  have hfirst : ¬ (q.Looks k ∧
      (if q.Looks k then T.nodeOffsetByPhandle phandle else -1) = 0) := by
    rintro ⟨hlooks, hzero⟩
    rw [if_pos hlooks] at hzero
    exact hnode hlooks hzero
  cases hcells : q.cellsName with
  | false =>
    rw [Query.args, hcells, if_neg Bool.false_ne_true, Option.some_inj] at hargs
    refine ⟨q.cellCount, hargs, ?_⟩
    have hsecond : ¬ (q.cellsName = true ∧
        T.getInt (if q.Looks k then T.nodeOffsetByPhandle phandle else -1) = 0xffffffff) := by
      rw [hcells]
      exact fun h => Bool.false_ne_true h.1
    simp only [provider, if_neg hne, if_neg hfirst, if_neg hsecond]
    simp only [Query.count, hcells, if_neg Bool.false_ne_true, hargs]
  | true =>
    have hlooks : q.Looks k := .inl hcells
    rw [Query.args, hcells, if_pos rfl] at hargs
    obtain ⟨hsome, hargs⟩ := Option.ite_none_left_eq_some.mp hargs
    refine ⟨T.getInt (T.nodeOffsetByPhandle phandle), Option.some.inj hargs, ?_⟩
    have hsecond : ¬ (q.cellsName = true ∧
        T.getInt (if q.Looks k then T.nodeOffsetByPhandle phandle else -1) = 0xffffffff) := by
      rw [if_pos hlooks]
      exact fun h => hsome (.inr h.2)
    simp only [provider, if_neg hne, if_neg hfirst, if_neg hsecond]
    simp only [Query.count, hcells, if_true, if_pos hlooks, Option.some.inj hargs]

end

/-! ## The loop follows the walk -/

section

variable {fuel : Nat} {reads : List Nat}

theorem loop_cons (hsuffix : phandle :: rest <:+ B.words) :
    loop B T q (fuel + 1) { list := B.addr (phandle :: rest), curIndex := k, reads := reads } =
      match provider B T q k (B.addr rest) phandle with
      | none => some { rc := -EINVAL, out := none, reads := reads ++ [B.addr (phandle :: rest)] }
      | some (node, count) =>
        if (k : Int) = q.index then
          if phandle = 0 then
            some { rc := -ENOENT, out := none, reads := reads ++ [B.addr (phandle :: rest)] }
          else some (fill B q (B.addr rest) node count (reads ++ [B.addr (phandle :: rest)]))
        else loop B T q fuel
          { list := advance (B.addr rest) count.toNat, curIndex := k + 1,
            reads := reads ++ [B.addr (phandle :: rest)] } := by
  rw [loop, if_pos (addr_lt hsuffix)]
  rewrite [read_addr hsuffix, advance_one hsuffix]
  rfl

theorem inProperty_append (hreads : ∀ x ∈ reads, B.InProperty x)
    (hsuffix : phandle :: rest <:+ B.words) :
    ∀ x ∈ reads ++ [B.addr (phandle :: rest)], B.InProperty x := by
  intro x hx
  rcases List.mem_append.mp hx with hx | hx
  · exact hreads x hx
  · rw [List.mem_singleton.mp hx]
    exact inProperty_addr hsuffix

/-- **The loop gets to the entries that are reached**, reading words of the property. -/
theorem loop_reach (h : Reach T q B.words k rest) :
    ∃ reads, (∀ x ∈ reads, B.InProperty x) ∧ ∀ fuel, parsePhandleWithArgs B T q (fuel + k) =
      loop B T q fuel { list := B.addr rest, curIndex := k, reads := reads } := by
  induction h with
  | start =>
    refine ⟨[], nofun, fun fuel => ?_⟩
    have hbase : B.addr B.words = B.base := Nat.add_sub_cancel _ _
    rw [hbase]
    rfl
  | @empty k rest h hindex ih =>
    obtain ⟨reads, hreads, hloop⟩ := ih
    have hsuffix := h.at_.suffix
    have hnext : advance (B.addr rest) 0 = B.addr rest :=
      advance_addr ((List.suffix_cons _ _).trans hsuffix) (Nat.zero_le _)
    refine ⟨reads ++ [B.addr (0 :: rest)], inProperty_append hreads hsuffix, fun fuel => ?_⟩
    rw [← Nat.add_assoc, Nat.add_right_comm, hloop, loop_cons hsuffix]
    simp only [provider, if_true, if_neg hindex]
    rw [show (0 : UInt32).toNat = 0 from rfl, hnext]
  | @entry k phandle rest n h hindex hne hroot hargs hn ih =>
    obtain ⟨reads, hreads, hloop⟩ := ih
    have hsuffix := h.at_.suffix
    have hrest := (List.suffix_cons _ _).trans hsuffix
    obtain ⟨count, rfl, hprovider⟩ := provider_args hne B (B.addr rest)
      (fun hlooks => hroot (hlooks.resolve_right hindex)) hargs
    refine ⟨reads ++ [B.addr (phandle :: rest)], inProperty_append hreads hsuffix, fun fuel => ?_⟩
    rw [← Nat.add_assoc, Nat.add_right_comm, hloop, loop_cons hsuffix, hprovider,
      if_neg (Nat.not_lt.mpr (advance_addr_le hrest hn))]
    simp only [if_neg hindex, advance_addr hrest hn]

theorem loop_stop {rc : Int} {out : Option PhandleArgs} (h : Reach T q B.words k rest)
    (hstop : Stop B T q k rest rc out) : ∃ fuel r, parsePhandleWithArgs B T q fuel = some r ∧
      r.rc = rc ∧ r.out = out ∧ ∀ x ∈ r.reads, B.InProperty x := by
  obtain ⟨reads, hreads, hloop⟩ := loop_reach h
  have hsuffix := h.at_.suffix
  refine ⟨1 + k, ?_⟩
  rw [hloop 1]
  cases hstop with
  | finish hrc => exact ⟨_, if_neg (Nat.lt_irrefl _), hrc.symm, rfl, hreads⟩
  | @vacant rest hindex =>
    refine ⟨{ rc := -ENOENT, out := none, reads := reads ++ [B.addr (0 :: rest)] }, ?_, rfl, rfl,
      inProperty_append hreads hsuffix⟩
    rw [loop_cons hsuffix]
    simp only [provider, if_true, if_pos hindex]
  | @root phandle rest hne hlooks hnode =>
    refine ⟨{ rc := -EINVAL, out := none, reads := reads ++ [B.addr (phandle :: rest)] }, ?_, rfl,
      rfl, inProperty_append hreads hsuffix⟩
    rw [loop_cons hsuffix, provider_root hne hlooks hnode]
  | @unknown phandle rest hne hargs =>
    refine ⟨{ rc := -EINVAL, out := none, reads := reads ++ [B.addr (phandle :: rest)] }, ?_, rfl,
      rfl, inProperty_append hreads hsuffix⟩
    rw [loop_cons hsuffix, provider_unknown hne hargs]
  | @long phandle rest n hne hnode hargs hlong =>
    refine ⟨{ rc := -EINVAL, out := none, reads := reads ++ [B.addr (phandle :: rest)] }, ?_, rfl,
      rfl, inProperty_append hreads hsuffix⟩
    obtain ⟨count, -, hprovider⟩ := provider_args hne B (B.addr rest) hnode hargs
    rw [loop_cons hsuffix, hprovider, if_pos hlong]
  | @found phandle rest n hne hnode hargs hn hindex =>
    obtain ⟨count, rfl, hprovider⟩ := provider_args hne B (B.addr rest)
      (fun _ => hnode) hargs
    have hrest := (List.suffix_cons _ _).trans hsuffix
    have hmin : min count.toNat q.maxPhandleArgs ≤ rest.length :=
      Nat.le_trans (Nat.min_le_left _ _) hn
    have hlooks : q.Looks k := .inr hindex
    refine ⟨fill B q (B.addr rest) (T.nodeOffsetByPhandle phandle) count
      (reads ++ [B.addr (phandle :: rest)]), ?_, ?_⟩
    · rw [loop_cons hsuffix, hprovider, if_neg (Nat.not_lt.mpr (advance_addr_le hrest hn))]
      simp only [if_pos hindex, if_neg hne, if_pos hlooks]
    · rw [fill]
      split
      · refine ⟨rfl, congrArg some ?_, fun x hx => ?_⟩
        · rw [read_args hrest hmin]
        · rcases List.mem_append.mp hx with hx | hx
          · exact inProperty_append hreads hsuffix x hx
          · exact inProperty_args hrest hmin x hx
      · exact ⟨rfl, rfl, inProperty_append hreads hsuffix⟩

theorem loop_wraps (h : Reach T q B.words k (phandle :: rest)) (hindex : (k : Int) = q.index)
    (hwraps : Wraps B T q k phandle rest) :
    ∃ fuel r, parsePhandleWithArgs B T q fuel = some r ∧ r.rc = 0 := by
  obtain ⟨reads, -, hloop⟩ := loop_reach h
  obtain ⟨hne, hnode, n, hargs, -, hle⟩ := hwraps
  have hlooks : q.Looks k := .inr hindex
  obtain ⟨count, rfl, hprovider⟩ := provider_args hne B (B.addr rest) hnode hargs
  refine ⟨1 + k, fill B q (B.addr rest) (T.nodeOffsetByPhandle phandle) count
    (reads ++ [B.addr (phandle :: rest)]), ?_, ?_⟩
  · rw [hloop 1, loop_cons h.at_.suffix, hprovider, if_neg (Nat.not_lt.mpr hle)]
    simp only [if_pos hindex, if_neg hne, if_pos hlooks]
  · rw [fill]
    split <;> rfl

theorem loop_mono {fuel fuel' : Nat} (hle : fuel ≤ fuel') {s : State} {r : Result}
    (h : loop B T q fuel s = some r) : loop B T q fuel' s = some r := by
  induction fuel generalizing s fuel' with
  | zero => cases h
  | succ fuel ih =>
    obtain ⟨d, rfl⟩ := Nat.exists_eq_add_of_le' hle
    rw [← Nat.add_assoc]
    rw [loop] at h ⊢
    by_cases hlt : s.list < B.listEnd
    · rw [if_pos hlt] at h ⊢
      dsimp only at h ⊢
      split at h
      · exact h
      · by_cases hindex : (s.curIndex : Int) = q.index
        · rw [if_pos hindex] at h ⊢
          exact h
        · rw [if_neg hindex] at h ⊢
          exact ih (Nat.le_add_left fuel d) h
    · rw [if_neg hlt] at h ⊢
      exact h

theorem result_unique {fuel fuel' : Nat} {r r' : Result}
    (h : parsePhandleWithArgs B T q fuel = some r)
    (h' : parsePhandleWithArgs B T q fuel' = some r') : r = r' := by
  rcases Nat.le_total fuel fuel' with hle | hle
  · exact Option.some.inj ((loop_mono hle h).symm.trans h')
  · exact Option.some.inj (h.symm.trans (loop_mono hle h'))

theorem mem_reads {s : State} {r : Result} (h : loop B T q fuel s = some r) {x : Nat}
    (hx : x ∈ s.reads ∨ (x = s.list ∧ s.list < B.listEnd)) : x ∈ r.reads := by
  induction fuel generalizing s with
  | zero => cases h
  | succ fuel ih =>
    rw [loop] at h
    by_cases hlt : s.list < B.listEnd
    · have hmem : x ∈ s.reads ++ [s.list] := by
        rw [List.mem_append, List.mem_singleton]
        exact hx.imp_right And.left
      rw [if_pos hlt] at h
      dsimp only at h
      split at h
      · exact Option.some.inj h ▸ hmem
      · by_cases hindex : (s.curIndex : Int) = q.index
        · rw [if_pos hindex] at h
          split at h
          · exact Option.some.inj h ▸ hmem
          · rw [← Option.some.inj h, fill]
            split
            · exact List.mem_append_left _ hmem
            · exact hmem
        · rw [if_neg hindex] at h
          exact ih h (.inl hmem)
    · rw [if_neg hlt] at h
      exact Option.some.inj h ▸ hx.resolve_right fun hc => hlt hc.2

theorem reads_in_front (h : Reach T q B.words k (phandle :: rest)) (hindex : (k : Int) ≠ q.index)
    (hwraps : Wraps B T q k phandle rest) (hargs : q.args T phandle = some n)
    (hfront : advance (B.addr rest) n < B.base) {r : Result}
    (hrun : parsePhandleWithArgs B T q fuel = some r) : advance (B.addr rest) n ∈ r.reads := by
  obtain ⟨reads, -, hloop⟩ := loop_reach h
  obtain ⟨hne, hnode, n', hargs', -, hle⟩ := hwraps
  rw [hargs, Option.some_inj] at hargs'
  subst hargs'
  obtain ⟨count, rfl, hprovider⟩ := provider_args hne B (B.addr rest) hnode hargs
  have hrun := loop_mono (Nat.le_add_right fuel (1 + k)) hrun
  have hrun : parsePhandleWithArgs B T q (fuel + (1 + k)) = some r := hrun
  rw [← Nat.add_assoc, hloop (fuel + 1), loop_cons h.at_.suffix, hprovider,
    if_neg (Nat.not_lt.mpr hle)] at hrun
  simp only [if_neg hindex] at hrun
  have hend : B.base ≤ B.listEnd := Nat.le_add_right _ _
  exact mem_reads hrun (.inr ⟨rfl, Nat.lt_of_lt_of_le hfront hend⟩)

end

/-! ## What the function finds -/

/-- The call ends, and keeps its promise. -/
def Meets (B : Blob) (T : Tree) (q : Query) : Prop :=
  ∃ fuel r, parsePhandleWithArgs B T q fuel = some r ∧ Parsed B T q r

/-- No pointer wraps at an entry that the loop gets to. -/
def NoWrap (B : Blob) (T : Tree) (q : Query) : Prop :=
  ∀ k phandle rest, Reach T q B.words k (phandle :: rest) → ¬ Wraps B T q k phandle rest

/-- Without `cells_name`, the entry that is asked for names a node, if its arguments fit. -/
def Named (B : Blob) (T : Tree) (q : Query) : Prop :=
  q.cellsName = false → ∀ phandle rest, 0 ≤ q.index →
    At T q B.words q.index.toNat (phandle :: rest) → phandle ≠ 0 →
      q.cellCount.toNat ≤ rest.length → 0 ≤ T.nodeOffsetByPhandle phandle

/-- The entries of a list that is counted, if it is well formed, do not name the root. -/
def Rootless (B : Blob) (T : Tree) (q : Query) : Prop :=
  q.cellsName = true → q.index < 0 → ∀ m, At T q B.words m [] → ∀ k phandle rest,
    At T q B.words k (phandle :: rest) → phandle ≠ 0 → T.nodeOffsetByPhandle phandle ≠ 0

theorem Query.args_nonneg (hcells : q.cellsName = true) (hargs : q.args T phandle = some n) :
    0 ≤ T.nodeOffsetByPhandle phandle := by
  rw [Query.args, hcells, if_pos rfl] at hargs
  exact Int.not_lt.mp fun hc => (Option.ite_none_left_eq_some.mp hargs).1 (.inl hc)

theorem Query.args_of_not (hcells : q.cellsName = false) (phandle : UInt32) :
    q.args T phandle = some q.cellCount.toNat := by
  rw [Query.args, hcells, if_neg Bool.false_ne_true]

theorem Stop.parsed {r : Result} (hnamed : Named B T q) (hrootless : Rootless B T q)
    (h : Reach T q B.words k rest) (hstop : Stop B T q k rest r.rc r.out)
    (hreads : ∀ x ∈ r.reads, B.InProperty x) : Parsed B T q r := by
  obtain ⟨rc, out, reads⟩ := r
  have hfail (e : Int) (he : 0 < e) : -e ≠ 0 := by omega
  refine ⟨hreads, ?_, ?_⟩
  · intro hrc hindex
    cases hstop with
    | finish heq =>
      rw [if_neg (Int.not_lt.mpr hindex)] at heq
      exact absurd (heq.symm.trans hrc) (hfail ENOENT (by decide))
    | vacant _ => exact absurd hrc (hfail ENOENT (by decide))
    | root _ _ _ => exact absurd hrc (hfail EINVAL (by decide))
    | unknown _ _ => exact absurd hrc (hfail EINVAL (by decide))
    | long _ _ _ _ => exact absurd hrc (hfail EINVAL (by decide))
    | @found phandle rest n hne hnode hargs hn hk =>
      have hat := h.at_
      obtain rfl : k = q.index.toNat := by omega
      refine ⟨phandle, rest, n, hat, hne, ?_, hargs, hn, fun hout => if_pos hout⟩
      cases hcells : q.cellsName with
      | true => exact Query.args_nonneg hcells hargs
      | false =>
        rw [Query.args_of_not hcells, Option.some_inj] at hargs
        exact hnamed hcells phandle rest hindex hat hne (hargs ▸ hn)
  · intro hindex m hend
    have hne_index : (k : Int) ≠ q.index := by omega
    cases hstop with
    | finish heq =>
      rw [if_pos hindex, hend.end_unique h.at_] at heq
      exact heq
    | vacant hk => exact absurd hk hne_index
    | root hne hlooks hnode =>
      have hcells : q.cellsName = true := hlooks.resolve_right hne_index
      exact absurd hnode (hrootless hcells hindex m hend k _ _ h.at_ hne)
    | unknown hne hargs =>
      obtain ⟨n, hsome, -⟩ := hend.wellFormed h.at_ hne
      rw [hargs] at hsome
      cases hsome
    | long hne _ hargs hlong =>
      obtain ⟨n, hsome, hn⟩ := hend.wellFormed h.at_ hne
      rw [hargs, Option.some_inj] at hsome
      subst hsome
      have hrest := (List.suffix_cons _ _).trans h.at_.suffix
      exact absurd (advance_addr_le hrest hn) (Nat.not_le.mpr hlong)
    | found _ _ _ _ hk => exact absurd hk hne_index

theorem exists_stop (hno : NoWrap B T q) : ∃ fuel r k rest,
    parsePhandleWithArgs B T q fuel = some r ∧ Reach T q B.words k rest ∧
      Stop B T q k rest r.rc r.out ∧ ∀ x ∈ r.reads, B.InProperty x := by
  have hstart : Reach T q B.words 0 B.words := .start
  obtain ⟨k, rest, hreach, ⟨rc, out, hstop⟩ | ⟨phandle, l, rfl, hwraps⟩⟩ := hstart.stops B
  · obtain ⟨fuel, r, hrun, rfl, rfl, hreads⟩ := loop_stop hreach hstop
    exact ⟨fuel, r, k, rest, hrun, hreach, hstop, hreads⟩
  · exact absurd hwraps (hno k phandle l hreach)

theorem Meets.named (h : Meets B T q) : Named B T q := by
  intro hcells phandle rest hindex hat hne hfits
  by_contra hneg
  have hk : (q.index.toNat : Int) = q.index := Int.toNat_of_nonneg hindex
  have hreach : Reach T q B.words q.index.toNat (phandle :: rest) :=
    hat.reach hcells fun j hj => by omega
  have hnode : T.nodeOffsetByPhandle phandle ≠ 0 := fun hc => hneg (hc ▸ Int.le_refl 0)
  have hstop := Stop.found (B := B) hne hnode (Query.args_of_not hcells phandle) hfits hk
  obtain ⟨fuel, r, hrun, hrc, -, -⟩ := loop_stop hreach hstop
  obtain ⟨fuel', r', hrun', hparsed⟩ := h
  obtain rfl := result_unique hrun hrun'
  obtain ⟨p, l, n, hat', -, hnode, -⟩ := hparsed.found hrc hindex
  obtain ⟨rfl, rfl⟩ := List.cons.inj (hat.unique hat')
  exact hneg hnode

theorem Meets.rootless (hno : NoWrap B T q) (h : Meets B T q) : Rootless B T q := by
  intro hcells hindex m hend k phandle rest hat hne
  obtain ⟨fuel, ⟨rc, out, reads⟩, k', rest', hrun, hreach, hstop, -⟩ := exists_stop hno
  obtain ⟨fuel', r', hrun', hparsed⟩ := h
  obtain rfl := result_unique hrun hrun'
  have hrc : rc = m := hparsed.counted hindex m hend
  have hfail (e : Int) (he : 0 < e) : -e ≠ (m : Int) := by omega
  have hne_index : (k' : Int) ≠ q.index := by omega
  cases hstop with
  | finish _ =>
    have hlt := hend.lt_of_end hat
    rw [← hend.end_unique hreach.at_] at hlt
    exact hreach.ne_root hlt hcells hat hne
  | vacant hk => exact absurd hk hne_index
  | root _ _ _ => exact absurd hrc (hfail EINVAL (by decide))
  | unknown _ _ => exact absurd hrc (hfail EINVAL (by decide))
  | long _ _ _ _ => exact absurd hrc (hfail EINVAL (by decide))
  | found _ _ _ _ hk => exact absurd hk hne_index

/-- Where a pointer wraps at the entry that is asked for, or to the front of the property, the
promise is not kept. -/
theorem not_meets_of_wraps (hreach : Reach T q B.words k (phandle :: rest))
    (hwraps : Wraps B T q k phandle rest)
    (hwhere : (k : Int) = q.index ∨
      ∃ n, q.args T phandle = some n ∧ advance (B.addr rest) n < B.base) : ¬ Meets B T q := by
  rintro ⟨fuel, r, hrun, hparsed⟩
  by_cases hindex : (k : Int) = q.index
  · obtain ⟨fuel', r', hrun', hrc⟩ := loop_wraps hreach hindex hwraps
    obtain rfl := result_unique hrun hrun'
    obtain ⟨p, l, n, hat, -, -, hargs, hn, -⟩ := hparsed.found hrc (by omega)
    obtain ⟨-, -, n', hargs', hlong, -⟩ := hwraps
    obtain rfl : k = q.index.toNat := by omega
    obtain ⟨rfl, rfl⟩ := List.cons.inj (hreach.at_.unique hat)
    rw [hargs, Option.some_inj] at hargs'
    omega
  · obtain ⟨n, hargs, hfront⟩ := hwhere.resolve_left hindex
    obtain ⟨i, -, hi⟩ := hparsed.reads _ (reads_in_front hreach hindex hwraps hargs hfront hrun)
    omega

/-- **The promise is kept** if no argument count wraps the pointer, and then only if the entry that
is asked for without `cells_name` names a node, and no entry that is counted names the root; where
the count of the entry that is asked for wraps the pointer, or moves it in front of the property,
it is not kept. -/
theorem parse_meets_iff (B : Blob) (T : Tree) (q : Query) :
    (NoWrap B T q → (Meets B T q ↔ Named B T q ∧ Rootless B T q)) ∧
      ∀ k phandle rest, Reach T q B.words k (phandle :: rest) → Wraps B T q k phandle rest →
        ((k : Int) = q.index ∨
          ∃ n, q.args T phandle = some n ∧ advance (B.addr rest) n < B.base) → ¬ Meets B T q := by
  refine ⟨fun hno => ⟨fun h => ⟨h.named, h.rootless hno⟩, ?_⟩, fun _ _ _ => not_meets_of_wraps⟩
  rintro ⟨hnamed, hrootless⟩
  obtain ⟨fuel, r, k, rest, hrun, hreach, hstop, hreads⟩ := exists_stop hno
  exact ⟨fuel, r, hrun, hstop.parsed hnamed hrootless hreach hreads⟩

theorem noWrap_of_lt
    (hcount : ∀ phandle n, q.args T phandle = some n → B.listEnd + 4 * n < 2 ^ 32) :
    NoWrap B T q := by
  rintro k phandle rest hreach ⟨-, -, n, hargs, hlong, hle⟩
  have hadd := addr_add ((List.suffix_cons _ _).trans hreach.at_.suffix)
  have hlt := hcount phandle n hargs
  unfold advance at hle
  omega

/-! ## Two lists -/

/-- One entry with two arguments. -/
def oneEntry : Blob where
  base := 64
  words := [7, 1, 2]
  elsewhere := fun _ => 0
  end_lt := by decide

/-- The node at 16 has the phandle 7, and two cells. -/
def oneProvider : Tree where
  nodeOffsetByPhandle := fun phandle => if phandle = 7 then 16 else -1
  getInt := fun node => if node = 16 then 2 else 0xffffffff
  getInt_neg := fun node hnode => if_neg (by omega)

/-- The first entry is asked for. -/
def first (cellsName : Bool) : Query where
  cellsName := cellsName
  cellCount := 0
  index := 0
  outArgs := true
  maxPhandleArgs := 16

/-- The entry is found. -/
theorem meets_oneEntry : Meets oneEntry oneProvider (first true) := by
  have hno : NoWrap oneEntry oneProvider (first true) := by
    refine noWrap_of_lt fun phandle n hargs => ?_
    have hnode : (0 : Int) ≤ if phandle = 7 then 16 else -1 := Query.args_nonneg rfl hargs
    by_cases hphandle : phandle = 7
    · subst hphandle
      obtain rfl : 2 = n := Option.some.inj hargs
      decide
    · rw [if_neg hphandle] at hnode
      exact absurd hnode (by decide)
  exact ((parse_meets_iff oneEntry oneProvider (first true)).1 hno).mpr ⟨nofun, fun _ => nofun⟩

/-- No node has the phandle 9, and without `cells_name` an entry with it is found. -/
theorem not_meets_missing : ¬ ∀ (B : Blob) (T : Tree) (q : Query), Meets B T q := by
  intro hclaim
  have hnamed := (hclaim { oneEntry with words := [9], end_lt := by decide } oneProvider
    (first false)).named
  exact absurd (hnamed rfl 9 [] (Int.le_refl 0) .start (by decide) (by decide)) (by decide)

end RealtekIpcam.Uboot.PhandleList
