import RealtekIpcam.Composite.OsDesc

/-!
# What the headers announce

A response is announced by its header, and it is the host's only way to know how much there is: it
first asks for the header alone.  So the counting passes have to come to what the emitting passes
then emit.

They do not look at the same entries.  `count_ext_compat` leaves out the entries without a
compatible ID, for which `fill_ext_compat` emits a blank section.  `fill_ext_prop` emits the
properties of every entry for the interface, but `len_ext_prop` looks at the first one, and
`count_ext_prop` at the first with a compatible ID.  And when the buffer is full, the emitting
passes stop, of which the headers say nothing.  In the buffer they stay.
-/

namespace RealtekIpcam.Composite

open ByteBuffer
open Udc (SetupPacket EINVAL)

variable {ops : ExtPropOps} {table : OsDescTables} {c : Configuration} {s : Filling} {i : Nat}
  {ps : List ExtProp}

/-- What is relied on in the functions that write the parts of a property: the size lies in the
first four bytes, and the rest is written behind them, in the bytes of the section. -/
structure ExtPropOps.Lawful (ops : ExtPropOps) : Prop where
  putSize : ∀ n a buf, ops.putSize n a buf = put a (field 4 n) buf
  putType : ∀ type a buf, Within (a + 4) (a + 8) buf (ops.putType type a buf)
  putName : ∀ p a buf, Within (a + 8) (a + p.len) buf (ops.putName p a buf)
  putUnicode : ∀ p a buf, 0 ≤ ops.nameRet p →
    Within (a + 8) (a + p.len) buf (ops.putUnicode (ops.nameRet p) p a buf)
  putBinary : ∀ p a buf, 0 ≤ ops.nameRet p →
    Within (a + 8) (a + p.len) buf (ops.putBinary (ops.nameRet p) p a buf)

/-! ## The compatible IDs -/

theorem compatSection_within (i : Nat) (d : Option OsDesc) (a : Nat) (buf : Buffer) :
    Within a (a + 24) buf (compatSection i d a buf) := by
  unfold compatSection
  cases compatId d with
  | some id => exact put_within.mono (Nat.le_refl _) (by simp)
  | none => exact put_within.mono (Nat.le_succ _) (by simp)

/-- **`fill_ext_compat`** emits a section for every entry, as far as there is room for 169. -/
theorem fillCompatEntries_spec (es : List (Nat × Option OsDesc)) {m : Nat}
    (hcount : s.count = 16 + 24 * m) (hm : m < 169) :
    (fillCompatEntries es s).sections =
        s.sections ++ List.replicate (min es.length (169 - m)) 24 ∧
      Within s.count usbCompEp0Bufsiz s.buf (fillCompatEntries es s).buf := by
  induction es generalizing s m with
  | nil => exact ⟨by simp [fillCompatEntries], Within.refl⟩
  | cons e es ih =>
    obtain ⟨i, d⟩ := e
    have hwithin := compatSection_within i d s.count s.buf
    rw [fillCompatEntries]
    generalize compatSection i d s.count s.buf = buf at hwithin ⊢
    have hbufsiz : usbCompEp0Bufsiz = 4096 := rfl
    have hemit : (s.emit 24 buf).count = 16 + 24 * (m + 1) := by
      show s.count + 24 = _
      omega
    split
    next hfull =>
      rw [hemit] at hfull
      have hlen : min (es.length + 1) (169 - m) = 1 := by omega
      rw [List.length_cons, hlen]
      exact ⟨rfl, hwithin.mono (Nat.le_refl _) (by omega)⟩
    next hroom =>
      rw [hemit] at hroom
      obtain ⟨hsections, hbuf⟩ := ih hemit (by omega)
      have hlen : min (es.length + 1) (169 - m) = min es.length (169 - (m + 1)) + 1 := by omega
      refine ⟨?_, ?_⟩
      · rw [hsections, List.length_cons, hlen, List.replicate_succ, Filling.emit, List.append_assoc]
        rfl
      · exact (hwithin.mono (Nat.le_refl _) (by omega)).trans
          (hbuf.mono (by omega) (Nat.le_refl _))

/-! ## The properties -/

/-- The length of the sections of some properties. -/
def propsLen (ps : List ExtProp) : Nat := (ps.map ExtProp.len).sum

/-- The properties for which there is room behind `count` bytes. -/
def fitting : Nat → List ExtProp → List ExtProp
  | _, [] => []
  | count, p :: ps =>
    if usbCompEp0Bufsiz ≤ count + p.len then [] else p :: fitting (count + p.len) ps

/-- A property can be written: its name can, and data of its type. -/
def Writable (ops : ExtPropOps) (p : ExtProp) : Prop :=
  0 ≤ ops.nameRet p ∧ p.type ∈ [.unicode, .unicodeEnv, .unicodeLink, .binary]

/-- Sections of the given lengths lie one behind the other, and each starts with its length. -/
def Laid (buf : Buffer) : Nat → List Nat → Prop
  | _, [] => True
  | a, n :: ns => leValue (get buf a 4) = n ∧ Laid buf (a + n) ns

theorem Laid.mono {buf buf' : Buffer} {a hi : Nat} {ns : List Nat} (h : Laid buf a ns)
    (hns : ∀ n ∈ ns, 4 ≤ n) (hwithin : Within (a + ns.sum) hi buf buf') : Laid buf' a ns := by
  induction ns generalizing a with
  | nil => exact trivial
  | cons n ns ih =>
    have hn := hns n List.mem_cons_self
    rw [List.sum_cons] at hwithin
    refine ⟨?_, ih h.2 (fun m hm => hns m (List.mem_cons_of_mem n hm)) ?_⟩
    · rw [hwithin.get (.inl (by omega))]
      exact h.1
    · rwa [Nat.add_assoc]

theorem Laid.concat {buf : Buffer} {a n : Nat} {ns : List Nat} (h : Laid buf a ns)
    (hn : leValue (get buf (a + ns.sum) 4) = n) : Laid buf a (ns ++ [n]) := by
  induction ns generalizing a with
  | nil => exact ⟨hn, trivial⟩
  | cons m ns ih =>
    rw [List.sum_cons, ← Nat.add_assoc] at hn
    exact ⟨h.1, ih h.2 hn⟩

/-- The sections so far lie behind a header of `a` bytes. -/
structure Declared (a : Nat) (s : Filling) : Prop where
  laid : Laid s.buf a s.sections
  count : s.count = a + s.sections.sum
  long : ∀ n ∈ s.sections, 4 ≤ n

theorem putHead_within (hops : ops.Lawful) (p : ExtProp) (a : Nat) (buf : Buffer) :
    Within a (a + p.len) buf (putHead ops p a buf) := by
  have hlen : 14 ≤ p.len := Nat.le_add_left _ _
  have hsize : Within a (a + p.len) buf (ops.putSize p.len a buf) := by
    rw [hops.putSize]
    exact put_within.mono (Nat.le_refl _) (by rw [field, length_leBytes]; omega)
  have htype : Within a (a + p.len) (ops.putSize p.len a buf)
      (ops.putType p.type a (ops.putSize p.len a buf)) :=
    (hops.putType p.type a _).mono (by omega) (by omega)
  exact (hsize.trans htype).trans ((hops.putName p a _).mono (by omega) (Nat.le_refl _))

theorem putHead_size (hops : ops.Lawful) (p : ExtProp) (a : Nat) (buf : Buffer) :
    leValue (get (putHead ops p a buf) a 4) = p.len := by
  have hfits := p.fits
  have hlen : p.len < 256 ^ 4 := by
    unfold ExtProp.len
    omega
  unfold putHead
  rw [(hops.putName p a _).get (.inl (by omega)), (hops.putType p.type a _).get (.inl (by omega)),
    hops.putSize]
  have hget : get (put a (field 4 p.len) buf) a (field 4 p.len).length = field 4 p.len := get_put
  rw [show (field 4 p.len).length = 4 by rw [field, length_leBytes]] at hget
  rw [hget, field, leValue_leBytes]
  omega

theorem putData_within (hops : ops.Lawful) {p : ExtProp} (hret : 0 ≤ ops.nameRet p) {a : Nat}
    {buf buf' : Buffer} (h : putData ops p a buf = some buf') :
    Within (a + 8) (a + p.len) buf buf' := by
  unfold putData at h
  split at h
  · exact Option.some_inj.mp h ▸ hops.putUnicode p a buf hret
  · exact Option.some_inj.mp h ▸ hops.putUnicode p a buf hret
  · exact Option.some_inj.mp h ▸ hops.putUnicode p a buf hret
  · exact Option.some_inj.mp h ▸ hops.putBinary p a buf hret
  all_goals cases h

theorem putData_isSome (p : ExtProp) (a : Nat) (buf : Buffer) :
    (∃ buf', putData ops p a buf = some buf') ↔
      p.type ∈ [.unicode, .unicodeEnv, .unicodeLink, .binary] := by
  unfold putData
  cases p.type with
  | unicode | unicodeEnv | unicodeLink | binary => simp
  | le32 | be32 | other => simp

section Written

variable {p : ExtProp} {a : Nat} {buf buf' : Buffer}

theorem section_within (hops : ops.Lawful) (hret : 0 ≤ ops.nameRet p)
    (hdata : putData ops p a (putHead ops p a buf) = some buf') : Within a (a + p.len) buf buf' :=
  (putHead_within hops p a buf).trans
    ((putData_within hops hret hdata).mono (Nat.le_add_right _ _) (Nat.le_refl _))

theorem Declared.emit {base : Nat} (hops : ops.Lawful) (h : Declared base s)
    (hret : 0 ≤ ops.nameRet p)
    (hdata : putData ops p s.count (putHead ops p s.count s.buf) = some buf) :
    Declared base (s.emit p.len buf) := by
  have hlen : 14 ≤ p.len := Nat.le_add_left _ _
  have hbuf := section_within hops hret hdata
  have hsize : leValue (get buf s.count 4) = p.len := by
    rw [(putData_within hops hret hdata).get (.inl (by omega)), putHead_size hops]
  rw [h.count] at hbuf hsize
  refine ⟨(h.laid.mono h.long hbuf).concat hsize, ?_, fun n hn => ?_⟩
  · simp [Filling.emit, h.count, Nat.add_assoc]
  · rcases List.mem_append.mp hn with hn | hn
    · exact h.long n hn
    · rw [List.mem_singleton.mp hn]
      omega

end Written

/-- What `fill_ext_prop` leaves: it has failed, or it has emitted what there is room for. -/
structure Emitted (ops : ExtPropOps) (ps : List ExtProp) (s : Filling) (r : Int × Filling) :
    Prop where
  within : Within s.count usbCompEp0Bufsiz s.buf r.2.buf
  failed : (∃ p ∈ fitting s.count ps, ¬ Writable ops p) → r.1 < 0
  ret : (∀ p ∈ fitting s.count ps, Writable ops p) →
    r.1 = s.count + propsLen (fitting s.count ps)
  sections : (∀ p ∈ fitting s.count ps, Writable ops p) →
    r.2.sections = s.sections ++ (fitting s.count ps).map ExtProp.len
  declared : ∀ a, Declared a s → (∀ p ∈ fitting s.count ps, Writable ops p) → Declared a r.2

/-- **`fill_ext_prop`** emits the properties for which there is room, if they can be written. -/
theorem fillProps_emitted (hops : ops.Lawful) (ps : List ExtProp) (s : Filling) :
    Emitted ops ps s (fillProps ops ps s) := by
  induction ps generalizing s with
  | nil =>
    exact ⟨Within.refl, fun ⟨p, hp, _⟩ => absurd hp List.not_mem_nil, fun _ => rfl,
      fun _ => (List.append_nil _).symm, fun _ h _ => h⟩
  | cons p ps ih =>
    rw [fillProps]
    by_cases hfull : usbCompEp0Bufsiz ≤ s.count + p.len
    · have hnone : fitting s.count (p :: ps) = [] := if_pos hfull
      rw [if_pos hfull]
      refine ⟨Within.refl, ?_, ?_, ?_, fun _ h _ => h⟩
      · rintro ⟨q, hq, -⟩
        rw [hnone] at hq
        cases hq
      · intro _
        rw [hnone]
        rfl
      · intro _
        rw [hnone]
        exact (List.append_nil _).symm
    · have hmore : fitting s.count (p :: ps) = p :: fitting (s.count + p.len) ps := if_neg hfull
      have hhead := (putHead_within hops p s.count s.buf).mono (Nat.le_refl _)
        (Nat.le_of_lt (Nat.not_le.mp hfull))
      have hbad : ∀ {r : Int × Filling}, r.1 < 0 →
          Within s.count usbCompEp0Bufsiz s.buf r.2.buf → ¬ Writable ops p →
          Emitted ops (p :: ps) s r := by
        intro r hr hbuf hp
        have hnot : ¬ ∀ q ∈ fitting s.count (p :: ps), Writable ops q := fun h =>
          hp (h p (hmore ▸ List.mem_cons_self))
        exact ⟨hbuf, fun _ => hr, fun h => absurd h hnot, fun h => absurd h hnot,
          fun _ _ h => absurd h hnot⟩
      rw [if_neg hfull]
      dsimp only
      by_cases hret : ops.nameRet p < 0
      · rw [if_pos hret]
        exact hbad hret hhead fun hp => Int.not_lt.mpr hp.1 hret
      rw [if_neg hret]
      have hret := Int.not_lt.mp hret
      cases hdata : putData ops p s.count (putHead ops p s.count s.buf) with
      | none =>
        refine hbad (show (-EINVAL : Int) < 0 by decide) hhead fun hp => ?_
        obtain ⟨buf, hbuf⟩ : ∃ buf,
            putData ops p s.count (putHead ops p s.count s.buf) = some buf :=
          (putData_isSome p s.count _).mpr hp.2
        rw [hdata] at hbuf
        cases hbuf
      | some buf =>
        have hp : Writable ops p := ⟨hret, (putData_isSome p _ _).mp ⟨buf, hdata⟩⟩
        have hwithin := section_within hops hret hdata
        obtain ⟨hbuf, hfailed, hval, hsections, hdecl⟩ := ih (s.emit p.len buf)
        have hcount : (s.emit p.len buf).count = s.count + p.len := rfl
        rw [hcount] at hbuf hfailed hval hsections hdecl
        refine ⟨?_, ?_, ?_, ?_, ?_⟩
        · exact (hwithin.mono (Nat.le_refl _) (Nat.le_of_lt (Nat.not_le.mp hfull))).trans
            (hbuf.mono (Nat.le_add_right _ _) (Nat.le_refl _))
        · rw [hmore]
          rintro ⟨q, hq, hnot⟩
          rcases List.mem_cons.mp hq with rfl | hq
          · exact absurd hp hnot
          · exact hfailed ⟨q, hq, hnot⟩
        · rw [hmore]
          intro h
          rw [hval fun q hq => h q (List.mem_cons_of_mem p hq), propsLen, propsLen, List.map_cons,
            List.sum_cons]
          push_cast
          omega
        · rw [hmore]
          intro h
          rw [hsections fun q hq => h q (List.mem_cons_of_mem p hq)]
          simp [Filling.emit]
        · rw [hmore]
          intro a hs h
          exact hdecl a (hs.emit hops hret hdata) fun q hq => h q (List.mem_cons_of_mem p hq)

/-! ## What there is room for -/

theorem lt_of_fitting {count : Nat} (h : count < usbCompEp0Bufsiz) (ps : List ExtProp) :
    count + propsLen (fitting count ps) < usbCompEp0Bufsiz := by
  induction ps generalizing count with
  | nil => exact h
  | cons p ps ih =>
    rw [fitting]
    split
    · exact h
    next hroom =>
      have := ih (Nat.not_le.mp hroom)
      rwa [propsLen, List.map_cons, List.sum_cons, ← Nat.add_assoc]

theorem fitting_append {count : Nat} {qs : List ExtProp}
    (h : count + propsLen ps < usbCompEp0Bufsiz) :
    fitting count (ps ++ qs) = ps ++ fitting (count + propsLen ps) qs := by
  induction ps generalizing count with
  | nil => rfl
  | cons p ps ih =>
    rw [propsLen, List.map_cons, List.sum_cons, ← Nat.add_assoc] at h ⊢
    rw [List.cons_append, fitting, if_neg (by omega), ih h]
    rfl

theorem propsLen_append (ps qs : List ExtProp) :
    propsLen (ps ++ qs) = propsLen ps + propsLen qs := by
  rw [propsLen, List.map_append, List.sum_append]
  rfl

theorem propsLen_eq_zero : propsLen ps = 0 ↔ ps = [] := by
  cases ps with
  | nil => exact iff_of_true rfl rfl
  | cons p ps =>
    have hlen : 14 ≤ p.len := Nat.le_add_left _ _
    refine iff_of_false (fun h => ?_) (List.cons_ne_nil _ _)
    rw [propsLen, List.map_cons, List.sum_cons] at h
    omega

theorem fitting_eq_nil {count : Nat} :
    fitting count ps = [] ↔ ∀ p ∈ ps.head?, usbCompEp0Bufsiz ≤ count + p.len := by
  cases ps with
  | nil => simp [fitting]
  | cons p ps => simp [fitting]

/-- **The tables agree with the header** of the properties: there is room for the properties of the
first descriptor, and for no other, and the first descriptor with a compatible ID has as many. -/
def PropsAgree : List OsDesc → Prop
  | [] => True
  | d :: ds =>
    10 + propsLen d.extProp < usbCompEp0Bufsiz ∧
      (∀ p ∈ (ds.flatMap OsDesc.extProp).head?,
        usbCompEp0Bufsiz ≤ 10 + propsLen d.extProp + p.len) ∧
      ((((d :: ds).find? fun d => d.extCompatId.isSome).elim 0 fun d => d.extProp.length) % 65536 =
        d.extProp.length)

/-- The lengths in a table are those of its properties. -/
def OsDesc.Sums (d : OsDesc) : Prop :=
  d.extPropLen.toInt = propsLen d.extProp ∧ d.extPropCount.toInt = d.extProp.length

theorem field_len {d : OsDesc} (h : d.extPropLen.toInt = propsLen d.extProp) :
    (10 + propsLen d.extProp < usbCompEp0Bufsiz →
      (min (10 + d.extPropLen).toInt 4096 % 256 ^ 4).toNat = 10 + propsLen d.extProp) ∧
    (usbCompEp0Bufsiz ≤ 10 + propsLen d.extProp →
      usbCompEp0Bufsiz ≤ (min (10 + d.extPropLen).toInt 4096 % 256 ^ 4).toNat) := by
  have hlt := d.extPropLen.toInt_lt
  have hadd : (10 + d.extPropLen).toInt = ((10 : Int) + propsLen d.extProp).bmod (2 ^ 32) := by
    rw [Int32.toInt_add, h]
    rfl
  rw [h] at hlt
  rw [hadd, Int.bmod_def]
  unfold usbCompEp0Bufsiz
  omega

theorem field_count {ds : List OsDesc} (hds : propDescs table c i = ds)
    (hsums : ∀ d ∈ ds, d.Sums) :
    (countExtProp table c i % 256 ^ 2).toNat =
      ((ds.find? fun d => d.extCompatId.isSome).elim 0 fun d => d.extProp.length) % 65536 := by
  unfold countExtProp
  rw [hds]
  cases hfind : ds.find? fun d => d.extCompatId.isSome with
  | none => rfl
  | some d =>
    have hcount := (hsums d (List.mem_of_find?_eq_some hfind)).2
    dsimp only [Option.elim]
    rw [hcount]
    omega

theorem propsAgree_iff {ds : List OsDesc} (hds : propDescs table c i = ds)
    (hsums : ∀ d ∈ ds, d.Sums) :
    (lenExtProp table c i % 256 ^ 4).toNat =
          10 + propsLen (fitting 10 (ds.flatMap OsDesc.extProp)) ∧
        (countExtProp table c i % 256 ^ 2).toNat =
          (fitting 10 (ds.flatMap OsDesc.extProp)).length ↔
      PropsAgree ds := by
  rw [field_count hds hsums]
  cases ds with
  | nil =>
    have hlen : lenExtProp table c i = 10 := by rw [lenExtProp, hds]
    rw [hlen]
    exact iff_of_true ⟨rfl, rfl⟩ trivial
  | cons d ds =>
    have hlen : lenExtProp table c i = min (10 + d.extPropLen).toInt 4096 := by rw [lenExtProp, hds]
    obtain ⟨hroom, hfull⟩ := field_len (hsums d List.mem_cons_self).1
    have hfit := lt_of_fitting (show 10 < usbCompEp0Bufsiz by decide)
      ((d :: ds).flatMap OsDesc.extProp)
    rw [hlen, PropsAgree]
    by_cases hlt : 10 + propsLen d.extProp < usbCompEp0Bufsiz
    · have happend : fitting 10 (d.extProp ++ ds.flatMap OsDesc.extProp) = _ := fitting_append hlt
      rw [hroom hlt, List.flatMap_cons, happend, propsLen_append, List.length_append,
        and_iff_right hlt, ← fitting_eq_nil]
      constructor
      · rintro ⟨hlen, hcount⟩
        have hnil := propsLen_eq_zero.mp (show propsLen (fitting (10 + propsLen d.extProp)
          (ds.flatMap OsDesc.extProp)) = 0 by omega)
        rw [hnil] at hcount
        exact ⟨hnil, hcount⟩
      · rintro ⟨hnil, hcount⟩
        rw [hnil, hcount]
        exact ⟨rfl, rfl⟩
    · have := hfull (Nat.not_lt.mp hlt)
      exact iff_of_false (fun h => by omega) fun h => hlt h.1

/-! ## The responses -/

/-- The first four bytes of a header. -/
def headerLength (buf : Buffer) : Nat := leValue (get buf 0 4)

/-- The count in a header, of `n` bytes. -/
def headerCount (n : Nat) (buf : Buffer) : Nat := leValue (get buf 8 n)

/-- A request for the compatible IDs. -/
def AsksCompat (ctrl : SetupPacket) : Prop :=
  recipient ctrl = 0 ∧ ctrl.wIndex = 4 ∧ ctrl.wValue >>> 8 = 0

/-- A request for the properties of an interface that there is. -/
def AsksProps (c : Configuration) (ctrl : SetupPacket) (i : Nat) : Prop :=
  recipient ctrl = 1 ∧ ctrl.wIndex = 5 ∧ ctrl.wValue >>> 8 = 0 ∧ (ctrl.wValue &&& 0xff).toNat = i ∧
    i < maxConfigInterfaces ∧ c.interface i ≠ none

/-- The sections that `fill_ext_compat` emits, by their lengths. -/
def emittedCompat (table : OsDescTables) (c : Configuration) : List Nat :=
  (fillExtCompat table c fun _ => 0).sections

/-- What `fill_ext_prop` returns, and the sections that it emits, by their lengths. -/
def emittedProps (ops : ExtPropOps) (table : OsDescTables) (c : Configuration) (i : Nat) :
    Int × List Nat :=
  ((fillExtProp ops table c i fun _ => 0).1, (fillExtProp ops table c i fun _ => 0).2.sections)

/-- **What the responses are for.**  The headers announce what the emitting passes emit; so do the
sections with their own lengths; and nothing is written behind the buffer.  A request for the
properties that `fill_ext_prop` fails is stalled. -/
def OsDescOk (ops : ExtPropOps) (table : OsDescTables) (c : Configuration) : Prop :=
  ∀ ctrl buf, ∃ r, osDescResponse ops table c ctrl buf = some r ∧
    Within 0 usbCompEp0Bufsiz buf r.buf ∧
    (AsksCompat ctrl → headerLength r.buf = 16 + (emittedCompat table c).sum ∧
      headerCount 1 r.buf = (emittedCompat table c).length) ∧
    ∀ i, AsksProps c ctrl i → 0 ≤ (emittedProps ops table c i).1 →
      headerLength r.buf = 10 + (emittedProps ops table c i).2.sum ∧
      headerCount 2 r.buf = (emittedProps ops table c i).2.length ∧
      (0x0a < wLength ctrl → Laid r.buf 10 (emittedProps ops table c i).2)

theorem fits_within {a : Nat} {bs : List UInt8} {buf : Buffer}
    (h : a + bs.length ≤ usbCompEp0Bufsiz) : Within 0 usbCompEp0Bufsiz buf (put a bs buf) :=
  put_within.mono (Nat.zero_le _) h

theorem opened_within (ctrl : SetupPacket) (buf : Buffer) :
    Within 0 usbCompEp0Bufsiz buf (put 5 [0x01] (put 0 (List.replicate (wLength ctrl) 0) buf)) := by
  have hle : wLength ctrl ≤ usbCompEp0Bufsiz := Nat.min_le_right _ _
  exact (fits_within (by rw [List.length_replicate]; omega)).trans (fits_within (by decide))

/-- What is read of a header that has been written. -/
theorem header_spec {n : Nat} (hn : n ≤ 2) (len count : Int) (b : UInt8) (buf : Buffer) :
    Within 0 usbCompEp0Bufsiz buf
        (put 0 (field 4 len) (put 8 (field n count) (put 6 [b] buf))) ∧
      headerLength (put 0 (field 4 len) (put 8 (field n count) (put 6 [b] buf))) =
        (len % 256 ^ 4).toNat ∧
      headerCount n (put 0 (field 4 len) (put 8 (field n count) (put 6 [b] buf))) =
        (count % 256 ^ n).toNat := by
  have hfield : ∀ (n : Nat) (x : Int), (field n x).length = n := fun n x => length_leBytes n _
  have hvalue : ∀ (n : Nat) (x : Int), leValue (field n x) = (x % 256 ^ n).toNat := by
    intro n x
    have hpos : (0 : Int) < 256 ^ n := Int.pow_pos (by decide)
    have hlt := Int.emod_lt_of_pos x hpos
    rw [field, leValue_leBytes, Nat.mod_eq_of_lt]
    have hcast : ((256 ^ n : Nat) : Int) = 256 ^ n := by push_cast; rfl
    have hnonneg := Int.emod_nonneg x (Int.ne_of_gt hpos)
    omega
  refine ⟨?_, ?_, ?_⟩
  · refine ((fits_within (show 6 + 1 ≤ usbCompEp0Bufsiz by decide)).trans (fits_within ?_)).trans
      (fits_within ?_)
    · rw [hfield, usbCompEp0Bufsiz]
      omega
    · rw [hfield]
      decide
  · have hget : get (put 0 (field 4 len) (put 8 (field n count) (put 6 [b] buf))) 0
        (field 4 len).length = field 4 len := get_put
    rw [hfield] at hget
    rw [headerLength, hget, hvalue]
  · have hget : get (put 8 (field n count) (put 6 [b] buf)) 8 (field n count).length =
        field n count := get_put
    rw [hfield] at hget
    rw [headerCount, put_within.get (.inr (by rw [hfield]; decide)), hget, hvalue]

theorem emittedCompat_eq :
    emittedCompat table c = List.replicate (min (compatEntries table c).length 169) 24 :=
  (fillCompatEntries_spec (compatEntries table c) (s := { buf := fun _ => 0, count := 16 }) (m := 0)
    rfl (by decide)).1

theorem osDescResponse_compat {ctrl : SetupPacket} (h : AsksCompat ctrl) (buf : Buffer) :
    (255 < countExtCompat table c → osDescResponse ops table c ctrl buf = none) ∧
    (countExtCompat table c ≤ 255 → ∃ r, osDescResponse ops table c ctrl buf = some r ∧
      Within 0 usbCompEp0Bufsiz buf r.buf ∧ headerLength r.buf = 16 + 24 * countExtCompat table c ∧
      headerCount 1 r.buf = countExtCompat table c) := by
  obtain ⟨hrecipient, hindex, hvalue⟩ := h
  have hbreak : ¬ (ctrl.wIndex ≠ 4 ∨ ctrl.wValue >>> 8 ≠ 0) := by simp [hindex, hvalue]
  unfold osDescResponse
  dsimp only
  rw [if_pos hrecipient, if_neg hbreak]
  refine ⟨fun hbug => if_pos hbug, fun hle => ?_⟩
  rw [if_neg (Nat.not_lt.mpr hle)]
  have hopen := opened_within ctrl buf
  generalize put 5 [0x01] (put 0 (List.replicate (wLength ctrl) 0) buf) = opened at hopen ⊢
  obtain ⟨hwithin, hlen, hcount⟩ := header_spec (n := 1) (by decide)
    ((countExtCompat table c : Int) * 24 + 16) (countExtCompat table c) ctrl.wIndex.toUInt8 opened
  generalize put 0 (field 4 ((countExtCompat table c : Int) * 24 + 16))
    (put 8 (field 1 (countExtCompat table c)) (put 6 [ctrl.wIndex.toUInt8] opened)) = headed at *
  have hlen' : headerLength headed = 16 + 24 * countExtCompat table c := by omega
  have hcount' : headerCount 1 headed = countExtCompat table c := by omega
  split
  · obtain ⟨-, hbuf⟩ := fillCompatEntries_spec (compatEntries table c)
      (s := { buf := headed, count := 16 }) (m := 0) rfl (by decide)
    refine ⟨_, rfl, (hopen.trans hwithin).trans (hbuf.mono (Nat.zero_le _) (Nat.le_refl _)), ?_, ?_⟩
    · rw [← hlen']
      exact congrArg leValue (hbuf.get (.inl (show 0 + 4 ≤ 16 by decide)))
    · rw [← hcount']
      exact congrArg leValue (hbuf.get (.inl (show 8 + 1 ≤ 16 by decide)))
  · exact ⟨_, rfl, hopen.trans hwithin, hlen', hcount'⟩

theorem emittedProps_spec (hops : ops.Lawful) (i : Nat) :
    let fit := fitting 10 ((propDescs table c i).flatMap OsDesc.extProp)
    ((∃ p ∈ fit, ¬ Writable ops p) → (emittedProps ops table c i).1 < 0) ∧
    ((∀ p ∈ fit, Writable ops p) →
      emittedProps ops table c i = (((10 + propsLen fit : Nat) : Int), fit.map ExtProp.len)) := by
  have h := fillProps_emitted hops ((propDescs table c i).flatMap OsDesc.extProp)
    { buf := fun _ => 0, count := 10 }
  refine ⟨h.failed, fun hall => ?_⟩
  exact Prod.ext ((h.ret hall).trans (by push_cast; rfl)) ((h.sections hall).trans (by rfl))

theorem osDescResponse_props (hops : ops.Lawful) {ctrl : SetupPacket} (h : AsksProps c ctrl i)
    (buf : Buffer) :
    ∃ r, osDescResponse ops table c ctrl buf = some r ∧ Within 0 usbCompEp0Bufsiz buf r.buf ∧
      headerLength r.buf = (lenExtProp table c i % 256 ^ 4).toNat ∧
      headerCount 2 r.buf = (countExtProp table c i % 256 ^ 2).toNat ∧
      ((∀ p ∈ fitting 10 ((propDescs table c i).flatMap OsDesc.extProp), Writable ops p) →
        0x0a < wLength ctrl → Laid r.buf 10 (emittedProps ops table c i).2) := by
  obtain ⟨hrecipient, hindex, hvalue, rfl, hlt, howner⟩ := h
  have hbreak : ¬ (ctrl.wIndex ≠ 5 ∨ ctrl.wValue >>> 8 ≠ 0) := by simp [hindex, hvalue]
  have hthere : ¬ (maxConfigInterfaces ≤ (ctrl.wValue &&& 0xff).toNat ∨
      c.interface (ctrl.wValue &&& 0xff).toNat = none) := by
    rintro (hle | hnone)
    · exact Nat.not_le.mpr hlt hle
    · exact howner hnone
  unfold osDescResponse
  dsimp only
  rw [if_neg (by rw [hrecipient]; decide), if_pos hrecipient, if_neg hbreak, if_neg hthere]
  generalize (ctrl.wValue &&& 0xff).toNat = i
  have hopen := opened_within ctrl buf
  generalize put 5 [0x01] (put 0 (List.replicate (wLength ctrl) 0) buf) = opened at hopen ⊢
  obtain ⟨hwithin, hlen, hcount⟩ := header_spec (n := 2) (by decide) (lenExtProp table c i)
    (countExtProp table c i) ctrl.wIndex.toUInt8 opened
  generalize put 0 (field 4 (lenExtProp table c i)) (put 8 (field 2 (countExtProp table c i))
    (put 6 [ctrl.wIndex.toUInt8] opened)) = headed at *
  split
  · have hemitted := fillProps_emitted hops ((propDescs table c i).flatMap OsDesc.extProp)
      { buf := headed, count := 10 }
    have hbuf := hemitted.within
    refine ⟨_, rfl, (hopen.trans hwithin).trans (hbuf.mono (Nat.zero_le _) (Nat.le_refl _)), ?_, ?_,
      fun hall _ => ?_⟩
    · rw [← hlen]
      exact congrArg leValue (hbuf.get (.inl (show 0 + 4 ≤ 10 by decide)))
    · rw [← hcount]
      exact congrArg leValue (hbuf.get (.inl (show 8 + 2 ≤ 10 by decide)))
    · have hdeclared := hemitted.declared 10 ⟨trivial, rfl, nofun⟩
        hall
      rw [((emittedProps_spec hops i).2 hall)]
      have hlaid := hdeclared.laid
      rw [hemitted.sections hall] at hlaid
      exact hlaid
  next hshort =>
    exact ⟨_, rfl, hopen.trans hwithin, hlen, hcount, fun _ hlong => absurd hlong hshort⟩

theorem osDescResponse_other {ctrl : SetupPacket} (hcompat : ¬ AsksCompat ctrl)
    (hprops : ∀ i, ¬ AsksProps c ctrl i) (buf : Buffer) :
    ∃ r, osDescResponse ops table c ctrl buf = some r ∧ Within 0 usbCompEp0Bufsiz buf r.buf := by
  have hopen := opened_within ctrl buf
  unfold osDescResponse
  dsimp only
  split
  next hrecipient =>
    rw [if_pos]
    · exact ⟨_, rfl, hopen⟩
    · by_contra hask
      obtain ⟨hindex, hvalue⟩ := not_or.mp hask
      exact hcompat ⟨hrecipient, not_not.mp hindex, not_not.mp hvalue⟩
  · split
    next hrecipient =>
      split
      · exact ⟨_, rfl, hopen⟩
      next hask =>
        obtain ⟨hindex, hvalue⟩ := not_or.mp hask
        rw [if_pos]
        · exact ⟨_, rfl, hopen⟩
        · by_contra hthere
          obtain ⟨hlt, howner⟩ := not_or.mp hthere
          exact hprops _ ⟨hrecipient, not_not.mp hindex, not_not.mp hvalue, rfl, Nat.not_le.mp hlt,
            howner⟩
    · exact ⟨_, rfl, hopen⟩

theorem length_emittedCompat :
    (emittedCompat table c).length = min (compatEntries table c).length 169 := by
  rw [emittedCompat_eq, List.length_replicate]

theorem OsDescOk.countExtCompat_eq (h : OsDescOk ops table c) :
    countExtCompat table c = min (compatEntries table c).length 169 := by
  have hask : AsksCompat ⟨0xc0, 0, 0, 4, 4096⟩ := ⟨by decide, rfl, by decide⟩
  obtain ⟨r, hr, -, hheader, -⟩ := h ⟨0xc0, 0, 0, 4, 4096⟩ fun _ => 0
  obtain ⟨hbug, hfine⟩ := @osDescResponse_compat ops table c _ hask fun _ => 0
  have hle : countExtCompat table c ≤ 255 := by
    by_contra hgt
    rw [hbug (Nat.not_le.mp hgt)] at hr
    cases hr
  obtain ⟨r', hr', -, -, hcount⟩ := hfine hle
  obtain rfl := Option.some_inj.mp (hr.symm.trans hr')
  rw [← hcount, (hheader hask).2, length_emittedCompat]

theorem sums_of_mem (hsums : ∀ f, ∀ e ∈ table f, ∀ d ∈ e.osDesc, d.Sums) {d : OsDesc}
    (hd : d ∈ propDescs table c i) : d.Sums := by
  have hmem := (List.reduceOption_mem_iff).mp hd
  unfold osDescs at hmem
  split at hmem
  · cases hmem
  next f _ =>
    obtain ⟨e, he, hmatch⟩ := List.mem_filterMap.mp hmem
    split at hmatch
    · exact hsums f e he d (Option.some_inj.mp hmatch)
    · cases hmatch

/-- **The OS descriptors are consistent** if and only if the entries with a compatible ID are as
many as the sections for which there is room, and, for each interface, the first descriptor accounts
for all properties that are emitted, unless one of them cannot be written. -/
theorem osDescOk_iff (hops : ops.Lawful)
    (hsums : ∀ f, ∀ e ∈ table f, ∀ d ∈ e.osDesc, d.Sums) :
    OsDescOk ops table c ↔
      countExtCompat table c = min (compatEntries table c).length 169 ∧
      ∀ i < maxConfigInterfaces, c.interface i ≠ none →
        (∃ p ∈ fitting 10 ((propDescs table c i).flatMap OsDesc.extProp), ¬ Writable ops p) ∨
          PropsAgree (propDescs table c i) := by
  have hagree : ∀ i, _ ↔ PropsAgree (propDescs table c i) := fun i =>
    propsAgree_iff rfl fun d hd => sums_of_mem hsums hd
  have hcompatLen : (emittedCompat table c).length = _ := length_emittedCompat
  have hcompatSum : (emittedCompat table c).sum = 24 * (emittedCompat table c).length := by
    rw [emittedCompat_eq, List.sum_replicate_nat, List.length_replicate, Nat.mul_comm]
  constructor
  · intro hok
    refine ⟨hok.countExtCompat_eq, fun i hlt howner => ?_⟩
    by_cases hall : ∀ p ∈ fitting 10 ((propDescs table c i).flatMap OsDesc.extProp), Writable ops p
    · refine .inr ((hagree i).mp ?_)
      have hask : AsksProps c ⟨0xc1, 0, UInt16.ofNat i, 5, 4096⟩ i := by
        have hsmall : ∀ i < 16, UInt16.ofNat i >>> 8 = 0 ∧
            (UInt16.ofNat i &&& 0xff).toNat = i := by decide
        exact ⟨show (0xc1 : UInt8) &&& 0x1f = 1 by decide, rfl, (hsmall i hlt).1, (hsmall i hlt).2,
          hlt, howner⟩
      obtain ⟨r, hr, -, -, hheader⟩ := hok _ fun _ => 0
      obtain ⟨r', hr', -, hlen, hcount, -⟩ := @osDescResponse_props ops table c i hops _ hask
        fun _ => 0
      obtain rfl := Option.some_inj.mp (hr.symm.trans hr')
      have hspec : emittedProps ops table c i = _ := (emittedProps_spec hops i).2 hall
      obtain ⟨hlen', hcount', -⟩ := hheader i hask (by rw [hspec]; exact Int.natCast_nonneg _)
      rw [hspec] at hlen' hcount'
      rw [← hlen, ← hcount]
      exact ⟨hlen', hcount'.trans (List.length_map _)⟩
    · simp only [not_forall] at hall
      obtain ⟨p, hp, hbad⟩ := hall
      exact .inl ⟨p, hp, hbad⟩
  · rintro ⟨hcompat, hprops⟩ ctrl buf
    by_cases hask : AsksCompat ctrl
    · obtain ⟨r, hr, hwithin, hlen, hcount⟩ :=
        (@osDescResponse_compat ops table c _ hask buf).2 (by omega)
      refine ⟨r, hr, hwithin, fun _ => ?_, fun i hask' => ?_⟩
      · rw [hlen, hcount, hcompatSum, hcompatLen, hcompat]
        exact ⟨rfl, rfl⟩
      · exact absurd (hask.1.symm.trans hask'.1) (by decide)
    by_cases hask' : ∃ i, AsksProps c ctrl i
    · obtain ⟨i, hask'⟩ := hask'
      obtain ⟨r, hr, hwithin, hlen, hcount, hlaid⟩ :=
        @osDescResponse_props ops table c i hops _ hask' buf
      refine ⟨r, hr, hwithin, fun h => absurd h hask, fun j hask'' hret => ?_⟩
      obtain rfl : i = j := hask'.2.2.2.1.symm.trans hask''.2.2.2.1
      obtain ⟨hfail, hspec⟩ := @emittedProps_spec ops table c hops i
      have hall : ∀ p ∈ fitting 10 ((propDescs table c i).flatMap OsDesc.extProp),
          Writable ops p := by
        by_contra hbad
        simp only [not_forall] at hbad
        obtain ⟨p, hp, hbad⟩ := hbad
        exact Int.not_lt.mpr hret (hfail ⟨p, hp, hbad⟩)
      obtain ⟨hlen', hcount'⟩ := (hagree i).mpr
        ((hprops i hask'.2.2.2.2.1 hask'.2.2.2.2.2).resolve_left fun ⟨p, hp, hbad⟩ =>
          hbad (hall p hp))
      refine ⟨?_, ?_, hlaid hall⟩
      · rw [hlen, hlen', hspec hall]
        rfl
      · rw [hcount, hcount', hspec hall]
        exact (List.length_map _).symm
    · obtain ⟨r, hr, hwithin⟩ := osDescResponse_other hask (fun i h => hask' ⟨i, h⟩) buf
      exact ⟨r, hr, hwithin, fun h => absurd h hask, fun i h => absurd ⟨i, h⟩ hask'⟩

/-! ## Two tables -/

/-- The `USB_EXT_PROP_*` values. -/
def ExtPropType.code : ExtPropType → Nat
  | .unicode => 1
  | .unicodeEnv => 2
  | .binary => 3
  | .le32 => 4
  | .be32 => 5
  | .unicodeLink => 6
  | .other type => type.toNat

/-- A text of ASCII characters in UTF-16, with its end. -/
def utf16 (text : List UInt8) : List UInt8 := text.flatMap (fun b => [b, 0]) ++ [0, 0]

/-- The functions for texts in ASCII. -/
def asciiOps : ExtPropOps where
  putSize n a := put a (field 4 n)
  putType type a := put (a + 4) (field 4 type.code)
  nameRet p := p.nameLen
  putName p a := put (a + 8) (field 2 p.nameLen ++ (utf16 p.name).take p.nameLen)
  putUnicode ret p a := put (a + 10 + ret.toNat)
    (field 4 p.dataLen ++ (utf16 p.data).take p.dataLen)
  putBinary ret p a := put (a + 10 + ret.toNat) (field 4 p.dataLen ++ p.data.take p.dataLen)

theorem asciiOps_lawful : asciiOps.Lawful := by
  have hfield : ∀ (n : Nat) (x : Int), (field n x).length = n := fun n x => length_leBytes n _
  have hdata : ∀ (p : ExtProp) (a : Nat) (buf : Buffer) (bs : List UInt8),
      Within (a + 8) (a + p.len) buf
        (put (a + 10 + p.nameLen) (field 4 p.dataLen ++ bs.take p.dataLen) buf) := by
    intro p a buf bs
    refine put_within.mono (by omega) ?_
    rw [List.length_append, hfield, List.length_take, ExtProp.len]
    omega
  refine ⟨fun n a buf => rfl, fun type a buf => ?_, fun p a buf => ?_,
    fun p a buf _ => hdata p a buf _, fun p a buf _ => hdata p a buf _⟩
  · refine put_within.mono (Nat.le_refl _) ?_
    rw [hfield]
  · refine put_within.mono (Nat.le_refl _) ?_
    rw [List.length_append, hfield, List.length_take, ExtProp.len]
    omega

/-- One function, with the interface 0. -/
def oneInterface : Configuration :=
  { bConfigurationValue := 1
    interface := fun i => if i = 0 then some 1 else none
    nextInterfaceId := 1
    functions := [1] }

def oneEntry (d : Option OsDesc) : OsDescTables := fun _ => [⟨0, d⟩]

/-- A device for WinUSB, with a property of two bytes. -/
def winUsb : OsDesc :=
  { extCompatId := some fun i => [87, 73, 78, 85, 83, 66].getD i 0
    extProp := [{ type := .binary, name := [73], nameLen := 4, data := [1, 2], dataLen := 2 }]
    extPropLen := 20
    extPropCount := 1 }

theorem osDescOk_winUsb : OsDescOk asciiOps (oneEntry (some winUsb)) oneInterface := by
  refine (osDescOk_iff asciiOps_lawful fun f e he d hd => ?_).mpr
    ⟨by decide, fun i hlt howner => .inr ?_⟩
  · rw [List.mem_singleton.mp he] at hd
    obtain rfl := Option.some_inj.mp hd
    exact ⟨by decide, by decide⟩
  · obtain rfl : i = 0 := by
      by_contra hne
      exact howner (if_neg hne)
    exact ⟨by decide, fun p hp => absurd hp (by simp), by decide⟩

/-- An entry without a descriptor is not counted, and gets a blank section. -/
theorem not_osDescOk_blank : ¬ OsDescOk asciiOps (oneEntry none) oneInterface := fun h =>
  absurd h.countExtCompat_eq (by decide)

end RealtekIpcam.Composite
