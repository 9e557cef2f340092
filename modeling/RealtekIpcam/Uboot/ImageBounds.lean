import RealtekIpcam.Uboot.Sections

/-!
# What `_do_write_all_` reads

The loop counts down the length of the image with a wrapping counter that it compares with zero
only, so an image that is too short, or a section longer than what is left, takes it past the end.

`WithinBounds` says that the command stays in the image: it returns, has read only bytes of the
image, and returns 0 only if the sections fill it exactly.  `FitsImage` is the same for a walk over
the image with unbounded numbers, where a section has to fit in what is left of it.  The two are
equivalent, `withinBounds_iff`.
-/

namespace RealtekIpcam.Uboot

open Ram

variable {V : Type*} {c : UpdateConfig V} {o : Outcomes} {s t : UpdateState V}
  {ram : Memory} {total off len fuel : Nat} {addr dst rem ramOffset : UInt32}

/-! ## The image in memory -/

def imageAddr (off : Nat) : UInt32 := sysLoadAddr + UInt32.ofNat off

/-- The address is one of the `total` bytes of the image. -/
def InImage (total : Nat) (addr : UInt32) : Prop :=
  sysLoadAddr.toNat ≤ addr.toNat ∧ addr.toNat < sysLoadAddr.toNat + total

/-- Only bytes of the image are read. -/
def Access.Inside (total : Nat) (x : Access) : Prop :=
  ∀ i < x.len, InImage total (x.addr + UInt32.ofNat i)

/-- How much of an image of `total` bytes there is below the end of the address space. -/
def room (total : Nat) : Nat := min total (2 ^ 32 - sysLoadAddr.toNat)

theorem imageAddr_add (off n : Nat) : imageAddr off + UInt32.ofNat n = imageAddr (off + n) := by
  unfold imageAddr
  rw [UInt32.add_assoc, ← UInt32.ofNat_add]

theorem toNat_imageAddr (off : Nat) :
    (imageAddr off).toNat = (sysLoadAddr.toNat + off) % 2 ^ 32 := by
  unfold imageAddr
  rw [UInt32.toNat_add, UInt32.toNat_ofNat']
  omega

theorem sysLoadAddr_toNat : sysLoadAddr.toNat = 0x80400000 := rfl

theorem inImage_imageAddr (hoff : off < 2 ^ 32) :
    InImage total (imageAddr off) ↔ off < room total := by
  unfold InImage room
  rw [toNat_imageAddr, sysLoadAddr_toNat]
  omega

theorem inside_iff (hoff : off < 2 ^ 32) (hlen : 0 < len) :
    Access.Inside total ⟨imageAddr off, len⟩ ↔ off + len ≤ room total := by
  have hroom : room total ≤ 0x7fc00000 := Nat.min_le_right _ _
  unfold Access.Inside
  dsimp only
  constructor
  · intro h
    have hfirst := h 0 hlen
    rw [imageAddr_add, inImage_imageAddr (by omega)] at hfirst
    by_contra hlt
    have hlast := h (room total - off) (by omega)
    rw [imageAddr_add, inImage_imageAddr (by omega)] at hlast
    omega
  · intro h i hi
    rw [imageAddr_add, inImage_imageAddr (by omega)]
    omega

theorem header_inside_iff (hoff : off < 2 ^ 32) :
    (∀ x ∈ (readHeader s (imageAddr off)).accesses, x.Inside total) ↔
      off + 0x20 ≤ room total ∧ ∀ x ∈ s.accesses, x.Inside total := by
  have hroom : room total ≤ 0x7fc00000 := Nat.min_le_right _ _
  have hword (n : Nat) (hn : off + n < 2 ^ 32) :
      Access.Inside total ⟨imageAddr off + UInt32.ofNat n, 4⟩ ↔ off + n + 4 ≤ room total := by
    rw [imageAddr_add]
    exact inside_iff hn (by decide)
  show (∀ x ∈ ⟨imageAddr off + UInt32.ofNat 0x1c, 4⟩ :: ⟨imageAddr off + UInt32.ofNat 0x14, 4⟩ ::
    ⟨imageAddr off + UInt32.ofNat 0x0c, 4⟩ :: ⟨imageAddr off, 4⟩ :: s.accesses,
    Access.Inside total x) ↔ _
  simp only [List.forall_mem_cons]
  rw [inside_iff hoff (by decide)]
  constructor
  · rintro ⟨hlast, -, -, hfirst, hrest⟩
    rw [hword 0x1c (by omega)] at hlast
    exact ⟨by omega, hrest⟩
  · rintro ⟨hfits, hrest⟩
    rw [hword 0x1c (by omega), hword 0x14 (by omega), hword 0x0c (by omega)]
    exact ⟨by omega, by omega, by omega, by omega, hrest⟩

theorem Written.inside_iff (h : Written c s t (imageAddr off)) (hoff : off < 2 ^ 32) :
    (∀ x ∈ t.accesses, x.Inside total) ↔
      off + 0x20 + (header s.ram (imageAddr off)).filelen.toNat ≤ room total ∧
        ∀ x ∈ s.accesses, x.Inside total := by
  have hroom : room total ≤ 0x7fc00000 := Nat.min_le_right _ _
  have hpayload (hfits : off + 0x20 ≤ room total) :
      Access.Inside total ⟨imageAddr off + 0x20, (header s.ram (imageAddr off)).filelen.toNat⟩ ↔
        off + 0x20 + (header s.ram (imageAddr off)).filelen.toNat ≤ room total := by
    rcases Nat.eq_zero_or_pos (header s.ram (imageAddr off)).filelen.toNat with hzero | hpos
    · rw [hzero]
      exact iff_of_true (fun i hi => absurd hi (Nat.not_lt_zero i)) hfits
    · rw [show imageAddr off + 0x20 = imageAddr (off + 0x20) from imageAddr_add off 0x20]
      exact Uboot.inside_iff (by omega) hpos
  rw [h.accesses]
  simp only [List.forall_mem_append]
  rw [header_inside_iff hoff]
  constructor
  · rintro ⟨⟨hwrite, -⟩, hfits, hrest⟩
    refine ⟨?_, hrest⟩
    by_cases hzero : (header s.ram (imageAddr off)).filelen = 0
    · rw [hzero]
      exact hfits
    · rw [if_neg hzero] at hwrite
      exact (hpayload hfits).mp (hwrite _ List.mem_cons_self)
  · rintro ⟨hfits, hrest⟩
    have hinside := (hpayload (by omega)).mpr hfits
    refine ⟨⟨fun x hx => ?_, fun x hx => ?_⟩, by omega, hrest⟩
    · split at hx
      · cases hx
      · rw [List.mem_singleton.mp hx]
        exact hinside
    · split at hx
      · rw [List.mem_singleton.mp hx]
        exact hinside
      · cases hx

/-! ## The loop -/

/-- The bytes that sections with the given lengths take, headers and trailers included. -/
def sectionsSize (sections : List UInt32) : Nat :=
  (sections.map fun filelen => filelen.toNat + 0x24).sum

@[simp] theorem sectionsSize_cons (filelen : UInt32) (sections : List UInt32) :
    sectionsSize (filelen :: sections) = filelen.toNat + 0x24 + sectionsSize sections :=
  List.sum_cons

/-- Nothing outside the image was read, and success means that the sections fill it exactly. -/
structure Safe (total : Nat) (r : Int × UpdateState V) : Prop where
  reads : ∀ x ∈ r.2.accesses, x.Inside total
  fills : r.1 = 0 → 0x100 + sectionsSize r.2.sections = total

/-- `_do_write_all_` on an image of `allLen` bytes returns, and stays in the image. -/
def WithinBounds (c : UpdateConfig V) (o : Outcomes) (s : UpdateState V) (allLen : UInt32) : Prop :=
  ∃ fuel r, doWriteAll c o s fuel allLen = some r ∧ Safe allLen.toNat r

/-- From offset `off` on, the sections fit in the image: the walk ends at its last byte, at an
end-of-file section that is the rest of it, or at a section that fits and whose write fails.  Writes
to the flash are counted by `n`, and a device tree is copied to `dst` before the walk goes on. -/
inductive FitsImage (o : Outcomes) (dst : UInt32) (total : Nat) : Memory → Nat → Nat → Prop where
  | done (ram : Memory) (n : Nat) : FitsImage o dst total ram total n
  | fileEnd {ram : Memory} {off n : Nat}
      (hfits : off + 0x20 ≤ room total)
      (hend : (header ram (imageAddr off)).magicNum = magicFileEnd)
      (hfill : off + ((header ram (imageAddr off)).filelen.toNat + 0x24) = total) :
      FitsImage o dst total ram off n
  | fails {ram : Memory} {off n : Nat}
      (hfits : off + 0x20 + (header ram (imageAddr off)).filelen.toNat ≤ room total)
      (hend : (header ram (imageAddr off)).magicNum ≠ magicFileEnd)
      (hfail : (header ram (imageAddr off)).filelen = 0 ∨ o.flashWrite n ≠ 0) :
      FitsImage o dst total ram off n
  | next {ram : Memory} {off n : Nat}
      (hfits : off + 0x20 + (header ram (imageAddr off)).filelen.toNat ≤ room total)
      (hend : (header ram (imageAddr off)).magicNum ≠ magicFileEnd)
      (hlen : (header ram (imageAddr off)).filelen ≠ 0) (hok : o.flashWrite n = 0)
      (hrest : FitsImage o dst total (sectionRam dst ram (imageAddr off))
        (off + ((header ram (imageAddr off)).filelen.toNat + 0x24)) (n + 1)) :
      FitsImage o dst total ram off n

theorem FitsImage.le {n : Nat} (h : FitsImage o dst total ram off n) : off ≤ total := by
  have hroom : room total ≤ total := Nat.min_le_left _ _
  cases h with
  | done => exact Nat.le_refl _
  | fileEnd hfits hend hfill => omega
  | fails hfits hend hfail => omega
  | next hfits hend hlen hok hrest => omega

/-- The counters of the loop at offset `off` of the image. -/
def allLenAt (total off : Nat) : UInt32 := UInt32.ofNat (total - off)

theorem allLenAt_ne_zero (htotal : total < 2 ^ 32) (hoff : off < total) :
    allLenAt total off ≠ 0 := by
  intro h
  have hnat := congrArg UInt32.toNat h
  unfold allLenAt at hnat
  rw [UInt32.toNat_ofNat', Nat.mod_eq_of_lt (by omega)] at hnat
  have hzero : (0 : UInt32).toNat = 0 := rfl
  omega

theorem allLenAt_self (total : Nat) : allLenAt total total = 0 := by
  unfold allLenAt
  rw [Nat.sub_self]
  rfl

theorem allLenAt_sub (filelen : UInt32) (hoff : off + (filelen.toNat + 0x24) ≤ total)
    (htotal : total < 2 ^ 32) : allLenAt total off - (filelen + 0x24) =
      allLenAt total (off + (filelen.toNat + 0x24)) := by
  unfold allLenAt
  refine UInt32.toNat_inj.mp ?_
  have hconst : (0x24 : UInt32).toNat = 0x24 := rfl
  rw [UInt32.toNat_sub, UInt32.toNat_add, UInt32.toNat_ofNat', UInt32.toNat_ofNat', hconst]
  omega

theorem ofNat_add_section (filelen : UInt32) (off : Nat) :
    UInt32.ofNat off + (filelen + 0x24) = UInt32.ofNat (off + (filelen.toNat + 0x24)) := by
  rw [UInt32.ofNat_add, UInt32.ofNat_add, UInt32.ofNat_toNat]
  rfl

theorem writeAllLoop_cases {r : Int × UpdateState V} (haddr : sysLoadAddr + ramOffset = addr)
    (hrem : rem ≠ 0) (h : writeAllLoop c o fuel rem ramOffset s = some r) :
    ∃ fuel', fuel = fuel' + 1 ∧
      (((header s.ram addr).magicNum = magicFileEnd ∧ r = (0, readHeader s addr)) ∨
      ((header s.ram addr).magicNum ≠ magicFileEnd ∧ writeRet o s (header s.ram addr) ≠ 0 ∧
        r = (writeRet o s (header s.ram addr), afterWrite o (writeAllDtb c o) s addr)) ∨
      ((header s.ram addr).magicNum ≠ magicFileEnd ∧ writeRet o s (header s.ram addr) = 0 ∧
        writeAllLoop c o fuel' (rem - ((header s.ram addr).filelen + 0x24))
          (ramOffset + ((header s.ram addr).filelen + 0x24))
          (afterWrite o (writeAllDtb c o) s addr) = some r)) := by
  subst haddr
  cases fuel with
  | zero => cases h
  | succ fuel =>
    refine ⟨fuel, rfl, ?_⟩
    unfold writeAllLoop at h
    rw [if_neg hrem] at h
    by_cases hend : (header s.ram (sysLoadAddr + ramOffset)).magicNum = magicFileEnd
    · rw [sectionRound_end hend] at h
      exact .inl ⟨hend, (Option.some_inj.mp h).symm⟩
    by_cases hret : writeRet o s (header s.ram (sysLoadAddr + ramOffset)) = 0
    · rw [sectionRound_next frames_writeAllDtb hend hret] at h
      exact .inr (.inr ⟨hend, hret, h⟩)
    · rw [sectionRound_fails frames_writeAllDtb hend hret] at h
      exact .inr (.inl ⟨hend, hret, (Option.some_inj.mp h).symm⟩)

theorem accesses_writeAllLoop {r : Int × UpdateState V}
    (h : writeAllLoop c o fuel rem ramOffset s = some r) :
    ∀ x ∈ s.accesses, x ∈ r.2.accesses := by
  induction fuel generalizing rem ramOffset s with
  | zero => cases h
  | succ fuel ih =>
    by_cases hrem : rem = 0
    · unfold writeAllLoop at h
      rw [if_pos hrem] at h
      cases h
      exact fun x hx => hx
    · have hafter : ∀ x ∈ s.accesses,
          x ∈ (afterWrite o (writeAllDtb c o) s (sysLoadAddr + ramOffset)).accesses := by
        intro x hx
        rw [(written_afterWrite frames_writeAllDtb).accesses]
        refine List.mem_append_right _ ?_
        exact List.mem_cons_of_mem _ (List.mem_cons_of_mem _ (List.mem_cons_of_mem _
          (List.mem_cons_of_mem _ hx)))
      obtain ⟨fuel', hfuel, hcases⟩ := writeAllLoop_cases rfl hrem h
      cases hfuel
      rcases hcases with ⟨-, rfl⟩ | ⟨-, -, rfl⟩ | ⟨-, -, hrest⟩
      · intro x hx
        exact List.mem_cons_of_mem _ (List.mem_cons_of_mem _ (List.mem_cons_of_mem _
          (List.mem_cons_of_mem _ hx)))
      · exact hafter
      · exact fun x hx => ih hrest x (hafter x hx)

theorem header_writeAllLoop {r : Int × UpdateState V} (hrem : rem ≠ 0)
    (h : writeAllLoop c o fuel rem ramOffset s = some r) :
    ⟨sysLoadAddr + ramOffset, 4⟩ ∈ r.2.accesses := by
  have hread : ⟨sysLoadAddr + ramOffset, 4⟩ ∈
      (readHeader s (sysLoadAddr + ramOffset)).accesses :=
    List.mem_cons_of_mem _ (List.mem_cons_of_mem _ (List.mem_cons_of_mem _ List.mem_cons_self))
  have hafter : ⟨sysLoadAddr + ramOffset, 4⟩ ∈
      (afterWrite o (writeAllDtb c o) s (sysLoadAddr + ramOffset)).accesses := by
    rw [(written_afterWrite frames_writeAllDtb).accesses]
    exact List.mem_append_right _ hread
  obtain ⟨fuel', -, hcases⟩ := writeAllLoop_cases rfl hrem h
  rcases hcases with ⟨-, rfl⟩ | ⟨-, -, rfl⟩ | ⟨-, -, hrest⟩
  · exact hread
  · exact hafter
  · exact accesses_writeAllLoop hrest _ hafter

theorem writeAllLoop_succ (hrem : rem ≠ 0) : writeAllLoop c o (fuel + 1) rem ramOffset s =
    match sectionRound o s (writeAllDtb c o) (sysLoadAddr + ramOffset) with
    | (some ret, _, s) => some (ret, s)
    | (none, filelen, s) =>
      writeAllLoop c o fuel (rem - (filelen + 0x24)) (ramOffset + (filelen + 0x24)) s := by
  rw [writeAllLoop]
  exact if_neg hrem

/-- An image that fits is read within its bounds. -/
theorem FitsImage.loop {n : Nat} (h : FitsImage o dst total ram off n) (htotal : total < 2 ^ 32)
    (hram : s.ram = ram) (hdst : c.dtbAddr s.env = dst) (hn : s.flashWrites.length = n)
    (hreads : ∀ x ∈ s.accesses, x.Inside total) (hoff : 0x100 + sectionsSize s.sections = off) :
    ∃ fuel r, writeAllLoop c o fuel (allLenAt total off) (UInt32.ofNat off) s = some r ∧
      Safe total r := by
  have hroom : room total ≤ total := Nat.min_le_left _ _
  induction h generalizing s with
  | done ram n =>
    refine ⟨1, (0, s), ?_, hreads, fun _ => hoff⟩
    rw [writeAllLoop, if_pos (allLenAt_self total)]
  | @fileEnd ram off n hfits hend hfill =>
    subst hram
    refine ⟨1, (0, readHeader s (imageAddr off)), ?_, ?_, fun _ => ?_⟩
    · rw [writeAllLoop_succ (allLenAt_ne_zero htotal (by omega))]
      rw [show sysLoadAddr + UInt32.ofNat off = imageAddr off from rfl, sectionRound_end hend]
    · exact (header_inside_iff (by omega)).mpr ⟨hfits, hreads⟩
    · show 0x100 + sectionsSize (_ :: s.sections) = total
      rw [sectionsSize_cons]
      omega
  | @fails ram off n hfits hend hfail =>
    subst hram hn
    have hret := writeRet_ne_zero.mpr hfail
    have hwritten :
        Written c s (afterWrite o (writeAllDtb c o) s (imageAddr off)) (imageAddr off) :=
      written_afterWrite frames_writeAllDtb
    refine ⟨1, (writeRet o s (header s.ram (imageAddr off)),
      afterWrite o (writeAllDtb c o) s (imageAddr off)), ?_, ?_, fun h => absurd h hret⟩
    · rw [writeAllLoop_succ (allLenAt_ne_zero htotal (by omega))]
      rw [show sysLoadAddr + UInt32.ofNat off = imageAddr off from rfl,
        sectionRound_fails frames_writeAllDtb hend hret]
    · exact (hwritten.inside_iff (by omega)).mpr ⟨hfits, hreads⟩
  | @next ram off n hfits hend hlen hok hrest ih =>
    subst hram hn
    have hret : writeRet o s (header s.ram (imageAddr off)) = 0 := (if_neg hlen).trans hok
    have hle := hrest.le
    have hwritten :
        Written c s (afterWrite o (writeAllDtb c o) s (imageAddr off)) (imageAddr off) :=
      written_afterWrite frames_writeAllDtb
    obtain ⟨fuel, r, hloop, hsafe⟩ := ih (s := afterWrite o (writeAllDtb c o) s (imageAddr off))
      (by rw [hwritten.ram, hdst]) (hwritten.dtbAddr.trans hdst)
      (by rw [hwritten.flashWrites, if_neg hlen]; rfl)
      ((hwritten.inside_iff (by omega)).mpr ⟨hfits, hreads⟩)
      (by rw [hwritten.sections, sectionsSize_cons]; omega)
    refine ⟨fuel + 1, r, ?_, hsafe⟩
    rw [writeAllLoop_succ (allLenAt_ne_zero htotal (by omega)),
      show sysLoadAddr + UInt32.ofNat off = imageAddr off from rfl,
      sectionRound_next frames_writeAllDtb hend hret]
    dsimp only
    rw [allLenAt_sub _ hle htotal, ofNat_add_section]
    exact hloop

theorem fitsImage_of_loop {r : Int × UpdateState V} (htotal : total < 2 ^ 32) (hle : off ≤ total)
    (h : writeAllLoop c o fuel (allLenAt total off) (UInt32.ofNat off) s = some r)
    (hsafe : Safe total r) (hoff : 0x100 + sectionsSize s.sections = off) :
    FitsImage o (c.dtbAddr s.env) total s.ram off s.flashWrites.length := by
  have hroom : room total ≤ total := Nat.min_le_left _ _
  have hspace : room total ≤ 0x7fc00000 := Nat.min_le_right _ _
  induction fuel generalizing off s with
  | zero => cases h
  | succ fuel ih =>
    rcases Nat.eq_or_lt_of_le hle with rfl | hlt
    · exact .done s.ram _
    have hwritten :
        Written c s (afterWrite o (writeAllDtb c o) s (imageAddr off)) (imageAddr off) :=
      written_afterWrite frames_writeAllDtb
    obtain ⟨fuel', hfuel, hcases⟩ := writeAllLoop_cases
      (show sysLoadAddr + UInt32.ofNat off = imageAddr off from rfl) (allLenAt_ne_zero htotal hlt) h
    cases hfuel
    rcases hcases with ⟨hend, rfl⟩ | ⟨hend, hret, rfl⟩ | ⟨hend, hret, hrest⟩
    · refine .fileEnd ((header_inside_iff (by omega)).mp hsafe.reads).1 hend ?_
      have hfill : 0x100 + sectionsSize ((header s.ram (imageAddr off)).filelen :: s.sections) =
          total := hsafe.fills rfl
      rw [sectionsSize_cons] at hfill
      omega
    · exact .fails ((hwritten.inside_iff (by omega)).mp hsafe.reads).1 hend
        (writeRet_ne_zero.mp hret)
    · have hboth := (not_congr writeRet_ne_zero).mp (not_not.mpr hret)
      rw [not_or, not_not] at hboth
      have hfits := ((hwritten.inside_iff (by omega)).mp
        fun x hx => hsafe.reads x (accesses_writeAllLoop hrest x hx)).1
      -- The next header is read unless the counter is zero, and then in the image.
      have hnext : off + ((header s.ram (imageAddr off)).filelen.toNat + 0x24) ≤ total := by
        by_contra hover
        have hrem : allLenAt total off - ((header s.ram (imageAddr off)).filelen + 0x24) ≠ 0 := by
          intro hzero
          have hnat := congrArg UInt32.toNat hzero
          have hconst : (0x24 : UInt32).toNat = 0x24 := rfl
          have hzero' : (0 : UInt32).toNat = 0 := rfl
          unfold allLenAt at hnat
          rw [UInt32.toNat_sub, UInt32.toNat_add, UInt32.toNat_ofNat', hconst, hzero'] at hnat
          omega
        have hread := hsafe.reads _ (header_writeAllLoop hrem hrest)
        rw [ofNat_add_section] at hread
        have hlt := (Uboot.inside_iff (by omega) (by decide)).mp hread
        omega
      rw [allLenAt_sub _ hnext htotal, ofNat_add_section] at hrest
      have hih := ih hnext hrest (by rw [hwritten.sections, sectionsSize_cons]; omega)
      rw [hwritten.ram, hwritten.dtbAddr, hwritten.flashWrites, if_neg hboth.1] at hih
      exact .next hfits hend hboth.1 hboth.2 hih

/-- **`_do_write_all_` stays in the image exactly when the sections fit.**  The image has its
prefix of 0x100 bytes, and from there each section lies in what is left of it, up to its end
or to a section whose write fails. -/
theorem withinBounds_iff (c : UpdateConfig V) (o : Outcomes) (ram : Memory)
    (env saved : Environment V) (dtbLen allLen : UInt32) :
    WithinBounds c o (.start ram env saved dtbLen) allLen ↔
      0x100 ≤ allLen.toNat ∧ FitsImage o (c.dtbAddr env) allLen.toNat ram 0x100 0 := by
  have htotal := allLen.toNat_lt
  have hstart (h : 0x100 ≤ allLen.toNat) : allLen - 0x100 = allLenAt allLen.toNat 0x100 := by
    refine UInt32.toNat_inj.mp ?_
    have hconst : (0x100 : UInt32).toNat = 0x100 := rfl
    unfold allLenAt
    rw [UInt32.toNat_sub, UInt32.toNat_ofNat', hconst]
    omega
  constructor
  · rintro ⟨fuel, r, hrun, hsafe⟩
    unfold doWriteAll at hrun
    have hlen : 0x100 ≤ allLen.toNat := by
      by_contra hshort
      have hrem : allLen - 0x100 ≠ 0 := by
        intro hzero
        have hnat := congrArg UInt32.toNat hzero
        have hconst : (0x100 : UInt32).toNat = 0x100 := rfl
        have hzero' : (0 : UInt32).toNat = 0 := rfl
        rw [UInt32.toNat_sub, hconst, hzero'] at hnat
        omega
      have hread := hsafe.reads _ (header_writeAllLoop hrem hrun)
      have hroom : room allLen.toNat ≤ allLen.toNat := Nat.min_le_left _ _
      have hlt := (inside_iff (by decide : 0x100 < 2 ^ 32) (by decide)).mp hread
      omega
    rw [hstart hlen] at hrun
    exact ⟨hlen, fitsImage_of_loop htotal hlen hrun hsafe rfl⟩
  · rintro ⟨hlen, hfits⟩
    obtain ⟨fuel, r, hloop, hsafe⟩ :=
      hfits.loop (c := c) (s := .start ram env saved dtbLen) htotal rfl rfl rfl
        nofun rfl
    refine ⟨fuel, r, ?_, hsafe⟩
    unfold doWriteAll
    rw [hstart hlen]
    exact hloop

theorem payload_writeAllLoop {r : Int × UpdateState V} (haddr : sysLoadAddr + ramOffset = addr)
    (hrem : rem ≠ 0) (h : writeAllLoop c o fuel rem ramOffset s = some r)
    (hend : (header s.ram addr).magicNum ≠ magicFileEnd)
    (hlen : (header s.ram addr).filelen ≠ 0) :
    ⟨addr + 0x20, (header s.ram addr).filelen.toNat⟩ ∈ r.2.accesses := by
  have hafter : ⟨addr + 0x20, (header s.ram addr).filelen.toNat⟩ ∈
      (afterWrite o (writeAllDtb c o) s addr).accesses := by
    rw [(written_afterWrite frames_writeAllDtb).accesses, if_neg hlen]
    exact List.mem_append_left _ (List.mem_append_left _ List.mem_cons_self)
  obtain ⟨fuel', -, hcases⟩ := writeAllLoop_cases haddr hrem h
  rcases hcases with ⟨heof, -⟩ | ⟨-, -, rfl⟩ | ⟨-, -, hrest⟩
  · exact absurd heof hend
  · exact hafter
  · exact accesses_writeAllLoop hrest _ hafter

/-- A kernel header for 0x10 bytes, with four bytes after it. -/
def longSection : List UInt8 :=
  [0x6c, 0x69, 0x6e, 0x78] ++ List.replicate 24 0 ++ [0, 0, 0, 0x10] ++ [1, 2, 3, 4]

/-- An image of 0x124 bytes with `longSection` after its prefix. -/
def longImage : Memory := ofBytes (imageAddr 0x100) longSection

/-- **The hole.**  For the section in `longImage`, which is longer than what is left of the image,
`_do_write_all_` reads past the end. -/
theorem not_withinBounds_longImage :
    ¬ WithinBounds hexConfig ⟨fun _ => 0, true⟩
      (.start longImage (fun _ => none) (fun _ => none) 0) 0x124 := by
  rintro ⟨fuel, r, hrun, hsafe⟩
  have hread := payload_writeAllLoop (by decide : sysLoadAddr + 0x100 = imageAddr 0x100) (by decide)
    hrun (by decide) (by decide)
  have hlast : InImage 0x124 (imageAddr 0x120 + UInt32.ofNat 0xf) :=
    hsafe.reads _ hread 0xf (by decide)
  exact absurd hlast.2 (by decide)

end RealtekIpcam.Uboot
