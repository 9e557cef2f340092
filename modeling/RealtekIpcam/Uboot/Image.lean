import RealtekIpcam.Uboot.ImageBounds

/-!
# Packed images

`Section` is a section before it is packed and `pack` the row of sections as it lies in an image.
`writeSections` is what a writer is for, on the list of sections: they are written one after the
other up to a section whose write fails or to the end-of-file section, and the value is what the
writer returns and the sections it tried to write.

A device tree is copied to `dtb_addr` before the walk goes on.  `DtbClear` is that none of these
copies covers a part of the image that is still to be read.  Under it a round of either writer finds
the section that was packed (`header_of_holds`, `payload_of_holds`) and leaves the rest of the
image as it was (`holds_sectionRam`), so that `_do_write_all_` does what `writeSections` says,
`writeAllLoop_pack`.
-/

namespace RealtekIpcam.Uboot

open Ram

/-! ## Sections -/

/-- A section: what the writers use of it, and the words they do not use. -/
structure Section where
  magicNum : UInt32
  partitionSize : UInt32
  flashOffset : UInt32
  payload : List UInt8
  word04 : UInt32
  word08 : UInt32
  word10 : UInt32
  word18 : UInt32
  trailer : UInt32
  deriving DecidableEq

namespace Section

/-- A section in an image: eight big-endian words, the payload and four bytes more. -/
def bytes (sec : Section) : List UInt8 :=
  Words.beBytes sec.magicNum ++ (Words.beBytes sec.word04 ++ (Words.beBytes sec.word08 ++
    (Words.beBytes sec.partitionSize ++ (Words.beBytes sec.word10 ++
    (Words.beBytes sec.flashOffset ++ (Words.beBytes sec.word18 ++
    (Words.beBytes (UInt32.ofNat sec.payload.length) ++
    (sec.payload ++ Words.beBytes sec.trailer))))))))

/-- The header that the writers see. -/
def header (sec : Section) : Header :=
  ⟨sec.magicNum, sec.partitionSize, sec.flashOffset, UInt32.ofNat sec.payload.length⟩

/-- The call of `_do_write_file_` for a section. -/
def call (sec : Section) : FileCall :=
  ⟨sec.flashOffset, sec.payload, UInt32.ofNat sec.payload.length, sec.partitionSize, sec.magicNum⟩

/-- The writes handed to the flash driver for a section: none when it is empty. -/
def flashWrites (sec : Section) : List FlashWrite :=
  if sec.payload = [] then []
  else [⟨sec.flashOffset, UInt32.ofNat sec.payload.length, sec.payload,
    if sec.partitionSize = 0 then UInt32.ofNat sec.payload.length else sec.partitionSize⟩]

/-- The section ends the image. -/
def isEnd (sec : Section) : Bool := sec.magicNum = magicFileEnd

/-- The section is a device tree. -/
def isDtb (sec : Section) : Bool := sec.magicNum = magicDtb

theorem length_bytes (sec : Section) : sec.bytes.length = sec.payload.length + 0x24 := by
  unfold bytes
  simp only [List.length_append, Words.length_beBytes]
  omega

end Section

/-- A row of sections. -/
def pack (secs : List Section) : List UInt8 := secs.flatMap Section.bytes

theorem pack_cons (sec : Section) (secs : List Section) :
    pack (sec :: secs) = sec.bytes ++ pack secs := rfl

theorem length_pack_cons (sec : Section) (secs : List Section) :
    (pack (sec :: secs)).length = sec.payload.length + 0x24 + (pack secs).length := by
  rw [pack_cons, List.length_append, sec.length_bytes]

/-- What a writer does with a list of sections: what it returns, and the sections it tries to write.
Writes to the flash are counted by `n`. -/
def writeSections (o : Outcomes) : List Section → Nat → Int × List Section
  | [], _ => (0, [])
  | sec :: secs, n =>
    if sec.isEnd then (0, [])
    else if sec.payload = [] then (cmdRetFailure, [sec])
    else if o.flashWrite n ≠ 0 then (o.flashWrite n, [sec])
    else
      let r := writeSections o secs (n + 1)
      (r.1, sec :: r.2)

/-- No copy of a device tree to `dst` covers the image from its own payload on. -/
def DtbClear (dst : UInt32) : UInt32 → List Section → Prop
  | _, [] => True
  | addr, sec :: secs =>
    (sec.isDtb → ∀ j < (pack (sec :: secs)).length, 0x20 ≤ j →
      sec.payload.length ≤ (addr + UInt32.ofNat j - dst).toNat) ∧
    DtbClear dst (addr + UInt32.ofNat (sec.payload.length + 0x24)) secs

instance decidableDtbClear (dst : UInt32) : ∀ addr secs, Decidable (DtbClear dst addr secs)
  | _, [] => isTrue trivial
  | addr, sec :: secs =>
    have := decidableDtbClear dst (addr + UInt32.ofNat (sec.payload.length + 0x24)) secs
    inferInstanceAs (Decidable ((sec.isDtb → ∀ j < (pack (sec :: secs)).length, 0x20 ≤ j →
      sec.payload.length ≤ (addr + UInt32.ofNat j - dst).toNat) ∧
      DtbClear dst (addr + UInt32.ofNat (sec.payload.length + 0x24)) secs))

/-! ## A packed section in memory -/

variable {V : Type*} {c : UpdateConfig V} {o : Outcomes} {s : UpdateState V} {ram : Memory}
  {addr dst : UInt32} {sec : Section} {secs : List Section}

theorem add_ofNat_ofNat (a : UInt32) (m n : Nat) :
    a + UInt32.ofNat m + UInt32.ofNat n = a + UInt32.ofNat (m + n) := by
  rw [UInt32.add_assoc, ← UInt32.ofNat_add]

theorem filelen_toNat (hlen : sec.payload.length < 2 ^ 32) :
    sec.header.filelen.toNat = sec.payload.length := by
  show (UInt32.ofNat sec.payload.length).toNat = _
  rw [UInt32.toNat_ofNat', Nat.mod_eq_of_lt hlen]

theorem header_of_holds (h : Holds ram addr sec.bytes) : header ram addr = sec.header := by
  unfold Section.bytes at h
  simp only [holds_append, Words.length_beBytes, add_ofNat_ofNat] at h
  obtain ⟨hmagic, -, -, hpartition, -, hoffset, -, hlen, -⟩ := h
  unfold header getmem Section.header
  rw [hmagic.htonl_word]
  rw [show addr + 0x0c = addr + UInt32.ofNat (4 + (4 + 4)) from rfl,
    show addr + 0x14 = addr + UInt32.ofNat (4 + (4 + (4 + (4 + 4)))) from rfl,
    show addr + 0x1c = addr + UInt32.ofNat (4 + (4 + (4 + (4 + (4 + (4 + 4)))))) from rfl]
  rw [hpartition.htonl_word, hoffset.htonl_word, hlen.htonl_word]

theorem payload_of_holds (h : Holds ram addr sec.bytes) :
    Holds ram (addr + 0x20) sec.payload := by
  unfold Section.bytes at h
  simp only [holds_append, Words.length_beBytes, add_ofNat_ofNat] at h
  obtain ⟨-, -, -, -, -, -, -, -, hpayload, -⟩ := h
  exact hpayload

theorem holds_head (h : Holds ram addr (pack (sec :: secs))) : Holds ram addr sec.bytes :=
  (holds_append.mp h).1

theorem holds_sectionRam (h : Holds ram addr (pack (sec :: secs)))
    (hlen : sec.payload.length < 2 ^ 32) (hclear : DtbClear dst addr (sec :: secs)) :
    Holds (sectionRam dst ram addr) (addr + 0x20) sec.payload ∧
      Holds (sectionRam dst ram addr) (addr + UInt32.ofNat (sec.payload.length + 0x24))
        (pack secs) := by
  have hsize := length_pack_cons sec secs
  have hpayload := payload_of_holds (holds_head h)
  have hrest : Holds ram (addr + UInt32.ofNat (sec.payload.length + 0x24)) (pack secs) := by
    rw [← sec.length_bytes]
    exact (holds_append.mp h).2
  unfold sectionRam
  rw [header_of_holds (holds_head h)]
  by_cases hmagic : sec.header.magicNum = magicDtb
  · rw [if_pos hmagic]
    have hclear := hclear.1 (decide_eq_true hmagic)
    rw [filelen_toNat hlen]
    refine ⟨hpayload.copy fun i hi => ?_, hrest.copy fun i hi => ?_⟩
    · rw [show addr + 0x20 + UInt32.ofNat i = addr + UInt32.ofNat (0x20 + i) from
        add_ofNat_ofNat addr 0x20 i]
      exact hclear _ (by omega) (by omega)
    · rw [add_ofNat_ofNat]
      exact hclear _ (by omega) (by omega)
  · rw [if_neg hmagic]
    exact ⟨hpayload, hrest⟩

/-! ## A writer on packed sections -/

/-- From `s` to `t` a writer tried to write the given sections; `lenStep` is what it does with
`dtb_len` for each. -/
structure Wrote (c : UpdateConfig V) (lenStep : Option V → Header → Option V)
    (s t : UpdateState V) (secs : List Section) : Prop where
  calls : t.calls = (secs.map Section.call).reverse ++ s.calls
  flashWrites : t.flashWrites = (secs.flatMap Section.flashWrites).reverse ++ s.flashWrites
  dtbOffset : t.env .dtbOffset =
    (secs.map Section.header).foldl (dtbOffsetStep c) (s.env .dtbOffset)
  dtbLen : t.env .dtbLen = (secs.map Section.header).foldl lenStep (s.env .dtbLen)

variable {lenStep : Option V → Header → Option V} {t u : UpdateState V}

theorem Wrote.trans {secs secs' : List Section} (h : Wrote c lenStep s t secs)
    (h' : Wrote c lenStep t u secs') : Wrote c lenStep s u (secs ++ secs') where
  calls := by
    rw [h'.calls, h.calls, List.map_append, List.reverse_append, List.append_assoc]
  flashWrites := by
    rw [h'.flashWrites, h.flashWrites, List.flatMap_append, List.reverse_append, List.append_assoc]
  dtbOffset := by rw [h'.dtbOffset, h.dtbOffset, List.map_append, List.foldl_append]
  dtbLen := by rw [h'.dtbLen, h.dtbLen, List.map_append, List.foldl_append]

theorem filelen_eq_zero (hlen : sec.payload.length < 2 ^ 32) :
    sec.header.filelen = 0 ↔ sec.payload = [] := by
  rw [← List.length_eq_zero_iff, ← filelen_toNat hlen]
  exact UInt32.toNat_inj.symm

theorem isEnd_iff : sec.isEnd = true ↔ sec.header.magicNum = magicFileEnd := decide_eq_true_iff

theorem wrote_afterWrite {dtb : UpdateState V → Header → UInt32 → UpdateState V}
    (hframe : Frames c dtb) (henv : DtbEnv c dtb lenStep)
    (h : Holds s.ram addr (pack (sec :: secs))) (hlen : sec.payload.length < 2 ^ 32)
    (hclear : DtbClear (c.dtbAddr s.env) addr (sec :: secs)) :
    Wrote c lenStep s (afterWrite o dtb s addr) [sec] ∧
      Holds (afterWrite o dtb s addr).ram (addr + UInt32.ofNat (sec.payload.length + 0x24))
        (pack secs) ∧
      DtbClear (c.dtbAddr (afterWrite o dtb s addr).env)
        (addr + UInt32.ofNat (sec.payload.length + 0x24)) secs := by
  have hheader := header_of_holds (holds_head h)
  have hwritten : Written c s (afterWrite o dtb s addr) addr := written_afterWrite hframe
  obtain ⟨hpayload, hrest⟩ := holds_sectionRam h hlen hclear
  rw [← hwritten.ram] at hpayload hrest
  have hfilelen := filelen_toNat hlen
  have hdata : readBytes (afterWrite o dtb s addr).ram (addr + 0x20)
      (header s.ram addr).filelen.toNat = sec.payload := by
    rw [hheader, hfilelen]
    exact hpayload
  obtain ⟨hoffset, hdtbLen⟩ := env_afterWrite henv o s addr
  rw [hheader] at hoffset hdtbLen
  refine ⟨⟨?_, ?_, hoffset, hdtbLen⟩, hrest, ?_⟩
  · rw [hwritten.calls, hdata, hheader]
    rfl
  · rw [hwritten.flashWrites, hdata, hheader, List.flatMap_singleton]
    unfold Section.flashWrites
    by_cases hempty : sec.payload = []
    · rw [if_pos hempty, if_pos ((filelen_eq_zero hlen).mpr hempty)]
      rfl
    · rw [if_neg hempty, if_neg fun h => hempty ((filelen_eq_zero hlen).mp h)]
      rfl
  · rw [hwritten.dtbAddr]
    exact hclear.2

/-- A round on a packed section does what `writeSections` does with it: either the writer returns,
or the section was written and the rest of the image is next. -/
theorem sectionRound_pack {dtb : UpdateState V → Header → UInt32 → UpdateState V}
    (hframe : Frames c dtb) (henv : DtbEnv c dtb lenStep)
    (h : Holds s.ram addr (pack (sec :: secs))) (hlen : sec.payload.length < 2 ^ 32)
    (hclear : DtbClear (c.dtbAddr s.env) addr (sec :: secs)) :
    (∃ ret tried t, sectionRound o s dtb addr = (some ret, sec.header.filelen, t) ∧
      writeSections o (sec :: secs) s.flashWrites.length = (ret, tried) ∧
      Wrote c lenStep s t tried) ∨
    (sec.isEnd = false ∧ ∃ t, sectionRound o s dtb addr = (none, sec.header.filelen, t) ∧
      writeSections o (sec :: secs) s.flashWrites.length =
        ((writeSections o secs t.flashWrites.length).1,
          sec :: (writeSections o secs t.flashWrites.length).2) ∧
      Wrote c lenStep s t [sec] ∧
      Holds t.ram (addr + UInt32.ofNat (sec.payload.length + 0x24)) (pack secs) ∧
      DtbClear (c.dtbAddr t.env) (addr + UInt32.ofNat (sec.payload.length + 0x24)) secs) := by
  have hheader := header_of_holds (holds_head h)
  by_cases hend : sec.isEnd = true
  · refine .inl ⟨0, [], readHeader s addr, ?_, if_pos hend, rfl, rfl, rfl, rfl⟩
    rw [sectionRound_end (hheader ▸ isEnd_iff.mp hend), hheader]
  have hmagic : (header s.ram addr).magicNum ≠ magicFileEnd :=
    fun h => hend (isEnd_iff.mpr (hheader ▸ h))
  obtain ⟨hwrote, hrest, hclear'⟩ := wrote_afterWrite (o := o) hframe henv h hlen hclear
  by_cases hempty : sec.payload = []
  · have hret : writeRet o s (header s.ram addr) = cmdRetFailure := by
      rw [hheader]
      exact if_pos ((filelen_eq_zero hlen).mpr hempty)
    refine .inl ⟨cmdRetFailure, [sec], _, ?_, (if_neg hend).trans (if_pos hempty), hwrote⟩
    rw [sectionRound_fails hframe hmagic (by rw [hret]; decide), hret, hheader]
  have hret : writeRet o s (header s.ram addr) = o.flashWrite s.flashWrites.length := by
    rw [hheader]
    exact if_neg fun h => hempty ((filelen_eq_zero hlen).mp h)
  by_cases hok : o.flashWrite s.flashWrites.length = 0
  · have hcount : (afterWrite o dtb s addr).flashWrites.length = s.flashWrites.length + 1 := by
      rw [hwrote.flashWrites, List.flatMap_singleton, Section.flashWrites, if_neg hempty]
      rfl
    refine .inr ⟨Bool.eq_false_iff.mpr hend, _, ?_, ?_, hwrote, hrest, hclear'⟩
    · rw [sectionRound_next hframe hmagic (hret.trans hok), hheader]
    · rw [hcount]
      exact (if_neg hend).trans ((if_neg hempty).trans (if_neg (not_not.mpr hok)))
  · refine .inl ⟨o.flashWrite s.flashWrites.length, [sec], _, ?_,
      (if_neg hend).trans ((if_neg hempty).trans (if_pos hok)), hwrote⟩
    rw [sectionRound_fails hframe hmagic (fun h => hok (hret ▸ h)), hret, hheader]

/-- **`_do_write_all_` does what `writeSections` says.**  The induction is over the sections: each
round takes one of them off the packed image. -/
theorem writeAllLoop_pack {secs : List Section} {total off fuel : Nat}
    (hholds : Holds s.ram (imageAddr off) (pack secs)) (hsize : off + (pack secs).length = total)
    (htotal : total < 2 ^ 32) (hclear : DtbClear (c.dtbAddr s.env) (imageAddr off) secs)
    (hfuel : secs.length < fuel) :
    ∃ t, writeAllLoop c o fuel (allLenAt total off) (UInt32.ofNat off) s =
        some ((writeSections o secs s.flashWrites.length).1, t) ∧
      Wrote c (dtbLenStep c) s t (writeSections o secs s.flashWrites.length).2 := by
  induction secs generalizing s off fuel with
  | nil =>
    obtain ⟨fuel, rfl⟩ := Nat.exists_eq_add_of_lt hfuel
    refine ⟨s, ?_, rfl, rfl, rfl, rfl⟩
    obtain rfl : off = total := hsize
    exact if_pos (allLenAt_self off)
  | cons sec secs ih =>
    rw [length_pack_cons] at hsize
    have hlen : sec.payload.length < 2 ^ 32 := by omega
    cases fuel with
    | zero => cases hfuel
    | succ fuel =>
      rw [writeAllLoop_succ (allLenAt_ne_zero htotal (by omega)),
        show sysLoadAddr + UInt32.ofNat off = imageAddr off from rfl]
      rcases
        sectionRound_pack (o := o) frames_writeAllDtb dtbEnv_writeAllDtb hholds hlen hclear with
        ⟨ret, tried, t, hround, hspec, hwrote⟩ | ⟨-, t, hround, hspec, hwrote, hrest, hclear'⟩
      · rw [hround, hspec]
        exact ⟨t, rfl, hwrote⟩
      · rw [show imageAddr off + UInt32.ofNat (sec.payload.length + 0x24) =
          imageAddr (off + (sec.payload.length + 0x24)) from imageAddr_add off _] at hrest hclear'
        obtain ⟨u, hrun, hu⟩ := ih hrest (by omega) hclear' (Nat.lt_of_succ_lt_succ hfuel)
        rw [hround, hspec]
        dsimp only
        have hfilelen := filelen_toNat hlen
        rw [allLenAt_sub _ (by omega) htotal, ofNat_add_section, hfilelen]
        exact ⟨u, hrun, hwrote.trans hu⟩

/-- The image that `_do_write_all_` takes: a prefix of 0x100 bytes and the sections. -/
def packImage (lead : List UInt8) (secs : List Section) : List UInt8 := lead ++ pack secs

theorem doWriteAll_pack {ram : Memory} {env : Environment V} (o : Outcomes)
    (saved : Environment V) (dtbLen : UInt32) {lead : List UInt8} {secs : List Section}
    {fuel : Nat} (hlead : lead.length = 0x100) (hsize : (packImage lead secs).length < 2 ^ 32)
    (hholds : Holds ram sysLoadAddr (packImage lead secs))
    (hclear : DtbClear (c.dtbAddr env) (imageAddr 0x100) secs) (hfuel : secs.length < fuel) :
    ∃ t, doWriteAll c o (.start ram env saved dtbLen) fuel
        (UInt32.ofNat (packImage lead secs).length) = some ((writeSections o secs 0).1, t) ∧
      Wrote c (dtbLenStep c) (.start ram env saved dtbLen) t (writeSections o secs 0).2 := by
  unfold packImage at hsize hholds ⊢
  rw [List.length_append, hlead] at hsize
  have hsecs := (holds_append.mp hholds).2
  rw [hlead] at hsecs
  have hstart : UInt32.ofNat (lead ++ pack secs).length - 0x100 =
      allLenAt (0x100 + (pack secs).length) 0x100 := by
    refine UInt32.toNat_inj.mp ?_
    have hconst : (0x100 : UInt32).toNat = 0x100 := rfl
    unfold allLenAt
    rw [UInt32.toNat_sub, UInt32.toNat_ofNat', UInt32.toNat_ofNat', hconst, List.length_append,
      hlead]
    omega
  unfold doWriteAll
  rw [hstart]
  exact writeAllLoop_pack (s := .start ram env saved dtbLen) hsecs rfl hsize hclear hfuel

/-! ## Round trip -/

theorem writeSections_of_ok (hok : ∀ n, o.flashWrite n = 0) {secs : List Section}
    (hend : ∀ sec ∈ secs.dropLast, sec.isEnd = false) (hne : ∀ sec ∈ secs, sec.payload ≠ [])
    (n : Nat) : writeSections o secs n = (0, secs.filter fun sec => !sec.isEnd) := by
  induction secs generalizing n with
  | nil => rfl
  | cons sec secs ih =>
    unfold writeSections
    by_cases hlast : sec.isEnd = true
    · have hnil : secs = [] := by
        by_contra hsecs
        have hmem : sec ∈ (sec :: secs).dropLast := by
          rw [List.dropLast_cons_of_ne_nil hsecs]
          exact List.mem_cons_self
        rw [hend sec hmem] at hlast
        cases hlast
      rw [if_pos hlast, hnil, List.filter_cons_of_neg (by rw [hlast]; decide), List.filter_nil]
    · have hrest : ∀ sec' ∈ secs.dropLast, sec'.isEnd = false := by
        intro sec' hmem
        refine hend sec' ?_
        rw [List.dropLast_cons_of_ne_nil (by rintro rfl; cases hmem)]
        exact List.mem_cons_of_mem sec hmem
      rw [if_neg hlast, if_neg (hne sec List.mem_cons_self), if_neg (not_not.mpr (hok n)),
        ih hrest (fun sec' hmem => hne sec' (List.mem_cons_of_mem sec hmem)),
        List.filter_cons_of_pos (by rw [Bool.eq_false_iff.mpr hlast]; rfl)]

/-- **Round trip.**  On a packed image of which no device tree's copy covers a part that is still to
be read, `_do_write_all_` calls `_do_write_file_` once for each section, in order, with what was
packed, and returns 0. -/
theorem doWriteAll_roundTrip {ram : Memory} {env saved : Environment V} {dtbLen : UInt32}
    {lead : List UInt8} {secs : List Section} {fuel : Nat} (hlead : lead.length = 0x100)
    (hsize : (packImage lead secs).length < 2 ^ 32) (hne : ∀ sec ∈ secs, sec.payload ≠ [])
    (hend : ∀ sec ∈ secs.dropLast, sec.isEnd = false) (hok : ∀ n, o.flashWrite n = 0)
    (hholds : Holds ram sysLoadAddr (packImage lead secs))
    (hclear : DtbClear (c.dtbAddr env) (imageAddr 0x100) secs) (hfuel : secs.length < fuel) :
    ∃ t, doWriteAll c o (.start ram env saved dtbLen) fuel
        (UInt32.ofNat (packImage lead secs).length) = some (0, t) ∧
      t.calls.reverse = (secs.filter fun sec => !sec.isEnd).map Section.call := by
  obtain ⟨t, hrun, hwrote⟩ :=
    doWriteAll_pack o saved dtbLen hlead hsize hholds hclear hfuel
  rw [writeSections_of_ok hok hend hne] at hrun hwrote
  refine ⟨t, hrun, ?_⟩
  rw [hwrote.calls]
  show (_ ++ []).reverse = _
  rw [List.append_nil, List.reverse_reverse]

/-- A section with the given magic and payload, and zeros for the words that are not used. -/
def plainSection (magicNum flashOffset : UInt32) (payload : List UInt8) : Section :=
  ⟨magicNum, 0x10000, flashOffset, payload, 0, 0, 0, 0, 0⟩

/-- A device tree, a kernel and the end of the image. -/
def smallSections : List Section :=
  [plainSection magicDtb 0x90000 [0xd0, 0x0d, 0xfe, 0xed], plainSection magicKernel 0xa0000 [1, 2],
    plainSection magicFileEnd 0 [0]]

/-- The prefix of an image. -/
def zeroLead : List UInt8 := List.replicate 0x100 0

/-- All flash commands work. -/
def Outcomes.ok : Outcomes := ⟨fun _ => 0, true⟩

theorem doWriteAll_smallSections :
    ∃ t, doWriteAll hexConfig .ok (.start (ofBytes sysLoadAddr (packImage zeroLead smallSections))
        (fun _ => none) (fun _ => none) 0) 4
        (UInt32.ofNat (packImage zeroLead smallSections).length) = some (0, t) ∧
      t.calls.reverse = (smallSections.filter fun sec => !sec.isEnd).map Section.call :=
  doWriteAll_roundTrip List.length_replicate (by decide +kernel) (by decide) (by decide)
    (fun _ => rfl) (holds_ofBytes sysLoadAddr (by decide +kernel)) (by decide +kernel) (by decide)

theorem writeAllLoop_mono {fuel fuel' : Nat} {rem ramOffset : UInt32} {r : Int × UpdateState V}
    (h : writeAllLoop c o fuel rem ramOffset s = some r) (hle : fuel ≤ fuel') :
    writeAllLoop c o fuel' rem ramOffset s = some r := by
  induction fuel generalizing fuel' rem ramOffset s with
  | zero => cases h
  | succ fuel ih =>
    obtain ⟨fuel', rfl⟩ := Nat.exists_eq_add_of_le' hle
    by_cases hrem : rem = 0
    · rw [writeAllLoop, if_pos hrem] at h
      exact (if_pos hrem).trans h
    rw [writeAllLoop_succ hrem] at h
    show writeAllLoop c o (fuel' + fuel + 1) rem ramOffset s = some r
    rw [writeAllLoop_succ hrem]
    cases hround : sectionRound o s (writeAllDtb c o) (sysLoadAddr + ramOffset) with
    | mk returned rest =>
      rw [hround] at h
      cases returned with
      | some ret => exact h
      | none => exact ih h (Nat.le_add_left fuel fuel')

/-- A device tree whose content is the magic that ends an image, and a kernel. -/
def overwritingSections : List Section :=
  [plainSection magicDtb 0x90000 [0x46, 0x45, 0x4f, 0x46],
    plainSection magicKernel 0xa0000 [1, 2]]

/-- An environment in which `dtb_addr` is the address of the second section. -/
def overwritingEnv : Environment (List Nat) := fun name =>
  if name = .dtbAddr then some (hexDigits (imageAddr 0x128)) else none

/-- When `dtb_addr` lies in the image, the copy of the device tree changes sections that are still
to be read: here it puts the end of the image over the kernel section, which is not written. -/
theorem not_roundTrip_overwritingSections :
    zeroLead.length = 0x100 ∧ (packImage zeroLead overwritingSections).length < 2 ^ 32 ∧
      (∀ sec ∈ overwritingSections, sec.payload ≠ []) ∧
      (∀ sec ∈ overwritingSections, sec.isEnd = false) ∧ (∀ n, Outcomes.ok.flashWrite n = 0) ∧
      Holds (ofBytes sysLoadAddr (packImage zeroLead overwritingSections)) sysLoadAddr
        (packImage zeroLead overwritingSections) ∧
      ∀ fuel ret t, doWriteAll hexConfig .ok
        (.start (ofBytes sysLoadAddr (packImage zeroLead overwritingSections)) overwritingEnv
          (fun _ => none) 0) fuel
        (UInt32.ofNat (packImage zeroLead overwritingSections).length) = some (ret, t) →
        t.calls.reverse ≠ overwritingSections.map Section.call := by
  refine ⟨List.length_replicate, by decide +kernel, by decide, by decide, fun _ => rfl,
    holds_ofBytes sysLoadAddr (by decide +kernel), fun fuel ret t hrun hcalls => ?_⟩
  have hcount : (doWriteAll hexConfig .ok
      (.start (ofBytes sysLoadAddr (packImage zeroLead overwritingSections)) overwritingEnv
        (fun _ => none) 0) 3
      (UInt32.ofNat (packImage zeroLead overwritingSections).length)).map
      (fun r => r.2.calls.length) = some 1 := by
    decide +kernel
  obtain ⟨r, hthree, hr⟩ := Option.map_eq_some_iff.mp hcount
  have hsame := (writeAllLoop_mono hthree (Nat.le_max_left 3 fuel)).symm.trans
    (writeAllLoop_mono hrun (Nat.le_max_right 3 fuel))
  rw [Option.some_inj.mp hsame] at hr
  have htwo := congrArg List.length hcalls
  rw [List.length_reverse, hr] at htwo
  exact absurd htwo (by decide)

end RealtekIpcam.Uboot
