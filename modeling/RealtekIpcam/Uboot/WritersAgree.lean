import Mathlib
import RealtekIpcam.Uboot.Image

/-!
# The two writers

`do_write_for_rescure` is a copy of `_do_write_all_` for an image without a prefix and without a
length.  On the same packed sections both do what `writeSections` says, with one difference: for a
device tree only `_do_write_all_` sets `dtb_len`.  `writersAgree_iff` says when that shows, and
`not_writersAgree_overwrittenSections` that a copy over the stream sets the writers apart as well.
-/

namespace RealtekIpcam.Uboot

open Ram

variable {V : Type*} {c : UpdateConfig V} {o : Outcomes} {s : UpdateState V}
  {addr ramOffset : UInt32} {secs : List Section} {fuel fuel' : Nat}

/-! ## `do_write_for_rescure` on packed sections -/

/-- **`do_write_for_rescure` does what `writeSections` says**, as long as there is an end. -/
theorem rescureLoop_pack (haddr : rescueLinuxLoadAddr + ramOffset = addr)
    (hholds : Holds s.ram addr (pack secs)) (hsize : (pack secs).length < 2 ^ 32)
    (hclear : DtbClear (c.dtbAddr s.env) addr secs) (hend : ∃ sec ∈ secs, sec.isEnd = true)
    (hfuel : secs.length < fuel) :
    ∃ t, rescureLoop c o fuel ramOffset s =
        some ((writeSections o secs s.flashWrites.length).1, t) ∧
      Wrote c (fun value _ => value) s t (writeSections o secs s.flashWrites.length).2 := by
  induction secs generalizing s addr ramOffset fuel with
  | nil =>
    obtain ⟨sec, hmem, -⟩ := hend
    cases hmem
  | cons sec secs ih =>
    rw [length_pack_cons] at hsize
    have hlen : sec.payload.length < 2 ^ 32 := by omega
    cases fuel with
    | zero => cases hfuel
    | succ fuel =>
      unfold rescureLoop
      rw [haddr]
      rcases sectionRound_pack (o := o) frames_rescureDtb dtbEnv_rescureDtb hholds hlen hclear with
        ⟨ret, tried, t, hround, hspec, hwrote⟩ | ⟨hlast, t, hround, hspec, hwrote, hrest, hclear'⟩
      · rw [hround, hspec]
        exact ⟨t, rfl, hwrote⟩
      · have hnext : rescueLinuxLoadAddr + (ramOffset + (sec.header.filelen + 0x24)) =
            addr + UInt32.ofNat (sec.payload.length + 0x24) := by
          rw [← haddr, UInt32.ofNat_add, UInt32.add_assoc]
          rfl
        have hend' : ∃ sec ∈ secs, sec.isEnd = true := by
          obtain ⟨sec', hmem, hsec'⟩ := hend
          rcases List.mem_cons.mp hmem with rfl | hmem
          · rw [hlast] at hsec'
            cases hsec'
          · exact ⟨sec', hmem, hsec'⟩
        obtain ⟨u, hrun, hu⟩ := ih hnext hrest (by omega) hclear' hend'
          (Nat.lt_of_succ_lt_succ hfuel)
        rw [hround, hspec]
        exact ⟨u, hrun, hwrote.trans hu⟩

theorem rescureLoop_mono {r : Int × UpdateState V} (h : rescureLoop c o fuel ramOffset s = some r)
    (hle : fuel ≤ fuel') : rescureLoop c o fuel' ramOffset s = some r := by
  induction fuel generalizing fuel' ramOffset s with
  | zero => cases h
  | succ fuel ih =>
    obtain ⟨fuel', rfl⟩ := Nat.exists_eq_add_of_le' hle
    unfold rescureLoop at h
    show rescureLoop c o (fuel' + fuel + 1) ramOffset s = some r
    unfold rescureLoop
    cases hround : sectionRound o s (rescureDtb c o) (rescueLinuxLoadAddr + ramOffset) with
    | mk returned rest =>
      rw [hround] at h
      cases returned with
      | some ret => exact h
      | none => exact ih h (Nat.le_add_left fuel fuel')

/-! ## The comparison -/

/-- Both writers return the same, have made the same flash writes and leave the same values of the
variables for the device tree. -/
structure WritersAgree (r r' : Int × UpdateState V) : Prop where
  ret : r.1 = r'.1
  flashWrites : r.2.flashWrites = r'.2.flashWrites
  dtbOffset : r.2.env .dtbOffset = r'.2.env .dtbOffset
  dtbLen : r.2.env .dtbLen = r'.2.env .dtbLen

theorem isDtb_iff {sec : Section} : sec.isDtb = true ↔ sec.header.magicNum = magicDtb :=
  decide_eq_true_iff

theorem foldl_dtbLenStep (value : Option V) (secs : List Section) :
    (secs.map Section.header).foldl (dtbLenStep c) value =
    match (secs.filter Section.isDtb).getLast? with
      | some sec => some (c.toHex (UInt32.ofNat sec.payload.length))
      | none => value := by
  induction secs using List.reverseRecOn with
  | nil => rfl
  | append_singleton secs sec ih =>
    rw [List.map_append, List.foldl_append, List.filter_append]
    show dtbLenStep c ((secs.map Section.header).foldl (dtbLenStep c) value) sec.header = _
    unfold dtbLenStep
    by_cases hdtb : sec.isDtb = true
    · rw [if_pos (isDtb_iff.mp hdtb), List.filter_cons_of_pos hdtb, List.filter_nil,
        List.getLast?_concat]
      rfl
    · rw [if_neg fun h => hdtb (isDtb_iff.mpr h), List.filter_cons_of_neg hdtb, List.filter_nil,
        List.append_nil]
      exact ih

theorem Wrote.agree {lenStep lenStep' : Option V → Header → Option V} {s s' t t' : UpdateState V}
    {tried : List Section} {ret : Int} (h : Wrote c lenStep s t tried)
    (h' : Wrote c lenStep' s' t' tried) (hwrites : s.flashWrites = s'.flashWrites)
    (henv : s.env = s'.env) :
    WritersAgree (ret, t) (ret, t') ↔ t.env .dtbLen = t'.env .dtbLen := by
  refine ⟨WritersAgree.dtbLen, fun hlen => ⟨rfl, ?_, ?_, hlen⟩⟩
  · rw [h.flashWrites, h'.flashWrites, hwrites]
  · show t.env .dtbOffset = t'.env .dtbOffset
    rw [h.dtbOffset, h'.dtbOffset, henv]

/-- From the same environment both writers come to an end, and agree. -/
def RunsAgree (c : UpdateConfig V) (o : Outcomes) (env saved : Environment V) (dtbLen : UInt32)
    (ram ram' : Memory) (imageLen : Nat) : Prop :=
  ∃ fuel r r', doWriteForRescure c o (.start ram env saved dtbLen) fuel = some r ∧
    doWriteAll c o (.start ram' env saved dtbLen) fuel (UInt32.ofNat imageLen) = some r' ∧
    WritersAgree r r'

/-- The outcome of a run does not depend on the fuel, so one run of each writer decides. -/
theorem WritersAgree.of_runsAgree {env saved : Environment V} {dtbLen : UInt32}
    {ram ram' : Memory} {imageLen : Nat} (h : RunsAgree c o env saved dtbLen ram ram' imageLen)
    {r r' : Int × UpdateState V}
    (hr : doWriteForRescure c o (.start ram env saved dtbLen) fuel = some r)
    (hr' : doWriteAll c o (.start ram' env saved dtbLen) fuel' (UInt32.ofNat imageLen) = some r') :
    WritersAgree r r' := by
  obtain ⟨n, q, q', hq, hq', hagree⟩ := h
  have hsame := (rescureLoop_mono hq (Nat.le_max_left n fuel)).symm.trans
    (rescureLoop_mono hr (Nat.le_max_right n fuel))
  have hsame' := (writeAllLoop_mono hq' (Nat.le_max_left n fuel')).symm.trans
    (writeAllLoop_mono hr' (Nat.le_max_right n fuel'))
  rwa [Option.some_inj.mp hsame, Option.some_inj.mp hsame'] at hagree

/-- At either load address no copy of a device tree to `dtb_addr` covers a part of the sections that
is still to be read. -/
def CopiesApart (c : UpdateConfig V) (env : Environment V) (secs : List Section) : Prop :=
  DtbClear (c.dtbAddr env) rescueLinuxLoadAddr secs ∧
    DtbClear (c.dtbAddr env) (imageAddr 0x100) secs

/-- No device tree is tried, or `dtb_len` is the length of the last one. -/
def LenKnown (c : UpdateConfig V) (o : Outcomes) (env : Environment V) (secs : List Section) :
    Prop :=
  ∀ sec, ((writeSections o secs 0).2.filter Section.isDtb).getLast? = some sec →
    env .dtbLen = some (c.toHex (UInt32.ofNat sec.payload.length))

theorem runsAgree_iff {ram ram' : Memory} {env saved : Environment V} {dtbLen : UInt32}
    {lead : List UInt8} {secs : List Section} (hlead : lead.length = 0x100)
    (hsize : (packImage lead secs).length < 2 ^ 32) (hend : ∃ sec ∈ secs, sec.isEnd = true)
    (hholds : Holds ram rescueLinuxLoadAddr (pack secs))
    (hholds' : Holds ram' sysLoadAddr (packImage lead secs)) (hapart : CopiesApart c env secs) :
    RunsAgree c o env saved dtbLen ram ram' (packImage lead secs).length ↔
      LenKnown c o env secs := by
  have hlen : (pack secs).length < 2 ^ 32 := by
    unfold packImage at hsize
    rw [List.length_append] at hsize
    omega
  obtain ⟨t, hrun, hwrote⟩ := rescureLoop_pack (c := c) (o := o)
    (s := .start ram env saved dtbLen) (UInt32.add_zero rescueLinuxLoadAddr) hholds hlen hapart.1
    hend (Nat.lt_succ_self secs.length)
  obtain ⟨t', hrun', hwrote'⟩ := doWriteAll_pack o saved dtbLen hlead hsize hholds' hapart.2
    (Nat.lt_succ_self secs.length)
  have hagree (ret : Int) : WritersAgree (ret, t) (ret, t') ↔ LenKnown c o env secs := by
    rw [hwrote.agree hwrote' rfl rfl, hwrote.dtbLen, hwrote'.dtbLen, foldl_dtbLenStep]
    have hsame (tried : List Header) (value : Option V) :
        tried.foldl (fun value _ => value) value = value := List.foldl_fixed tried
    rw [hsame]
    unfold LenKnown
    show env .dtbLen = (match ((writeSections o secs 0).2.filter Section.isDtb).getLast? with
      | some sec => some (c.toHex (UInt32.ofNat sec.payload.length))
      | none => env .dtbLen) ↔ _
    cases ((writeSections o secs 0).2.filter Section.isDtb).getLast? with
    | none => exact iff_of_true rfl nofun
    | some sec => exact ⟨fun h sec' hsec => Option.some_inj.mp hsec ▸ h, fun h => h sec rfl⟩
  constructor
  · exact fun h => (hagree _).mp (.of_runsAgree h hrun hrun')
  · intro h
    exact ⟨secs.length + 1, _, _, hrun, hrun', (hagree _).mpr h⟩

/-- `smallSections` as the rescue boot has it in memory. -/
def smallStream : Memory := ofBytes rescueLinuxLoadAddr (pack smallSections)

/-- `smallSections` as an update has it in memory. -/
def smallImage : Memory := ofBytes sysLoadAddr (packImage zeroLead smallSections)

/-- An environment with the length of the device tree in `smallSections`. -/
def knownLenEnv : Environment (List Nat) := fun name =>
  if name = .dtbLen then some (hexDigits 4) else none

/-- `overwritingSections` and the end of the image. -/
def overwrittenSections : List Section := overwritingSections ++ [plainSection magicFileEnd 0 [0]]

/-- `overwritingEnv` with the length of its device tree. -/
def overwritingLenEnv : Environment (List Nat) := fun name =>
  if name = .dtbLen then some (hexDigits 4) else overwritingEnv name

/-- Where a copy covers sections still to be read, `dtb_len` is not enough: `_do_write_all_` finds
the end of the image over the kernel section, and `do_write_for_rescure` writes the kernel. -/
theorem not_writersAgree_overwrittenSections :
    LenKnown hexConfig .ok overwritingLenEnv overwrittenSections ∧
      ¬ RunsAgree hexConfig .ok overwritingLenEnv (fun _ => none) 0
        (ofBytes rescueLinuxLoadAddr (pack overwrittenSections))
        (ofBytes sysLoadAddr (packImage zeroLead overwrittenSections))
        (packImage zeroLead overwrittenSections).length := by
  constructor
  · intro sec hsec
    have hlast : ((writeSections .ok overwrittenSections 0).2.filter Section.isDtb).getLast? =
        some (plainSection magicDtb 0x90000 [0x46, 0x45, 0x4f, 0x46]) := by
      decide +kernel
    rw [hlast] at hsec
    cases hsec
    rfl
  intro h
  have hrescure : (doWriteForRescure hexConfig .ok
      (.start (ofBytes rescueLinuxLoadAddr (pack overwrittenSections)) overwritingLenEnv
        (fun _ => none) 0) 4).map (fun r => r.2.flashWrites.length) = some 2 := by
    decide +kernel
  have hall : (doWriteAll hexConfig .ok
      (.start (ofBytes sysLoadAddr (packImage zeroLead overwrittenSections)) overwritingLenEnv
        (fun _ => none) 0) 4 (UInt32.ofNat (packImage zeroLead overwrittenSections).length)).map
      (fun r => r.2.flashWrites.length) = some 1 := by
    decide +kernel
  obtain ⟨u, hu, htwo⟩ := Option.map_eq_some_iff.mp hrescure
  obtain ⟨u', hu', hone⟩ := Option.map_eq_some_iff.mp hall
  rw [(WritersAgree.of_runsAgree h hu hu').flashWrites, hone] at htwo
  cases htwo

end RealtekIpcam.Uboot
