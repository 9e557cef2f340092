import RealtekIpcam.Lib.Words
import RealtekIpcam.Rtc.Model

/-!
# The range of the hardware, moved

A clock with a short range can start at another time: the core adds an offset to what it reads
and subtracts it from what it sets.  Where the two ranges overlap, a time is left as it is, and
only the rest is moved, by the length of the range and not by the distance of the starts.

`rtc_device_get_offset` picks the offset from where the start is.  Its first comparison, of the
start with `range_max`, is an unsigned one, so a start before 1970 counts as one behind the
range, even when the two overlap.  The two conversions then disagree on what the overlap is.

`lib.c` converts between dates and seconds from 1970 on.  A moved time can be one of the hardware
before that, and then it comes back only if `lib.c` converts it all the same.
-/

namespace RealtekIpcam.Rtc

open Words

variable {Tm : Type}

/-! ## The source -/

/-- `rtc_device_get_offset`, with the `start-year` of the device tree, if there is one. -/
def RtcEnv.rtcDeviceGetOffset (env : RtcEnv Tm) (mktime64 : UInt32 → Time64)
    (startYear : Option UInt32) : RtcEnv Tm :=
  if env.rangeMin.toUInt64 = env.rangeMax then env
  else
    let env :=
      match startYear with
      | some year => { env with startSecs := mktime64 year, setStartTime := true }
      | none => env
    if !env.setStartTime then env
    else
      let rangeSecs := (env.rangeMax - env.rangeMin.toUInt64 + 1).toInt64
      -- `range_max` is unsigned, and so is the comparison with it.
      if env.startSecs.toUInt64 > env.rangeMax ∨ env.startSecs + rangeSecs - 1 < env.rangeMin then
        { env with offsetSecs := env.startSecs - env.rangeMin }
      else if env.startSecs > env.rangeMin then { env with offsetSecs := rangeSecs }
      else if env.startSecs < env.rangeMin then { env with offsetSecs := -rangeSecs }
      else { env with offsetSecs := 0 }

/-- The start of the range, if there is another one than that of the hardware. -/
def RtcEnv.startTime (env : RtcEnv Tm) (mktime64 : UInt32 → Time64)
    (startYear : Option UInt32) : Option Time64 :=
  match startYear with
  | some year => some (mktime64 year)
  | none => if env.setStartTime then some env.startSecs else none

/-- The time that the hardware is to have for `tm`. -/
def RtcEnv.hardwareTime (env : RtcEnv Tm) (tm : Tm) : Time64 :=
  let secs := env.tmToTime64 tm
  if env.offsetSecs = 0 ∨ secs ≥ env.rangeMin ∧ secs.toUInt64 ≤ env.rangeMax then secs
  else secs - env.offsetSecs

/-- The two conversions of `lib.c` are inverse at a time. -/
def RtcEnv.Converts (env : RtcEnv Tm) (x : Time64) : Prop := env.tmToTime64 (env.time64ToTm x) = x

/-! ## The ranges, in integers

The hardware has the times from `m` to `M`; the core shows those from `s` on, as many.
-/

section Ranges

variable (s m M : Int)

def offsetOf : Int :=
  if s < 0 ∨ M < s ∨ s + (M - m) < m then s - m
  else if m < s then M - m + 1
  else if s < m then -(M - m + 1)
  else 0

/-- From a time to that of the hardware. -/
def subtractSecs (t : Int) : Int :=
  if offsetOf s m M = 0 ∨ m ≤ t ∧ t ≤ M then t else t - offsetOf s m M

/-- From a time of the hardware back. -/
def addSecs (h : Int) : Int :=
  if offsetOf s m M = 0 ∨ m < s ∧ s ≤ h ∨ s < m ∧ 0 ≤ h ∧ h ≤ s + (M - m) then h
  else h + offsetOf s m M

/-- The times for which the two agree.  With a start before 1970, a time that is not one of the
hardware goes where the core takes it for one that was not moved. -/
def Returns (t : Int) : Prop :=
  0 ≤ s ∨ m ≤ t ∧ t ≤ M ∨ s = m ∨ m < s ∧ t - s + m < s ∨ s < m ∧ s + (M - m) < t - s + m

variable {s m M} {t : Int}

theorem subtractSecs_mem (hlt : m < M) (hM : 0 ≤ M) (hlo : s ≤ t) (hhi : t ≤ s + (M - m)) :
    m ≤ subtractSecs s m M t ∧ subtractSecs s m M t ≤ M := by
  unfold subtractSecs offsetOf
  grind

/-- A time that is moved back is the time at hand. -/
theorem addSecs_subtractSecs_or (ht : 0 ≤ t) (hlo : s ≤ t) (hhi : t ≤ s + (M - m)) :
    addSecs s m M (subtractSecs s m M t) = t ∨
      addSecs s m M (subtractSecs s m M t) = subtractSecs s m M t := by
  unfold addSecs
  split
  · exact Or.inr rfl
  · unfold subtractSecs offsetOf at *
    grind

theorem addSecs_subtractSecs_iff (hlt : m < M) (hM : 0 ≤ M) (ht : 0 ≤ t) (hlo : s ≤ t)
    (hhi : t ≤ s + (M - m)) :
    addSecs s m M (subtractSecs s m M t) = t ↔ Returns s m M t := by
  unfold addSecs subtractSecs offsetOf Returns
  grind

end Ranges

/-! ## The words of the source -/

theorem toInt_upper (s m : Int64) (M : UInt64) :
    (s.toUInt64 + M - m.toUInt64).toInt64.toInt =
      (s.toInt + (M.toNat - m.toInt)).bmod (2 ^ 64) := by
  simp [toInt_signed, Int.sub_eq_add_neg, Int.add_assoc]

theorem toNat_upper (s m : Int64) (M : UInt64) :
    ((s.toUInt64 + M - m.toUInt64).toNat : Int) = (s.toInt + (M.toNat - m.toInt)) % 2 ^ 64 := by
  have h := toNat_unsigned (s.toUInt64 + M - m.toUInt64).toInt64
  rw [toInt_upper] at h
  rw [UInt64.toUInt64_toInt64] at h
  exact h.trans Int.bmod_emod

theorem toInt_rangeSecs (m : Int64) (M : UInt64) :
    (M - m.toUInt64 + 1).toInt64.toInt = (M.toNat - m.toInt + 1).bmod (2 ^ 64) := by
  simp [toInt_signed]

/-- A time from 1970 on that is shown, with the numbers that say so. -/
structure Shown (s m : Int64) (M : UInt64) (t : Int) : Prop where
  lt : m.toInt < M.toNat
  max : M.toNat < 2 ^ 63
  epoch : 0 ≤ t
  start : s.toInt ≤ t
  le : t ≤ s.toInt + (M.toNat - m.toInt)
  fits : s.toInt + (M.toNat - m.toInt) < 2 ^ 63

theorem Shown.of_le {s m : Int64} {M : UInt64} {t : Int} (hlt : m.toInt < M.toNat)
    (hmax : M.toNat < 2 ^ 63) (ht : 0 ≤ t) (hlo : s.toInt ≤ t)
    (hhi : t ≤ (s.toUInt64 + M - m.toUInt64).toInt64.toInt) : Shown s m M t := by
  have hs := s.le_toInt
  have hs' := s.toInt_lt
  have hm := m.le_toInt
  rw [toInt_upper, Int.bmod_def] at hhi
  have hfits : s.toInt + (M.toNat - m.toInt) < 2 ^ 63 ∧ t ≤ s.toInt + (M.toNat - m.toInt) := by
    split at hhi <;> omega
  exact ⟨hlt, hmax, ht, hlo, hfits.2, hfits.1⟩

variable {s m : Int64} {M : UInt64} {t : Int}

theorem Shown.offset (h : Shown s m M t) :
    (if s.toUInt64 > M ∨ s + (M - m.toUInt64 + 1).toInt64 - 1 < m then s - m
      else if s > m then (M - m.toUInt64 + 1).toInt64
      else if s < m then -(M - m.toUInt64 + 1).toInt64
      else 0).toInt = (offsetOf s.toInt m.toInt M.toNat).bmod (2 ^ 64) := by
  obtain ⟨hlt, hmax, ht, hlo, hhi, hfits⟩ := h
  have hs := s.le_toInt
  have hs' := s.toInt_lt
  have hm := m.le_toInt
  have hupper : (s + (M - m.toUInt64 + 1).toInt64 - 1).toInt = s.toInt + (M.toNat - m.toInt) := by
    rw [Int64.toInt_sub, Int64.toInt_add, toInt_rangeSecs, Int.add_bmod_bmod, Int.bmod_sub_bmod,
      show (1 : Int64).toInt = 1 from rfl, ← bmod_of_fits (by omega) hfits]
    congr 1
    omega
  have hunsigned : s.toUInt64 > M ↔ s.toInt < 0 ∨ (M.toNat : Int) < s.toInt := by
    have hnat := toNat_unsigned s
    rw [gt_iff_lt, UInt64.lt_iff_toNat_lt]
    omega
  have hless : s + (M - m.toUInt64 + 1).toInt64 - 1 < m ↔
      s.toInt + (M.toNat - m.toInt) < m.toInt := by
    rw [Int64.lt_iff_toInt_lt, hupper]
  have hsm : s > m ↔ m.toInt < s.toInt := Int64.lt_iff_toInt_lt
  have hms : s < m ↔ s.toInt < m.toInt := Int64.lt_iff_toInt_lt
  simp only [hunsigned, hless, hsm, hms, or_assoc]
  unfold offsetOf
  split
  · exact Int64.toInt_sub s m
  split
  · exact toInt_rangeSecs m M
  split
  · rw [Int64.toInt_neg, toInt_rangeSecs, Int.bmod_neg_bmod]
  · rfl

theorem Shown.offset_eq_zero (h : Shown s m M t) {offset : Int64}
    (hoffset : offset.toInt = (offsetOf s.toInt m.toInt M.toNat).bmod (2 ^ 64)) :
    offset = 0 ↔ offsetOf s.toInt m.toInt M.toNat = 0 := by
  obtain ⟨hlt, hmax, ht, hlo, hhi, hfits⟩ := h
  have hs := s.le_toInt
  have hm := m.le_toInt
  rw [← Int64.toInt_inj, hoffset, show (0 : Int64).toInt = 0 from rfl, Int.bmod_def]
  unfold offsetOf
  split <;> split <;> omega

variable {env : RtcEnv Tm} {tm : Tm}

theorem secs_rtcSubtractOffset
    (h : Shown env.startSecs env.rangeMin env.rangeMax (env.tmToTime64 tm).toInt)
    (hoffset : env.offsetSecs.toInt =
      (offsetOf env.startSecs.toInt env.rangeMin.toInt env.rangeMax.toNat).bmod (2 ^ 64))
    (hconv : env.Converts (env.hardwareTime tm)) :
    (env.tmToTime64 (env.rtcSubtractOffset tm)).toInt =
      subtractSecs env.startSecs.toInt env.rangeMin.toInt env.rangeMax.toNat
        (env.tmToTime64 tm).toInt := by
  have hzero := h.offset_eq_zero hoffset
  have hmem := subtractSecs_mem h.lt (Int.natCast_nonneg _) h.start h.le
  have hmax := h.max
  have hm := env.rangeMin.le_toInt
  have hwithin : env.tmToTime64 tm ≥ env.rangeMin ∧
      (env.tmToTime64 tm).toUInt64 ≤ env.rangeMax ↔
      env.rangeMin.toInt ≤ (env.tmToTime64 tm).toInt ∧
        (env.tmToTime64 tm).toInt ≤ env.rangeMax.toNat := by
    have hnat := toNat_unsigned (env.tmToTime64 tm)
    have hepoch := h.epoch
    have hlt := (env.tmToTime64 tm).toInt_lt
    rw [ge_iff_le, Int64.le_iff_toInt_le, UInt64.le_iff_toNat_le]
    omega
  unfold subtractSecs at hmem ⊢
  simp only [RtcEnv.Converts, RtcEnv.hardwareTime, hwithin, hzero] at hconv
  simp only [RtcEnv.rtcSubtractOffset, hwithin, hzero]
  split
  next hz => rw [if_pos (Or.inl hz)]
  next hz =>
    simp only [hz, false_or] at hmem hconv ⊢
    split
    · rfl
    next hout =>
      rw [if_neg hout] at hmem hconv
      have hsub : (env.tmToTime64 tm - env.offsetSecs).toInt = (env.tmToTime64 tm).toInt -
          offsetOf env.startSecs.toInt env.rangeMin.toInt env.rangeMax.toNat := by
        rw [Int64.toInt_sub, hoffset, Int.sub_bmod_bmod]
        exact bmod_of_fits (by omega) (by omega)
      rw [hconv, hsub]

theorem secs_rtcAddOffset (tm' : Tm)
    (h : Shown env.startSecs env.rangeMin env.rangeMax (env.tmToTime64 tm).toInt)
    (hoffset : env.offsetSecs.toInt =
      (offsetOf env.startSecs.toInt env.rangeMin.toInt env.rangeMax.toNat).bmod (2 ^ 64))
    (hconv : env.Converts (env.tmToTime64 tm))
    (hresult : addSecs env.startSecs.toInt env.rangeMin.toInt env.rangeMax.toNat
          (env.tmToTime64 tm').toInt = (env.tmToTime64 tm).toInt ∨
        addSecs env.startSecs.toInt env.rangeMin.toInt env.rangeMax.toNat
          (env.tmToTime64 tm').toInt = (env.tmToTime64 tm').toInt) :
    (env.tmToTime64 (env.rtcAddOffset tm')).toInt =
      addSecs env.startSecs.toInt env.rangeMin.toInt env.rangeMax.toNat
        (env.tmToTime64 tm').toInt := by
  have hzero := h.offset_eq_zero hoffset
  have hmax := h.max
  have hm := env.rangeMin.le_toInt
  have hlt := (env.tmToTime64 tm).toInt_lt
  have hlo := (env.tmToTime64 tm).le_toInt
  have hsame : (env.startSecs > env.rangeMin ∧ env.tmToTime64 tm' ≥ env.startSecs) ∨
        (env.startSecs < env.rangeMin ∧ (env.tmToTime64 tm').toUInt64 ≤
          env.startSecs.toUInt64 + env.rangeMax - env.rangeMin.toUInt64) ↔
      env.rangeMin.toInt < env.startSecs.toInt ∧
          env.startSecs.toInt ≤ (env.tmToTime64 tm').toInt ∨
        env.startSecs.toInt < env.rangeMin.toInt ∧ 0 ≤ (env.tmToTime64 tm').toInt ∧
          (env.tmToTime64 tm').toInt ≤
            env.startSecs.toInt + (env.rangeMax.toNat - env.rangeMin.toInt) := by
    have hnat := toNat_unsigned (env.tmToTime64 tm')
    have hupper := toNat_upper env.startSecs env.rangeMin env.rangeMax
    have hle := h.le
    have hepoch := h.epoch
    have hfits := h.fits
    have hlt' := (env.tmToTime64 tm').toInt_lt
    have hlo' := (env.tmToTime64 tm').le_toInt
    rw [gt_iff_lt, ge_iff_le, Int64.le_iff_toInt_le, UInt64.le_iff_toNat_le,
      Int64.lt_iff_toInt_lt, Int64.lt_iff_toInt_lt]
    omega
  unfold addSecs at hresult ⊢
  simp only [RtcEnv.rtcAddOffset, hsame, hzero]
  split
  next hz => rw [if_pos (Or.inl hz)]
  next hz =>
    simp only [hz, false_or] at hresult ⊢
    split
    · rfl
    next hout =>
      rw [if_neg hout] at hresult
      have heq : (env.tmToTime64 tm').toInt +
          offsetOf env.startSecs.toInt env.rangeMin.toInt env.rangeMax.toNat =
            (env.tmToTime64 tm).toInt := by
        omega
      have hadd : (env.tmToTime64 tm' + env.offsetSecs).toInt = (env.tmToTime64 tm').toInt +
          offsetOf env.startSecs.toInt env.rangeMin.toInt env.rangeMax.toNat := by
        rw [Int64.toInt_add, hoffset, Int.add_bmod_bmod]
        exact bmod_of_fits (by omega) (by omega)
      rw [Int64.toInt_inj.mp (hadd.trans heq), hconv, heq]

/-! ## The round trip -/

section RoundTrip

theorem le_of_rtcValidRange {env : RtcEnv Tm} (hvalid : env.rtcValidRange tm = 0)
    (hset : env.setStartTime = true) (hne : env.rangeMin.toUInt64 ≠ env.rangeMax) :
    env.startSecs.toInt ≤ (env.tmToTime64 tm).toInt ∧
      (env.tmToTime64 tm).toInt ≤
        (env.startSecs.toUInt64 + env.rangeMax - env.rangeMin.toUInt64).toInt64.toInt := by
  simp only [RtcEnv.rtcValidRange, ne_eq, hne, not_false_eq_true, if_true, hset] at hvalid
  split at hvalid
  · cases hvalid
  next h =>
    rw [not_or, gt_iff_lt, Int64.not_lt, Int64.not_lt, Int64.le_iff_toInt_le,
      Int64.le_iff_toInt_le] at h
    exact h

/-- A time goes to one of the hardware, and comes back. -/
structure RoundTrips (env : RtcEnv Tm) (tm : Tm) : Prop where
  min_le : env.rangeMin.toInt ≤ (env.tmToTime64 (env.rtcSubtractOffset tm)).toInt
  le_max : (env.tmToTime64 (env.rtcSubtractOffset tm)).toInt ≤ env.rangeMax.toNat
  back : env.tmToTime64 (env.rtcAddOffset (env.rtcSubtractOffset tm)) = env.tmToTime64 tm

/-- The round trip of one that is in range and has an offset as `rtc_device_get_offset` chooses
it. -/
theorem roundTrips_iff_returns {env : RtcEnv Tm}
    (h : Shown env.startSecs env.rangeMin env.rangeMax (env.tmToTime64 tm).toInt)
    (hoffset : env.offsetSecs.toInt =
      (offsetOf env.startSecs.toInt env.rangeMin.toInt env.rangeMax.toNat).bmod (2 ^ 64))
    (hconv : env.Converts (env.tmToTime64 tm)) (hhw : env.Converts (env.hardwareTime tm)) :
    RoundTrips env tm ↔ Returns env.startSecs.toInt env.rangeMin.toInt env.rangeMax.toNat
      (env.tmToTime64 tm).toInt := by
  have hmax : (0 : Int) ≤ env.rangeMax.toNat := Int.natCast_nonneg _
  have hmem := subtractSecs_mem h.lt hmax h.start h.le
  have hiff := addSecs_subtractSecs_iff h.lt hmax h.epoch h.start h.le
  have hsub := secs_rtcSubtractOffset h hoffset hhw
  have hadd := secs_rtcAddOffset (env.rtcSubtractOffset tm) h hoffset hconv (by
    rw [hsub]
    exact addSecs_subtractSecs_or h.epoch h.start h.le)
  rw [hsub] at hadd
  rw [← hiff, ← hadd, Int64.toInt_inj]
  constructor
  · intro htrip
    exact htrip.back
  · intro hback
    exact ⟨hsub ▸ hmem.1, hsub ▸ hmem.2, hback⟩

variable (env) (mktime64 : UInt32 → Time64) (startYear : Option UInt32)

theorem rtcDeviceGetOffset_none (hnone : env.startTime mktime64 startYear = none) :
    env.rtcDeviceGetOffset mktime64 startYear = env ∧ env.setStartTime = false := by
  cases startYear with
  | some year => cases hnone
  | none =>
    cases hset : env.setStartTime with
    | true => simp [RtcEnv.startTime, hset] at hnone
    | false => simp [RtcEnv.rtcDeviceGetOffset, hset]

theorem rtcDeviceGetOffset_some (hne : env.rangeMin.toUInt64 ≠ env.rangeMax) {s : Time64}
    (hsome : env.startTime mktime64 startYear = some s) :
    env.rtcDeviceGetOffset mktime64 startYear =
      { env with
        startSecs := s
        setStartTime := true
        offsetSecs :=
          if s.toUInt64 > env.rangeMax ∨
              s + (env.rangeMax - env.rangeMin.toUInt64 + 1).toInt64 - 1 < env.rangeMin then
            s - env.rangeMin
          else if s > env.rangeMin then (env.rangeMax - env.rangeMin.toUInt64 + 1).toInt64
          else if s < env.rangeMin then -(env.rangeMax - env.rangeMin.toUInt64 + 1).toInt64
          else 0 } := by
  have hstart : (match startYear with
      | some year => { env with startSecs := mktime64 year, setStartTime := true }
      | none => env) = { env with startSecs := s, setStartTime := true } := by
    cases startYear with
    | some year =>
      obtain rfl := Option.some_inj.mp hsome
      rfl
    | none =>
      cases hset : env.setStartTime with
      | false => simp [RtcEnv.startTime, hset] at hsome
      | true =>
        simp only [RtcEnv.startTime, hset, if_true, Option.some_inj] at hsome
        subst hsome
        rw [← hset]
  simp only [RtcEnv.rtcDeviceGetOffset, hne, if_false, hstart, Bool.not_true, Bool.false_eq_true]
  split
  · rfl
  split
  · rfl
  split <;> rfl

/-- The round trip, where `lib.c` converts the time that the hardware is to have. -/
theorem roundTrips_rtcDeviceGetOffset_iff (hoff : env.offsetSecs = 0)
    (hlt : env.rangeMin.toInt < env.rangeMax.toNat) (hmax : env.rangeMax.toNat < 2 ^ 63)
    (tm : Tm) (ht : 0 ≤ (env.tmToTime64 tm).toInt)
    (hvalid : (env.rtcDeviceGetOffset mktime64 startYear).rtcValidRange tm = 0)
    (hconv : env.Converts (env.tmToTime64 tm))
    (hhw : env.Converts ((env.rtcDeviceGetOffset mktime64 startYear).hardwareTime tm)) :
    RoundTrips (env.rtcDeviceGetOffset mktime64 startYear) tm ↔
      ∀ s ∈ env.startTime mktime64 startYear,
        Returns s.toInt env.rangeMin.toInt env.rangeMax.toNat (env.tmToTime64 tm).toInt := by
  have hne : env.rangeMin.toUInt64 ≠ env.rangeMax := by
    intro heq
    have hnat := toNat_unsigned env.rangeMin
    have hlo := env.rangeMin.le_toInt
    rw [heq] at hnat
    omega
  cases hstart : env.startTime mktime64 startYear with
  | none =>
    obtain ⟨henv, hset⟩ := rtcDeviceGetOffset_none env mktime64 startYear hstart
    rw [henv] at hvalid ⊢
    simp only [Option.mem_def, reduceCtorEq, false_implies, implies_true, iff_true]
    simp only [RtcEnv.rtcValidRange, ne_eq, hne, not_false_eq_true, if_true, hset,
      Bool.false_eq_true, if_false] at hvalid
    split at hvalid
    · cases hvalid
    next h =>
      rw [not_or, gt_iff_lt, Int64.not_lt, Int64.not_lt, Int64.le_iff_toInt_le,
        Int64.le_iff_toInt_le, toInt_signed, bmod_of_fits (by omega) (by omega)] at h
      have hsub : env.rtcSubtractOffset tm = tm := if_pos hoff
      have hadd : env.rtcAddOffset tm = tm := if_pos hoff
      exact ⟨by rw [hsub]; exact h.1, by rw [hsub]; exact h.2, by rw [hsub, hadd]⟩
  | some s =>
    have henv := rtcDeviceGetOffset_some env mktime64 startYear hne hstart
    rw [henv] at hvalid hhw ⊢
    obtain ⟨hlo, hhi⟩ := le_of_rtcValidRange hvalid rfl hne
    have hshown := Shown.of_le hlt hmax ht hlo hhi
    rw [roundTrips_iff_returns hshown hshown.offset hconv hhw]
    simp only [Option.mem_def, Option.some_inj, forall_eq']

/-- **The round trip of the moved range.**  A time from 1970 on that is accepted makes it if `lib.c`
converts the time that the hardware is to have, as it does from 1970 on, and the start is not before
1970, or the time is one where that does not matter.  Where `lib.c` converts it, only then. -/
theorem range_roundTrip_iff (hoff : env.offsetSecs = 0)
    (hlt : env.rangeMin.toInt < env.rangeMax.toNat) (hmax : env.rangeMax.toNat < 2 ^ 63)
    (tm : Tm) (ht : 0 ≤ (env.tmToTime64 tm).toInt)
    (hvalid : (env.rtcDeviceGetOffset mktime64 startYear).rtcValidRange tm = 0)
    (hconv : env.Converts (env.tmToTime64 tm)) :
    (env.Converts ((env.rtcDeviceGetOffset mktime64 startYear).hardwareTime tm) ∧
        (∀ s ∈ env.startTime mktime64 startYear,
          Returns s.toInt env.rangeMin.toInt env.rangeMax.toNat (env.tmToTime64 tm).toInt) →
      RoundTrips (env.rtcDeviceGetOffset mktime64 startYear) tm) ∧
    (RoundTrips (env.rtcDeviceGetOffset mktime64 startYear) tm →
      env.Converts ((env.rtcDeviceGetOffset mktime64 startYear).hardwareTime tm) →
      ∀ s ∈ env.startTime mktime64 startYear,
        Returns s.toInt env.rangeMin.toInt env.rangeMax.toNat (env.tmToTime64 tm).toInt) := by
  have hiff := roundTrips_rtcDeviceGetOffset_iff env mktime64 startYear hoff hlt hmax tm ht hvalid
    hconv
  exact ⟨fun h => (hiff h.1).mpr h.2, fun htrip hhw => (hiff hhw).mp htrip⟩

/-- A clock from 2000 to 2099, with times that are their seconds. -/
def centuryEnv : RtcEnv Time64 where
  validTm _ := true
  tmToTime64 tm := tm
  time64ToTm secs := secs
  tmToKtime tm := tm * 1000000000
  ktimeToTm k := k / 1000000000
  timerqueueAdd _ t q := t :: q
  driverReadTime clock := Int64.ofInt clock
  rangeMin := 946684800
  rangeMax := 4102444799
  startSecs := 0
  offsetSecs := 0
  setStartTime := false
  uieUnsupported := false

/-- Its range moved to start in 2020: the first day of 2110 makes the round trip. -/
theorem range_roundTrip_fromTwentyTwenty :
    RoundTrips (centuryEnv.rtcDeviceGetOffset (fun _ => 1577836800) (some 2020))
      (4417977600 : Time64) :=
  (range_roundTrip_iff centuryEnv (fun _ => 1577836800) (some 2020) rfl (by decide) (by decide)
    4417977600 (by decide) (by decide) rfl).1
    ⟨rfl, fun s hs => Or.inl (by
      obtain rfl := Option.some_inj.mp hs
      decide)⟩

/-- Its range moved to start in 1960: the first day of 1980 is kept as one of 2020, which `lib.c`
converts, and read as that. -/
theorem not_range_roundTrip_fromNineteenSixty :
    centuryEnv.offsetSecs = 0 ∧ centuryEnv.rangeMin.toInt < centuryEnv.rangeMax.toNat ∧
      centuryEnv.rangeMax.toNat < 2 ^ 63 ∧
      (centuryEnv.rtcDeviceGetOffset (fun _ => -315619200) (some 1960)).rtcValidRange 315532800
        = 0 ∧
      (∀ x, centuryEnv.Converts x) ∧
      (centuryEnv.rtcDeviceGetOffset (fun _ => -315619200) (some 1960)).rtcAddOffset
        ((centuryEnv.rtcDeviceGetOffset (fun _ => -315619200) (some 1960)).rtcSubtractOffset
          315532800) = (1577836800 : Time64) ∧
      ¬RoundTrips (centuryEnv.rtcDeviceGetOffset (fun _ => -315619200) (some 1960))
        (315532800 : Time64) := by
  refine ⟨rfl, by decide, by decide, by decide, fun _ => rfl, by decide, fun htrip => ?_⟩
  exact absurd htrip.back (by decide)

end RoundTrip

end RealtekIpcam.Rtc
