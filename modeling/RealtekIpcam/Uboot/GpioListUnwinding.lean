import RealtekIpcam.Lib.AddedKeys
import RealtekIpcam.Uboot.GpioLists

/-!
# Requests of GPIO lists that fail

If `gpio_request_tail` cannot set the direction of a line, the line is requested already, and stays
so.  And if a line of a list cannot be had, `gpio_request_list_by_name_nodev` frees one descriptor
less than it has requested: the last of them stays requested, unless there is none.

`allOrNothing_iff` says when a request is all or nothing all the same.  `gpio_claim_vector` always
is.
-/

namespace RealtekIpcam.Uboot.GpioLists

open AddedKeys Gpio

/-! ## What is asked of the requests -/

/-- The lines of the descriptors, and no others, are newly requested. -/
def NewlyRequested (descs : List GpioDesc) (s s' : Lines) : Prop :=
  ∃ pins, descs.map GpioDesc.pin = pins.map some ∧ Added pins s.name s'.name

def SameRequested (s s' : Lines) : Prop := SameKeys s.name s'.name

/-- **A request of a list is all or nothing**: it takes the lines that it counts, or none. -/
structure ListAllOrNothing (s : Lines) (ret : Int × List GpioDesc × Lines) : Prop where
  error : ret.1 < 0 → SameRequested s ret.2.2
  count : 0 ≤ ret.1 → ret.1 = ret.2.1.length ∧ NewlyRequested ret.2.1 s ret.2.2

/-! ## When they meet it -/

/-- What the request of a line returns, given which lines are in use. -/
def Entry.obtain (d : Devices) (used : Pin → Bool) (e : Entry) : Int :=
  match e.resolve d with
  | .error (ret, _) => ret
  | .ok (p, _) =>
    if used p then -EBUSY else if !e.calls.strdup then -ENOMEM else e.calls.request.1

/-- What setting the direction of a line returns that has been requested. -/
def Entry.configure (d : Devices) (flags : Flags) (e : Entry) : Int :=
  match e.resolve d with
  | .error _ => 0
  | .ok (p, entryFlags) =>
    ((Desc.mk true true entryFlags ⟨false, false⟩).dmGpioSetDirFlags (d.ops p.dev).interface
      e.calls.setFlags.1 (flags ||| (entryFlags &&& gpiodMaskDir))).1

/-- The lines in use when an entry of a list is requested: those requested before the list, and
those of the entries in front. -/
def usedBefore (d : Devices) (entries : Nat → Entry) (s : Lines) (i : Nat) (p : Pin) : Bool :=
  (s.name p).isSome || (List.range i).any fun j =>
    match (entries j).resolve d with
    | .error _ => false
    | .ok (q, _) => decide (q = p)

/-- The entry gets its line, and its direction. -/
def Served (d : Devices) (entries : Nat → Entry) (flags : Flags) (s : Lines) (i : Nat) : Prop :=
  (entries i).obtain d (usedBefore d entries s i) = 0 ∧ (entries i).configure d flags = 0

/-- **The first entry that is not served does not get its line**, and it is the first of the list or
is not there. -/
def Unobstructed (d : Devices) (entries : Nat → Entry) (flags : Flags) (maxCount : Int)
    (s : Lines) : Prop :=
  ∀ i : Nat, (i : Int) < maxCount → (∀ j < i, Served d entries flags s j) →
    ¬ Served d entries flags s i →
      (entries i).obtain d (usedBefore d entries s i) ≠ 0 ∧
        (i = 0 ∨ (entries i).obtain d (usedBefore d entries s i) = -ENOENT)

/-! ## One request -/

variable {d : Devices} {s s₀ : Lines} {e : Entry} {p : Pin} {flags entryFlags : Flags}

theorem dmGpioSetDirFlags_fst (i : Interface) (ret : Int) (flags set : Flags) (line : Line) :
    ((Desc.mk true true flags line).dmGpioSetDirFlags i ret set).1 =
      if Desc.checkDirFlags (flags &&& ~~~gpiodMaskDir ||| set) ≠ 0 then
        Desc.checkDirFlags (flags &&& ~~~gpiodMaskDir ||| set)
      else if Sends i (flags &&& ~~~gpiodMaskDir ||| set) then ret else 0 := by
  have hreserved : (Desc.mk true true flags line).checkReserved = 0 := rfl
  rw [Desc.dmGpioSetDirFlags, Desc.dmGpioClrsetFlags, if_neg (not_not_intro hreserved)]
  dsimp only
  generalize flags &&& ~~~gpiodMaskDir ||| set = f
  by_cases hcheck : Desc.checkDirFlags f = 0
  · rw [Desc.dmGpioSetFlags_eq i ret hcheck, if_neg (not_not_intro hcheck)]
    by_cases hsends : Sends i f
    · rw [if_pos hsends, if_pos hsends, Desc.call]
      by_cases hret : ret = 0
      · rw [if_pos hret]
        exact hret.symm
      · rw [if_neg hret, if_pos hret]
    · rw [if_neg hsends, if_neg hsends]
      rfl
  · rw [Desc.dmGpioSetFlags, if_pos hcheck, if_pos hcheck, if_pos hcheck]

theorem checkDirFlags_nonpos (flags : Flags) : Desc.checkDirFlags flags ≤ 0 := by
  rw [Desc.checkDirFlags]
  repeat' split
  all_goals decide

theorem Entry.configure_nonpos (d : Devices) (flags : Flags) (e : Entry) :
    e.configure d flags ≤ 0 := by
  rw [Entry.configure]
  cases e.resolve d with
  | error _ => exact Int.le_refl 0
  | ok r =>
    dsimp only
    rw [dmGpioSetDirFlags_fst]
    split
    · exact checkDirFlags_nonpos _
    split
    · exact e.calls.setFlags.2
    · exact Int.le_refl 0

theorem gpioFindAndXlate_nonpos (ops : Ops) (dev : Nat) (args : List (BitVec 32)) :
    (gpioFindAndXlate ops dev args).1 ≤ 0 := by
  cases hxlate : ops.xlate with
  | some xlate =>
    simp only [gpioFindAndXlate, hxlate]
    exact (xlate dev args).1.2
  | none =>
    simp only [gpioFindAndXlate, hxlate]
    cases args with
    | nil => exact (by decide : -EINVAL ≤ 0)
    | cons offset rest =>
      rw [gpioXlateOffsFlags]
      split
      · exact (by decide : -EINVAL ≤ 0)
      · exact Int.le_refl 0

theorem Entry.resolve_neg {ret : Int} {desc : GpioDesc} (h : e.resolve d = .error (ret, desc)) :
    ret < 0 := by
  rw [Entry.resolve] at h
  split at h
  case isTrue hparse =>
    obtain ⟨rfl, -⟩ := Prod.mk.inj (Except.error.inj h)
    exact Int.lt_iff_le_and_ne.mpr ⟨e.parse.2, hparse⟩
  case isFalse =>
    split at h
    case isTrue hdevice =>
      obtain ⟨rfl, -⟩ := Prod.mk.inj (Except.error.inj h)
      exact Int.lt_iff_le_and_ne.mpr ⟨e.getDevice.2, hdevice⟩
    case isFalse =>
      dsimp only at h
      split at h
      case isTrue hxlate =>
        obtain ⟨rfl, -⟩ := Prod.mk.inj (Except.error.inj h)
        exact Int.lt_iff_le_and_ne.mpr ⟨(gpioFindAndXlate_nonpos _ _ _), hxlate⟩
      case isFalse => cases h

theorem Entry.obtain_nonpos (d : Devices) (used : Pin → Bool) (e : Entry) :
    e.obtain d used ≤ 0 := by
  rw [Entry.obtain]
  cases hres : e.resolve d with
  | error r => exact Int.le_of_lt (Entry.resolve_neg hres)
  | ok r =>
    dsimp only
    split
    · exact (by decide : -EBUSY ≤ 0)
    split
    · exact (by decide : -ENOMEM ≤ 0)
    · exact e.calls.request.2

def Lines.used (s : Lines) (p : Pin) : Bool := (s.name p).isSome

/-- **The request of one line** does not obtain it and leaves all lines, or obtains it and sets its
direction or fails to. -/
theorem gpioRequestTail_cases (d : Devices) (e : Entry) (label : String) (flags : Flags)
    (s : Lines) :
    (e.obtain d s.used ≠ 0 ∧ (s.gpioRequestTail d e label flags).1 = e.obtain d s.used ∧
      (s.gpioRequestTail d e label flags).2.2 = s) ∨
    (e.obtain d s.used = 0 ∧ (s.gpioRequestTail d e label flags).1 = e.configure d flags ∧
      ∃ p entryFlags, e.resolve d = .ok (p, entryFlags) ∧ s.name p = none ∧
        (s.gpioRequestTail d e label flags).2.1.pin = some p ∧
        (s.gpioRequestTail d e label flags).2.2.name =
          Function.update s.name p (some label)) := by
  rw [Entry.obtain, Entry.configure, Lines.gpioRequestTail]
  cases hres : e.resolve d with
  | error r => exact Or.inl ⟨Int.ne_of_lt (Entry.resolve_neg hres), rfl, rfl⟩
  | ok r =>
    obtain ⟨p, entryFlags⟩ := r
    dsimp only
    rw [Lines.dmGpioRequest, Lines.used]
    by_cases hused : (s.name p).isSome = true
    · simp [hused, EBUSY]
    by_cases hdup : e.calls.strdup = true
    swap
    · simp [hused, hdup, ENOMEM]
    by_cases hreq : e.calls.request.1 = 0
    swap
    · simp [hused, hdup, hreq]
    have hfree : s.name p = none := by
      rwa [Bool.not_eq_true, Option.isSome_eq_false_iff, Option.isNone_iff_eq_none] at hused
    refine Or.inr ⟨by simp [hused, hdup, hreq], ?_, p, entryFlags, rfl, hfree, ?_, ?_⟩
    · have hdir := dmGpioSetDirFlags_fst (d.ops p.dev).interface e.calls.setFlags.1 entryFlags
        (flags ||| (entryFlags &&& gpiodMaskDir))
      simp [hused, hdup, hreq, Lines.dmGpioSetDirFlags, Lines.setName, hdir]
    · simp [hused, hdup, hreq, GpioDesc.pin]
    · simp [hused, hdup, hreq, Lines.dmGpioSetDirFlags, Lines.setName]

/-! ## The loop over a list -/

variable {l : GpioList} {maxCount : Int} {pins : List Pin} {count : Nat}

/-- **The entries in front of `count` have been served**, and their lines are those added. -/
structure Reached (d : Devices) (entries : Nat → Entry) (flags : Flags) (s₀ : Lines) (count : Nat)
    (pins : List Pin) (s : Lines) : Prop where
  served : ∀ j < count, Served d entries flags s₀ j
  added : Added pins s₀.name s.name
  mem_iff : ∀ p, p ∈ pins ↔ ∃ j < count, ∃ entryFlags, (entries j).resolve d = .ok (p, entryFlags)

theorem Reached.start (d : Devices) (entries : Nat → Entry) (flags : Flags) (s : Lines) :
    Reached d entries flags s 0 [] s where
  served _ hj := absurd hj (Nat.not_lt_zero _)
  added := .nil s.name
  mem_iff p := by simp

theorem Reached.used_eq (h : Reached d l.entries flags s₀ count pins s) :
    s.used = usedBefore d l.entries s₀ count := by
  funext p
  rw [Bool.eq_iff_iff, usedBefore, Bool.or_eq_true, List.any_eq_true]
  refine (h.added.isSome_iff p).trans (or_congr_right ?_)
  rw [h.mem_iff]
  constructor
  · rintro ⟨j, hj, entryFlags, hres⟩
    exact ⟨j, List.mem_range.mpr hj, by simp [hres]⟩
  · rintro ⟨j, hj, hres⟩
    refine ⟨j, List.mem_range.mp hj, ?_⟩
    cases hr : (l.entries j).resolve d with
    | error r => simp [hr] at hres
    | ok r =>
      obtain ⟨q, entryFlags⟩ := r
      rw [hr] at hres
      exact ⟨entryFlags, by rw [of_decide_eq_true hres]⟩

theorem Reached.next (h : Reached d l.entries flags s₀ count pins s)
    (hserved : Served d l.entries flags s₀ count)
    (hres : (l.entries count).resolve d = .ok (p, entryFlags)) {s' : Lines}
    (hadded : Added (pins ++ [p]) s₀.name s'.name) :
    Reached d l.entries flags s₀ (count + 1) (pins ++ [p]) s' where
  served j hj := by
    rcases Nat.lt_succ_iff_lt_or_eq.mp hj with hj | rfl
    · exact h.served j hj
    · exact hserved
  added := hadded
  mem_iff q := by
    rw [List.mem_append, List.mem_singleton, h.mem_iff]
    constructor
    · rintro (⟨j, hj, entryFlags', hq⟩ | rfl)
      · exact ⟨j, Nat.lt_succ_of_lt hj, entryFlags', hq⟩
      · exact ⟨count, Nat.lt_succ_self count, entryFlags, hres⟩
    · rintro ⟨j, hj, entryFlags', hq⟩
      rcases Nat.lt_succ_iff_lt_or_eq.mp hj with hj | rfl
      · exact Or.inl ⟨j, hj, entryFlags', hq⟩
      · rw [hres] at hq
        exact Or.inr (congrArg Prod.fst (Except.ok.inj hq)).symm

def endError (ret : Int) : Option Int := if ret = -ENOENT then none else some ret

/-- **How the loop ends**, after `k` more entries: all of them are served, or the next one does not
get its line, or it gets it and not its direction. -/
inductive LoopEnd (d : Devices) (entries : Nat → Entry) (flags : Flags) (s₀ : Lines) (last : Nat)
    (pins : List Pin) : Nat → Option Int → Lines → Prop where
  | all {k : Nat} {s : Lines} (hk : k = last) (h : Reached d entries flags s₀ k pins s) :
    LoopEnd d entries flags s₀ last pins k none s
  | unobtained {k : Nat} {s : Lines} (hk : k < last) (h : Reached d entries flags s₀ k pins s)
    (hret : (entries k).obtain d (usedBefore d entries s₀ k) ≠ 0) :
    LoopEnd d entries flags s₀ last pins k
      (endError ((entries k).obtain d (usedBefore d entries s₀ k))) s
  | unconfigured {k : Nat} {s s' : Lines} {p : Pin} (hk : k < last)
    (h : Reached d entries flags s₀ k pins s)
    (hobtain : (entries k).obtain d (usedBefore d entries s₀ k) = 0)
    (hret : (entries k).configure d flags ≠ 0) (hadded : Added (pins ++ [p]) s₀.name s'.name) :
    LoopEnd d entries flags s₀ last pins k (endError ((entries k).configure d flags)) s'

/-- How the loop over the list ends. -/
theorem requestFrom_end (h : Reached d l.entries flags s₀ count pins s) (n : Nat) :
    ∃ k pins', LoopEnd d l.entries flags s₀ (count + n) (pins ++ pins') k
        (s.requestFrom d l flags n count).1 (s.requestFrom d l flags n count).2.2 ∧
      k = count + pins'.length ∧
      (s.requestFrom d l flags n count).2.1.map GpioDesc.pin = pins'.map some := by
  induction n generalizing s count pins with
  | zero =>
    refine ⟨count, [], ?_, rfl, rfl⟩
    rw [List.append_nil]
    exact .all rfl h
  | succ n ih =>
    have hcases := gpioRequestTail_cases d (l.entries count)
      (requestLabel l.nodename l.listName count true) flags s
    rw [h.used_eq] at hcases
    have hlt : count < count + (n + 1) := by omega
    rw [Lines.requestFrom, Lines.gpioRequestByNameNodev]
    generalize s.gpioRequestTail d (l.entries count)
      (requestLabel l.nodename l.listName count true) flags = ret at hcases ⊢
    have hend : ∀ e, e ≠ 0 → (if e = -ENOENT then (none, [], ret.2.2)
        else if e ≠ 0 then (some e, [], ret.2.2)
        else ((ret.2.2.requestFrom d l flags n (count + 1)).1,
          ret.2.1 :: (ret.2.2.requestFrom d l flags n (count + 1)).2.1,
          (ret.2.2.requestFrom d l flags n (count + 1)).2.2)) = (endError e, [], ret.2.2) := by
      intro e he
      rw [endError]
      by_cases henoent : e = -ENOENT
      · rw [if_pos henoent, if_pos henoent]
      · rw [if_neg henoent, if_neg henoent, if_pos he]
    dsimp only
    rcases hcases with ⟨hne, hret, hstate⟩ |
      ⟨hobtain, hret, p, entryFlags, hres, hfree, hpin, hname⟩
    · rw [hret, hend _ hne]
      refine ⟨count, [], ?_, rfl, rfl⟩
      rw [List.append_nil, hstate]
      exact .unobtained hlt h hne
    · have hadded : Added (pins ++ [p]) s₀.name ret.2.2.name := by
        rw [hname]
        exact h.added.concat hfree _
      by_cases hconf : (l.entries count).configure d flags = 0
      · have hserved : Served d l.entries flags s₀ count := ⟨hobtain, hconf⟩
        obtain ⟨k, pins', hk, hlen, hmap⟩ := ih (h.next hserved hres hadded)
        rw [hret, hconf, if_neg (by decide), if_neg (not_not_intro rfl)]
        refine ⟨k, p :: pins', ?_, ?_, ?_⟩
        · rw [List.append_cons]
          rw [Nat.add_right_comm, Nat.add_assoc] at hk
          exact hk
        · rw [hlen, List.length_cons]
          omega
        · rw [List.map_cons, List.map_cons, hmap, hpin]
      · rw [hret, hend _ hconf]
        refine ⟨count, [], ?_, rfl, rfl⟩
        rw [List.append_nil]
        exact .unconfigured hlt h hobtain hconf hadded

/-! ## The whole list -/

theorem dmGpioFree_name {q : Pin} (hq : q ≠ p) : (s.dmGpioFree d p).2.name q = s.name q := by
  rw [Lines.dmGpioFree]
  split
  · rfl
  split
  · rfl
  · exact Function.update_of_ne hq _ _

theorem gpioFreeList_name {descs : List GpioDesc} {n : Int} {q : Pin}
    (hq : q ∉ (descs.take n.toNat).filterMap GpioDesc.pin) :
    (s.gpioFreeList d descs n).name q = s.name q := by
  rw [Lines.gpioFreeList]
  generalize (descs.take n.toNat).filterMap GpioDesc.pin = freed at hq ⊢
  induction freed generalizing s with
  | nil => rfl
  | cons p freed ih =>
    rw [List.mem_cons, not_or] at hq
    rw [List.foldl_cons, ih hq.2, dmGpioFree_name hq.1]

theorem filterMap_pin {descs : List GpioDesc} (h : descs.map GpioDesc.pin = pins.map some) :
    descs.filterMap GpioDesc.pin = pins := by
  have hmap : (descs.map GpioDesc.pin).filterMap id = (pins.map some).filterMap id := by rw [h]
  simpa [List.filterMap_map] using hmap

theorem not_sameRequested_of_added {s' : Lines} {q : Pin} (h : Added pins s.name s'.name)
    (hq : q ∈ pins) {descs : List GpioDesc} {n : Int}
    (hfreed : q ∉ (descs.take n.toNat).filterMap GpioDesc.pin) :
    ¬ SameRequested s (s'.gpioFreeList d descs n) := by
  intro hsame
  have hheld := hsame q
  rw [gpioFreeList_name hfreed, h.held q hq, h.free q hq] at hheld
  cases hheld

theorem unobstructed_of_served
    (h : ∀ j < maxCount.toNat, Served d l.entries flags s j) :
    Unobstructed d l.entries flags maxCount s :=
  fun i hi _ hnot => absurd (h i (by omega)) hnot

theorem unobstructed_iff {k : Nat} (hk : k < maxCount.toNat)
    (hserved : ∀ j < k, Served d l.entries flags s j) (hnot : ¬ Served d l.entries flags s k) :
    Unobstructed d l.entries flags maxCount s ↔
      (l.entries k).obtain d (usedBefore d l.entries s k) ≠ 0 ∧
        (k = 0 ∨ (l.entries k).obtain d (usedBefore d l.entries s k) = -ENOENT) := by
  constructor
  · intro h
    exact h k (by omega) hserved hnot
  · intro h i hi hserved' hnot'
    have hik : i = k := by
      rcases Nat.lt_trichotomy i k with hlt | heq | hgt
      · exact absurd (hserved i hlt) hnot'
      · exact heq
      · exact absurd (hserved' k hgt) hnot
    rwa [hik]

theorem endError_of_enoent {e : Int} (h : e = -ENOENT) : endError e = none := if_pos h

theorem endError_of_ne {e : Int} (h : e ≠ -ENOENT) : endError e = some e := if_neg h

theorem newlyRequested_iff {descs : List GpioDesc} {s' : Lines} {pins' : List Pin}
    (hmap : descs.map GpioDesc.pin = pins.map some)
    (h : Added (pins ++ pins') s.name s'.name) : NewlyRequested descs s s' ↔ pins' = [] := by
  constructor
  · rintro ⟨pins'', hmap', hadded⟩
    have heq : pins'' = pins := by
      rw [← filterMap_pin hmap', filterMap_pin hmap]
    subst heq
    refine List.eq_nil_iff_forall_not_mem.mpr fun q hq => ?_
    have hmem : q ∈ pins'' ++ pins' := List.mem_append_right pins'' hq
    rcases (hadded.isSome_iff q).mp (h.held q hmem) with hsome | hmem'
    · rw [h.free q hmem] at hsome
      cases hsome
    · exact (List.nodup_append.mp h.nodup).2.2 q hmem' q hq rfl
  · rintro rfl
    rw [List.append_nil] at h
    exact ⟨pins, hmap, h⟩

theorem listAllOrNothing_count {descs : List GpioDesc} {s' : Lines} :
    ListAllOrNothing s ((descs.length : Int), descs, s') ↔ NewlyRequested descs s s' := by
  constructor
  · intro h
    exact (h.count (Int.natCast_nonneg _)).2
  · intro h
    exact ⟨fun hneg => absurd hneg (by omega), fun _ => ⟨rfl, h⟩⟩

theorem listAllOrNothing_error {e : Int} (he : e < 0) {descs : List GpioDesc} {s' : Lines} :
    ListAllOrNothing s (e, descs, s') ↔ SameRequested s s' := by
  constructor
  · intro h
    exact h.error he
  · intro h
    exact ⟨fun _ => h, fun hpos => absurd hpos (by omega)⟩

theorem getLast_not_mem_freed {descs : List GpioDesc} {q : Pin}
    (hmap : descs.map GpioDesc.pin = (pins ++ [q]).map some) (hnodup : (pins ++ [q]).Nodup) :
    q ∉ (descs.take ((descs.length : Int) - 1).toNat).filterMap GpioDesc.pin := by
  have hlen : descs.length = pins.length + 1 := by
    rw [← List.length_map (f := GpioDesc.pin), hmap, List.length_map, List.length_append,
      List.length_singleton]
  have htake : (descs.take ((descs.length : Int) - 1).toNat).map GpioDesc.pin = pins.map some := by
    have hcount : ((descs.length : Int) - 1).toNat = pins.length := by omega
    rw [hcount, List.map_take, hmap, ← List.map_take, List.take_left]
  rw [filterMap_pin htake]
  exact (List.nodup_cons.mp ((List.perm_append_singleton q pins).nodup_iff.mp hnodup)).1

/-- **A list is all or nothing** exactly if the first entry that is not served does not get its
line, and is the first of the list or not there. -/
theorem listAllOrNothing_iff (d : Devices) (l : GpioList) (maxCount : Int) (flags : Flags)
    (s : Lines) :
    ListAllOrNothing s (s.gpioRequestListByNameNodev d l maxCount flags) ↔
      Unobstructed d l.entries flags maxCount s := by
  obtain ⟨k, pins, hend, hlen, hmap⟩ :=
    requestFrom_end (Reached.start d l.entries flags s) maxCount.toNat
  rw [Nat.zero_add] at hend hlen
  rw [List.nil_append] at hend
  rw [Lines.gpioRequestListByNameNodev]
  generalize s.requestFrom d l flags maxCount.toNat 0 = ret at hend hmap ⊢
  obtain ⟨err, descs, s'⟩ := ret
  dsimp only at hend hmap ⊢
  cases hend with
  | all hk h =>
    have hnew : NewlyRequested descs s s' := ⟨pins, hmap, h.added⟩
    exact iff_of_true (listAllOrNothing_count.mpr hnew)
      (unobstructed_of_served fun j hj => h.served j (by omega))
  | unobtained hk h hret =>
    rw [unobstructed_iff hk h.served fun hserved => hret hserved.1]
    by_cases henoent : (l.entries k).obtain d (usedBefore d l.entries s k) = -ENOENT
    · rw [endError_of_enoent henoent]
      exact iff_of_true (listAllOrNothing_count.mpr ⟨pins, hmap, h.added⟩)
        ⟨hret, Or.inr henoent⟩
    · rw [endError_of_ne henoent]
      have hneg := Int.lt_iff_le_and_ne.mpr
        ⟨(l.entries k).obtain_nonpos d (usedBefore d l.entries s k), hret⟩
      refine (listAllOrNothing_error hneg).trans ?_
      rcases List.eq_nil_or_concat pins with rfl | ⟨init, q, rfl⟩
      · -- the first entry: there is nothing to free
        have hnil : descs = [] := List.map_eq_nil_iff.mp hmap
        subst hnil
        exact iff_of_true (h.added.sameKeys_iff.mpr rfl) ⟨hret, Or.inl hlen⟩
      · rw [List.concat_eq_append] at hmap hlen h
        have hq : q ∈ init ++ [q] := List.mem_append_right init (List.mem_singleton.mpr rfl)
        refine iff_of_false (not_sameRequested_of_added h.added hq
          (getLast_not_mem_freed hmap h.added.nodup)) ?_
        rintro ⟨-, hzero | henoent'⟩
        · rw [List.length_append, List.length_singleton] at hlen
          omega
        · exact henoent henoent'
  | @unconfigured _ _ p hk h hobtain hret hadded =>
    rw [unobstructed_iff hk h.served fun hserved => hret hserved.2]
    refine iff_of_false ?_ fun hcond => hcond.1 hobtain
    by_cases henoent : (l.entries k).configure d flags = -ENOENT
    · rw [endError_of_enoent henoent, listAllOrNothing_count, newlyRequested_iff hmap hadded]
      exact List.cons_ne_nil p []
    · rw [endError_of_ne henoent]
      have hneg := Int.lt_iff_le_and_ne.mpr ⟨(l.entries k).configure_nonpos d flags, hret⟩
      refine fun hlist => ?_
      have hsame := (listAllOrNothing_error hneg).mp hlist
      refine not_sameRequested_of_added hadded
        (List.mem_append_right pins (List.mem_singleton.mpr rfl)) ?_ hsame
      -- the line is in front of none of the descriptors
      intro hfreed
      have hmem : p ∈ pins := by
        rw [← filterMap_pin hmap]
        exact (List.Sublist.filterMap _ (List.take_sublist _ _)).subset hfreed
      exact (List.nodup_cons.mp
        ((List.perm_append_singleton p pins).nodup_iff.mp hadded.nodup)).1 hmem

/-! ## Single requests and vectors -/

/-- **A single request is all or nothing** exactly if the line that it obtains gets its
direction. -/
theorem byName_iff (d : Devices) (l : GpioList) (index : Nat) (flags : Flags) (s : Lines) :
    ((s.gpioRequestByName d l index flags).1 < 0 →
        SameRequested s (s.gpioRequestByName d l index flags).2.2) ↔
      ((l.entries index).obtain d s.used = 0 → (l.entries index).configure d flags = 0) := by
  rw [Lines.gpioRequestByName, Lines.gpioRequestByNameNodev]
  generalize requestLabel l.nodename l.listName index (decide (0 < index)) = label
  rcases gpioRequestTail_cases d (l.entries index) label flags s with
    ⟨hne, hret, hstate⟩ | ⟨hobtain, hret, p, entryFlags, -, hfree, -, hname⟩
  · refine iff_of_true (fun _ k => ?_) fun hzero => absurd hzero hne
    rw [hstate]
  · have hadded :
        Added [p] s.name (s.gpioRequestTail d (l.entries index) label flags).2.2.name := by
      rw [hname]
      exact (Added.nil s.name).concat hfree label
    rw [hret]
    constructor
    · intro h _
      by_contra hne
      have hneg := Int.lt_iff_le_and_ne.mpr ⟨(l.entries index).configure_nonpos d flags, hne⟩
      exact List.cons_ne_nil p [] (hadded.sameKeys_iff.mp (h hneg))
    · intro h hneg
      rw [h hobtain] at hneg
      exact absurd hneg (Int.lt_irrefl 0)

theorem dmGpioRequest_cases (c : Calls) (label : String) (p : Pin) (s : Lines) :
    ((s.dmGpioRequest c label p).1 ≠ 0 ∧ (s.dmGpioRequest c label p).2 = s) ∨
    ((s.dmGpioRequest c label p).1 = 0 ∧ s.name p = none ∧
      (s.dmGpioRequest c label p).2.name = Function.update s.name p (some label)) := by
  rw [Lines.dmGpioRequest]
  by_cases hused : (s.name p).isSome = true
  · rw [if_pos hused]
    exact Or.inl ⟨(by decide : -EBUSY ≠ 0), rfl⟩
  rw [if_neg hused]
  by_cases hdup : (!c.strdup) = true
  · rw [if_pos hdup]
    exact Or.inl ⟨(by decide : -ENOMEM ≠ 0), rfl⟩
  rw [if_neg hdup]
  by_cases hreq : c.request.1 = 0
  · rw [if_neg (not_not_intro hreq)]
    refine Or.inr ⟨rfl, ?_, rfl⟩
    rwa [Bool.not_eq_true, Option.isSome_eq_false_iff, Option.isNone_iff_eq_none] at hused
  · rw [if_pos hreq]
    exact Or.inl ⟨hreq, rfl⟩

section Vector

variable {gpioNumArray : Nat → BitVec 32} {calls : Nat → Calls} {label : Nat → String} {i : Nat}

theorem gpioFree_added (hrfree : ∀ p, (d.rfree p).1 = 0) {gpio : BitVec 32}
    (hgpio : d.toDevice gpio = some p) (h : Added (pins ++ [p]) s₀.name s.name) :
    Added pins s₀.name (s.gpioFree d gpio).2.name := by
  have hheld := h.held p (List.mem_append_right pins (List.mem_singleton.mpr rfl))
  have hsome : ¬ (s.name p).isNone = true := by
    rw [Option.isNone_iff_eq_none]
    intro hnone
    rw [hnone] at hheld
    cases hheld
  have hfreed : (s.gpioFree d gpio).2 = s.setName p none := by
    rw [Lines.gpioFree, hgpio]
    dsimp only
    rw [Lines.dmGpioFree, if_neg hsome, if_neg (not_not_intro (hrfree p))]
  rw [hfreed]
  exact h.erase_last

theorem freeBefore_name (hrfree : ∀ p, (d.rfree p).1 = 0) (h : Added pins s₀.name s.name)
    (hpins : pins.map some = (List.range i).map fun j => d.toDevice (gpioNumArray j)) :
    (s.freeBefore d gpioNumArray i).name = s₀.name := by
  induction i generalizing pins s with
  | zero =>
    have hnil : pins = [] := List.map_eq_nil_iff.mp hpins
    subst hnil
    exact funext fun p => h.rest p List.not_mem_nil
  | succ i ih =>
    rw [List.range_succ, List.map_append, List.map_singleton] at hpins
    obtain ⟨init, last, rfl, hinit, hlast⟩ := List.map_eq_append_iff.mp hpins
    obtain ⟨p, rfl, hp⟩ := List.map_eq_singleton_iff.mp hlast
    exact ih (gpioFree_added hrfree hp.symm h) hinit

theorem gpioDirectionInput_name (c : Calls) (gpio : BitVec 32) (s : Lines) :
    (s.gpioDirectionInput d c gpio).2.name = s.name := by
  rw [Lines.gpioDirectionInput]
  cases d.toDevice gpio with
  | none => rfl
  | some p => rfl

/-- **The loop of `gpio_claim_vector`** gives back what it has claimed if it fails. -/
theorem claimFrom_name (hrfree : ∀ p, (d.rfree p).1 = 0) (n : Nat) (h : Added pins s₀.name s.name)
    (hpins : pins.map some = (List.range i).map fun j => d.toDevice (gpioNumArray j))
    (hneg : (s.claimFrom d gpioNumArray calls label n i).1 < 0) :
    (s.claimFrom d gpioNumArray calls label n i).2.name = s₀.name := by
  induction n generalizing pins s i with
  | zero => exact absurd hneg (Int.lt_irrefl 0)
  | succ n ih =>
    rw [Lines.claimFrom] at hneg ⊢
    by_cases hend : gpioNumArray i = -1#32
    · rw [if_pos hend] at hneg
      exact absurd hneg (Int.lt_irrefl 0)
    rw [if_neg hend] at hneg ⊢
    dsimp only at hneg ⊢
    cases hgpio : d.toDevice (gpioNumArray i) with
    | none =>
      have hreq : s.gpioRequest d (calls i) (label i) (gpioNumArray i) = (-ENOENT, s) := by
        rw [Lines.gpioRequest, hgpio]
      rw [hreq, if_pos (by decide : -ENOENT ≠ 0)]
      exact freeBefore_name hrfree h hpins
    | some p =>
      have hreq : s.gpioRequest d (calls i) (label i) (gpioNumArray i) =
          s.dmGpioRequest (calls i) (label i) p := by
        rw [Lines.gpioRequest, hgpio]
      rw [hreq] at hneg ⊢
      rcases dmGpioRequest_cases (calls i) (label i) p s with ⟨hne, hstate⟩ | ⟨hzero, hfree, hname⟩
      · rw [if_pos hne, hstate]
        exact freeBefore_name hrfree h hpins
      rw [if_neg (not_not_intro hzero)] at hneg ⊢
      have hadded : Added (pins ++ [p]) s₀.name ((s.dmGpioRequest (calls i) (label i) p).2
          |>.gpioDirectionInput d (calls i) (gpioNumArray i)).2.name := by
        rw [gpioDirectionInput_name, hname]
        exact h.concat hfree (label i)
      by_cases hdir : ((s.dmGpioRequest (calls i) (label i) p).2.gpioDirectionInput d (calls i)
          (gpioNumArray i)).1 = 0
      · rw [if_neg (not_not_intro hdir)] at hneg ⊢
        refine ih hadded ?_ hneg
        rw [List.map_append, hpins, List.range_succ, List.map_append, List.map_singleton,
          List.map_singleton, hgpio]
      · rw [if_pos hdir]
        exact freeBefore_name hrfree (gpioFree_added hrfree hgpio hadded) hpins

/-- **`gpio_claim_vector` is all or nothing**, as long as the drivers can give lines back. -/
theorem sameRequested_claimVector (hrfree : ∀ p, (d.rfree p).1 = 0)
    (hneg : (s.gpioClaimVector d gpioNumArray calls label).1 < 0) :
    SameRequested s (s.gpioClaimVector d gpioNumArray calls label).2 := by
  have hname := claimFrom_name (i := 0) hrfree 32 (Added.nil s.name) rfl hneg
  intro p
  rw [Lines.gpioClaimVector, hname]

end Vector

/-- **When the requests are all or nothing.** -/
theorem allOrNothing_iff (d : Devices) (s : Lines) :
    (∀ l maxCount flags, ListAllOrNothing s (s.gpioRequestListByNameNodev d l maxCount flags) ↔
      Unobstructed d l.entries flags maxCount s) ∧
    (∀ l index flags, ((s.gpioRequestByName d l index flags).1 < 0 →
        SameRequested s (s.gpioRequestByName d l index flags).2.2) ↔
      ((l.entries index).obtain d s.used = 0 → (l.entries index).configure d flags = 0)) ∧
    ((∀ p, (d.rfree p).1 = 0) → ∀ gpioNumArray calls label,
      (s.gpioClaimVector d gpioNumArray calls label).1 < 0 →
        SameRequested s (s.gpioClaimVector d gpioNumArray calls label).2) :=
  ⟨fun l maxCount flags => listAllOrNothing_iff d l maxCount flags s,
    fun l index flags => byName_iff d l index flags s,
    fun hrfree _ _ _ hneg => sameRequested_claimVector hrfree hneg⟩

/-! ### One line twice -/

def eightLines : Devices where
  ops _ := ⟨.directions, 8, none⟩
  rfree _ := ⟨0, by decide⟩
  toDevice gpio := if gpio.toNat < 8 then some ⟨0, gpio.toNat⟩ else none

/-- No line is requested. -/
def unrequested : Lines where
  name _ := none
  line _ := ⟨false, false⟩

def granted : Calls := ⟨true, ⟨0, by decide⟩, ⟨0, by decide⟩⟩

def sameLineTwice : GpioList where
  nodename := "panel"
  listName := "enable-gpios"
  entries i :=
    { parse := if i < 2 then ⟨0, by decide⟩ else ⟨-ENOENT, by decide⟩
      args := [3#32, 0#32]
      getDevice := ⟨0, by decide⟩
      dev := 0
      calls := granted }

/-- The vector that claims the line 3 twice gives it back. -/
theorem allOrNothing_sameNumber :
    (unrequested.gpioClaimVector eightLines (fun _ => 3#32) (fun _ => granted) fun _ => "id").1 =
        -EBUSY ∧
      SameRequested unrequested (unrequested.gpioClaimVector eightLines (fun _ => 3#32)
        (fun _ => granted) fun _ => "id").2 :=
  ⟨by decide +kernel, (allOrNothing_iff eightLines unrequested).2.2 (fun _ => rfl) _ _ _
    (by decide +kernel)⟩

/-- **The list keeps it.** -/
theorem not_allOrNothing_sameLine :
    ¬ ListAllOrNothing unrequested
      (unrequested.gpioRequestListByNameNodev eightLines sameLineTwice 4 gpiodIsOut) := by
  intro h
  have hkept := h.error (by decide +kernel) ⟨0, 3⟩
  revert hkept
  decide +kernel

end RealtekIpcam.Uboot.GpioLists
