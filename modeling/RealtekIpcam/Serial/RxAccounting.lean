import RealtekIpcam.Serial.Receiver

/-!
# What an access to the receiver accounts for

Reading LSR destroys what it shows, so what the driver knows of it is in the status that it has just
read, in `lsr_saved_flags` and in its counters.  Each access and each piece of bookkeeping is judged
by the deficit (`Loses`): saving a status beside flags that are held, taking a character with it, or
dropping it.

The flags of a character and those that are held are apart: once its errors have been read, the
front character has none to show, until it is popped and the flags with it.  So only an overrun can
be shown twice (`Keeps`), and only a framing error can be hidden, behind a parity error of the same
character (`Counts`).
-/

namespace RealtekIpcam.Serial

open Losses

/-- Sysrq is off: neither a break nor a character is taken by it. -/
structure SysrqOff (tty : SerialTty) : Prop where
  handleBreak : ∀ p, tty.handleBreak p = false
  prepareSysrqChar : ∀ p ch, tty.prepareSysrqChar p ch = false

/-! ## The counters -/

/-- What `serial8250_read_char` counts for the bits of LSR that it goes by: of a parity and a
framing error of one character, only the first. -/
def Indication.counted : Indication → BitVec 8 → Nat
  | .frame, lsr => if Any lsr lsrFe ∧ ¬ Any lsr lsrPe ∧ ¬ Any lsr lsrBi then 1 else 0
  | i, lsr => i.shows lsr

theorem any_and {w : Nat} {v mask mask' : BitVec w} (h : mask &&& mask' = mask') :
    Any (v &&& mask) mask' ↔ Any v mask' := by
  rw [Any, Any, BitVec.and_assoc, h]

theorem any_brkErrorBits {lsr : BitVec 8} :
    Any lsr lsrBrkErrorBits ↔ Any lsr lsrBi ∨ Any lsr lsrPe ∨ Any lsr lsrFe ∨ Any lsr lsrOe := by
  have hmask : lsrBrkErrorBits = lsrBi ||| (lsrPe ||| (lsrFe ||| lsrOe)) := by decide
  rw [hmask, any_mask_or, any_mask_or, any_mask_or]

theorem accountErrors_errors {tty : SerialTty} (hoff : SysrqOff tty) (p : Port) (lsr : BitVec 8)
    (i : Indication) :
    (Sys.accountErrors tty p lsr).1.errors i = p.icount.errors i + i.counted lsr ∧
      (Sys.accountErrors tty p lsr).2.2.2 = false := by
  have hbreak : ¬ (Any lsr lsrBi ∧ tty.handleBreak p = true) := by
    rw [hoff.handleBreak p]
    exact fun h => Bool.false_ne_true h.2
  have hoe : Any (lsr &&& ~~~(lsrFe ||| lsrPe)) lsrOe ↔ Any lsr lsrOe := any_and (by decide)
  unfold Sys.accountErrors
  by_cases hany : Any lsr lsrBrkErrorBits
  · rw [if_pos hany]
    simp only [if_neg hbreak, and_true]
    by_cases hbi : Any lsr lsrBi <;> by_cases hpe : Any lsr lsrPe <;>
      by_cases hfe : Any lsr lsrFe <;> by_cases ho : Any lsr lsrOe <;> cases i <;>
      simp [Indication.counted, Indication.shows, Icount.errors, hbi, hpe, hfe, ho, hoe]
  · rw [if_neg hany]
    rw [any_brkErrorBits, not_or, not_or, not_or] at hany
    obtain ⟨hbi, hpe, hfe, ho⟩ := hany
    cases i <;>
      simp [Indication.counted, Indication.shows, hbi, hpe, hfe, ho]

/-! ## Flags that are merged -/

theorem any_charErrors {lsr : BitVec 8} :
    Any lsr charErrors ↔ Any lsr lsrBi ∨ Any lsr lsrPe ∨ Any lsr lsrFe := by
  rw [charErrors, any_mask_or, any_mask_or, or_assoc]

/-- A character is taken with the status `lsr` while `saved` is held: each overrun is shown by one
of them only, and a parity error does not hide a framing error. -/
def Counts (saved lsr : BitVec 8) : Prop :=
  ¬ (Any saved lsrOe ∧ Any lsr lsrOe) ∧
    (Any (lsr ||| saved) lsrPe → Any (lsr ||| saved) lsrFe → Any (lsr ||| saved) lsrBi)

instance (saved lsr : BitVec 8) : Decidable (Counts saved lsr) := instDecidableAnd

/-- The status is saved while `saved` is held: each overrun is shown by one of them only. -/
def Keeps (saved lsr : BitVec 8) : Prop := ¬ (Any saved lsrOe ∧ Any lsr lsrOe)

instance (saved lsr : BitVec 8) : Decidable (Keeps saved lsr) := instDecidableNot

/-- Only one of the flags `saved` and `lsr` shows the errors of a character. -/
def Apart (saved lsr : BitVec 8) : Prop := ¬ Any saved charErrors ∨ ¬ Any lsr charErrors

theorem not_any_charErrors {lsr : BitVec 8} (h : ¬ Any lsr charErrors) :
    ¬ Any lsr lsrBi ∧ ¬ Any lsr lsrPe ∧ ¬ Any lsr lsrFe := by
  rw [any_charErrors, not_or, not_or] at h
  exact h

theorem counted_or {a b : BitVec 8} (hb : ¬ Any b charErrors) (i : Indication) :
    i.counted (a ||| b) =
      if i = .overrun then (if Any a lsrOe ∨ Any b lsrOe then 1 else 0) else i.counted a := by
  obtain ⟨hbi, hpe, hfe⟩ := not_any_charErrors hb
  cases i <;> simp [Indication.counted, Indication.shows, any_or, hbi, hpe, hfe]

theorem shows_of_plain {b : BitVec 8} (hb : ¬ Any b charErrors) (i : Indication) :
    i.shows b = if i = .overrun then (if Any b lsrOe then 1 else 0) else 0 := by
  obtain ⟨hbi, hpe, hfe⟩ := not_any_charErrors hb
  cases i <;> simp [Indication.shows, hbi, hpe, hfe]

/-- The two ways to lose an indication: a framing error behind a parity error, and an overrun that
both flags show. -/
theorem counted_or_add {a b : BitVec 8} (hb : ¬ Any b charErrors) (i : Indication) :
    i.counted (a ||| b) +
        ((if i = .frame ∧ Any a lsrFe ∧ Any a lsrPe ∧ ¬ Any a lsrBi then 1 else 0) +
          (if i = .overrun ∧ Any a lsrOe ∧ Any b lsrOe then 1 else 0)) =
      i.shows a + i.shows b := by
  rw [counted_or hb, shows_of_plain hb]
  by_cases hoa : Any a lsrOe <;> by_cases hob : Any b lsrOe <;> by_cases hbi : Any a lsrBi <;>
    by_cases hpe : Any a lsrPe <;> by_cases hfe : Any a lsrFe <;>
    cases i <;> simp [Indication.counted, Indication.shows, hoa, hob, hbi, hpe, hfe]

theorem counts_comm {a b : BitVec 8} : Counts a b ↔ Counts b a := by
  rw [Counts, Counts, BitVec.or_comm, and_comm (a := Any a lsrOe)]

theorem counts_iff_of_plain {a b : BitVec 8} (hb : ¬ Any b charErrors) :
    Counts b a ↔
      ¬ (Any a lsrOe ∧ Any b lsrOe) ∧ ¬ (Any a lsrFe ∧ Any a lsrPe ∧ ¬ Any a lsrBi) := by
  obtain ⟨hbi, hpe, hfe⟩ := not_any_charErrors hb
  simp only [Counts, any_or, hbi, hpe, hfe, or_false]
  refine and_congr (not_congr and_comm) ⟨fun h hlost => ?_, fun h hpe' hfe' => ?_⟩
  · exact hlost.2.2 (h hlost.2.1 hlost.1)
  · by_contra hbi'
    exact h ⟨hfe', hpe', hbi'⟩

theorem counted_plain {a b : BitVec 8} (hb : ¬ Any b charErrors) :
    (∀ i : Indication, i.counted (a ||| b) ≤ i.shows a + i.shows b) ∧
      ((∀ i : Indication, i.counted (a ||| b) = i.shows a + i.shows b) ↔ Counts b a) := by
  have hadd (i : Indication) := counted_or_add hb i (a := a)
  refine ⟨fun i => (hadd i) ▸ Nat.le_add_right _ _, ?_⟩
  rw [counts_iff_of_plain hb]
  constructor
  · intro heq
    have hframe := hadd .frame
    have hover := hadd .overrun
    rw [heq .frame, Nat.add_eq_left, Nat.add_eq_zero_iff] at hframe
    rw [heq .overrun, Nat.add_eq_left, Nat.add_eq_zero_iff] at hover
    refine ⟨fun hlost => ?_, fun hlost => ?_⟩
    · exact absurd hover.2 (by rw [if_pos ⟨rfl, hlost⟩]; exact one_ne_zero)
    · exact absurd hframe.1 (by rw [if_pos ⟨rfl, hlost⟩]; exact one_ne_zero)
  · rintro ⟨hover, hframe⟩ i
    rw [← hadd i, if_neg fun hlost => hframe hlost.2, if_neg fun hlost => hover hlost.2]
    rfl

/-- **Taking a character** counts what the status and the saved flags show, unless it hides a
framing error or an overrun. -/
theorem counted_apart {saved lsr : BitVec 8} (h : Apart saved lsr) :
    (∀ i : Indication, i.counted (lsr ||| saved) ≤ i.shows saved + i.shows lsr) ∧
      ((∀ i : Indication, i.counted (lsr ||| saved) = i.shows saved + i.shows lsr) ↔
        Counts saved lsr) := by
  rcases h with hsaved | hlsr
  · simp only [Nat.add_comm (Indication.shows _ saved)]
    exact counted_plain hsaved
  · rw [BitVec.or_comm, counts_comm]
    exact counted_plain hlsr

theorem shows_saved (i : Indication) (saved lsr : BitVec 8) :
    i.shows (saved ||| (lsr &&& lsrSaveFlags)) = i.shows (saved ||| lsr) := by
  have hbi : Any (lsr &&& lsrSaveFlags) lsrBi ↔ Any lsr lsrBi := any_and (by decide)
  have hpe : Any (lsr &&& lsrSaveFlags) lsrPe ↔ Any lsr lsrPe := any_and (by decide)
  have hfe : Any (lsr &&& lsrSaveFlags) lsrFe ↔ Any lsr lsrFe := any_and (by decide)
  have hoe : Any (lsr &&& lsrSaveFlags) lsrOe ↔ Any lsr lsrOe := any_and (by decide)
  cases i <;> simp only [Indication.shows, any_or, hbi, hpe, hfe, hoe]

theorem shows_or_add {a b : BitVec 8} (hb : ¬ Any b charErrors) (i : Indication) :
    i.shows (a ||| b) + (if i = .overrun ∧ Any a lsrOe ∧ Any b lsrOe then 1 else 0) =
      i.shows a + i.shows b := by
  rw [shows_of_plain hb]
  obtain ⟨hbi, hpe, hfe⟩ := not_any_charErrors hb
  by_cases hoa : Any a lsrOe <;> by_cases hob : Any b lsrOe <;>
    cases i <;> simp [Indication.shows, any_or, hbi, hpe, hfe, hoa, hob]

theorem shows_plain {a b : BitVec 8} (hb : ¬ Any b charErrors) :
    (∀ i : Indication, i.shows (a ||| b) ≤ i.shows a + i.shows b) ∧
      ((∀ i : Indication, i.shows (a ||| b) = i.shows a + i.shows b) ↔ Keeps a b) := by
  have hadd (i : Indication) := shows_or_add hb i (a := a)
  refine ⟨fun i => (hadd i) ▸ Nat.le_add_right _ _, fun heq hboth => ?_, fun hkeeps i => ?_⟩
  · have hover := hadd .overrun
    rw [heq .overrun, Nat.add_eq_left, if_pos ⟨rfl, hboth⟩] at hover
    exact one_ne_zero hover
  · rw [← hadd i, if_neg fun hlost => hkeeps hlost.2]
    rfl

/-- **Saving a status** keeps what it shows beside the flags held already, unless both show an
overrun. -/
theorem shows_apart {saved lsr : BitVec 8} (h : Apart saved lsr) :
    (∀ i : Indication, i.shows (saved ||| lsr) ≤ i.shows saved + i.shows lsr) ∧
      ((∀ i : Indication, i.shows (saved ||| lsr) = i.shows saved + i.shows lsr) ↔
        Keeps saved lsr) := by
  rcases h with hsaved | hlsr
  · have hcomm : Keeps saved lsr ↔ Keeps lsr saved := not_congr and_comm
    rw [BitVec.or_comm, hcomm]
    simp only [Nat.add_comm (Indication.shows _ saved)]
    exact shows_plain hsaved
  · exact shows_plain hlsr

theorem shows_eq_zero_iff {lsr : BitVec 8} :
    (∀ i : Indication, i.shows lsr = 0) ↔ ¬ Any lsr lsrBrkErrorBits := by
  rw [any_brkErrorBits]
  constructor
  · intro hzero hany
    have hbrk := hzero .brk
    have hpar := hzero .parity
    have hframe := hzero .frame
    have hover := hzero .overrun
    simp only [Indication.shows, ite_eq_right_iff, one_ne_zero, imp_false] at hbrk hpar hframe hover
    rcases hany with h | h | h | h
    · exact hbrk h
    · exact hpar ⟨h, hbrk⟩
    · exact hframe ⟨h, hbrk⟩
    · exact hover h
  · rw [not_or, not_or, not_or]
    rintro ⟨hbi, hpe, hfe, hoe⟩ i
    cases i <;> simp [Indication.shows, hbi, hpe, hfe, hoe]

namespace Sys

variable {C : Chip} {tty : SerialTty} {s : Sys C} {lsr : BitVec 8}

/-- **`serial8250_read_char`** pops one byte, hands it on, and counts what LSR and the saved flags
show. -/
structure TakesChar (s t : Sys C) (lsr : BitVec 8) : Prop where
  chip : t.chip = (s.serialIn .data).2.chip
  received : t.received.map Received.ch = s.received.map Received.ch ++ [(s.serialIn .data).1]
  saved : t.port.lsrSavedFlags = 0#8
  errors : ∀ i, t.port.icount.errors i =
    s.port.icount.errors i + i.counted (lsr ||| s.port.lsrSavedFlags)

theorem readChar_takesChar (hoff : SysrqOff tty) (hdr : Any lsr lsrDr) :
    TakesChar s (s.readChar tty lsr) lsr := by
  let p : Port := { s.port with
    icount := { s.port.icount with rx := s.port.icount.rx + 1 }, lsrSavedFlags := 0#8 }
  have haccount := accountErrors_errors hoff p (lsr ||| s.port.lsrSavedFlags)
  have hread : s.readChar tty lsr =
      { (s.serialIn .data).2 with
        port := { p with
          icount := (accountErrors tty p (lsr ||| s.port.lsrSavedFlags)).1 }
        received := s.received ++
          [⟨(accountErrors tty p (lsr ||| s.port.lsrSavedFlags)).2.1, (s.serialIn .data).1,
            (accountErrors tty p (lsr ||| s.port.lsrSavedFlags)).2.2.1⟩] } := by
    have hbreak : (accountErrors tty p (lsr ||| s.port.lsrSavedFlags)).2.2.2 ≠ true := by
      rw [(haccount .brk).2]
      exact nofun
    rw [readChar]
    simp only [if_pos hdr]
    refine (if_neg hbreak).trans (if_neg ?_)
    rw [hoff.prepareSysrqChar]
    exact nofun
  rw [hread]
  exact ⟨rfl, List.map_append, rfl, fun i => (haccount i).1.trans (by cases i <;> rfl)⟩

end Sys

/-! ## What is missing -/

/-- A port and its receiver, with a status that has been read and not been dealt with yet. -/
structure Reading (C : Chip) where
  lsr : BitVec 8
  sys : Sys (receiving C)

variable {C : Chip} {x y : Reading C} {s t u : Sys (receiving C)} {lsr : BitVec 8}

/-- Deficits are compared kind by kind. -/
instance : PartialOrder (Option Indication → ℤ) :=
  @Pi.partialOrder _ (fun _ => ℤ) fun _ => Int.instLinearOrder.toPartialOrder

/-- What has been read and not been accounted for: bytes, and indications of each kind. -/
def deficit (x : Reading C) : Option Indication → ℤ
  | none => x.sys.chip.2.popped.length - x.sys.received.length
  | some i => x.sys.chip.2.reported i -
      (x.sys.port.icount.errors i + i.shows x.sys.port.lsrSavedFlags + i.shows x.lsr)

/-- What holds at every access.  Flags of a character, saved or just read, are those of the front
character, whose error bits have been cleared by reading them. -/
structure Booked (x : Reading C) : Prop where
  unlatched : x.sys.Unlatched
  bytes : (x.sys.received.map Received.ch).Sublist x.sys.chip.2.popped
  held : Any x.sys.port.lsrSavedFlags charErrors → x.sys.chip.2.Settled
  front : Any x.lsr (lsrDr ||| charErrors) → x.sys.chip.2.Settled
  apart : Apart x.sys.port.lsrSavedFlags x.lsr

theorem deficit_le (hbytes : deficit x none ≤ deficit y none)
    (hcounts : ∀ i, deficit x (some i) ≤ deficit y (some i)) : deficit x ≤ deficit y := by
  intro j
  cases j with
  | none => exact hbytes
  | some i => exact hcounts i

theorem deficit_eq_iff : deficit y = deficit x ↔
    deficit y none = deficit x none ∧ ∀ i, deficit y (some i) = deficit x (some i) :=
  funext_iff.trans Option.forall

theorem deficit_idle (s : Sys (receiving C)) (i : Indication) : deficit ⟨0#8, s⟩ (some i) =
    s.chip.2.reported i - (s.port.icount.errors i + i.shows s.port.lsrSavedFlags) := by
  have hzero : i.shows 0#8 = 0 := shows_eq_zero_iff.mpr (by decide) i
  simp only [deficit, hzero]
  omega

theorem Booked.idle (hunlatched : s.Unlatched)
    (hbytes : (s.received.map Received.ch).Sublist s.chip.2.popped)
    (hheld : Any s.port.lsrSavedFlags charErrors → s.chip.2.Settled) : Booked ⟨0#8, s⟩ := by
  have hplain : ¬ Any 0#8 charErrors := by decide
  have hnone : ¬ Any 0#8 (lsrDr ||| charErrors) := by decide
  exact ⟨hunlatched, hbytes, hheld, fun hfront => absurd hfront hnone, .inr hplain⟩

/-- With nothing in flight, the driver has accounted for the receiver exactly if nothing is missing
that the counters did not start with. -/
theorem accounted_iff {c₀ : Icount} (h : Booked ⟨0#8, s⟩) : Accounted c₀ s ↔
    deficit ⟨0#8, s⟩ none = 0 ∧ ∀ i, deficit ⟨0#8, s⟩ (some i) = -c₀.errors i := by
  have hlen : (s.received.map Received.ch).length = s.received.length := List.length_map _
  constructor
  · rintro ⟨hbytes, hcounts⟩
    refine ⟨?_, fun i => ?_⟩
    · simp only [deficit, ← hbytes, hlen, sub_self]
    · have hcount := hcounts i
      rw [deficit_idle]
      omega
  · rintro ⟨hbytes, hcounts⟩
    refine ⟨h.bytes.eq_of_length ?_, fun i => ?_⟩
    · simp only [deficit] at hbytes
      show (s.received.map Received.ch).length = s.chip.2.popped.length
      rw [hlen]
      omega
    · have hcount := hcounts i
      rw [deficit_idle] at hcount
      omega

/-! ## Waiting -/

/-- The receiver is left alone: the line delivers, and nothing is read. -/
structure Waits (s t : Sys (receiving C)) : Prop where
  unlatched : s.Unlatched → t.Unlatched
  saved : t.port.lsrSavedFlags = s.port.lsrSavedFlags
  errors : t.port.icount.errors = s.port.icount.errors
  received : t.received = s.received
  popped : t.chip.2.popped = s.chip.2.popped
  statuses : t.chip.2.statuses = s.chip.2.statuses
  fifo : ∃ more, t.chip.2.fifo = s.chip.2.fifo ++ more

theorem Waits.settled (h : Waits s t) (hs : s.chip.2.Settled) : t.chip.2.Settled := by
  obtain ⟨more, hmore⟩ := h.fifo
  exact hs.of_append hmore

theorem Waits.loses (h : Waits s t) (lsr : BitVec 8) :
    Loses Booked deficit ⟨lsr, s⟩ ⟨lsr, t⟩ True := by
  refine Loses.of_eq (fun hs => ⟨h.unlatched hs.unlatched, ?_, ?_, ?_, ?_⟩) ?_
  · show (t.received.map Received.ch).Sublist t.chip.2.popped
    rw [h.received, h.popped]
    exact hs.bytes
  · intro hheld
    rw [h.saved] at hheld
    exact h.settled (hs.held hheld)
  · exact fun hfront => h.settled (hs.front hfront)
  · show Apart t.port.lsrSavedFlags lsr
    rw [h.saved]
    exact hs.apart
  · rw [deficit_eq_iff]
    refine ⟨?_, fun i => ?_⟩
    · simp only [deficit, h.popped, h.received]
    · simp only [deficit, Receiver.reported, h.statuses, h.saved, h.errors]

theorem Waits.refl (s : Sys (receiving C)) : Waits s s :=
  ⟨id, rfl, rfl, rfl, rfl, rfl, [], (List.append_nil _).symm⟩

theorem Waits.trans (h : Waits s t) (h' : Waits t u) : Waits s u := by
  obtain ⟨more, hmore⟩ := h.fifo
  obtain ⟨more', hmore'⟩ := h'.fifo
  refine ⟨fun hs => h'.unlatched (h.unlatched hs), h'.saved.trans h.saved,
    h'.errors.trans h.errors, h'.received.trans h.received, h'.popped.trans h.popped,
    h'.statuses.trans h.statuses, more ++ more', ?_⟩
  rw [hmore', hmore, List.append_assoc]

theorem waits_ite {c : Prop} [Decidable c] (h : Waits s t) (h' : Waits s u) :
    Waits s (if c then t else u) := by
  split
  · exact h
  · exact h'

theorem waits_setPort {p : Port} (hsaved : p.lsrSavedFlags = s.port.lsrSavedFlags)
    (herrors : p.icount.errors = s.port.icount.errors) : Waits s (s.setPort p) :=
  ⟨id, hsaved, herrors, rfl, rfl, rfl, [], (List.append_nil _).symm⟩

theorem waits_serialIn {r : Reg} (hdata : r ≠ .data) (hlsr : r ≠ .lsr) :
    Waits s (s.serialIn r).2 := by
  have hchip : (s.serialIn r).2.chip.2 = s.chip.2.arrive := by
    cases r with
    | data => exact absurd rfl hdata
    | lsr => exact absurd rfl hlsr
    | _ => rfl
  refine ⟨(Sys.quiet_serialIn s r).unlatched, rfl, rfl, rfl, ?_, ?_, ?_⟩
  · rw [hchip, Receiver.arrive_popped]
  · rw [hchip, Receiver.arrive_statuses]
  · rw [hchip]
    exact s.chip.2.arrive_fifo

theorem waits_serialOut {r : Reg} (v : BitVec 8) (hlcr : r ≠ .lcr) :
    Waits s (s.serialOut r v) := by
  refine ⟨fun hs => ?_, rfl, rfl, rfl, rfl, rfl, [], (List.append_nil _).symm⟩
  rw [Sys.Unlatched, Sys.serialOut, (receiving C).lcr_write, if_neg hlcr]
  exact hs

/-! ## The accesses to the receiver -/

theorem serialIn_lsr (s : Sys (receiving C)) : ∃ line,
    (s.serialIn .lsr).1 = s.chip.2.arrive.status line ∧
      (s.serialIn .lsr).2.chip.2 = (s.chip.2.arrive.report line).2 :=
  ⟨(C.read s.chip.1 .lsr).1, rfl, rfl⟩

theorem serialIn_data (hs : s.Unlatched) : ∃ empty,
    (s.serialIn .data).1 = (s.chip.2.arrive.pop empty).1 ∧
      (s.serialIn .data).2.chip.2 = (s.chip.2.arrive.pop empty).2 := by
  have hlatch : ¬ Latched (C.lcr s.chip.1) := hs
  refine ⟨(C.read s.chip.1 .data).1, ?_, ?_⟩
  · show (if Latched (C.lcr s.chip.1) then _ else _ : BitVec 8 × C.State × Receiver).1 = _
    rw [if_neg hlatch]
  · show (if Latched (C.lcr s.chip.1) then _ else _ : BitVec 8 × C.State × Receiver).2.2 = _
    rw [if_neg hlatch]

theorem loses_serialIn_lsr (s : Sys (receiving C)) :
    Loses Booked deficit ⟨0#8, s⟩ ⟨(s.serialIn .lsr).1, (s.serialIn .lsr).2⟩ True := by
  obtain ⟨line, hstatus, hchip⟩ := serialIn_lsr s
  obtain ⟨more, hmore⟩ := s.chip.2.arrive_fifo
  have hsettled (hne : s.chip.2.arrive.fifo ≠ []) : (s.serialIn .lsr).2.chip.2.Settled := by
    rw [hchip]
    exact Receiver.settled_report hne
  refine Loses.of_eq (fun hs => ?_) ?_
  · have hkept : Any s.port.lsrSavedFlags charErrors → s.chip.2.arrive.Settled :=
      fun hheld => (hs.held hheld).of_append hmore
    refine ⟨(Sys.quiet_serialIn s .lsr).unlatched hs.unlatched, ?_, ?_, ?_, ?_⟩
    · show (s.received.map Received.ch).Sublist (s.serialIn .lsr).2.chip.2.popped
      rw [hchip]
      show (s.received.map Received.ch).Sublist s.chip.2.arrive.popped
      rw [Receiver.arrive_popped]
      exact hs.bytes
    · exact fun hheld => hsettled (hkept hheld).ne_nil
    · intro hfront
      refine hsettled ?_
      rw [hstatus, any_mask_or] at hfront
      rcases hfront with hdr | herr
      · exact Receiver.any_status_dr.mp hdr
      · exact (Receiver.any_status_charErrors herr).1
    · show Apart s.port.lsrSavedFlags (s.serialIn .lsr).1
      rw [hstatus]
      by_cases hheld : Any s.port.lsrSavedFlags charErrors
      · exact .inr fun herr => (Receiver.any_status_charErrors herr).2 (hkept hheld)
      · exact .inl hheld
  · rw [deficit_eq_iff]
    refine ⟨?_, fun i => ?_⟩
    · simp only [deficit, hchip]
      simp only [Receiver.report, Receiver.arrive_popped]
      rfl
    · rw [deficit_idle]
      simp only [deficit, hchip, hstatus]
      simp only [Receiver.report, Receiver.reported, List.map_append, List.sum_append,
        Receiver.arrive_statuses, List.map_cons, List.map_nil, List.sum_singleton]
      show _ - ((s.port.icount.errors i : ℤ) + i.shows s.port.lsrSavedFlags + _) = _
      omega

theorem loses_saveLsr (s : Sys (receiving C)) (lsr : BitVec 8) :
    Loses Booked deficit ⟨lsr, s⟩ ⟨0#8, s.saveLsr lsr⟩ (Keeps s.port.lsrSavedFlags lsr) := by
  intro hs
  have hapart : Apart s.port.lsrSavedFlags lsr := hs.apart
  obtain ⟨hle, hiff⟩ := shows_apart hapart
  have hcount (i : Indication) : deficit ⟨0#8, s.saveLsr lsr⟩ (some i) =
      s.chip.2.reported i - (s.port.icount.errors i + i.shows (s.port.lsrSavedFlags ||| lsr)) := by
    rw [deficit_idle, ← shows_saved]
    rfl
  refine ⟨Booked.idle hs.unlatched hs.bytes fun hheld => ?_,
    deficit_le (le_refl _) fun i => ?_, ?_⟩
  · have hor : Any (s.port.lsrSavedFlags ||| (lsr &&& lsrSaveFlags)) charErrors := hheld
    rw [any_or, any_and (by decide)] at hor
    rcases hor with hsaved | hlsr
    · exact hs.held hsaved
    · exact hs.front (any_mask_or.mpr (.inr hlsr))
  · have hi := hle i
    rw [hcount]
    simp only [deficit]
    omega
  · rw [deficit_eq_iff, ← hiff]
    refine (and_iff_right rfl).trans (forall_congr' fun i => ?_)
    rw [hcount]
    simp only [deficit]
    omega

/-- What is lost of a character that is taken. -/
theorem loses_takesChar (hdr : Any lsr lsrDr) (h : s.TakesChar t lsr) :
    Loses Booked deficit ⟨lsr, s⟩ ⟨0#8, t⟩ (Counts s.port.lsrSavedFlags lsr) := by
  intro hs
  have hapart : Apart s.port.lsrSavedFlags lsr := hs.apart
  obtain ⟨empty, hbyte, hchip⟩ := serialIn_data hs.unlatched
  obtain ⟨more, hmore⟩ := s.chip.2.arrive_fifo
  have hne : s.chip.2.arrive.fifo ≠ [] :=
    ((hs.front (any_mask_or.mpr (.inl hdr))).of_append hmore).ne_nil
  obtain ⟨c, fifo, hfifo⟩ := List.exists_cons_of_ne_nil hne
  have hpop : s.chip.2.arrive.pop empty = (c.ch, { s.chip.2.arrive with
      fifo := fifo, popped := s.chip.2.popped ++ [c.ch] }) := by
    simp only [Receiver.pop, hfifo, Receiver.arrive_popped]
  have hpopped : t.chip.2.popped = s.chip.2.popped ++ [c.ch] := by
    rw [h.chip, hchip, hpop]
  have hreported (i : Indication) : t.chip.2.reported i = s.chip.2.reported i := by
    rw [h.chip, hchip, hpop]
    simp only [Receiver.reported, Receiver.arrive_statuses]
  have hreceived : t.received.map Received.ch = s.received.map Received.ch ++ [c.ch] := by
    rw [h.received, hbyte, hpop]
  have hlen : t.received.length = s.received.length + 1 := by
    have hlength := congrArg List.length hreceived
    simpa using hlength
  obtain ⟨hle, hiff⟩ := counted_apart hapart
  have hbytes : deficit ⟨0#8, t⟩ none = deficit ⟨lsr, s⟩ none := by
    simp only [deficit, hpopped, hlen, List.length_append, List.length_singleton]
    omega
  have hcount (i : Indication) : deficit ⟨0#8, t⟩ (some i) = s.chip.2.reported i -
      (s.port.icount.errors i + i.counted (lsr ||| s.port.lsrSavedFlags)) := by
    have hzero : i.shows 0#8 = 0 := shows_eq_zero_iff.mpr (by decide) i
    rw [deficit_idle, hreported, h.saved, h.errors i, hzero]
    omega
  refine ⟨Booked.idle ?_ ?_ fun hheld => ?_, deficit_le hbytes.ge fun i => ?_, ?_⟩
  · show ¬ Latched ((receiving C).lcr t.chip)
    rw [h.chip]
    exact (Sys.quiet_serialIn s .data).unlatched hs.unlatched
  · rw [hreceived, hpopped]
    exact hs.bytes.append (List.Sublist.refl [c.ch])
  · rw [h.saved] at hheld
    exact absurd hheld (by decide)
  · have hi := hle i
    rw [hcount]
    simp only [deficit]
    omega
  · rw [deficit_eq_iff, ← hiff]
    refine (and_iff_right hbytes).trans (forall_congr' fun i => ?_)
    rw [hcount]
    simp only [deficit]
    omega

theorem loses_drop (s : Sys (receiving C)) (lsr : BitVec 8) :
    Loses Booked deficit ⟨lsr, s⟩ ⟨0#8, s⟩ (¬ Any lsr lsrBrkErrorBits) := by
  intro hs
  refine ⟨Booked.idle hs.unlatched hs.bytes hs.held, deficit_le (le_refl _) fun i => ?_, ?_⟩
  · rw [deficit_idle]
    simp only [deficit]
    omega
  · rw [deficit_eq_iff, ← shows_eq_zero_iff]
    refine (and_iff_right rfl).trans (forall_congr' fun i => ?_)
    rw [deficit_idle]
    simp only [deficit]
    omega

theorem loses_discard (hempty : s.chip.2.fifo = []) :
    Loses Booked deficit ⟨0#8, s⟩ ⟨0#8, s.discard .data⟩ (s.chip.2.arrive.fifo = []) := by
  intro hs
  obtain ⟨empty, -, hchip⟩ := serialIn_data hs.unlatched
  have hsaved : ¬ Any s.port.lsrSavedFlags charErrors :=
    fun hheld => (hs.held hheld).ne_nil hempty
  have hunlatched := (Sys.quiet_serialIn s .data).unlatched hs.unlatched
  have hchip' : (s.discard .data).chip.2 = (s.chip.2.arrive.pop empty).2 := hchip
  cases hfifo : s.chip.2.arrive.fifo with
  | nil =>
    have hpop : (s.chip.2.arrive.pop empty).2 = s.chip.2.arrive := by
      simp only [Receiver.pop, hfifo]
    rw [hpop] at hchip'
    refine ⟨Booked.idle hunlatched ?_ fun hheld => absurd hheld hsaved, ?_⟩
    · rw [hchip', Receiver.arrive_popped]
      exact hs.bytes
    · have heq : deficit ⟨0#8, s.discard .data⟩ = deficit ⟨0#8, s⟩ := by
        rw [deficit_eq_iff]
        refine ⟨?_, fun i => ?_⟩
        · simp only [deficit, hchip', Receiver.arrive_popped]
          rfl
        · simp only [deficit, Receiver.reported, hchip', Receiver.arrive_statuses]
          rfl
      exact ⟨heq.ge, iff_of_true heq rfl⟩
  | cons c fifo =>
    have hpop : (s.chip.2.arrive.pop empty).2 = { s.chip.2.arrive with
        fifo := fifo, popped := s.chip.2.popped ++ [c.ch] } := by
      simp only [Receiver.pop, hfifo, Receiver.arrive_popped]
    rw [hpop] at hchip'
    have hbytes : deficit ⟨0#8, s.discard .data⟩ none = deficit ⟨0#8, s⟩ none + 1 := by
      simp only [deficit, hchip', List.length_append, List.length_singleton]
      show _ - (s.received.length : ℤ) = _
      omega
    refine ⟨Booked.idle hunlatched ?_ fun hheld => absurd hheld hsaved,
      deficit_le ?_ fun i => ?_, ?_⟩
    · rw [hchip']
      exact hs.bytes.trans (List.sublist_append_left _ _)
    · rw [hbytes]
      omega
    · simp only [deficit, Receiver.reported, hchip', Receiver.arrive_statuses]
      rfl
    · refine iff_of_false (fun heq => ?_) (List.cons_ne_nil c fifo)
      rw [heq] at hbytes
      omega

end RealtekIpcam.Serial
