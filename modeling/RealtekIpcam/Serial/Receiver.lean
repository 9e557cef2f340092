import RealtekIpcam.Lib.Losses
import RealtekIpcam.Serial.TxChars

/-!
# The receiver of a chip

A FIFO of characters, each with the error bits it came with, and an overrun bit.  Reading LSR
reports the error bits of the front character and the overrun bit, and clears them; reading RX pops
the front character.  The line may deliver characters and overruns before any access to the chip.

`receiving` puts such a receiver in front of any other chip, which keeps its other registers, and
the bits of LSR that the receiver does not own.

A driver has accounted for the receiver (`Accounted`) when every byte that it popped has been handed
to the tty layer, in order, and every indication that it read from LSR has been counted, or is held
in `lsr_saved_flags`.  `deficit` measures what is missing.  It grows when something is lost and
never falls.
-/

namespace RealtekIpcam.Serial

open Losses

/-! ## The receiver -/

/-- A received character, with its break, parity and framing error bits. -/
structure RxChar where
  ch : BitVec 8
  bi : Bool := false
  pe : Bool := false
  fe : Bool := false

/-- The error bits of a character, as LSR shows them. -/
def RxChar.errors (c : RxChar) : BitVec 8 :=
  (if c.bi = true then lsrBi else 0#8) ||| (if c.pe = true then lsrPe else 0#8) |||
    (if c.fe = true then lsrFe else 0#8)

/-- What the line delivers. -/
inductive Arrival where
  | char (c : RxChar)
  /-- A character is lost because the FIFO is full. -/
  | overrun

/-- The receiver. -/
structure Receiver where
  fifo : List RxChar
  overrun : Bool
  /-- What the line delivers before each of the next accesses; nothing once the list ends. -/
  schedule : List (List Arrival)
  /-- The bytes that reading RX has popped. -/
  popped : List (BitVec 8) := []
  /-- The values that reading LSR has returned. -/
  statuses : List (BitVec 8) := []

namespace Receiver

variable (r : Receiver)

def deliver : Arrival → Receiver
  | .char c => { r with fifo := r.fifo ++ [c] }
  | .overrun => { r with overrun := true }

/-- The deliveries before an access. -/
def arrive : Receiver :=
  match r.schedule with
  | [] => r
  | arrivals :: schedule => { arrivals.foldl deliver r with schedule := schedule }

/-- The bits of LSR that the receiver does not own. -/
def lineBits : BitVec 8 := lsrFifoe ||| lsrTemt ||| lsrThre

/-- The bits of the front character. -/
def front : BitVec 8 :=
  match r.fifo with
  | [] => 0#8
  | c :: _ => lsrDr ||| c.errors

/-- What LSR shows, where `line` gives the bits that the receiver does not own. -/
def status (line : BitVec 8) : BitVec 8 :=
  r.front ||| (if r.overrun = true then lsrOe else 0#8) ||| (line &&& lineBits)

/-- Reading LSR. -/
def report (line : BitVec 8) : BitVec 8 × Receiver :=
  (r.status line,
    { r with
      fifo := r.fifo.modifyHead fun c => { ch := c.ch }
      overrun := false
      statuses := r.statuses ++ [r.status line] })

/-- Reading RX, which returns `empty` from an empty FIFO. -/
def pop (empty : BitVec 8) : BitVec 8 × Receiver :=
  match r.fifo with
  | [] => (empty, r)
  | c :: fifo => (c.ch, { r with fifo := fifo, popped := r.popped ++ [c.ch] })

end Receiver

/-! ## What the receiver shows -/

theorem any_or {w : Nat} {v v' mask : BitVec w} :
    Any (v ||| v') mask ↔ Any v mask ∨ Any v' mask := by
  rw [Any, Any, Any, BitVec.and_or_distrib_right, ne_eq, BitVec.or_eq_zero_iff]
  exact Classical.not_and_iff_not_or_not

theorem any_mask_or {w : Nat} {v mask mask' : BitVec w} :
    Any v (mask ||| mask') ↔ Any v mask ∨ Any v mask' := by
  rw [Any, Any, Any, BitVec.and_or_distrib_left, ne_eq, BitVec.or_eq_zero_iff]
  exact Classical.not_and_iff_not_or_not

/-- The break, parity and framing bits, which come with a character. -/
def charErrors : BitVec 8 := lsrBi ||| lsrPe ||| lsrFe

namespace Receiver

variable {r : Receiver}

/-- The front character is there, and its error bits have been read. -/
def Settled (r : Receiver) : Prop := ∃ c fifo, r.fifo = c :: fifo ∧ c.errors = 0#8

theorem not_any_line {line mask : BitVec 8} (h : lineBits &&& mask = 0#8) :
    ¬ Any (line &&& lineBits) mask := by
  rw [Any, BitVec.and_assoc, h]
  exact fun hne => hne BitVec.and_zero

theorem any_status_iff_front {line mask : BitVec 8} (hoe : lsrOe &&& mask = 0#8)
    (hline : lineBits &&& mask = 0#8) : Any (r.status line) mask ↔ Any r.front mask := by
  have hoverrun : ¬ Any (if r.overrun = true then lsrOe else 0#8) mask := by
    split
    · exact fun h => h hoe
    · exact fun h => h BitVec.zero_and
  rw [status, any_or, any_or]
  constructor
  · rintro ((h | h) | h)
    · exact h
    · exact absurd h hoverrun
    · exact absurd h (not_any_line hline)
  · exact fun h => .inl (.inl h)

theorem any_status_dr {line : BitVec 8} : Any (r.status line) lsrDr ↔ r.fifo ≠ [] := by
  rw [any_status_iff_front (by decide) (by decide), front]
  cases r.fifo with
  | nil => exact iff_of_false (by decide) fun h => h rfl
  | cons c fifo => exact iff_of_true (any_or.mpr (.inl (by decide))) (List.cons_ne_nil c fifo)

/-- **Errors of a character** are shown while it is at the front, until they have been read. -/
theorem any_status_charErrors {line : BitVec 8} (h : Any (r.status line) charErrors) :
    r.fifo ≠ [] ∧ ¬ r.Settled := by
  rw [any_status_iff_front (by decide) (by decide), front] at h
  cases hfifo : r.fifo with
  | nil =>
    rw [hfifo] at h
    exact absurd h (by decide)
  | cons c fifo =>
    rw [hfifo, any_or] at h
    refine ⟨List.cons_ne_nil c fifo, ?_⟩
    rintro ⟨c', fifo', hcons, hclean⟩
    rw [hfifo, List.cons.injEq] at hcons
    rw [hcons.1, hclean] at h
    exact absurd h (by decide)

theorem settled_report {line : BitVec 8} (h : r.fifo ≠ []) : (r.report line).2.Settled := by
  obtain ⟨c, fifo, hfifo⟩ := List.exists_cons_of_ne_nil h
  refine ⟨{ ch := c.ch }, fifo, ?_, by simp [RxChar.errors]⟩
  show r.fifo.modifyHead _ = _
  rw [hfifo]
  rfl

theorem deliver_foldl (arrivals : List Arrival) (r : Receiver) :
    (∃ more, (arrivals.foldl deliver r).fifo = r.fifo ++ more) ∧
      (arrivals.foldl deliver r).popped = r.popped ∧
      (arrivals.foldl deliver r).statuses = r.statuses := by
  induction arrivals generalizing r with
  | nil => exact ⟨⟨[], (List.append_nil _).symm⟩, rfl, rfl⟩
  | cons a arrivals ih =>
    obtain ⟨⟨more, hmore⟩, hpop, hstat⟩ := ih (r.deliver a)
    rw [List.foldl_cons, hmore, hpop, hstat]
    cases a with
    | char c =>
      refine ⟨⟨c :: more, ?_⟩, rfl, rfl⟩
      show r.fifo ++ [c] ++ more = r.fifo ++ c :: more
      rw [List.append_assoc]
      rfl
    | overrun => exact ⟨⟨more, rfl⟩, rfl, rfl⟩

theorem arrive_fifo (r : Receiver) : ∃ more, r.arrive.fifo = r.fifo ++ more := by
  unfold arrive
  split
  · exact ⟨[], (List.append_nil _).symm⟩
  · exact (deliver_foldl _ r).1

@[simp] theorem arrive_popped (r : Receiver) : r.arrive.popped = r.popped := by
  unfold arrive
  split
  · rfl
  · exact (deliver_foldl _ r).2.1

@[simp] theorem arrive_statuses (r : Receiver) : r.arrive.statuses = r.statuses := by
  unfold arrive
  split
  · rfl
  · exact (deliver_foldl _ r).2.2

theorem Settled.of_append {r' : Receiver} (h : r.Settled) {more : List RxChar}
    (hmore : r'.fifo = r.fifo ++ more) : r'.Settled := by
  obtain ⟨c, fifo, hfifo, hclean⟩ := h
  refine ⟨c, fifo ++ more, ?_, hclean⟩
  rw [hmore, hfifo]
  rfl

theorem Settled.ne_nil (h : r.Settled) : r.fifo ≠ [] := by
  obtain ⟨c, fifo, hfifo, -⟩ := h
  rw [hfifo]
  exact List.cons_ne_nil c fifo

end Receiver

/-- **A chip with a receiver**: reading RX or LSR goes to the receiver. -/
def receiving (C : Chip) : Chip where
  State := C.State × Receiver
  ier := fun c => C.ier c.1
  lcr := fun c => C.lcr c.1
  read := fun c r =>
    let rest := C.read c.1 r
    match r with
    | .data =>
      if Latched (C.lcr c.1) then (rest.1, rest.2, c.2.arrive)
      else ((c.2.arrive.pop rest.1).1, rest.2, (c.2.arrive.pop rest.1).2)
    | .lsr => ((c.2.arrive.report rest.1).1, rest.2, (c.2.arrive.report rest.1).2)
    | _ => (rest.1, rest.2, c.2.arrive)
  write := fun c r v => (C.write c.1 r v, c.2)
  read_ier := fun c h => C.read_ier c.1 h
  ier_read := by
    intro c r
    cases r
    case data =>
      dsimp only
      split
      · exact C.ier_read c.1 .data
      · exact C.ier_read c.1 .data
    all_goals exact C.ier_read c.1 _
  lcr_read := by
    intro c r
    cases r
    case data =>
      dsimp only
      split
      · exact C.lcr_read c.1 .data
      · exact C.lcr_read c.1 .data
    all_goals exact C.lcr_read c.1 _
  ier_write := fun c r v => C.ier_write c.1 r v
  lcr_write := fun c r v => C.lcr_write c.1 r v

/-! ## Accounting -/

/-- What LSR can indicate. -/
inductive Indication where
  | brk
  | parity
  | frame
  | overrun
  deriving DecidableEq

/-- How often a value of LSR shows an indication, where a break takes precedence over the parity and
framing errors of the same character. -/
def Indication.shows : Indication → BitVec 8 → Nat
  | .brk, lsr => if Any lsr lsrBi then 1 else 0
  | .parity, lsr => if Any lsr lsrPe ∧ ¬ Any lsr lsrBi then 1 else 0
  | .frame, lsr => if Any lsr lsrFe ∧ ¬ Any lsr lsrBi then 1 else 0
  | .overrun, lsr => if Any lsr lsrOe then 1 else 0

/-- The counter of an indication. -/
def Icount.errors (c : Icount) : Indication → Nat
  | .brk => c.brk
  | .parity => c.parity
  | .frame => c.frame
  | .overrun => c.overrun

/-- How often reading LSR has shown an indication. -/
def Receiver.reported (r : Receiver) (i : Indication) : Nat := (r.statuses.map i.shows).sum

variable {C : Chip}

/-- **The driver has accounted for the receiver**, with counters that started at `c₀`. -/
structure Accounted (c₀ : Icount) (s : Sys (receiving C)) : Prop where
  bytes : s.received.map Received.ch = s.chip.2.popped
  counts : ∀ i, s.port.icount.errors i + i.shows s.port.lsrSavedFlags =
    c₀.errors i + s.chip.2.reported i

end RealtekIpcam.Serial
