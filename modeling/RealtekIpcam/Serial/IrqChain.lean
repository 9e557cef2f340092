import RealtekIpcam.Lib.Runs

/-!
# The interrupt chains of the 8250 core

Ports that share an interrupt are chained in an `irq_info`, which is found through a hash table
under `hash_mutex` and whose list of ports is guarded by a lock of its own.  Setting up a port looks
the `irq_info` up or makes one, links the port, and requests the interrupt if it is the first;
releasing a port frees the interrupt if it is the last, unlinks it, and throws an empty `irq_info`
away.

Between looking an `irq_info` up and linking into it, a setup holds no lock, and a failed request is
undone without `hash_mutex`.  Each section under a lock, and each call of `request_irq` and
`free_irq`, is one step here, and the steps of any number of ports interleave freely.
`chainsOk_of_clear` says that the chains are right in every state of every run in which no
`irq_info` is thrown away, and no request undone, under another call, and in which no setup fails
after it has armed the backup timer.
-/

namespace RealtekIpcam.Serial.IrqChain

open Function Runs

/-! ## State -/

/-- `struct irq_info`: the ports are in the order of the list, `head` first, and empty if `head` is
null. -/
structure IrqInfo (ι : Type) where
  irq : Nat
  ports : List ι

/-- How far a port has got.  An open or releasing port remembers its `irq_info` here; the driver
finds it again by its number. -/
inductive Phase where
  /-- Not set up, or released, or the setup failed. -/
  | closed
  /-- `serial_link_irq_chain` before its lookup. -/
  | linking
  /-- It has found or made an `irq_info`. -/
  | found (i : Nat)
  /-- It is the first in the list and requests the interrupt. -/
  | requesting (i : Nat)
  /-- The request failed. -/
  | failed (i : Nat)
  /-- It has left the list again, and looks whether it was the last. -/
  | unlinked (i : Nat)
  /-- The setup returned 0; a port without interrupt has no `irq_info`. -/
  | opened (info : Option Nat)
  /-- `serial_unlink_irq_chain` before its lookup. -/
  | releasing (i : Nat)
  /-- It holds `hash_mutex` and has seen whether it is alone in the list. -/
  | chosen (i : Nat) (alone : Bool)
  /-- It has freed the interrupt. -/
  | dropped (i : Nat)
  /-- It has left the list, and looks whether it was the last. -/
  | emptied (i : Nat)
  deriving DecidableEq

/-- The state of the 8250 core. -/
structure State (ι : Type) where
  /-- The `irq_info` in memory. -/
  infos : Nat → Option (IrqInfo ι)
  /-- The next one to be allocated; addresses are not reused, so that a stale one is recognised. -/
  next : Nat
  /-- `irq_lists`. -/
  hash : List Nat
  /-- `hash_mutex`, with its holder. -/
  mutex : Option ι
  /-- The handlers that are requested, by number and `irq_info`. -/
  requested : Nat × Nat → Bool
  phase : ι → Phase
  /-- `port.irq`. -/
  irq : ι → Nat
  /-- `UART_BUG_THRE`. -/
  bugThre : ι → Bool
  /-- The timer of the port is armed. -/
  timer : ι → Bool
  /-- A step has used a freed `irq_info`, or run into a `BUG_ON` or a null `head`. -/
  fault : Bool

variable {ι : Type} [DecidableEq ι]

/-- The core before any port has been opened. -/
def State.boot : State ι where
  infos := fun _ => none
  next := 0
  hash := []
  mutex := none
  requested := fun _ => false
  phase := fun _ => .closed
  irq := fun _ => 0
  bugThre := fun _ => false
  timer := fun _ => false
  fault := false

namespace State

variable (s : State ι)

/-- A port goes on. -/
def goto (p : ι) (φ : Phase) : State ι := { s with phase := update s.phase p φ }

def crash : State ι := { s with fault := true }

/-- The list of an `irq_info` is replaced. -/
def setPorts (i : Nat) (info : IrqInfo ι) (l : List ι) : State ι :=
  { s with infos := update s.infos i (some { info with ports := l }) }

/-- `hlist_del` and `kfree`. -/
def free (i : Nat) : State ι :=
  { s with infos := update s.infos i none, hash := s.hash.erase i }

/-- `kzalloc` and `hlist_add_head`. -/
def alloc (n : Nat) : State ι :=
  { s with
    infos := update s.infos s.next (some { irq := n, ports := [] })
    hash := s.next :: s.hash
    next := s.next + 1 }

/-- The lookup in the hash table. -/
def find (n : Nat) : Option Nat :=
  s.hash.find? fun i => decide ((s.infos i).map IrqInfo.irq = some n)

end State

/-- The list after `serial_do_unlink`; `none` for a null `head` or its `BUG_ON`. -/
def unlinkList (l : List ι) (p : ι) : Option (List ι) :=
  match l with
  | [] => none
  | [q] => if q = p then some [] else none
  | l => some (l.erase p)

/-- `list_add` behind the head. -/
def addPort (p : ι) : List ι → List ι
  | [] => [p]
  | q :: l => q :: p :: l

/-! ## Steps -/

/-- A step of a port. -/
inductive Step (ι : Type) where
  /-- `univ8250_setup_irq`, up to the chain, for a port with this number and bug. -/
  | setup (p : ι) (irq : Nat) (bugThre : Bool)
  /-- The section of `serial_link_irq_chain` under `hash_mutex`; `alloc` is whether memory is
  found. -/
  | lookup (p : ι) (alloc : Bool)
  /-- Its section under the lock of the `irq_info`. -/
  | link (p : ι)
  /-- `request_irq`. -/
  | request (p : ι) (ok : Bool)
  /-- The section of `serial_do_unlink` under the lock, after a failed request. -/
  | unlinkFailed (p : ι)
  /-- The end of `serial_do_unlink`, after a failed request. -/
  | freeFailed (p : ι)
  /-- `univ8250_release_irq`, up to the chain. -/
  | release (p : ι)
  /-- The lookup of `serial_unlink_irq_chain`, which takes `hash_mutex`. -/
  | find (p : ι)
  /-- `free_irq`. -/
  | freeIrq (p : ι)
  /-- The section of `serial_do_unlink` under the lock. -/
  | unlink (p : ι)
  /-- The end of `serial_do_unlink`, and of the section under `hash_mutex`. -/
  | finish (p : ι)

namespace State

variable (s : State ι)

/-- The section of `serial_do_unlink` under the lock of the `irq_info`. -/
def doUnlink (p : ι) (i : Nat) (φ : Phase) : State ι :=
  match s.infos i with
  | none => s.crash
  | some info =>
    match unlinkList info.ports p with
    | none => s.crash
    | some l => (s.setPorts i info l).goto p φ

/-- The end of `serial_do_unlink`. -/
def doFree (p : ι) (i : Nat) : State ι :=
  match s.infos i with
  | none => s.crash
  | some info => (if info.ports = [] then s.free i else s).goto p .closed

def doLookup (p : ι) (alloc : Bool) : State ι :=
  match s.find (s.irq p) with
  | some i => s.goto p (.found i)
  | none =>
    if alloc = true then (s.alloc (s.irq p)).goto p (.found s.next) else s.goto p .closed

def doLink (p : ι) (i : Nat) : State ι :=
  match s.infos i with
  | none => s.crash
  | some info =>
    (s.setPorts i info (addPort p info.ports)).goto p
      (if info.ports = [] then .requesting i else .opened (some i))

/-- The lookup of a release. -/
def doFind (p : ι) : State ι :=
  match s.find (s.irq p) with
  | none => s.crash
  | some i =>
    match s.infos i with
    | none => s.crash
    | some info =>
      if info.ports = [] then s.crash
      else { s with mutex := some p }.goto p (.chosen i (decide (info.ports.length = 1)))

def doSetup (p : ι) (irq : Nat) (bugThre : Bool) : State ι :=
  { s with
    irq := update s.irq p irq
    bugThre := update s.bugThre p bugThre
    timer := update s.timer p (bugThre || decide (irq = 0)) }.goto p
      (if irq = 0 then .opened none else .linking)

/-- The end of a setup that requested the interrupt. -/
def doRequest (p : ι) (i : Nat) (ok : Bool) : State ι :=
  if ok = true then
    { s with requested := update s.requested (s.irq p, i) true }.goto p (.opened (some i))
  else s.goto p (.failed i)

end State

/-- One step, if the port has got there. -/
def step (s : State ι) : Step ι → Option (State ι)
  | .setup p irq bugThre =>
    match s.phase p with
    | .closed => some (s.doSetup p irq bugThre)
    | _ => none
  | .lookup p alloc =>
    match s.phase p with
    | .linking => if s.mutex = none then some (s.doLookup p alloc) else none
    | _ => none
  | .link p =>
    match s.phase p with
    | .found i => some (s.doLink p i)
    | _ => none
  | .request p ok =>
    match s.phase p with
    | .requesting i => some (s.doRequest p i ok)
    | _ => none
  | .unlinkFailed p =>
    match s.phase p with
    | .failed i => some (s.doUnlink p i (.unlinked i))
    | _ => none
  | .freeFailed p =>
    match s.phase p with
    | .unlinked i => some (s.doFree p i)
    | _ => none
  | .release p =>
    match s.phase p with
    | .opened info =>
      some ({ s with timer := update s.timer p false }.goto p
        (info.elim .closed .releasing))
    | _ => none
  | .find p =>
    match s.phase p with
    | .releasing _ => if s.mutex = none then some (s.doFind p) else none
    | _ => none
  | .freeIrq p =>
    match s.phase p with
    | .chosen i true =>
      some ({ s with requested := update s.requested (s.irq p, i) false }.goto p
        (.dropped i))
    | _ => none
  | .unlink p =>
    match s.phase p with
    | .chosen i false => some (s.doUnlink p i (.emptied i))
    | .dropped i => some (s.doUnlink p i (.emptied i))
    | _ => none
  | .finish p =>
    match s.phase p with
    | .emptied i => some { s.doFree p i with mutex := none }
    | _ => none

/-- The port is between a setup that returned 0 and its release. -/
def Phase.IsOpen : Phase → Prop
  | .opened _ => True
  | _ => False

namespace State

/-- No call is in progress. -/
def Quiet (s : State ι) : Prop := ∀ p, s.phase p = .closed ∨ (s.phase p).IsOpen

/-- The `irq_info` of a number. -/
def Chain (s : State ι) (n i : Nat) (info : IrqInfo ι) : Prop :=
  i ∈ s.hash ∧ s.infos i = some info ∧ info.irq = n

end State

/-- **The chains are right.** -/
structure ChainsOk (s : State ι) : Prop where
  /-- No step has used a freed `irq_info`. -/
  fault : s.fault = false
  /-- A setup that failed has left the timer unarmed. -/
  timer : ∀ p, s.phase p = .closed → s.timer p = false
  unique : s.Quiet → ∀ n i j info info', s.Chain n i info → s.Chain n j info' → i = j
  nodup : s.Quiet → s.hash.Nodup ∧ ∀ n i info, s.Chain n i info → info.ports.Nodup
  members : s.Quiet → ∀ n, n ≠ 0 → ∀ p,
    (∃ i info, s.Chain n i info ∧ p ∈ info.ports) ↔ (s.phase p).IsOpen ∧ s.irq p = n
  requested : s.Quiet → ∀ n, n ≠ 0 →
    ((∃ i, s.requested (n, i) = true) ↔ ∃ i info, s.Chain n i info ∧ info.ports ≠ [])

/-! ## Phases and their `irq_info` -/

/-- The `irq_info` that the port has looked up or is linked into. -/
def Phase.ref : Phase → Option Nat
  | .closed => none
  | .linking => none
  | .found i => some i
  | .requesting i => some i
  | .failed i => some i
  | .unlinked i => some i
  | .opened info => info
  | .releasing i => some i
  | .chosen i _ => some i
  | .dropped i => some i
  | .emptied i => some i

/-- The `irq_info` that the port is linked into. -/
def Phase.linkedAt : Phase → Option Nat
  | .requesting i => some i
  | .failed i => some i
  | .opened info => info
  | .releasing i => some i
  | .chosen i _ => some i
  | .dropped i => some i
  | _ => none

/-- The `irq_info` whose interrupt is not requested as long as the port is in this phase. -/
def Phase.pending : Phase → Option Nat
  | .requesting i => some i
  | .failed i => some i
  | .dropped i => some i
  | _ => none

/-- The port holds `hash_mutex`. -/
def Phase.Locks : Phase → Prop
  | .chosen _ _ => True
  | .dropped _ => True
  | .emptied _ => True
  | _ => False

/-- The timer of a port in this phase: a setup in progress has armed the backup timer if the port
has the bug, and a port that is not open has no timer otherwise. -/
def Phase.TimerOk (bugThre timer : Bool) : Phase → Prop
  | .linking => timer = bugThre
  | .found _ => timer = bugThre
  | .requesting _ => timer = bugThre
  | .opened _ => True
  | _ => timer = false

/-- **The step is in the way of no other call**: a failed setup had not armed the backup timer, a
port whose request failed or whose interrupt was freed is alone in the list when it leaves it, and
no other port has looked up an `irq_info` that is thrown away. -/
def Clear (s : State ι) : Step ι → Prop
  | .lookup p alloc => s.find (s.irq p) = none → alloc = false → s.bugThre p = false
  | .request p ok => ok = false → s.bugThre p = false
  | .unlinkFailed p =>
    ∀ i info, s.phase p = .failed i → s.infos i = some info → info.ports = [p]
  | .unlink p =>
    ∀ i info, s.phase p = .dropped i → s.infos i = some info → info.ports = [p]
  | .freeFailed p =>
    ∀ i info, s.phase p = .unlinked i → s.infos i = some info → info.ports = [] →
      ∀ q, q ≠ p → (s.phase q).ref ≠ some i
  | .finish p =>
    ∀ i info, s.phase p = .emptied i → s.infos i = some info → info.ports = [] →
      ∀ q, q ≠ p → (s.phase q).ref ≠ some i
  | _ => True

/-- What holds after every step. -/
structure Inv (s : State ι) : Prop where
  fault : s.fault = false
  fresh : ∀ i, s.next ≤ i → s.infos i = none
  hash_mem : ∀ i, i ∈ s.hash ↔ ∃ info, s.infos i = some info
  hash_nodup : s.hash.Nodup
  irq_inj : ∀ i j a b, s.infos i = some a → s.infos j = some b → a.irq = b.irq → i = j
  /-- What a port refers to is there, and has its number. -/
  ref : ∀ p i, (s.phase p).ref = some i →
    ∃ info, s.infos i = some info ∧ info.irq = s.irq p ∧ s.irq p ≠ 0
  opened : ∀ p, s.phase p = .opened none → s.irq p = 0
  linking : ∀ p, s.phase p = .linking → s.irq p ≠ 0
  /-- The list holds the ports that are linked. -/
  mem : ∀ i info p, s.infos i = some info → (p ∈ info.ports ↔ (s.phase p).linkedAt = some i)
  nodup : ∀ i info, s.infos i = some info → info.ports.Nodup
  /-- The interrupt is requested for a list that is not empty, unless a port is about to see to
  it. -/
  requested : ∀ n i, s.requested (n, i) = true ↔
    ∃ info, s.infos i = some info ∧ info.irq = n ∧ info.ports ≠ [] ∧
      ∀ p, (s.phase p).pending ≠ some i
  pending_unique : ∀ p q i, (s.phase p).pending = some i → (s.phase q).pending = some i → p = q
  alone : ∀ p i, s.phase p = .chosen i true → ∀ q, (s.phase q).pending ≠ some i
  shared : ∀ p i info, s.phase p = .chosen i false → s.infos i = some info →
    2 ≤ info.ports.length
  timer : ∀ p, (s.phase p).TimerOk (s.bugThre p) (s.timer p)
  mutex : ∀ p, (s.phase p).Locks → s.mutex = some p

omit [DecidableEq ι] in
theorem inv_boot : Inv (State.boot : State ι) := by
  constructor <;>
    simp [State.boot, Phase.ref, Phase.linkedAt, Phase.pending, Phase.TimerOk, Phase.Locks]

/-! ## One port goes on -/

section

variable {s t : State ι} {p : ι} {φ : Phase}

theorem forall_update_iff {P : ι → Phase → Prop} :
    (∀ q, P q (update s.phase p φ q)) ↔ P p φ ∧ ∀ q, q ≠ p → P q (s.phase q) := by
  constructor
  · intro h
    refine ⟨?_, fun q hq => ?_⟩
    · have hp := h p
      rwa [update_self] at hp
    · have hq' := h q
      rwa [update_of_ne hq] at hq'
  · rintro ⟨hp, hrest⟩ q
    by_cases hq : q = p
    · subst hq
      rwa [update_self]
    · rw [update_of_ne hq]
      exact hrest q hq

/-- What a port goes on to has to fit the `irq_info` in memory and the other ports. -/
structure Fits (s t : State ι) (p : ι) (φ : Phase) : Prop where
  ref : ∀ i, φ.ref = some i → ∃ info, t.infos i = some info ∧ info.irq = t.irq p ∧ t.irq p ≠ 0
  opened : φ = .opened none → t.irq p = 0
  linking : φ = .linking → t.irq p ≠ 0
  pending : ∀ i, φ.pending = some i →
    ∀ q, q ≠ p → (s.phase q).pending ≠ some i ∧ s.phase q ≠ .chosen i true
  alone : ∀ i, φ = .chosen i true → ∀ q, q ≠ p → (s.phase q).pending ≠ some i
  timer : φ.TimerOk (t.bugThre p) (t.timer p)
  locks : φ.Locks → t.mutex = some p

/-- The other ports stay as they are. -/
structure Frame (s t : State ι) (p : ι) (φ : Phase) : Prop where
  phase : t.phase = update s.phase p φ
  irq : ∀ q, q ≠ p → t.irq q = s.irq q
  bugThre : ∀ q, q ≠ p → t.bugThre q = s.bugThre q
  timer : ∀ q, q ≠ p → t.timer q = s.timer q
  mutex : ∀ q, q ≠ p → (s.phase q).Locks → t.mutex = some q

theorem Frame.self (h : Frame s t p φ) : t.phase p = φ := by rw [h.phase, update_self]

theorem Frame.of_ne (h : Frame s t p φ) {q : ι} (hq : q ≠ p) : t.phase q = s.phase q := by
  rw [h.phase, update_of_ne hq]

/-- **The invariant when one port goes on**, apart from what is about the lists: the other ports may
rely on the `irq_info` that they refer to. -/
theorem Inv.of_frame (h : Inv s) (hframe : Frame s t p φ) (hfits : Fits s t p φ)
    (hfault : t.fault = false) (hfresh : ∀ i, t.next ≤ i → t.infos i = none)
    (hhash : ∀ i, i ∈ t.hash ↔ ∃ info, t.infos i = some info) (hnodup : t.hash.Nodup)
    (hinj : ∀ i j a b, t.infos i = some a → t.infos j = some b → a.irq = b.irq → i = j)
    (hkept : ∀ q i a, q ≠ p → (s.phase q).ref = some i → s.infos i = some a →
      ∃ b, t.infos i = some b ∧ b.irq = a.irq)
    (hmem : ∀ i info q, t.infos i = some info →
      (q ∈ info.ports ↔ (t.phase q).linkedAt = some i))
    (hports : ∀ i info, t.infos i = some info → info.ports.Nodup)
    (hrequested : ∀ n i, t.requested (n, i) = true ↔
      ∃ info, t.infos i = some info ∧ info.irq = n ∧ info.ports ≠ [] ∧
        ∀ q, (t.phase q).pending ≠ some i)
    (hshared : ∀ q i info, t.phase q = .chosen i false → t.infos i = some info →
      2 ≤ info.ports.length) : Inv t where
  fault := hfault
  fresh := hfresh
  hash_mem := hhash
  hash_nodup := hnodup
  irq_inj := hinj
  ref := by
    intro q i hq
    by_cases hqp : q = p
    · subst hqp
      rw [hframe.self] at hq
      exact hfits.ref i hq
    · rw [hframe.of_ne hqp] at hq
      obtain ⟨a, ha, hirq, hne⟩ := h.ref q i hq
      obtain ⟨b, hb, hba⟩ := hkept q i a hqp hq ha
      rw [hframe.irq q hqp]
      exact ⟨b, hb, hba.trans hirq, hne⟩
  opened := by
    intro q hq
    by_cases hqp : q = p
    · subst hqp
      rw [hframe.self] at hq
      exact hfits.opened hq
    · rw [hframe.of_ne hqp] at hq
      rw [hframe.irq q hqp]
      exact h.opened q hq
  linking := by
    intro q hq
    by_cases hqp : q = p
    · subst hqp
      rw [hframe.self] at hq
      exact hfits.linking hq
    · rw [hframe.of_ne hqp] at hq
      rw [hframe.irq q hqp]
      exact h.linking q hq
  mem := hmem
  nodup := hports
  requested := hrequested
  pending_unique := by
    intro q r i hq hr
    by_cases hqp : q = p
    · by_cases hrp : r = p
      · rw [hqp, hrp]
      · rw [hqp, hframe.self] at hq
        rw [hframe.of_ne hrp] at hr
        exact absurd hr (hfits.pending i hq r hrp).1
    · rw [hframe.of_ne hqp] at hq
      by_cases hrp : r = p
      · rw [hrp, hframe.self] at hr
        exact absurd hq (hfits.pending i hr q hqp).1
      · rw [hframe.of_ne hrp] at hr
        exact h.pending_unique q r i hq hr
  alone := by
    intro q i hq r hr
    by_cases hqp : q = p
    · rw [hqp, hframe.self] at hq
      by_cases hrp : r = p
      · rw [hrp, hframe.self, hq] at hr
        cases hr
      · rw [hframe.of_ne hrp] at hr
        exact hfits.alone i hq r hrp hr
    · rw [hframe.of_ne hqp] at hq
      by_cases hrp : r = p
      · rw [hrp, hframe.self] at hr
        exact (hfits.pending i hr q hqp).2 hq
      · rw [hframe.of_ne hrp] at hr
        exact h.alone q i hq r hr
  shared := hshared
  timer := by
    intro q
    by_cases hqp : q = p
    · subst hqp
      rw [hframe.self]
      exact hfits.timer
    · rw [hframe.of_ne hqp, hframe.bugThre q hqp, hframe.timer q hqp]
      exact h.timer q
  mutex := by
    intro q hq
    by_cases hqp : q = p
    · subst hqp
      rw [hframe.self] at hq
      exact hfits.locks hq
    · rw [hframe.of_ne hqp] at hq
      exact hframe.mutex q hqp hq

/-- The invariant when no list changes. -/
theorem Inv.of_goto (h : Inv s) (hframe : Frame s t p φ) (hfits : Fits s t p φ)
    (hinfos : t.infos = s.infos) (hnext : t.next = s.next) (hhash : t.hash = s.hash)
    (hfault : t.fault = s.fault) (hlinked : φ.linkedAt = (s.phase p).linkedAt)
    (hrequested : ∀ n i, t.requested (n, i) = true ↔
      ∃ info, s.infos i = some info ∧ info.irq = n ∧ info.ports ≠ [] ∧
        φ.pending ≠ some i ∧ ∀ q, q ≠ p → (s.phase q).pending ≠ some i)
    (hshared : ∀ i info, φ = .chosen i false → s.infos i = some info →
      2 ≤ info.ports.length) : Inv t := by
  refine h.of_frame hframe hfits (hfault.trans h.fault) ?hfresh ?hhash (hhash ▸ h.hash_nodup)
    ?hinj ?hkept ?hmem ?hports ?hrequested ?hshared
  case hfresh =>
    rw [hinfos, hnext]
    exact h.fresh
  case hhash =>
    rw [hinfos, hhash]
    exact h.hash_mem
  case hinj =>
    rw [hinfos]
    exact h.irq_inj
  case hkept =>
    intro q i a _ _ ha
    exact ⟨a, hinfos ▸ ha, rfl⟩
  case hmem =>
    intro i info q hinfo
    rw [hinfos] at hinfo
    rw [h.mem i info q hinfo]
    by_cases hqp : q = p
    · rw [hqp, hframe.self, hlinked]
    · rw [hframe.of_ne hqp]
  case hports =>
    rw [hinfos]
    exact h.nodup
  case hrequested =>
    intro n i
    rw [hrequested, hinfos, hframe.phase]
    have hall : (∀ q, (update s.phase p φ q).pending ≠ some i) ↔
        φ.pending ≠ some i ∧ ∀ q, q ≠ p → (s.phase q).pending ≠ some i :=
      forall_update_iff (P := fun _ ψ => ψ.pending ≠ some i)
    rw [hall]
  case hshared =>
    intro q i info hq hinfo
    rw [hinfos] at hinfo
    by_cases hqp : q = p
    · rw [hqp, hframe.self] at hq
      exact hshared i info hq hinfo
    · rw [hframe.of_ne hqp] at hq
      exact h.shared q i info hq hinfo

theorem Inv.requested_iff (h : Inv s) (p : ι) (n i : Nat) :
    s.requested (n, i) = true ↔
      ∃ info, s.infos i = some info ∧ info.irq = n ∧ info.ports ≠ [] ∧
        (s.phase p).pending ≠ some i ∧ ∀ q, q ≠ p → (s.phase q).pending ≠ some i := by
  have hall : (∀ q, (s.phase q).pending ≠ some i) ↔
      (s.phase p).pending ≠ some i ∧ ∀ q, q ≠ p → (s.phase q).pending ≠ some i := by
    constructor
    · exact fun hq => ⟨hq p, fun q _ => hq q⟩
    · rintro ⟨hp, hrest⟩ q
      by_cases hqp : q = p
      · rw [hqp]
        exact hp
      · exact hrest q hqp
  rw [h.requested, hall]

theorem Inv.of_phase (h : Inv s) (hframe : Frame s t p φ) (hfits : Fits s t p φ)
    (hinfos : t.infos = s.infos) (hnext : t.next = s.next) (hhash : t.hash = s.hash)
    (hfault : t.fault = s.fault) (hreq : t.requested = s.requested)
    (hlinked : φ.linkedAt = (s.phase p).linkedAt) (hpending : φ.pending = (s.phase p).pending)
    (hshared : ∀ i info, φ = .chosen i false → s.infos i = some info →
      2 ≤ info.ports.length) : Inv t := by
  refine h.of_goto hframe hfits hinfos hnext hhash hfault hlinked (fun n i => ?_) hshared
  rw [hreq, hpending]
  exact h.requested_iff p n i

variable {i : Nat} {info : IrqInfo ι} {l : List ι}

theorem Frame.of_goto (h : Inv s) (u : State ι) (hphase : u.phase = s.phase) (hirq : u.irq = s.irq)
    (hthre : u.bugThre = s.bugThre) (htimer : u.timer = s.timer) (hmutex : u.mutex = s.mutex) :
    Frame s (u.goto p φ) p φ where
  phase := by
    rw [← hphase]
    rfl
  irq := fun q _ => congrFun hirq q
  bugThre := fun q _ => congrFun hthre q
  timer := fun q _ => congrFun htimer q
  mutex := fun q _ hq => hmutex.trans (h.mutex q hq)

/-- **The invariant when one `irq_info` changes** as a port goes on; it is `none` once it is thrown
away.  The port has nothing to do with any other. -/
theorem Inv.of_update (h : Inv s) {o : Option (IrqInfo ι)} (hframe : Frame s t p φ)
    (hfits : Fits s t p φ) (hinfos : t.infos = update s.infos i o) (hfault : t.fault = s.fault)
    (hreq : t.requested = s.requested) (hnext : s.next ≤ t.next) (hlive : o ≠ none → i < t.next)
    (hhash : ∀ j, j ∈ t.hash ↔ if j = i then o ≠ none else j ∈ s.hash) (hnodup : t.hash.Nodup)
    (hirq : ∀ info ∈ o, ∀ j b, j ≠ i → s.infos j = some b → b.irq ≠ info.irq)
    (hkept : ∀ q a, q ≠ p → (s.phase q).ref = some i → s.infos i = some a →
      ∃ b, o = some b ∧ b.irq = a.irq)
    (hwas : ∀ j, j ≠ i → (s.phase p).linkedAt ≠ some j ∧ (s.phase p).pending ≠ some j)
    (hwill : ∀ j, j ≠ i → φ.linkedAt ≠ some j ∧ φ.pending ≠ some j)
    (hmem : ∀ info ∈ o, ∀ q, q ∈ info.ports ↔
      if q = p then φ.linkedAt = some i else (s.phase q).linkedAt = some i)
    (hports : ∀ info ∈ o, info.ports.Nodup)
    (hrequested : ∀ n, s.requested (n, i) = true ↔
      ∃ info, o = some info ∧ info.irq = n ∧ info.ports ≠ [] ∧
        φ.pending ≠ some i ∧ ∀ q, q ≠ p → (s.phase q).pending ≠ some i)
    (hshared : ∀ info ∈ o, ∀ q, q ≠ p → s.phase q = .chosen i false → 2 ≤ info.ports.length)
    (hφ : ∀ j, φ ≠ .chosen j false) : Inv t := by
  have hself : t.infos i = o := by
    rw [hinfos]
    exact update_self _ _ _
  have hother : ∀ j, j ≠ i → t.infos j = s.infos j := by
    intro j hj
    rw [hinfos]
    exact update_of_ne hj _ _
  refine h.of_frame hframe hfits (hfault.trans h.fault) ?hfresh ?hhash hnodup ?hinj ?hkept ?hmem
    ?hports ?hrequested ?hshared
  case hfresh =>
    intro j hj
    by_cases hji : j = i
    · rw [hji, hself]
      by_contra ho
      exact absurd (hlive ho) (by omega)
    · rw [hother j hji]
      exact h.fresh j (hnext.trans hj)
  case hhash =>
    intro j
    rw [hhash]
    by_cases hji : j = i
    · rw [if_pos hji, hji, hself]
      exact Option.ne_none_iff_exists'
    · rw [if_neg hji, hother j hji]
      exact h.hash_mem j
  case hinj =>
    intro j k a b ha hb hab
    by_cases hj : j = i
    · by_cases hk : k = i
      · rw [hj, hk]
      · rw [hj, hself] at ha
        rw [hother k hk] at hb
        exact absurd hab.symm (hirq a ha k b hk hb)
    · rw [hother j hj] at ha
      by_cases hk : k = i
      · rw [hk, hself] at hb
        exact absurd hab (hirq b hb j a hj ha)
      · rw [hother k hk] at hb
        exact h.irq_inj j k a b ha hb hab
  case hkept =>
    intro q j a hq href ha
    by_cases hj : j = i
    · subst hj
      obtain ⟨b, hb, hba⟩ := hkept q a hq href ha
      exact ⟨b, hself.trans hb, hba⟩
    · exact ⟨a, (hother j hj).trans ha, rfl⟩
  case hmem =>
    intro j a q ha
    by_cases hj : j = i
    · subst hj
      rw [hself] at ha
      rw [hmem a ha]
      by_cases hqp : q = p
      · rw [if_pos hqp, hqp, hframe.self]
      · rw [if_neg hqp, hframe.of_ne hqp]
    · rw [hother j hj] at ha
      rw [h.mem j a q ha]
      by_cases hqp : q = p
      · rw [hqp, hframe.self]
        exact iff_of_false (hwas j hj).1 (hwill j hj).1
      · rw [hframe.of_ne hqp]
  case hports =>
    intro j a ha
    by_cases hj : j = i
    · rw [hj, hself] at ha
      exact hports a ha
    · rw [hother j hj] at ha
      exact h.nodup j a ha
  case hrequested =>
    intro n j
    have hall : (∀ q, (update s.phase p φ q).pending ≠ some j) ↔
        φ.pending ≠ some j ∧ ∀ q, q ≠ p → (s.phase q).pending ≠ some j :=
      forall_update_iff (P := fun _ ψ => ψ.pending ≠ some j)
    rw [hreq, hframe.phase, hall]
    by_cases hj : j = i
    · rw [hj, hself]
      exact hrequested n
    · rw [h.requested_iff p, hother j hj]
      have hp := iff_of_true (hwas j hj).2 (hwill j hj).2
      simp only [hp]
  case hshared =>
    intro q j a hq ha
    by_cases hqp : q = p
    · rw [hqp, hframe.self] at hq
      exact absurd hq (hφ j)
    · rw [hframe.of_ne hqp] at hq
      by_cases hj : j = i
      · subst hj
        rw [hself] at ha
        exact hshared a ha q hqp hq
      · rw [hother j hj] at ha
        exact h.shared q j a hq ha

theorem Inv.of_setPorts (h : Inv s) (hinfo : s.infos i = some info)
    (hfits : Fits s ((s.setPorts i info l).goto p φ) p φ)
    (hmem : ∀ q, q ∈ l ↔ if q = p then φ.linkedAt = some i else q ∈ info.ports)
    (hwas : ∀ j, j ≠ i → (s.phase p).linkedAt ≠ some j ∧ (s.phase p).pending ≠ some j)
    (hwill : ∀ j, j ≠ i → φ.linkedAt ≠ some j ∧ φ.pending ≠ some j)
    (hnodup : l.Nodup)
    (hrequested : s.requested (info.irq, i) = true ↔
      l ≠ [] ∧ φ.pending ≠ some i ∧ ∀ q, q ≠ p → (s.phase q).pending ≠ some i)
    (hshared : ∀ q, q ≠ p → s.phase q = .chosen i false → 2 ≤ l.length)
    (hφ : ∀ j, φ ≠ .chosen j false) : Inv ((s.setPorts i info l).goto p φ) := by
  refine h.of_update (Frame.of_goto h (s.setPorts i info l) rfl rfl rfl rfl rfl) hfits rfl rfl rfl
    (Nat.le_refl _) (fun _ => ?hlive) (fun j => ?hhash) h.hash_nodup ?hirq ?hkept hwas hwill ?hmem
    ?hports (fun n => ?hrequested) ?hshared hφ
  case hlive =>
    by_contra hle
    rw [h.fresh i (Nat.not_lt.mp hle)] at hinfo
    cases hinfo
  case hhash =>
    by_cases hj : j = i
    · rw [if_pos hj, hj]
      exact iff_of_true ((h.hash_mem i).mpr ⟨info, hinfo⟩) nofun
    · rw [if_neg hj]
      exact Iff.rfl
  case hirq =>
    rintro _ ⟨⟩ j b hj hb heq
    exact hj (h.irq_inj j i b info hb hinfo heq)
  case hkept =>
    intro q a _ _ ha
    rw [hinfo, Option.some_inj] at ha
    exact ⟨_, rfl, ha ▸ rfl⟩
  case hmem =>
    rintro _ ⟨⟩ q
    refine (hmem q).trans ?_
    rw [h.mem i info q hinfo]
  case hports =>
    rintro _ ⟨⟩
    exact hnodup
  case hrequested =>
    constructor
    · intro hr
      obtain ⟨b, hb, hn, -⟩ := (h.requested n i).mp hr
      rw [hinfo, Option.some_inj] at hb
      subst hb
      rw [← hn] at hr
      exact ⟨_, rfl, hn, hrequested.mp hr⟩
    · rintro ⟨_, ⟨⟩, rfl, hrest⟩
      exact hrequested.mpr hrest
  case hshared =>
    rintro _ ⟨⟩
    exact hshared

/-! ## The steps -/

/-- A port is set up and is in no list yet. -/
theorem inv_doSetup (h : Inv s) (hp : s.phase p = .closed) (n : Nat) (thre : Bool) :
    Inv (s.doSetup p n thre) := by
  obtain ⟨φ, hφ⟩ : ∃ φ, φ = if n = 0 then Phase.opened none else .linking := ⟨_, rfl⟩
  obtain ⟨t, ht⟩ : ∃ t, t = s.doSetup p n thre := ⟨_, rfl⟩
  have hirq : t.irq p = n := by
    rw [ht]
    exact update_self _ _ _
  have hcases : n = 0 ∧ φ = .opened none ∨ n ≠ 0 ∧ φ = .linking := by
    by_cases hn : n = 0
    · exact Or.inl ⟨hn, hφ.trans (if_pos hn)⟩
    · exact Or.inr ⟨hn, hφ.trans (if_neg hn)⟩
  have hnone : φ.ref = none ∧ φ.linkedAt = none ∧ φ.pending = none := by
    rcases hcases with ⟨-, h⟩ | ⟨-, h⟩ <;> rw [h] <;> exact ⟨rfl, rfl, rfl⟩
  have hframe : Frame s t p φ := by
    rw [ht, hφ]
    exact ⟨rfl, fun q hq => update_of_ne hq _ _, fun q hq => update_of_ne hq _ _,
      fun q hq => update_of_ne hq _ _, fun q _ hq => h.mutex q hq⟩
  have hfits : Fits s t p φ := by
    constructor
    case ref =>
      intro i hi
      rw [hnone.1] at hi
      cases hi
    case opened =>
      intro ho
      rcases hcases with ⟨hn, -⟩ | ⟨-, hl⟩
      · rw [hirq, hn]
      · rw [hl] at ho
        cases ho
    case linking =>
      intro hl
      rcases hcases with ⟨-, ho⟩ | ⟨hn, -⟩
      · rw [ho] at hl
        cases hl
      · rw [hirq]
        exact hn
    case pending =>
      intro i hi
      rw [hnone.2.2] at hi
      cases hi
    case alone =>
      intro i hi
      rw [hi] at hnone
      cases hnone.1
    case timer =>
      rcases hcases with ⟨-, ho⟩ | ⟨hn, hl⟩
      · rw [ho]
        exact trivial
      · have htimer : t.timer p = (thre || decide (n = 0)) := by
          rw [ht]
          exact update_self _ _ _
        have hthre : t.bugThre p = thre := by
          rw [ht]
          exact update_self _ _ _
        rw [hl, htimer, hthre, decide_eq_false hn, Bool.or_false]
        rfl
    case locks =>
      rcases hcases with ⟨-, ho⟩ | ⟨-, hl⟩
      · rw [ho]
        exact False.elim
      · rw [hl]
        exact False.elim
  have hfields : t.infos = s.infos ∧ t.next = s.next ∧ t.hash = s.hash ∧ t.fault = s.fault ∧
      t.requested = s.requested := by
    rw [ht]
    exact ⟨rfl, rfl, rfl, rfl, rfl⟩
  rw [← ht]
  refine h.of_phase hframe hfits hfields.1 hfields.2.1 hfields.2.2.1 hfields.2.2.2.1
    hfields.2.2.2.2 ?_ ?_ ?_
  · rw [hp, hnone.2.1]
    rfl
  · rw [hp, hnone.2.2]
    rfl
  · intro i info hi
    rw [hi] at hnone
    cases hnone.1

omit [DecidableEq ι] in
theorem infos_of_find {n : Nat} (hf : s.find n = some i) :
    ∃ info, s.infos i = some info ∧ info.irq = n := by
  have hmap : (s.infos i).map IrqInfo.irq = some n := by
    have hp := List.find?_some hf
    exact of_decide_eq_true hp
  obtain ⟨info, hinfo, hn⟩ := Option.map_eq_some_iff.mp hmap
  exact ⟨info, hinfo, hn⟩

omit [DecidableEq ι] in
theorem Inv.find_of_mem (h : Inv s) (hinfo : s.infos i = some info) :
    s.find info.irq = some i := by
  have hi : i ∈ s.hash := (h.hash_mem i).mpr ⟨info, hinfo⟩
  cases hf : s.find info.irq with
  | none =>
    have hnone := List.find?_eq_none.mp hf i hi
    rw [hinfo] at hnone
    exact absurd (decide_eq_true rfl) hnone
  | some j =>
    obtain ⟨b, hb, hirq⟩ := infos_of_find hf
    exact congrArg some (h.irq_inj j i b info hb hinfo hirq)

theorem inv_lookup_found (h : Inv s) (hp : s.phase p = .linking)
    (hf : s.find (s.irq p) = some i) : Inv (s.goto p (.found i)) := by
  obtain ⟨info, hinfo, hirq⟩ := infos_of_find hf
  have htimer := h.timer p
  rw [hp] at htimer
  refine h.of_phase (Frame.of_goto h s rfl rfl rfl rfl rfl) ?_ rfl rfl rfl rfl rfl
    (by rw [hp]; rfl) (by rw [hp]; rfl) nofun
  refine ⟨fun j hj => ?_, nofun, nofun, nofun, nofun, htimer, False.elim⟩
  cases hj
  exact ⟨info, hinfo, hirq, h.linking p hp⟩

theorem inv_close (h : Inv s) (u : State ι) (hinfos : u.infos = s.infos) (hnext : u.next = s.next)
    (hhash : u.hash = s.hash) (hfault : u.fault = s.fault) (hreq : u.requested = s.requested)
    (hframe : Frame s (u.goto p .closed) p .closed) (hlinked : (s.phase p).linkedAt = none)
    (hpending : (s.phase p).pending = none) (htimer : u.timer p = false) :
    Inv (u.goto p .closed) := by
  refine h.of_phase hframe ?_ hinfos hnext hhash hfault hreq hlinked.symm hpending.symm
    nofun
  exact ⟨nofun, nofun, nofun, nofun, nofun, htimer, False.elim⟩

theorem inv_request_failed (h : Inv s) (hp : s.phase p = .requesting i)
    (hthre : s.bugThre p = false) : Inv (s.goto p (.failed i)) := by
  have htimer := h.timer p
  rw [hp] at htimer
  have hpend : (s.phase p).pending = some i := by rw [hp]; rfl
  refine h.of_phase (Frame.of_goto h s rfl rfl rfl rfl rfl) ?_ rfl rfl rfl rfl rfl
    (by rw [hp]; rfl) hpend.symm nofun
  refine ⟨fun j hj => h.ref p j (by rw [hp]; exact hj), nofun, nofun, fun j hj q hq => ?_, nofun,
    htimer.trans hthre, False.elim⟩
  cases hj
  refine ⟨fun hq' => hq (h.pending_unique q p i hq' hpend), fun hc => ?_⟩
  exact h.alone q i hc p hpend

/-- The first port of a list has requested the interrupt. -/
theorem inv_request_ok (h : Inv s) (hp : s.phase p = .requesting i) :
    Inv ({ s with requested := update s.requested (s.irq p, i) true }.goto p
      (.opened (some i))) := by
  have hpend : (s.phase p).pending = some i := by rw [hp]; rfl
  have hlinked : (s.phase p).linkedAt = some i := by rw [hp]; rfl
  obtain ⟨info, hinfo, hirq, hne⟩ := h.ref p i (by rw [hp]; rfl)
  refine h.of_goto (Frame.of_goto h _ rfl rfl rfl rfl rfl) ?_ rfl rfl rfl rfl
    hlinked.symm (fun n j => ?_) nofun
  · exact ⟨fun j hj => h.ref p j (by rw [hp]; exact hj), nofun, nofun, nofun, nofun, trivial,
      False.elim⟩
  · have hnone : (Phase.opened (some i)).pending ≠ some j := nofun
    show update s.requested (s.irq p, i) true (n, j) = true ↔ _
    by_cases hnj : (n, j) = (s.irq p, i)
    · cases hnj
      rw [update_self]
      refine iff_of_true rfl ⟨info, hinfo, hirq, ?_, hnone, fun q hq hq' => ?_⟩
      · exact List.ne_nil_of_mem ((h.mem i info p hinfo).mpr hlinked)
      · exact hq (h.pending_unique q p i hq' hpend)
    · rw [update_of_ne hnj, h.requested_iff p]
      have hji : ∀ b, s.infos j = some b → b.irq = n → j ≠ i := by
        rintro b hb hn rfl
        rw [hinfo, Option.some_inj] at hb
        subst hb
        exact hnj (by rw [← hn, hirq])
      constructor
      · rintro ⟨b, hb, hn, hl, -, hrest⟩
        exact ⟨b, hb, hn, hl, hnone, hrest⟩
      · rintro ⟨b, hb, hn, hl, -, hrest⟩
        refine ⟨b, hb, hn, hl, fun hc => ?_, hrest⟩
        rw [hpend, Option.some_inj] at hc
        exact hji b hb hn hc.symm

omit [DecidableEq ι] in
theorem Phase.ref_of_linkedAt {φ : Phase} (h : φ.linkedAt = some i) : φ.ref = some i := by
  cases φ <;> first | exact h | cases h

omit [DecidableEq ι] in
theorem Phase.linkedAt_of_pending {φ : Phase} (h : φ.pending = some i) : φ.linkedAt = some i := by
  cases φ <;> first | exact h | cases h

omit [DecidableEq ι] in
theorem Inv.mem_of_pending (h : Inv s) {q : ι} (hinfo : s.infos i = some info)
    (hq : (s.phase q).pending = some i) : q ∈ info.ports :=
  (h.mem i info q hinfo).mpr (Phase.linkedAt_of_pending hq)

/-- A new `irq_info` has a number of its own and no ports. -/
theorem inv_lookup_alloc (h : Inv s) (hp : s.phase p = .linking)
    (hf : s.find (s.irq p) = none) : Inv ((s.alloc (s.irq p)).goto p (.found s.next)) := by
  have hnone : ∀ b, s.infos s.next ≠ some b := by
    intro b hb
    rw [h.fresh s.next (Nat.le_refl _)] at hb
    cases hb
  have hnoref : ∀ q, (s.phase q).ref ≠ some s.next := by
    intro q hq
    obtain ⟨b, hb, -⟩ := h.ref q s.next hq
    exact hnone b hb
  have htimer := h.timer p
  rw [hp] at htimer
  refine h.of_update (Frame.of_goto h _ rfl rfl rfl rfl rfl) ?hfits rfl rfl rfl (Nat.le_succ _)
    (fun _ => Nat.lt_succ_self _) (fun j => ?hhash) ?hnodup ?hirq
    (fun q _ _ hq => absurd hq (hnoref q)) (fun j _ => ?hwas) (fun _ _ => ⟨nofun, nofun⟩) ?hmem
    ?hports (fun n => ?hrequested) ?hshared nofun
  case hfits =>
    refine ⟨fun j hj => ?_, nofun, nofun, nofun, nofun, htimer, False.elim⟩
    cases hj
    exact ⟨_, update_self _ _ _, rfl, h.linking p hp⟩
  case hhash =>
    refine List.mem_cons.trans ?_
    by_cases hj : j = s.next
    · rw [if_pos hj]
      exact iff_of_true (Or.inl hj) nofun
    · rw [if_neg hj]
      exact or_iff_right hj
  case hnodup =>
    refine List.nodup_cons.mpr ⟨fun hmem => ?_, h.hash_nodup⟩
    obtain ⟨b, hb⟩ := (h.hash_mem _).mp hmem
    exact hnone b hb
  case hirq =>
    rintro _ ⟨⟩ j b _ hb heq
    have hfound := h.find_of_mem hb
    rw [heq, hf] at hfound
    cases hfound
  case hwas =>
    rw [hp]
    exact ⟨nofun, nofun⟩
  case hmem =>
    rintro _ ⟨⟩ q
    refine iff_of_false nofun ?_
    by_cases hqp : q = p
    · rw [if_pos hqp]
      exact nofun
    · rw [if_neg hqp]
      exact fun hq => hnoref q (Phase.ref_of_linkedAt hq)
  case hports =>
    rintro _ ⟨⟩
    exact List.nodup_nil
  case hrequested =>
    refine iff_of_false (fun hr => ?_) ?_
    · obtain ⟨b, hb, -⟩ := (h.requested n s.next).mp hr
      exact hnone b hb
    · rintro ⟨_, ⟨⟩, -, hl, -⟩
      exact hl rfl
  case hshared =>
    rintro _ ⟨⟩ q _ hq
    exact absurd (by rw [hq]; rfl) (hnoref q)

omit [DecidableEq ι] in
theorem mem_addPort {q : ι} (l : List ι) : q ∈ addPort p l ↔ q = p ∨ q ∈ l := by
  cases l with
  | nil => simp [addPort]
  | cons r l =>
    simp only [addPort, List.mem_cons]
    tauto

omit [DecidableEq ι] in
theorem nodup_addPort (hp : p ∉ l) (hl : l.Nodup) : (addPort p l).Nodup := by
  cases l with
  | nil => exact List.nodup_cons.mpr ⟨List.not_mem_nil, List.nodup_nil⟩
  | cons r l =>
    rw [List.mem_cons, not_or] at hp
    rw [List.nodup_cons] at hl
    refine List.nodup_cons.mpr ⟨?_, List.nodup_cons.mpr ⟨hp.2, hl.2⟩⟩
    rw [List.mem_cons, not_or]
    exact ⟨fun h => hp.1 h.symm, hl.1⟩

omit [DecidableEq ι] in
theorem length_addPort (l : List ι) : (addPort p l).length = l.length + 1 := by
  cases l <;> rfl

/-- A port that links joins the list, and requests the interrupt if it is the first. -/
theorem inv_doLink (h : Inv s) (hp : s.phase p = .found i) : Inv (s.doLink p i) := by
  obtain ⟨info, hinfo, hirq, hne⟩ := h.ref p i (by rw [hp]; rfl)
  obtain ⟨φ, hφ⟩ : ∃ φ, φ = if info.ports = [] then Phase.requesting i else .opened (some i) :=
    ⟨_, rfl⟩
  have hcases : info.ports = [] ∧ φ = .requesting i ∨ info.ports ≠ [] ∧ φ = .opened (some i) := by
    by_cases hl : info.ports = []
    · exact Or.inl ⟨hl, hφ.trans (if_pos hl)⟩
    · exact Or.inr ⟨hl, hφ.trans (if_neg hl)⟩
  have hlinkedAt : φ.linkedAt = some i ∧ φ.ref = some i := by
    rcases hcases with ⟨-, h⟩ | ⟨-, h⟩ <;> rw [h] <;> exact ⟨rfl, rfl⟩
  have hpending : ∀ j, φ.pending = some j → j = i ∧ info.ports = [] := by
    intro j hj
    rcases hcases with ⟨hl, h⟩ | ⟨-, h⟩
    · rw [h] at hj
      exact ⟨(Option.some.inj hj).symm, hl⟩
    · rw [h] at hj
      cases hj
  have hwas : (s.phase p).linkedAt = none ∧ (s.phase p).pending = none := by
    rw [hp]
    exact ⟨rfl, rfl⟩
  have hnotin : p ∉ info.ports := by
    rw [h.mem i info p hinfo, hwas.1]
    exact nofun
  have hchosen : ∀ j alone, φ ≠ .chosen j alone := by
    intro j alone hc
    rcases hcases with ⟨-, h⟩ | ⟨-, h⟩ <;> rw [h] at hc <;> cases hc
  have htimer := h.timer p
  rw [hp] at htimer
  have heq : s.doLink p i = (s.setPorts i info (addPort p info.ports)).goto p φ := by
    rw [State.doLink, hinfo, hφ]
  rw [heq]
  refine h.of_setPorts hinfo ?_ (fun q => ?_) (fun j _ => ?_) (fun j hj => ?_)
    (nodup_addPort hnotin (h.nodup i info hinfo)) ?_ (fun q hq hc => ?_) (hchosen · false)
  · refine ⟨fun j hj => ?_, fun ho => ?_, fun hl => ?_, fun j hj q hq => ?_,
      fun j hj => absurd hj (hchosen j true), ?_, fun hlock => ?_⟩
    · rw [hlinkedAt.2, Option.some_inj] at hj
      subst hj
      exact ⟨_, update_self _ _ _, hirq, hne⟩
    · rw [ho] at hlinkedAt
      cases hlinkedAt.1
    · rw [hl] at hlinkedAt
      cases hlinkedAt.1
    · obtain ⟨rfl, hl⟩ := hpending j hj
      have hempty : ∀ r, (s.phase r).linkedAt ≠ some j := by
        intro r hr
        have hmem := (h.mem j info r hinfo).mpr hr
        rw [hl] at hmem
        cases hmem
      exact ⟨fun hr => hempty q (Phase.linkedAt_of_pending hr),
        fun hc => hempty q (by rw [hc]; rfl)⟩
    · rcases hcases with ⟨-, h⟩ | ⟨-, h⟩
      · rw [h]
        exact htimer
      · rw [h]
        exact trivial
    · rcases hcases with ⟨-, h⟩ | ⟨-, h⟩ <;> rw [h] at hlock <;> exact hlock.elim
  · rw [mem_addPort]
    by_cases hqp : q = p
    · rw [if_pos hqp]
      exact iff_of_true (Or.inl hqp) hlinkedAt.1
    · rw [if_neg hqp]
      exact or_iff_right hqp
  · rw [hwas.1, hwas.2]
    exact ⟨nofun, nofun⟩
  · refine ⟨fun hc => hj ?_, fun hc => hj (hpending j hc).1⟩
    exact Option.some.inj (hc.symm.trans hlinkedAt.1)
  · have hnonempty : addPort p info.ports ≠ [] :=
      List.ne_nil_of_mem ((mem_addPort _).mpr (Or.inl rfl))
    rw [h.requested_iff p]
    constructor
    · rintro ⟨b, hb, -, hl, -, hrest⟩
      rw [hinfo, Option.some_inj] at hb
      subst hb
      exact ⟨hnonempty, fun hc => hl (hpending i hc).2, hrest⟩
    · rintro ⟨-, hpend, hrest⟩
      refine ⟨info, hinfo, rfl, fun hl => ?_, by rw [hwas.2]; exact nofun, hrest⟩
      rcases hcases with ⟨-, h⟩ | ⟨hl', -⟩
      · rw [h] at hpend
        exact hpend rfl
      · exact hl' hl
  · have hlen := h.shared q i info hc hinfo
    rw [length_addPort]
    omega

theorem unlinkList_singleton (p : ι) : unlinkList [p] p = some [] := if_pos rfl

/-- A port that is alone in the list leaves it. -/
theorem inv_unlink_last (h : Inv s) (hpend : (s.phase p).pending = some i)
    (hlast : ∀ info, s.infos i = some info → info.ports = [p]) (href : φ.ref = some i)
    (hout : φ.linkedAt = none) (hnone : φ.pending = none) (hφ : ∀ j alone, φ ≠ .chosen j alone)
    (hlinking : φ ≠ .linking) (htimer : φ.TimerOk (s.bugThre p) (s.timer p))
    (hlocks : φ.Locks → s.mutex = some p) : Inv (s.doUnlink p i φ) := by
  have hlinked := Phase.linkedAt_of_pending hpend
  obtain ⟨info, hinfo, hirq, hne⟩ := h.ref p i (Phase.ref_of_linkedAt hlinked)
  replace hlast := hlast info hinfo
  have heq : s.doUnlink p i φ = (s.setPorts i info []).goto p φ := by
    rw [State.doUnlink, hinfo]
    dsimp only
    rw [hlast, unlinkList_singleton]
  rw [heq]
  refine h.of_setPorts hinfo ?_ (fun q => ?_) (fun j hj => ?_) (fun j _ => ?_) List.nodup_nil
    ?_ (fun q hq hc => ?_) (hφ · false)
  · refine ⟨fun j hj => ?_, fun ho => ?_, fun hl => absurd hl hlinking, fun j hj => ?_,
      fun j hj => absurd hj (hφ j true), htimer, hlocks⟩
    · rw [href, Option.some_inj] at hj
      subst hj
      exact ⟨_, update_self _ _ _, hirq, hne⟩
    · rw [ho] at href
      cases href
    · rw [hnone] at hj
      cases hj
  · by_cases hqp : q = p
    · rw [if_pos hqp, hout]
      exact iff_of_false nofun nofun
    · rw [if_neg hqp, hlast, List.mem_singleton]
      exact iff_of_false nofun hqp
  · rw [hpend, hlinked]
    exact ⟨fun hc => hj (Option.some.inj hc).symm, fun hc => hj (Option.some.inj hc).symm⟩
  · rw [hout, hnone]
    exact ⟨nofun, nofun⟩
  · refine iff_of_false (fun hr => ?_) fun hc => hc.1 rfl
    obtain ⟨-, -, -, -, hp, -⟩ := (h.requested_iff p _ _).mp hr
    exact hp hpend
  · have hmem := (h.mem i info q hinfo).mpr (by rw [hc]; rfl)
    rw [hlast, List.mem_singleton] at hmem
    exact absurd hmem hq

/-- A port leaves the list, which others are still in. -/
theorem inv_unlink_shared (h : Inv s) (hp : s.phase p = .chosen i false)
    (hinfo : s.infos i = some info) :
    Inv ((s.setPorts i info (info.ports.erase p)).goto p (.emptied i)) := by
  have hlinked : (s.phase p).linkedAt = some i := by rw [hp]; rfl
  have hin : p ∈ info.ports := (h.mem i info p hinfo).mpr hlinked
  have hlen := h.shared p i info hp hinfo
  have hnodup := h.nodup i info hinfo
  have hnonempty : info.ports.erase p ≠ [] := by
    intro hnil
    have herase := List.length_erase_of_mem hin
    rw [hnil, List.length_nil] at herase
    omega
  obtain ⟨a, ha, hirq, hne⟩ := h.ref p i (by rw [hp]; rfl)
  rw [hinfo, Option.some_inj] at ha
  subst ha
  have htimer := h.timer p
  rw [hp] at htimer
  refine h.of_setPorts hinfo ?_ (fun q => ?_) (fun j hj => ?_) (fun j _ => ⟨nofun, nofun⟩)
    (hnodup.erase p) ?_ (fun q hq hc => ?_) nofun
  · refine ⟨fun j hj => ?_, nofun, nofun, nofun, nofun, htimer,
      fun _ => h.mutex p (by rw [hp]; trivial)⟩
    cases hj
    exact ⟨_, update_self _ _ _, hirq, hne⟩
  · rw [hnodup.mem_erase_iff]
    by_cases hqp : q = p
    · rw [if_pos hqp]
      exact iff_of_false (fun hc => hc.1 hqp) nofun
    · rw [if_neg hqp]
      exact and_iff_right hqp
  · rw [hlinked, hp]
    exact ⟨fun hc => hj (Option.some.inj hc).symm, nofun⟩
  · rw [h.requested_iff p]
    constructor
    · rintro ⟨-, -, -, -, -, hrest⟩
      exact ⟨hnonempty, nofun, hrest⟩
    · rintro ⟨-, -, hrest⟩
      refine ⟨info, hinfo, rfl, List.ne_nil_of_mem hin, ?_, hrest⟩
      rw [hp]
      exact nofun
  · have hp' := h.mutex p (by rw [hp]; trivial)
    have hq' := h.mutex q (by rw [hc]; trivial)
    exact absurd (Option.some.inj (hq'.symm.trans hp')) hq

/-- An `irq_info` without ports that no port has looked up is thrown away. -/
theorem inv_free (h : Inv s) (u : State ι) (hu : u.infos = s.infos ∧ u.next = s.next ∧
      u.hash = s.hash ∧ u.fault = s.fault ∧ u.requested = s.requested)
    (hframe : Frame s ((u.free i).goto p .closed) p .closed) (hinfo : s.infos i = some info)
    (hempty : info.ports = []) (hp : (s.phase p).linkedAt = none)
    (htimer : u.timer p = false) (hclear : ∀ q, q ≠ p → (s.phase q).ref ≠ some i) :
    Inv ((u.free i).goto p .closed) := by
  obtain ⟨hinfos, hnext, hhash, hfault, hreq⟩ := hu
  have hpend : (s.phase p).pending = none := by
    cases hc : (s.phase p).pending with
    | none => rfl
    | some j =>
      rw [Phase.linkedAt_of_pending hc] at hp
      cases hp
  refine h.of_update hframe ?hfits (hinfos ▸ rfl) hfault hreq hnext.ge (absurd rfl)
    (fun j => ?hhash) (List.Nodup.erase i (hhash ▸ h.hash_nodup)) nofun
    (fun q _ hq href => absurd href (hclear q hq)) (fun j _ => ?hwas) (fun _ _ => ⟨nofun, nofun⟩)
    nofun nofun (fun n => ?hrequested) nofun nofun
  case hfits => exact ⟨nofun, nofun, nofun, nofun, nofun, htimer, False.elim⟩
  case hhash =>
    show j ∈ u.hash.erase i ↔ _
    rw [hhash, h.hash_nodup.mem_erase_iff]
    by_cases hj : j = i
    · rw [if_pos hj]
      exact iff_of_false (fun hmem => hmem.1 hj) (absurd rfl)
    · rw [if_neg hj]
      exact and_iff_right hj
  case hwas =>
    rw [hp, hpend]
    exact ⟨nofun, nofun⟩
  case hrequested =>
    refine iff_of_false (fun hr => ?_) nofun
    obtain ⟨b, hb, -, hl, -⟩ := (h.requested n i).mp hr
    rw [hinfo, Option.some_inj] at hb
    exact hl (hb ▸ hempty)

theorem unlinkList_shared (hl : 2 ≤ l.length) : unlinkList l p = some (l.erase p) := by
  cases l with
  | nil => exact absurd hl (by simp)
  | cons q l =>
    cases l with
    | nil => exact absurd hl (by simp)
    | cons r l => rfl

theorem inv_unlinkFailed (h : Inv s) (hp : s.phase p = .failed i)
    (hclear : Clear s (.unlinkFailed p)) : Inv (s.doUnlink p i (.unlinked i)) := by
  have htimer := h.timer p
  rw [hp] at htimer
  exact inv_unlink_last h (by rw [hp]; rfl) (fun info => hclear i info hp) rfl rfl rfl nofun nofun
    htimer False.elim

theorem inv_unlink_dropped (h : Inv s) (hp : s.phase p = .dropped i)
    (hclear : Clear s (.unlink p)) : Inv (s.doUnlink p i (.emptied i)) := by
  have htimer := h.timer p
  rw [hp] at htimer
  exact inv_unlink_last h (by rw [hp]; rfl) (fun info => hclear i info hp) rfl rfl rfl nofun nofun
    htimer fun _ => h.mutex p (by rw [hp]; trivial)

theorem inv_unlink_chosen (h : Inv s) (hp : s.phase p = .chosen i false) :
    Inv (s.doUnlink p i (.emptied i)) := by
  obtain ⟨info, hinfo, -⟩ := h.ref p i (by rw [hp]; rfl)
  have heq : s.doUnlink p i (.emptied i) =
      (s.setPorts i info (info.ports.erase p)).goto p (.emptied i) := by
    rw [State.doUnlink, hinfo]
    dsimp only
    rw [unlinkList_shared (h.shared p i info hp hinfo)]
  rw [heq]
  exact inv_unlink_shared h hp hinfo

theorem inv_doFree (h : Inv s) (href : (s.phase p).ref = some i)
    (hlinked : (s.phase p).linkedAt = none) (hpending : (s.phase p).pending = none)
    (htimer : s.timer p = false) (m : Option ι)
    (hmutex : ∀ q, q ≠ p → (s.phase q).Locks → m = some q)
    (hclear : ∀ info, s.infos i = some info → info.ports = [] →
      ∀ q, q ≠ p → (s.phase q).ref ≠ some i) :
    Inv { s.doFree p i with mutex := m } := by
  obtain ⟨info, hinfo, -⟩ := h.ref p i href
  by_cases hempty : info.ports = []
  · have heq : { s.doFree p i with mutex := m } =
        (({ s with mutex := m } : State ι).free i).goto p .closed := by
      rw [State.doFree, hinfo]
      dsimp only
      rw [if_pos hempty]
      rfl
    rw [heq]
    exact inv_free h { s with mutex := m } ⟨rfl, rfl, rfl, rfl, rfl⟩
      ⟨rfl, fun _ _ => rfl, fun _ _ => rfl, fun _ _ => rfl, hmutex⟩ hinfo hempty hlinked htimer
      (hclear info hinfo hempty)
  · have heq : { s.doFree p i with mutex := m } =
        ({ s with mutex := m } : State ι).goto p .closed := by
      rw [State.doFree, hinfo]
      dsimp only
      rw [if_neg hempty]
      rfl
    rw [heq]
    exact inv_close h { s with mutex := m } rfl rfl rfl rfl rfl
      ⟨rfl, fun _ _ => rfl, fun _ _ => rfl, fun _ _ => rfl, hmutex⟩ hlinked hpending htimer

/-- A release finds the `irq_info` that its port is linked into. -/
theorem inv_doFind (h : Inv s) (hp : s.phase p = .releasing i) (hm : s.mutex = none) :
    Inv (s.doFind p) := by
  obtain ⟨info, hinfo, hirq, hne⟩ := h.ref p i (by rw [hp]; rfl)
  have hlinked : (s.phase p).linkedAt = some i := by rw [hp]; rfl
  have hin : p ∈ info.ports := (h.mem i info p hinfo).mpr hlinked
  have hfree : ∀ q, ¬ (s.phase q).Locks := by
    intro q hq
    have hmq := h.mutex q hq
    rw [hm] at hmq
    cases hmq
  have hfind : s.find (s.irq p) = some i := by
    rw [← hirq]
    exact h.find_of_mem hinfo
  have heq : s.doFind p = ({ s with mutex := some p } : State ι).goto p
      (.chosen i (decide (info.ports.length = 1))) := by
    rw [State.doFind, hfind]
    dsimp only
    rw [hinfo]
    dsimp only
    rw [if_neg (List.ne_nil_of_mem hin)]
  have htimer := h.timer p
  rw [hp] at htimer
  rw [heq]
  refine h.of_phase ⟨rfl, fun _ _ => rfl, fun _ _ => rfl, fun _ _ => rfl,
    fun q _ hq => absurd hq (hfree q)⟩ ?_ rfl rfl rfl rfl rfl hlinked.symm (by rw [hp]; rfl) ?_
  · refine ⟨fun j hj => h.ref p j (by rw [hp]; exact hj), nofun, nofun, nofun,
      fun j hj q hq hpend => ?_, htimer, fun _ => rfl⟩
    obtain ⟨rfl, halone⟩ := Phase.chosen.inj hj
    obtain ⟨r, hr⟩ := List.length_eq_one_iff.mp (of_decide_eq_true halone)
    have hq' := h.mem_of_pending hinfo hpend
    rw [hr, List.mem_singleton] at hin hq'
    exact hq (hq'.trans hin.symm)
  · intro j b hj hb
    obtain ⟨rfl, halone⟩ := Phase.chosen.inj hj
    rw [hinfo, Option.some_inj] at hb
    subst hb
    have hone := of_decide_eq_false halone
    have hpos := List.length_pos_of_mem hin
    omega

theorem inv_release (h : Inv s) {o : Option Nat} (hp : s.phase p = .opened o) :
    Inv ({ s with timer := update s.timer p false }.goto p
      (o.elim .closed .releasing)) := by
  have hframe : ∀ φ, Frame s
      (({ s with timer := update s.timer p false } : State ι).goto p φ) p φ :=
    fun φ => ⟨rfl, fun _ _ => rfl, fun _ _ => rfl, fun q hq => update_of_ne hq _ _,
      fun q _ hq => h.mutex q hq⟩
  have htimer : update s.timer p false p = false := update_self _ _ _
  cases o with
  | none =>
    exact inv_close h { s with timer := update s.timer p false } rfl rfl rfl rfl rfl
      (hframe .closed) (by rw [hp]; rfl) (by rw [hp]; rfl) htimer
  | some i =>
    refine h.of_phase (hframe (.releasing i)) ?_ rfl rfl rfl rfl rfl (by rw [hp]; rfl)
      (by rw [hp]; rfl) nofun
    exact ⟨fun j hj => h.ref p j (by rw [hp]; exact hj), nofun, nofun, nofun, nofun, htimer,
      False.elim⟩

/-- The last port gives the interrupt back. -/
theorem inv_freeIrq (h : Inv s) (hp : s.phase p = .chosen i true) :
    Inv ({ s with requested := update s.requested (s.irq p, i) false }.goto p
      (.dropped i)) := by
  obtain ⟨info, hinfo, hirq, hne⟩ := h.ref p i (by rw [hp]; rfl)
  have hlinked : (s.phase p).linkedAt = some i := by rw [hp]; rfl
  have hpend : (s.phase p).pending = none := by rw [hp]; rfl
  have htimer := h.timer p
  rw [hp] at htimer
  refine h.of_goto (Frame.of_goto h _ rfl rfl rfl rfl rfl) ?_ rfl rfl rfl rfl hlinked.symm
    (fun n j => ?_) nofun
  · refine ⟨fun j hj => h.ref p j (by rw [hp]; exact hj), nofun, nofun, fun j hj q hq => ?_, nofun,
      htimer, fun _ => h.mutex p (by rw [hp]; trivial)⟩
    cases hj
    refine ⟨h.alone p i hp q, fun hc => ?_⟩
    have hp' := h.mutex p (by rw [hp]; trivial)
    have hq' := h.mutex q (by rw [hc]; trivial)
    exact hq (Option.some.inj (hq'.symm.trans hp'))
  · show update s.requested (s.irq p, i) false (n, j) = true ↔ _
    by_cases hnj : (n, j) = (s.irq p, i)
    · cases hnj
      rw [update_self]
      refine iff_of_false nofun ?_
      rintro ⟨-, -, -, -, hc, -⟩
      exact hc rfl
    · rw [update_of_ne hnj, h.requested_iff p, hpend]
      constructor
      · rintro ⟨b, hb, hn, hl, -, hrest⟩
        refine ⟨b, hb, hn, hl, fun hc => ?_, hrest⟩
        cases hc
        rw [hinfo, Option.some_inj] at hb
        subst hb
        exact hnj (by rw [← hn, hirq])
      · rintro ⟨b, hb, hn, hl, -, hrest⟩
        exact ⟨b, hb, hn, hl, nofun, hrest⟩

theorem doFree_mutex (s : State ι) (p : ι) (i : Nat) : (s.doFree p i).mutex = s.mutex := by
  rw [State.doFree]
  split
  · rfl
  · split <;> rfl

theorem inv_doLookup (h : Inv s) {alloc : Bool} (hp : s.phase p = .linking)
    (hclear : Clear s (.lookup p alloc)) : Inv (s.doLookup p alloc) := by
  have htimer := h.timer p
  rw [hp] at htimer
  rw [State.doLookup]
  split
  · rename_i i hf
    exact inv_lookup_found h hp hf
  · rename_i hf
    by_cases halloc : alloc = true
    · rw [if_pos halloc]
      exact inv_lookup_alloc h hp hf
    · rw [if_neg halloc]
      exact inv_close h s rfl rfl rfl rfl rfl (Frame.of_goto h s rfl rfl rfl rfl rfl)
        (by rw [hp]; rfl) (by rw [hp]; rfl)
        (htimer.trans (hclear hf (Bool.not_eq_true _ ▸ halloc)))

theorem inv_doRequest (h : Inv s) {ok : Bool} (hp : s.phase p = .requesting i)
    (hclear : Clear s (.request p ok)) : Inv (s.doRequest p i ok) := by
  rw [State.doRequest]
  by_cases hok : ok = true
  · rw [if_pos hok]
    exact inv_request_ok h hp
  · rw [if_neg hok]
    exact inv_request_failed h hp (hclear (Bool.not_eq_true _ ▸ hok))

theorem inv_freeFailed (h : Inv s) (hp : s.phase p = .unlinked i)
    (hclear : Clear s (.freeFailed p)) : Inv (s.doFree p i) := by
  have htimer := h.timer p
  rw [hp] at htimer
  exact inv_doFree h (by rw [hp]; rfl) (by rw [hp]; rfl) (by rw [hp]; rfl) htimer
    (s.doFree p i).mutex (fun q _ hlock => (doFree_mutex s p i).trans (h.mutex q hlock))
    (fun info => hclear i info hp)

/-- The end of a release gives `hash_mutex` back, which no other port holds. -/
theorem inv_finish (h : Inv s) (hp : s.phase p = .emptied i) (hclear : Clear s (.finish p)) :
    Inv { s.doFree p i with mutex := none } := by
  have htimer := h.timer p
  rw [hp] at htimer
  refine inv_doFree h (by rw [hp]; rfl) (by rw [hp]; rfl) (by rw [hp]; rfl) htimer none
    (fun q hq hlock => ?_) (fun info => hclear i info hp)
  have hp' := h.mutex p (by rw [hp]; trivial)
  exact absurd (Option.some.inj ((h.mutex q hlock).symm.trans hp')) hq

/-- **The invariant of one step**: it is the lemma of the section that the step runs. -/
theorem Inv.step {e : Step ι} (h : Inv s) (hclear : Clear s e) (hstep : step s e = some t) :
    Inv t := by
  cases e with
  | setup p n thre =>
    rw [IrqChain.step] at hstep
    split at hstep
    · rename_i hp
      exact Option.some.inj hstep ▸ inv_doSetup h hp n thre
    · cases hstep
  | lookup p alloc =>
    rw [IrqChain.step] at hstep
    split at hstep
    · rename_i hp
      obtain ⟨-, heq⟩ := Option.ite_none_right_eq_some.mp hstep
      exact Option.some.inj heq ▸ inv_doLookup h hp hclear
    · cases hstep
  | link p =>
    rw [IrqChain.step] at hstep
    split at hstep
    · rename_i i hp
      exact Option.some.inj hstep ▸ inv_doLink h hp
    · cases hstep
  | request p ok =>
    rw [IrqChain.step] at hstep
    split at hstep
    · rename_i i hp
      exact Option.some.inj hstep ▸ inv_doRequest h hp hclear
    · cases hstep
  | unlinkFailed p =>
    rw [IrqChain.step] at hstep
    split at hstep
    · rename_i i hp
      exact Option.some.inj hstep ▸ inv_unlinkFailed h hp hclear
    · cases hstep
  | freeFailed p =>
    rw [IrqChain.step] at hstep
    split at hstep
    · rename_i i hp
      exact Option.some.inj hstep ▸ inv_freeFailed h hp hclear
    · cases hstep
  | release p =>
    rw [IrqChain.step] at hstep
    split at hstep
    · rename_i o hp
      exact Option.some.inj hstep ▸ inv_release h hp
    · cases hstep
  | find p =>
    rw [IrqChain.step] at hstep
    split at hstep
    · rename_i i hp
      obtain ⟨hm, heq⟩ := Option.ite_none_right_eq_some.mp hstep
      exact Option.some.inj heq ▸ inv_doFind h hp hm
    · cases hstep
  | freeIrq p =>
    rw [IrqChain.step] at hstep
    split at hstep
    · rename_i i hp
      exact Option.some.inj hstep ▸ inv_freeIrq h hp
    · cases hstep
  | unlink p =>
    rw [IrqChain.step] at hstep
    split at hstep
    · rename_i i hp
      exact Option.some.inj hstep ▸ inv_unlink_chosen h hp
    · rename_i i hp
      exact Option.some.inj hstep ▸ inv_unlink_dropped h hp hclear
    · cases hstep
  | finish p =>
    rw [IrqChain.step] at hstep
    split at hstep
    · rename_i i hp
      exact Option.some.inj hstep ▸ inv_finish h hp hclear
    · cases hstep

end

section

variable {s t : State ι}

omit [DecidableEq ι] in
theorem State.Quiet.linkedAt (hq : s.Quiet) {p : ι} {i : Nat} :
    (s.phase p).linkedAt = some i ↔ s.phase p = .opened (some i) := by
  rcases hq p with hp | hp
  · rw [hp]
    exact ⟨nofun, nofun⟩
  · cases hphase : s.phase p with
    | opened o =>
      exact ⟨fun h => congrArg Phase.opened h, fun h => Phase.opened.inj h⟩
    | _ =>
      rw [hphase] at hp
      exact hp.elim

omit [DecidableEq ι] in
theorem State.Quiet.pending (hq : s.Quiet) (p : ι) : (s.phase p).pending = none := by
  rcases hq p with hp | hp
  · rw [hp]
    rfl
  · cases hphase : s.phase p with
    | opened o => rfl
    | _ =>
      rw [hphase] at hp
      exact hp.elim

omit [DecidableEq ι] in
theorem Inv.toChainsOk (h : Inv s) : ChainsOk s where
  fault := h.fault
  timer := by
    intro p hp
    have htimer := h.timer p
    rw [hp] at htimer
    exact htimer
  unique := by
    intro _ n i j info info' hi hj
    exact h.irq_inj i j info info' hi.2.1 hj.2.1 (hi.2.2.trans hj.2.2.symm)
  nodup := fun _ => ⟨h.hash_nodup, fun _ i info hi => h.nodup i info hi.2.1⟩
  members := by
    intro hq n hn p
    constructor
    · rintro ⟨i, info, ⟨-, hinfo, hirq⟩, hp⟩
      have hlinked := (h.mem i info p hinfo).mp hp
      have hopen := hq.linkedAt.mp hlinked
      obtain ⟨b, hb, hbirq, -⟩ := h.ref p i (Phase.ref_of_linkedAt hlinked)
      rw [hinfo, Option.some_inj] at hb
      subst hb
      rw [hopen]
      exact ⟨trivial, hbirq.symm.trans hirq⟩
    · rintro ⟨hopen, hirq⟩
      cases hphase : s.phase p with
      | opened o =>
        cases o with
        | none => exact absurd (hirq.symm.trans (h.opened p hphase)) hn
        | some i =>
          obtain ⟨info, hinfo, hinfoirq, -⟩ := h.ref p i (by rw [hphase]; rfl)
          refine ⟨i, info, ⟨(h.hash_mem i).mpr ⟨info, hinfo⟩, hinfo, hinfoirq.trans hirq⟩, ?_⟩
          exact (h.mem i info p hinfo).mpr (by rw [hphase]; rfl)
      | _ =>
        rw [hphase] at hopen
        exact hopen.elim
  requested := by
    intro hq n _
    constructor
    · rintro ⟨i, hi⟩
      obtain ⟨info, hinfo, hirq, hl, -⟩ := (h.requested n i).mp hi
      exact ⟨i, info, ⟨(h.hash_mem i).mpr ⟨info, hinfo⟩, hinfo, hirq⟩, hl⟩
    · rintro ⟨i, info, ⟨-, hinfo, hirq⟩, hl⟩
      refine ⟨i, (h.requested n i).mpr ⟨info, hinfo, hirq, hl, fun p => ?_⟩⟩
      rw [hq.pending p]
      exact nofun

/-- **The chains are right** in every state of a run from boot whose steps are in the way of no
other call. -/
theorem chainsOk_of_clear (es : List (Step ι)) (hclear : Along step Clear State.boot es)
    (hrun : exec step State.boot es = some t) : ChainsOk t :=
  (exec_invariant (fun _ _ _ h hclear hstep => Inv.step h hclear hstep) inv_boot hclear
    hrun).toChainsOk

end

/-- The first port's request fails after the second one has joined it. -/
def failingFirst : List (Step Bool) :=
  [.setup false 31 false, .lookup false true, .link false, .setup true 31 false, .lookup true true,
    .link true, .request false false, .unlinkFailed false, .freeFailed false]

/-- The second port joins after the first one's request has been granted. -/
def joinInTurn : List (Step Bool) :=
  [.setup false 31 true, .lookup false true, .link false, .request false true, .setup true 31 false,
    .lookup true true, .link true]

/-- Two ports that share an interrupt. -/
theorem chainsOk_joinInTurn :
    Along step Clear State.boot joinInTurn ∧
      ∃ t, exec step State.boot joinInTurn = some t ∧ ChainsOk t := by
  have hclear : Along step Clear (State.boot : State Bool) joinInTurn := by
    refine Along.mono (fun s _ h => h s) (Along.of_mem (D := fun e => ∀ s, Clear s e) ?_)
    intro e he s
    simp only [joinInTurn, List.mem_cons, List.not_mem_nil, or_false] at he
    rcases he with rfl | rfl | rfl | rfl | rfl | rfl | rfl <;> simp [Clear]
  obtain ⟨t, hrun⟩ : ∃ t, exec step (State.boot : State Bool) joinInTurn = some t :=
    Option.isSome_iff_exists.mp rfl
  exact ⟨hclear, t, hrun, chainsOk_of_clear joinInTurn hclear hrun⟩

/-- The second port is left without an interrupt. -/
theorem not_chainsOk :
    ¬ ∀ (es : List (Step Bool)) (t : State Bool), exec step State.boot es = some t →
      ChainsOk t := by
  intro hclaim
  obtain ⟨t, ht⟩ : ∃ t, exec step (State.boot : State Bool) failingFirst = some t :=
    Option.isSome_iff_exists.mp rfl
  have hphase : (exec step (State.boot : State Bool) failingFirst).map
      (fun t => (t.phase false, t.phase true)) = some (.closed, .opened (some 0)) := rfl
  have hrequested : (exec step (State.boot : State Bool) failingFirst).map State.requested =
      some fun _ => false := rfl
  have hchain : (exec step (State.boot : State Bool) failingFirst).map
      (fun t => (t.hash, t.infos 0)) = some ([0], some { irq := 31, ports := [true] }) := rfl
  rw [ht, Option.map_some, Option.some_inj] at hphase hrequested hchain
  obtain ⟨hclosed, hopen⟩ := Prod.mk.inj hphase
  obtain ⟨hhash, hinfo⟩ := Prod.mk.inj hchain
  have hquiet : t.Quiet := by
    intro p
    cases p with
    | false => exact Or.inl hclosed
    | true =>
      rw [hopen]
      exact Or.inr trivial
  have hi : (0 : Nat) ∈ t.hash := by
    rw [hhash]
    exact List.mem_singleton.mpr rfl
  have hreq := ((hclaim failingFirst t ht).requested hquiet 31 (by decide)).mpr
    ⟨0, _, ⟨hi, hinfo, rfl⟩, by simp⟩
  obtain ⟨i, htrue⟩ := hreq
  rw [hrequested] at htrue
  cases htrue

end RealtekIpcam.Serial.IrqChain
