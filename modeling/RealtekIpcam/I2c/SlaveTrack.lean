import Mathlib
import RealtekIpcam.I2c.Slave

/-!
# What the slave has still to tell

A transaction on the bus becomes items, and each item has its events.  `Alternates`
is what alternating transactions leave of themselves in the items: it goes with the
status bits of the driver, which are set by a change of direction and by nothing
else.

`Track` is the account of a controller: the events told so far, and those of the
items that are pending or to come, make up those of all transactions.  The lemmas
below say how the account moves when the bus goes on, when a byte is taken, when a
request is cleared, and when a stop is cleared and told later.
-/

namespace RealtekIpcam.I2c

/-! ## Transactions -/

/-- A transaction that is addressed to the slave: bytes that are written, or the
first byte that is read and a number of further ones; a stop follows, or the next
transaction is begun by a repeated START. -/
inductive Transaction where
  | write (vals : List Byte) (stop : Bool)
  | read (more : Nat) (stop : Bool)
  deriving DecidableEq

namespace Transaction

def isRead : Transaction → Bool
  | write _ _ => false
  | read _ _ => true

/-- Some byte is written or read. -/
def Moves : Transaction → Prop
  | write vals _ => vals ≠ []
  | read _ _ => True

instance decidableMoves : DecidablePred Moves
  | write vals _ => inferInstanceAs (Decidable (vals ≠ []))
  | read _ _ => isTrue trivial

/-- What happens on the bus. -/
def items : Transaction → List Item
  | write vals stop =>
    .start :: (match vals with
      | [] => []
      | val :: vals => .byte true val :: vals.map (.byte false)) ++
        if stop then [.stop] else []
  | read more stop =>
    .start :: .request true :: List.replicate more (.request false) ++
      if stop then [.stop] else []

/-- The events that the backend is to get. -/
def events : Transaction → List I2cSlaveEvent
  | write vals stop =>
    .writeRequested :: vals.map .writeReceived ++ if stop then [.stop] else []
  | read more stop =>
    .readRequested :: List.replicate more .readProcessed ++ if stop then [.stop] else []

end Transaction

/-- Reads and writes take turns, and every write has a byte. -/
def Alternating (ts : List Transaction) : Prop :=
  (∀ t ∈ ts, t.Moves) ∧ ts.IsChain fun t u => t.isRead ≠ u.isRead
  deriving Decidable

def Item.events : Item → List I2cSlaveEvent
  | .start => []
  | .byte first val => if first then [.writeRequested, .writeReceived val] else [.writeReceived val]
  | .request first => if first then [.readRequested] else [.readProcessed]
  | .stop => [.stop]

/-- The items go with the status bits `w` and `r`: the first byte, and the first
request, comes when its bit is clear, and no other.  `n` says that a stop was the
last item. -/
def Alternates : Bool → Bool → Bool → List Item → Prop
  | _, _, _, [] => True
  | w, r, n, .start :: items => Alternates w r n items
  | w, _, n, .byte first _ :: items =>
    first = !w ∧ (n = true → first = true) ∧ Alternates true false false items
  | _, r, n, .request first :: items =>
    first = !r ∧ (n = true → first = true) ∧ Alternates false true false items
  | w, r, n, .stop :: items => n = false ∧ Alternates w r true items

/-! ## From transactions to items -/

theorem Alternates.bytes {items : List Item} (h : Alternates true false false items)
    (vals : List Byte) : Alternates true false false (vals.map (.byte false) ++ items) := by
  induction vals with
  | nil => exact h
  | cons val vals ih => exact ⟨rfl, fun hn => (by cases hn), ih⟩

theorem Alternates.requests {items : List Item} (h : Alternates false true false items) (n : Nat) :
    Alternates false true false (List.replicate n (.request false) ++ items) := by
  induction n with
  | zero => exact h
  | succ n ih => exact ⟨rfl, fun hn => (by cases hn), ih⟩

theorem Transaction.alternates {t : Transaction} (ht : t.Moves) {w r n : Bool} {rest : List Item}
    (hw : t.isRead = false → w = false) (hr : t.isRead = true → r = false)
    (h : ∀ n, Alternates (!t.isRead) t.isRead n rest) : Alternates w r n (t.items ++ rest) := by
  cases t with
  | write vals stop =>
    cases vals with
    | nil => exact absurd rfl ht
    | cons val vals =>
      have hstop : Alternates true false false ((if stop then [.stop] else []) ++ rest) := by
        cases stop
        · exact h false
        · exact ⟨rfl, h true⟩
      have hbytes := hstop.bytes vals
      rw [← List.append_assoc] at hbytes
      exact ⟨by rw [hw rfl]; rfl, fun _ => rfl, hbytes⟩
  | read more stop =>
    have hstop : Alternates false true false ((if stop then [.stop] else []) ++ rest) := by
      cases stop
      · exact h false
      · exact ⟨rfl, h true⟩
    have hrequests := hstop.requests more
    rw [← List.append_assoc] at hrequests
    exact ⟨by rw [hr rfl]; rfl, fun _ => rfl, hrequests⟩

theorem alternates_items {ts : List Transaction} (h : Alternating ts) {w r : Bool} (n : Bool)
    (hw : ∀ t ∈ ts.head?, t.isRead = false → w = false)
    (hr : ∀ t ∈ ts.head?, t.isRead = true → r = false) :
    Alternates w r n (ts.flatMap Transaction.items) := by
  induction ts generalizing w r n with
  | nil => trivial
  | cons t ts ih =>
    obtain ⟨hmoves, hchain⟩ := h
    rw [List.isChain_cons] at hchain
    rw [List.flatMap_cons]
    refine Transaction.alternates (hmoves t List.mem_cons_self) (hw t rfl) (hr t rfl) fun n => ?_
    refine ih ⟨fun u hu => hmoves u (List.mem_cons_of_mem t hu), hchain.2⟩ n ?_ ?_
    · intro u hu hread
      have := hchain.1 u hu
      rw [hread] at this
      simpa using this
    · intro u hu hread
      have := hchain.1 u hu
      rw [hread] at this
      simpa using this

theorem Transaction.items_events {t : Transaction} (ht : t.Moves) :
    t.items.flatMap Item.events = t.events := by
  have hstop : ∀ stop : Bool, (if stop then [Item.stop] else []).flatMap Item.events =
      if stop then [I2cSlaveEvent.stop] else [] := by
    intro stop
    cases stop <;> rfl
  cases t with
  | write vals stop =>
    cases vals with
    | nil => exact absurd rfl ht
    | cons val vals =>
      have hbytes : (vals.map (Item.byte false)).flatMap Item.events =
          vals.map I2cSlaveEvent.writeReceived := by
        induction vals with
        | nil => rfl
        | cons val vals ih =>
          rw [List.map_cons, List.flatMap_cons, ih (by exact List.cons_ne_nil _ _)]
          rfl
      simp [items, events, Item.events, hbytes, hstop]
  | read more stop =>
    have hrequests : (List.replicate more (Item.request false)).flatMap Item.events =
        List.replicate more I2cSlaveEvent.readProcessed := by
      induction more with
      | zero => rfl
      | succ more ih =>
        rw [List.replicate_succ, List.flatMap_cons, ih trivial]
        rfl
    simp [items, events, Item.events, hrequests, hstop]

/-! ## The controller -/

theorem alternates_start {w r n : Bool} {v items : List Item} :
    Alternates w r n (v ++ .start :: items) ↔ Alternates w r n (v ++ items) := by
  induction v generalizing w r n with
  | nil => rfl
  | cons x v ih =>
    cases x with
    | start => exact ih
    | byte first val => exact and_congr_right fun _ => and_congr_right fun _ => ih
    | request first => exact and_congr_right fun _ => and_congr_right fun _ => ih
    | stop => exact and_congr_right fun _ => ih

theorem SlaveHw.iterate_step_held {hw : SlaveHw} (h : hw.held = true) (n : Nat) :
    SlaveHw.step^[n] hw = hw :=
  Function.iterate_fixed (by simp only [SlaveHw.step, h, if_true]) n

/-- What is still to be told: with the events `evs` told and the status bits `w`
and `r`, the items `v` come next.  They are what is pending, except that with
`owed` a stop among them was cleared already.  A request is the last of them, as
it holds the bus. -/
structure Track (E evs : List I2cSlaveEvent) (w r : Bool) (v : List Item) (owed : Bool)
    (hw : SlaveHw) : Prop where
  events : evs ++ (v ++ hw.todo).flatMap Item.events = E
  alternates : ∃ n, Alternates w r n (v ++ hw.todo)
  last : ∀ x ∈ v.dropLast, x.isRequest = false
  held : (∃ x ∈ v, x.isRequest = true) → hw.held = true
  noStart : Item.start ∉ v
  pending : hw.pending = if owed then v.eraseP Item.isStop else v
  owed : owed = true → Item.stop ∈ v

namespace Track

variable {E evs : List I2cSlaveEvent} {w r owed : Bool} {v : List Item} {hw : SlaveHw}

theorem raise (h : Track E evs w r v owed hw) {x : Item} {todo : List Item}
    (htodo : hw.todo = x :: todo) (hstart : x ≠ .start) (hheld : hw.held = false) {hw' : SlaveHw}
    (htodo' : hw'.todo = todo) (hpending : hw'.pending = hw.pending ++ [x])
    (hheld' : x.isRequest = true → hw'.held = true) :
    Track E evs w r (v ++ [x]) owed hw' := by
  have hnone : ∀ y ∈ v, y.isRequest = false := by
    intro y hy
    cases hreq : y.isRequest
    · rfl
    · rw [h.held ⟨y, hy, hreq⟩] at hheld
      cases hheld
  have hsplit : v ++ [x] ++ hw'.todo = v ++ hw.todo := by
    rw [htodo, htodo', List.append_assoc, List.singleton_append]
  refine ⟨?_, ?_, ?_, ?_, ?_, ?_, fun ho => List.mem_append_left _ (h.owed ho)⟩
  · rw [hsplit]
    exact h.events
  · rw [hsplit]
    exact h.alternates
  · rw [List.dropLast_concat]
    exact hnone
  · rintro ⟨y, hy, hreq⟩
    rcases List.mem_append.mp hy with hy | hy
    · rw [hnone y hy] at hreq
      cases hreq
    · rw [List.mem_singleton] at hy
      exact hheld' (hy ▸ hreq)
  · intro hmem
    rcases List.mem_append.mp hmem with hmem | hmem
    · exact h.noStart hmem
    · exact hstart (List.mem_singleton.mp hmem).symm
  · rw [hpending, h.pending]
    cases ho : owed
    · rfl
    · exact (List.eraseP_append_left (p := Item.isStop) rfl _ (h.owed ho)).symm

/-- A step of the bus makes its next items visible, unless it is held. -/
theorem step (h : Track E evs w r v owed hw) :
    ∃ new, Track E evs w r (v ++ new) owed hw.step ∧ (hw.held = true → new = []) ∧
      (hw.step.pending ++ hw.step.todo).countP Item.isByte =
        (hw.pending ++ hw.todo).countP Item.isByte := by
  have hsame : ∃ new, Track E evs w r (v ++ new) owed hw ∧ (hw.held = true → new = []) ∧
      (hw.pending ++ hw.todo).countP Item.isByte = (hw.pending ++ hw.todo).countP Item.isByte :=
    ⟨[], by rw [List.append_nil]; exact h, fun _ => rfl, rfl⟩
  simp only [SlaveHw.step]
  split
  next => exact hsame
  next hheld =>
    rw [Bool.not_eq_true] at hheld
    split
    next => exact hsame
    next todo htodo =>
      refine ⟨[], ?_, fun _ => rfl, ?_⟩
      · rw [List.append_nil]
        obtain ⟨n, hn⟩ := h.alternates
        have hev := h.events
        rw [htodo] at hn hev
        refine ⟨?_, ⟨n, alternates_start.mp hn⟩, h.last, h.held, h.noStart, h.pending, h.owed⟩
        simpa [Item.events] using hev
      · rw [htodo]
        simp [Item.isByte]
    next first val todo htodo =>
      split
      next =>
        refine ⟨[.byte first val], h.raise htodo (by simp) hheld rfl rfl (fun hreq => ?_),
          fun hheld' => ?_, ?_⟩
        · cases hreq
        · rw [hheld'] at hheld
          cases hheld
        · rw [htodo, List.append_assoc, List.singleton_append]
      next => exact hsame
    next first todo htodo =>
      refine ⟨[.request first], h.raise htodo (by simp) hheld rfl rfl (fun _ => rfl),
        fun hheld' => ?_, ?_⟩
      · rw [hheld'] at hheld
        cases hheld
      · rw [htodo, List.append_assoc, List.singleton_append]
    next todo htodo =>
      refine ⟨[.stop], h.raise htodo (by simp) hheld rfl rfl (fun hreq => ?_), fun hheld' => ?_, ?_⟩
      · cases hreq
      · rw [hheld'] at hheld
        cases hheld
      · rw [htodo, List.append_assoc, List.singleton_append]

/-- So do any number of steps. -/
theorem iterate (n : Nat) (h : Track E evs w r v owed hw) :
    ∃ new, Track E evs w r (v ++ new) owed (SlaveHw.step^[n] hw) ∧ (hw.held = true → new = []) ∧
      ((SlaveHw.step^[n] hw).pending ++ (SlaveHw.step^[n] hw).todo).countP Item.isByte =
        (hw.pending ++ hw.todo).countP Item.isByte := by
  induction n generalizing v hw with
  | zero =>
    refine ⟨[], ?_, fun _ => rfl, rfl⟩
    rw [List.append_nil]
    exact h
  | succ n ih =>
    rw [Function.iterate_succ_apply]
    obtain ⟨new, hstep, hnone, hcount⟩ := h.step
    obtain ⟨new', hrest, hnone', hcount'⟩ := ih hstep
    refine ⟨new ++ new', ?_, fun hheld => ?_, hcount'.trans hcount⟩
    · rw [← List.append_assoc]
      exact hrest
    · have hsame : hw.step = hw := by simp only [SlaveHw.step, hheld, if_true]
      rw [hnone hheld, hnone' (by rw [hsame]; exact hheld), List.append_nil]

/-- A request is the last of what is visible. -/
theorem request_nil {first : Bool} {rest : List Item}
    (h : Track E evs w r (.request first :: rest) owed hw) : rest = [] := by
  cases rest with
  | nil => rfl
  | cons y rest =>
    exact absurd (h.last (.request first) List.mem_cons_self) (by simp [Item.isRequest])

/-- What is visible begins with a byte or a stop, or is a request alone. -/
theorem visible_cases (h : Track E evs w r v owed hw) :
    v = [] ∨ (∃ first val rest, v = .byte first val :: rest) ∨ (∃ first, v = [.request first]) ∨
      ∃ rest, v = .stop :: rest := by
  cases v with
  | nil => exact .inl rfl
  | cons x v =>
    right
    cases x with
    | start => exact absurd List.mem_cons_self h.noStart
    | byte first val => exact .inl ⟨first, val, v, rfl⟩
    | request first => exact .inr (.inl ⟨first, by rw [h.request_nil]⟩)
    | stop => exact .inr (.inr ⟨v, rfl⟩)

theorem byte_first (h : Track E evs true r v owed hw) (hbyte : v.any Item.isByte = true) :
    ∃ val rest, v = .byte false val :: rest := by
  obtain ⟨n, hn⟩ := h.alternates
  obtain rfl | ⟨first, val, rest, rfl⟩ | ⟨first, rfl⟩ | ⟨v, rfl⟩ := h.visible_cases
  · cases hbyte
  · refine ⟨val, rest, ?_⟩
    rw [show first = false from hn.1]
  · cases hbyte
  · -- After a stop the next byte would be a first one, which goes with a cleared bit.
    cases v with
    | nil => cases hbyte
    | cons y v =>
      cases y with
      | start => exact absurd (List.mem_cons_of_mem _ List.mem_cons_self) h.noStart
      | byte first val =>
        obtain ⟨hfirst, hnew, -⟩ := hn.2
        rw [hnew rfl] at hfirst
        cases hfirst
      | request first =>
        cases v with
        | nil => cases hbyte
        | cons z v =>
          exact absurd (h.last (.request first) (by simp)) (by simp [Item.isRequest])
      | stop =>
        have hnew := hn.2.1
        cases hnew

theorem readDataCmd {first : Bool} {val : Byte} {rest : List Item}
    (h : Track E evs w r (.byte first val :: rest) owed hw) :
    hw.readDataCmd.1 = val ∧ hw.readDataCmd.2.todo = hw.todo ∧ hw.readDataCmd.2.held = hw.held ∧
      hw.pending = .byte first val :: hw.readDataCmd.2.pending ∧
      Track E (evs ++ Item.events (.byte first val)) true false rest owed hw.readDataCmd.2 := by
  have hpending : hw.pending =
      .byte first val :: if owed then rest.eraseP Item.isStop else rest := by
    rw [h.pending]
    cases owed <;> rfl
  have hread : hw.readDataCmd =
      (val, { hw with pending := if owed then rest.eraseP Item.isStop else rest }) := by
    rw [SlaveHw.readDataCmd, hpending]
    rfl
  rw [hread]
  obtain ⟨n, hn⟩ := h.alternates
  refine ⟨rfl, rfl, rfl, hpending, ⟨?_, ⟨false, hn.2.2⟩, ?_, ?_, ?_, rfl, ?_⟩⟩
  · rw [List.append_assoc]
    exact h.events
  · intro x hx
    refine h.last x ?_
    cases rest with
    | nil => cases hx
    | cons y rest => exact List.mem_cons_of_mem _ hx
  · rintro ⟨x, hx, hreq⟩
    exact h.held ⟨x, List.mem_cons_of_mem _ hx, hreq⟩
  · exact fun hmem => h.noStart (List.mem_cons_of_mem _ hmem)
  · intro ho
    exact (List.mem_cons.mp (h.owed ho)).resolve_left (by simp)

theorem clrRdReq {first : Bool} (h : Track E evs w r [.request first] false hw) {hw' : SlaveHw}
    (htodo : hw'.todo = hw.todo) (hpending : hw'.pending = []) :
    first = (!r) ∧ Track E (evs ++ Item.events (.request first)) false true [] false hw' := by
  obtain ⟨n, hn⟩ := h.alternates
  refine ⟨hn.1, ⟨?_, ⟨false, ?_⟩, fun x hx => (by cases hx), ?_, List.not_mem_nil, hpending,
    fun ho => (by cases ho)⟩⟩
  · rw [htodo, List.append_assoc]
    exact h.events
  · rw [htodo]
    exact hn.2.2
  · rintro ⟨x, hx, -⟩
    cases hx

theorem clrStopDet (h : Track E evs w r v false hw) (hone : hw.pending.countP Item.isStop = 1) :
    Track E evs w r v true hw.clrStopDet := by
  have hpending : hw.pending = v := h.pending
  rw [hpending] at hone
  have hfilter : ∀ u : List Item, u.countP Item.isStop ≤ 1 →
      (u.filter fun x => !x.isStop) = u.eraseP Item.isStop := by
    intro u hu
    induction u with
    | nil => rfl
    | cons x u ih =>
      cases hx : x.isStop
      · rw [List.countP_cons_of_neg (by simp [hx])] at hu
        rw [List.filter_cons_of_pos (by simp [hx]), List.eraseP_cons_of_neg (by simp [hx]), ih hu]
      · rw [List.countP_cons_of_pos hx] at hu
        rw [List.filter_cons_of_neg (by simp [hx]), List.eraseP_cons_of_pos hx,
          List.filter_eq_self]
        intro y hy
        have hzero : u.countP Item.isStop = 0 := by omega
        simpa using List.countP_eq_zero.mp hzero y hy
  refine ⟨h.events, h.alternates, h.last, h.held, h.noStart, ?_, fun _ => ?_⟩
  · show (hw.pending.filter fun x => !x.isStop) = _
    rw [hpending, hfilter v (by omega)]
    rfl
  · obtain ⟨x, hx, hstop⟩ := List.countP_pos_iff.mp (by omega : 0 < v.countP Item.isStop)
    cases x with
    | stop => exact hx
    | _ => cases hstop

theorem payStop {rest : List Item} (h : Track E evs w r (.stop :: rest) true hw) :
    Track E (evs ++ [.stop]) w r rest false hw := by
  obtain ⟨n, hn⟩ := h.alternates
  refine ⟨?_, ⟨true, hn.2⟩, ?_, ?_, ?_, ?_, fun ho => (by cases ho)⟩
  · rw [List.append_assoc]
    exact h.events
  · intro x hx
    refine h.last x ?_
    cases rest with
    | nil => cases hx
    | cons y rest => exact List.mem_cons_of_mem _ hx
  · rintro ⟨x, hx, hreq⟩
    exact h.held ⟨x, List.mem_cons_of_mem _ hx, hreq⟩
  · exact fun hmem => h.noStart (List.mem_cons_of_mem _ hmem)
  · exact h.pending

theorem stop_first (h : Track E evs w r v true hw) (hbyte : v.any Item.isByte = false) :
    ∃ rest, v = .stop :: rest := by
  have hstop := h.owed rfl
  obtain rfl | ⟨first, val, rest, rfl⟩ | ⟨first, rfl⟩ | hrest := h.visible_cases
  · cases hstop
  · cases hbyte
  · simp at hstop
  · exact hrest

theorem bytes_first (h : Track E evs w r v owed hw) (hstop : v.any Item.isStop = false)
    (hbyte : v.any Item.isByte = true) : ∃ first val rest, v = .byte first val :: rest := by
  obtain rfl | hrest | ⟨first, rfl⟩ | ⟨rest, rfl⟩ := h.visible_cases
  · cases hbyte
  · exact hrest
  · cases hbyte
  · cases hstop

theorem request_only (h : Track E evs w r v owed hw) (hstop : v.any Item.isStop = false)
    (hbyte : v.any Item.isByte = false) (hreq : v.any Item.isRequest = true) :
    ∃ first, v = [.request first] := by
  obtain rfl | ⟨first, val, rest, rfl⟩ | hrequest | ⟨rest, rfl⟩ := h.visible_cases
  · cases hreq
  · cases hbyte
  · exact hrequest
  · cases hstop

end Track

end RealtekIpcam.I2c
