import RealtekIpcam.Composite.OnRts
import RealtekIpcam.Udc.DataStage
import RealtekIpcam.Udc.Handshake

/-!
# Responses that are shorter than asked

A host that asks for more than it gets sees the end of a data stage by a packet that is not full.
When the response fills its last packet, an empty one has to follow.  The core knows both lengths
and sets `zero` in the request when the response is the shorter.

`rts_start_ep0_transfer` and `rts_ep0_transfer_process` do not look at `zero`.  They work from
`length`, and the transfer is done when all of it has gone.  So no empty packet ever follows the
data, and the host waits for it just when the response is shorter than asked and a multiple of
64.
-/

namespace RealtekIpcam
namespace Composite

open Udc (SetupPacket)

/-! ## The length of a response -/

section Length

variable (cdev : CompositeDev) (ctrl : SetupPacket) (ans : Answers)

/-- Where there is a response, it fits in the buffer of the core. -/
def Outcome.Bounded (o : Outcome) : Prop := o.reply = none ∨ o.value ≤ usbCompEp0Bufsiz

theorem wLength_le : (wLength ctrl : Int) ≤ usbCompEp0Bufsiz :=
  Int.ofNat_le.mpr (Nat.min_le_right _ _)

theorem cut_le (value : Int) : cut ctrl value ≤ usbCompEp0Bufsiz :=
  Int.le_trans (Int.min_le_left _ _) (wLength_le ctrl)

theorem bounded_respond {value : Int} (h : value ≤ usbCompEp0Bufsiz) :
    (cdev.respond value).Bounded := .inr h

theorem bounded_tryFunSetup (f : Option FnId) : (cdev.tryFunSetup ans f).Bounded := by
  unfold CompositeDev.tryFunSetup CompositeDev.callSetup
  repeat' split
  all_goals exact .inl rfl

theorem ite_le_bufsiz {c : Prop} [Decidable c] {x y : Int} (hx : x ≤ usbCompEp0Bufsiz)
    (hy : y ≤ usbCompEp0Bufsiz) : (if c then x else y) ≤ usbCompEp0Bufsiz :=
  iteInduction (motive := (· ≤ (usbCompEp0Bufsiz : Int))) (fun _ => hx) fun _ => hy

theorem cutNonneg_le (value : Int) :
    (if 0 ≤ value then cut ctrl value else value) ≤ usbCompEp0Bufsiz :=
  iteInduction (motive := (· ≤ (usbCompEp0Bufsiz : Int))) (fun _ => cut_le ctrl value)
    fun h => Int.le_trans (Int.le_of_lt (Int.not_le.mp h)) (by decide)

theorem osDescriptor_le (c : Configuration) :
    CompositeDev.osDescriptor ctrl ans c ≤ usbCompEp0Bufsiz := by
  have hle := wLength_le ctrl
  have hcut := cut_le ctrl ans.fillExtCompat
  have hprop := cutNonneg_le ctrl ans.fillExtProp
  have hneg : -EOPNOTSUPP ≤ (usbCompEp0Bufsiz : Int) := by decide
  unfold CompositeDev.osDescriptor
  exact ite_le_bufsiz (ite_le_bufsiz hneg (ite_le_bufsiz hcut hle))
    (ite_le_bufsiz
      (ite_le_bufsiz hneg (ite_le_bufsiz hneg (ite_le_bufsiz hprop hle))) hneg)

theorem bounded_unknownRequest : (cdev.unknownRequest ctrl ans).Bounded := by
  unfold CompositeDev.unknownRequest
  split
  · exact .inr (osDescriptor_le ctrl ans _)
  · split
    · exact .inr (cut_le ctrl _)
    · exact bounded_tryFunSetup cdev ans _

theorem getDescriptor_le : cdev.getDescriptor ctrl ans ≤ usbCompEp0Bufsiz := by
  have hcut := cut_le ctrl
  have hmin (value : Int) : min (wLength ctrl : Int) value ≤ usbCompEp0Bufsiz :=
    Int.le_trans (Int.min_le_left _ _) (wLength_le ctrl)
  have hneg : -EOPNOTSUPP ≤ (usbCompEp0Bufsiz : Int) := by decide
  have hnonneg : ∀ value, cutIfNonneg ctrl value ≤ usbCompEp0Bufsiz := cutNonneg_le ctrl
  unfold CompositeDev.getDescriptor
  dsimp only
  -- the types of descriptors in the order in which they are looked for
  exact ite_le_bufsiz (hmin 18) (ite_le_bufsiz (ite_le_bufsiz hneg (hmin 10))
    (ite_le_bufsiz (ite_le_bufsiz hneg (hnonneg _)) (ite_le_bufsiz (hnonneg _)
    (ite_le_bufsiz (hnonneg _) (ite_le_bufsiz (hcut _)
    (ite_le_bufsiz (ite_le_bufsiz (hmin _) hneg) hneg))))))

theorem Outcome.Bounded.ite {c : Prop} [Decidable c] {o o' : Outcome} (h : o.Bounded)
    (h' : o'.Bounded) : (if c then o else o').Bounded :=
  iteInduction (motive := Outcome.Bounded) (fun _ => h) fun _ => h'

theorem bounded_getInterface : (cdev.getInterface ctrl ans).Bounded := by
  have hle := wLength_le ctrl
  unfold CompositeDev.getInterface
  split
  · exact bounded_respond cdev (by decide)
  · refine bounded_respond cdev ?_
    generalize (if (cdev.fn _).hasGetAlt = true then ans.getAlt _ else 0) = value
    split
    next h => exact Int.le_trans (Int.le_of_lt h) (by decide)
    next => exact Int.le_trans (Int.min_le_left _ _) hle

theorem bounded_getStatus : (cdev.getStatus ctrl ans).Bounded := by
  have hunknown := bounded_unknownRequest cdev ctrl ans
  have hone : (cdev.respond 1).Bounded := bounded_respond cdev (by decide)
  have htwo : (cdev.respond 2).Bounded := bounded_respond cdev (by decide)
  exact .ite (.ite hunknown hone) (.ite hunknown (.ite hunknown htwo))

theorem bounded_compositeSetup (hdir : dirIn ctrl = true) :
    (cdev.compositeSetup ctrl ans).Bounded := by
  have hunknown := bounded_unknownRequest cdev ctrl ans
  have hdescriptor := bounded_respond cdev (getDescriptor_le cdev ctrl ans)
  have hconfig : (cdev.respond (min (wLength ctrl) 1)).Bounded :=
    bounded_respond cdev (Int.le_trans (Int.min_le_left _ _) (wLength_le ctrl))
  have hinterface := bounded_getInterface cdev ctrl ans
  have hstatus := bounded_getStatus cdev ctrl ans
  have hout : ∀ {type : UInt8}, type &&& 0x80 = 0 → ctrl.bRequestType ≠ type := by
    rintro type htype rfl
    simp [dirIn, htype] at hdir
  have hfeature : (cdev.feature ctrl ans).Bounded := by
    unfold CompositeDev.feature
    rw [if_pos (hout (show (0x01 : UInt8) &&& 0x80 = 0 by decide))]
    exact .ite hunknown hunknown
  unfold CompositeDev.compositeSetup CompositeDev.standardRequest
  rw [if_pos (hout (show (0x00 : UInt8) &&& 0x80 = 0 by decide)),
    if_pos (hout (show (0x01 : UInt8) &&& 0x80 = 0 by decide))]
  -- the requests in the order in which they are looked for
  exact .ite (.inl rfl) (.ite hunknown
    (.ite (.ite hunknown hdescriptor) (.ite hunknown
    (.ite (.ite hunknown hconfig) (.ite hunknown
    (.ite (.ite hunknown hinterface)
    (.ite hstatus (.ite hfeature hunknown))))))))

theorem response_bounds {r : CoreReq} {value : Int} (hdir : dirIn ctrl = true)
    (h : (cdev.compositeSetup ctrl ans).response = some (r, value)) :
    0 ≤ value ∧ value ≤ usbCompEp0Bufsiz := by
  unfold Outcome.response at h
  split at h
  next hvalue =>
    obtain ⟨r', hreply, hpair⟩ := Option.map_eq_some_iff.mp h
    obtain ⟨rfl, rfl⟩ := Prod.mk.inj hpair
    refine ⟨hvalue.1, (bounded_compositeSetup cdev ctrl ans hdir).resolve_left ?_⟩
    rw [hreply]
    exact Option.some_ne_none _
  next => cases h

end Length

end Composite

/-! ## A request on ep0 -/

namespace Board

open Udc Packets Ram Runs

variable {complete : Complete} {b : Board} {r : ReqId} {before ps qs : List (List UInt8)}
  {out : Option Done × Board}

/-- `rts_ep_queue` on ep0. -/
def rtsEpQueueOnEp0 (complete : Complete) (b : Board) (r : ReqId) : Option Done × Board :=
  let wasEmpty := (b.udc.ep ep0).queue.isEmpty
  let (d, c) := Board.rtsEp0Queue complete { b with udc := b.udc.rtsEpQueueLink ep0 r } ep0 r
  (d, { c with udc := c.udc.rtsEpQueueStart ep0 r wasEmpty })

/-- ep0 between two control transfers. -/
structure Idle (b : Board) : Prop where
  queue : (b.udc.ep ep0).queue = []
  epnum : (b.udc.ep ep0).epnum = 0
  maxpacket : (b.udc.ep ep0).maxpacket = 0x40

/-- **The data stage of a response**, from what queueing it gave.  It is the packets `ps`, or,
without any, it is over at once. -/
def DataStage (complete : Complete) (r : ReqId) (before : List (List UInt8)) :
    List (List UInt8) → Option Done × Board → Prop
  | [], out => ∃ c : Board, out.1 = some ⟨ep0, r, 0, c⟩ ∧ c.ep0Sent = before
  | p :: ps, out => out.1 = none ∧
      Sends (ep0Irq complete) ep0Sent ep0 r before (p :: ps) out.2

theorem Sends.unique {irq : Board → Unit → Option Done × Board}
    {sent : Board → List (List UInt8)} {e : EpId} (hp : Sends irq sent e r before ps b)
    (hq : Sends irq sent e r before qs b) : ps = qs := by
  obtain ⟨c, hc, -, hcsent⟩ := hp.completes
  obtain ⟨d, hd, -, hdsent⟩ := hq.completes
  have hle : ps.length ≤ qs.length := by
    by_contra hlt
    rw [(hp.silent qs.length (Nat.lt_of_not_le hlt)).1] at hd
    exact absurd hd (List.cons_ne_nil _ _).symm
  have hge : qs.length ≤ ps.length := by
    by_contra hlt
    rw [(hq.silent ps.length (Nat.lt_of_not_le hlt)).1] at hc
    exact absurd hc (List.cons_ne_nil _ _).symm
  rw [Nat.le_antisymm hge hle, hc] at hd
  obtain rfl : c = d := congrArg Done.board (List.cons.inj hd).1
  exact List.append_cancel_left (hcsent.symm.trans hdsent)

theorem DataStage.unique (hp : DataStage complete r before ps out)
    (hq : DataStage complete r before qs out) : ps = qs := by
  cases ps with
  | nil =>
    obtain ⟨c, hc, -⟩ := hp
    cases qs with
    | nil => rfl
    | cons q qs => exact absurd (hc.symm.trans hq.1) (Option.some_ne_none _)
  | cons p ps =>
    cases qs with
    | nil =>
      obtain ⟨c, hc, -⟩ := hq
      exact absurd (hc.symm.trans hp.1) (Option.some_ne_none _)
    | cons q qs => exact hp.2.unique hq.2

theorem listAddTail_ep (u : Udc) (e : EpId) (r : ReqId) :
    (u.listAddTail e r).ep e = { u.ep e with queue := (u.ep e).queue ++ [r] } :=
  setEp_ep_self ..

theorem Idle.stage (h : Idle b) {dirIn : Bool} (hdir : (b.udc.ep ep0).dirIn = dirIn) :
    Stage r dirIn { b with udc := b.udc.rtsEpQueueLink ep0 r } ∧
      ((b.udc.rtsEpQueueLink ep0 r).req r).length = (b.udc.req r).length ∧
      ((b.udc.rtsEpQueueLink ep0 r).ep ep0).epnum = 0 := by
  have hep : (b.udc.rtsEpQueueLink ep0 r).ep ep0 = { b.udc.ep ep0 with queue := [r] } := by
    show (b.udc.listAddTail ep0 r).ep ep0 = _
    rw [listAddTail_ep, h.queue]
    rfl
  have hreq : (b.udc.rtsEpQueueLink ep0 r).req r =
      { b.udc.req r with actual := 0, status := -EINPROGRESS } := by
    unfold rtsEpQueueLink
    dsimp only [emit]
    rw [setReq_req_self]
    rfl
  have hepnum : ((b.udc.rtsEpQueueLink ep0 r).ep ep0).epnum = 0 := by rw [hep, ← h.epnum]
  refine ⟨⟨⟨[], ?_⟩, ?_, ?_, ?_⟩, ?_, hepnum⟩
  · dsimp only
    rw [hep]
  · dsimp only
    rw [hep, hdir]
  · dsimp only
    rw [hep, h.maxpacket]
  · dsimp only
    rw [hreq]
  · rw [hreq]

theorem rtsEpQueueStart_ep0 {u : Udc} {wasEmpty : Bool} (h : (u.ep ep0).epnum = 0) :
    u.rtsEpQueueStart ep0 r wasEmpty = u := by
  have hdma : usesDma (u.ep ep0) = false := by simp [usesDma, h]
  have hintr : usesIntr (u.ep ep0) = false := by simp [usesIntr, h]
  unfold rtsEpQueueStart
  dsimp only
  rw [hdma, hintr]
  split
  · rfl
  · rfl

/-- The packets in which the driver sends `bs`. -/
def packetsOf (bs : List UInt8) : List (List UInt8) := if bs = [] then [] else split 64 bs

theorem Idle.dataStage (complete : Complete) (h : Idle b) (hdir : (b.udc.ep ep0).dirIn = true)
    (hL : (b.udc.req r).length.toNat ≤ 65535) :
    DataStage complete r b.ep0Sent
      (packetsOf (readBytes b.ram (b.buf r) (b.udc.req r).length.toNat))
      (b.rtsEpQueueOnEp0 complete r) := by
  obtain ⟨hstage, hlen, hepnum⟩ := h.stage (r := r) hdir
  by_cases hzero : (b.udc.req r).length = 0
  · have hdone : Board.rtsEp0Queue complete { b with udc := b.udc.rtsEpQueueLink ep0 r } ep0 r =
        _ := if_pos (hlen.trans hzero)
    have hnil : packetsOf (readBytes b.ram (b.buf r) (b.udc.req r).length.toNat) = [] := by
      rw [hzero]
      rfl
    rw [hnil]
    refine ⟨{ b with udc := b.udc.rtsEpQueueLink ep0 r }, ?_, rfl⟩
    unfold rtsEpQueueOnEp0
    rw [hdone]
  · have hpos : 1 ≤ (b.udc.req r).length.toNat :=
      Nat.one_le_iff_ne_zero.mpr fun h0 => hzero (UInt32.toNat_inj.mp h0)
    obtain ⟨hnone, hsends⟩ := hstage.sends_split complete (hlen ▸ hpos) (hlen ▸ hL)
    rw [hlen] at hsends
    have hqueue : b.rtsEpQueueOnEp0 complete r =
        Board.rtsEp0Queue complete { b with udc := b.udc.rtsEpQueueLink ep0 r } ep0 r := by
      have hstart : Board.rtsEp0Queue complete { b with udc := b.udc.rtsEpQueueLink ep0 r } ep0 r =
          (none, Board.rtsStartEp0Transfer { b with udc := b.udc.rtsEpQueueLink ep0 r } ep0 r) :=
        if_neg fun h => hzero (hlen.symm.trans h)
      unfold rtsEpQueueOnEp0
      rw [hstart]
      dsimp only
      rw [rtsEpQueueStart_ep0]
      rw [rtsStartEp0Transfer_udc, rtsStartEp0Transfer_ep]
      exact hepnum
    have hne : readBytes b.ram (b.buf r) (b.udc.req r).length.toNat ≠ [] := by
      intro hnil
      have := congrArg List.length hnil
      rw [length_readBytes, List.length_nil] at this
      omega
    have hpackets : 0 < (split 64 (readBytes b.ram (b.buf r) (b.udc.req r).length.toNat)).length :=
      length_split ▸ count_pos _ _
    rw [hqueue, packetsOf, if_neg hne]
    obtain ⟨p, ps, hps⟩ := List.exists_cons_of_length_pos hpackets
    rw [hps] at hsends ⊢
    exact ⟨hnone, hsends⟩

end Board

namespace Composite

open OnRts (bareDevice)
open Udc (SetupPacket ReqId ep0)
open Packets Ram Runs

/-! ## The response on ep0 -/

/-- The response of the core, as far as the UDC driver: ep0 has the direction of the packet, and the
request is filled in and queued. -/
def CoreReq.queueResponse (complete : Board.Complete) (ctrl : SetupPacket) (cr : CoreReq)
    (value : Int) (b : Board) : Option Done × Board :=
  Board.rtsEpQueueOnEp0 complete
    { b with
      udc := (Udc.directed ctrl b.udc).setReq cr.id fun q => { q with
        length := UInt32.ofNat value.toNat
        zero := value < wLength ctrl } }
    cr.id

/-- **The packet that ends a short response** is due: fewer bytes than asked, and the last packet is
full. -/
def ZeroPacketDue (ctrl : SetupPacket) (value : Int) : Prop :=
  0 < value ∧ value < wLength ctrl ∧ value % 64 = 0
  deriving Decidable

/-- **What a host that asked with `ctrl` waits for**, when the response is `bs`: its packets, and an
empty one if one is due. -/
def awaited (ctrl : SetupPacket) (bs : List UInt8) : List (List UInt8) :=
  Board.packetsOf bs ++ if ZeroPacketDue ctrl bs.length then [[]] else []

theorem awaited_eq_packetsOf {ctrl : SetupPacket} {bs : List UInt8} :
    awaited ctrl bs = Board.packetsOf bs ↔ ¬ ZeroPacketDue ctrl bs.length := by
  unfold awaited
  by_cases h : ZeroPacketDue ctrl bs.length
  · simp [h]
  · simp [h]

variable {cdev : CompositeDev} {ctrl : SetupPacket} {ans : Answers} {cr : CoreReq} {value : Int}

theorem response_dataStage (complete : Board.Complete) {b : Board} (hidle : b.Idle)
    (hdir : dirIn ctrl = true) (hpos : 0 ≤ value) (hle : value ≤ usbCompEp0Bufsiz) :
    Board.DataStage complete cr.id b.ep0Sent
      (Board.packetsOf (readBytes b.ram (b.buf cr.id) value.toNat))
      (cr.queueResponse complete ctrl value b) := by
  have hsmall : value.toNat ≤ 4096 := by
    unfold usbCompEp0Bufsiz at hle
    omega
  generalize hq : (Udc.directed ctrl b.udc).setReq cr.id (fun q => { q with
        length := UInt32.ofNat value.toNat
        zero := value < wLength ctrl }) = u
  have hep : u.ep ep0 = { b.udc.ep ep0 with dirIn := true } := by
    rw [← hq]
    show (Udc.directed ctrl b.udc).ep ep0 = _
    unfold Udc.directed
    rw [Udc.setEp_ep_self, decide_eq_true (bne_iff_ne.mp hdir)]
  have hreq : (u.req cr.id).length.toNat = value.toNat := by
    rw [← hq, Udc.setReq_req_self]
    exact UInt32.toNat_ofNat_of_lt' (show value.toNat < 4294967296 by omega)
  have hidle' : Board.Idle { b with udc := u } :=
    ⟨by rw [hep]; exact hidle.queue, by rw [hep]; exact hidle.epnum,
      by rw [hep]; exact hidle.maxpacket⟩
  have hL : (u.req cr.id).length.toNat ≤ 65535 := by
    rw [hreq]
    exact Nat.le_trans hsmall (by decide)
  have hdata := hidle'.dataStage (r := cr.id) complete (by rw [hep]) hL
  dsimp only at hdata
  rw [hreq] at hdata
  unfold CoreReq.queueResponse
  rw [hq]
  exact hdata

/-- **The end of a short response.**  The host gets the packets it waits for, unless an empty one is
due behind the data. -/
theorem response_awaited_iff (complete : Board.Complete) {b : Board} (hidle : b.Idle)
    (hdir : dirIn ctrl = true)
    (hresp : (cdev.compositeSetup ctrl ans).response = some (cr, value)) :
    Board.DataStage complete cr.id b.ep0Sent
        (awaited ctrl (readBytes b.ram (b.buf cr.id) value.toNat))
        (cr.queueResponse complete ctrl value b) ↔
      ¬ ZeroPacketDue ctrl value := by
  obtain ⟨hpos, hle⟩ := response_bounds cdev ctrl ans hdir hresp
  have hstage : Board.DataStage complete cr.id b.ep0Sent _
      (cr.queueResponse complete ctrl value b) :=
    response_dataStage complete hidle hdir hpos hle
  have hlen : ((readBytes b.ram (b.buf cr.id) value.toNat).length : Int) = value := by
    rw [length_readBytes, Int.toNat_of_nonneg hpos]
  have hdue : ZeroPacketDue ctrl value ↔
      ZeroPacketDue ctrl (readBytes b.ram (b.buf cr.id) value.toNat).length := by rw [hlen]
  rw [hdue, ← awaited_eq_packetsOf]
  exact ⟨fun h => h.unique hstage, fun h => h ▸ hstage⟩

/-! ## Two responses -/

/-- A board between two control transfers. -/
def idleBoard : Board where
  udc := Udc.addressed
  ram _ := 0
  buf _ := 0
  ep0Buf _ := 0
  ep0Bc := 0
  ep0Sent := []
  intrBuf _ _ := 0
  intrBc _ := 0
  intrSent _ := []

theorem idle_idleBoard : idleBoard.Idle := ⟨rfl, rfl, rfl⟩

/-- GET_DESCRIPTOR of `type` with `wLength` 255. -/
def getDescriptor255 (type : UInt16) : SetupPacket := ⟨0x80, 0x06, type <<< 8, 0, 255⟩

/-- The 18 bytes of the device descriptor need no packet behind them. -/
theorem response_awaited_device :
    (bareDevice.compositeSetup (getDescriptor255 1) {}).response = some (.req, 18) ∧
      Board.DataStage (fun _ _ b => b) 1 []
        (awaited (getDescriptor255 1) (readBytes idleBoard.ram 0 18))
        (CoreReq.req.queueResponse (fun _ _ b => b) (getDescriptor255 1) 18 idleBoard) :=
  ⟨by decide, (response_awaited_iff (fun _ _ b => b) idle_idleBoard (by decide)
    (show (bareDevice.compositeSetup (getDescriptor255 1) {}).response = some (.req, 18) by
      decide)).mpr (by decide)⟩

/-- A configuration descriptor of 64 bytes fills its packet, and the one behind it never comes. -/
theorem not_response_awaited_config :
    (bareDevice.compositeSetup (getDescriptor255 2) { configDesc := 64 }).response =
        some (.req, 64) ∧
      ¬ Board.DataStage (fun _ _ b => b) 1 []
        (awaited (getDescriptor255 2) (readBytes idleBoard.ram 0 64))
        (CoreReq.req.queueResponse (fun _ _ b => b) (getDescriptor255 2) 64 idleBoard) := by
  refine ⟨by decide, fun h => ?_⟩
  have hstage : Board.DataStage (fun _ _ b => b) CoreReq.req.id idleBoard.ep0Sent _
      (CoreReq.req.queueResponse (fun _ _ b => b) (getDescriptor255 2) 64 idleBoard) :=
    response_dataStage _ idle_idleBoard (by decide) (by decide) (by decide)
  exact absurd (h.unique hstage) (by
    rw [show readBytes idleBoard.ram (idleBoard.buf CoreReq.req.id) (64 : Int).toNat =
      readBytes idleBoard.ram 0 64 from rfl, awaited_eq_packetsOf, length_readBytes]
    decide)

end Composite
end RealtekIpcam
