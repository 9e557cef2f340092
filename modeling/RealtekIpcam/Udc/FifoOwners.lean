import RealtekIpcam.Udc.Channel
import RealtekIpcam.Udc.ConfigRegs
import RealtekIpcam.Udc.SameOwners
import RealtekIpcam.Udc.UvcReenable

/-!
# Who owns a FIFO channel

`rts_ep_enable` claims a FIFO channel in the table `mcm` and `rts_ep_disable` looks through the
whole table for the entries that record the number and the direction of the endpoint.  Endpoint 4
shares its channels with endpoint 3, and the two UVC endpoints take theirs without looking at
`claimed`.

Everything else leaves the owners alone (`SameOwners`).  `ChannelsOwned` is the invariant of the
rest: an enabled endpoint has its number, its direction and its channel, which records it, and an
entry that is claimed records an enabled endpoint.  `Owners` adds that an endpoint that is enabled
is not being disabled.

A run keeps it when its calls are in turn (`InTurn`): an endpoint is disabled only while it is
enabled, and enabled only when no earlier disable of it is still under way.
-/

namespace RealtekIpcam
namespace Udc

variable {u v w : Udc} {e : EpId}

/-! ## Channels -/

/-- A slot of the endpoint tables as an endpoint with the number and direction of the slot. -/
def EpId.endpoint (e : EpId) : Endpoint :=
  { epnum := e.num, dirIn := e.isIn, dirOut := !e.isIn }

/-- The endpoints with a FIFO channel. -/
def EpId.usesFifo (e : EpId) : Bool := usesDma e.endpoint

/-- The channel of an endpoint, and whether it is refused while it is claimed. -/
def EpId.fifo (e : EpId) : Nat × Bool := fifoOf e.endpoint

/-- The entry of `mcm` that records an endpoint. -/
def EpId.claim (e : EpId) : Mcm := ⟨e.num, e.isIn, !e.isIn, true⟩

theorem EpId.fifo_lt : ∀ e : EpId, e.usesFifo = true → e.fifo.1 < 8 := by decide

theorem EpId.fifo_shared : ∀ e e' : EpId, e.usesFifo = true → e'.usesFifo = true →
    e.fifo.1 = e'.fifo.1 → e.fifo.2 = false → e = e' := by decide +kernel

theorem EpId.claim_injective : ∀ e e' : EpId, e.claim = e'.claim → e = e' := by decide +kernel

theorem EpId.num_of_usesFifo : ∀ e : EpId, e.usesFifo = true → e.num ≠ 0 := by decide

theorem EpId.hasFifo_of_usesFifo : ∀ e : EpId, e.usesFifo = true → hasFifo e.endpoint = true := by
  decide

theorem fifoOf_congr {x y : Endpoint} (hnum : x.epnum = y.epnum) (hin : x.dirIn = y.dirIn)
    (h : hasFifo y = true) : fifoOf x = fifoOf y := by
  revert h
  unfold fifoOf hasFifo
  rw [hnum, hin]
  cases y.dirIn with
  | true =>
    simp only [if_true, Bool.and_eq_true, decide_eq_true_eq]
    intro h
    by_cases h3 : 1 ≤ y.epnum ∧ y.epnum ≤ 3
    · rw [if_pos h3, if_pos h3]
    · by_cases h4 : y.epnum = 4
      · rw [if_neg h3, if_pos h4, if_neg h3, if_pos h4]
      · have h56 : y.epnum = 5 ∨ y.epnum = 6 := by omega
        rw [if_neg h3, if_neg h4, if_pos h56, if_neg h3, if_neg h4, if_pos h56]
  | false =>
    simp only [Bool.false_eq_true, if_false, Bool.and_eq_true, decide_eq_true_eq]
    intro h
    by_cases h3 : 1 ≤ y.epnum ∧ y.epnum ≤ 3
    · rw [if_pos h3, if_pos h3]
    · have h4 : y.epnum = 4 := by omega
      rw [if_neg h3, if_pos h4, if_neg h3, if_pos h4]

theorem InPlace.usesDma_iff (h : InPlace e u) : usesDma (u.ep e) = e.usesFifo := by
  unfold EpId.usesFifo usesDma
  rw [h.epnum, h.dirIn, h.dirOut]
  rfl

theorem InPlace.fifoOf_eq (h : InPlace e u) (hf : e.usesFifo = true) : fifoOf (u.ep e) = e.fifo :=
  fifoOf_congr h.epnum h.dirIn (e.hasFifo_of_usesFifo hf)

/-! ## Enabling -/

theorem mcm_ite {c : Prop} [Decidable c] (h : v.mcm = u.mcm) (k : w.mcm = u.mcm) :
    (if c then v else w).mcm = u.mcm := by
  split
  · exact h
  · exact k

theorem mcm_rtsSetEpEnable (u : Udc) (e : EpId) : (u.rtsSetEpEnable e).mcm = u.mcm := by
  have hmark : (u.markEnabled e).mcm = u.mcm := mcm_ite rfl rfl
  have hdis (c : Prop) [Decidable c] : (if c then (u.markEnabled e).emit
      (.mcDisable ((u.markEnabled e).ep e).mcnum) else u.markEnabled e).mcm = u.mcm :=
    mcm_ite hmark hmark
  exact mcm_ite (hdis _) (hdis _)

/-- What `rts_config_ep` makes of the claims: it is refused and claims nothing, or it records the
endpoint, if that has a channel, in an entry that a refusing endpoint found free. -/
theorem configMapping_mcm (h : InPlace e u) :
    ((u.configMapping e).1 = -EINVAL ∧ (u.configMapping e).2.mcm = u.mcm) ∨
      (u.configMapping e).1 = 0 ∧ (u.configMapping e).2.mcm =
        (if e.usesFifo then Function.update u.mcm e.fifo.1 e.claim else u.mcm) ∧
        (e.usesFifo = true → e.fifo.2 = true → (u.mcm e.fifo.1).claimed = false) := by
  have hplace : InPlace e (u.rtsSetEpMaxpkt e 0) :=
    h.of_route ((quiet_rtsSetEpMaxpkt u e 0).route e)
  unfold configMapping
  rw [hplace.usesDma_iff]
  by_cases hf : e.usesFifo = true
  · rw [if_pos hf, if_pos hf]
    have hmcm : (u.rtsSetEpMaxpkt e 0).mcm = u.mcm := rfl
    generalize u.rtsSetEpMaxpkt e 0 = v at hplace hmcm ⊢
    unfold rtsSetEpFifoMapping
    rw [hplace.fifoOf_eq hf]
    dsimp only
    split
    · exact .inl ⟨rfl, hmcm⟩
    · next hfree =>
      refine .inr ⟨rfl, ?_, fun _ hex => ?_⟩
      · rw [setEp_ep_self, hplace.epnum, hplace.dirIn, hplace.dirOut]
        show Function.update v.mcm _ _ = _
        rw [hmcm]
        rfl
      · rw [hmcm, hex, Bool.true_and, Bool.not_eq_true] at hfree
        exact hfree
  · rw [if_neg hf, if_neg hf]
    exact .inr ⟨rfl, rfl, fun hf' => absurd hf' hf⟩

theorem rtsConfigEp_mapping (u : Udc) (e : EpId) (desc : EpDesc) :
    (u.rtsConfigEp e desc).1 = (u.configMapping e).1 ∧
      (u.rtsConfigEp e desc).2.mcm = (u.configMapping e).2.mcm := by
  unfold rtsConfigEp
  change (if (u.configMapping e).1 ≠ 0 then _ else _ : Int × Udc).1 = _ ∧
    (if (u.configMapping e).1 ≠ 0 then _ else _ : Int × Udc).2.mcm = _
  by_cases hret : (u.configMapping e).1 = 0
  · rw [if_neg (not_not.mpr hret)]
    exact ⟨hret.symm, (mcm_rtsSetEpEnable _ e).trans (mcm_ite rfl rfl)⟩
  · rw [if_pos hret]
    exact ⟨rfl, rfl⟩

/-- What `rts_ep_enable` does to the claims.  It gives the endpoint its number, direction and
channel.  Refused, it changes no claim; otherwise it enables the endpoint and claims its channel,
which no endpoint had that it shares it with. -/
structure Claims (e : EpId) (status : Int) (u v : Udc) : Prop where
  place : InPlace e v
  mcnum : e.usesFifo = true → (v.ep e).mcnum = e.fifo.1
  refused : status ≠ 0 → v.mcm = u.mcm ∧ (v.ep e).epEnable = (u.ep e).epEnable
  claimed : status = 0 → (v.ep e).epEnable = true ∧
    v.mcm = (if e.usesFifo then Function.update u.mcm e.fifo.1 e.claim else u.mcm) ∧
    (e.usesFifo = true → e.fifo.2 = true → (u.mcm e.fifo.1).claimed = false)

/-- What `rts_config_ep` claims. -/
theorem rtsConfigEp_claims (h : InPlace e u) (desc : EpDesc) :
    Claims e (u.rtsConfigEp e desc).1 u (u.rtsConfigEp e desc).2 := by
  have hroute := configMapping_route u e
  have hmapped : InPlace e (u.configMapping e).2 :=
    ⟨(congrArg Endpoint.epnum hroute).trans h.epnum, (congrArg Endpoint.dirIn hroute).trans h.dirIn,
      (congrArg Endpoint.dirOut hroute).trans h.dirOut⟩
  have hmc (hf : e.usesFifo = true) : ((u.configMapping e).2.ep e).mcnum = e.fifo.1 := by
    refine (congrArg Endpoint.mcnum hroute).trans ?_
    show mappedMcnum (u.ep e) = _
    unfold mappedMcnum
    rw [h.usesDma_iff, if_pos hf, h.fifoOf_eq hf]
  obtain ⟨hfst, hmcm⟩ := rtsConfigEp_mapping u e desc
  rcases rtsConfigEp_cases u e desc with ⟨hne, heq⟩ | ⟨v, hv, heq⟩
  · have hsame : (u.configMapping e).2.mcm = u.mcm := by
      rcases configMapping_mcm h with ⟨-, hsame⟩ | ⟨h0, -⟩
      · exact hsame
      · exact absurd h0 hne
    have hen := congrArg Endpoint.epEnable hroute
    rw [heq]
    exact ⟨hmapped, hmc, fun _ => ⟨hsame, hen⟩, fun h0 => absurd h0 hne⟩
  · have h0 : (u.configMapping e).1 = 0 := by rw [← hfst, heq]
    have hfinal := (rtsSetEpEnable_route v e).trans
      (congrArg (fun x : Endpoint => { x with epEnable := true }) (hv.route e))
    rw [heq] at hmcm ⊢
    refine ⟨⟨(congrArg Endpoint.epnum hfinal).trans hmapped.epnum,
      (congrArg Endpoint.dirIn hfinal).trans hmapped.dirIn,
      (congrArg Endpoint.dirOut hfinal).trans hmapped.dirOut⟩,
      fun hf => (congrArg Endpoint.mcnum hfinal).trans (hmc hf), fun hne => absurd rfl hne,
      fun _ => ⟨congrArg Endpoint.epEnable hfinal, ?_⟩⟩
    rcases configMapping_mcm h with ⟨hrefused, -⟩ | ⟨-, hclaim, hfree⟩
    · rw [h0] at hrefused
      exact absurd hrefused (by decide)
    · exact ⟨hmcm.trans hclaim, hfree⟩

theorem rtsEpEnable_claims (he : e ≠ ep0) {desc : EpDesc} (hnum : usbEndpointNum desc = e.num)
    (hin : usbEndpointDirIn desc = e.isIn) :
    Claims e (u.rtsEpEnable e desc).1 u (u.rtsEpEnable e desc).2 := by
  have hnum0 : usbEndpointNum desc ≠ 0 := by
    rw [hnum]
    exact num_ne_zero he
  obtain ⟨hcnum, hcin, hcout⟩ := copyDesc_fields u e desc
  have hplace : InPlace e (u.copyDesc e desc) := by
    refine ⟨hcnum.trans hnum, hcin.trans hin, ?_⟩
    rw [hcout, usbEndpointDirOut_eq, hin]
  have hen : ((u.copyDesc e desc).ep e).epEnable = (u.ep e).epEnable := by
    unfold copyDesc
    rw [setEp_ep_self, setEp_ep_self]
  have h := rtsConfigEp_claims hplace desc
  rw [rtsEpEnable_eq hnum0]
  refine ⟨h.place, h.mcnum, fun hne => ?_, h.claimed⟩
  rw [← hen]
  exact h.refused hne

/-! ## The invariant on the driver's data -/

/-- **Who owns which channel.**  An enabled endpoint has its number, direction and channel, and its
channel records it; every entry that is not cleared records an enabled endpoint. -/
structure ChannelsOwned (u : Udc) : Prop where
  control : (u.ep ep0).epEnable = false ∧ (u.ep ep0).epnum = 0
  place : ∀ e, (u.ep e).epEnable = true → InPlace e u
  mcnum : ∀ e, (u.ep e).epEnable = true → e.usesFifo = true →
    (u.ep e).mcnum = e.fifo.1 ∧ u.mcm e.fifo.1 = e.claim
  entry : ∀ n, u.mcm n = {} ∨
    ∃ e, (u.ep e).epEnable = true ∧ e.usesFifo = true ∧ e.fifo.1 = n ∧ u.mcm n = e.claim

theorem ChannelsOwned.ne_ep0 (h : ChannelsOwned u) (hen : (u.ep e).epEnable = true) : e ≠ ep0 := by
  rintro rfl
  rw [h.control.1] at hen
  cases hen

theorem InPlace.of_ident (h : InPlace e u) (hi : (v.ep e).ident = (u.ep e).ident) :
    InPlace e v where
  epnum := (congrArg Endpoint.epnum hi).trans h.epnum
  dirIn := (congrArg Endpoint.dirIn hi).trans h.dirIn
  dirOut := (congrArg Endpoint.dirOut hi).trans h.dirOut

theorem epEnable_of_ident (hi : (v.ep e).ident = (u.ep e).ident) :
    (v.ep e).epEnable = (u.ep e).epEnable := by
  have h := congrArg Endpoint.epEnable hi
  exact h

theorem SameOwners.epEnable (h : SameOwners u v) (e : EpId) :
    (v.ep e).epEnable = (u.ep e).epEnable := by
  have hen := congrArg Endpoint.epEnable (h.base e)
  exact hen

theorem ChannelsOwned.same (h : ChannelsOwned u) (hs : SameOwners u v) : ChannelsOwned v := by
  have hnum := congrArg Endpoint.epnum (hs.base ep0)
  refine ⟨⟨(hs.epEnable _).trans h.control.1, hnum.trans h.control.2⟩, fun e hen => ?_,
    fun e hen hf => ?_, fun n => ?_⟩
  · rw [hs.epEnable] at hen
    exact (h.place e hen).of_ident (hs.ident e (h.ne_ep0 hen))
  · rw [hs.epEnable] at hen
    obtain ⟨hmc, hclaim⟩ := h.mcnum e hen hf
    have hmc' := congrArg Endpoint.mcnum (hs.ident e (h.ne_ep0 hen))
    rw [hs.mcm]
    exact ⟨hmc'.trans hmc, hclaim⟩
  · rw [hs.mcm]
    rcases h.entry n with hnone | ⟨e, hen, hrest⟩
    · exact .inl hnone
    · refine .inr ⟨e, ?_, hrest⟩
      rw [hs.epEnable, hen]

theorem ChannelsOwned.of_disabled (h : ChannelsOwned u) (he : (u.ep e).epEnable = false)
    (hself : (v.ep e).epEnable = false) (hep0 : (v.ep ep0).epnum = 0)
    (hother : ∀ e', e' ≠ e → (v.ep e').ident = (u.ep e').ident) (hmcm : v.mcm = u.mcm) :
    ChannelsOwned v := by
  have hne {e' : EpId} (hen : (u.ep e').epEnable = true) : e' ≠ e := by
    rintro rfl
    rw [he] at hen
    cases hen
  have hback {e' : EpId} (hen : (v.ep e').epEnable = true) : (u.ep e').epEnable = true := by
    by_cases heq : e' = e
    · rw [heq, hself] at hen
      cases hen
    · rwa [epEnable_of_ident (hother e' heq)] at hen
  refine ⟨⟨Bool.eq_false_iff.mpr fun hen => ?_, hep0⟩, fun e' hen => ?_, fun e' hen hf => ?_,
    fun n => ?_⟩
  · exact h.ne_ep0 (hback hen) rfl
  · exact (h.place e' (hback hen)).of_ident (hother e' (hne (hback hen)))
  · obtain ⟨hmc, hclaim⟩ := h.mcnum e' (hback hen) hf
    have hmc' := congrArg Endpoint.mcnum (hother e' (hne (hback hen)))
    rw [hmcm]
    exact ⟨hmc'.trans hmc, hclaim⟩
  · rw [hmcm]
    rcases h.entry n with hnone | ⟨e', hen, hrest⟩
    · exact .inl hnone
    · exact .inr ⟨e', (epEnable_of_ident (hother e' (hne hen))).trans hen, hrest⟩

/-- An enable takes a free channel. -/
theorem ChannelsOwned.enable (h : ChannelsOwned u) (he : e ≠ ep0) {status : Int}
    (hc : Claims e status u v) (hother : ∀ e', e' ≠ e → (v.ep e').ident = (u.ep e').ident) :
    ChannelsOwned v := by
  have hep0 : (v.ep ep0).epEnable = false ∧ (v.ep ep0).epnum = 0 := by
    have hi := hother ep0 (Ne.symm he)
    have hnum := congrArg Endpoint.epnum hi
    exact ⟨(epEnable_of_ident hi).trans h.control.1, hnum.trans h.control.2⟩
  have hplace (e' : EpId) (hen : (v.ep e').epEnable = true) : InPlace e' v := by
    by_cases heq : e' = e
    · rw [heq]
      exact hc.place
    · rw [epEnable_of_ident (hother e' heq)] at hen
      exact (h.place e' hen).of_ident (hother e' heq)
  by_cases hstatus : status = 0
  · obtain ⟨hen, hmcm, hfree⟩ := hc.claimed hstatus
    -- no other enabled endpoint has the channel that is claimed
    have hdistinct {e' : EpId} (heq : e' ≠ e) (hen' : (u.ep e').epEnable = true)
        (hf' : e'.usesFifo = true) (hf : e.usesFifo = true) : e'.fifo.1 ≠ e.fifo.1 := by
      intro hchan
      cases hex : e.fifo.2 with
      | false => exact heq (e.fifo_shared e' hf hf' hchan.symm hex).symm
      | true =>
        have hunclaimed := hfree hf hex
        rw [← hchan, (h.mcnum e' hen' hf').2] at hunclaimed
        cases hunclaimed
    refine ⟨hep0, hplace, fun e' hen' hf' => ?_, fun n => ?_⟩
    · by_cases heq : e' = e
      · subst heq
        rw [hmcm, if_pos hf', Function.update_self]
        exact ⟨hc.mcnum hf', rfl⟩
      · rw [epEnable_of_ident (hother e' heq)] at hen'
        obtain ⟨hmc, hclaim⟩ := h.mcnum e' hen' hf'
        have hmc' := congrArg Endpoint.mcnum (hother e' heq)
        refine ⟨hmc'.trans hmc, ?_⟩
        rw [hmcm]
        split
        · next hf => rw [Function.update_of_ne (hdistinct heq hen' hf' hf), hclaim]
        · exact hclaim
    · have hold : u.mcm n = {} ∨ ∃ e', (v.ep e').epEnable = true ∧ e'.usesFifo = true ∧
          e'.fifo.1 = n ∧ u.mcm n = e'.claim := by
        rcases h.entry n with hnone | ⟨e', hen', hrest⟩
        · exact .inl hnone
        · refine .inr ⟨e', ?_, hrest⟩
          by_cases heq : e' = e
          · rw [heq, hen]
          · rw [epEnable_of_ident (hother e' heq), hen']
      rw [hmcm]
      split
      · next hf =>
        by_cases hn : n = e.fifo.1
        · rw [hn, Function.update_self]
          exact .inr ⟨e, hen, hf, rfl, rfl⟩
        · rw [Function.update_of_ne hn]
          exact hold
      · exact hold
  · obtain ⟨hmcm, hen⟩ := hc.refused hstatus
    have hsame (e' : EpId) : (v.ep e').epEnable = (u.ep e').epEnable := by
      by_cases heq : e' = e
      · rw [heq, hen]
      · exact epEnable_of_ident (hother e' heq)
    refine ⟨hep0, hplace, fun e' hen' hf' => ?_, fun n => ?_⟩
    · rw [hsame] at hen'
      obtain ⟨hmc, hclaim⟩ := h.mcnum e' hen' hf'
      rw [hmcm]
      refine ⟨?_, hclaim⟩
      by_cases heq : e' = e
      · subst heq
        exact hc.mcnum hf'
      · have hmc' := congrArg Endpoint.mcnum (hother e' heq)
        exact hmc'.trans hmc
    · rw [hmcm]
      rcases h.entry n with hnone | ⟨e', hen', hrest⟩
      · exact .inl hnone
      · refine .inr ⟨e', ?_, hrest⟩
        rw [hsame, hen']

/-! ## Disabling -/

/-- The entry of a channel records the number and direction of an endpoint. -/
def Records (c : Mcm) (x : Endpoint) : Prop :=
  c.epnum = x.epnum ∧ c.dirIn = x.dirIn ∧ c.dirOut = x.dirOut
  deriving Decidable

theorem InPlace.records_iff (h : InPlace e u) {e' : EpId} :
    Records e'.claim (u.ep e) ↔ e' = e := by
  unfold Records
  rw [h.epnum, h.dirIn, h.dirOut]
  constructor
  · rintro ⟨hnum, hin, hout⟩
    refine EpId.claim_injective e' e ?_
    show Mcm.mk e'.num e'.isIn (!e'.isIn) true = Mcm.mk e.num e.isIn (!e.isIn) true
    have hnum' : e'.num = e.num := hnum
    have hin' : e'.isIn = e.isIn := hin
    rw [hnum', hin']
  · rintro rfl
    exact ⟨rfl, rfl, rfl⟩

theorem rtsEpDisableBegin_entries (u : Udc) (e : EpId) :
    ((u.rtsEpDisableBegin e).ep e).epEnable = false ∧
      ∀ n, (u.rtsEpDisableBegin e).mcm n =
        if n < 8 ∧ Records (u.mcm n) (u.ep e) then {} else u.mcm n := by
  have hself : (u.rtsSetEpDisable e).ep e = { u.ep e with epEnable := false } := by
    have hoff : (u.setEp e fun x => { x with epEnable := false }).ep e =
        { u.ep e with epEnable := false } := setEp_ep_self e _
    unfold rtsSetEpDisable
    dsimp only
    split
    · exact hoff
    · exact hoff
  have hmcm : (u.rtsSetEpDisable e).mcm = u.mcm := mcm_ite rfl rfl
  have hrelease (n : Nat) : ((u.rtsSetEpDisable e).releaseMcm e).mcm n =
      if n < 8 ∧ Records (u.mcm n) (u.ep e) then {} else u.mcm n := by
    unfold releaseMcm Records
    dsimp only
    rw [hself, hmcm]
    rfl
  have hep : ((u.rtsSetEpDisable e).releaseMcm e).ep e = { u.ep e with epEnable := false } := hself
  unfold rtsEpDisableBegin
  dsimp only
  split
  · refine ⟨?_, hrelease⟩
    dsimp only
    rw [hep]
  · refine ⟨?_, hrelease⟩
    rw [hep]

theorem ChannelsOwned.disableBegin (h : ChannelsOwned u) (he : (u.ep e).epEnable = true ∨ e = ep0) :
    ChannelsOwned (u.rtsEpDisableBegin e) := by
  obtain ⟨hother, hnum, -⟩ := rtsEpDisableBegin_local u e
  obtain ⟨hself, hmcm⟩ := rtsEpDisableBegin_entries u e
  have hident (e' : EpId) (hne : e' ≠ e) :
      ((u.rtsEpDisableBegin e).ep e').ident = (u.ep e').ident := by
    rw [← Endpoint.core_ident, hother e' hne, Endpoint.core_ident]
  have hrecords {e' : EpId} (hf' : e'.usesFifo = true) :
      Records e'.claim (u.ep e) ↔ e' = e := by
    rcases he with hen | rfl
    · exact (h.place e hen).records_iff
    · constructor
      · intro hr
        exact absurd (hr.1.trans h.control.2) (e'.num_of_usesFifo hf')
      · rintro rfl
        exact absurd rfl (ep0.num_of_usesFifo hf')
  have hback {e' : EpId} (hen : ((u.rtsEpDisableBegin e).ep e').epEnable = true) :
      e' ≠ e ∧ (u.ep e').epEnable = true := by
    have hne : e' ≠ e := by
      rintro rfl
      rw [hself] at hen
      cases hen
    exact ⟨hne, (epEnable_of_ident (hident e' hne)).symm.trans hen⟩
  refine ⟨⟨Bool.eq_false_iff.mpr fun hen => h.ne_ep0 (hback hen).2 rfl, ?_⟩, fun e' hen => ?_,
    fun e' hen hf' => ?_, fun n => ?_⟩
  · by_cases h0 : ep0 = e
    · rw [← h0] at hnum ⊢
      exact hnum.trans h.control.2
    · have hnum0 := congrArg Endpoint.epnum (hident ep0 h0)
      exact hnum0.trans h.control.2
  · obtain ⟨hne, hen'⟩ := hback hen
    exact (h.place e' hen').of_ident (hident e' hne)
  · obtain ⟨hne, hen'⟩ := hback hen
    obtain ⟨hmc, hclaim⟩ := h.mcnum e' hen' hf'
    have hmc' := congrArg Endpoint.mcnum (hident e' hne)
    refine ⟨hmc'.trans hmc, ?_⟩
    rw [hmcm, hclaim, if_neg fun hr => hne ((hrecords hf').mp hr.2)]
  · rw [hmcm]
    rcases h.entry n with hnone | ⟨e', hen', hf', rfl, hclaim⟩
    · rw [hnone]
      exact .inl (ite_self _)
    · rw [hclaim]
      by_cases heq : e' = e
      · rw [if_pos ⟨e'.fifo_lt hf', (hrecords hf').mpr heq⟩]
        exact .inl rfl
      · rw [if_neg fun hr => heq ((hrecords hf').mp hr.2)]
        exact .inr ⟨e', (epEnable_of_ident (hident e' heq)).trans hen', hf', rfl, rfl⟩

end Udc

namespace Machine

open Udc

variable {m n : Machine} {e : EpId} {D : EpId → Prop}

/-! ## The invariant of the machine -/

/-- **The invariant.**  The channels are owned, and no disable of an enabled endpoint is still under
way. -/
structure Owners (m : Machine) : Prop where
  owned : ChannelsOwned m.udc
  idle : ∀ e, (m.udc.ep e).epEnable = true →
    m.udc.doneWork e = false ∧ ∀ t ∈ m.tasks, threatens e t = false

/-- The owners stay, and the tasks that are added threaten only endpoints of `D`. -/
structure Leaves (D : EpId → Prop) (m n : Machine) : Prop where
  udc : SameOwners m.udc n.udc
  tasks : ∀ t ∈ n.tasks, t ∈ m.tasks ∨ ∀ e, threatens e t = true → D e

theorem Owners.leaves (h : Owners m) (hl : Leaves D m n)
    (hD : ∀ e, D e → (m.udc.ep e).epEnable = false) : Owners n := by
  refine ⟨h.owned.same hl.udc, fun e hen => ?_⟩
  rw [hl.udc.epEnable] at hen
  obtain ⟨hwork, htasks⟩ := h.idle e hen
  refine ⟨by rw [hl.udc.doneWork, hwork], fun t ht => ?_⟩
  rcases hl.tasks t ht with hmem | hnew
  · exact htasks t hmem
  · refine Bool.eq_false_iff.mpr fun hth => ?_
    rw [hD e (hnew e hth)] at hen
    cases hen

theorem leaves_udc {v : Udc} (h : SameOwners m.udc v) : Leaves D m { m with udc := v } :=
  ⟨h, fun _ ht => .inl ht⟩

theorem Leaves.trans {p : Machine} (h : Leaves D m n) (k : Leaves D n p) : Leaves D m p := by
  refine ⟨h.udc.trans k.udc, fun t ht => ?_⟩
  rcases k.tasks t ht with hmem | hnew
  · exact h.tasks t hmem
  · exact .inr hnew

theorem leaves_cons {v : Udc} (h : SameOwners m.udc v) {t : Task}
    (ht : ∀ e, threatens e t = true → D e) : Leaves D m ⟨v, t :: m.tasks⟩ := by
  refine ⟨h, fun t' ht' => ?_⟩
  rcases List.mem_cons.mp ht' with rfl | hmem
  · exact .inr ht
  · exact .inl hmem

theorem threatens_giveback {e e' : EpId} {r : ReqId} {s : Bool} {k : Cont}
    (h : threatens e' (.giveback e r s k) = true) : e' = e ∧ (k = .disable ∨ k = .uvcDone) := by
  have h' : e = e' ∧ (k = .disable ∨ k = .uvcDone) := by simpa [threatens] using h
  exact ⟨h'.1.symm, h'.2⟩

theorem leaves_enterDone {v : Udc} (h : SameOwners m.udc v) (e : EpId) (r : ReqId) (status : Int)
    {k : Cont} (hk : (k = .disable ∨ k = .uvcDone) → D e) :
    Leaves D m (enterDone { m with udc := v } e r status k) := by
  refine leaves_cons (h.trans (sameOwners_rtsDoneEnter v e r status)) fun e' hth => ?_
  obtain ⟨rfl, hk'⟩ := threatens_giveback hth
  exact hk hk'

theorem leaves_enterDoneWq {v : Udc} (h : SameOwners m.udc v) (e : EpId) (r : ReqId)
    (status : Int) {k : Cont} (hk : (k = .disable ∨ k = .uvcDone) → D e) :
    Leaves D m (enterDoneWq { m with udc := v } e r status k) := by
  refine leaves_cons (h.trans (sameOwners_rtsDoneWqEnter v e r status)) fun e' hth => ?_
  obtain ⟨rfl, hk'⟩ := threatens_giveback hth
  exact hk hk'

theorem not_flushing {k : Cont} (h : k ≠ .disable ∧ k ≠ .uvcDone) :
    (k = .disable ∨ k = .uvcDone) → D e :=
  fun hk => absurd hk (not_or.mpr h)

/-! ## Handlers -/

theorem leaves_epQueue (e : EpId) (r : ReqId) : Leaves D m (m.epQueue e r) := by
  have hlink := sameOwners_rtsEpQueueLink m.udc e r
  unfold Machine.epQueue
  dsimp only
  split
  · split
    · exact leaves_enterDone hlink e r 0 (not_flushing ⟨by simp, by simp⟩)
    · exact leaves_udc <| (hlink.trans (sameOwners_rtsStartEp0Transfer _ e r)).trans
        (sameOwners_rtsEpQueueStart _ e r _)
  · exact leaves_udc <| (hlink.trans (sameOwners_rtsEpQueueIrq _ e _)).trans
      (sameOwners_rtsEpQueueStart _ e r _)

theorem leaves_ep0Process : Leaves D m m.ep0Process := by
  unfold Machine.ep0Process
  split
  · exact leaves_udc (SameOwners.refl m.udc)
  · next r rest hq =>
    have hadv := sameOwners_ep0Advance m.udc ep0 r
    dsimp only
    split
    · exact leaves_enterDone hadv ep0 r 0 (not_flushing ⟨by simp, by simp⟩)
    · exact leaves_udc (hadv.trans (sameOwners_rtsStartEp0Transfer _ ep0 r))

theorem leaves_xferProcess (e : EpId) (dmaout : UInt32) : Leaves D m (m.xferProcess e dmaout) := by
  have hnext : Cont.startNext ≠ .disable ∧ Cont.startNext ≠ .uvcDone := ⟨by simp, by simp⟩
  have hrefl : Leaves D m m := leaves_udc (SameOwners.refl m.udc)
  unfold Machine.xferProcess
  split
  · next k =>
    split
    · unfold Machine.intrProcess
      split
      · exact hrefl
      · next r rest hq =>
        have hadv := sameOwners_intrAdvance m.udc (.epIn k) r
        dsimp only
        split
        · split
          · exact leaves_enterDone hadv _ r 0 (not_flushing hnext)
          · exact leaves_udc (hadv.trans (sameOwners_rtsStartIntrTransfer _ _ r))
        · exact hrefl
    · split
      · unfold Machine.uacInProcess
        split
        · exact hrefl
        · exact leaves_enterDone (sameOwners_rtsInComplete m.udc _ _) _ _ 0 (not_flushing hnext)
      · exact leaves_udc (sameOwners_of_ep rfl rfl rfl)
  · unfold Machine.outProcess
    split
    · exact hrefl
    · exact leaves_enterDone (sameOwners_setReq _ _ m.udc) _ _ 0 (not_flushing hnext)

theorem leaves_wqProcess (e : EpId) : Leaves D m (m.wqProcess e) := by
  unfold Machine.wqProcess
  split
  · exact leaves_udc (SameOwners.refl m.udc)
  · exact leaves_enterDoneWq (sameOwners_rtsInComplete m.udc e _) e _ 0
      (not_flushing ⟨by simp, by simp⟩)

theorem leaves_setupProcess {hs : Bool} {ctrl : SetupPacket}
    (hn : m.setupProcess hs ctrl = some n) : Leaves D m n := by
  have hpost := sameOwners_rtsUsbSetupProcess hs ctrl (m.udc.readSetup ctrl)
  have hread : SameOwners m.udc (m.udc.readSetup ctrl) := sameOwners_of_ep rfl rfl rfl
  unfold setupProcess at hn
  cases hrun : rtsUsbSetupProcess noCallbacks hs ctrl (m.udc.readSetup ctrl) true with
  | ret ret v held =>
    rw [hrun] at hn hpost
    obtain rfl := Option.some.inj hn
    by_cases hret : ret = 0
    · simp only [hret, ne_eq, not_true_eq_false, if_false]
      exact leaves_udc (hread.trans hpost)
    · simp only [hret, ne_eq, not_false_eq_true, if_true]
      exact leaves_cons (hread.trans hpost) nofun
  | deadlock =>
    rw [hrun] at hn
    cases hn
  | fault =>
    rw [hrun] at hn
    cases hn
  | hang =>
    rw [hrun] at hn
    cases hn

theorem Owners.clearEp (h : Owners m) (he : (m.udc.ep e).epEnable = false) :
    Owners { m with udc := m.udc.clearEp e } := by
  have hother (e' : EpId) (hne : e' ≠ e) : (m.udc.clearEp e).ep e' = m.udc.ep e' :=
    setEp_ep_of_ne hne _
  have hself : ((m.udc.clearEp e).ep e).epEnable = false ∧ ((m.udc.clearEp e).ep e).epnum = 0 := by
    unfold Udc.clearEp
    rw [setEp_ep_self]
    exact ⟨rfl, rfl⟩
  have hep0 : ((m.udc.clearEp e).ep ep0).epnum = 0 := by
    by_cases h0 : ep0 = e
    · rw [h0]
      exact hself.2
    · rw [hother ep0 h0]
      exact h.owned.control.2
  refine ⟨h.owned.of_disabled he hself.1 hep0 (fun e' hne => by rw [hother e' hne]) rfl,
    fun e' hen => ?_⟩
  refine h.idle e' ?_
  by_cases heq : e' = e
  · subst heq
    have hen' : ((m.udc.clearEp e').ep e').epEnable = true := hen
    rw [hself.1] at hen'
    cases hen'
  · rw [← hother e' heq]
    exact hen

theorem Owners.disableLoop (h : Owners m) (he : (m.udc.ep e).epEnable = false) :
    Owners (m.disableLoop e) := by
  unfold Machine.disableLoop
  split
  · split
    · exact h
    · exact h.clearEp he
  · refine h.leaves (D := fun e' => e' = e) ?_ (by rintro e' rfl; exact he)
    exact leaves_enterDone (SameOwners.refl m.udc) e _ _ fun _ => rfl

theorem Owners.uvcDoneLoop (h : Owners m) (he : (m.udc.ep e).epEnable = false) :
    Owners (m.uvcDoneLoop e) := by
  refine h.leaves (D := fun e' => e' = e) ?_ (by rintro e' rfl; exact he)
  unfold Machine.uvcDoneLoop
  split
  · refine leaves_cons (SameOwners.refl m.udc) fun e' hth => ?_
    have hth' : e = e' := by simpa [threatens] using hth
    exact hth'.symm
  · exact leaves_enterDoneWq (SameOwners.refl m.udc) e _ _ fun _ => rfl

/-- A callback returns. -/
theorem Owners.resume (h : Owners m) {i : Nat} {t : Task} (ht : m.tasks[i]? = some t)
    (answer : Int) : Owners (resumeTask { m with tasks := m.tasks.eraseIdx i } t answer) := by
  have hD (e : EpId) (hD : False) : (m.udc.ep e).epEnable = false := hD.elim
  have herase : Owners { m with tasks := m.tasks.eraseIdx i } :=
    h.leaves (D := fun _ => False)
      ⟨SameOwners.refl m.udc, fun t ht => .inl (List.mem_of_mem_eraseIdx ht)⟩ hD
  -- an endpoint that the task threatens is not enabled
  have hoff {e : EpId} (hth : threatens e t = true) : (m.udc.ep e).epEnable = false := by
    refine Bool.eq_false_iff.mpr fun hen => ?_
    rw [(h.idle e hen).2 t (List.mem_of_getElem? ht)] at hth
    cases hth
  have hkeep {v : Udc} (hv : SameOwners m.udc v) :
      Owners { udc := v, tasks := m.tasks.eraseIdx i } :=
    herase.leaves (D := fun _ => False) (leaves_udc hv) fun _ hf => hf.elim
  cases t with
  | giveback e r stopped k =>
    have hleave := sameOwners_rtsDoneLeave m.udc e stopped
    have hself : ((m.udc.rtsDoneLeave e stopped).ep e).epEnable = (m.udc.ep e).epEnable :=
      hleave.epEnable e
    cases k with
    | ret => exact hkeep hleave
    | startNext => exact hkeep (hleave.trans (sameOwners_rtsStartNextRequest _ e))
    | epQueue r' wasEmpty => exact hkeep (hleave.trans (sameOwners_rtsEpQueueStart _ e r' wasEmpty))
    | disable => exact (hkeep hleave).disableLoop (hself.trans (hoff (by simp [threatens])))
    | uvcDone => exact (hkeep hleave).uvcDoneLoop (hself.trans (hoff (by simp [threatens])))
  | uvcZero e => exact herase.clearEp (hoff (by simp [threatens]))
  | setup =>
    unfold resumeTask
    dsimp only
    split
    · exact hkeep (sameOwners_emit _ m.udc)
    · exact herase

/-! ## Steps and runs -/

/-- The calls are in turn: an endpoint is enabled only when no disable of it is still under way, and
disabled only while it is enabled.  Enabling ep0 succeeds without doing anything. -/
def InTurn (m : Machine) : Ev → Prop
  | .enable e _ => m.udc.doneWork e = false ∧ ∀ t ∈ m.tasks, threatens e t = false
  | .disable e => (m.udc.ep e).epEnable = true ∨ e = ep0
  | _ => True

instance (m : Machine) : ∀ ev, Decidable (InTurn m ev)
  | .enable e _ => inferInstanceAs (Decidable
      (m.udc.doneWork e = false ∧ ∀ t ∈ m.tasks, threatens e t = false))
  | .disable e => inferInstanceAs (Decidable ((m.udc.ep e).epEnable = true ∨ e = ep0))
  | .queue .. | .dequeue .. | .setHalt .. | .xferIrq .. | .xferWork _ | .uvcDoneWork _
  | .setup .. | .ep0Irq | .resume .. => isTrue trivial

theorem Owners.enable (h : Owners m) {desc : EpDesc}
    (hdesc : usbEndpointNum desc = e.num ∧ usbEndpointDirIn desc = e.isIn)
    (hturn : InTurn m (.enable e desc)) :
    Owners { m with udc := (m.udc.rtsEpEnable e desc).2 } := by
  obtain ⟨hlocal, hnum⟩ := rtsEpEnable_local m.udc e desc
  have hother (e' : EpId) (hne : e' ≠ e) :
      ((m.udc.rtsEpEnable e desc).2.ep e').ident = (m.udc.ep e').ident := by
    rw [← Endpoint.core_ident, hlocal.other e' hne, Endpoint.core_ident]
  have hidle (e' : EpId) (hen : e' ≠ e → (m.udc.ep e').epEnable = true) :
      (m.udc.rtsEpEnable e desc).2.doneWork e' = false ∧
        ∀ t ∈ m.tasks, threatens e' t = false := by
    rw [hlocal.doneWork]
    by_cases heq : e' = e
    · rw [heq]
      exact hturn
    · exact h.idle e' (hen heq)
  have hback (e' : EpId) (hen : ((m.udc.rtsEpEnable e desc).2.ep e').epEnable = true)
      (hne : e' ≠ e) : (m.udc.ep e').epEnable = true :=
    (epEnable_of_ident (hother e' hne)).symm.trans hen
  refine ⟨?_, fun e' hen => hidle e' (hback e' hen)⟩
  by_cases he : e = ep0
  · subst he
    have hzero : usbEndpointNum desc = 0 := hdesc.1
    have hself : ((m.udc.rtsEpEnable ep0 desc).2.ep ep0).epEnable = (m.udc.ep ep0).epEnable ∧
        (m.udc.rtsEpEnable ep0 desc).2.mcm = m.udc.mcm := by
      unfold rtsEpEnable
      rw [if_pos hzero, setEp_ep_self]
      exact ⟨rfl, rfl⟩
    exact h.owned.of_disabled h.owned.control.1 (hself.1.trans h.owned.control.1)
      (hnum.trans hzero) hother hself.2
  · exact h.owned.enable he (rtsEpEnable_claims he hdesc.1 hdesc.2) hother

theorem Owners.disable (h : Owners m) (hturn : InTurn m (.disable e)) :
    Owners { m with udc := m.udc.rtsEpDisableBegin e } ∧
      ((m.udc.rtsEpDisableBegin e).ep e).epEnable = false := by
  obtain ⟨hself, -⟩ := rtsEpDisableBegin_entries m.udc e
  obtain ⟨hother, -, -, -, hwork⟩ := rtsEpDisableBegin_local m.udc e
  refine ⟨⟨h.owned.disableBegin hturn, fun e' hen => ?_⟩, hself⟩
  have hne : e' ≠ e := by
    rintro rfl
    have hen' : ((m.udc.rtsEpDisableBegin e').ep e').epEnable = true := hen
    rw [hself] at hen'
    cases hen'
  obtain ⟨-, -, hsame⟩ := Endpoint.identity_of_core (hother e' hne)
  obtain ⟨hidle, htasks⟩ := h.idle e' (hsame.symm.trans hen)
  refine ⟨?_, htasks⟩
  show (m.udc.rtsEpDisableBegin e).doneWork e' = false
  rw [hwork]
  split
  · next huvc =>
    -- the work that is queued belongs to the endpoint that is disabled
    rcases hturn with hen' | rfl
    · rw [(h.owned.place e hen').epnum] at huvc ⊢
      rw [uvcSlot_of_num huvc, Function.update_of_ne hne, hidle]
    · rw [h.owned.control.2] at huvc
      cases huvc
  · exact hidle

/-- **Every step** keeps the owners of the channels. -/
theorem Owners.step (h : Owners m) {ev : Ev} (hturn : InTurn m ev) (hn : m.step ev = some n) :
    Owners n := by
  have hkeep {p : Machine} (hp : Leaves (fun _ => False) m p) : Owners p :=
    h.leaves hp fun _ hf => hf.elim
  cases ev with
  | queue e r length =>
    obtain ⟨-, rfl⟩ := step_queue hn
    exact hkeep ((leaves_udc (sameOwners_setReq r _ m.udc)).trans (leaves_epQueue e r))
  | dequeue e r =>
    obtain rfl := Option.some.inj hn
    split
    · have hret : Cont.ret ≠ .disable ∧ Cont.ret ≠ .uvcDone := ⟨by simp, by simp⟩
      exact hkeep (leaves_enterDone (SameOwners.refl m.udc) e r _ fun hk =>
        absurd hk (not_or.mpr hret))
    · exact h
  | setHalt e value wedge =>
    cases hn
    exact hkeep (leaves_udc (sameOwners_setHaltAndWedge m.udc e value wedge))
  | disable e =>
    obtain rfl := Option.some.inj hn
    obtain ⟨hbegin, hoff⟩ := h.disable hturn
    split
    · exact hbegin
    · exact hbegin.disableLoop hoff
  | enable e desc =>
    obtain ⟨hdesc, rfl⟩ := step_enable hn
    exact h.enable hdesc hturn
  | xferIrq e dmaout =>
    obtain ⟨r, l, -, -, rfl⟩ := step_xferIrq hn
    have hfinish : SameOwners m.udc (m.udc.finishXfer (chan (m.udc.ep e)) r) :=
      sameOwners_of_ep rfl rfl rfl
    exact hkeep ((leaves_udc hfinish).trans (leaves_xferProcess e dmaout))
  | xferWork e =>
    obtain ⟨-, rfl⟩ := step_xferWork hn
    have htake : SameOwners m.udc (m.udc.takeXferWork e) := sameOwners_of_ep rfl rfl rfl
    exact hkeep ((leaves_udc htake).trans (leaves_wqProcess e))
  | uvcDoneWork e =>
    obtain ⟨⟨hwork, -⟩, rfl⟩ := step_uvcDoneWork hn
    have hoff : (m.udc.ep e).epEnable = false := by
      refine Bool.eq_false_iff.mpr fun hen => ?_
      rw [(h.idle e hen).1] at hwork
      cases hwork
    have htake : Owners { m with udc := m.udc.takeDoneWork e } := by
      refine ⟨⟨h.owned.control, fun e' hen => ?_, h.owned.mcnum, h.owned.entry⟩, fun e' hen => ?_⟩
      · exact (h.owned.place e' hen).of_ident rfl
      · obtain ⟨hidle, htasks⟩ := h.idle e' hen
        refine ⟨?_, htasks⟩
        have hne : e' ≠ e := by
          rintro rfl
          have hen' : (m.udc.ep e').epEnable = true := hen
          rw [hoff] at hen'
          cases hen'
        exact (Function.update_of_ne hne false m.udc.doneWork).trans hidle
    exact htake.uvcDoneLoop hoff
  | setup hs ctrl => exact hkeep (leaves_setupProcess (step_setup hn).2)
  | ep0Irq =>
    cases hn
    exact hkeep leaves_ep0Process
  | resume i answer =>
    obtain ⟨t, ht, rfl⟩ := step_resume hn
    exact h.resume ht answer

theorem owners_probed (dynamicMaxpktsize : Bool) : Owners ⟨probed dynamicMaxpktsize, []⟩ := by
  refine ⟨⟨⟨rfl, rfl⟩, nofun, nofun, fun n => .inl rfl⟩, nofun⟩

end Machine

namespace Udc

/-! ## Ownership -/

/-- `e` is enabled, the entry of channel `n` records it, and the channel is its own. -/
def OwnsChannel (u : Udc) (e : EpId) (n : Nat) : Prop :=
  (u.ep e).epEnable = true ∧ Records (u.mcm n) (u.ep e) ∧ (u.ep e).mcnum = n

variable {u : Udc}

theorem ChannelsOwned.owns (h : ChannelsOwned u) {n : Nat} (hn : (u.mcm n).claimed = true) :
    ∃! e, OwnsChannel u e n := by
  rcases h.entry n with hnone | ⟨e, hen, hf, rfl, hclaim⟩
  · rw [hnone] at hn
    cases hn
  · refine ⟨e, ⟨hen, ?_, (h.mcnum e hen hf).1⟩, fun e' he' => ?_⟩
    · rw [hclaim]
      exact (h.place e hen).records_iff.mpr rfl
    · have hrec := he'.2.1
      rw [hclaim] at hrec
      exact ((h.place e' he'.1).records_iff.mp hrec).symm

theorem ChannelsOwned.mcnum_injective (h : ChannelsOwned u) {e e' : EpId}
    (hen : (u.ep e).epEnable = true) (hen' : (u.ep e').epEnable = true)
    (hf : usesDma (u.ep e) = true) (hf' : usesDma (u.ep e') = true)
    (hmc : (u.ep e).mcnum = (u.ep e').mcnum) : e = e' := by
  rw [(h.place e hen).usesDma_iff] at hf
  rw [(h.place e' hen').usesDma_iff] at hf'
  obtain ⟨hfifo, hclaim⟩ := h.mcnum e hen hf
  obtain ⟨hfifo', hclaim'⟩ := h.mcnum e' hen' hf'
  refine e.claim_injective e' ?_
  rw [← hclaim, ← hclaim', ← hfifo, ← hfifo', hmc]

end Udc

namespace Machine

open Udc

variable {m : Machine}

/-- **Ownership of the FIFO channels.**  In every run from the probe whose enables and disables are
in turn, whatever else happens, a claimed channel belongs to exactly one enabled endpoint, the one
it records; no two enabled endpoints share a channel; and an enable that is refused changes no claim
and no register but the configuration register of the endpoint it was for. -/
theorem fifo_ownership {dynamicMaxpktsize : Bool} {evs : List Ev}
    (hturn : Runs.Along step InTurn ⟨probed dynamicMaxpktsize, []⟩ evs)
    (hrun : Runs.exec step ⟨probed dynamicMaxpktsize, []⟩ evs = some m) :
    (∀ n, (m.udc.mcm n).claimed = true → ∃! e, OwnsChannel m.udc e n) ∧
      (∀ e e', (m.udc.ep e).epEnable = true → (m.udc.ep e').epEnable = true →
        usesDma (m.udc.ep e) = true → usesDma (m.udc.ep e') = true →
        (m.udc.ep e).mcnum = (m.udc.ep e').mcnum → e = e') ∧
      ∀ (L : Layout) (regs : RegFile) (e : EpId) (desc : EpDesc),
        (m.udc.rtsEpEnable e desc).1 = -EINVAL →
        (m.udc.rtsEpEnable e desc).2.mcm = m.udc.mcm ∧
          ∀ reg, reg ≠ .cfg (usbEndpointDirIn desc) (usbEndpointNum desc) →
            (L.rtsEpEnable m.udc regs e desc).2.2 reg = regs reg := by
  have h : Owners m := Runs.exec_invariant (fun _ _ _ h hturn hs => h.step hturn hs)
    (owners_probed dynamicMaxpktsize) hturn hrun
  refine ⟨fun n hn => h.owned.owns hn, fun e e' hen hen' hf hf' hmc =>
    h.owned.mcnum_injective hen hen' hf hf' hmc, fun L regs e desc hret => ?_⟩
  obtain ⟨hfst, hudc⟩ := L.rtsEpEnable_udc m.udc regs e desc
  have hne : (L.rtsEpEnable m.udc regs e desc).1 ≠ 0 := by
    rw [hfst, hret]
    decide
  obtain ⟨hmcm, hregs⟩ := Layout.rtsEpEnable_refused hne
  rw [hudc] at hmcm
  exact ⟨hmcm, hregs⟩

/-- A descriptor of the bulk endpoint `ep3in`. -/
def bulkInDesc : EpDesc := ⟨0x83, 0x02, 512⟩

/-- A descriptor of the audio endpoint `ep4in`, which shares the channel of `ep3in`. -/
def uacInDesc : EpDesc := ⟨0x84, 0x01, 192⟩

/-- `ep4in` is refused while `ep3in` has the channel, and gets it after `ep3in` is disabled and its
request given back. -/
def shareChannel : List Ev :=
  [.enable (.epIn 3) bulkInDesc, .enable (.epIn 4) uacInDesc, .queue (.epIn 3) 1 512,
    .enable (.epIn 5) uvcInDesc, .disable (.epIn 3), .resume 0 0, .enable (.epIn 4) uacInDesc]

theorem fifo_ownership_shareChannel :
    ∃ m, Runs.exec step ⟨probed false, []⟩ shareChannel = some m ∧
      (m.udc.mcm 4).epnum = 4 ∧ ∃! e, OwnsChannel m.udc e 4 := by
  have hrun : (Runs.exec step ⟨probed false, []⟩ shareChannel).map (fun m => m.udc.mcm 4) =
      some ⟨4, true, false, true⟩ := by
    decide +kernel
  obtain ⟨m, hm, hentry⟩ := Option.map_eq_some_iff.mp hrun
  have hturn : Runs.Along step InTurn ⟨probed false, []⟩ shareChannel := by decide +kernel
  obtain ⟨howner, -⟩ := fifo_ownership hturn hm
  exact ⟨m, hm, by rw [hentry], howner 4 (by rw [hentry])⟩

end Machine
end RealtekIpcam
