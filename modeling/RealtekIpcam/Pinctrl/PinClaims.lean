import RealtekIpcam.Pinctrl.Pinmux
import Mathlib.Data.List.Perm.Basic

/-!
# The claims behind the use counts

Abstractly, what the core keeps is a book of claims: a list of pins, each with the device that
claims it, where a pin may be listed any number of times.  `Booked` says that the descriptors
are this book: the use count of a pin is the number of its entries, and its owner the device
in all of them.

A setting that is enabled enters its pins, one entry each; a rollback takes them out again.
`Keeper` packages what has to be known of a single request and a single free for a property of
the descriptors and the driver to follow the book, and `Keeper.enable` and `Keeper.disable`
carry it through the loops of the two operations.
-/

namespace RealtekIpcam.Pinctrl

/-- A pin, and the device that claims it. -/
abbrev Claim := Nat × String

/-- How often a pin is claimed. -/
def claimed (claims : List Claim) (pin : Nat) : Nat := (claims.map Prod.fst).count pin

/-- The claims of a list of pins. -/
def claimsOf (owner : String) (pins : List Nat) : List Claim := pins.map fun pin => (pin, owner)

/-- The claims of settings, which have the pins of their groups. -/
def claimsOfSettings {δ : Type} (ops : PinmuxOps δ) (settings : List PinctrlSetting) : List Claim :=
  settings.flatMap fun setting => claimsOf setting.devName (ops.groupPins setting.group)

variable {δ : Type} {ops : PinmuxOps δ} {dev dev' : PinctrlDev δ} {claims claims' : List Claim}
  {pin p : Nat} {owner : String} {pins taken : List Nat} {setting : PinctrlSetting}

@[simp] theorem claimed_cons (c : Claim) (claims : List Claim) (p : Nat) :
    claimed (c :: claims) p = claimed claims p + if c.1 = p then 1 else 0 := by
  unfold claimed
  rw [List.map_cons, List.count_cons]
  simp only [beq_iff_eq]

theorem claimed_perm (h : claims.Perm claims') (p : Nat) : claimed claims p = claimed claims' p :=
  (h.map Prod.fst).count_eq p

theorem exists_claim (h : claimed claims p ≠ 0) : ∃ c ∈ claims, c.1 = p := by
  have hmem := List.count_pos_iff.mp (Nat.pos_of_ne_zero h)
  exact List.mem_map.mp hmem

theorem claimed_ne_zero {c : Claim} (h : c ∈ claims) : claimed claims c.1 ≠ 0 :=
  Nat.ne_of_gt (List.count_pos_iff.mpr (List.mem_map_of_mem h))

theorem claimsOfSettings_erase (ops : PinmuxOps δ) {settings : List PinctrlSetting}
    (h : setting ∈ settings) : (claimsOfSettings ops settings).Perm
      (claimsOf setting.devName (ops.groupPins setting.group) ++
        claimsOfSettings ops (settings.erase setting)) :=
  (List.perm_cons_erase h).flatMap_right _

/-! ## The book -/

/-- The descriptors are the book of claims. -/
structure Booked (dev : PinctrlDev δ) (claims : List Claim) : Prop where
  usecount : ∀ p d, dev.desc p = some d → d.muxUsecount.toNat = claimed claims p
  owner : ∀ c ∈ claims, ∃ d, dev.desc c.1 = some d ∧ d.muxOwner = some c.2
  free : ∀ p, dev.FreeUnowned p

theorem Booked.perm (h : Booked dev claims) (hperm : claims.Perm claims') : Booked dev claims' :=
  ⟨fun p d hd => (h.usecount p d hd).trans (claimed_perm hperm p),
    fun c hc => h.owner c (hperm.mem_iff.mpr hc), h.free⟩

theorem Booked.of_desc (h : Booked dev claims) (hdesc : dev'.desc = dev.desc) :
    Booked dev' claims := by
  refine ⟨fun p d hd => h.usecount p d (hdesc ▸ hd), fun c hc => ?_, fun p d hd => ?_⟩
  · rw [hdesc]
    exact h.owner c hc
  · exact h.free p d (hdesc ▸ hd)

theorem Booked.muxOwner (h : Booked dev claims) {d : PinDesc} (hd : dev.desc p = some d)
    (hne : d.muxUsecount ≠ 0) : ∃ c ∈ claims, c.1 = p ∧ d.muxOwner = some c.2 := by
  have hcount : claimed claims p ≠ 0 := by
    rw [← h.usecount p d hd]
    intro h0
    exact hne (BitVec.eq_of_toNat_eq h0)
  obtain ⟨c, hc, rfl⟩ := exists_claim hcount
  obtain ⟨d', hd', howner⟩ := h.owner c hc
  rw [hd, Option.some_inj] at hd'
  subst hd'
  exact ⟨c, hc, rfl, howner⟩

theorem Booked.owned_iff (h : Booked dev claims) {d : PinDesc} (hd : dev.desc p = some d) :
    d.muxOwner.isSome ↔ d.muxUsecount ≠ 0 := by
  constructor
  · intro hsome h0
    rw [(h.free p d hd h0).1] at hsome
    cases hsome
  · intro hne
    obtain ⟨c, -, -, howner⟩ := h.muxOwner hd hne
    rw [howner]
    rfl

theorem Booked.setDesc (h : Booked dev claims) {d : PinDesc} (drv : δ)
    (hother : ∀ q, q ≠ pin → claimed claims' q = claimed claims q)
    (hmem : ∀ c ∈ claims', c.1 ≠ pin → c ∈ claims)
    (hcount : d.muxUsecount.toNat = claimed claims' pin)
    (howner : ∀ c ∈ claims', c.1 = pin → d.muxOwner = some c.2)
    (hfree : d.muxUsecount = 0 → d.muxOwner = none ∧ d.muxSetting = none) :
    Booked ({ dev with drv := drv }.setDesc pin d) claims' := by
  constructor
  · intro q dq hq
    rw [PinctrlDev.setDesc_desc] at hq
    by_cases heq : q = pin
    · rw [if_pos heq, Option.some_inj] at hq
      rw [← hq, heq, hcount]
    · rw [if_neg heq] at hq
      rw [hother q heq]
      exact h.usecount q dq hq
  · intro c hc
    rw [PinctrlDev.setDesc_desc]
    by_cases heq : c.1 = pin
    · rw [if_pos heq]
      exact ⟨d, rfl, howner c hc heq⟩
    · rw [if_neg heq]
      exact h.owner c (hmem c hc heq)
  · intro q dq hq
    rw [PinctrlDev.setDesc_desc] at hq
    by_cases heq : q = pin
    · rw [if_pos heq, Option.some_inj] at hq
      rw [← hq]
      exact hfree
    · rw [if_neg heq] at hq
      exact h.free q dq hq

/-- **A request.**  One that succeeds, and does not wrap the count, enters a claim; one that fails
leaves the descriptors as they are. -/
theorem Booked.request (h : Booked dev claims) {r : Int × PinctrlDev δ}
    (hr : MuxRequest ops dev pin owner r) :
    (r.1 ≠ 0 → r.2.desc = dev.desc) ∧
      (r.1 = 0 → (∀ d, dev.desc pin = some d → d.muxUsecount + 1 ≠ 0) →
        Booked r.2 ((pin, owner) :: claims)) := by
  have hother : ∀ q, q ≠ pin → claimed ((pin, owner) :: claims) q = claimed claims q := by
    intro q hq
    rw [claimed_cons, if_neg (Ne.symm hq), Nat.add_zero]
  have hmem : ∀ c ∈ (pin, owner) :: claims, c.1 ≠ pin → c ∈ claims := by
    intro c hc hne
    rcases List.mem_cons.mp hc with rfl | hc
    · exact absurd rfl hne
    · exact hc
  -- The entries of the pin all have the owner that the descriptor gets.
  have hsame (d : PinDesc) (hd : dev.desc pin = some d)
      (hown : d.muxUsecount ≠ 0 → d.muxOwner = some owner) :
      ∀ c ∈ (pin, owner) :: claims, c.1 = pin → some owner = some c.2 := by
    intro c hc heq
    rcases List.mem_cons.mp hc with rfl | hc
    · rfl
    · obtain ⟨d', hd', howner⟩ := h.owner c hc
      rw [heq, hd, Option.some_inj] at hd'
      subst hd'
      have hne : d.muxUsecount ≠ 0 := fun h0 => by
        rw [(h.free pin d hd h0).1] at howner
        cases howner
      rw [← hown hne, howner]
  cases hr with
  | refused => exact ⟨fun _ => rfl, fun h0 => absurd h0 (by decide : (-EINVAL : Int) ≠ 0)⟩
  | failed hne => exact ⟨fun _ => rfl, fun h0 => absurd h0 hne⟩
  | again d hd hclaimed howner hwrap =>
    refine ⟨fun h0 => absurd rfl h0, fun _ _ => ?_⟩
    refine h.setDesc dev.drv hother hmem ?_ ?_ fun h0 => absurd h0 hwrap
    · rw [claimed_cons, if_pos rfl, ← h.usecount pin d hd]
      show (d.muxUsecount + 1).toNat = _
      bv_omega
    · intro c hc heq
      exact howner.trans (hsame d hd (fun _ => howner) c hc heq)
  | first d hd hfree hacquire =>
    refine ⟨fun h0 => absurd rfl h0, fun _ _ => ?_⟩
    refine h.setDesc _ hother hmem ?_ (hsame d hd fun hne => absurd hfree hne) fun h0 =>
      absurd h0 (by decide : (1 : Word) ≠ 0)
    rw [claimed_cons, if_pos rfl, ← h.usecount pin d hd, hfree]
    rfl
  | wrapped d hd hwrap howner hacquire =>
    exact ⟨fun h0 => absurd rfl h0, fun _ hroom => absurd hwrap (hroom d hd)⟩

/-- A pin is given back. -/
theorem Booked.pinFree (h : Booked dev ((pin, owner) :: claims)) {dev' : PinctrlDev δ}
    (hf : MuxFree ops dev pin dev') : Booked dev' claims := by
  have hother : ∀ q, q ≠ pin → claimed claims q = claimed ((pin, owner) :: claims) q := by
    intro q hq
    rw [claimed_cons, if_neg (Ne.symm hq), Nat.add_zero]
  have hmem : ∀ c ∈ claims, c.1 ≠ pin → c ∈ (pin, owner) :: claims :=
    fun c hc _ => List.mem_cons_of_mem _ hc
  obtain ⟨d₀, hd₀, howner₀⟩ := h.owner (pin, owner) List.mem_cons_self
  have hcount := h.usecount pin d₀ hd₀
  rw [claimed_cons, if_pos rfl] at hcount
  cases hf with
  | idle h0 =>
    rw [h0 d₀ hd₀] at hcount
    exact absurd hcount (Nat.succ_ne_zero _).symm
  | shared d hd hclaimed hmore =>
    rw [hd₀, Option.some_inj] at hd
    subst hd
    refine h.setDesc dev.drv hother hmem ?_ ?_ fun h0 => absurd h0 hmore
    · show (d₀.muxUsecount - 1).toNat = _
      bv_omega
    · intro c hc heq
      obtain ⟨d, hd, howner⟩ := h.owner c (List.mem_cons_of_mem _ hc)
      rw [heq, hd₀, Option.some_inj] at hd
      rw [← howner, ← hd]
  | last d hd hlast =>
    rw [hd₀, Option.some_inj] at hd
    subst hd
    rw [hlast] at hcount
    have hzero : claimed claims pin = 0 := by
      have hone : (1 : Word).toNat = 1 := rfl
      omega
    refine h.setDesc _ hother hmem hzero.symm ?_ fun _ => ⟨rfl, rfl⟩
    intro c hc heq
    exact absurd hzero (heq ▸ claimed_ne_zero hc)

/-- **A mark.**  The setting of a pin may be written when it is claimed, and cleared at any time. -/
theorem Booked.mark (h : Booked dev claims) {d : PinDesc} (hd : dev.desc pin = some d)
    {mark : Option PinctrlSetting} (hmark : mark = none ∨ d.muxUsecount ≠ 0) :
    Booked (dev.setDesc pin { d with muxSetting := mark }) claims := by
  refine h.setDesc dev.drv (fun _ _ => rfl) (fun c hc _ => hc) (h.usecount pin d hd) ?_ ?_
  · intro c hc heq
    obtain ⟨d', hd', howner⟩ := h.owner c hc
    rw [heq, hd, Option.some_inj] at hd'
    rw [← howner, ← hd']
  · intro h0
    refine ⟨(h.free pin d hd h0).1, ?_⟩
    exact hmark.resolve_right fun hne => hne h0

theorem Booked.setGpio (h : Booked dev claims) {d : PinDesc} (hd : dev.desc pin = some d) (drv : δ)
    (gpioOwner : Option String) :
    Booked ({ dev with drv := drv }.setDesc pin { d with gpioOwner := gpioOwner }) claims := by
  refine h.setDesc drv (fun _ _ => rfl) (fun c hc _ => hc) (h.usecount pin d hd) ?_
    (h.free pin d hd)
  intro c hc heq
  obtain ⟨d', hd', howner⟩ := h.owner c hc
  rw [heq, hd, Option.some_inj] at hd'
  rw [← howner, ← hd']

/-! ## Following the book through the loops -/

/-- A property that follows the book of claims, as long as the claims leave room. -/
structure Keeper (ops : PinmuxOps δ) (Room : List Claim → Prop)
    (P : PinctrlDev δ → List Claim → Prop) : Prop where
  room : ∀ {claims claims'}, (∀ p, claimed claims p ≤ claimed claims' p) →
    Room claims' → Room claims
  perm : ∀ {dev claims claims'}, P dev claims → claims.Perm claims' → P dev claims'
  booked : ∀ {dev claims}, P dev claims → Booked dev claims
  request : ∀ {dev claims pin owner r}, P dev claims → MuxRequest ops dev pin owner r →
    (r.1 ≠ 0 → P r.2 claims) ∧
      (r.1 = 0 → Room ((pin, owner) :: claims) → P r.2 ((pin, owner) :: claims))
  free : ∀ {dev dev' claims pin owner}, P dev ((pin, owner) :: claims) →
    MuxFree ops dev pin dev' → P dev' claims
  mark : ∀ {dev claims pin d mark}, P dev claims → dev.desc pin = some d →
    mark = none ∨ d.muxUsecount ≠ 0 → P (dev.setDesc pin { d with muxSetting := mark }) claims
  setMux : ∀ {dev claims}, P dev claims → ∀ func group,
    P { dev with drv := (ops.setMux dev.drv func group).2 } claims

@[simp] theorem claimsOf_append (owner : String) (pins pins' : List Nat) :
    claimsOf owner (pins ++ pins') = claimsOf owner pins ++ claimsOf owner pins' :=
  List.map_append

@[simp] theorem claimed_append (claims claims' : List Claim) (p : Nat) :
    claimed (claims ++ claims') p = claimed claims p + claimed claims' p := by
  unfold claimed
  rw [List.map_append, List.count_append]

theorem claimed_claimsOf (owner : String) (pins : List Nat) (p : Nat) :
    claimed (claimsOf owner pins) p = pins.count p := by
  unfold claimed claimsOf
  rw [List.map_map]
  exact congrArg (List.count p) (List.map_id pins)

namespace Keeper

variable {Room : List Claim → Prop} {P : PinctrlDev δ → List Claim → Prop} (hk : Keeper ops Room P)

include hk

/-- The pins are taken in turn, up to the first refusal. -/
theorem requestPins (h : P dev claims) (taken : List Nat)
    (hroom : Room (claimsOf owner pins ++ claims)) :
    ∃ more, (ops.requestPins owner dev pins taken).2.1 = more ++ taken ∧
      P (ops.requestPins owner dev pins taken).2.2 (claimsOf owner more ++ claims) ∧
      ((ops.requestPins owner dev pins taken).1 = 0 → more = pins.reverse) := by
  induction pins generalizing dev claims taken with
  | nil => exact ⟨[], rfl, h, fun _ => rfl⟩
  | cons pin pins ih =>
    have hreq := hk.request h
      (muxRequest ops owner ((hk.booked h).free pin))
    unfold PinmuxOps.requestPins
    dsimp only
    by_cases hret : (ops.pinRequest dev pin owner false).1 = 0
    · rw [if_neg (not_not_intro hret)]
      have hone : Room ((pin, owner) :: claims) := by
        refine hk.room (fun p => ?_) hroom
        rw [claimed_append]
        show claimed ((pin, owner) :: claims) p ≤
          claimed ((pin, owner) :: claimsOf owner pins) p + claimed claims p
        rw [claimed_cons, claimed_cons]
        omega
      have hrest : Room (claimsOf owner pins ++ (pin, owner) :: claims) := by
        refine hk.room (fun p => Nat.le_of_eq (claimed_perm ?_ p)) hroom
        exact List.perm_middle
      obtain ⟨more, htaken, hP, hall⟩ := ih (hreq.2 hret hone) (pin :: taken) hrest
      refine ⟨more ++ [pin], ?_, ?_, fun h0 => ?_⟩
      · rw [htaken, List.append_assoc]
        rfl
      · rw [claimsOf_append, List.append_assoc]
        exact hP
      · rw [hall h0, List.reverse_cons]
    · rw [if_pos hret]
      exact ⟨[], rfl, hreq.1 hret, fun h0 => absurd h0 hret⟩

theorem freePins (h : P dev (claimsOf owner taken ++ claims)) :
    P (ops.freePins dev taken) claims := by
  induction taken generalizing dev with
  | nil => exact h
  | cons pin taken ih => exact ih (hk.free h (muxFree ops dev pin))

theorem markPins (h : P dev claims) (mark : Option PinctrlSetting)
    (hmark : mark = none ∨ ∀ pin ∈ pins, claimed claims pin ≠ 0) :
    P (dev.markPins mark pins) claims := by
  induction pins generalizing dev with
  | nil => exact h
  | cons pin pins ih =>
    have htail : mark = none ∨ ∀ pin ∈ pins, claimed claims pin ≠ 0 :=
      hmark.imp_right fun hall p hp => hall p (List.mem_cons_of_mem pin hp)
    unfold PinctrlDev.markPins
    cases hd : dev.desc pin with
    | none => exact ih h htail
    | some d =>
      refine ih (hk.mark h hd (hmark.imp_right fun hall h0 => ?_)) htail
      refine hall pin List.mem_cons_self ?_
      rw [← (hk.booked h).usecount pin d hd, h0]
      rfl

variable (setting) in
/-- **Enabling a setting** enters the pins of its group, or nothing if it fails. -/
theorem enable (h : P dev claims)
    (hroom : Room (claimsOf setting.devName (ops.groupPins setting.group) ++ claims)) :
    ((ops.pinmuxEnableSetting dev setting).1 ≠ 0 →
        P (ops.pinmuxEnableSetting dev setting).2 claims) ∧
      ((ops.pinmuxEnableSetting dev setting).1 = 0 → P (ops.pinmuxEnableSetting dev setting).2
        (claimsOf setting.devName (ops.groupPins setting.group) ++ claims)) := by
  obtain ⟨more, htaken, hP, hall⟩ := hk.requestPins h [] hroom
  rw [List.append_nil] at htaken
  unfold PinmuxOps.pinmuxEnableSetting
  dsimp only
  by_cases hret : (ops.requestPins setting.devName dev (ops.groupPins setting.group) []).1 = 0
  · rw [if_neg (not_not_intro hret)]
    have hmore := hall hret
    rw [hmore] at hP htaken
    have hperm : (claimsOf setting.devName (ops.groupPins setting.group).reverse ++ claims).Perm
        (claimsOf setting.devName (ops.groupPins setting.group) ++ claims) :=
      ((List.reverse_perm _).map _).append_right claims
    have hin : ∀ pin ∈ ops.groupPins setting.group, claimed
        (claimsOf setting.devName (ops.groupPins setting.group).reverse ++ claims) pin ≠ 0 := by
      intro pin hpin
      rw [claimed_append, claimed_claimsOf]
      have := List.count_pos_iff.mpr (List.mem_reverse.mpr hpin)
      omega
    have hset := hk.setMux (hk.markPins hP (some setting) (.inr hin)) setting.func setting.group
    split
    · rename_i hfail
      refine ⟨fun _ => ?_, fun h0 => absurd h0 hfail⟩
      rw [htaken]
      exact hk.freePins (hk.markPins hset none (.inl rfl))
    · exact ⟨fun h0 => absurd rfl h0, fun _ => hk.perm hset hperm⟩
  · rw [if_pos hret]
    refine ⟨fun _ => ?_, fun h0 => absurd h0 hret⟩
    rw [htaken]
    exact hk.freePins hP

variable (setting) in
/-- **Disabling a setting** takes its pins out, but for those that it leaks. -/
theorem disablePins (h : P dev (claimsOf owner pins ++ claims)) :
    ∃ leaked, leaked.Sublist pins ∧
      P (ops.disablePins setting dev pins) (claimsOf owner leaked ++ claims) := by
  induction pins generalizing dev claims with
  | nil => exact ⟨[], .slnil, h⟩
  | cons pin pins ih =>
    have hleak (hP : P dev (claimsOf owner (pin :: pins) ++ claims)) :
        ∃ leaked, leaked.Sublist (pin :: pins) ∧
          P (ops.disablePins setting dev pins) (claimsOf owner leaked ++ claims) := by
      obtain ⟨leaked, hsub, hend⟩ := ih (hk.perm hP List.perm_middle.symm)
      exact ⟨pin :: leaked, hsub.cons_cons pin, hk.perm hend List.perm_middle⟩
    unfold PinmuxOps.disablePins
    cases hd : dev.desc pin with
    | none => exact hleak h
    | some d =>
      dsimp only
      split
      · obtain ⟨leaked, hsub, hend⟩ := ih (hk.free h (muxFree ops dev pin))
        exact ⟨leaked, hsub.cons pin, hend⟩
      · exact hleak h

end Keeper

end RealtekIpcam.Pinctrl
