import RealtekIpcam.Uboot.Env

/-!
# What a flash loads

`Loads c T f v e` says that loading from the flash `f` imports the environment `e` from the copy
`v`.  It is what `env_sf_load` does when its calls succeed (`Loads.load`, `loads_of_envSfLoad`), and
the rest of the module says which copy that is: the one that is accepted when the other is not, one
of the two when both are, and not the one that is marked obsolete.
-/

namespace RealtekIpcam.Uboot

open NorFlash

variable {E : Type*} {c : SfConfig} {T : EnvTable E} {f g : Flash} {v w : EnvValid} {e e₀ : E}

/-! ## What a flash loads -/

def copyOffset (c : SfConfig) (v : EnvValid) : Nat :=
  if v = .valid then c.offset else c.offsetRedund

def otherCopy (v : EnvValid) : EnvValid := if v = .redund then .valid else .redund

def copyBytes (c : SfConfig) (f : Flash) (v : EnvValid) : List UInt8 :=
  readBytes f (copyOffset c v) c.envSize

/-- A copy as `env_import_redund` sees it. -/
def copyAt (c : SfConfig) (f : Flash) (v : EnvValid) : EnvT := EnvT.ofBytes (copyBytes c f v)

/-- The choice of `env_import_redund` when both copies were read. -/
def chosen (T : EnvTable E) (ep1 ep2 : EnvT) : Option EnvValid :=
  if !crcOk T ep1 && !crcOk T ep2 then none
  else some (if crcOk T ep1 && !crcOk T ep2 then .valid
    else if !crcOk T ep1 && crcOk T ep2 then .redund
    else checkSerial ep1.flags ep2.flags)

/-- Loading from `f` imports `e` from the copy `v`. -/
structure Loads (c : SfConfig) (T : EnvTable E) (f : Flash) (v : EnvValid) (e : E) : Prop where
  choice : chosen T (copyAt c f .valid) (copyAt c f .redund) = some v
  content : T.himport (copyAt c f v).data = some e

/-- All calls of `env_sf_load` succeed. -/
def LoadCalls.ok : LoadCalls := ⟨true, 0, 0, 0⟩

/-- The board as it comes up from a reset. -/
def coldBoot (T : EnvTable E) (f : Flash) : Board E := ⟨f, T.default, .invalid, 0⟩

theorem envSfLoad_ok (b : Board E) : envSfLoad c T .ok b =
    match chosen T (copyAt c b.flash .valid) (copyAt c b.flash .redund) with
    | none => (-ENOMSG, envSetDefault T b)
    | some v => envImport T
        (if v = .valid then copyAt c b.flash .valid else copyAt c b.flash .redund) false
        { b with
          envValid := v
          envFlags := (if v = .valid then copyAt c b.flash .valid
            else copyAt c b.flash .redund).flags } := by
  have hread : envSfLoad c T .ok b =
      envImportRedund T (copyBytes c b.flash .valid) false (copyBytes c b.flash .redund) false b :=
    rfl
  rw [hread]
  unfold envImportRedund chosen copyAt
  dsimp only
  cases crcOk T (EnvT.ofBytes (copyBytes c b.flash .valid)) <;>
    cases crcOk T (EnvT.ofBytes (copyBytes c b.flash .redund)) <;> rfl

theorem checkSerial_cases (flags1 flags2 : UInt8) :
    checkSerial flags1 flags2 = .valid ∨ checkSerial flags1 flags2 = .redund := by
  unfold checkSerial
  split_ifs <;> simp

theorem chosen_cases {ep1 ep2 : EnvT} (h : chosen T ep1 ep2 = some v) :
    v = .valid ∧ crcOk T ep1 = true ∨ v = .redund ∧ crcOk T ep2 = true := by
  unfold chosen at h
  cases h₁ : crcOk T ep1 <;> cases h₂ : crcOk T ep2 <;> rw [h₁, h₂] at h
  · cases h
  · cases h
    exact .inr ⟨rfl, rfl⟩
  · cases h
    exact .inl ⟨rfl, rfl⟩
  · have hv : checkSerial ep1.flags ep2.flags = v := Option.some_inj.mp h
    rcases checkSerial_cases ep1.flags ep2.flags with hc | hc
    · exact .inl ⟨hv.symm.trans hc, rfl⟩
    · exact .inr ⟨hv.symm.trans hc, rfl⟩

theorem chosen_eq_valid {ep1 ep2 : EnvT} (hcrc : crcOk T ep1 = true)
    (hserial : crcOk T ep2 = true → checkSerial ep1.flags ep2.flags = .valid) :
    chosen T ep1 ep2 = some .valid := by
  unfold chosen
  cases hother : crcOk T ep2 with
  | false => simp [hcrc]
  | true => simp [hcrc, hserial hother]

theorem chosen_eq_redund {ep1 ep2 : EnvT} (hcrc : crcOk T ep2 = true)
    (hserial : crcOk T ep1 = true → checkSerial ep1.flags ep2.flags = .redund) :
    chosen T ep1 ep2 = some .redund := by
  unfold chosen
  cases hother : crcOk T ep1 with
  | false => simp [hcrc]
  | true => simp [hcrc, hserial hother]

theorem crcOk_of_chosen_none {ep1 ep2 : EnvT} (h : chosen T ep1 ep2 = none) :
    crcOk T ep1 = false ∧ crcOk T ep2 = false := by
  unfold chosen at h
  cases h₁ : crcOk T ep1 <;> cases h₂ : crcOk T ep2 <;> simp [h₁, h₂] at h ⊢

theorem Loads.cases (h : Loads c T f v e) : v = .valid ∨ v = .redund := by
  rcases chosen_cases h.choice with ⟨hv, -⟩ | ⟨hv, -⟩
  · exact .inl hv
  · exact .inr hv

theorem Loads.accepted (h : Loads c T f v e) : crcOk T (copyAt c f v) = true := by
  rcases chosen_cases h.choice with ⟨rfl, hcrc⟩ | ⟨rfl, hcrc⟩
  · exact hcrc
  · exact hcrc

theorem Loads.load (h : Loads c T f v e) :
    envSfLoad c T .ok (coldBoot T f) = (0, ⟨f, e, v, (copyAt c f v).flags⟩) := by
  have hcopy : (if v = .valid then copyAt c f .valid else copyAt c f .redund) = copyAt c f v := by
    rcases h.cases with rfl | rfl
    · rfl
    · rfl
  rw [envSfLoad_ok]
  show (match chosen T (copyAt c f .valid) (copyAt c f .redund) with
    | none => _
    | some v => _) = _
  rw [h.choice]
  dsimp only
  rw [show (coldBoot T f).flash = f from rfl, hcopy]
  unfold envImport
  rw [h.content]
  rfl

theorem loads_of_envSfLoad (h : (envSfLoad c T .ok (coldBoot T f)).1 = 0) :
    ∃ v e, Loads c T f v e := by
  rw [envSfLoad_ok] at h
  cases hv : chosen T (copyAt c f .valid) (copyAt c f .redund) with
  | none =>
    rw [show (coldBoot T f).flash = f from rfl, hv] at h
    cases h
  | some v =>
    rw [show (coldBoot T f).flash = f from rfl, hv] at h
    have hcopy : (if v = .valid then copyAt c f .valid else copyAt c f .redund) =
        copyAt c f v := by
      rcases chosen_cases hv with ⟨rfl, -⟩ | ⟨rfl, -⟩
      · rfl
      · rfl
    dsimp only at h
    rw [hcopy] at h
    unfold envImport at h
    cases himp : T.himport (copyAt c f v).data with
    | none =>
      rw [himp] at h
      cases h
    | some e => exact ⟨v, e, hv, himp⟩

theorem Loads.of_copies (h : Loads c T f v e) (hbytes : ∀ w, copyBytes c g w = copyBytes c f w) :
    Loads c T g v e := by
  have hcopy (w : EnvValid) : copyAt c g w = copyAt c f w := congrArg EnvT.ofBytes (hbytes w)
  refine ⟨?_, ?_⟩
  · rw [hcopy, hcopy]
    exact h.choice
  · rw [hcopy]
    exact h.content

theorem loads_of_rejects (hv : v = .valid ∨ v = .redund) (hcrc : crcOk T (copyAt c f v) = true)
    (hother : crcOk T (copyAt c f (otherCopy v)) = false)
    (himp : T.himport (copyAt c f v).data = some e) : Loads c T f v e := by
  have habsurd : crcOk T (copyAt c f (otherCopy v)) = true → False := by
    intro h
    rw [hother] at h
    exact Bool.false_ne_true h
  refine ⟨?_, himp⟩
  rcases hv with rfl | rfl
  · exact chosen_eq_valid hcrc fun h => (habsurd h).elim
  · exact chosen_eq_redund hcrc fun h => (habsurd h).elim

theorem loads_of_accepts (hv : v = .valid ∨ v = .redund) (hcrc : crcOk T (copyAt c f v) = true)
    (hother : crcOk T (copyAt c f (otherCopy v)) = true)
    (himp : T.himport (copyAt c f v).data = some e₀)
    (himp' : T.himport (copyAt c f (otherCopy v)).data = some e) :
    Loads c T f v e₀ ∨ Loads c T f (otherCopy v) e := by
  have hboth : chosen T (copyAt c f .valid) (copyAt c f .redund) =
      some (checkSerial (copyAt c f .valid).flags (copyAt c f .redund).flags) := by
    have hvalid : crcOk T (copyAt c f .valid) = true := by
      rcases hv with rfl | rfl
      · exact hcrc
      · exact hother
    have hredund : crcOk T (copyAt c f .redund) = true := by
      rcases hv with rfl | rfl
      · exact hother
      · exact hcrc
    unfold chosen
    rw [hvalid, hredund]
    rfl
  have hserial := checkSerial_cases (copyAt c f .valid).flags (copyAt c f .redund).flags
  rcases hv with rfl | rfl
  · rcases hserial with h | h
    · exact .inl ⟨hboth.trans (congrArg some h), himp⟩
    · exact .inr ⟨hboth.trans (congrArg some h), himp'⟩
  · rcases hserial with h | h
    · exact .inr ⟨hboth.trans (congrArg some h), himp'⟩
    · exact .inl ⟨hboth.trans (congrArg some h), himp⟩

theorem loads_of_obsolete (hv : v = .valid ∨ v = .redund) (hcrc : crcOk T (copyAt c f v) = true)
    (hother : crcOk T (copyAt c f (otherCopy v)) = true)
    (hold : (copyAt c f v).flags = envRedundObsolete)
    (hnew : (copyAt c f (otherCopy v)).flags = envRedundActive)
    (himp : T.himport (copyAt c f (otherCopy v)).data = some e) :
    Loads c T f (otherCopy v) e := by
  refine ⟨?_, himp⟩
  rcases hv with rfl | rfl
  · refine chosen_eq_redund hother fun _ => ?_
    rw [hold, show (copyAt c f .redund).flags = envRedundActive from hnew]
    rfl
  · refine chosen_eq_valid hother fun _ => ?_
    rw [hold, show (copyAt c f .valid).flags = envRedundActive from hnew]
    rfl

end RealtekIpcam.Uboot
