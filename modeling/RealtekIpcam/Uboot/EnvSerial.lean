import RealtekIpcam.Uboot.EnvCrash

/-!
# The serial number of a redundant environment

`env_export` counts an 8-bit serial up and puts it into the flags of the copy it makes, and
`env_import_redund` compares the serials of the two copies to find the newer one.  Between the two
stands a storage that keeps two copies and stores a new one in place of the copy that is not in use;
`Storage` is such a storage, with a restart that reads both copies back.

The counter wraps, so that after 255 comes 0, and then the newer copy has the smaller serial.  That
is the one case in which `env_import_redund` turns its comparison around, and it is enough: two
copies that were stored one after the other carry `k` and `k + 1` as bytes, and
`checkSerial_succ` and `succ_checkSerial` say that for every `k` the second is chosen.

What is on the storage before the first save does not matter.  Two copies of any serials, one, or
none may be accepted there; the first save takes its serial from the copy that was chosen.
-/

namespace RealtekIpcam.Uboot

variable {E : Type*} {c : SfConfig} {T : EnvTable E}

/-! ## Consecutive serials -/

theorem lt_add_one_of_ne {k : UInt8} (h : k ≠ 255) : k < k + 1 := by
  have hk : k.toNat ≠ 255 := fun heq => h (UInt8.toNat_inj.mp heq)
  have hlt := k.toNat_lt
  rw [UInt8.lt_iff_toNat_lt, UInt8.toNat_add]
  show k.toNat < (k.toNat + 1) % 256
  omega

theorem checkSerial_succ (k : UInt8) : checkSerial k (k + 1) = .redund := by
  by_cases h : k = 255
  · subst h
    decide
  · have hlt := lt_add_one_of_ne h
    have hnot : ¬ k > k + 1 := UInt8.lt_asymm hlt
    have hzero : ¬ (k + 1 = 255 ∧ k = 0) := by
      rintro ⟨hsucc, rfl⟩
      exact absurd hsucc (by decide)
    unfold checkSerial
    rw [if_neg fun hk => h hk.1, if_neg hzero, if_neg hnot, if_pos hlt]

theorem succ_checkSerial (k : UInt8) : checkSerial (k + 1) k = .valid := by
  by_cases h : k = 255
  · subst h
    decide
  · have hlt := lt_add_one_of_ne h
    have hzero : ¬ (k + 1 = 255 ∧ k = 0) := by
      rintro ⟨hsucc, rfl⟩
      exact absurd hsucc (by decide)
    unfold checkSerial
    rw [if_neg hzero, if_neg fun hk => h hk.1, if_pos hlt]

/-! ## A storage of two copies -/

/-- Two stored copies and the board that uses them.  `saved` keeps which copy was stored last and
the environment in it, if there was a save since the beginning. -/
structure Storage (E : Type*) where
  copy1 : List UInt8
  copy2 : List UInt8
  board : Board E
  saved : Option (EnvValid × E)

namespace Storage

/-- One of the two copies, as `env_t`. -/
def ep (s : Storage E) (v : EnvValid) : EnvT :=
  EnvT.ofBytes (if v = .valid then s.copy1 else s.copy2)

/-- `env_import_redund` of the two copies, both of which could be read. -/
def importRedund (T : EnvTable E) (s : Storage E) (b : Board E) : Int × Board E :=
  envImportRedund T s.copy1 false s.copy2 false b

/-- The board comes up from a reset and reads the copies. -/
def restart (T : EnvTable E) (s : Storage E) : Storage E :=
  { s with board := (s.importRedund T (coldBoot T s.board.flash)).2 }

/-- A storage that has been read after a reset, whatever it holds. -/
def booted (T : EnvTable E) (flash : NorFlash.Flash) (copy1 copy2 : List UInt8) : Storage E :=
  restart T ⟨copy1, copy2, coldBoot T flash, none⟩

/-- Store a copy in place of the one that is not in use; it is the one in use from then on. -/
def store (s : Storage E) (envNew : EnvT) : Storage E :=
  if otherCopy s.board.envValid = .valid then
    { s with copy1 := envNew.bytes, board := { s.board with envValid := .valid } }
  else { s with copy2 := envNew.bytes, board := { s.board with envValid := .redund } }

/-- Save an environment, if it can be exported. -/
def save (c : SfConfig) (T : EnvTable E) (s : Storage E) (e : E) : Storage E :=
  match envExport c T { s.board with htab := e } with
  | none => { s with board := { s.board with htab := e } }
  | some (envNew, b) =>
    let t := ({ s with board := b } : Storage E).store envNew
    { t with saved := some (t.board.envValid, e) }

/-- What happens to the storage. -/
inductive Ev (E : Type*) where
  | save (e : E)
  | restart

def step (c : SfConfig) (T : EnvTable E) (s : Storage E) : Ev E → Storage E
  | .save e => s.save c T e
  | .restart => s.restart T

/-- A row of events. -/
def run (c : SfConfig) (T : EnvTable E) (s : Storage E) (evs : List (Ev E)) : Storage E :=
  evs.foldl (step c T) s

variable {s : Storage E}

theorem importRedund_eq (s : Storage E) (b : Board E) : s.importRedund T b =
    match chosen T (s.ep .valid) (s.ep .redund) with
    | none => (-ENOMSG, envSetDefault T b)
    | some v =>
      envImport T (s.ep v) false { b with envValid := v, envFlags := (s.ep v).flags } := by
  have hfirst : s.ep .valid = EnvT.ofBytes s.copy1 := rfl
  have hsecond : s.ep .redund = EnvT.ofBytes s.copy2 := rfl
  rcases checkSerial_cases (s.ep .valid).flags (s.ep .redund).flags with hserial | hserial
  all_goals
    unfold importRedund envImportRedund chosen
    dsimp only
    rw [← hfirst, ← hsecond, hserial]
    cases crcOk T (s.ep .valid) <;> cases crcOk T (s.ep .redund) <;> rfl

/-- The board uses the copy that `env_import_redund` would choose now, and counts on from its
serial; or there is no such copy. -/
def InStep (T : EnvTable E) (s : Storage E) : Prop :=
  chosen T (s.ep .valid) (s.ep .redund) = none ∨
    (chosen T (s.ep .valid) (s.ep .redund) = some s.board.envValid ∧
      s.board.envFlags = (s.ep s.board.envValid).flags)

/-- What was saved last is what `env_import_redund` would import now. -/
def UpToDate (T : EnvTable E) (s : Storage E) : Prop :=
  ∀ v e, s.saved = some (v, e) →
    chosen T (s.ep .valid) (s.ep .redund) = some v ∧ T.himport (s.ep v).data = some e

/-! ## The steps -/

theorem envImport_envValid (ep : EnvT) (b : Board E) :
    (envImport T ep false b).2.envValid = b.envValid ∧
      (envImport T ep false b).2.envFlags = b.envFlags := by
  unfold envImport
  rw [Bool.false_and, if_neg Bool.false_ne_true]
  split
  · exact ⟨rfl, rfl⟩
  · exact ⟨rfl, rfl⟩

theorem restart_envValid {v : EnvValid} (h : chosen T (s.ep .valid) (s.ep .redund) = some v) :
    (s.restart T).board.envValid = v ∧ (s.restart T).board.envFlags = (s.ep v).flags := by
  unfold restart
  dsimp only
  rw [importRedund_eq, h]
  exact envImport_envValid _ _

theorem InStep.of_restart (s : Storage E) : InStep T (s.restart T) := by
  cases h : chosen T (s.ep .valid) (s.ep .redund) with
  | none => exact .inl h
  | some v =>
    obtain ⟨hvalid, hflags⟩ := restart_envValid h
    refine .inr ⟨?_, ?_⟩
    · rw [hvalid]
      exact h
    · rw [hflags, hvalid]
      rfl

theorem UpToDate.restart (h : UpToDate T s) : UpToDate T (s.restart T) := by
  intro v e he
  exact h v e he

theorem chosen_store {envNew : EnvT} (hcrc : crcOk T envNew = true)
    (hold : chosen T (s.ep .valid) (s.ep .redund) = none ∨
      chosen T (s.ep .valid) (s.ep .redund) = some s.board.envValid ∧
        envNew.flags = (s.ep s.board.envValid).flags + 1) :
    chosen T ((s.store envNew).ep .valid) ((s.store envNew).ep .redund) =
        some (s.store envNew).board.envValid ∧
      (s.store envNew).ep (s.store envNew).board.envValid = envNew := by
  by_cases hother : otherCopy s.board.envValid = .valid
  · have hused : s.board.envValid = .redund := by
      by_contra hne
      rw [otherCopy, if_neg hne] at hother
      cases hother
    have hstore : s.store envNew =
        { s with copy1 := envNew.bytes, board := { s.board with envValid := .valid } } :=
      if_pos hother
    have hnew : (s.store envNew).ep .valid = envNew := by
      rw [hstore]
      exact EnvT.ofBytes_bytes envNew
    have hkept : (s.store envNew).ep .redund = s.ep .redund := by
      rw [hstore]
      rfl
    have hvalid : (s.store envNew).board.envValid = .valid := by
      rw [hstore]
    rw [hvalid, hnew, hkept]
    refine ⟨chosen_eq_valid hcrc fun hcrc' => ?_, rfl⟩
    rcases hold with hnone | ⟨-, hflags⟩
    · -- a copy that is accepted would have been chosen
      rw [(crcOk_of_chosen_none hnone).2] at hcrc'
      cases hcrc'
    · rw [hflags, hused]
      exact succ_checkSerial _
  · have hused : s.board.envValid ≠ .redund := by
      intro heq
      rw [heq] at hother
      exact hother rfl
    have hstore : s.store envNew =
        { s with copy2 := envNew.bytes, board := { s.board with envValid := .redund } } :=
      if_neg hother
    have hnew : (s.store envNew).ep .redund = envNew := by
      rw [hstore]
      exact EnvT.ofBytes_bytes envNew
    have hkept : (s.store envNew).ep .valid = s.ep .valid := by
      rw [hstore]
      rfl
    have hredund : (s.store envNew).board.envValid = .redund := by
      rw [hstore]
    rw [hredund, hnew, hkept]
    refine ⟨chosen_eq_redund hcrc fun hcrc' => ?_, rfl⟩
    rcases hold with hnone | ⟨hchosen, hflags⟩
    · rw [(crcOk_of_chosen_none hnone).1] at hcrc'
      cases hcrc'
    · have hvalid : s.board.envValid = .valid := by
        rcases chosen_cases hchosen with ⟨hv, -⟩ | ⟨hv, -⟩
        · exact hv
        · exact absurd hv hused
      rw [hflags, hvalid]
      exact checkSerial_succ _

/-- A save keeps the board in step with the storage, and the storage up to date. -/
theorem save_spec (hstep : InStep T s) (hdate : UpToDate T s) (e : E) :
    InStep T (s.save c T e) ∧ UpToDate T (s.save c T e) := by
  unfold save envExport
  cases hexp : T.hexport c.dataSize e with
  | none => exact ⟨hstep, hdate⟩
  | some d =>
    let envNew : EnvT := ⟨T.crc32 d, s.board.envFlags + 1, d⟩
    let s' : Storage E := { s with board :=
      { s.board with htab := e, envFlags := s.board.envFlags + 1 } }
    have hcrc : crcOk T envNew = true := decide_eq_true rfl
    obtain ⟨hchosen, hep⟩ := chosen_store (s := s') hcrc <| by
      rcases hstep with hnone | ⟨hsome, hflags⟩
      · exact .inl hnone
      · exact .inr ⟨hsome, congrArg (· + 1) hflags⟩
    have hflags : (s'.store envNew).board.envFlags = envNew.flags := by
      unfold store
      split
      · rfl
      · rfl
    refine ⟨.inr ⟨hchosen, ?_⟩, ?_⟩
    · show (s'.store envNew).board.envFlags =
        ((s'.store envNew).ep (s'.store envNew).board.envValid).flags
      rw [hflags, hep]
    · intro v e' he'
      obtain ⟨rfl, rfl⟩ := Prod.mk.inj (Option.some_inj.mp he')
      refine ⟨hchosen, ?_⟩
      show T.himport ((s'.store envNew).ep (s'.store envNew).board.envValid).data = some e
      rw [hep]
      exact T.himport_hexport hexp

theorem InStep.envValid {v : EnvValid} (hstep : InStep T s)
    (hchosen : chosen T (s.ep .valid) (s.ep .redund) = some v) : s.board.envValid = v := by
  rcases hstep with hnone | ⟨hsome, -⟩
  · rw [hchosen] at hnone
    cases hnone
  · rw [hchosen] at hsome
    exact (Option.some_inj.mp hsome).symm

theorem save_alternates {v : EnvValid} {e : E} {d : List UInt8} (hused : s.board.envValid = v)
    (hexp : T.hexport c.dataSize e = some d) :
    (s.save c T e).saved = some (otherCopy v, e) := by
  have hstored (t : Storage E) (envNew : EnvT) (ht : t.board.envValid = v) :
      (t.store envNew).board.envValid = otherCopy v := by
    unfold store
    rw [ht]
    by_cases hother : otherCopy v = .valid
    · rw [if_pos hother, hother]
    · rw [if_neg hother]
      by_cases hv : v = .redund
      · exact absurd (if_pos hv) hother
      · exact (if_neg hv).symm
  unfold save envExport
  dsimp only
  rw [hexp]
  exact congrArg (fun w => some (w, e)) (hstored _ _ hused)

theorem run_spec (hstep : InStep T s) (hdate : UpToDate T s) (evs : List (Ev E)) :
    InStep T (s.run c T evs) ∧ UpToDate T (s.run c T evs) := by
  induction evs generalizing s with
  | nil => exact ⟨hstep, hdate⟩
  | cons ev evs ih =>
    cases ev with
    | save e =>
      obtain ⟨hstep', hdate'⟩ := save_spec (c := c) hstep hdate e
      exact ih hstep' hdate'
    | restart => exact ih (InStep.of_restart s) hdate.restart

/-! ## The guarantee -/

theorem UpToDate.importRedund {v : EnvValid} {e : E} (h : UpToDate T s)
    (hsaved : s.saved = some (v, e)) (b : Board E) :
    (s.importRedund T b).1 = 0 ∧ (s.importRedund T b).2.envValid = v ∧
      (s.importRedund T b).2.htab = e := by
  obtain ⟨hchosen, hdata⟩ := h v e hsaved
  rw [importRedund_eq, hchosen]
  unfold envImport
  dsimp only
  rw [hdata]
  exact ⟨rfl, rfl, rfl⟩

/-- **The newest copy is selected.**  After any row of saves and restarts, from a storage that held
anything, `env_import_redund` selects the copy that was stored last and imports what was saved in
it, whatever the board holds when it is called. -/
theorem importRedund_newest {flash : NorFlash.Flash} {copy1 copy2 : List UInt8}
    {evs : List (Ev E)} {v : EnvValid} {e : E}
    (hsaved : ((booted T flash copy1 copy2).run c T evs).saved = some (v, e)) (b : Board E) :
    (((booted T flash copy1 copy2).run c T evs).importRedund T b).1 = 0 ∧
      (((booted T flash copy1 copy2).run c T evs).importRedund T b).2.envValid = v ∧
      (((booted T flash copy1 copy2).run c T evs).importRedund T b).2.htab = e := by
  have hstart : UpToDate T (booted T flash copy1 copy2) := by
    intro v' e' he'
    cases he'
  exact (run_spec (InStep.of_restart _) hstart evs).2.importRedund hsaved b

/-- **The environment before is kept.**  After any row of saves and restarts the next save goes to
the other copy, and what was saved last stays where it is, and is still accepted. -/
theorem save_keeps_previous {flash : NorFlash.Flash} {copy1 copy2 : List UInt8}
    {evs : List (Ev E)} {v : EnvValid} {e e' : E} {d : List UInt8}
    (hsaved : ((booted T flash copy1 copy2).run c T evs).saved = some (v, e'))
    (hexp : T.hexport c.dataSize e = some d) :
    let s := ((booted T flash copy1 copy2).run c T evs).save c T e
    s.saved = some (otherCopy v, e) ∧ crcOk T (s.ep v) = true ∧
      T.himport (s.ep v).data = some e' := by
  have hstart : UpToDate T (booted T flash copy1 copy2) := by
    intro v' e' he'
    cases he'
  obtain ⟨hstep, hdate⟩ :=
    run_spec (s := booted T flash copy1 copy2) (c := c) (InStep.of_restart _) hstart evs
  obtain ⟨hchosen, hdata⟩ := hdate v e' hsaved
  have hused := hstep.envValid hchosen
  -- The other copy is the one that is written.
  have hkept (s : Storage E) (hs : s.board.envValid = v) (hv : v = .valid ∨ v = .redund) :
      (s.save c T e).ep v = s.ep v := by
    unfold save envExport store otherCopy ep
    rcases hv with rfl | rfl <;> simp [hexp, hs]
  have hcopy := hkept _ hused ((chosen_cases hchosen).imp And.left And.left)
  refine ⟨save_alternates hused hexp, ?_, ?_⟩
  · rw [hcopy]
    rcases chosen_cases hchosen with ⟨rfl, hcrc⟩ | ⟨rfl, hcrc⟩ <;> exact hcrc
  · rw [hcopy]
    exact hdata

/-- A copy with `a=0` and the serial 254. -/
def serial254 : List UInt8 :=
  EnvT.bytes ⟨crc32 [0x61, 0x3d, 0x30, 0, 0], 254, [0x61, 0x3d, 0x30, 0, 0]⟩

def erasedCopy : List UInt8 := List.replicate 10 0xff

/-- Saves with the serials 255, 0 and 1, with a restart before the last. -/
def wrapRun : List (Ev EnvText) :=
  [.save aOne, .save aTwo, .restart, .save aThree]

theorem importRedund_newest_wrapRun : ∃ v e,
    ((booted textTable (fun _ => 0xff) serial254 erasedCopy).run smallConfig textTable
      wrapRun).saved = some (v, e) ∧
    (((booted textTable (fun _ => 0xff) serial254 erasedCopy).run smallConfig textTable
      wrapRun).importRedund textTable (coldBoot textTable fun _ => 0xff)).2.envValid = v := by
  obtain ⟨⟨v, e⟩, hsaved⟩ := Option.isSome_iff_exists.mp
    (by decide +kernel : ((booted textTable (fun _ => 0xff) serial254 erasedCopy).run smallConfig
      textTable wrapRun).saved.isSome = true)
  exact ⟨v, e, hsaved, (importRedund_newest hsaved (coldBoot textTable fun _ => 0xff)).2.1⟩

theorem save_keeps_previous_wrapRun : ∃ v e,
    (((booted textTable (fun _ => 0xff) serial254 erasedCopy).run smallConfig textTable
      wrapRun).save smallConfig textTable aOne).saved = some (otherCopy v, aOne) ∧
    ((booted textTable (fun _ => 0xff) serial254 erasedCopy).run smallConfig textTable
      wrapRun).saved = some (v, e) := by
  obtain ⟨⟨v, e⟩, hsaved⟩ := Option.isSome_iff_exists.mp
    (by decide +kernel : ((booted textTable (fun _ => 0xff) serial254 erasedCopy).run smallConfig
      textTable wrapRun).saved.isSome = true)
  obtain ⟨d, hexp⟩ := Option.isSome_iff_exists.mp
    (by decide : (textTable.hexport smallConfig.dataSize aOne).isSome = true)
  exact ⟨v, e, (save_keeps_previous hsaved hexp).1, hsaved⟩

end Storage

end RealtekIpcam.Uboot
