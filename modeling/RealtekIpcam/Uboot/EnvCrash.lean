import RealtekIpcam.Lib.Runs
import RealtekIpcam.Uboot.EnvLoad

/-!
# The environment survives a power cut

A save replaces the copy that is not in use and marks the copy in use obsolete with its last byte
operation.  Up to there the copy in use is as it was, so the flash loads either what it loaded
before or, once the new copy is complete, the environment being saved: `Loads.cut`.  After the mark
it loads the new copy: `Loads.saved`.

The one assumption about the checksum is made where it is needed: a copy left behind by a power cut
that is neither as before the save nor complete is rejected (`RejectsPartial`).

`System` puts saves, power cuts and restarts together, and `loads_last_or_interrupted` is the
guarantee over all runs.
-/

namespace RealtekIpcam.Uboot

open Function NorFlash

variable {E : Type*} {c : SfConfig} {T : EnvTable E} {f g : Flash} {v w : EnvValid} {e e₀ : E}
  {d : List UInt8} {p : List ByteOp} {calls : SaveCalls}

/-! ## The operations of a save -/

/-- The copy that a save of the data `d` writes. -/
def envNew (T : EnvTable E) (d : List UInt8) : EnvT := ⟨T.crc32 d, envRedundActive, d⟩

/-- Everything a save does before it marks the copy `v` obsolete. -/
def replaceOps (c : SfConfig) (T : EnvTable E) (f : Flash) (v : EnvValid) (d : List UInt8) :
    List ByteOp :=
  let offset := copyOffset c (otherCopy v)
  eraseOps offset (eraseSize c.envSize c.sectSize) ++ programOps offset (envNew T d).bytes ++
    programOps (offset + c.envSize)
      (readBytes f (offset + c.envSize) (c.sectSize - c.envSize))

/-- The mark on the copy `v`. -/
def markOp (c : SfConfig) (v : EnvValid) : ByteOp :=
  .program (copyOffset c v + flagsOffset) envRedundObsolete

/-- All byte operations of a save when the copy `v` is in use. -/
def saveOps (c : SfConfig) (T : EnvTable E) (f : Flash) (v : EnvValid) (d : List UInt8) :
    List ByteOp :=
  replaceOps c T f v d ++ [markOp c v]

theorem sectSize_le_eraseSize (c : SfConfig) : c.sectSize ≤ eraseSize c.envSize c.sectSize := by
  have hhead := c.header_le
  have hpos : 0 < (c.envSize + c.sectSize - 1) / c.sectSize :=
    Nat.div_pos (by unfold envHeaderSize at hhead; omega) c.sectSize_pos
  exact Nat.le_mul_of_pos_left c.sectSize hpos

theorem copyOffset_disjoint (c : SfConfig) (hv : v = .valid ∨ v = .redund) :
    copyOffset c v + eraseSize c.envSize c.sectSize ≤ copyOffset c (otherCopy v) ∨
      copyOffset c (otherCopy v) + eraseSize c.envSize c.sectSize ≤ copyOffset c v := by
  rcases hv with rfl | rfl
  · exact c.disjoint
  · exact c.disjoint.symm

theorem copyOffset_cases (hv : v = .valid ∨ v = .redund) (w : EnvValid) :
    copyOffset c w = copyOffset c v ∨ copyOffset c w = copyOffset c (otherCopy v) := by
  by_cases hw : w = .valid
  · rcases hv with rfl | rfl
    · exact .inl (congrArg (copyOffset c) hw)
    · exact .inr (congrArg (copyOffset c) hw)
  · have hredund : copyOffset c w = c.offsetRedund := if_neg hw
    rcases hv with rfl | rfl
    · exact .inr hredund
    · exact .inl hredund

theorem length_envNew (hd : d.length = c.dataSize) : (envNew T d).bytes.length = c.envSize := by
  have hhead := c.header_le
  rw [EnvT.length_bytes]
  show envHeaderSize + d.length = c.envSize
  rw [hd]
  unfold SfConfig.dataSize
  omega

theorem within_replaceOps (hd : d.length = c.dataSize) :
    Within (copyOffset c (otherCopy v))
      (copyOffset c (otherCopy v) + eraseSize c.envSize c.sectSize) (replaceOps c T f v d) := by
  have henv := le_eraseSize c.envSize c.sectSize_pos
  have hsect := sectSize_le_eraseSize c
  have hnew := within_programOps (copyOffset c (otherCopy v)) (envNew T d).bytes
  have hsaved := within_programOps (copyOffset c (otherCopy v) + c.envSize)
    (readBytes f (copyOffset c (otherCopy v) + c.envSize) (c.sectSize - c.envSize))
  rw [length_envNew hd] at hnew
  rw [length_readBytes] at hsaved
  exact (within_eraseOps.append (hnew.mono (Nat.le_refl _) (by omega))).append
    (hsaved.mono (by omega) (by omega))

/-! ## What a save leaves behind -/

theorem copyBytes_run_replace (hv : v = .valid ∨ v = .redund) (hd : d.length = c.dataSize)
    (hp : p <+: replaceOps c T f v d) : copyBytes c (run g p) v = copyBytes c g v := by
  have henv := le_eraseSize c.envSize c.sectSize_pos
  have hdisj := copyOffset_disjoint c hv
  exact ((within_replaceOps hd).of_isPrefix hp).readBytes_run (by omega)

theorem copyBytes_run_replaceOps (hd : d.length = c.dataSize) :
    copyBytes c (run g (replaceOps c T f v d)) (otherCopy v) = (envNew T d).bytes := by
  have hlen := length_envNew (T := T) hd
  have hbytes := readBytes_program_erase g (copyOffset c (otherCopy v))
    (hlen.trans_le (le_eraseSize c.envSize c.sectSize_pos))
  rw [hlen] at hbytes
  unfold copyBytes replaceOps
  dsimp only
  rw [run_append, (within_programOps _ _).readBytes_run (.inl (Nat.le_refl _))]
  exact hbytes

theorem copyAt_run_mark (g : Flash) (v : EnvValid) :
    copyAt c (run g [markOp c v]) v = { copyAt c g v with flags := envRedundObsolete } := by
  obtain ⟨n, hn⟩ : ∃ n, c.envSize = n + 5 := Nat.exists_eq_add_of_le' c.header_le
  have hhead (i : Nat) (hi : i < 4) :
      run g [markOp c v] (copyOffset c v + i) = g (copyOffset c v + i) :=
    update_of_ne (by unfold flagsOffset; omega) _ _
  have hflags : run g [markOp c v] (copyOffset c v + 4) = envRedundObsolete :=
    (update_self ..).trans UInt8.and_zero
  have hdata : readBytes (run g [markOp c v]) (copyOffset c v + 5) n =
      readBytes g (copyOffset c v + 5) n :=
    readBytes_congr fun x hlo _ => update_of_ne (by unfold flagsOffset; omega) _ _
  unfold copyAt copyBytes
  rw [hn]
  simp only [readBytes, EnvT.ofBytes, Nat.add_assoc, Nat.reduceAdd]
  rw [hhead 1 (by omega), hhead 2 (by omega), hhead 3 (by omega), hflags, hdata,
    show run g [markOp c v] (copyOffset c v) = g (copyOffset c v) from hhead 0 (by omega)]

theorem copyBytes_run_mark (g : Flash) (hv : v = .valid ∨ v = .redund) :
    copyBytes c (run g [markOp c v]) (otherCopy v) = copyBytes c g (otherCopy v) := by
  have henv := le_eraseSize c.envSize c.sectSize_pos
  have hdisj := copyOffset_disjoint c hv
  have hhead := c.header_le
  refine readBytes_congr fun x hlo hhi => update_of_ne ?_ _ _
  unfold envHeaderSize at hhead
  unfold flagsOffset
  omega

theorem crcOk_envNew (d : List UInt8) : crcOk T (envNew T d) = true := decide_eq_true rfl

theorem Loads.saved (h : Loads c T f v e₀) (hexp : T.hexport c.dataSize e = some d) :
    Loads c T (run f (saveOps c T f v d)) (otherCopy v) e := by
  have hd := T.hexport_length hexp
  have hold : copyAt c (run f (saveOps c T f v d)) v =
      { copyAt c f v with flags := envRedundObsolete } := by
    unfold saveOps
    rw [run_append, copyAt_run_mark, copyAt, copyBytes_run_replace h.cases hd List.prefix_rfl]
    rfl
  have hnew : copyAt c (run f (saveOps c T f v d)) (otherCopy v) = envNew T d := by
    unfold saveOps copyAt
    rw [run_append, copyBytes_run_mark _ h.cases, copyBytes_run_replaceOps hd, EnvT.ofBytes_bytes]
  refine loads_of_obsolete h.cases ?_ ?_ ?_ ?_ ?_
  · rw [hold]
    exact h.accepted
  · rw [hnew]
    exact crcOk_envNew d
  · rw [hold]
  · rw [hnew]
    rfl
  · rw [hnew]
    exact T.himport_hexport hexp

/-- A copy left behind in `g` by a save on `f` is as before, complete, or rejected. -/
def RejectsPartial (c : SfConfig) (T : EnvTable E) (f g : Flash) (v : EnvValid)
    (d : List UInt8) : Prop :=
  copyBytes c g v = copyBytes c f v ∨ copyBytes c g v = (envNew T d).bytes ∨
    crcOk T (copyAt c g v) = false
  deriving Decidable

/-- **An interrupted save.**  After any prefix of its operations the flash loads what it loaded
before, or the environment being saved. -/
theorem Loads.cut (h : Loads c T f v e₀) (hexp : T.hexport c.dataSize e = some d)
    (hp : p <+: saveOps c T f v d)
    (hcrc : RejectsPartial c T f (run f p) (otherCopy v) d) :
    ∃ w x, (x = e₀ ∨ x = e) ∧ Loads c T (run f p) w x := by
  have hd := T.hexport_length hexp
  rcases List.prefix_concat_iff.mp hp with rfl | hp
  · exact ⟨_, e, .inr rfl, h.saved hexp⟩
  -- The mark is not made, and the copy in use is as it was.
  have hold : copyBytes c (run f p) v = copyBytes c f v := copyBytes_run_replace h.cases hd hp
  have hcopy : copyAt c (run f p) v = copyAt c f v := congrArg EnvT.ofBytes hold
  have haccepted : crcOk T (copyAt c (run f p) v) = true := by
    rw [hcopy]
    exact h.accepted
  have hcontent : T.himport (copyAt c (run f p) v).data = some e₀ := by
    rw [hcopy]
    exact h.content
  rcases hcrc with hsame | hcomplete | hrejected
  · refine ⟨v, e₀, .inl rfl, h.of_copies fun w => ?_⟩
    unfold copyBytes
    rcases copyOffset_cases (c := c) h.cases w with hw | hw
    · rw [hw]
      exact hold
    · rw [hw]
      exact hsame
  · have hnew : copyAt c (run f p) (otherCopy v) = envNew T d := by
      unfold copyAt
      rw [hcomplete, EnvT.ofBytes_bytes]
    rcases loads_of_accepts (e := e) h.cases haccepted (by rw [hnew]; exact crcOk_envNew d)
      hcontent (by rw [hnew]; exact T.himport_hexport hexp) with hl | hl
    · exact ⟨v, e₀, .inl rfl, hl⟩
    · exact ⟨_, e, .inr rfl, hl⟩
  · exact ⟨v, e₀, .inl rfl, loads_of_rejects h.cases haccepted hrejected hcontent⟩

/-! ## `env_sf_save` -/

theorem issue_isPrefix (cmds : List (List ByteOp × CmdResult)) :
    (issue cmds).1 <+: (cmds.map Prod.fst).flatten := by
  induction cmds with
  | nil => exact List.prefix_rfl
  | cons cmd cmds ih =>
    obtain ⟨ops, r⟩ := cmd
    unfold issue
    rw [List.map_cons, List.flatten_cons]
    split
    · exact (List.take_prefix r.done ops).trans (List.prefix_append ops _)
    · exact (List.prefix_append_right_inj ops).mpr ih

theorem issue_of_ret {cmds : List (List ByteOp × CmdResult)} (h : (issue cmds).2 = 0) :
    (issue cmds).1 = (cmds.map Prod.fst).flatten := by
  induction cmds with
  | nil => rfl
  | cons cmd cmds ih =>
    obtain ⟨ops, r⟩ := cmd
    unfold issue at h ⊢
    split at h
    · next hret => exact absurd h hret
    · next hret =>
      rw [if_neg hret, List.map_cons, List.flatten_cons]
      exact congrArg (ops ++ ·) (ih h)

theorem issue_ret_of_forall {cmds : List (List ByteOp × CmdResult)}
    (h : ∀ cmd ∈ cmds, cmd.2.ret = 0) : (issue cmds).2 = 0 := by
  induction cmds with
  | nil => rfl
  | cons cmd cmds ih =>
    obtain ⟨ops, r⟩ := cmd
    unfold issue
    rw [if_neg fun hret => hret (h (ops, r) List.mem_cons_self)]
    exact ih fun cmd hcmd => h cmd (List.mem_cons_of_mem _ hcmd)

theorem flatten_saveCommands : ((saveCommands c calls f (copyOffset c (otherCopy v))
    (copyOffset c v) (envNew T d)).map Prod.fst).flatten = saveOps c T f v d := by
  unfold saveCommands saveOps replaceOps
  dsimp only
  by_cases hsect : c.sectSize > c.envSize
  · rw [if_pos hsect]
    simp only [List.map_cons, List.map_append, List.map_nil, List.flatten_cons,
      List.flatten_append, List.flatten_nil, List.append_nil, List.append_assoc]
    rfl
  · rw [if_neg hsect, Nat.sub_eq_zero_of_le (Nat.le_of_not_gt hsect)]
    simp only [List.nil_append, List.map_cons, List.map_nil, List.flatten_cons, List.flatten_nil,
      List.append_nil, List.append_assoc]
    rfl

/-- The flash commands of a save succeed. -/
def SaveCalls.FlashWorks (calls : SaveCalls) : Prop :=
  calls.spiFlashErase.ret = 0 ∧ calls.spiFlashWriteEnv.ret = 0 ∧
    calls.spiFlashWriteSaved.ret = 0 ∧ calls.spiFlashWriteFlag.ret = 0
  deriving Decidable

theorem SaveCalls.FlashWorks.issue (h : calls.FlashWorks) (f : Flash) (offset offset' : Nat)
    (ep : EnvT) : (issue (saveCommands c calls f offset offset' ep)).2 = 0 := by
  refine issue_ret_of_forall fun cmd hcmd => ?_
  unfold saveCommands at hcmd
  rcases List.mem_cons.mp hcmd with rfl | hcmd
  · exact h.1
  rcases List.mem_cons.mp hcmd with rfl | hcmd
  · exact h.2.1
  rcases List.mem_append.mp hcmd with hsaved | hflag
  · split at hsaved
    · rw [List.mem_singleton.mp hsaved]
      exact h.2.2.1
    · cases hsaved
  · rw [List.mem_singleton.mp hflag]
    exact h.2.2.2

/-- What `env_sf_save` can do: fail before it touches the flash, or issue a prefix of `saveOps`,
which is all of it when it returns 0. -/
theorem envSfSave_cases (c : SfConfig) (T : EnvTable E) (calls : SaveCalls) {b : Board E}
    (hv : b.envValid = .valid ∨ b.envValid = .redund) :
    ((envSfSave c T calls b).ret ≠ 0 ∧ (envSfSave c T calls b).ops = [] ∧
      (envSfSave c T calls b).board.envValid = b.envValid) ∨
    ∃ d, T.hexport c.dataSize b.htab = some d ∧
      (envSfSave c T calls b).ops <+: saveOps c T b.flash b.envValid d ∧
      ((envSfSave c T calls b).ret = 0 →
        (envSfSave c T calls b).ops = saveOps c T b.flash b.envValid d ∧
        (envSfSave c T calls b).board.envValid = otherCopy b.envValid) ∧
      (calls.FlashWorks → (envSfSave c T calls b).ret = 0) := by
  unfold envSfSave
  by_cases hsetup : calls.setupFlashDevice ≠ 0
  · rw [if_pos hsetup]
    exact .inl ⟨hsetup, rfl, rfl⟩
  rw [if_neg hsetup]
  unfold envExport
  cases hexp : T.hexport c.dataSize b.htab with
  | none => exact .inl ⟨by show (-5 : Int) ≠ 0; decide, rfl, rfl⟩
  | some d =>
    dsimp only
    by_cases halloc : c.sectSize > c.envSize ∧ (!calls.memalign) = true
    · rw [if_pos halloc]
      exact .inl ⟨by show (-12 : Int) ≠ 0; decide, rfl, rfl⟩
    rw [if_neg halloc]
    by_cases hread : c.sectSize > c.envSize ∧ calls.spiFlashRead ≠ 0
    · rw [if_pos hread]
      exact .inl ⟨hread.2, rfl, rfl⟩
    rw [if_neg hread]
    have hoffsets : (if b.envValid = .valid then (c.offsetRedund, c.offset)
        else (c.offset, c.offsetRedund)) =
        (copyOffset c (otherCopy b.envValid), copyOffset c b.envValid) := by
      rcases hv with h | h <;> rw [h] <;> rfl
    rw [hoffsets]
    refine .inr ⟨d, rfl, ?_⟩
    have hpre := issue_isPrefix (saveCommands c calls b.flash
      (copyOffset c (otherCopy b.envValid)) (copyOffset c b.envValid) (envNew T d))
    rw [flatten_saveCommands] at hpre
    dsimp only
    rw [show EnvT.mk (T.crc32 d) envRedundActive d = envNew T d from rfl]
    by_cases hret : (issue (saveCommands c calls b.flash (copyOffset c (otherCopy b.envValid))
        (copyOffset c b.envValid) (envNew T d))).2 ≠ 0
    · rw [if_pos hret]
      exact ⟨hpre, fun h => absurd h hret, fun hworks => absurd (hworks.issue _ _ _ _) hret⟩
    · rw [if_neg hret]
      have hall := issue_of_ret (not_not.mp hret)
      rw [flatten_saveCommands] at hall
      exact ⟨hpre, fun _ => ⟨hall, rfl⟩, fun _ => rfl⟩

/-! ## Runs -/

/-- A board, and the environment that the last completed save left or, if there was none since, that
the last load imported. -/
structure System (E : Type*) where
  board : Board E
  last : E

/-- The system as it comes up from a reset. -/
def reset (c : SfConfig) (T : EnvTable E) (f : Flash) : System E :=
  let b := (envSfLoad c T .ok (coldBoot T f)).2
  ⟨b, b.htab⟩

/-- What can happen: an environment is saved, power is cut after some byte operations of a save, or
the board is restarted between saves. -/
inductive Ev (E : Type*) where
  | save (e : E) (calls : SaveCalls)
  | cut (e : E) (calls : SaveCalls) (k : Nat)
  | restart

/-- `env_sf_save` of the environment `e`. -/
def System.save (c : SfConfig) (T : EnvTable E) (s : System E) (e : E) (calls : SaveCalls) :
    Save E :=
  envSfSave c T calls { s.board with htab := e }

/-- The flash after a power cut in a save. -/
def System.cutFlash (c : SfConfig) (T : EnvTable E) (s : System E) (e : E) (calls : SaveCalls)
    (k : Nat) : Flash :=
  run s.board.flash ((s.save c T e calls).ops.take k)

def System.step (c : SfConfig) (T : EnvTable E) (s : System E) : Ev E → Option (System E)
  | .save e calls =>
    let r := s.save c T e calls
    some ⟨{ r.board with flash := run s.board.flash r.ops }, if r.ret = 0 then e else s.last⟩
  | .cut e calls k => some (reset c T (s.cutFlash c T e calls k))
  | .restart => some (reset c T s.board.flash)

/-- What is assumed of the hardware: a flash command fails only by a power cut, and the checksum
rejects the partial copy that a power cut leaves behind. -/
def HardwareOk (c : SfConfig) (T : EnvTable E) (s : System E) : Ev E → Prop
  | .save _ calls => calls.FlashWorks
  | .cut e calls k => ∀ d ∈ T.hexport c.dataSize e,
    RejectsPartial c T s.board.flash (s.cutFlash c T e calls k) (otherCopy s.board.envValid) d
  | .restart => True

instance (s : System E) : ∀ ev, Decidable (HardwareOk c T s ev)
  | .save _ calls => inferInstanceAs (Decidable calls.FlashWorks)
  | .cut e calls k => inferInstanceAs (Decidable (∀ d ∈ T.hexport c.dataSize e,
      RejectsPartial c T s.board.flash (s.cutFlash c T e calls k) (otherCopy s.board.envValid) d))
  | .restart => isTrue trivial

/-- `env_sf_load` from the flash succeeds and imports `e`. -/
def LoadsEnv (c : SfConfig) (T : EnvTable E) (f : Flash) (e : E) : Prop :=
  (envSfLoad c T .ok (coldBoot T f)).1 = 0 ∧ (envSfLoad c T .ok (coldBoot T f)).2.htab = e

/-- The board runs with what the flash loads. -/
def Settled (c : SfConfig) (T : EnvTable E) (s : System E) : Prop :=
  Loads c T s.board.flash s.board.envValid s.last

variable {s s' : System E}

theorem Loads.loadsEnv (h : Loads c T f v e) : LoadsEnv c T f e := by
  unfold LoadsEnv
  rw [h.load]
  exact ⟨rfl, rfl⟩

theorem Loads.settled_reset (h : Loads c T f v e) : Settled c T (reset c T f) := by
  unfold Settled reset
  rw [h.load]
  exact h

theorem Settled.cut (h : Settled c T s) {k : Nat} (hhw : HardwareOk c T s (.cut e calls k)) :
    ∃ w x, (x = s.last ∨ x = e) ∧ Loads c T (s.cutFlash c T e calls k) w x := by
  rcases envSfSave_cases c T calls (b := { s.board with htab := e }) h.cases with
    ⟨-, hops, -⟩ | ⟨d, hexp, hpre, -, -⟩
  · refine ⟨s.board.envValid, s.last, .inl rfl, ?_⟩
    unfold System.cutFlash System.save
    rw [hops, List.take_nil]
    exact h
  · exact Loads.cut h hexp ((List.take_prefix k _).trans hpre) (hhw d hexp)

/-- Every event leaves the flash settled. -/
theorem Settled.step (h : Settled c T s) {ev : Ev E} (hhw : HardwareOk c T s ev)
    (hs : s.step c T ev = some s') : Settled c T s' := by
  cases ev with
  | save e calls =>
    cases hs
    rcases envSfSave_cases c T calls (b := { s.board with htab := e }) h.cases with
      ⟨hret, hops, hvalid⟩ | ⟨d, hexp, -, hdone, hworks⟩
    · show Loads c T (run s.board.flash (s.save c T e calls).ops)
        (s.save c T e calls).board.envValid (if (s.save c T e calls).ret = 0 then e else s.last)
      unfold System.save
      rw [hops, hvalid, if_neg hret]
      exact h
    · obtain ⟨hops, hvalid⟩ := hdone (hworks hhw)
      show Loads c T (run s.board.flash (s.save c T e calls).ops)
        (s.save c T e calls).board.envValid (if (s.save c T e calls).ret = 0 then e else s.last)
      unfold System.save
      rw [hops, hvalid, if_pos (hworks hhw)]
      exact Loads.saved h hexp
  | cut e calls k =>
    cases hs
    obtain ⟨w, x, -, hl⟩ := h.cut hhw
    exact hl.settled_reset
  | restart =>
    cases hs
    exact Loads.settled_reset h

/-! ## An environment as text -/

/-- Eight steps of the reflected CRC-32. -/
def crcBits : Nat → UInt32 → UInt32
  | 0, crc => crc
  | n + 1, crc => crcBits n (if crc &&& 1 = 1 then (crc >>> 1) ^^^ 0xedb88320 else crc >>> 1)

/-- CRC-32 as Ethernet and zlib use it. -/
def crc32 (bs : List UInt8) : UInt32 :=
  bs.foldl (fun crc b => crcBits 8 (crc ^^^ b.toUInt32)) 0xffffffff ^^^ 0xffffffff

/-- The text of an environment: its `name=value` strings with a NUL between any two. -/
def EnvText : Type := { text : List UInt8 // text.rdropWhile (· = 0) = text }

theorem rdropWhile_append_replicate {text : List UInt8}
    (h : text.rdropWhile (· = 0) = text) (n : Nat) :
    (text ++ List.replicate n 0).rdropWhile (· = 0) = text := by
  induction n with
  | zero => rw [List.replicate_zero, List.append_nil, h]
  | succ n ih =>
    rw [List.replicate_succ', ← List.append_assoc, List.rdropWhile_concat_pos _ _ _ (by rfl), ih]

/-- The environment as text, ended by two NULs and filled up with more. -/
def textTable : EnvTable EnvText where
  crc32 := crc32
  hexport size env :=
    if env.1.length + 2 ≤ size then some (env.1 ++ List.replicate (size - env.1.length) 0) else none
  himport data := some ⟨data.rdropWhile (· = 0), List.rdropWhile_idempotent _ data⟩
  default := ⟨[], rfl⟩
  hexport_length {n e d} h := by
    split at h
    · next hle =>
      cases h
      rw [List.length_append, List.length_replicate]
      omega
    · cases h
  himport_hexport {n e d} h := by
    split at h
    · cases h
      exact congrArg some (Subtype.ext (rdropWhile_append_replicate e.2 _))
    · cases h

/-! ## The guarantee -/

/-- **A power cut loses at most the save it interrupts.**  From a flash that loads, after any run of
saves, power cuts and restarts, the flash loads the environment of the last completed save, and
after a power cut at any point of one more save it loads that environment or the one being saved. -/
theorem loads_last_or_interrupted {evs : List (Ev E)}
    (hload : (envSfLoad c T .ok (coldBoot T f)).1 = 0)
    (hhw : Runs.Along (System.step c T) (HardwareOk c T) (reset c T f) evs)
    (hrun : Runs.exec (System.step c T) (reset c T f) evs = some s) :
    LoadsEnv c T s.board.flash s.last ∧
      ∀ e calls k, HardwareOk c T s (.cut e calls k) →
        ∃ x, (x = s.last ∨ x = e) ∧ LoadsEnv c T (s.cutFlash c T e calls k) x := by
  obtain ⟨v, e₀, hl⟩ := loads_of_envSfLoad hload
  have hs : Settled c T s :=
    Runs.exec_invariant (fun _ _ _ h hC hs => Settled.step h hC hs) hl.settled_reset hhw hrun
  refine ⟨Loads.loadsEnv hs, fun e calls k hcut => ?_⟩
  obtain ⟨w, x, hx, hlx⟩ := hs.cut hcut
  exact ⟨x, hx, hlx.loadsEnv⟩

/-- Two copies of ten bytes, each in a sector of twelve. -/
def smallConfig : SfConfig where
  offset := 0
  offsetRedund := 12
  envSize := 10
  sectSize := 12
  header_le := by decide
  sectSize_pos := by decide
  disjoint := by decide

/-- All calls of `env_sf_save` succeed. -/
def SaveCalls.ok : SaveCalls := ⟨0, true, 0, ⟨0, 0⟩, ⟨0, 0⟩, ⟨0, 0⟩, ⟨0, 0⟩⟩

/-- `a=` followed by one character. -/
def letterEnv (b : UInt8) (h : [0x61, 0x3d, b].rdropWhile (· = 0) = [0x61, 0x3d, b]) : EnvText :=
  ⟨_, h⟩

/-- A flash with `a=0` in the first copy. -/
def freshFlash : Flash :=
  run (fun _ => 0xff) (programOps 0 (envNew textTable [0x61, 0x3d, 0x30, 0, 0]).bytes)

/-- A completed save of `a=1`, then saves of `a=2` that are cut in the erase, in the write of
the new copy and before the mark, then one that is completed. -/
def cutRun : List (Ev EnvText) :=
  [.save (letterEnv 0x31 rfl) .ok, .cut (letterEnv 0x32 rfl) .ok 7,
    .cut (letterEnv 0x32 rfl) .ok 19, .cut (letterEnv 0x32 rfl) .ok 24, .restart,
    .save (letterEnv 0x33 rfl) .ok]

/-- The environments of `cutRun`. -/
def aOne : EnvText := letterEnv 0x31 rfl
def aTwo : EnvText := letterEnv 0x32 rfl
def aThree : EnvText := letterEnv 0x33 rfl

theorem loads_last_cutRun : ∃ s, Runs.exec (System.step smallConfig textTable)
    (reset smallConfig textTable freshFlash) cutRun = some s ∧
    LoadsEnv smallConfig textTable s.board.flash s.last := by
  obtain ⟨s, hs⟩ : ∃ s, Runs.exec (System.step smallConfig textTable)
      (reset smallConfig textTable freshFlash) cutRun = some s :=
    Option.isSome_iff_exists.mp (by decide +kernel)
  exact ⟨s, hs, (loads_last_or_interrupted (by decide +kernel) (by decide +kernel) hs).1⟩

end RealtekIpcam.Uboot
