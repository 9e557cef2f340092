import RealtekIpcam.Composite.Model

/-!
# Where control requests go

A request that is not standard belongs to the functions, and `setupTarget` is the callback that
should get it.  Two tests come before: one for OS descriptors and one for the MS OS 2.0 descriptor
set.  Both compare `bRequest` with `b_vendor_code` and look at one of the two type bits, and the
second looks at nothing else.  The core announces `b_vendor_code` in its OS string, and only with
`use_os_string`; the code that its BOS descriptor announces is not looked at.

`Routed` is what should hold of a request, and `unknownRequest_routed` shows it for every request
but those that the two tests take from a function.
-/

namespace RealtekIpcam.Composite

open Udc (SetupPacket)

/-! ## What the core announces -/

/-- A string descriptor announces the vendor code. -/
def Announced (cdev : CompositeDev) (code : UInt8) : Prop :=
  ∃ language id, cdev.osString language id = some code

theorem announced_iff {cdev : CompositeDev} {code : UInt8} :
    Announced cdev code ↔ cdev.useOsString = true ∧ code = cdev.bVendorCode := by
  unfold Announced CompositeDev.osString
  constructor
  · rintro ⟨language, id, h⟩
    obtain ⟨hstring, ⟨⟩⟩ := Option.ite_none_right_eq_some.mp h
    exact ⟨hstring.1, rfl⟩
  · rintro ⟨huse, rfl⟩
    exact ⟨0, 0xee, if_pos ⟨huse, rfl, rfl⟩⟩

/-! ## Who should get a request -/

/-- The `setup` callbacks that were made. -/
def Outcome.setups (o : Outcome) : List SetupCallback :=
  o.calls.filterMap fun
    | .setup cb => some cb
    | _ => none

namespace CompositeDev

variable (cdev : CompositeDev) (ctrl : SetupPacket) (ans : Answers)

/-- The functions whose `req_match` is asked: those of the current configuration, or all. -/
def candidates : List FnId :=
  match cdev.config with
  | some c => c.functions
  | none => cdev.configs.flatMap Configuration.functions

/-- The function's `req_match` accepts the request. -/
def accepts (f : FnId) : Bool := (cdev.fn f).hasReqMatch && ans.reqMatch f cdev.config.isNone

/-- The callback of a function, if it has one. -/
def functionHandler (f : Option FnId) : Option SetupCallback :=
  (f.filter fun f => (cdev.fn f).hasSetup).map .function

/-- The callback of the current configuration. -/
def configHandler : Option SetupCallback :=
  (cdev.config.filter Configuration.hasSetup).map fun _ => .config

/-- The only function of the current configuration. -/
def onlyFunction : Option FnId :=
  cdev.config.bind fun c => if c.functions.length = 1 then c.functions.head? else none

/-- Who should get a request that is not standard: the function that accepts it, or else that owns
what it addresses; else the configuration; else its only function. -/
def setupTarget : Option SetupCallback :=
  (cdev.functionHandler ((cdev.candidates.find? (cdev.accepts ans)).or (cdev.addressed ctrl))).or
    (cdev.configHandler.or (cdev.functionHandler cdev.onlyFunction))

end CompositeDev

/-- The request was passed to the callback and to no other, or stalled if there is none. -/
def Passed (ans : Answers) (target : Option SetupCallback) (o : Outcome) : Prop :=
  match target with
  | some cb => o.setups = [cb] ∧ o.value = ans.setup cb
  | none => o.setups = [] ∧ o.value < 0

/-- What should hold of a request that is not standard: the core answers only IN vendor requests
with a code that it announced, and passes on every other. -/
structure Routed (cdev : CompositeDev) (ctrl : SetupPacket) (ans : Answers) (o : Outcome) :
    Prop where
  core : o.reply.isSome → dirIn ctrl = true ∧ requestType ctrl = 0x40 ∧
    Announced cdev ctrl.bRequest
  passed : o.reply = none → Passed ans (cdev.setupTarget ctrl ans) o

/-! ## What the core does -/

variable {cdev : CompositeDev} {ctrl : SetupPacket} {ans : Answers}

theorem matching_eq : cdev.matching ans = cdev.candidates.find? (cdev.accepts ans) := by
  unfold CompositeDev.matching CompositeDev.candidates CompositeDev.accepts
  cases cdev.config <;> rfl

theorem passed_callSetup (cb : SetupCallback) :
    Passed ans (some cb) (cdev.callSetup ans cb) := ⟨rfl, rfl⟩

/-- **The label `try_fun_setup`** passes the request to the function, else to the configuration,
else to its only function. -/
theorem passed_tryFunSetup (f : Option FnId) :
    (cdev.tryFunSetup ans f).reply = none ∧
      Passed ans ((cdev.functionHandler f).or
        (cdev.configHandler.or (cdev.functionHandler cdev.onlyFunction)))
        (cdev.tryFunSetup ans f) := by
  have hstall : Passed ans none { cdev := cdev, value := -EOPNOTSUPP } :=
    ⟨rfl, show -EOPNOTSUPP < 0 by decide⟩
  unfold CompositeDev.tryFunSetup CompositeDev.functionHandler CompositeDev.configHandler
    CompositeDev.onlyFunction
  cases f.filter fun f => (cdev.fn f).hasSetup with
  | some g => exact ⟨rfl, passed_callSetup _⟩
  | none =>
    cases cdev.config with
    | none => exact ⟨rfl, hstall⟩
    | some c =>
      by_cases hsetup : c.hasSetup
      · rw [Option.filter_some_pos hsetup]
        dsimp only
        rw [if_pos hsetup]
        exact ⟨rfl, passed_callSetup _⟩
      · rw [Option.filter_some_neg (Bool.eq_false_iff.mpr hsetup)]
        dsimp only
        rw [if_neg hsetup]
        rw [Option.bind_some]
        rcases c.functions with - | ⟨g, - | ⟨g', gs⟩⟩
        · exact ⟨rfl, hstall⟩
        · rw [if_pos (show [g].length = 1 from rfl), List.head?_cons, Option.filter_some]
          dsimp only
          by_cases hg : (cdev.fn g).hasSetup
          · rw [if_pos hg, if_pos hg]
            exact ⟨rfl, passed_callSetup _⟩
          · rw [if_neg hg, if_neg hg]
            exact ⟨rfl, hstall⟩
        · exact ⟨rfl, hstall⟩

/-- **The label `unknown`.**  The core answers just the requests with the vendor bit and its
vendor code, and passes on every other. -/
theorem unknownRequest_cases (cdev : CompositeDev) (ctrl : SetupPacket) (ans : Answers) :
    (cdev.vendorCodeMatches ctrl = true ∧ (cdev.unknownRequest ctrl ans).reply.isSome ∧
      (cdev.unknownRequest ctrl ans).setups = []) ∨
    cdev.vendorCodeMatches ctrl = false ∧ (cdev.unknownRequest ctrl ans).reply = none ∧
      Passed ans (cdev.setupTarget ctrl ans) (cdev.unknownRequest ctrl ans) := by
  unfold CompositeDev.unknownRequest
  cases hcode : cdev.vendorCodeMatches ctrl with
  | true =>
    refine .inl ⟨rfl, ?_⟩
    cases (if cdev.useOsString && true then cdev.osDescConfig else none) <;> exact ⟨rfl, rfl⟩
  | false =>
    rw [Bool.and_false, if_neg Bool.false_ne_true]
    dsimp only
    rw [if_neg Bool.false_ne_true, matching_eq]
    exact .inr ⟨rfl, passed_tryFunSetup _⟩

theorem compositeSetup_of_nonstandard (hlong : ¬ tooLong ctrl) (hns : requestType ctrl ≠ 0) :
    cdev.compositeSetup ctrl ans = cdev.unknownRequest ctrl ans := by
  unfold CompositeDev.compositeSetup
  rw [if_neg hlong, if_pos hns]

/-- **Control request routing.**  Of a request that is not standard: one with more data for the
device than the buffer holds is stalled.  Every other, if it is not one with the vendor bit and
the vendor code of the core that the core has not announced or that is not an IN vendor request,
is answered by the core only if it is an IN vendor request with an announced code, and else passed
to the callback that should get it, or stalled. -/
theorem nonstandard_routed (cdev : CompositeDev) (ctrl : SetupPacket) (ans : Answers)
    (hns : requestType ctrl ≠ 0) :
    (tooLong ctrl → (cdev.compositeSetup ctrl ans).reply = none ∧
      Passed ans none (cdev.compositeSetup ctrl ans)) ∧
    (¬ tooLong ctrl →
      (cdev.vendorCodeMatches ctrl = true →
        dirIn ctrl = true ∧ requestType ctrl = 0x40 ∧ cdev.useOsString = true) →
      Routed cdev ctrl ans (cdev.compositeSetup ctrl ans)) := by
  constructor
  · intro hlong
    unfold CompositeDev.compositeSetup
    rw [if_pos hlong]
    exact ⟨rfl, rfl, show -EOPNOTSUPP < 0 by decide⟩
  · intro hlong hown
    rw [compositeSetup_of_nonstandard hlong hns]
    rcases unknownRequest_cases cdev ctrl ans with
      ⟨hmatch, hreply, -⟩ | ⟨-, hreply, hpassed⟩
    · obtain ⟨hin, hvendor, huse⟩ := hown hmatch
      have hcode : ctrl.bRequest = cdev.bVendorCode :=
        beq_iff_eq.mp (Bool.and_eq_true _ _ ▸ hmatch).2
      refine ⟨fun _ => ⟨hin, hvendor, announced_iff.mpr ⟨huse, hcode⟩⟩, fun hnone => ?_⟩
      rw [hnone] at hreply
      exact Bool.noConfusion hreply
    · refine ⟨fun hsome => ?_, fun _ => hpassed⟩
      rw [hreply] at hsome
      exact Bool.noConfusion hsome

/-- Function 1, which has a `setup`, owns the interface 0 of the only configuration, which is the
current one. -/
def oneFunction : CompositeDev where
  fn _ := { hasSetup := true }
  configs := [{ bConfigurationValue := 1, functions := [1], nextInterfaceId := 1 }]
  config := some
    { bConfigurationValue := 1
      interface := fun id => if id = 0 then some 1 else none
      functions := [1]
      nextInterfaceId := 1 }

/-- A class request to its interface is passed to the function. -/
theorem classRequest_routed :
    Routed oneFunction ⟨0x21, 0, 0, 0, 8⟩ {} (oneFunction.compositeSetup ⟨0x21, 0, 0, 0, 8⟩ {}) :=
  (nonstandard_routed oneFunction ⟨0x21, 0, 0, 0, 8⟩ {} (by decide)).2 (by decide)
    (fun h => absurd h (by decide))

/-- The function does not get a vendor request with code 0, which the core takes for its own, nor
a class request with more data than the buffer holds. -/
theorem not_routed :
    ¬ Routed oneFunction ⟨0x41, 0, 0, 0, 8⟩ {} (oneFunction.compositeSetup ⟨0x41, 0, 0, 0, 8⟩ {}) ∧
    ¬ Routed oneFunction ⟨0x21, 9, 0, 0, 5000⟩ {}
      (oneFunction.compositeSetup ⟨0x21, 9, 0, 0, 5000⟩ {}) := by
  constructor
  · intro h
    exact Bool.noConfusion (h.core rfl).1
  · intro h
    exact List.cons_ne_nil _ _ (h.passed rfl).1.symm

end RealtekIpcam.Composite
