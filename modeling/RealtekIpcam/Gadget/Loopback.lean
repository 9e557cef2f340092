import RealtekIpcam.Lib.Runs

/-!
# The loopback function

The loopback function sends back what it receives.  `loopback_set_alt` enables the two endpoints and
allocates `qlen` pairs of requests: each OUT request has a buffer, and its IN request has the same
one.  The requests of a pair point at each other through `context`.  When an OUT request completes,
`loopback_complete` queues its partner with the bytes that came, and when that one completes, the
OUT request is queued again; if a completion has an error, or a request cannot be queued, the pair
is freed.

A step of a run is a call that the function makes while it is enabled or disabled, or a completion,
which may come at any time.  The endpoints are the ones that the gadget core documents: what is
queued completes in order and once, an endpoint that is not enabled accepts nothing, and
`usb_ep_disable` does not return before all is given back.  `disable_endpoints`, `alloc_ep_req` and
`free_ep_req` are in files that are not at hand; the first disables the endpoints that it is given,
and the others allocate and free a request together with its buffer.
-/

namespace RealtekIpcam.Gadget.Loopback

open Function

/-! ## State -/

/-- The endpoints of the function. -/
inductive Ep where
  | outEp | inEp
  deriving DecidableEq

/-- `struct usb_request`; `ep` is the endpoint that it was allocated for. -/
structure Request where
  ep : Ep
  context : Nat
  buf : Nat
  length : Nat
  zero : Bool

/-- A transfer on the wire, and whether a short packet ends it. -/
structure Transfer where
  bytes : List UInt8
  short : Bool
  deriving DecidableEq

/-- `struct f_loopback`, and the length that `alloc_ep_req` gives a request. -/
structure Loop where
  qlen : Nat
  buflen : Nat
  align : Nat → Nat

/-- Where a running `loopback_set_alt` or `loopback_disable` has got to: the call that it makes
next. -/
inductive Pc where
  /-- Nothing runs. -/
  | idle
  /-- `usb_ep_disable` of these endpoints, and whether they are enabled after that. -/
  | disabling (todo : List Ep) (enable : Bool)
  /-- `enable_endpoint`. -/
  | enabling (ep : Ep)
  /-- `usb_ep_alloc_request`, in the round `i` of `alloc_requests`. -/
  | allocIn (i : Nat)
  /-- `lb_alloc_ep_req`. -/
  | allocOut (i inReq : Nat)
  /-- `usb_ep_queue`. -/
  | queueOut (i inReq outReq : Nat)
  deriving DecidableEq

/-- The state of the function and of its endpoints. -/
structure State where
  reqs : Nat → Request
  /-- The next request and the next buffer to be allocated; addresses are not used again, so that a
  stale one is recognised. -/
  nextReq : Nat
  nextBuf : Nat
  content : Nat → List UInt8
  /-- The calls of `usb_ep_free_request`, and of `kfree` for a buffer. -/
  reqFrees : List (Ep × Nat)
  bufFrees : List Nat
  /-- The requests that are queued and have not completed. -/
  queue : Ep → List Nat
  enabled : Ep → Bool
  pc : Pc
  /-- The OUT transfers that completed without an error. -/
  received : List Transfer
  /-- The calls of `usb_ep_queue` for the IN endpoint, and whether they succeeded. -/
  inCalls : List (Transfer × Bool)

/-- The function before its first `loopback_set_alt`. -/
def State.boot : State where
  reqs := fun _ => { ep := .outEp, context := 0, buf := 0, length := 0, zero := false }
  nextReq := 0
  nextBuf := 0
  content := fun _ => []
  reqFrees := []
  bufFrees := []
  queue := fun _ => []
  enabled := fun _ => false
  pc := .idle
  received := []
  inCalls := []

namespace State

variable (s : State)

/-- The transfer that an IN request stands for. -/
def transfer (r : Nat) : Transfer where
  bytes := (s.content (s.reqs r).buf).take (s.reqs r).length
  short := (s.reqs r).zero

def queuedIn : List Transfer := (s.inCalls.filter fun c => c.2).map Prod.fst

/-- `usb_ep_queue`, and whether it succeeds; `ok` is whether the endpoint accepts the request. -/
def usbEpQueue (ep : Ep) (r : Nat) (ok : Bool) : State × Bool :=
  let accepted := ok && s.enabled ep
  ({ s with
      queue := if accepted = true then update s.queue ep (s.queue ep ++ [r]) else s.queue
      inCalls := if ep = .inEp then s.inCalls ++ [(s.transfer r, accepted)] else s.inCalls },
    accepted)

def usbEpFreeRequest (ep : Ep) (r : Nat) : State := { s with reqFrees := (ep, r) :: s.reqFrees }

def freeEpReq (ep : Ep) (r : Nat) : State :=
  { s with
    reqFrees := (ep, r) :: s.reqFrees
    bufFrees := (s.reqs r).buf :: s.bufFrees }

end State

/-! ## Completions -/

def Ep.other : Ep → Ep
  | .outEp => .inEp
  | .inEp => .outEp

namespace State

variable (s : State)

/-- The label `free_req`. -/
def freeReq (ep : Ep) (req : Nat) : State :=
  (s.usbEpFreeRequest ep.other (s.reqs req).context).freeEpReq ep req

/-- What `loopback_complete` queues: the state with the request filled in, its endpoint, and the
request. -/
def answer (ep : Ep) (req actual : Nat) : State × Ep × Nat :=
  match ep with
  | .outEp =>
    let inReq := (s.reqs req).context
    ({ s with
        reqs := update s.reqs inReq { s.reqs inReq with
          zero := decide (actual < (s.reqs req).length)
          length := actual } }, .inEp, inReq)
  | .inEp => (s, .outEp, (s.reqs req).context)

/-- `loopback_complete`; `ok` is whether the request that it queues is accepted. -/
def loopbackComplete (ep : Ep) (req : Nat) (status : Int) (actual : Nat) (ok : Bool) : State :=
  if status = 0 then
    let (t, ep, req) := s.answer ep req actual
    let (t, accepted) := t.usbEpQueue ep req ok
    if accepted = true then t else t.freeReq ep req
  else s.freeReq ep req

/-- The OUT endpoint completes a request: it has put the bytes into its buffer. -/
def outDone (req : Nat) (rest : List Nat) (status : Int) (data : List UInt8) (ok : Bool) : State :=
  let t : State :=
    { s with
      queue := update s.queue .outEp rest
      content := update s.content (s.reqs req).buf
        (data ++ (s.content (s.reqs req).buf).drop data.length)
      received := if status = 0 then
        s.received ++ [{ bytes := data, short := decide (data.length < (s.reqs req).length) }]
        else s.received }
  t.loopbackComplete .outEp req status data.length ok

/-- The IN endpoint completes a request. -/
def inDone (req : Nat) (rest : List Nat) (status : Int) (ok : Bool) : State :=
  let t : State := { s with queue := update s.queue .inEp rest }
  t.loopbackComplete .inEp req status (s.reqs req).length ok

/-! ## Enabling and disabling -/

/-- The labels `disable_out` and `disable_in`, and the return of an error. -/
def fail (todo : List Ep) : State := { s with pc := .disabling todo false }

/-- `usb_ep_disable` returns, and has disabled the endpoint unless it failed. -/
def disabled (ep : Ep) (ok : Bool) (pc : Pc) : State :=
  { s with
    enabled := if ok = true then update s.enabled ep false else s.enabled
    pc := pc }

/-- `enable_endpoint` has succeeded. -/
def enable (ep : Ep) (pc : Pc) : State :=
  { s with enabled := update s.enabled ep true, pc := pc }

/-- `usb_ep_alloc_request` for the IN endpoint has succeeded; the fields are set later. -/
def allocIn (i : Nat) : State :=
  { s with
    reqs := update s.reqs s.nextReq
      { ep := .inEp, context := 0, buf := 0, length := 0, zero := false }
    nextReq := s.nextReq + 1
    pc := .allocOut i s.nextReq }

/-- `lb_alloc_ep_req` has succeeded, and the fields of both requests are set. -/
def allocOut (L : Loop) (i inReq : Nat) : State :=
  { s with
    reqs := update
      (update s.reqs inReq
        { s.reqs inReq with context := s.nextReq, buf := s.nextBuf })
      s.nextReq
      { ep := .outEp
        context := inReq
        buf := s.nextBuf
        length := L.align L.buflen
        zero := false }
    nextReq := s.nextReq + 1
    nextBuf := s.nextBuf + 1
    pc := .queueOut i inReq s.nextReq }

/-- The first queueing of an OUT request. -/
def queueOut (i inReq outReq : Nat) (ok : Bool) : State :=
  let (t, accepted) := s.usbEpQueue .outEp outReq ok
  if accepted = true then { t with pc := .allocIn (i + 1) }
  else ((t.freeEpReq .outEp outReq).usbEpFreeRequest .inEp inReq).fail [.outEp, .inEp]

/-- The next call of what runs, and whether it succeeds. -/
def advance (L : Loop) (ok : Bool) : Option State :=
  match s.pc with
  | .idle => none
  | .disabling (ep :: todo) enable =>
    if s.queue ep = [] then some (s.disabled ep ok (.disabling todo enable)) else none
  | .disabling [] enable => some { s with pc := if enable = true then .enabling .inEp else .idle }
  | .enabling .inEp =>
    some (if ok = true then s.enable .inEp (.enabling .outEp) else { s with pc := .idle })
  | .enabling .outEp => some (if ok = true then s.enable .outEp (.allocIn 0) else s.fail [.inEp])
  | .allocIn i =>
    some (if i < L.qlen then if ok = true then s.allocIn i else s.fail [.outEp, .inEp]
      else { s with pc := .idle })
  | .allocOut i inReq =>
    some (if ok = true then s.allocOut L i inReq
      else (s.usbEpFreeRequest .inEp inReq).fail [.outEp, .inEp])
  | .queueOut i inReq outReq => some (s.queueOut i inReq outReq ok)

end State

/-- A step of a run. -/
inductive Event where
  /-- `loopback_set_alt` is called; `disable_endpoints` takes the endpoints in this order. -/
  | setAlt (first : Ep)
  /-- `loopback_disable` is called. -/
  | disable (first : Ep)
  /-- What runs makes its next call, and that succeeds or not. -/
  | advance (ok : Bool)
  /-- The first request of the OUT endpoint completes. -/
  | outDone (status : Int) (data : List UInt8) (ok : Bool)
  /-- The first request of the IN endpoint completes. -/
  | inDone (status : Int) (ok : Bool)

/-- One step, if it can happen. -/
def step (L : Loop) (s : State) : Event → Option State
  | .setAlt first =>
    if s.pc = .idle then some { s with pc := .disabling [first, first.other] true } else none
  | .disable first =>
    if s.pc = .idle then some { s with pc := .disabling [first, first.other] false } else none
  | .advance ok => s.advance L ok
  | .outDone status data ok =>
    match s.queue .outEp with
    | [] => none
    | req :: rest => some (s.outDone req rest status data ok)
  | .inDone status ok =>
    match s.queue .inEp with
    | [] => none
    | req :: rest => some (s.inDone req rest status ok)

end RealtekIpcam.Gadget.Loopback
