import RS485.Lib.Client
import RS485.Input

/-!
# Nodes

A node is a program on a chip: it calls the methods of one unit, it reads the clock, it waits,
and it asks for its button.  Between two requests the world goes on: time passes, bytes arrive
at the port, and pending bytes leave it.  What it does is the `Moment` of the request.

`nodeMachine` is the node as a machine that clients run on, each serial request being a call of
the unit in the world it lives in.  A request does two things to the streams of the node:
`Node.On.step_log` says what becomes of what it has put out, and `Node.On.step_input` of what is
pending for its unit.
-/

namespace RS485

/-- What a program asks of the node it runs on. -/
inductive Ask
  | serial (call : SerialCall)
  /-- `m5::utility::millis()` -/
  | millis
  /-- `m5::utility::delay(ms)` -/
  | delay (ms : ℕ)
  /-- `M5.BtnA.wasClicked()` -/
  | wasClicked

inductive Answer
  | serial (result : Result)
  | millis (now : BitVec 32)
  | done
  | clicked (b : Bool)

namespace Ask

/-- The request neither drops input nor takes it without returning it, as `flush(false)` and
`readValue` do. -/
def keepsStream : Ask → Bool
  | .serial (.flushTx false) | .serial (.readValue _ _) => false
  | _ => true

/-- The bytes an answer hands to the program. -/
def returned : Ask → Answer → List Byte
  | .serial call, .serial result => (IDFSerial.Input.call call .calm).returned result
  | _, _ => []

end Ask

/-- What happens before and during a request. -/
structure Moment where
  env : Env
  /-- the milliseconds that pass before the request -/
  lag : ℕ
  /-- the bytes that arrive before it -/
  arrived : List Byte
  /-- how many pending bytes leave the port before it -/
  departed : ℕ
  clicked : Bool

/-- A moment in which nothing happens. -/
def Moment.calm : Moment where
  env := .calm
  lag := 0
  arrived := []
  departed := 0
  clicked := false

/-- An answer of the button, and how many bytes had arrived at the port by then. -/
structure Press where
  clicked : Bool
  arrived : ℕ
  deriving DecidableEq, Repr

/-- The world of the unit, the clock, the log of everything so far, and what the button has
answered. -/
structure Node where
  world : World
  now : ℕ
  log : List Event
  button : List Press

namespace Node

/-- The node in a world, before its program starts. -/
def start (w : World) : Node := ⟨w, 0, [], []⟩

section Step

variable (pf : Platform) (u : UnitId) (port : Port)

/-- What happens before a request. -/
def elapse (n : Node) (x : Moment) : Node :=
  let arrival := n.world.step pf ⟨.arrive port x.arrived, x.env⟩
  let departure := arrival.1.step pf ⟨.transmit port x.departed, x.env⟩
  ⟨departure.1, n.now + x.lag, n.log ++ (arrival.2.events ++ departure.2.events), n.button⟩

/-- Answer a request. -/
def answer (n : Node) (x : Moment) : Ask → Node × Answer
  | .serial call =>
      let r := n.world.step pf ⟨.serial u call, x.env⟩
      ({ n with world := r.1, log := n.log ++ r.2.events }, .serial r.2.result)
  | .millis => (n, .millis (BitVec.ofNat 32 n.now))
  | .delay ms => ({ n with now := n.now + ms }, .done)
  | .wasClicked =>
      let press : Press := ⟨x.clicked, (receivedBytes n.log).length⟩
      ({ n with button := n.button ++ [press] }, .clicked x.clicked)

end Step

end Node

/-- A node whose program uses the unit `u`, which is on the port. -/
def nodeMachine (pf : Platform) (u : UnitId) (port : Port) :
    OutputMachine Node (Ask × Moment) Answer where
  step n i := (n.elapse pf port i.2).answer pf u i.2 i.1

/-- Has the button been clicked, if it is asked? -/
def pressed : Ask × Moment → Option Bool
  | (.wasClicked, x) => some x.clicked
  | _ => none

/-- The button answers as the moments say, and only when it is asked. -/
theorem Node.button_after (pf : Platform) (u : UnitId) (port : Port) (n : Node)
    (inputs : List (Ask × Moment)) :
    ((nodeMachine pf u port).after n inputs).button.map Press.clicked =
      n.button.map Press.clicked ++ inputs.filterMap pressed := by
  induction inputs generalizing n with
  | nil => exact (List.append_nil _).symm
  | cons i inputs ih =>
      obtain ⟨ask, x⟩ := i
      have hstep : ((nodeMachine pf u port).step n (ask, x)).1.button.map Press.clicked =
          n.button.map Press.clicked ++ (pressed (ask, x)).toList := by
        cases ask with
        | wasClicked => exact List.map_append
        | _ => exact (List.append_nil _).symm
      rw [OutputMachine.after_cons, ih, hstep, List.append_assoc]
      cases hpressed : pressed (ask, x) with
      | none => rw [List.filterMap_cons_none hpressed, Option.toList_none, List.nil_append]
      | some clicked => rw [List.filterMap_cons_some hpressed, Option.toList_some,
          List.singleton_append]

namespace Node

/-- What the node has put out: what has left the port, and what is still pending there. -/
def out (n : Node) (port : Port) : List Byte := sentBytes n.log ++ (n.world.ports port).tx

/-- What is pending for the unit. -/
def input (n : Node) (u : UnitId) : List Byte := n.world.input u

/-- The unit of the node is on its port. -/
abbrev On (n : Node) (u : UnitId) (port : Port) : Prop := n.world.OnPort u port

section Elapse

variable {pf : Platform} {n : Node} {u : UnitId} {port : Port}

/-- Arrivals and departures leave the unit on its port. -/
theorem On.of_same {w : World} (h : n.On u port) (howned : w.Owned)
    (hlive : w.live = n.world.live) (hunits : w.units = n.world.units)
    (hheap : w.heap = n.world.heap) : w.OnPort u port where
  owned := howned
  live := by rw [hlive]; exact h.live
  port := by
    have hbackend : w.backend u = n.world.backend u :=
      World.backend_congr (by rw [hunits]) hheap
    rw [hbackend]
    exact h.port

/-- What happens between requests, in the log: bytes arrive, and pending bytes leave. -/
theorem elapse_log (pf : Platform) (port : Port) (n : Node) (x : Moment) :
    ∃ events, (n.elapse pf port x).log = n.log ++ events ∧
      sentBytes events ++ ((n.elapse pf port x).world.ports port).tx =
        (n.world.ports port).tx ∧
      acceptedBytes events = [] ∧ receivedBytes events = x.arrived := by
  refine ⟨.received port x.arrived ::
    ((n.world.ports port).tx.take x.departed).map (Event.sent port), ?_, ?_, ?_, ?_⟩
  · simp [Node.elapse, World.step, World.enabled, World.exec, World.storePort, World.io,
      Io.transmit]
  · rw [sentBytes_cons, sentBytes_map_sent]
    simp [Event.departed, Node.elapse, World.step, World.enabled, World.exec, World.storePort,
      World.io, Io.transmit]
  · rw [acceptedBytes_cons, acceptedBytes_map_sent]
    rfl
  · rw [receivedBytes_cons, receivedBytes_map_sent, List.append_nil]
    rfl

/-- **What happens between requests**: bytes join the input at the back, and what the node has
put out is the same, whatever part of it has left the port. -/
theorem On.elapse (pf : Platform) (h : n.On u port) (x : Moment) :
    let n' := n.elapse pf port x
    n'.On u port ∧ n'.input u = n.input u ++ x.arrived ∧ n'.out port = n.out port ∧
      n'.now = n.now + x.lag ∧ acceptedBytes n'.log = acceptedBytes n.log ∧
      (n'.world.ports port).baud = (n.world.ports port).baud := by
  intro n'
  have hon : n'.On u port := by
    refine h.of_same ?_ rfl rfl rfl
    exact (h.owned.step pf _).step pf _
  have hbackend : n'.world.backend u = n.world.backend u := World.backend_congr rfl rfl
  have hport : n'.world.ports port =
      (Io.transmit ⟨{ n.world.ports port with rx := (n.world.ports port).rx ++ x.arrived }, []⟩
        port x.departed x.env.ringUsed).uart := by
    simp [n', Node.elapse, World.step, World.enabled, World.exec, World.storePort, World.io]
  obtain ⟨events, hlog, hsent, haccepted, -⟩ := n.elapse_log pf port x
  have hlog' : n'.log = n.log ++ events := hlog
  refine ⟨hon, ?_, ?_, rfl, ?_, ?_⟩
  · rw [input, hon.input_eq, hbackend, hport, input, h.input_eq]
    simp
  · rw [out, out, hlog', sentBytes_append, List.append_assoc, hsent]
  · rw [hlog', acceptedBytes_append, haccepted, List.append_nil]
  · rw [hport]
    rfl

/-- **A call** returns from the front of the input; what the driver accepts joins what has been
put out. -/
theorem On.call (pf : Platform) (h : n.On u port) (x : Moment) (call : SerialCall) :
    let n' := (n.answer pf u x (.serial call)).1
    let r := n.world.step pf ⟨.serial u call, x.env⟩
    n'.On u port ∧ n'.world = r.1 ∧ n'.now = n.now ∧ n'.log = n.log ++ r.2.events ∧
      n'.out port = n.out port ++ acceptedBytes r.2.events := by
  intro n' r
  refine ⟨World.OnPort.step h call x.env, rfl, rfl, rfl, ?_⟩
  have htransmits : sentBytes r.2.events ++ (r.1.ports port).tx =
      (n.world.ports port).tx ++ acceptedBytes r.2.events :=
    World.OnPort.transmits h call x.env
  have hout : n'.out port = sentBytes (n.log ++ r.2.events) ++ (r.1.ports port).tx := rfl
  rw [hout, sentBytes_append, List.append_assoc, htransmits, out, List.append_assoc]

/-- Whatever is asked, the unit stays on its port. -/
theorem On.step (h : n.On u port) (ask : Ask) (x : Moment) :
    ((nodeMachine pf u port).step n (ask, x)).1.On u port := by
  obtain ⟨hon, -⟩ := h.elapse pf x
  cases ask with
  | serial call => exact (On.call pf hon x call).1
  | millis => exact hon
  | delay ms => exact hon
  | wasClicked => exact hon

/-- **A request in the log.**  What leaves the port is what was pending there and what the driver
accepts. -/
theorem On.step_log (h : n.On u port) (ask : Ask) (x : Moment) :
    let r := (nodeMachine pf u port).step n (ask, x)
    ∃ events, r.1.log = n.log ++ events ∧
      sentBytes events ++ (r.1.world.ports port).tx =
        (n.world.ports port).tx ++ acceptedBytes events ∧
      (receivedBytes events = x.arrived ++ x.env.arrivals ∨
        receivedBytes events = x.arrived) := by
  intro r
  let n' := n.elapse pf port x
  obtain ⟨hon, -⟩ := h.elapse pf x
  obtain ⟨before, hlog, hsent, haccepted, hreceived⟩ := n.elapse_log pf port x
  -- but for a call, a request is only what happens before it
  have hquiet : r.1.log = n'.log → r.1.world = n'.world →
      ∃ events, r.1.log = n.log ++ events ∧
        sentBytes events ++ (r.1.world.ports port).tx =
          (n.world.ports port).tx ++ acceptedBytes events ∧
        (receivedBytes events = x.arrived ++ x.env.arrivals ∨
          receivedBytes events = x.arrived) := by
    intro hlog' hworld
    refine ⟨before, hlog'.trans hlog, ?_, Or.inr hreceived⟩
    rw [hworld, haccepted, List.append_nil]
    exact hsent
  cases ask with
  | serial call =>
      let o := n'.world.step pf ⟨.serial u call, x.env⟩
      have htransmits : sentBytes o.2.events ++ (o.1.ports port).tx =
          (n'.world.ports port).tx ++ acceptedBytes o.2.events :=
        World.OnPort.transmits hon call x.env
      have harrivals : receivedBytes o.2.events = x.env.arrivals ∨
          receivedBytes o.2.events = [] := World.OnPort.arrivals hon call x.env
      refine ⟨before ++ o.2.events, ?_, ?_, ?_⟩
      · have hr : r.1.log = n'.log ++ o.2.events := rfl
        rw [hr, hlog, List.append_assoc]
      · have hr : r.1.world.ports port = o.1.ports port := rfl
        rw [hr, sentBytes_append, acceptedBytes_append, haccepted, List.nil_append,
          List.append_assoc, htransmits, ← List.append_assoc, hsent]
      · rw [receivedBytes_append, hreceived]
        rcases harrivals with harrivals | harrivals
        · exact Or.inl (by rw [harrivals])
        · exact Or.inr (by rw [harrivals, List.append_nil])
  | millis => exact hquiet rfl rfl
  | delay ms => exact hquiet rfl rfl
  | wasClicked => exact hquiet rfl rfl

/-- **A request and the input.**  What was pending for the unit and what arrives is what the
request returns and what is then pending. -/
theorem On.step_input (h : n.On u port) {ask : Ask} (hkeeps : ask.keepsStream = true)
    (x : Moment) :
    let r := (nodeMachine pf u port).step n (ask, x)
    ∃ events, r.1.log = n.log ++ events ∧
      n.input u ++ receivedBytes events = ask.returned r.2 ++ r.1.input u := by
  intro r
  let n' := n.elapse pf port x
  obtain ⟨hon, hinput, -⟩ := h.elapse pf x
  obtain ⟨before, hlog, -, -, hreceived⟩ := n.elapse_log pf port x
  have hquiet : r.1.log = n'.log → r.1.world = n'.world → ask.returned r.2 = [] →
      ∃ events, r.1.log = n.log ++ events ∧
        n.input u ++ receivedBytes events = ask.returned r.2 ++ r.1.input u := by
    intro hlog' hworld hnone
    refine ⟨before, hlog'.trans hlog, ?_⟩
    have hsame : r.1.input u = n'.input u := by simp only [Node.input, hworld]
    rw [hnone, hreceived, List.nil_append, hsame]
    exact hinput.symm
  cases ask with
  | serial call =>
      let o := n'.world.step pf ⟨.serial u call, x.env⟩
      have hkeeps' : (IDFSerial.Input.call call x.env).keepsStream = true := by
        cases call with
        | flushTx txOnly => cases txOnly with
          | true => rfl
          | false => cases hkeeps
        | readValue le T => cases hkeeps
        | _ => rfl
      have hconserves : n'.input u ++ receivedBytes o.2.events =
          (IDFSerial.Input.call call x.env).returned o.2.result ++ o.1.input u :=
        World.OnPort.conserves hon hkeeps'
      have hreturned : (Ask.serial call).returned r.2 =
          (IDFSerial.Input.call call x.env).returned o.2.result := by
        have hanswer : r.2 = .serial o.2.result := rfl
        rw [hanswer]
        generalize o.2.result = result
        cases call <;> cases result <;> rfl
      refine ⟨before ++ o.2.events, ?_, ?_⟩
      · have hr : r.1.log = n'.log ++ o.2.events := rfl
        rw [hr, hlog, List.append_assoc]
      · have hr : r.1.input u = o.1.input u := rfl
        rw [hr, hreturned, ← hconserves, receivedBytes_append, hreceived, ← List.append_assoc,
          ← hinput]
  | millis => exact hquiet rfl rfl rfl
  | delay ms => exact hquiet rfl rfl rfl
  | wasClicked => exact hquiet rfl rfl rfl

end Elapse

end Node

end RS485
