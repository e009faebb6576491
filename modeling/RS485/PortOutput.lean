import RS485.Emission
import RS485.Input
import RS485.WaitingWrites

/-!
# What leaves a port

A program has any number of units, several of them perhaps on one port, and moves them, begins
them again and destroys them while bytes are still on the way.  What has left a port is found
from the writes alone: the calls on units that had a backend on the port at the time, in the
order they were made, each cut to what the driver accepted of it (`handed`).

The log of a run is of all ports, so it is taken apart first (`onPort`).  A step accounts for
the bytes of every port (`World.output_step`), since it reaches one port at most, and puts
nothing there but what it hands over.
-/

namespace RS485

open Function

/-! ## The events of one port -/

/-- The events of a log that are about the port. -/
def onPort (port : Port) (events : List Event) : List Event :=
  events.filter fun e => e.port = some port

section OnPort

variable {port : Port} {es : List Event}

@[simp] theorem onPort_nil : onPort port [] = [] := rfl

@[simp] theorem onPort_append (es es' : List Event) :
    onPort port (es ++ es') = onPort port es ++ onPort port es' :=
  List.filter_append ..

theorem onPort_eq_nil (h : ∀ e ∈ es, e.port ≠ some port) : onPort port es = [] := by
  apply List.filter_eq_nil_iff.mpr
  intro e he
  simpa using h e he

/-- What the events of a port carry is in the log of the port. -/
theorem flatMap_onPort {f : Event → List Byte} (hf : ∀ e, e.port = none → f e = [])
    (h : ∀ e ∈ es, e.port = some port ∨ e.port = none) :
    (onPort port es).flatMap f = es.flatMap f := by
  induction es with
  | nil => rfl
  | cons e es ih =>
      have hrest := ih fun e' he' => h e' (List.mem_cons_of_mem _ he')
      rcases h e (List.mem_cons_self ..) with hport | hport
      · have hcons : onPort port (e :: es) = e :: onPort port es :=
          List.filter_cons_of_pos (by simpa using hport)
        rw [hcons, List.flatMap_cons, List.flatMap_cons, hrest]
      · have hcons : onPort port (e :: es) = onPort port es :=
          List.filter_cons_of_neg (by simp [hport])
        rw [hcons, List.flatMap_cons, hrest, hf e hport, List.nil_append]

theorem sentBytes_onPort (h : ∀ e ∈ es, e.port = some port ∨ e.port = none) :
    sentBytes (onPort port es) = sentBytes es :=
  flatMap_onPort (fun e he => by cases e <;> first | rfl | cases he) h

end OnPort

/-! ## What a call hands over -/

/-- What a call accepts of its buffer is what the driver takes of it. -/
theorem ISerial.OnUart.accepted_eq {α : Type} {env : Env} {base : ISerial (α × Io)}
    (h : base.OnUart env) {pf : Platform} {call : SerialCall} {b : Buffer} {wait : Bool}
    (hpayload : call.payload pf = some (b, wait)) (s : α × Io) :
    call.accepted pf base s = env.takes b.bytes := by
  simp only [SerialCall.accepted, hpayload]
  by_cases hb : b.isNull ∨ b.size = 0
  · rw [b.isEmpty_iff.mp hb, env.takes_nil, List.take_nil]
  · obtain ⟨hcount, -⟩ := h.writeBuf b s hb
    have hwrite : RS485Component.writeBuf base b s = base.writeBuf b s := if_neg hb
    rw [SerialCall.written_eq_writeBuf h.write_byte hpayload, hwrite, hcount,
      env.take_length_takes]

/-- What the driver takes of the bytes a call is given to write. -/
def SerialCall.handed (pf : Platform) (env : Env) (call : SerialCall) : List Byte :=
  match call.payload pf with
  | some (b, _) => env.takes b.bytes
  | none => []

/-- A call on a UART backend hands over just that. -/
theorem ISerial.OnUart.hands {α : Type} {env : Env} {serial : ISerial (α × Io)}
    (h : serial.OnUart env) (pf : Platform) (call : SerialCall) (s : α × Io) :
    acceptedBytes (call.perform pf serial s).1.2.log =
      acceptedBytes s.2.log ++ call.handed pf env := by
  unfold SerialCall.handed
  cases hpayload : call.payload pf with
  | none =>
      obtain ⟨events, hlog, hquiet, -⟩ : s.2.Extends Event.Quiet (call.perform pf serial s).1.2 :=
        SerialCall.perform_quiet h.quiet hpayload s
      rw [hlog, acceptedBytes_append, acceptedBytes_of_quiet hquiet]
  | some p =>
      rw [h.accepted hpayload s, h.accepted_eq hpayload s]

namespace World

/-- The bytes a step hands over to a port. -/
def handed (pf : Platform) (port : Port) (w : World) (c : Call) : List Byte :=
  match c.op with
  | .serial u call =>
      if w.live u ∧ (w.backend u).port = some port then call.handed pf c.env else []
  | _ => []

/-! ## Steps -/

variable {pf : Platform} {w : World} {c : Call} {port : Port}

/-- A call on a unit accounts for the bytes of the port its backend is on, -/
theorem output_serialCall (pf : Platform) (env : Env) {u : UnitId}
    (hport : (w.backend u).port = some port) (call : SerialCall) :
    let r := w.serialCall pf env u call
    sentBytes r.2.events ++ (r.1.ports port).tx =
      (w.ports port).tx ++ call.handed pf env := by
  obtain ⟨α, serial, s, huart, hdispatch⟩ := (w.backend u).dispatch_of_port pf env w.units hport
  have hout := hdispatch call (w.io (some port))
  obtain ⟨events, hlog, -, hbytes⟩ := huart.perform_extends pf call (s, w.io (some port))
  have hhands := huart.hands pf call (s, w.io (some port))
  rw [hlog] at hhands
  intro r
  have hevents : r.2.events = events := by
    simp only [r, serialCall, hport, hout, hlog]
    rfl
  have htx : (r.1.ports port).tx = (call.perform pf serial (s, w.io (some port))).1.2.uart.tx := by
    simp [r, serialCall, hport, hout]
  have haccepted : acceptedBytes events = call.handed pf env := by
    simpa [io] using hhands
  rw [hevents, htx, hbytes, haccepted]
  rfl

/-- and leaves every other port alone. -/
theorem ports_serialCall (pf : Platform) (env : Env) {u : UnitId}
    (hport : (w.backend u).port ≠ some port) (call : SerialCall) :
    (w.serialCall pf env u call).1.ports port = w.ports port := by
  cases hbackend : (w.backend u).port with
  | none => simp [serialCall, hbackend, storePort]
  | some q =>
      have hne : port ≠ q := by
        rintro rfl
        exact hport hbackend
      simp [serialCall, hbackend, hne]

/-- A `begin` that installs a backend puts nothing on the wire. -/
theorem output_begun (env : Env) (u : UnitId) (unit : RS485Unit) (line : Port)
    (setup : List Event) (hsetup : ∀ e ∈ setup, e.port = none) (flushRX : Bool)
    (hflush : unit.cfg.flushRX = flushRX) :
    sentBytes (onPort port (setup ++ (w.drained env flushRX line).log)) ++
        ((begun pf env w u unit line).ports port).tx = (w.ports port).tx := by
  have hnone : onPort port setup = [] := onPort_eq_nil fun e he => by simp [hsetup e he]
  rw [onPort_append, hnone, List.nil_append, begun_ports, hflush]
  by_cases hline : port = line
  · subst hline
    obtain ⟨events, hlog, hquiet, hbytes⟩ := w.drained_extends env flushRX port
    have hreach : ∀ e ∈ (w.drained env flushRX port).log,
        e.port = some port ∨ e.port = none := by
      intro e he
      exact (mem_drained env w flushRX port e he).port_eq
    rw [sentBytes_onPort hreach, update_self, hlog]
    rw [acceptedBytes_of_quiet hquiet, List.append_nil] at hbytes
    exact hbytes
  · have hother : onPort port (w.drained env flushRX line).log = [] := by
      refine onPort_eq_nil fun e he => ?_
      rcases (mem_drained env w flushRX line e he).port_eq with hport | hport
      · rw [hport]
        exact fun h => hline (Option.some.inj h).symm
      · rw [hport]
        exact (Option.some_ne_none port).symm
    rw [hother, update_of_ne hline]
    rfl

/-- Only calls of the serial methods hand anything over. -/
theorem handed_of_not_serial (h : ∀ u call, c.op ≠ .serial u call) :
    handed pf port w c = [] := by
  unfold handed
  split
  · next u call hop => exact absurd hop (h u call)
  · rfl

theorem handed_serial {u : UnitId} {call : SerialCall} (hop : c.op = .serial u call)
    (hlive : w.live u = true) :
    handed pf port w c =
      if (w.backend u).port = some port then call.handed pf c.env else [] := by
  simp only [handed, hop, hlive, true_and]

/-- A call on a unit with a backend elsewhere logs nothing about the port. -/
theorem onPort_serialCall (pf : Platform) (env : Env) {u : UnitId} (hlive : w.live u = true)
    (hport : (w.backend u).port ≠ some port) (call : SerialCall) :
    onPort port (w.serialCall pf env u call).2.events = [] := by
  refine onPort_eq_nil fun e he hon => ?_
  rw [← step_serial pf hlive call env] at he
  cases step_reach pf w _ he with
  | line v call' q hop hlive hbackend hline =>
      obtain ⟨rfl, rfl⟩ : u = v ∧ call = call' := by simpa using hop
      rw [hline] at hon
      exact hport (hbackend.trans hon)
  | dir v owner call' hop hlive howner hdrives =>
      obtain ⟨-, -, level, accepted, rfl⟩ := hdrives
      cases hon
  | drain v ad hop => cases hop
  | setup v hop => cases hop
  | arrive p bytes hop => cases hop
  | transmit p n b hop => cases hop

/-- One on the port logs nothing about another. -/
theorem port_of_mem_serialCall (pf : Platform) (env : Env) {u : UnitId} (hlive : w.live u = true)
    (hport : (w.backend u).port = some port) (call : SerialCall) :
    ∀ e ∈ (w.serialCall pf env u call).2.events, e.port = some port ∨ e.port = none := by
  intro e he
  rw [← step_serial pf hlive call env] at he
  cases step_reach pf w _ he with
  | line v call' q hop hlive hbackend hline =>
      obtain ⟨rfl, rfl⟩ : u = v ∧ call = call' := by simpa using hop
      exact Or.inl (by rw [hline, ← hbackend, hport])
  | dir v owner call' hop hlive howner hdrives =>
      obtain ⟨-, -, level, accepted, rfl⟩ := hdrives
      exact Or.inr rfl
  | drain v ad hop => cases hop
  | setup v hop => cases hop
  | arrive p bytes hop => cases hop
  | transmit p n b hop => cases hop

/-- Whatever is not a call of a serial method hands nothing over, and puts nothing on the wire
but what is pending. -/
theorem output_other (hother : ∀ u call, c.op ≠ .serial u call)
    (hopen : ∀ installed ring, c.op ≠ .uartDriver port installed ring) :
    sentBytes (onPort port (w.step pf c).2.events) ++ ((w.step pf c).1.ports port).tx =
      (w.ports port).tx := by
  have heffect := step_effect pf w c
  generalize w.step pf c = r at heffect ⊢
  cases heffect with
  | rejected => rfl
  | construct => rfl
  | destroy => rfl
  | move => simp
  | moveSelf => rfl
  | install => simp
  | settings => rfl
  | begin u hop hlive r hbegin =>
      cases hbegin with
      | unready => rfl
      | rejected => rfl
      | failed hkind hpin =>
          have hsetup : onPort port (w.pinSetup pf c.env u) = [] :=
            onPort_eq_nil fun e he => by simp [port_of_mem_pinSetup c.env hpin he]
          rw [hsetup]
          rfl
      | plain ad hkind had =>
          exact output_begun c.env u _ _ [] (by simp) _ rfl
      | controlled ad hkind hpin had =>
          exact output_begun c.env u _ _ _ (fun e he => port_of_mem_pinSetup c.env hpin he) _ rfl
  | call u call hop => exact absurd hop (hother u call)
  | uartDriver q installed ring hop =>
      have hne : port ≠ q := by
        rintro rfl
        exact hopen installed ring hop
      simp [exec, hne]
  | arrive q bytes =>
      by_cases hq : port = q
      · subst hq
        simp [exec, onPort, Event.port, Event.departed]
      · simp [exec, onPort, Event.port, hq, Ne.symm hq]
  | transmit q n =>
      have hlog : (w.exec pf c.env (.transmit q n)).2.events =
          ((w.ports q).tx.take n).map (Event.sent q) := by simp [exec, io, Io.transmit]
      have hline : ∀ e ∈ ((w.ports q).tx.take n).map (Event.sent q), e.port = some q := by
        intro e he
        obtain ⟨b, -, rfl⟩ := List.mem_map.mp he
        rfl
      rw [hlog]
      by_cases hq : port = q
      · subst hq
        rw [sentBytes_onPort fun e he => Or.inl (hline e he), sentBytes_map_sent]
        simp [exec, io, Io.transmit]
      · have hnone : onPort port (((w.ports q).tx.take n).map (Event.sent q)) = [] := by
          apply onPort_eq_nil
          intro e he hon
          rw [hline e he] at hon
          exact hq (Option.some.inj hon).symm
        rw [hnone]
        simp [exec, hq]

/-- **A step** accounts for the bytes of a port, unless the program opens the port anew: what
leaves it and what is then pending is what was pending and what the step hands over. -/
theorem output_step (pf : Platform) (w : World) (c : Call)
    (hopen : ∀ installed ring, c.op ≠ .uartDriver port installed ring) :
    sentBytes (onPort port (w.step pf c).2.events) ++ ((w.step pf c).1.ports port).tx =
      (w.ports port).tx ++ handed pf port w c := by
  by_cases hother : ∀ u call, c.op ≠ .serial u call
  · rw [handed_of_not_serial hother, List.append_nil]
    exact output_other hother hopen
  · push Not at hother
    obtain ⟨u, call, hop⟩ := hother
    obtain ⟨op, env⟩ := c
    obtain rfl : op = .serial u call := hop
    cases hlive : w.live u with
    | false =>
        have hrejected : w.enabled (.serial u call) = false := hlive
        rw [step_of_not_enabled pf hrejected]
        simp [handed, hlive]
    | true =>
        rw [step_serial pf hlive, handed_serial rfl hlive]
        by_cases hport : (w.backend u).port = some port
        · rw [if_pos hport, sentBytes_onPort (port_of_mem_serialCall pf env hlive hport call)]
          exact output_serialCall pf env hport call
        · rw [if_neg hport, onPort_serialCall pf env hlive hport call,
            ports_serialCall pf env hport call, List.append_nil]
          rfl

end World

/-! ## Runs -/

/-- **What leaves a port** in a run is what was pending and what the calls of the run hand over
to it, in their order, as far as it is not still pending.  This is so of any number of units of
either class, on this port and on others, with hand-installed backends, moves, failing and
repeated `begin`s and whatever the drivers do, as long as the program does not open the port
anew: no operation but a write puts a byte on a wire, and no byte gets to the wire of another
port, or there twice, or in another order. -/
theorem port_output (pf : Platform) (w : World) (calls : List Call) (port : Port)
    (hopen : ∀ c ∈ calls, ∀ installed ring, c.op ≠ .uartDriver port installed ring) :
    sentBytes (onPort port (((machine pf).outputs w calls).flatMap Outcome.events)) ++
        (((machine pf).after w calls).ports port).tx =
      (w.ports port).tx ++
        ((machine pf).collect (fun w c _ => some (w.handed pf port c)) w calls).flatten := by
  induction calls generalizing w with
  | nil => simp
  | cons c calls ih =>
      have hrun := ih (w.step pf c).1 fun c' hc' => hopen c' (List.mem_cons_of_mem _ hc')
      have hstep := World.output_step pf w c (hopen c (List.mem_cons_self ..))
      simp only [OutputMachine.outputs_cons, List.flatMap_cons, OutputMachine.after_cons,
        OutputMachine.collect_cons, onPort_append, sentBytes_append, Option.toList_some,
        List.singleton_append, List.flatten_cons]
      calc sentBytes (onPort port (w.step pf c).2.events) ++
            sentBytes (onPort port
              (((machine pf).outputs (w.step pf c).1 calls).flatMap Outcome.events)) ++
            (((machine pf).after (w.step pf c).1 calls).ports port).tx
          = sentBytes (onPort port (w.step pf c).2.events) ++
              (((w.step pf c).1.ports port).tx ++ ((machine pf).collect
                (fun w c _ => some (w.handed pf port c)) (w.step pf c).1 calls).flatten) := by
            rw [List.append_assoc, hrun]
        _ = (w.ports port).tx ++ (w.handed pf port c ++ ((machine pf).collect
              (fun w c _ => some (w.handed pf port c)) (w.step pf c).1 calls).flatten) := by
            rw [← List.append_assoc, hstep, List.append_assoc]

/-- Two units are on port 1, one of each class; the decorated one is destroyed with a byte of
the other still pending. -/
def sharedRun : List Call :=
  [⟨.construct 1 .sp485, .calm⟩, ⟨.setAdapter 1 (some ⟨none, 1⟩), .calm⟩, ⟨.begin 1, .calm⟩,
    ⟨.serial 1 (.write 0x03), .calm⟩, ⟨.serial 0 (.write 0x04), .calm⟩,
    ⟨.serial 1 (.write 0x05), .calm⟩, ⟨.destroy 0, .calm⟩]

theorem sample_port_output :
    let w := (machine .esp32).after (World.init samplePorts) sampleRun
    sentBytes (onPort 1 (((machine .esp32).outputs w sharedRun).flatMap Outcome.events)) ++
        (((machine .esp32).after w sharedRun).ports 1).tx =
      (w.ports 1).tx ++
        ((machine .esp32).collect (fun w c _ => some (w.handed .esp32 1 c)) w sharedRun).flatten :=
  port_output .esp32 _ sharedRun 1 (by simp [sharedRun])

example :
    let w := (machine .esp32).after (World.init samplePorts) sampleRun
    sentBytes (onPort 1 (((machine .esp32).outputs w sharedRun).flatMap Outcome.events)) =
        [0x03, 0x04] ∧
      (((machine .esp32).after w sharedRun).ports 1).tx = [0x05] := by
  decide

end RS485
