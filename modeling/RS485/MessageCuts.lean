import RS485.Bus
import RS485.Emission

/-!
# How a message is cut into writes

A plain write of some bytes makes one call of the UART driver with just these bytes, whichever
overload it is and whatever backend the unit has, and returns how many of them the driver
accepts; a write of no bytes makes none (`HandedOver`).  A decorator adds calls of the GPIO
driver and a wait around the driver call of the backend under it, and nothing in between
(`dirControlled_handsOver`).

So the bytes the UART gets from a run of plain writes are found from the texts of the writes
alone (`cuts_do_not_matter`).
-/

namespace RS485

/-! ## Calls of the UART driver -/

/-- The bytes the driver accepts of a buffer it is handed. -/
def Env.takes (env : Env) (bytes : List Byte) : List Byte :=
  match env.accepted with
  | none => []
  | some limit => bytes.take limit

/-- What the driver accepted, in each call that handed bytes to it. -/
def driverWrites (events : List Event) : List (List Byte) :=
  events.filterMap fun
    | .uartWrite _ bytes => some bytes
    | _ => none

section DriverWrites

@[simp] theorem driverWrites_nil : driverWrites [] = [] := rfl

@[simp] theorem driverWrites_append (es es' : List Event) :
    driverWrites (es ++ es') = driverWrites es ++ driverWrites es' :=
  List.filterMap_append ..

theorem driverWrites_of_noWrite {es : List Event} (h : ∀ e ∈ es, e.isWrite = false) :
    driverWrites es = [] := by
  apply List.filterMap_eq_nil_iff.mpr
  intro e he
  cases e with
  | uartWrite port bytes => cases h _ he
  | _ => rfl

theorem acceptedBytes_eq_flatten (es : List Event) :
    acceptedBytes es = (driverWrites es).flatten := by
  induction es with
  | nil => rfl
  | cons e es ih =>
      rw [acceptedBytes_cons, ih]
      cases e <;> rfl

/-- The log of a write to the driver: the bytes it accepts, and then some that leave. -/
theorem uartWriteBytes_log (env : Env) (port : Port) (bytes : List Byte) (io : Io) :
    ∃ gone : List Byte, (uartWriteBytes env port bytes io).1.log =
        io.log ++ .uartWrite port (env.takes bytes) :: gone.map (Event.sent port) ∧
      (uartWriteBytes env port bytes io).2.getD 0 = (env.takes bytes).length := by
  unfold uartWriteBytes Env.takes
  cases env.accepted with
  | none => exact ⟨[], by simp, rfl⟩
  | some limit =>
      exact ⟨(io.uart.tx ++ bytes.take limit).take env.sentEarly, List.append_assoc .., rfl⟩

end DriverWrites

/-! ## The backends -/

/-- The buffer write of a UART backend hands the bytes to the driver in one call and returns
how many that accepts, and its byte write is one of a buffer of one byte. -/
structure ISerial.HandsOver {α : Type} (env : Env) (base : ISerial (α × Io)) : Prop where
  write_byte : ∀ d s, base.write d s = base.writeBuf (.mem [d]) s
  writeBuf : ∀ (b : Buffer) (s : α × Io), ¬ (b.isNull ∨ b.size = 0) →
    (base.writeBuf b s).2 = (env.takes b.bytes).length ∧
      ∃ events, (base.writeBuf b s).1.2.log = s.2.log ++ events ∧
        driverWrites events = [env.takes b.bytes]

theorem driverWrites_map_sent (port : Port) (bytes : List Byte) :
    driverWrites (bytes.map (Event.sent port)) = [] := by
  apply driverWrites_of_noWrite
  intro e he
  obtain ⟨b, -, rfl⟩ := List.mem_map.mp he
  rfl

theorem driverWrites_cons_sent (port : Port) (bytes gone : List Byte) :
    driverWrites (.uartWrite port bytes :: gone.map (Event.sent port)) = [bytes] :=
  congrArg (bytes :: ·) (driverWrites_map_sent port gone)

theorem HSSerial.writeBuf_log (env : Env) (b : Buffer) (s : HSSerial) (io : Io) :
    let r := (HSSerial.iserial env).writeBuf b (s, io)
    ∃ gone : List Byte, r.1.2.log =
        io.log ++ .uartWrite s.hs (env.takes b.bytes) :: gone.map (Event.sent s.hs) ∧
      r.2 = (env.takes b.bytes).length := by
  obtain ⟨gone, hlog, hcount⟩ := uartWriteBytes_log env s.hs b.bytes io
  simp only [iserial, pass, HardwareSerial.write]
  split
  · next hwrite =>
    rw [hwrite] at hlog hcount
    exact ⟨gone, hlog, hcount⟩
  · next hwrite =>
    rw [hwrite] at hlog hcount
    exact ⟨gone, hlog, hcount⟩

theorem IDFSerial.writeBuf_log (pf : Platform) (env : Env) {b : Buffer}
    (hb : ¬ (b.isNull ∨ b.size = 0)) (s : IDFSerial) (io : Io) :
    let r := (IDFSerial.iserial pf env).writeBuf b (s, io)
    ∃ gone : List Byte, r.1.2.log =
        io.log ++ .uartWrite s.port (env.takes b.bytes) :: gone.map (Event.sent s.port) ∧
      r.2 = (env.takes b.bytes).length := by
  obtain ⟨gone, hlog, hcount⟩ := uartWriteBytes_log env s.port b.bytes io
  simp only [iserial, writeBuf, if_neg hb]
  split
  · next hwrite =>
    rw [hwrite] at hlog hcount
    exact ⟨gone, hlog, hcount⟩
  · next hwrite =>
    rw [hwrite] at hlog hcount
    exact ⟨gone, hlog, hcount⟩

theorem HSSerial.handsOver (env : Env) : (HSSerial.iserial env).HandsOver env where
  write_byte := HSSerial.write_byte env
  writeBuf := by
    rintro b ⟨s, io⟩ -
    obtain ⟨gone, hlog, hcount⟩ := HSSerial.writeBuf_log env b s io
    exact ⟨hcount, _, hlog, driverWrites_cons_sent ..⟩

theorem IDFSerial.handsOver (pf : Platform) (env : Env) :
    (IDFSerial.iserial pf env).HandsOver env where
  write_byte := IDFSerial.write_byte pf env
  writeBuf := by
    rintro b ⟨s, io⟩ hb
    obtain ⟨gone, hlog, hcount⟩ := IDFSerial.writeBuf_log pf env hb s io
    exact ⟨hcount, _, hlog, driverWrites_cons_sent ..⟩

section DirControlled

open UnitSIT3088

variable {α : Type} (pf : Platform) {env : Env} (unit : RS485Unit) {base : ISerial (α × Io)}

theorem driverWrites_setTransmit (level : Bool) :
    driverWrites (setTransmit pf env unit level) = [] := by
  apply driverWrites_of_noWrite
  intro e he
  unfold setTransmit at he
  split at he
  · split at he
    · cases he
    · rw [List.mem_singleton.mp he]
      rfl
  · cases he

/-- A decorator hands over what the backend under it does. -/
theorem dirControlled_handsOver (h : base.HandsOver env) (hbus : base.OnBus env) :
    (dirControlled pf env unit base).HandsOver env where
  write_byte := dirControlled_write_byte
  writeBuf := by
    rintro b ⟨s, io⟩ hb
    let raised : α × Io := (s, io.emit (setTransmit pf env unit true))
    obtain ⟨hcount, events, hlog, hwrites⟩ := h.writeBuf b raised hb
    obtain ⟨waited, hlog', hquiet, -⟩ := hbus.quiet.flush (base.writeBuf b raised).1
    have hnone : driverWrites waited = [] :=
      driverWrites_of_noWrite fun e he => (hquiet e he).2
    simp only [dirControlled, dirControlledWrite, if_neg hb]
    refine ⟨hcount, setTransmit pf env unit true ++ events ++ waited ++
      setTransmit pf env unit false, ?_, ?_⟩
    · rw [Io.emit_log, hlog', hlog]
      simp [raised]
    · simp [driverWrites_setTransmit, hwrites, hnone]

/-- Driving the pin puts no byte anywhere. -/
theorem setTransmit_extends (level : Bool) (io : Io) :
    io.Extends (fun _ => True) (io.emit (setTransmit pf env unit level)) := by
  refine ⟨setTransmit pf env unit level, rfl, fun _ _ => trivial, ?_⟩
  unfold setTransmit
  split
  · split <;> simp [Event.departed, Event.accepted]
  · simp

theorem dirControlledWrite_extends (h : base.OnBus env) (b : Buffer) (s : α × Io) :
    s.2.Extends (fun _ => True) (dirControlledWrite pf env unit base b s).1.2 := by
  obtain ⟨s, io⟩ := s
  let raised : α × Io := (s, io.emit (setTransmit pf env unit true))
  have hraise : io.Extends (fun _ => True) raised.2 := setTransmit_extends pf unit true io
  have hwrite : raised.2.Extends (fun _ => True) (base.writeBuf b raised).1.2 :=
    (h.write b raised).mono fun _ _ => trivial
  have hflush : (base.writeBuf b raised).1.2.Extends (fun _ => True)
      (base.flush (base.writeBuf b raised).1).2 :=
    (h.quiet.flush _).mono fun _ _ => trivial
  unfold dirControlledWrite
  dsimp only
  split
  · exact .refl io
  · exact hraise.trans (hwrite.trans (hflush.trans (setTransmit_extends pf unit false _)))

end DirControlled

/-- A UART backend, plain or decorated: its writes go to the driver, it accounts for every byte,
and `flush(true)` waits for the transmitter. -/
structure ISerial.OnUart {α : Type} (env : Env) (serial : ISerial (α × Io)) : Prop
    extends serial.HandsOver env where
  quiet : serial.QuietSteps fun s t : α × Io => s.2.Extends Event.Quiet t.2
  write : ∀ b (s : α × Io), s.2.Extends (fun _ => True) (serial.writeBuf b s).1.2
  flushTx_idle : env.waitTxDone = true → ∀ s, (serial.flushTx true s).2.uart.tx = []

theorem HSSerial.onUart (env : Env) : (HSSerial.iserial env).OnUart env :=
  { HSSerial.handsOver env with
    quiet := (HSSerial.onBus env).quiet
    write := fun b s => ((HSSerial.onBus env).write b s).mono fun _ _ => trivial
    flushTx_idle := fun hidle s => uartWaitTxDone_idle env s.1.hs s.2 hidle }

theorem IDFSerial.onUart (pf : Platform) (env : Env) : (IDFSerial.iserial pf env).OnUart env :=
  { IDFSerial.handsOver pf env with
    quiet := (IDFSerial.onBus pf env).quiet
    write := fun b s => ((IDFSerial.onBus pf env).write b s).mono fun _ _ => trivial
    flushTx_idle := fun hidle s => uartWaitTxDone_idle env s.1.port s.2 hidle }

theorem dirControlled_onUart {α : Type} (pf : Platform) {env : Env} (unit : RS485Unit)
    {base : ISerial (α × Io)} (h : base.OnUart env) (hbus : base.OnBus env) :
    (UnitSIT3088.dirControlled pf env unit base).OnUart env :=
  { dirControlled_handsOver pf unit h.toHandsOver hbus with
    quiet := UnitSIT3088.dirControlled_quietSteps hbus.quiet
    write := dirControlledWrite_extends pf unit hbus
    flushTx_idle := h.flushTx_idle }

/-- A backend that is bound to a port runs its calls on a UART backend. -/
theorem Backend.dispatch_of_port (pf : Platform) (env : Env) (units : UnitId → RS485Unit)
    {b : Backend} {port : Port} (hport : b.port = some port) :
    ∃ (α : Type) (serial : ISerial (α × Io)) (s : α), serial.OnUart env ∧
      ∀ (call : SerialCall) (io : Io),
        (b.dispatch pf env units (fun serial s => call.perform pf serial s) io).2 =
          ((call.perform pf serial (s, io)).1.2, (call.perform pf serial (s, io)).2) := by
  cases b with
  | nullSerial => cases hport
  | hs s => exact ⟨HSSerial, _, s, HSSerial.onUart env, fun _ _ => rfl⟩
  | idf s => exact ⟨IDFSerial, _, s, IDFSerial.onUart pf env, fun _ _ => rfl⟩
  | dirHS s owner =>
      exact ⟨HSSerial, _, s,
        dirControlled_onUart pf (units owner) (HSSerial.onUart env) (HSSerial.onBus env),
        fun _ _ => rfl⟩
  | dirIDF s owner =>
      exact ⟨IDFSerial, _, s,
        dirControlled_onUart pf (units owner) (IDFSerial.onUart pf env) (IDFSerial.onBus pf env),
        fun _ _ => rfl⟩

/-! ## Plain writes -/

/-- A call of one of the overloads of `write` that take no `wait`: a byte, a `uint8_t` or
`char` buffer, or a C string. -/
inductive PlainWrite
  | byte (d : Byte)
  | buf (b : Buffer)
  | chars (b : Buffer)
  | str (mem : Option (List Byte))

namespace PlainWrite

def call : PlainWrite → SerialCall
  | .byte d => .write d
  | .buf b => .writeBuf b
  | .chars b => .writeChars b
  | .str mem => .writeStr mem

/-- What the caller means to write; of a C string, what comes before the first NUL. -/
def text : PlainWrite → List Byte
  | .byte d => [d]
  | .buf b | .chars b => b.bytes
  | .str mem => (mem.getD []).takeWhile (· ≠ 0)

/-- The code takes the length of a C string first, and then that many bytes. -/
theorem bytes_strBuffer (mem : Option (List Byte)) :
    (strBuffer mem).bytes = (mem.getD []).takeWhile (· ≠ 0) := by
  cases mem with
  | none => rfl
  | some mem => exact (List.prefix_iff_eq_take.mp (List.takeWhile_prefix _)).symm

/-- A plain write is a write of a buffer with its text, without a wait. -/
theorem payload_call (pf : Platform) (write : PlainWrite) :
    ∃ b : Buffer, write.call.payload pf = some (b, false) ∧ b.bytes = write.text ∧
      write.call.writeResult = Result.count := by
  cases write with
  | byte d => exact ⟨.mem [d], rfl, rfl, rfl⟩
  | buf b => exact ⟨b, rfl, rfl, rfl⟩
  | chars b => exact ⟨b, rfl, rfl, rfl⟩
  | str mem => exact ⟨strBuffer mem, rfl, bytes_strBuffer mem, rfl⟩

end PlainWrite

/-- What becomes of a plain write of a text: the driver is handed it in one call, or not
called if it is empty, and the call returns how many bytes that accepts. -/
structure HandedOver (env : Env) (text : List Byte) (o : Outcome) : Prop where
  result : o.result = .count (env.takes text).length
  writes : driverWrites o.events = if text = [] then [] else [env.takes text]
  idle : text = [] → o.events = []

@[simp] theorem Env.takes_nil (env : Env) : env.takes [] = [] := by
  unfold Env.takes
  split <;> simp

theorem Buffer.isEmpty_iff (b : Buffer) : (b.isNull ∨ b.size = 0) ↔ b.bytes = [] := by
  cases b <;> simp [Buffer.isNull, Buffer.size, Buffer.bytes]

/-- A plain write on a UART backend. -/
theorem ISerial.HandsOver.perform {α : Type} {env : Env} {serial : ISerial (α × Io)}
    (h : serial.HandsOver env) (pf : Platform) (write : PlainWrite) (s : α) (uart : UartPort) :
    let r := write.call.perform pf serial (s, ⟨uart, []⟩)
    HandedOver env write.text ⟨r.2, r.1.2.log⟩ := by
  intro r
  obtain ⟨b, hpayload, htext, hresult⟩ := write.payload_call pf
  have hr : r = ((RS485Component.writeBuf serial b (s, ⟨uart, []⟩)).1,
      .count (RS485Component.writeBuf serial b (s, ⟨uart, []⟩)).2) := by
    rw [← hresult, ← SerialCall.written_eq_writeBuf h.write_byte hpayload]
    have hperform : write.call.perform pf serial (s, ⟨uart, []⟩) = _ :=
      SerialCall.perform_eq_written hpayload _
    simpa using hperform
  rw [hr, ← htext]
  by_cases hb : b.isNull ∨ b.size = 0
  · have hnil : b.bytes = [] := b.isEmpty_iff.mp hb
    rw [SerialCall.writeBuf_of_empty hb, hnil]
    exact ⟨by simp, by simp, fun _ => rfl⟩
  · have hne : b.bytes ≠ [] := fun hnil => hb (b.isEmpty_iff.mpr hnil)
    obtain ⟨hcount, events, hlog, hwrites⟩ := h.writeBuf b (s, ⟨uart, []⟩) hb
    have hwrite : RS485Component.writeBuf serial b (s, ⟨uart, []⟩) =
        serial.writeBuf b (s, ⟨uart, []⟩) := if_neg hb
    rw [hwrite]
    refine ⟨by rw [hcount], ?_, fun hnil => absurd hnil hne⟩
    rw [if_neg hne]
    simpa [hlog] using hwrites

/-- A plain write on a backend that is bound to a port. -/
theorem Backend.dispatch_handsOver (pf : Platform) (env : Env) (units : UnitId → RS485Unit)
    {b : Backend} {port : Port} (hport : b.port = some port) (write : PlainWrite)
    (uart : UartPort) :
    let r := b.dispatch pf env units (fun serial s => write.call.perform pf serial s) ⟨uart, []⟩
    HandedOver env write.text ⟨r.2.2, r.2.1.log⟩ := by
  obtain ⟨α, serial, s, huart, hdispatch⟩ := b.dispatch_of_port pf env units hport
  intro r
  have hr : r.2 = _ := hdispatch write.call ⟨uart, []⟩
  rw [hr]
  exact huart.toHandsOver.perform pf write s uart

/-! ## Runs -/

/-- A unit whose backend is bound to a port, as one is that has begun. -/
structure World.OnPort (w : World) (u : UnitId) (port : Port) : Prop where
  owned : w.Owned
  live : w.live u = true
  port : (w.backend u).port = some port

namespace World.OnPort

variable {pf : Platform} {w : World} {u : UnitId} {port : Port}

theorem handsOver (h : w.OnPort u port) (write : PlainWrite) (env : Env) :
    HandedOver env write.text (w.step pf ⟨.serial u write.call, env⟩).2 := by
  have hdispatch := Backend.dispatch_handsOver pf env w.units h.port write (w.ports port)
  rw [step_serial pf h.live]
  simp only [serialCall, h.port]
  exact hdispatch

/-- Its calls leave it on the port. -/
theorem step (h : w.OnPort u port) (call : SerialCall) (env : Env) :
    (w.step pf ⟨.serial u call, env⟩).1.OnPort u port where
  owned := h.owned.step pf _
  live := by
    rw [step_serial pf h.live]
    simpa [serialCall] using h.live
  port := by
    have hkeeps := ((w.backend u).dispatch_keeps pf env w.units call
      (w.io (w.backend u).port)).1
    rw [step_serial pf h.live, h.owned.backend_serialCall_self h.live]
    exact hkeeps.trans h.port

/-- Its calls write to this port and to no other. -/
theorem port_of_write (h : w.OnPort u port) {call : SerialCall} {env : Env} {p : Port}
    {bytes : List Byte}
    (hwrite : .uartWrite p bytes ∈ (w.step pf ⟨.serial u call, env⟩).2.events) : p = port := by
  have hreach : w.StepReach pf ⟨.serial u call, env⟩ (.uartWrite p bytes) :=
    step_reach pf w _ hwrite
  cases hreach with
  | line u' call' port' hop hlive hport he =>
      obtain ⟨rfl, -⟩ := Op.serial.inj hop
      have hsame : port' = port := Option.some.inj (hport.symm.trans h.port)
      exact (Option.some.inj he).trans hsame
  | dir u' owner call' hop hlive howner hdrives =>
      obtain ⟨-, -, level, accepted, heq⟩ := hdrives
      cases heq
  | drain u' ad hop => cases hop
  | setup u' hop => cases hop
  | arrive port' bytes' hop => cases hop
  | transmit port' n b hop => cases hop

end World.OnPort

/-- The calls of a unit that write a message piece by piece. -/
def writeCalls (u : UnitId) (pieces : List (PlainWrite × Env)) : List Call :=
  pieces.map fun x => ⟨.serial u x.1.call, x.2⟩

/-- The message. -/
def messageOf (pieces : List (PlainWrite × Env)) : List Byte :=
  pieces.flatMap fun x => x.1.text

/-- The number of bytes a write says it has written. -/
def Result.written : Result → ℕ
  | .count n => n
  | _ => 0

theorem World.OnPort.run {pf : Platform} {w : World} {u : UnitId} {port : Port}
    (h : w.OnPort u port) (pieces : List (PlainWrite × Env)) :
    List.Forall₂ (fun x o => HandedOver x.2 x.1.text o) pieces
      ((machine pf).outputs w (writeCalls u pieces)) := by
  induction pieces generalizing w with
  | nil => exact .nil
  | cons x pieces ih => exact .cons (h.handsOver x.1 x.2) (ih (h.step _ _))

theorem World.OnPort.run_port {pf : Platform} {w : World} {u : UnitId} {port : Port}
    (h : w.OnPort u port) (pieces : List (PlainWrite × Env)) {p : Port} {bytes : List Byte}
    (hwrite : .uartWrite p bytes ∈
      ((machine pf).outputs w (writeCalls u pieces)).flatMap Outcome.events) : p = port := by
  induction pieces generalizing w with
  | nil => cases hwrite
  | cons x pieces ih =>
      rcases List.mem_append.mp hwrite with hwrite | hwrite
      · exact h.port_of_write hwrite
      · exact ih (h.step _ _) hwrite

/-- The driver calls of a run, from the texts of the writes. -/
theorem driverWrites_of_handedOver {pieces : List (PlainWrite × Env)} {outs : List Outcome}
    (h : List.Forall₂ (fun x o => HandedOver x.2 x.1.text o) pieces outs) :
    driverWrites (outs.flatMap Outcome.events) =
      pieces.flatMap fun x => if x.1.text = [] then [] else [x.2.takes x.1.text] := by
  induction h with
  | nil => rfl
  | cons hx _ ih => rw [List.flatMap_cons, driverWrites_append, hx.writes, ih, List.flatMap_cons]

/-- If the UART accepts all of every piece, it gets the message, and the results add up to
its length. -/
theorem message_of_handedOver {pieces : List (PlainWrite × Env)} {outs : List Outcome}
    (h : List.Forall₂ (fun x o => HandedOver x.2 x.1.text o) pieces outs)
    (haccepts : ∀ x ∈ pieces, x.2.takes x.1.text = x.1.text) :
    acceptedBytes (outs.flatMap Outcome.events) = messageOf pieces ∧
      (outs.map fun o => o.result.written).sum = (messageOf pieces).length := by
  induction h with
  | nil => exact ⟨rfl, rfl⟩
  | @cons x o pieces outs hx _ ih =>
      obtain ⟨htext, haccepts'⟩ := List.forall_mem_cons.mp haccepts
      obtain ⟨hbytes, hsum⟩ := ih haccepts'
      have hhead : acceptedBytes o.events = x.1.text := by
        rw [acceptedBytes_eq_flatten, hx.writes, htext]
        split
        · next hnil => rw [hnil]; rfl
        · simp
      refine ⟨?_, ?_⟩
      · rw [List.flatMap_cons, acceptedBytes_append, hhead, hbytes]
        rfl
      · have hcons : messageOf (x :: pieces) = x.1.text ++ messageOf pieces := rfl
        rw [List.map_cons, List.sum_cons, hsum, hx.result, htext, hcons, List.length_append]
        rfl

/-- **How a message is cut into writes does not matter.**  A unit of a reachable world has a
backend on a port: a `HardwareSerial` or an ESP-IDF port, plain or DIR-controlled.  Whatever
overloads it is written with, and whatever null and empty writes are between, each piece that
is not empty goes to the driver of that port in one call, which is all the driver sees; each call
returns how many bytes the driver accepted of its piece.  If that is all of every piece, the UART
gets the message and the results add up to its length.  Any other unit makes the same calls of the
driver for these pieces, and gets the same bytes across with any other cut of the message. -/
theorem cuts_do_not_matter (pf : Platform) (ports : Port → UartPort) (calls : List Call)
    (u : UnitId) (port : Port) :
    let w := (machine pf).after (World.init ports) calls
    w.live u = true → (w.backend u).port = some port →
    ∀ pieces : List (PlainWrite × Env),
    let outs := (machine pf).outputs w (writeCalls u pieces)
    List.Forall₂ (fun x o => HandedOver x.2 x.1.text o) pieces outs ∧
    driverWrites (outs.flatMap Outcome.events) =
      pieces.flatMap (fun x => if x.1.text = [] then [] else [x.2.takes x.1.text]) ∧
    (∀ p bytes, Event.uartWrite p bytes ∈ outs.flatMap Outcome.events → p = port) ∧
    ((∀ x ∈ pieces, x.2.takes x.1.text = x.1.text) →
      acceptedBytes (outs.flatMap Outcome.events) = messageOf pieces ∧
        (outs.map fun o => o.result.written).sum = (messageOf pieces).length) ∧
    ∀ (pf' : Platform) (ports' : Port → UartPort) (calls' : List Call) (u' : UnitId)
      (port' : Port),
      let w' := (machine pf').after (World.init ports') calls'
      w'.live u' = true → (w'.backend u').port = some port' →
      driverWrites (((machine pf').outputs w' (writeCalls u' pieces)).flatMap Outcome.events) =
        driverWrites (outs.flatMap Outcome.events) ∧
      ∀ pieces' : List (PlainWrite × Env), messageOf pieces' = messageOf pieces →
        (∀ x ∈ pieces, x.2.takes x.1.text = x.1.text) →
        (∀ x ∈ pieces', x.2.takes x.1.text = x.1.text) →
        acceptedBytes
            (((machine pf').outputs w' (writeCalls u' pieces')).flatMap Outcome.events) =
          acceptedBytes (outs.flatMap Outcome.events) := by
  intro w hlive hport pieces outs
  have hunit : w.OnPort u port := ⟨owned_after pf ports calls, hlive, hport⟩
  have hrun : List.Forall₂ (fun x o => HandedOver x.2 x.1.text o) pieces outs :=
    hunit.run pieces
  refine ⟨hrun, driverWrites_of_handedOver hrun, fun _ _ hwrite => hunit.run_port pieces hwrite,
    message_of_handedOver hrun, ?_⟩
  intro pf' ports' calls' u' port' w' hlive' hport'
  have hunit' : w'.OnPort u' port' := ⟨owned_after pf' ports' calls', hlive', hport'⟩
  refine ⟨?_, ?_⟩
  · rw [driverWrites_of_handedOver (hunit'.run pieces), driverWrites_of_handedOver hrun]
  · intro pieces' hmessage haccepts haccepts'
    rw [(message_of_handedOver (hunit'.run pieces') haccepts').1,
      (message_of_handedOver hrun haccepts).1, hmessage]

/-- Three bytes in four writes, one of them null. -/
def samplePieces : List (PlainWrite × Env) :=
  [(.byte 0x41, .calm), (.buf (.null 7), .calm), (.chars (.mem [0x54, 0x0D]), .calm),
    (.str (some [0, 0x0A]), .calm)]

/-- A unit with a DIR pin sends them in two calls of the driver. -/
theorem sample_cut :
    let outs := (machine .esp32).outputs
      ((machine .esp32).after (World.init samplePorts) sampleRun) (writeCalls 0 samplePieces)
    acceptedBytes (outs.flatMap Outcome.events) = [0x41, 0x54, 0x0D] ∧
      driverWrites (outs.flatMap Outcome.events) = [[0x41], [0x54, 0x0D]] := by
  obtain ⟨-, hcalls, -, hmessage, -⟩ := cuts_do_not_matter .esp32 samplePorts sampleRun 0 1
    (by decide) (by decide) samplePieces
  have haccepts : ∀ x ∈ samplePieces, x.2.takes x.1.text = x.1.text := by
    simp [samplePieces, Env.takes, Env.calm, PlainWrite.text, Buffer.bytes]
  exact ⟨(hmessage haccepts).1, hcalls⟩

end RS485
