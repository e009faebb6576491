import RS485.Binding

/-!
# What goes over the bus

Every byte the UART driver accepts leaves the port once, in order, or is still pending.
`Io.Extends` says so of the events a piece of an operation adds to the log, and each function
of the two UART backends is shown to respect it (`ISerial.OnBus`).

From this comes what a call of a unit with a DIR decorator can do to the bus.  Either it hands
nothing to the UART and leaves the DIR pin alone (`serialCall_quiet`), or it is a write of a
non-empty buffer, and then everything that leaves the port does so between the raising and the
lowering of the pin (`serialCall_transmits`).
-/

namespace RS485

open Function

/-! ## Events -/

namespace Event

def isGpio : Event → Bool
  | .gpioConfig _ _ | .gpioSetLevel _ _ _ => true
  | _ => false

def isWrite : Event → Bool
  | .uartWrite _ _ => true
  | _ => false

/-- The bytes the UART driver accepts. -/
def accepted : Event → List Byte
  | .uartWrite _ bytes => bytes
  | _ => []

/-- The bytes that leave a port. -/
def departed : Event → List Byte
  | .sent _ b => [b]
  | _ => []

/-- Not a call of the GPIO driver. -/
def NoGpio (e : Event) : Prop := e.isGpio = false

/-- Neither a call of the GPIO driver nor a write to the UART. -/
def Quiet (e : Event) : Prop := e.isGpio = false ∧ e.isWrite = false

theorem Quiet.noGpio {e : Event} (h : e.Quiet) : e.NoGpio := h.1

theorem Quiet.accepted_eq {e : Event} (h : e.Quiet) : e.accepted = [] := by
  cases e with
  | uartWrite port bytes => cases h.2
  | _ => rfl

end Event

def acceptedBytes (events : List Event) : List Byte := events.flatMap Event.accepted

def sentBytes (events : List Event) : List Byte := events.flatMap Event.departed

section Bytes

@[simp] theorem acceptedBytes_nil : acceptedBytes [] = [] := rfl

@[simp] theorem acceptedBytes_cons (e : Event) (es : List Event) :
    acceptedBytes (e :: es) = e.accepted ++ acceptedBytes es := by
  simp [acceptedBytes]

@[simp] theorem acceptedBytes_append (es es' : List Event) :
    acceptedBytes (es ++ es') = acceptedBytes es ++ acceptedBytes es' := by
  simp [acceptedBytes]

@[simp] theorem sentBytes_nil : sentBytes [] = [] := rfl

@[simp] theorem sentBytes_cons (e : Event) (es : List Event) :
    sentBytes (e :: es) = e.departed ++ sentBytes es := by
  simp [sentBytes]

@[simp] theorem sentBytes_append (es es' : List Event) :
    sentBytes (es ++ es') = sentBytes es ++ sentBytes es' := by
  simp [sentBytes]

theorem acceptedBytes_of_quiet {es : List Event} (h : ∀ e ∈ es, e.Quiet) :
    acceptedBytes es = [] :=
  List.flatMap_eq_nil_iff.mpr fun e he => (h e he).accepted_eq

theorem sentBytes_map_sent (port : Port) (bs : List Byte) :
    sentBytes (bs.map (Event.sent port)) = bs := by
  induction bs with
  | nil => rfl
  | cons b bs ih => simp [ih, Event.departed]

theorem acceptedBytes_map_sent (port : Port) (bs : List Byte) :
    acceptedBytes (bs.map (Event.sent port)) = [] := by
  induction bs with
  | nil => rfl
  | cons b bs ih => simp [ih, Event.accepted]

@[simp] theorem acceptedBytes_transmit (io : Io) (port : Port) (n ringUsed : ℕ) :
    acceptedBytes (io.transmit port n ringUsed).log = acceptedBytes io.log := by
  rw [Io.transmit, acceptedBytes_append, acceptedBytes_map_sent, List.append_nil]

end Bytes

/-! ## Levels of a pin -/

/-- The level a call drives the pin to. -/
def Event.levelOf (pin : Pin) : Event → Option Bool
  | .gpioSetLevel p level _ => if p = pin then some level else none
  | _ => none

/-- The level the pin was last driven to. -/
def lastLevel (pin : Pin) (log : List Event) : Option Bool :=
  (log.filterMap (Event.levelOf pin)).getLast?

theorem lastLevel_append (pin : Pin) (log events : List Event) :
    lastLevel pin (log ++ events) = (lastLevel pin events).or (lastLevel pin log) := by
  simp [lastLevel, List.getLast?_append]

theorem lastLevel_of_noGpio {events : List Event} (h : ∀ e ∈ events, e.NoGpio) (pin : Pin) :
    lastLevel pin events = none := by
  have hnone : events.filterMap (Event.levelOf pin) = [] := by
    refine List.filterMap_eq_nil_iff.mpr fun e he => ?_
    have hgpio := h e he
    cases e with
    | gpioSetLevel p level ok => cases hgpio
    | _ => rfl
  rw [lastLevel, hnone]
  rfl

theorem notMem_of_noGpio {events : List Event} (h : ∀ e ∈ events, e.NoGpio) {e : Event}
    (hgpio : e.isGpio = true) : e ∉ events := by
  intro he
  have hno : e.isGpio = false := h e he
  rw [hno] at hgpio
  cases hgpio

/-! ## Bytes in and out of a port -/

/-- The log grows by events that satisfy `P`, and what has left the port and what is pending
is what was pending and what was accepted. -/
def Io.Extends (P : Event → Prop) (io io' : Io) : Prop :=
  ∃ events, io'.log = io.log ++ events ∧ (∀ e ∈ events, P e) ∧
    sentBytes events ++ io'.uart.tx = io.uart.tx ++ acceptedBytes events

namespace Io.Extends

variable {P Q : Event → Prop} {io io' io'' : Io}

theorem refl (io : Io) : io.Extends P io := ⟨[], by simp, by simp, by simp⟩

theorem trans (h : io.Extends P io') (h' : io'.Extends P io'') : io.Extends P io'' := by
  obtain ⟨es, hlog, hP, hbytes⟩ := h
  obtain ⟨es', hlog', hP', hbytes'⟩ := h'
  refine ⟨es ++ es', by rw [hlog', hlog, List.append_assoc], ?_, ?_⟩
  · intro e he
    rcases List.mem_append.mp he with he | he
    · exact hP e he
    · exact hP' e he
  · rw [sentBytes_append, acceptedBytes_append, List.append_assoc, hbytes', ← List.append_assoc,
      hbytes, List.append_assoc]

theorem mono (h : io.Extends P io') (hPQ : ∀ e, P e → Q e) : io.Extends Q io' := by
  obtain ⟨es, hlog, hP, hbytes⟩ := h
  exact ⟨es, hlog, fun e he => hPQ e (hP e he), hbytes⟩

/-- An idle transmitter stays idle while nothing is written. -/
theorem idle (h : io.Extends Event.Quiet io') (hidle : io.uart.tx = []) :
    io'.uart.tx = [] := by
  obtain ⟨es, hlog, hquiet, hbytes⟩ := h
  rw [hidle, acceptedBytes_of_quiet hquiet] at hbytes
  exact (List.append_eq_nil_iff.mp hbytes).2

theorem transmit (io : Io) (hsent : ∀ port b, P (.sent port b)) (port : Port) (n ringUsed : ℕ) :
    io.Extends P (io.transmit port n ringUsed) := by
  refine ⟨(io.uart.tx.take n).map (Event.sent port), rfl, ?_, ?_⟩
  · intro e he
    obtain ⟨b, -, rfl⟩ := List.mem_map.mp he
    exact hsent port b
  · rw [sentBytes_map_sent, acceptedBytes_map_sent, List.append_nil]
    exact List.take_append_drop n io.uart.tx

end Io.Extends

/-! ### The driver calls -/

section Driver

open Event

variable (env : Env) (port : Port) (io : Io)

theorem quiet_sent (port : Port) (b : Byte) : Quiet (.sent port b) := ⟨rfl, rfl⟩

theorem Io.emit_extends (event : Event) (hquiet : event.Quiet) (hdeparted : event.departed = []) :
    io.Extends Quiet (io.emit [event]) :=
  ⟨[event], rfl, by simpa using hquiet, by simp [hdeparted, hquiet.accepted_eq]⟩

theorem uartReadBytes_extends (length wait : ℕ) :
    io.Extends Quiet (uartReadBytes env port length wait io).1 :=
  ⟨[.uartRead port length wait, .received port env.arrivals], rfl, by simp [Quiet, isGpio, isWrite],
    by simp [uartReadBytes, departed, accepted]⟩

theorem uartWriteBytes_extends (bytes : List Byte) :
    io.Extends NoGpio (uartWriteBytes env port bytes io).1 := by
  unfold uartWriteBytes
  split
  · exact ⟨[.uartWrite port []], rfl, by simp [NoGpio, isGpio], by simp [departed, accepted]⟩
  · next limit _ =>
    refine Io.Extends.trans ?_ (Io.Extends.transmit _ (fun _ _ => rfl) port _ _)
    exact ⟨[.uartWrite port (bytes.take limit)], rfl, by simp [NoGpio, isGpio],
      by simp [departed, accepted]⟩

theorem uartWaitTxDone_extends : io.Extends Quiet (uartWaitTxDone env port io) := by
  have hwait := io.emit_extends (.waitTxDone port) ⟨rfl, rfl⟩ rfl
  unfold uartWaitTxDone
  dsimp only
  split
  · exact hwait.trans (Io.Extends.transmit _ quiet_sent port _ _)
  · exact hwait

theorem uartWaitTxDone_idle (hidle : env.waitTxDone = true) :
    (uartWaitTxDone env port io).uart.tx = [] := by
  simp [uartWaitTxDone, hidle, Io.transmit]

theorem uartFlushInput_extends : io.Extends Quiet (uartFlushInput env port io) := by
  refine ⟨[.flushInput port], ?_, by simp [Quiet, isGpio, isWrite], ?_⟩ <;>
    unfold uartFlushInput <;> dsimp only <;> split <;> simp [departed, accepted]

end Driver

/-! ### The drain loop -/

theorem adapterFlushRX_extends (port : Port) (io : Io) :
    io.Extends Event.Quiet (adapterFlushRX port io) :=
  ⟨[.flushRX port], rfl, by simp [Event.Quiet, Event.isGpio, Event.isWrite],
    by simp [adapterFlushRX, Event.departed, Event.accepted]⟩

theorem World.drainLoop_extends (env : Env) (port : Port) (fuel i elapsed : ℕ) (io : Io) :
    io.Extends Event.Quiet (World.drainLoop env port fuel i elapsed io) := by
  induction fuel generalizing i elapsed io with
  | zero => exact .refl _
  | succ fuel ih =>
      unfold World.drainLoop
      split
      · exact .refl _
      · refine (adapterFlushRX_extends port io).trans (Io.Extends.trans ?_ (ih _ _ _))
        exact ⟨[.delay 1, .received port (env.delayArrivals i)], rfl,
          by simp [Event.Quiet, Event.isGpio, Event.isWrite],
          by simp [Event.departed, Event.accepted]⟩

theorem World.drained_extends (env : Env) (w : World) (flushRX : Bool) (port : Port) :
    (w.io (some port)).Extends Event.Quiet (w.drained env flushRX port) := by
  unfold World.drained
  split
  · exact World.drainLoop_extends ..
  · exact .refl _

/-! ### The backends -/

/-- The functions of a UART backend account for every byte, none touches the GPIO driver, only
the writes hand bytes to the UART, and `flush` waits for the transmitter. -/
structure ISerial.OnBus {α : Type} (env : Env) (base : ISerial (α × Io)) : Prop where
  quiet : base.QuietSteps fun s t : α × Io => s.2.Extends Event.Quiet t.2
  write : ∀ b (s : α × Io), s.2.Extends Event.NoGpio (base.writeBuf b s).1.2
  flush_idle : env.waitTxDone = true → ∀ s, (base.flush s).2.uart.tx = []

theorem HSSerial.onBus (env : Env) : (HSSerial.iserial env).OnBus env where
  quiet :=
    { available := fun s => s.2.emit_extends _ ⟨rfl, rfl⟩ rfl
      availableForWrite := fun s => s.2.emit_extends _ ⟨rfl, rfl⟩ rfl
      peek := fun s => by
        simp only [iserial, pass, HardwareSerial.peek]
        split <;> exact .refl _
      read := fun s => by
        have hread := uartReadBytes_extends env s.1.hs s.2 1 0
        simp only [iserial, pass, HardwareSerial.read]
        split <;> simp_all
      readBuf := fun d s => by
        have hread := uartReadBytes_extends env s.1.hs s.2 d.size 0
        simp only [iserial, pass, HardwareSerial.readBuf]
        split <;> simp_all
      readBytes := fun d s => by
        have hread := uartReadBytes_extends env s.1.hs s.2 d.size s.2.uart.timeout
        simp only [iserial, pass, HardwareSerial.readBuf]
        split <;> simp_all
      readBytesTimeout := fun d ms s => by
        have hread := uartReadBytes_extends env s.1.hs
          (HardwareSerial.setTimeout ms.toNat s.2) d.size ms.toNat
        simp only [iserial, readBytesTimeout, HardwareSerial.readBuf]
        split <;> simp_all [Io.Extends, HardwareSerial.setTimeout]
      flush := fun s => uartWaitTxDone_extends env s.1.hs s.2
      flushTx := fun txOnly s => by
        have hwait := uartWaitTxDone_extends env s.1.hs s.2
        simp only [iserial, HardwareSerial.flushTx]
        split
        · exact hwait
        · exact hwait.trans (uartFlushInput_extends env s.1.hs _)
      baudRate := fun s => s.2.emit_extends _ ⟨rfl, rfl⟩ rfl }
  write b s := by
    have hwrite := uartWriteBytes_extends env s.1.hs s.2 b.bytes
    simp only [iserial, pass, HardwareSerial.write]
    split <;> simp_all
  flush_idle hidle s := uartWaitTxDone_idle env s.1.hs s.2 hidle

theorem IDFSerial.readWithWait_extends (env : Env) (ticks : ℕ) (d : Destination)
    (s : IDFSerial × Io) : s.2.Extends Event.Quiet (readWithWait env ticks d s).1.2 := by
  obtain ⟨s, io⟩ := s
  have hread := uartReadBytes_extends env s.port io (d.size - s.held) ticks
  simp only [readWithWait]
  split
  · exact .refl _
  · split
    · exact .refl _
    · split <;> simp_all

theorem IDFSerial.onBus (pf : Platform) (env : Env) : (IDFSerial.iserial pf env).OnBus env where
  quiet :=
    { available := fun ⟨s, io⟩ => by
        have hlen := io.emit_extends (.bufferedDataLen s.port) ⟨rfl, rfl⟩ rfl
        simp only [iserial, available, uartGetBufferedDataLen]
        split <;> simp_all
      availableForWrite := fun ⟨s, io⟩ => by
        have hsize := io.emit_extends (.txBufferFreeSize s.port) ⟨rfl, rfl⟩ rfl
        simp only [iserial, availableForWrite, uartGetTxBufferFreeSize]
        split
        · split
          · simp_all
          · split <;> simp_all
        · simp_all
      peek := fun ⟨s, io⟩ => by
        have hread := uartReadBytes_extends env s.port io 1 0
        simp only [iserial, peek]
        split
        · exact .refl _
        · split <;> simp_all
      read := fun ⟨s, io⟩ => by
        have hread := uartReadBytes_extends env s.port io 1 0
        simp only [iserial, read]
        split
        · exact .refl _
        · split <;> simp_all
      readBuf := readWithWait_extends env 0
      readBytes := fun d s => readWithWait_extends env _ d s
      readBytesTimeout := fun d ms => readWithWait_extends env _ d
      flush := fun ⟨s, io⟩ => uartWaitTxDone_extends env s.port io
      flushTx := fun txOnly ⟨s, io⟩ => by
        have hwait := uartWaitTxDone_extends env s.port io
        simp only [iserial, flushTx]
        split
        · exact hwait
        · exact hwait.trans (uartFlushInput_extends env s.port _)
      baudRate := fun ⟨s, io⟩ => by
        have hbaud := io.emit_extends (.getBaudrate s.port) ⟨rfl, rfl⟩ rfl
        simp only [iserial, baudRate, uartGetBaudrate]
        split <;> simp_all }
  write b s := by
    obtain ⟨s, io⟩ := s
    have hwrite := uartWriteBytes_extends env s.port io b.bytes
    simp only [iserial, writeBuf]
    split
    · exact .refl _
    · split <;> simp_all
  flush_idle hidle s := uartWaitTxDone_idle env s.1.port s.2 hidle

/-! ## The decorators -/

/-- The events of a transmission: first `raise`, then everything pending and everything
accepted leaves the port, then `lower`, and nothing is handed over or sent after that. -/
def Transmission (raise lower : List Event) (pending : List Byte) (events : List Event) : Prop :=
  ∃ mid tail, events = raise ++ mid ++ lower ++ tail ∧
    (∀ e ∈ mid, e.NoGpio) ∧ (∀ e ∈ tail, e.Quiet) ∧
    sentBytes mid = pending ++ acceptedBytes mid ∧ sentBytes tail = []

section DirControlled

open UnitSIT3088

variable {α : Type} (pf : Platform) {env : Env} (unit : RS485Unit) {base : ISerial (α × Io)}

theorem dirControlledWrite_transmission (h : base.OnBus env) (hidle : env.waitTxDone = true)
    {b : Buffer} (hb : ¬ (b.isNull ∨ b.size = 0)) (s : α) (io : Io) :
    ∃ mid, (dirControlledWrite pf env unit base b (s, io)).1.2.log =
        io.log ++ (setTransmit pf env unit true ++ mid ++ setTransmit pf env unit false) ∧
      (∀ e ∈ mid, e.NoGpio) ∧ sentBytes mid = io.uart.tx ++ acceptedBytes mid ∧
      (dirControlledWrite pf env unit base b (s, io)).1.2.uart.tx = [] := by
  let raised : α × Io := (s, io.emit (setTransmit pf env unit true))
  obtain ⟨mid, hlog, hmid, hbytes⟩ :=
    (h.write b raised).trans ((h.quiet.flush _).mono fun _ => Event.Quiet.noGpio)
  have htx := h.flush_idle hidle (base.writeBuf b raised).1
  refine ⟨mid, ?_, hmid, ?_, ?_⟩
  · simp only [dirControlledWrite, if_neg hb, Io.emit_log]
    rw [hlog]
    simp [raised]
  · simpa [htx, raised] using hbytes
  · simpa only [dirControlledWrite, if_neg hb, Io.emit_uart] using htx

/-- A write of a non-empty buffer through a decorator is a transmission. -/
theorem dirControlled_send_transmission (h : base.OnBus env) (hidle : env.waitTxDone = true)
    {b : Buffer} (hb : ¬ (b.isNull ∨ b.size = 0)) (wait : Bool) (s : α) (io : Io) :
    let io' := (SerialCall.send (dirControlled pf env unit base) b wait (s, io)).2
    (∃ events, io'.log = io.log ++ events ∧
      Transmission (setTransmit pf env unit true) (setTransmit pf env unit false)
        io.uart.tx events) ∧ io'.uart.tx = [] := by
  obtain ⟨mid, hlog, hmid, hbytes, htx⟩ :=
    dirControlledWrite_transmission pf unit h hidle hb s io
  have hwrite : RS485Component.writeBuf (dirControlled pf env unit base) b (s, io) =
      dirControlledWrite pf env unit base b (s, io) := if_neg hb
  have hunwaited : ∀ io' : Io, io' = (dirControlledWrite pf env unit base b (s, io)).1.2 →
      (∃ events, io'.log = io.log ++ events ∧
        Transmission (setTransmit pf env unit true) (setTransmit pf env unit false)
          io.uart.tx events) ∧ io'.uart.tx = [] := by
    rintro _ rfl
    exact ⟨⟨_, hlog, mid, [], by simp, hmid, by simp, hbytes, rfl⟩, htx⟩
  simp only [SerialCall.send, RS485Component.writeWaiting, hwrite]
  split
  · split
    · -- the wait comes when the pin is low again, and finds the transmitter idle
      obtain ⟨tail, hlog', htail, hbytes'⟩ :=
        h.quiet.flushTx true (dirControlledWrite pf env unit base b (s, io)).1
      rw [htx, acceptedBytes_of_quiet htail, List.append_nil, List.append_eq_nil_iff] at hbytes'
      exact ⟨⟨_, by rw [← List.append_assoc, ← hlog]; exact hlog', mid, tail, rfl, hmid, htail,
        hbytes, hbytes'.1⟩, hbytes'.2⟩
    · exact hunwaited _ rfl
  · exact hunwaited _ rfl

variable (env) in
/-- A backend with an owner runs its calls through a decorator over a UART backend. -/
theorem Backend.dispatch_of_owner {b : Backend} {u : UnitId} (hb : b.owner = some u) :
    ∃ port, b.port = some port ∧
      ∃ (α : Type) (base : ISerial (α × Io)) (s : α), base.OnBus env ∧
        ∀ (units : UnitId → RS485Unit) (call : SerialCall) (io : Io),
          (b.dispatch pf env units (fun serial s => call.perform pf serial s) io).2.1 =
            (call.perform pf (dirControlled pf env (units u) base) (s, io)).1.2 := by
  cases b with
  | nullSerial => cases hb
  | hs s => cases hb
  | idf s => cases hb
  | dirHS s owner =>
      cases hb
      exact ⟨s.hs, rfl, HSSerial, HSSerial.iserial env, s, HSSerial.onBus env,
        fun _ _ _ => rfl⟩
  | dirIDF s owner =>
      cases hb
      exact ⟨s.port, rfl, IDFSerial, IDFSerial.iserial pf env, s, IDFSerial.onBus pf env,
        fun _ _ _ => rfl⟩

end DirControlled

/-! ## Calls of a unit -/

/-- The buffer a call writes, if there is anything in it. -/
def SerialCall.writes (pf : Platform) (call : SerialCall) : Prop :=
  ∃ b wait, call.payload pf = some (b, wait) ∧ ¬ (b.isNull ∨ b.size = 0)

namespace World

variable (pf : Platform) (env : Env) {w : World} {u : UnitId} (call : SerialCall)

theorem serialCall_of_null (hb : w.backend u = .nullSerial) :
    (w.serialCall pf env u call).1.ports = w.ports ∧
      (w.serialCall pf env u call).2.events = [] := by
  have hdispatch : (Backend.nullSerial.dispatch pf env w.units
      (fun serial s => call.perform pf serial s) (w.io none)).2.1 = w.io none :=
    NullSerial.perform_fst pf call _
  simp only [serialCall, hb, Backend.port, hdispatch]
  exact ⟨by simp [storePort], rfl⟩

variable {pf env call}

/-- **A call that writes nothing** leaves the DIR pin alone, hands nothing to the UART, and
keeps idle transmitters idle. -/
theorem serialCall_quiet (hu : w.Bound u) (hcall : ¬ call.writes pf) :
    (∀ e ∈ (w.serialCall pf env u call).2.events, e.Quiet) ∧
      ∀ p, (w.ports p).tx = [] → ((w.serialCall pf env u call).1.ports p).tx = [] := by
  rcases hu with hnull | howner
  · obtain ⟨hports, hevents⟩ := serialCall_of_null pf env call hnull
    rw [hports, hevents]
    exact ⟨by simp, fun p hp => hp⟩
  · obtain ⟨port, hport, α, base, s, hbus, hdispatch⟩ :=
      Backend.dispatch_of_owner pf env howner
    have hquiet : (w.io (some port)).Extends Event.Quiet
        (call.perform pf (UnitSIT3088.dirControlled pf env (w.units u) base)
          (s, w.io (some port))).1.2 := by
      cases hpayload : call.payload pf with
      | none =>
          exact call.perform_quiet (UnitSIT3088.dirControlled_quietSteps hbus.quiet) hpayload _
      | some p =>
          obtain ⟨b, wait⟩ := p
          have hb : b.isNull ∨ b.size = 0 := by
            by_contra hb
            exact hcall ⟨b, wait, hpayload, hb⟩
          rw [SerialCall.perform_of_payload UnitSIT3088.dirControlled_write_byte hpayload]
          unfold SerialCall.send RS485Component.writeWaiting
          rw [SerialCall.writeBuf_of_empty hb]
          simpa using Io.Extends.refl _
    obtain ⟨events, hlog, hevents, -⟩ := id hquiet
    have hidle := hquiet.idle
    simp only [serialCall, hport, hdispatch]
    refine ⟨?_, fun p hp => ?_⟩
    · rw [hlog]
      simpa [io] using hevents
    · by_cases hpp : p = port
      · subst hpp
        simpa using hidle hp
      · simpa [hpp] using hp

/-- **A call that writes** something is a transmission: the captured pin of the unit is up
while the bytes leave the port of its backend. -/
theorem serialCall_transmits (hu : (w.backend u).owner = some u) (hidle : env.waitTxDone = true)
    (hcall : call.writes pf) :
    ∃ port, (w.backend u).port = some port ∧
      Transmission (UnitSIT3088.setTransmit pf env (w.units u) true)
        (UnitSIT3088.setTransmit pf env (w.units u) false) (w.ports port).tx
        (w.serialCall pf env u call).2.events ∧
      ∃ uart : UartPort, uart.tx = [] ∧
        (w.serialCall pf env u call).1.ports = Function.update w.ports port uart := by
  obtain ⟨port, hport, α, base, s, hbus, hdispatch⟩ :=
    Backend.dispatch_of_owner pf env hu
  obtain ⟨b, wait, hpayload, hb⟩ := hcall
  obtain ⟨⟨events, hlog, htransmission⟩, htx⟩ := dirControlled_send_transmission
    pf (w.units u) hbus hidle hb wait s (w.io (some port))
  rw [← SerialCall.perform_of_payload UnitSIT3088.dirControlled_write_byte hpayload,
    ← hdispatch w.units] at hlog htx
  refine ⟨port, hport, ?_, _, htx, ?_⟩
  · simp only [serialCall, hport]
    rw [hlog]
    simpa [io] using htransmission
  · simp [serialCall, hport]

end World

end RS485
