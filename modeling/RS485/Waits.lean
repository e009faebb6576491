import RS485.Emission
import RS485.Input

/-!
# What a read asks the driver for

A driver call that reads may block, and it fills a buffer.  How long it may block and how much
it may fill is for the caller to say, or else for the backend: a `HardwareSerial` has a timeout
of its own, which belongs to the port and is shared by all units on it, and an `IDFSerial` keeps
to the one it was built with.

`HSSerial::readBytes` with a timeout overwrites that of the `HardwareSerial` and puts it back,
so it has to be shown that no call ever sees the timeout of another.  `Settled` is the invariant
of the run.
-/

namespace RS485

open Function

/-! ## Requests -/

/-- What a call may ask the driver for: at most so many bytes, and how long to wait for them.
A read that names no timeout waits for `own`, and `given` is what a timeout comes to. -/
def SerialCall.asked (own : ℕ) (given : BitVec 32 → ℕ) : SerialCall → Option (ℕ × ℕ)
  | .peek | .read => some (1, 0)
  | .readBuf d => some (d.size, 0)
  | .readBytes d => some (d.size, own)
  | .readBytesTimeout d timeoutMs => some (d.size, given timeoutMs)
  | .readValue _ T => some (T.size, own)
  | _ => none

/-- The event is not a driver call that reads, or it is one that waits as requested and asks for
no more than requested. -/
def Event.Asks (request : Option (ℕ × ℕ)) (e : Event) : Prop :=
  ∀ port length wait, e = .uartRead port length wait →
    ∃ room, request = some (room, wait) ∧ length ≤ room

/-- What reads nothing is in order whatever the request. -/
theorem Event.Asks.of_none {e : Event} (h : e.Asks none) (request : Option (ℕ × ℕ)) :
    e.Asks request := by
  intro port length wait he
  obtain ⟨room, hroom, -⟩ := h port length wait he
  cases hroom

theorem Io.Logs.mono {P Q : Event → Prop} {io io' : Io} (h : io.Logs P io')
    (hPQ : ∀ e, P e → Q e) : io.Logs Q io' := by
  obtain ⟨events, hlog, hP⟩ := h
  exact ⟨events, hlog, fun e he => hPQ e (hP e he)⟩

section Driver

variable (env : Env) (port : Port) (io : Io) {request : Option (ℕ × ℕ)}

theorem asks_readBytes {length room : ℕ} (hroom : length ≤ room) (wait : ℕ) :
    io.Logs (Event.Asks (some (room, wait))) (uartReadBytes env port length wait io).1 := by
  refine ⟨[.uartRead port length wait, .received port env.arrivals], rfl, ?_⟩
  intro e he port' length' wait' hread
  rw [hread] at he
  simp only [List.mem_cons, Event.uartRead.injEq, reduceCtorEq, List.not_mem_nil, or_false] at he
  obtain ⟨-, rfl, rfl⟩ := he
  exact ⟨room, rfl, hroom⟩

theorem asks_writeBytes (bytes : List Byte) :
    io.Logs (Event.Asks request) (uartWriteBytes env port bytes io).1 := by
  unfold uartWriteBytes
  cases env.accepted with
  | none => exact .emit io (by simp [Event.Asks])
  | some limit =>
      have hwrite : ∀ io : Io, io.Logs (Event.Asks request)
          (io.emit [.uartWrite port (bytes.take limit)]) :=
        fun io => .emit io (by simp [Event.Asks])
      exact (hwrite _).trans (.transmit _ (by simp [Event.Asks]) _ _)

theorem asks_waitTxDone : io.Logs (Event.Asks request) (uartWaitTxDone env port io) := by
  have hwait : io.Logs (Event.Asks request) (io.emit [.waitTxDone port]) :=
    .emit io (by simp [Event.Asks])
  unfold uartWaitTxDone
  cases env.waitTxDone with
  | false => exact hwait
  | true => exact hwait.trans (.transmit _ (by simp [Event.Asks]) _ _)

theorem asks_flushInput : io.Logs (Event.Asks request) (uartFlushInput env port io) := by
  unfold uartFlushInput
  cases env.flushInput <;> exact .emit _ (by simp [Event.Asks])

end Driver

/-! ## The backends -/

/-- Each function of the backend asks the driver for what its caller wants, where a read without
a timeout waits for `own` of the state it is called in. -/
structure ISerial.AsksAsCalled {α : Type} (own : α × Io → ℕ) (given : BitVec 32 → ℕ)
    (serial : ISerial (α × Io)) : Prop where
  available : ∀ s : α × Io, s.2.Logs (Event.Asks none) (serial.available s).1.2
  availableForWrite : ∀ s : α × Io, s.2.Logs (Event.Asks none) (serial.availableForWrite s).1.2
  peek : ∀ s : α × Io, s.2.Logs (Event.Asks (some (1, 0))) (serial.peek s).1.2
  read : ∀ s : α × Io, s.2.Logs (Event.Asks (some (1, 0))) (serial.read s).1.2
  readBuf : ∀ (d : Destination) (s : α × Io),
    s.2.Logs (Event.Asks (some (d.size, 0))) (serial.readBuf d s).1.2
  readBytes : ∀ (d : Destination) (s : α × Io),
    s.2.Logs (Event.Asks (some (d.size, own s))) (serial.readBytes d s).1.2
  readBytesTimeout : ∀ (d : Destination) (ms : BitVec 32) (s : α × Io),
    s.2.Logs (Event.Asks (some (d.size, given ms))) (serial.readBytesTimeout d ms s).1.2
  flush : ∀ s : α × Io, s.2.Logs (Event.Asks none) (serial.flush s).2
  flushTx : ∀ (txOnly : Bool) (s : α × Io), s.2.Logs (Event.Asks none) (serial.flushTx txOnly s).2
  writeBuf : ∀ (b : Buffer) (s : α × Io), s.2.Logs (Event.Asks none) (serial.writeBuf b s).1.2
  baudRate : ∀ s : α × Io, s.2.Logs (Event.Asks none) (serial.baudRate s).1.2

theorem HSSerial.asks (env : Env) :
    (HSSerial.iserial env).AsksAsCalled (fun s => s.2.uart.timeout) BitVec.toNat where
  available s := .emit s.2 (by simp [Event.Asks])
  availableForWrite s := .emit s.2 (by simp [Event.Asks])
  peek s := by
    simp only [iserial, pass, HardwareSerial.peek]
    split <;> exact .refl s.2
  read s := by
    have hread := asks_readBytes env s.1.hs s.2 (Nat.le_refl 1) 0
    simp only [iserial, pass, HardwareSerial.read]
    split <;> simp_all
  readBuf d s := by
    have hread := asks_readBytes env s.1.hs s.2 (Nat.le_refl d.size) 0
    simp only [iserial, pass, HardwareSerial.readBuf]
    split <;> simp_all
  readBytes d s := by
    have hread := asks_readBytes env s.1.hs s.2 (Nat.le_refl d.size) s.2.uart.timeout
    simp only [iserial, pass, HardwareSerial.readBuf]
    split <;> simp_all
  readBytesTimeout d ms s := by
    have hread := asks_readBytes env s.1.hs (HardwareSerial.setTimeout ms.toNat s.2)
      (Nat.le_refl d.size) ms.toNat
    simp only [iserial, readBytesTimeout, HardwareSerial.readBuf]
    split <;> simp_all [Io.Logs, HardwareSerial.setTimeout]
  flush s := asks_waitTxDone env s.1.hs s.2
  flushTx txOnly s := by
    have hwait : s.2.Logs (Event.Asks none) _ := asks_waitTxDone env s.1.hs s.2
    cases txOnly with
    | true => exact hwait
    | false => exact hwait.trans (asks_flushInput env s.1.hs _)
  writeBuf b s := by
    have hwrite : s.2.Logs (Event.Asks none) _ := asks_writeBytes env s.1.hs s.2 b.bytes
    simp only [iserial, pass, HardwareSerial.write]
    split <;> simp_all
  baudRate s := .emit s.2 (by simp [Event.Asks])

namespace IDFSerial

variable (pf : Platform) (env : Env)

/-- What the byte held back does not fill is asked for. -/
theorem readWithWait_asks (ticks : ℕ) (d : Destination) (s : IDFSerial × Io) :
    s.2.Logs (Event.Asks (some (d.size, ticks))) (readWithWait env ticks d s).1.2 := by
  obtain ⟨s, io⟩ := s
  have hread := asks_readBytes env s.port io (Nat.sub_le d.size s.held) ticks
  simp only [readWithWait]
  split
  · exact .refl io
  · split
    · exact .refl io
    · split <;> simp_all

theorem asks : (iserial pf env).AsksAsCalled (fun s => ticksOf pf s.1.timeoutMs) (ticksOf pf) where
  available := by
    rintro ⟨s, io⟩
    have hlen : io.Logs (Event.Asks none) (io.emit [.bufferedDataLen s.port]) :=
      .emit io (by simp [Event.Asks])
    simp only [iserial, available, uartGetBufferedDataLen]
    split <;> simp_all
  availableForWrite := by
    rintro ⟨s, io⟩
    have hsize : io.Logs (Event.Asks none) (io.emit [.txBufferFreeSize s.port]) :=
      .emit io (by simp [Event.Asks])
    simp only [iserial, availableForWrite, uartGetTxBufferFreeSize]
    split
    · split
      · simp_all
      · split <;> simp_all
    · simp_all
  peek := by
    rintro ⟨s, io⟩
    have hread := asks_readBytes env s.port io (Nat.le_refl 1) 0
    simp only [iserial, peek]
    split
    · exact .refl io
    · split <;> simp_all
  read := by
    rintro ⟨s, io⟩
    have hread := asks_readBytes env s.port io (Nat.le_refl 1) 0
    simp only [iserial, read]
    split
    · exact .refl io
    · split <;> simp_all
  readBuf := readWithWait_asks env 0
  readBytes d s := readWithWait_asks env _ d s
  readBytesTimeout d ms s := readWithWait_asks env _ d s
  flush s := asks_waitTxDone env s.1.port s.2
  flushTx txOnly s := by
    have hwait : s.2.Logs (Event.Asks none) _ := asks_waitTxDone env s.1.port s.2
    cases txOnly with
    | true => exact hwait
    | false => exact hwait.trans (asks_flushInput env s.1.port _)
  writeBuf := by
    rintro b ⟨s, io⟩
    have hwrite : io.Logs (Event.Asks none) _ := asks_writeBytes env s.port io b.bytes
    simp only [iserial, writeBuf]
    split
    · exact .refl io
    · split <;> simp_all
  baudRate := by
    rintro ⟨s, io⟩
    have hbaud : io.Logs (Event.Asks none) (io.emit [.getBaudrate s.port]) :=
      .emit io (by simp [Event.Asks])
    simp only [iserial, baudRate, uartGetBaudrate]
    split <;> simp_all

end IDFSerial

/-- A decorator asks for nothing that its base does not. -/
theorem dirControlled_asks {α : Type} (pf : Platform) {env : Env} (unit : RS485Unit)
    {base : ISerial (α × Io)} {own : α × Io → ℕ} {given : BitVec 32 → ℕ}
    (h : base.AsksAsCalled own given) :
    (UnitSIT3088.dirControlled pf env unit base).AsksAsCalled own given :=
  { h with
    writeBuf := by
      rintro b ⟨s, io⟩
      have hlevel : ∀ level (io : Io), io.Logs (Event.Asks none)
          (io.emit (UnitSIT3088.setTransmit pf env unit level)) := by
        intro level io
        refine .emit io fun e he => ?_
        obtain ⟨-, -, level', accepted, rfl⟩ := drives_of_mem_setTransmit pf unit he
        simp [Event.Asks]
      simp only [UnitSIT3088.dirControlled, UnitSIT3088.dirControlledWrite]
      split
      · exact .refl io
      · have hwrite := h.writeBuf b (s, io.emit (UnitSIT3088.setTransmit pf env unit true))
        apply (hlevel true io).trans
        apply hwrite.trans
        apply (h.flush _).trans
        exact hlevel false _ }

/-! ## Calls -/

/-- A call asks the driver for what it is to ask for. -/
theorem ISerial.AsksAsCalled.perform {α : Type} {own : α × Io → ℕ} {given : BitVec 32 → ℕ}
    {serial : ISerial (α × Io)} (h : serial.AsksAsCalled own given)
    (hbyte : ∀ d s, serial.write d s = serial.writeBuf (.mem [d]) s) (pf : Platform)
    (call : SerialCall) (s : α × Io) :
    s.2.Logs (Event.Asks (call.asked (own s) given)) (call.perform pf serial s).1.2 := by
  cases hpayload : call.payload pf with
  | some p =>
      have hwrite : s.2.Logs (Event.Asks none) (call.perform pf serial s).1.2 :=
        SerialCall.perform_payload_steps (R := fun s t : α × Io => s.2.Logs (Event.Asks none) t.2)
          (fun s => .refl s.2) (fun h h' => h.trans h') h.writeBuf (h.flushTx true) hbyte hpayload s
      exact hwrite.mono fun e he => he.of_none _
  | none =>
      cases call <;> simp only [SerialCall.payload, reduceCtorEq] at hpayload
      case baudRate => exact h.baudRate s
      case available => exact h.available s
      case availableForWrite => exact h.availableForWrite s
      case peek => exact h.peek s
      case read => exact h.read s
      case readBuf d => exact h.readBuf d s
      case readBytes d => exact h.readBytes d s
      case readBytesTimeout d ms => exact h.readBytesTimeout d ms s
      case flush => exact h.flush s
      case flushTx txOnly => exact h.flushTx txOnly s
      case readValue le T =>
        simp only [SerialCall.perform, RS485Component.readValue_eq]
        exact h.readBytes ⟨false, T.size⟩ s

namespace Backend

/-- How long a read waits that names no timeout. -/
def ownWait (pf : Platform) (b : Backend) (uart : UartPort) : ℕ :=
  match b.idfSerial with
  | some s => IDFSerial.ticksOf pf s.timeoutMs
  | none => uart.timeout

/-- How long a read waits that names this timeout: an ESP-IDF driver counts in ticks. -/
def givenWait (pf : Platform) (b : Backend) (timeoutMs : BitVec 32) : ℕ :=
  if b.idfSerial.isSome then IDFSerial.ticksOf pf timeoutMs else timeoutMs.toNat

theorem dispatch_asks (pf : Platform) (env : Env) (units : UnitId → RS485Unit) (b : Backend)
    (call : SerialCall) (io : Io) :
    io.Logs (Event.Asks (call.asked (b.ownWait pf io.uart) (b.givenWait pf)))
      (b.dispatch pf env units (fun serial s => call.perform pf serial s) io).2.1 := by
  cases b with
  | nullSerial =>
      simp only [dispatch, NullSerial.perform_fst]
      exact .refl io
  | hs s => exact (HSSerial.asks env).perform (HSSerial.write_byte env) pf call (s, io)
  | idf s => exact (IDFSerial.asks pf env).perform (IDFSerial.write_byte pf env) pf call (s, io)
  | dirHS s owner =>
      exact (dirControlled_asks pf (units owner) (HSSerial.asks env)).perform
        UnitSIT3088.dirControlled_write_byte pf call (s, io)
  | dirIDF s owner =>
      exact (dirControlled_asks pf (units owner) (IDFSerial.asks pf env)).perform
        UnitSIT3088.dirControlled_write_byte pf call (s, io)

/-- A call leaves the timeout of an `IDFSerial` alone. -/
theorem timeoutMs_dispatch (pf : Platform) (env : Env) (units : UnitId → RS485Unit) {b : Backend}
    (call : SerialCall) (io : Io) {s' : IDFSerial}
    (hs : (b.dispatch pf env units (fun serial s => call.perform pf serial s) io).1.idfSerial =
      some s') : ∃ s, b.idfSerial = some s ∧ s'.timeoutMs = s.timeoutMs := by
  have hsome : b.idfSerial.isSome = true := by
    rw [← isSome_idfSerial_dispatch pf env units (fun serial s => call.perform pf serial s) b io,
      hs]
    rfl
  obtain ⟨s, hb⟩ := Option.isSome_iff_exists.mp hsome
  obtain ⟨serial, hserial, hdispatch⟩ := dispatch_of_idf pf env units hb
  obtain ⟨hidf, -⟩ := hdispatch call io
  rw [hs] at hidf
  have hsteps : (IDFSerial.iserial pf env).Steps fun s t => t.1.timeoutMs = s.1.timeoutMs :=
    { (IDFSerial.steps_sameButPeeked pf env).mono fun _ _ h => congrArg IDFSerial.timeoutMs h with
      availableForWrite := by
        rintro ⟨s, io⟩
        simp only [IDFSerial.iserial, IDFSerial.availableForWrite]
        split
        · split
          · rfl
          · split <;> rfl
        · rfl }
  refine ⟨s, hb, ?_⟩
  rw [Option.some.inj hidf]
  rcases hserial with rfl | ⟨unit, rfl⟩
  · exact call.perform_steps (R := fun s t : IDFSerial × Io => t.1.timeoutMs = s.1.timeoutMs)
      (fun _ => rfl) (fun h h' => h'.trans h) hsteps (IDFSerial.write_byte pf env) (s, io)
  · exact call.perform_steps (R := fun s t : IDFSerial × Io => t.1.timeoutMs = s.1.timeoutMs)
      (fun _ => rfl) (fun h h' => h'.trans h)
      (UnitSIT3088.dirControlled_steps (fun _ => rfl) (fun h h' => h'.trans h) hsteps
        fun _ _ _ => rfl)
      UnitSIT3088.dirControlled_write_byte (s, io)

end Backend

/-! ## Steps -/

/-- Operations that install no `IDFSerial` by hand but as it is built: nothing in the class sets
`_timeout_ms`. -/
def Op.installsAsBuilt : Op → Bool
  | .installSerial _ (some b) => b.idfSerial.all fun s => s.timeoutMs == 1000
  | _ => true

namespace World

variable {pf : Platform} {w : World} {c : Call}

/-- The settings of a port that belong to its line, and that opening it anew keeps. -/
def LineKept (w w' : World) (port : Port) : Prop :=
  (w'.ports port).timeout = (w.ports port).timeout ∧ (w'.ports port).baud = (w.ports port).baud

theorem lineKept_drained (env : Env) (w : World) (flushRX : Bool) (port : Port) :
    (w.io (some port)).SameSettings (w.drained env flushRX port) := by
  have hloop : ∀ fuel i elapsed (io : Io),
      io.SameSettings (drainLoop env port fuel i elapsed io) := by
    intro fuel
    induction fuel with
    | zero => exact fun _ _ _ => rfl
    | succ fuel ih =>
        intro i elapsed io
        unfold drainLoop
        split
        · rfl
        · exact Io.SameSettings.trans rfl (ih _ _ _)
  unfold drained
  split
  · exact hloop ..
  · rfl

/-- A call leaves the settings of every port alone. -/
theorem lineKept_serialCall (pf : Platform) (env : Env) (w : World) (u : UnitId)
    (call : SerialCall) (port : Port) : w.LineKept (w.serialCall pf env u call).1 port := by
  cases hbackend : (w.backend u).port with
  | none =>
      exact ⟨by simp [serialCall, hbackend, storePort], by simp [serialCall, hbackend, storePort]⟩
  | some line =>
      obtain ⟨α, held, serial, s, huart, hreads, -, hdispatch⟩ :=
        Backend.dispatch_reads pf env w.units hbackend
      obtain ⟨-, hp⟩ := hdispatch call (w.io (some line))
      have hsame : (w.io (some line)).SameSettings
          (call.perform pf serial (s, w.io (some line))).1.2 :=
        call.perform_steps (R := fun s t : α × Io => s.2.SameSettings t.2) (fun _ => rfl)
          (fun h h' => h.trans h') hreads.settings huart.write_byte (s, w.io (some line))
      by_cases hline : port = line
      · subst hline
        have huart' : (w.serialCall pf env u call).1.ports port =
            (call.perform pf serial (s, w.io (some port))).1.2.uart := by
          simp [serialCall, hbackend, hp]
        unfold LineKept
        rw [huart', hsame]
        exact ⟨rfl, rfl⟩
      · unfold LineKept
        simp [serialCall, hbackend, hline]

/-- So does every step, -/
theorem lineKept_step (pf : Platform) (w : World) (c : Call) (port : Port) :
    w.LineKept (w.step pf c).1 port := by
  have hbegun : ∀ (u : UnitId) (unit : RS485Unit) (line : Port),
      w.LineKept (begun pf c.env w u unit line) port := by
    intro u unit line
    have hsame := lineKept_drained c.env w unit.cfg.flushRX line
    unfold LineKept
    rw [begun_ports]
    by_cases hline : port = line
    · subst hline
      rw [update_self, hsame]
      exact ⟨rfl, rfl⟩
    · rw [update_of_ne hline]
      exact ⟨rfl, rfl⟩
  have heffect := step_effect pf w c
  generalize w.step pf c = r at heffect ⊢
  cases heffect with
  | rejected => exact ⟨rfl, rfl⟩
  | construct => exact ⟨rfl, rfl⟩
  | destroy => exact ⟨rfl, rfl⟩
  | move => exact ⟨by simp, by simp⟩
  | moveSelf => exact ⟨rfl, rfl⟩
  | install => exact ⟨by simp, by simp⟩
  | settings => exact ⟨rfl, rfl⟩
  | begin u hop hlive r hbegin =>
      cases hbegin with
      | unready => exact ⟨rfl, rfl⟩
      | rejected => exact ⟨rfl, rfl⟩
      | failed => exact ⟨rfl, rfl⟩
      | plain => exact hbegun ..
      | controlled => exact hbegun ..
  | call u call => exact lineKept_serialCall pf c.env w u call port
  | uartDriver line installed ring =>
      by_cases hline : port = line
      · subst hline
        exact ⟨by simp [exec], by simp [exec]⟩
      · exact ⟨by simp [exec, hline], by simp [exec, hline]⟩
  | arrive line bytes =>
      by_cases hline : port = line
      · subst hline
        exact ⟨by simp [exec], by simp [exec]⟩
      · exact ⟨by simp [exec, hline], by simp [exec, hline]⟩
  | transmit line n =>
      by_cases hline : port = line
      · subst hline
        exact ⟨by simp [exec, Io.transmit, io], by simp [exec, Io.transmit, io]⟩
      · exact ⟨by simp [exec, hline], by simp [exec, hline]⟩

/-! ## The invariant -/

/-- The timeouts as the run has begun with them: those of the ports, and of every `IDFSerial`. -/
structure Settled (start : Port → UartPort) (w : World) : Prop where
  owned : w.Owned
  line : ∀ port, (init start).LineKept w port
  asBuilt : ∀ u s, w.live u = true → (w.backend u).idfSerial = some s → s.timeoutMs = 1000

namespace Settled

variable {start : Port → UartPort}

theorem init (start : Port → UartPort) : Settled start (World.init start) where
  owned := World.owned_init start
  line _ := ⟨rfl, rfl⟩
  asBuilt u s hu := by cases hu

theorem asBuilt_step (h : Settled start w) (hbuilt : c.op.installsAsBuilt = true) {u : UnitId}
    (hu : (w.step pf c).1.live u = true) {s : IDFSerial}
    (hs : ((w.step pf c).1.backend u).idfSerial = some s) : s.timeoutMs = 1000 := by
  have hfrom := h.owned.backendFrom pf hu
  generalize (w.step pf c).1.backend u = b at hfrom hs
  cases hfrom with
  | kept hlive => exact h.asBuilt u s hlive hs
  | constructed => cases hs
  | movedOut => cases hs
  | movedIn src hop hsrc =>
      rw [Backend.idfSerial_rebind] at hs
      exact h.asBuilt src s hsrc hs
  | installed b hop => simpa [Op.installsAsBuilt, hop, hs] using hbuilt
  | begun ad =>
      rw [newBackend_idfSerial] at hs
      split at hs
      · cases hs
      · rw [← Option.some.inj hs]
  | called call hop hlive =>
      obtain ⟨s', hs', htimeout⟩ := Backend.timeoutMs_dispatch pf c.env w.units call _ hs
      rw [htimeout]
      exact h.asBuilt u s' hlive hs'

theorem step (h : Settled start w) (hbuilt : c.op.installsAsBuilt = true) :
    Settled start (w.step pf c).1 where
  owned := h.owned.step pf c
  line port := by
    obtain ⟨htimeout, hbaud⟩ := lineKept_step pf w c port
    exact ⟨htimeout.trans (h.line port).1, hbaud.trans (h.line port).2⟩
  asBuilt _ _ hu hs := h.asBuilt_step hbuilt hu hs

end Settled

/-- Only a call of a serial method reads, through the backend of its unit. -/
theorem serial_of_uartRead {port : Port} {length wait : ℕ}
    (he : .uartRead port length wait ∈ (w.step pf c).2.events) :
    ∃ u call, c.op = .serial u call ∧ w.live u = true ∧ (w.backend u).port = some port := by
  cases step_reach pf w c he with
  | line u call q hop hlive hport hline =>
      obtain rfl : port = q := Option.some.inj hline
      exact ⟨u, call, hop, hlive, hport⟩
  | dir u owner call hop hlive howner hdrives =>
      obtain ⟨-, -, level, accepted, hlevel⟩ := hdrives
      cases hlevel
  | drain u ad hop hlive had hdrains =>
      rcases hdrains with hdrain | hdrain | ⟨bytes, hdrain⟩ <;> cases hdrain
  | setup u hop hlive hkind hpin hsetup => cases port_of_mem_pinSetup c.env hpin hsetup
  | arrive q bytes hop hreceived => cases hreceived
  | transmit q n b hop hsent => cases hsent

/-- **A step that reads** asks as it is called to, with the timeouts of the beginning. -/
theorem Settled.asks {start : Port → UartPort} (h : Settled start w) {port : Port}
    {length wait : ℕ} (he : .uartRead port length wait ∈ (w.step pf c).2.events) :
    ∃ u call room, c.op = .serial u call ∧ w.live u = true ∧ (w.backend u).port = some port ∧
      call.asked
          (if (w.backend u).idfSerial.isSome then IDFSerial.ticksOf pf 1000
            else (start port).timeout)
          ((w.backend u).givenWait pf) = some (room, wait) ∧
      length ≤ room := by
  obtain ⟨u, call, hop, hlive, hport⟩ := serial_of_uartRead he
  obtain ⟨op, env⟩ := c
  obtain rfl : op = .serial u call := hop
  rw [step_serial pf hlive] at he
  obtain ⟨events, hlog, hasks⟩ :=
    (w.backend u).dispatch_asks pf env w.units call (w.io (w.backend u).port)
  rw [hport] at hlog hasks
  have hmem : .uartRead port length wait ∈ events := by
    rw [← List.nil_append events]
    change _ ∈ (w.io (some port)).log ++ events
    rw [← hlog]
    simpa only [serialCall, hport] using he
  obtain ⟨room, hroom, hlength⟩ := hasks _ hmem port length wait rfl
  have hown : (w.backend u).ownWait pf (w.ports port) =
      if (w.backend u).idfSerial.isSome then IDFSerial.ticksOf pf 1000
        else (start port).timeout := by
    unfold Backend.ownWait
    cases hidf : (w.backend u).idfSerial with
    | none => exact (h.line port).1
    | some s => simp [h.asBuilt u s hlive hidf]
  refine ⟨u, call, room, rfl, hlive, hport, ?_, hlength⟩
  rw [← hown]
  exact hroom

end World

/-! ## Runs -/

/-- **A read asks for what it is called to ask for.**  In a run of any program, over any number
of units that share ports, move, are begun again and come and go: whenever a step makes a driver
call that reads, it is a call of a reading method on a unit with a backend on that port, for no
more bytes than the caller has room for; it does not wait at all in `peek()`, `read()` and
`read(buffer, size)`, waits for the timeout of the caller if there is one, and otherwise for the
timeout that the port's `HardwareSerial` had when the run began, or for a second if the backend
is an `IDFSerial`.  So a timeout that one call is given is never seen by another.  And no
operation changes the timeout or the baud rate of a port. -/
theorem reads_ask_as_called (pf : Platform) (ports : Port → UartPort) (calls : List Call)
    (hbuilt : ∀ c ∈ calls, c.op.installsAsBuilt = true) :
    ∀ before c later, calls = before ++ c :: later →
      let w := (machine pf).after (World.init ports) before
      (∀ port, (w.ports port).timeout = (ports port).timeout ∧
        (w.ports port).baud = (ports port).baud) ∧
      ∀ port length wait, .uartRead port length wait ∈ (w.step pf c).2.events →
        ∃ u call room, c.op = .serial u call ∧ w.live u = true ∧
          (w.backend u).port = some port ∧
          call.asked
              (if (w.backend u).idfSerial.isSome then IDFSerial.ticksOf pf 1000
                else (ports port).timeout)
              ((w.backend u).givenWait pf) = some (room, wait) ∧
          length ≤ room := by
  rintro before c later rfl w
  have hbefore : ∀ c' ∈ before, c'.op.installsAsBuilt = true := by
    intro c' hc'
    exact hbuilt c' (List.mem_append_left _ hc')
  have hsettled : World.Settled ports w :=
    OutputMachine.after_invariant (m := machine pf)
      (P := fun _ c => c.op.installsAsBuilt = true) (fun _ _ h hc => h.step hc)
      (World.Settled.init ports) ((machine pf).along_of_forall hbefore (World.init ports))
  exact ⟨hsettled.line, fun port length wait he => hsettled.asks he⟩

/-- Two units on one port of an Arduino board, of which the first reads within three
milliseconds. -/
def sampleReads : List Call :=
  [⟨.construct 0 .sp485, .calm⟩, ⟨.setAdapter 0 (some ⟨some 1, 3⟩), .calm⟩, ⟨.begin 0, .calm⟩,
    ⟨.construct 1 .sp485, .calm⟩, ⟨.setAdapter 1 (some ⟨some 1, 3⟩), .calm⟩, ⟨.begin 1, .calm⟩,
    ⟨.serial 0 (.readBytesTimeout ⟨false, 4⟩ 3), .calm⟩,
    ⟨.serial 1 (.readBytes ⟨false, 2⟩), .calm⟩]

/-- The second waits for a second all the same. -/
theorem sample_reads_ask :
    let pf : Platform := { Platform.esp32 with framework := .arduinoEsp32 }
    let w := (machine pf).after (World.init samplePorts) (sampleReads.take 7)
    let c : Call := ⟨.serial 1 (.readBytes ⟨false, 2⟩), .calm⟩
    (∀ port, (w.ports port).timeout = (samplePorts port).timeout ∧
      (w.ports port).baud = (samplePorts port).baud) ∧
    ∀ port length wait, .uartRead port length wait ∈ (w.step pf c).2.events →
      ∃ u call room, c.op = .serial u call ∧ w.live u = true ∧
        (w.backend u).port = some port ∧
        call.asked
            (if (w.backend u).idfSerial.isSome then IDFSerial.ticksOf pf 1000
              else (samplePorts port).timeout)
            ((w.backend u).givenWait pf) = some (room, wait) ∧
        length ≤ room :=
  reads_ask_as_called _ samplePorts sampleReads (by decide) (sampleReads.take 7) _ [] rfl

example :
    let pf : Platform := { Platform.esp32 with framework := .arduinoEsp32 }
    let w := (machine pf).after (World.init samplePorts) (sampleReads.take 7)
    .uartRead 1 2 1000 ∈
      (w.step pf ⟨.serial 1 (.readBytes ⟨false, 2⟩), .calm⟩).2.events := by
  decide

end RS485
