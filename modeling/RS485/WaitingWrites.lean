import RS485.MessageCuts

/-!
# What the waiting writes wait for

The deprecated writes with `wait` and `writeValue` wait until the transmitter is empty, but only
if their own write was accepted at least in part: `write_waiting` calls `flush(true)` if it has
written anything.  So a waiting call that gets a byte across leaves nothing behind, whatever
earlier calls had queued, and one that gets none across leaves that where it was.

`waiting_writes_drain` says so of every backend that behaves as a transmitter does
(`ISerial.Transmits`), over every run of writes.  The UART backends do, and so do the decorators
over them.
-/

namespace RS485

/-! ## Transmitters -/

/-- A backend whose writes accept a prefix of what they are given, possibly none of it, and
queue it behind what is pending, and whose `flush(true)` returns when nothing is pending:
`sent` is what has been transmitted so far, and `tx` what was accepted and has not. -/
structure ISerial.Transmits {σ : Type} (serial : ISerial σ) (sent tx : σ → List Byte) :
    Prop where
  writeBuf : ∀ (b : Buffer) (s : σ), ¬ (b.isNull ∨ b.size = 0) →
    (serial.writeBuf b s).2 ≤ b.bytes.length ∧
      sent (serial.writeBuf b s).1 ++ tx (serial.writeBuf b s).1 =
        sent s ++ tx s ++ b.bytes.take (serial.writeBuf b s).2
  write : ∀ (d : Byte) (s : σ), (serial.write d s).2 ≤ 1 ∧
    sent (serial.write d s).1 ++ tx (serial.write d s).1 =
      sent s ++ tx s ++ [d].take (serial.write d s).2
  flushTx : ∀ s : σ, tx (serial.flushTx true s) = [] ∧
    sent (serial.flushTx true s) = sent s ++ tx s

namespace SerialCall

/-- The bytes the backend accepts in a call. -/
def accepted {σ : Type} (pf : Platform) (serial : ISerial σ) (call : SerialCall) (s : σ) :
    List Byte :=
  match call.payload pf with
  | some (b, _) => b.bytes.take (call.written pf serial s).2
  | none => []

end SerialCall

namespace ISerial.Transmits

variable {σ : Type} {serial : ISerial σ} {sent tx : σ → List Byte}
  (h : serial.Transmits sent tx) {pf : Platform} {call : SerialCall} {b : Buffer} {wait : Bool}
include h

/-- The write that a call begins with accepts a prefix of its buffer, and queues it. -/
theorem written (hpayload : call.payload pf = some (b, wait)) (s : σ) :
    let r := call.written pf serial s
    r.2 ≤ b.bytes.length ∧ sent r.1 ++ tx r.1 = sent s ++ tx s ++ b.bytes.take r.2 := by
  have hbuf : let r := RS485Component.writeBuf serial b s
      r.2 ≤ b.bytes.length ∧ sent r.1 ++ tx r.1 = sent s ++ tx s ++ b.bytes.take r.2 := by
    by_cases hempty : b.isNull ∨ b.size = 0
    · rw [SerialCall.writeBuf_of_empty hempty]
      simp
    · have hwrite : RS485Component.writeBuf serial b s = serial.writeBuf b s := if_neg hempty
      rw [hwrite]
      exact h.writeBuf b s hempty
  cases call <;>
    simp only [SerialCall.payload, Option.some.injEq, Prod.mk.injEq, reduceCtorEq] at hpayload
  case write d =>
    obtain ⟨rfl, rfl⟩ := hpayload
    exact h.write d s
  case writeWait d wait =>
    obtain ⟨rfl, rfl⟩ := hpayload
    cases wait with
    | false => exact h.write d s
    | true => exact hbuf
  all_goals
    obtain ⟨rfl, rfl⟩ := hpayload
    exact hbuf

/-- What a call accepts joins what is pending, and some of that may be transmitted. -/
theorem perform (hpayload : call.payload pf = some (b, wait)) (s : σ) :
    sent (call.perform pf serial s).1 ++ tx (call.perform pf serial s).1 =
      sent s ++ tx s ++ call.accepted pf serial s := by
  have hwritten := (h.written hpayload s).2
  rw [SerialCall.perform_eq_written hpayload]
  simp only [SerialCall.accepted, hpayload]
  split
  · obtain ⟨hempty, hsent⟩ := h.flushTx (call.written pf serial s).1
    rw [hempty, hsent, List.append_nil]
    exact hwritten
  · exact hwritten

/-- A waiting call that gets a byte across leaves nothing pending. -/
theorem waited (hpayload : call.payload pf = some (b, true)) {s : σ}
    (haccepted : 0 < (call.written pf serial s).2) : tx (call.perform pf serial s).1 = [] := by
  have hperform : (call.perform pf serial s).1 =
      serial.flushTx true (call.written pf serial s).1 := by
    rw [SerialCall.perform_eq_written hpayload]
    exact if_pos ⟨rfl, haccepted⟩
  rw [hperform]
  exact (h.flushTx _).1

end ISerial.Transmits

namespace SerialCall

variable {σ : Type} {pf : Platform} {serial : ISerial σ} {call : SerialCall} {b : Buffer}
  {wait : Bool}

/-- A call that gets nothing across does not wait: the write it begins with is all it does. -/
theorem perform_of_refused (hpayload : call.payload pf = some (b, wait)) {s : σ}
    (hrefused : (call.written pf serial s).2 = 0) :
    (call.perform pf serial s).1 = (call.written pf serial s).1 := by
  simp [perform_eq_written hpayload, hrefused]

/-- A null or empty buffer is not even handed to the backend. -/
theorem written_of_empty (hpayload : call.payload pf = some (b, wait))
    (hempty : b.isNull ∨ b.size = 0) (s : σ) : call.written pf serial s = (s, 0) := by
  cases call <;> simp only [payload, Option.some.injEq, Prod.mk.injEq, reduceCtorEq] at hpayload
  case write d =>
    obtain ⟨rfl, -⟩ := hpayload
    simp [Buffer.isNull, Buffer.size] at hempty
  case writeWait d wait =>
    obtain ⟨rfl, -⟩ := hpayload
    simp [Buffer.isNull, Buffer.size] at hempty
  all_goals
    obtain ⟨rfl, -⟩ := hpayload
    exact writeBuf_of_empty hempty s

/-- A write that does not wait calls neither `flush` of the backend. -/
theorem perform_of_unwaited (hpayload : call.payload pf = some (b, false)) (flush : σ → σ)
    (flushTx : Bool → σ → σ) (s : σ) :
    call.perform pf { serial with flush := flush, flushTx := flushTx } s =
      call.perform pf serial s := by
  have hwritten : call.written pf { serial with flush := flush, flushTx := flushTx } s =
      call.written pf serial s := by
    cases call <;> rfl
  simp [perform_eq_written hpayload, hwritten]

/-- `writeValue` reports success exactly if the whole image has been accepted. -/
theorem writeResult_eq_true_iff {le : Bool} {v : TypedValue}
    (hpayload : (writeValue le v).payload pf = some (b, wait)) {n : ℕ}
    (hn : n ≤ b.bytes.length) :
    (writeValue le v).writeResult n = .flag true ↔ b.bytes.take n = b.bytes := by
  have hlength : b.bytes.length = v.type.size := by
    simp only [payload, Option.some.injEq, Prod.mk.injEq] at hpayload
    rw [← hpayload.1]
    exact length_objectBytes pf v.type _
  rw [List.take_eq_self_iff, hlength]
  rw [hlength] at hn
  simp only [writeResult, Result.flag.injEq, beq_iff_eq]
  exact ⟨fun heq => heq.ge, fun hle => le_antisymm hn hle⟩

end SerialCall

/-- A waiting call leaves nothing pending exactly if it gets a byte across, or if nothing is
pending once the backend has turned its write down. -/
theorem ISerial.Transmits.drained_iff {σ : Type} {serial : ISerial σ} {sent tx : σ → List Byte}
    (h : serial.Transmits sent tx) {pf : Platform} {call : SerialCall} {b : Buffer}
    (hpayload : call.payload pf = some (b, true)) (s : σ) :
    tx (call.perform pf serial s).1 = [] ↔
      0 < (call.written pf serial s).2 ∨ tx (call.written pf serial s).1 = [] := by
  constructor
  · intro hdrained
    by_cases haccepted : 0 < (call.written pf serial s).2
    · exact Or.inl haccepted
    · have hrefused : (call.written pf serial s).2 = 0 := Nat.eq_zero_of_not_pos haccepted
      rw [SerialCall.perform_of_refused hpayload hrefused] at hdrained
      exact Or.inr hdrained
  · rintro (haccepted | hnone)
    · exact h.waited hpayload haccepted
    · by_cases haccepted : 0 < (call.written pf serial s).2
      · exact h.waited hpayload haccepted
      · have hrefused : (call.written pf serial s).2 = 0 := Nat.eq_zero_of_not_pos haccepted
        rw [SerialCall.perform_of_refused hpayload hrefused]
        exact hnone

/-! ## Runs of writes -/

section Runs

variable {σ E : Type} (pf : Platform) (serial : E → ISerial σ) (between : E → σ → σ)

/-- A run of writes, each with the backend as it is in some environment.  Before each call the
backend may go on by itself, as `between` says. -/
def writerMachine : OutputMachine σ (SerialCall × E) Result where
  step s x := x.1.perform pf (serial x.2) (between x.2 s)

/-- The run that also keeps the bytes accepted so far. -/
def writerHistory : OutputMachine (σ × List Byte) (SerialCall × E) Result :=
  (writerMachine pf serial between).withHistory fun accepted s x _ _ =>
    accepted ++ x.1.accepted pf (serial x.2) (between x.2 s)

end Runs

/-- What is true when a write returns, `line` being what was pending or sent when the run began
and everything accepted since then, by this write too. -/
structure SerialCall.Returns {σ : Type} (pf : Platform) (serial : ISerial σ)
    (sent tx : σ → List Byte) (line : List Byte) (call : SerialCall) (s : σ) : Prop where
  conserved : sent (call.perform pf serial s).1 ++ tx (call.perform pf serial s).1 = line
  result : (call.perform pf serial s).2 = call.writeResult (call.written pf serial s).2
  /-- a waiting call that gets a byte across returns when nothing is left on the way -/
  waited : ∀ b, call.payload pf = some (b, true) → 0 < (call.written pf serial s).2 →
    tx (call.perform pf serial s).1 = [] ∧ sent (call.perform pf serial s).1 = line
  /-- so it leaves nothing on the way exactly if it gets a byte across, or if nothing is pending
  once the backend has turned its write down -/
  drained : ∀ b, call.payload pf = some (b, true) →
    (tx (call.perform pf serial s).1 = [] ↔
      0 < (call.written pf serial s).2 ∨ tx (call.written pf serial s).1 = [])
  /-- one that gets none across does not wait -/
  refused : ∀ b, call.payload pf = some (b, true) → (call.written pf serial s).2 = 0 →
    (call.perform pf serial s).1 = (call.written pf serial s).1
  /-- and on a null or empty buffer it does nothing -/
  empty : ∀ b, call.payload pf = some (b, true) → (b.isNull ∨ b.size = 0) →
    (call.perform pf serial s).1 = s ∧ (call.written pf serial s).2 = 0
  value : ∀ le v b wait, call = .writeValue le v → call.payload pf = some (b, wait) →
    ((call.perform pf serial s).2 = .flag true ↔ call.accepted pf serial s = b.bytes)
  /-- a call that does not wait is the same with any `flush` -/
  unwaited : ∀ b, call.payload pf = some (b, false) →
    ∀ (flush : σ → σ) (flushTx : Bool → σ → σ),
      call.perform pf { serial with flush := flush, flushTx := flushTx } s =
        call.perform pf serial s

theorem ISerial.Transmits.returns {σ : Type} {serial : ISerial σ} {sent tx : σ → List Byte}
    (h : serial.Transmits sent tx) {pf : Platform} {call : SerialCall} {b : Buffer} {wait : Bool}
    (hpayload : call.payload pf = some (b, wait)) {line : List Byte} {s : σ}
    (hline : sent s ++ tx s ++ call.accepted pf serial s = line) :
    call.Returns pf serial sent tx line s := by
  have hconserved : sent (call.perform pf serial s).1 ++ tx (call.perform pf serial s).1 = line :=
    (h.perform hpayload s).trans hline
  have hresult : (call.perform pf serial s).2 =
      call.writeResult (call.written pf serial s).2 := by
    rw [SerialCall.perform_eq_written hpayload]
  refine ⟨hconserved, hresult, ?_, fun b hb => h.drained_iff hb s, ?_, ?_, ?_, ?_⟩
  · intro b hb haccepted
    have htx : tx (call.perform pf serial s).1 = [] := h.waited hb haccepted
    rw [htx, List.append_nil] at hconserved
    exact ⟨htx, hconserved⟩
  · intro b hb hrefused
    exact SerialCall.perform_of_refused hb hrefused
  · intro b hb hempty
    have hwritten : call.written pf serial s = (s, 0) := SerialCall.written_of_empty hb hempty s
    have hperform : (call.perform pf serial s).1 = (call.written pf serial s).1 :=
      SerialCall.perform_of_refused hb (congrArg Prod.snd hwritten)
    exact ⟨by rw [hperform, hwritten], by rw [hwritten]⟩
  · rintro le v b wait rfl hb
    rw [hresult, SerialCall.writeResult_eq_true_iff hb (h.written hb s).1]
    simp only [SerialCall.accepted, hb]
  · intro b hb flush flushTx
    exact SerialCall.perform_of_unwaited hb flush flushTx s

/-! ## The UART backends -/

theorem Env.take_length_takes (env : Env) (bytes : List Byte) :
    bytes.take (env.takes bytes).length = env.takes bytes := by
  have hprefix : env.takes bytes <+: bytes := by
    unfold Env.takes
    split
    · exact List.nil_prefix
    · exact List.take_prefix ..
  exact (List.prefix_iff_eq_take.mp hprefix).symm

/-- A UART backend as a transmitter: what has been sent is in the log, and what is pending in
the port. -/
theorem ISerial.OnUart.transmits {α : Type} {env : Env} {base : ISerial (α × Io)}
    (h : base.OnUart env) (hidle : env.waitTxDone = true) :
    base.Transmits (fun s => sentBytes s.2.log) (fun s => s.2.uart.tx) := by
  have hbuf : ∀ (b : Buffer) (s : α × Io), ¬ (b.isNull ∨ b.size = 0) →
      (base.writeBuf b s).2 ≤ b.bytes.length ∧
        sentBytes (base.writeBuf b s).1.2.log ++ (base.writeBuf b s).1.2.uart.tx =
          sentBytes s.2.log ++ s.2.uart.tx ++ b.bytes.take (base.writeBuf b s).2 := by
    intro b s hb
    obtain ⟨hcount, events, hlog, hwrites⟩ := h.writeBuf b s hb
    obtain ⟨events', hlog', -, hbytes⟩ := h.write b s
    obtain rfl : events' = events := List.append_cancel_left (hlog'.symm.trans hlog)
    have haccepted : acceptedBytes events' = b.bytes.take (base.writeBuf b s).2 := by
      rw [acceptedBytes_eq_flatten, hwrites, hcount, env.take_length_takes]
      simp
    refine ⟨?_, ?_⟩
    · rw [hcount, ← env.take_length_takes, List.length_take]
      exact min_le_right ..
    · rw [hlog, sentBytes_append, List.append_assoc, hbytes, haccepted, List.append_assoc]
  refine ⟨hbuf, ?_, ?_⟩
  · intro d s
    rw [h.write_byte]
    exact hbuf (.mem [d]) s (by simp [Buffer.isNull, Buffer.size])
  · intro s
    have htx : (base.flushTx true s).2.uart.tx = [] := h.flushTx_idle hidle s
    obtain ⟨events, hlog, hevents, hbytes⟩ := h.quiet.flushTx true s
    rw [htx, acceptedBytes_of_quiet hevents, List.append_nil, List.append_nil] at hbytes
    exact ⟨htx, by rw [hlog, sentBytes_append, hbytes]⟩

/-- What a write hands over is what is accepted of its buffer. -/
theorem ISerial.OnUart.accepted {α : Type} {env : Env} {base : ISerial (α × Io)}
    (h : base.OnUart env) {pf : Platform} {call : SerialCall} {b : Buffer} {wait : Bool}
    (hpayload : call.payload pf = some (b, wait)) (s : α × Io) :
    acceptedBytes (call.perform pf base s).1.2.log =
      acceptedBytes s.2.log ++ call.accepted pf base s := by
  have hwritten : acceptedBytes (call.written pf base s).1.2.log =
      acceptedBytes s.2.log ++ call.accepted pf base s := by
    simp only [SerialCall.accepted, hpayload]
    rw [SerialCall.written_eq_writeBuf h.write_byte hpayload]
    by_cases hb : b.isNull ∨ b.size = 0
    · rw [SerialCall.writeBuf_of_empty hb]
      simp
    · obtain ⟨hcount, events, hlog, hwrites⟩ := h.writeBuf b s hb
      have hwrite : RS485Component.writeBuf base b s = base.writeBuf b s := if_neg hb
      rw [hwrite, hlog, acceptedBytes_append, acceptedBytes_eq_flatten events, hwrites, hcount,
        env.take_length_takes]
      simp
  rw [SerialCall.perform_eq_written hpayload]
  dsimp only
  split
  · obtain ⟨events, hlog, hevents, -⟩ := h.quiet.flushTx true (call.written pf base s).1
    rw [hlog, acceptedBytes_append, acceptedBytes_of_quiet hevents, List.append_nil]
    exact hwritten
  · exact hwritten

/-- A write returns how much of its buffer the driver accepts. -/
theorem ISerial.OnUart.result_of_payload {α : Type} {env : Env} {serial : ISerial (α × Io)}
    (h : serial.OnUart env) {pf : Platform} {call : SerialCall} {b : Buffer} {wait : Bool}
    (hpayload : call.payload pf = some (b, wait)) (s : α × Io) :
    (call.perform pf serial s).2 = call.writeResult (env.takes b.bytes).length ∧
      call.accepted pf serial s = env.takes b.bytes := by
  have hcount : (call.written pf serial s).2 = (env.takes b.bytes).length := by
    rw [SerialCall.written_eq_writeBuf h.write_byte hpayload]
    unfold RS485Component.writeBuf
    split
    · next hempty => simp [b.isEmpty_iff.mp hempty]
    · next hempty => exact (h.writeBuf b s hempty).1
  refine ⟨?_, ?_⟩
  · rw [SerialCall.perform_eq_written hpayload]
    exact congrArg call.writeResult hcount
  · simp only [SerialCall.accepted, hpayload, hcount, env.take_length_takes]

/-- A waiting write on a UART backend whose driver accepts a byte sends what was pending and
what is accepted. -/
theorem ISerial.OnUart.waited {α : Type} {env : Env} {serial : ISerial (α × Io)}
    (h : serial.OnUart env) (hidle : env.waitTxDone = true) {pf : Platform} {call : SerialCall}
    {b : Buffer} (hpayload : call.payload pf = some (b, true)) (s : α) (uart : UartPort) :
    let io := (call.perform pf serial (s, ⟨uart, []⟩)).1.2
    acceptedBytes io.log ≠ [] →
      io.uart.tx = [] ∧ sentBytes io.log = uart.tx ++ acceptedBytes io.log := by
  intro io hne
  have haccepted : acceptedBytes io.log = call.accepted pf serial (s, ⟨uart, []⟩) :=
    h.accepted hpayload (s, ⟨uart, []⟩)
  have hpos : 0 < (call.written pf serial (s, ⟨uart, []⟩)).2 := by
    by_contra hzero
    rw [haccepted] at hne
    simp only [SerialCall.accepted, hpayload] at hne
    rw [Nat.eq_zero_of_not_pos hzero] at hne
    exact hne rfl
  have htx : io.uart.tx = [] := (h.transmits hidle).waited hpayload hpos
  have hbytes := (h.transmits hidle).perform hpayload (s, ⟨uart, []⟩)
  refine ⟨htx, ?_⟩
  rw [haccepted]
  simpa [io, htx] using hbytes

theorem Backend.dispatch_waited (pf : Platform) {env : Env} (hidle : env.waitTxDone = true)
    (units : UnitId → RS485Unit) {b : Backend} {port : Port} (hport : b.port = some port)
    {call : SerialCall} {buffer : Buffer} (hpayload : call.payload pf = some (buffer, true))
    (uart : UartPort) :
    let io := (b.dispatch pf env units (fun serial s => call.perform pf serial s)
      ⟨uart, []⟩).2.1
    acceptedBytes io.log ≠ [] →
      io.uart.tx = [] ∧ sentBytes io.log = uart.tx ++ acceptedBytes io.log := by
  obtain ⟨α, serial, s, huart, hdispatch⟩ := b.dispatch_of_port pf env units hport
  simp only [hdispatch]
  exact huart.waited hidle hpayload s uart

/-- **A waiting call of a unit** on a port empties the transmitter, if the driver accepts
anything of it: what was pending leaves the port, and then what it has accepted. -/
theorem World.OnPort.waited {pf : Platform} {w : World} {u : UnitId} {port : Port}
    (h : w.OnPort u port) {call : SerialCall} {b : Buffer}
    (hpayload : call.payload pf = some (b, true)) {env : Env} (hidle : env.waitTxDone = true) :
    let r := w.step pf ⟨.serial u call, env⟩
    acceptedBytes r.2.events ≠ [] →
      (r.1.ports port).tx = [] ∧
        sentBytes r.2.events = (w.ports port).tx ++ acceptedBytes r.2.events := by
  have hdispatch := Backend.dispatch_waited pf hidle w.units h.port hpayload (w.ports port)
  intro r hne
  have hr : r = w.serialCall pf env u call := step_serial pf h.live call env
  rw [hr] at hne ⊢
  simp only [serialCall, h.port, World.io] at hne ⊢
  obtain ⟨htx, hsent⟩ := hdispatch hne
  exact ⟨by simpa [storePort] using htx, hsent⟩

/-- Progress of the transmitter between two calls. -/
theorem sentBytes_transmit (io : Io) (port : Port) (n ringUsed : ℕ) :
    sentBytes (io.transmit port n ringUsed).log ++ (io.transmit port n ringUsed).uart.tx =
      sentBytes io.log ++ io.uart.tx := by
  obtain ⟨events, hlog, hquiet, hbytes⟩ := Io.Extends.transmit io quiet_sent port n ringUsed
  rw [hlog, sentBytes_append, List.append_assoc, hbytes, acceptedBytes_of_quiet hquiet,
    List.append_nil]

/-! ### Writes that do not wait -/

/-- A write that does not wait is at most one buffer write. -/
theorem ISerial.HandsOver.unwaited {α : Type} {env : Env} {base : ISerial (α × Io)}
    (h : base.HandsOver env) {pf : Platform} {call : SerialCall} {b : Buffer}
    (hpayload : call.payload pf = some (b, false)) (s : α × Io) :
    (call.perform pf base s).1 = if b.isNull ∨ b.size = 0 then s else (base.writeBuf b s).1 := by
  have hperform : (call.perform pf base s).1 = (RS485Component.writeBuf base b s).1 := by
    rw [SerialCall.perform_of_payload h.write_byte hpayload]
    rfl
  rw [hperform]
  unfold RS485Component.writeBuf
  split <;> rfl

/-- A write that does not wait makes no call of the driver that does, unless a DIR decorator
carries it out. -/
theorem Backend.dispatch_unwaited (pf : Platform) (env : Env) (units : UnitId → RS485Unit)
    {b : Backend} (howner : b.owner = none) {call : SerialCall} {buffer : Buffer}
    (hpayload : call.payload pf = some (buffer, false)) (io : Io) :
    ∃ events, (b.dispatch pf env units (fun serial s => call.perform pf serial s) io).2.1.log =
      io.log ++ events ∧ ∀ port, Event.waitTxDone port ∉ events := by
  cases b with
  | nullSerial =>
      have hfst : (call.perform pf NullSerial.iserial io).1 = io :=
        NullSerial.perform_fst pf call io
      exact ⟨[], by simp [dispatch, hfst], by simp⟩
  | hs s =>
      simp only [dispatch, (HSSerial.handsOver env).unwaited hpayload]
      split
      · exact ⟨[], by simp, by simp⟩
      · obtain ⟨gone, hlog, -⟩ := HSSerial.writeBuf_log env buffer s io
        exact ⟨_, hlog, by simp⟩
  | idf s =>
      simp only [dispatch, (IDFSerial.handsOver pf env).unwaited hpayload]
      split
      · exact ⟨[], by simp, by simp⟩
      · next hb =>
        obtain ⟨gone, hlog, -⟩ := IDFSerial.writeBuf_log pf env hb s io
        exact ⟨_, hlog, by simp⟩
  | dirHS s owner => cases howner
  | dirIDF s owner => cases howner

/-! ## What a waiting write leaves behind -/

/-- **Waiting writes.**  On a backend whose writes accept a prefix of what they are given and
whose `flush(true)` returns when the transmitter is empty, whatever else it does between the
calls, every write of a run returns as `SerialCall.Returns` says.  A waiting call that gets a
byte across returns when nothing accepted by it or before it is still on the way; one that gets
none across, because the backend refuses it or the buffer is null or empty, does not wait, and
leaves nothing on the way only if nothing is pending then.  `writeValue` returns `true` exactly
if the whole image was accepted.  A call that does not wait never calls `flush`, and without a DIR
pin the backends that come with the library do not wait in their writes either. -/
theorem waiting_writes_drain (pf : Platform) {σ E : Type} (serial : E → ISerial σ)
    (between : E → σ → σ) (sent tx : σ → List Byte)
    (htransmits : ∀ e, (serial e).Transmits sent tx)
    (hbetween : ∀ e s, sent (between e s) ++ tx (between e s) = sent s ++ tx s) (s : σ)
    (inputs : List (SerialCall × E)) (hwrites : ∀ x ∈ inputs, (x.1.payload pf).isSome = true) :
    (writerHistory pf serial between).Along
      (fun q x =>
        x.1.Returns pf (serial x.2) sent tx
          (sent s ++ tx s ++ (q.2 ++ x.1.accepted pf (serial x.2) (between x.2 q.1)))
          (between x.2 q.1))
      (s, []) inputs ∧
    ∀ (env : Env) (units : UnitId → RS485Unit) (b : Backend) (call : SerialCall)
      (buffer : Buffer) (io : Io), b.owner = none → call.payload pf = some (buffer, false) →
      ∃ events,
        (b.dispatch pf env units (fun serial s => call.perform pf serial s) io).2.1.log =
          io.log ++ events ∧ ∀ port, Event.waitTxDone port ∉ events := by
  refine ⟨?_, ?_⟩
  · let I (q : σ × List Byte) : Prop := sent q.1 ++ tx q.1 = sent s ++ tx s ++ q.2
    have hreturns : ∀ (q : σ × List Byte) (x : SerialCall × E), I q →
        (x.1.payload pf).isSome = true →
        x.1.Returns pf (serial x.2) sent tx
          (sent s ++ tx s ++ (q.2 ++ x.1.accepted pf (serial x.2) (between x.2 q.1)))
          (between x.2 q.1) := by
      intro q x hI hpayload
      obtain ⟨⟨b, wait⟩, hpayload⟩ := Option.isSome_iff_exists.mp hpayload
      apply (htransmits x.2).returns hpayload
      rw [hbetween, hI, List.append_assoc]
    refine OutputMachine.along_of_invariant (I := I)
      (P := fun _ x => (x.1.payload pf).isSome = true) ?_ hreturns (List.append_nil _).symm ?_
    · -- what is pending or sent is what was so at first and what has been accepted since
      intro q x hI hpayload
      exact (hreturns q x hI hpayload).conserved
    · exact OutputMachine.along_of_forall _ hwrites _
  · intro env units b call buffer io howner hpayload
    exact Backend.dispatch_unwaited pf env units howner hpayload io

/-- An environment in which waiting for the transmitter ends with the transmitter idle. -/
abbrev IdleEnv := { env : Env // env.waitTxDone = true }

/-- An `IDFSerial` on port 1 with nothing pending. -/
def sampleLine : IDFSerial × Io := ({ port := 1 }, ⟨samplePorts 1, []⟩)

/-- A byte is queued and leaves the port between two calls; a waiting write sends the rest. -/
theorem sample_waited :
    let after := (writerMachine .esp32 (fun env : IdleEnv => IDFSerial.iserial .esp32 env.1)
      fun _ s => (s.1, s.2.transmit 1 1 0)).after sampleLine
        [(.write 0x01, ⟨.calm, rfl⟩), (.writeBufWait (.mem [0x02, 0x03]) true, ⟨.calm, rfl⟩)]
    after.2.uart.tx = [] ∧ sentBytes after.2.log = [0x01, 0x02, 0x03] := by
  have hrun := waiting_writes_drain .esp32 (fun env : IdleEnv => IDFSerial.iserial .esp32 env.1)
    (fun _ s => (s.1, s.2.transmit 1 1 0)) (fun s => sentBytes s.2.log) (fun s => s.2.uart.tx)
    (fun env => (IDFSerial.onUart .esp32 env.1).transmits env.2)
    (fun _ s => sentBytes_transmit s.2 1 1 0) sampleLine
    [(.write 0x01, ⟨.calm, rfl⟩), (.writeBufWait (.mem [0x02, 0x03]) true, ⟨.calm, rfl⟩)]
    (by decide)
  exact hrun.1.2.1.waited (.mem [0x02, 0x03]) rfl (by decide)

/-- Waiting writes of which the backend accepts nothing. -/
def unheardWrites : List (SerialCall × IdleEnv) :=
  [(.writeBufWait (.null 4) true, ⟨.calm, rfl⟩), (.writeCharsWait (.mem []) true, ⟨.calm, rfl⟩),
    (.writeStrWait none true, ⟨.calm, rfl⟩),
    (.writeWait 0x02 true, ⟨{ Env.calm with accepted := none }, rfl⟩)]

/-- They return with a byte still on the way that a call before them has queued. -/
theorem unheard_wait_leaves_pending :
    (∀ env : IdleEnv, (IDFSerial.iserial .esp32 env.1).Transmits (fun s => sentBytes s.2.log)
      (fun s => s.2.uart.tx)) ∧
    ∀ x ∈ unheardWrites, (∃ b, x.1.payload .esp32 = some (b, true)) ∧
      ((writerMachine .esp32 (fun env : IdleEnv => IDFSerial.iserial .esp32 env.1)
        fun _ s => s).after sampleLine [(.write 0x01, ⟨.calm, rfl⟩), x]).2.uart.tx = [0x01] := by
  refine ⟨fun env => (IDFSerial.onUart .esp32 env.1).transmits env.2, ?_⟩
  intro x hx
  simp only [unheardWrites, List.mem_cons, List.not_mem_nil, or_false] at hx
  obtain rfl | rfl | rfl | rfl := hx
  · exact ⟨⟨_, rfl⟩, rfl⟩
  · exact ⟨⟨_, rfl⟩, rfl⟩
  · exact ⟨⟨_, rfl⟩, rfl⟩
  · exact ⟨⟨_, rfl⟩, rfl⟩

end RS485
