import RS485.Steps

/-!
# What an operation can reach

Every driver call is about one port or one GPIO.  The calls an operation makes are about the
port its unit has a backend on, and the DIR pin its unit has captured: a backend keeps to its
own port (`Reaches`), whichever of its functions is called, and a decorator adds nothing but
levels for the pin of its owner.  A `begin` sets up the configured pin, and drains the port of
the adapter.

`World.step_reach` is the inversion of the log of a step in these terms.
-/

namespace RS485

open Function

/-! ## Events -/

namespace Event

/-- The port an event is about. -/
def port : Event → Option Port
  | .uartWrite port _ | .sent port _ | .waitTxDone port | .uartRead port _ _ | .received port _
  | .flushInput port | .bufferedDataLen port | .txBufferFreeSize port | .getBaudrate port
  | .flushRX port => some port
  | _ => none

/-- The GPIO an event is about. -/
def pin : Event → Option Pin
  | .gpioConfig pin _ | .gpioSetLevel pin _ _ => some pin
  | _ => none

/-- What the drain of a `begin` logs: it empties the RX ring and lets time pass, in which bytes
may arrive. -/
def Drains (line : Port) (e : Event) : Prop :=
  e = .flushRX line ∨ e = .delay 1 ∨ ∃ bytes, e = .received line bytes

theorem Drains.port_eq {line : Port} {e : Event} (h : e.Drains line) :
    e.port = some line ∨ e.port = none := by
  rcases h with rfl | rfl | ⟨bytes, rfl⟩
  · exact Or.inl rfl
  · exact Or.inr rfl
  · exact Or.inl rfl

theorem pin_of_port {e : Event} {p : Port} (h : e.port = some p) : e.pin = none := by
  cases e <;> first | rfl | cases h

end Event

/-- The log grows by events that satisfy `P`. -/
def Io.Logs (P : Event → Prop) (io io' : Io) : Prop :=
  ∃ events, io'.log = io.log ++ events ∧ ∀ e ∈ events, P e

namespace Io.Logs

variable {P : Event → Prop} {io io' io'' : Io}

theorem refl (io : Io) : io.Logs P io := ⟨[], by simp, by simp⟩

theorem trans (h : io.Logs P io') (h' : io'.Logs P io'') : io.Logs P io'' := by
  obtain ⟨es, hlog, hP⟩ := h
  obtain ⟨es', hlog', hP'⟩ := h'
  refine ⟨es ++ es', by rw [hlog', hlog, List.append_assoc], ?_⟩
  intro e he
  rcases List.mem_append.mp he with he | he
  · exact hP e he
  · exact hP' e he

theorem emit (io : Io) {events : List Event} (h : ∀ e ∈ events, P e) :
    io.Logs P (io.emit events) := ⟨events, rfl, h⟩

theorem transmit (io : Io) {port : Port} (h : ∀ b, P (.sent port b)) (n ringUsed : ℕ) :
    io.Logs P (io.transmit port n ringUsed) := by
  refine ⟨(io.uart.tx.take n).map (Event.sent port), rfl, ?_⟩
  intro e he
  obtain ⟨b, -, rfl⟩ := List.mem_map.mp he
  exact h b

end Io.Logs

/-! ## The backends -/

/-- The backend stays on its port, and all it logs is about that port. -/
def Reaches {α : Type} (line : α → Port) (s t : α × Io) : Prop :=
  line t.1 = line s.1 ∧ s.2.Logs (fun e => e.port = some (line s.1)) t.2

namespace Reaches

variable {α : Type} {line : α → Port}

theorem refl (s : α × Io) : Reaches line s s := ⟨rfl, .refl _⟩

theorem trans {s t u : α × Io} (h : Reaches line s t) (h' : Reaches line t u) :
    Reaches line s u := by
  refine ⟨h'.1.trans h.1, h.2.trans ?_⟩
  rw [← h.1]
  exact h'.2

end Reaches

section Driver

variable (env : Env) (port : Port) (io : Io)

theorem logs_one {e : Event} (h : e.port = some port) :
    io.Logs (fun e => e.port = some port) (io.emit [e]) :=
  .emit io (by simpa using h)

theorem logs_readBytes (length wait : ℕ) :
    io.Logs (fun e => e.port = some port) (uartReadBytes env port length wait io).1 :=
  ⟨[.uartRead port length wait, .received port env.arrivals], rfl, by simp [Event.port]⟩

theorem logs_writeBytes (bytes : List Byte) :
    io.Logs (fun e => e.port = some port) (uartWriteBytes env port bytes io).1 := by
  unfold uartWriteBytes
  cases env.accepted with
  | none => exact logs_one port io rfl
  | some limit => exact (logs_one port _ rfl).trans (.transmit _ (fun _ => rfl) _ _)

theorem logs_waitTxDone :
    io.Logs (fun e => e.port = some port) (uartWaitTxDone env port io) := by
  unfold uartWaitTxDone
  cases env.waitTxDone with
  | false => exact logs_one port io rfl
  | true => exact (logs_one port io rfl).trans (.transmit _ (fun _ => rfl) _ _)

theorem logs_flushInput :
    io.Logs (fun e => e.port = some port) (uartFlushInput env port io) := by
  unfold uartFlushInput
  cases env.flushInput <;> exact logs_one port _ rfl

end Driver

theorem HSSerial.steps_reaches (env : Env) :
    (HSSerial.iserial env).Steps (Reaches HSSerial.hs) where
  available s := ⟨rfl, logs_one s.1.hs s.2 rfl⟩
  availableForWrite s := ⟨rfl, logs_one s.1.hs s.2 rfl⟩
  peek s := by
    simp only [iserial, pass, HardwareSerial.peek]
    split <;> exact .refl s
  read s := by
    have hread := logs_readBytes env s.1.hs s.2 1 0
    simp only [iserial, pass, HardwareSerial.read]
    split <;> simp_all [Reaches]
  readBuf d s := by
    have hread := logs_readBytes env s.1.hs s.2 d.size 0
    simp only [iserial, pass, HardwareSerial.readBuf]
    split <;> simp_all [Reaches]
  readBytes d s := by
    have hread := logs_readBytes env s.1.hs s.2 d.size s.2.uart.timeout
    simp only [iserial, pass, HardwareSerial.readBuf]
    split <;> simp_all [Reaches]
  readBytesTimeout d ms s := by
    have hread := logs_readBytes env s.1.hs (HardwareSerial.setTimeout ms.toNat s.2) d.size ms.toNat
    simp only [iserial, readBytesTimeout, HardwareSerial.readBuf]
    split <;> simp_all [Reaches, Io.Logs, HardwareSerial.setTimeout]
  flush s := ⟨rfl, logs_waitTxDone env s.1.hs s.2⟩
  flushTx txOnly s := by
    have hwait := logs_waitTxDone env s.1.hs s.2
    cases txOnly with
    | true => exact ⟨rfl, hwait⟩
    | false => exact ⟨rfl, hwait.trans (logs_flushInput env s.1.hs _)⟩
  writeBuf b s := by
    have hwrite := logs_writeBytes env s.1.hs s.2 b.bytes
    simp only [iserial, pass, HardwareSerial.write]
    split <;> simp_all [Reaches]
  write b s := by
    have hwrite := logs_writeBytes env s.1.hs s.2 [b]
    simp only [iserial, pass, HardwareSerial.write]
    split <;> simp_all [Reaches]
  baudRate s := ⟨rfl, logs_one s.1.hs s.2 rfl⟩

namespace IDFSerial

variable (pf : Platform) (env : Env)

theorem readWithWait_reaches (ticks : ℕ) (d : Destination) (s : IDFSerial × Io) :
    Reaches IDFSerial.port s (readWithWait env ticks d s).1 := by
  obtain ⟨s, io⟩ := s
  have hread := logs_readBytes env s.port io (d.size - s.held) ticks
  simp only [readWithWait]
  split
  · exact .refl _
  · split
    · exact ⟨rfl, .refl io⟩
    · split <;> simp_all [Reaches]

theorem writeBuf_reaches (b : Buffer) (s : IDFSerial × Io) :
    Reaches IDFSerial.port s (writeBuf env b s).1 := by
  obtain ⟨s, io⟩ := s
  have hwrite := logs_writeBytes env s.port io b.bytes
  simp only [writeBuf]
  split
  · exact .refl _
  · split <;> simp_all [Reaches]

theorem steps_reaches : (iserial pf env).Steps (Reaches IDFSerial.port) where
  available := by
    rintro ⟨s, io⟩
    have hlen := logs_one s.port io (e := .bufferedDataLen s.port) rfl
    simp only [iserial, available, uartGetBufferedDataLen]
    split <;> simp_all [Reaches]
  availableForWrite := by
    rintro ⟨s, io⟩
    have hsize := logs_one s.port io (e := .txBufferFreeSize s.port) rfl
    simp only [iserial, availableForWrite, uartGetTxBufferFreeSize]
    split
    · split
      · simp_all [Reaches]
      · split <;> simp_all [Reaches]
    · simp_all [Reaches]
  peek := by
    rintro ⟨s, io⟩
    have hread := logs_readBytes env s.port io 1 0
    simp only [iserial, peek]
    split
    · exact .refl _
    · split <;> simp_all [Reaches]
  read := by
    rintro ⟨s, io⟩
    have hread := logs_readBytes env s.port io 1 0
    simp only [iserial, read]
    split
    · exact ⟨rfl, .refl io⟩
    · split <;> simp_all [Reaches]
  readBuf := readWithWait_reaches env 0
  readBytes d s := readWithWait_reaches env _ d s
  readBytesTimeout d ms := readWithWait_reaches env _ d
  flush s := ⟨rfl, logs_waitTxDone env s.1.port s.2⟩
  flushTx txOnly s := by
    have hwait := logs_waitTxDone env s.1.port s.2
    cases txOnly with
    | true => exact ⟨rfl, hwait⟩
    | false => exact ⟨rfl, hwait.trans (logs_flushInput env s.1.port _)⟩
  writeBuf b s := writeBuf_reaches env b s
  write b s := writeBuf_reaches env (.mem [b]) s
  baudRate := by
    rintro ⟨s, io⟩
    have hbaud := logs_one s.port io (e := .getBaudrate s.port) rfl
    simp only [iserial, baudRate, uartGetBaudrate]
    split <;> simp_all [Reaches]

end IDFSerial

/-! ## The decorators -/

/-- A level for the captured pin of the unit, which is on an ESP framework and has one. -/
def RS485Unit.Drives (pf : Platform) (unit : RS485Unit) (e : Event) : Prop :=
  pf.framework.espPlatform = true ∧ 0 ≤ unit.configuredDirPin ∧
    ∃ level accepted, e = .gpioSetLevel unit.configuredDirPin level accepted

/-- The backend stays on its port, and logs nothing but what is about that port, and levels for
the captured pin of the unit. -/
def ReachesVia {α : Type} (line : α → Port) (pf : Platform) (unit : RS485Unit)
    (s t : α × Io) : Prop :=
  line t.1 = line s.1 ∧ s.2.Logs (fun e => e.port = some (line s.1) ∨ unit.Drives pf e) t.2

section DirControlled

open UnitSIT3088

variable {α : Type} (pf : Platform) {env : Env} (unit : RS485Unit) {base : ISerial (α × Io)}
  {line : α → Port}

theorem ReachesVia.trans {s t u : α × Io} (h : ReachesVia line pf unit s t)
    (h' : ReachesVia line pf unit t u) : ReachesVia line pf unit s u := by
  refine ⟨h'.1.trans h.1, h.2.trans ?_⟩
  rw [← h.1]
  exact h'.2

theorem Reaches.via {s t : α × Io} (h : Reaches line s t) : ReachesVia line pf unit s t := by
  obtain ⟨hline, events, hlog, hevents⟩ := h
  exact ⟨hline, events, hlog, fun e he => Or.inl (hevents e he)⟩

theorem drives_of_mem_setTransmit {level : Bool} {e : Event}
    (he : e ∈ setTransmit pf env unit level) : unit.Drives pf e := by
  unfold setTransmit at he
  split at he
  · next hesp =>
    split at he
    · cases he
    · next hpin =>
      rw [List.mem_singleton] at he
      exact ⟨hesp, not_lt.mp hpin, _, _, he⟩
  · cases he

/-- Whichever function of a decorator is called, it drives the pin of its owner and no other. -/
theorem dirControlled_steps_reaches (hbase : base.Steps (Reaches line)) :
    (dirControlled pf env unit base).Steps (ReachesVia line pf unit) := by
  have htransmit : ∀ level s io,
      ReachesVia line pf unit (s, io) (s, io.emit (setTransmit pf env unit level)) :=
    fun level s io => ⟨rfl, .emit io fun e he => Or.inr (drives_of_mem_setTransmit pf unit he)⟩
  have hwrite : ∀ b s, ReachesVia line pf unit s (dirControlledWrite pf env unit base b s).1 := by
    rintro b ⟨s, io⟩
    simp only [dirControlledWrite]
    split
    · exact (Reaches.refl (s, io)).via pf unit
    · have hbuf := hbase.writeBuf b (s, io.emit (setTransmit pf env unit true))
      have hflush := hbase.flush
        (base.writeBuf b (s, io.emit (setTransmit pf env unit true))).1
      apply (htransmit true s io).trans
      apply (hbuf.via pf unit).trans
      apply (hflush.via pf unit).trans
      exact htransmit false _ _
  have hvia : base.Steps (ReachesVia line pf unit) := hbase.mono fun s t h => h.via pf unit
  exact { dirControlled_quietSteps hvia.toQuietSteps with
    writeBuf := hwrite
    write := fun d => hwrite (.mem [d]) }

end DirControlled

/-! ## Calls -/

/-- What a call on the backend may log: events about its port, and if it is a decorator, levels
for the pin of its owner. -/
def Backend.Reach (b : Backend) (pf : Platform) (units : UnitId → RS485Unit) (e : Event) :
    Prop :=
  (∃ port, b.port = some port ∧ e.port = some port) ∨
    ∃ owner, b.owner = some owner ∧ (units owner).Drives pf e

theorem Backend.dispatch_reach (pf : Platform) (env : Env) (units : UnitId → RS485Unit)
    (b : Backend) (call : SerialCall) (io : Io) :
    io.Logs (b.Reach pf units)
      (b.dispatch pf env units (fun serial s => call.perform pf serial s) io).2.1 := by
  have hhs : ∀ s : HSSerial, Reaches HSSerial.hs (s, io)
      (call.perform pf (HSSerial.iserial env) (s, io)).1 := fun s =>
    call.perform_steps Reaches.refl Reaches.trans (HSSerial.steps_reaches env)
      (HSSerial.write_byte env) (s, io)
  have hidf : ∀ s : IDFSerial, Reaches IDFSerial.port (s, io)
      (call.perform pf (IDFSerial.iserial pf env) (s, io)).1 := fun s =>
    call.perform_steps Reaches.refl Reaches.trans (IDFSerial.steps_reaches pf env)
      (IDFSerial.write_byte pf env) (s, io)
  cases b with
  | nullSerial =>
      simp only [dispatch, NullSerial.perform_fst]
      exact .refl io
  | hs s =>
      obtain ⟨-, events, hlog, hevents⟩ := hhs s
      exact ⟨events, hlog, fun e he => Or.inl ⟨s.hs, rfl, hevents e he⟩⟩
  | idf s =>
      obtain ⟨-, events, hlog, hevents⟩ := hidf s
      exact ⟨events, hlog, fun e he => Or.inl ⟨s.port, rfl, hevents e he⟩⟩
  | dirHS s owner =>
      obtain ⟨-, events, hlog, hevents⟩ := call.perform_steps
        (fun s => (Reaches.refl s).via pf (units owner)) (ReachesVia.trans pf (units owner))
        (dirControlled_steps_reaches pf (units owner) (HSSerial.steps_reaches env))
        UnitSIT3088.dirControlled_write_byte (s, io)
      refine ⟨events, hlog, fun e he => ?_⟩
      exact (hevents e he).imp (fun h => ⟨s.hs, rfl, h⟩) fun h => ⟨owner, rfl, h⟩
  | dirIDF s owner =>
      obtain ⟨-, events, hlog, hevents⟩ := call.perform_steps
        (fun s => (Reaches.refl s).via pf (units owner)) (ReachesVia.trans pf (units owner))
        (dirControlled_steps_reaches pf (units owner) (IDFSerial.steps_reaches pf env))
        UnitSIT3088.dirControlled_write_byte (s, io)
      refine ⟨events, hlog, fun e he => ?_⟩
      exact (hevents e he).imp (fun h => ⟨s.port, rfl, h⟩) fun h => ⟨owner, rfl, h⟩

/-! ## Steps -/

namespace World

variable {pf : Platform} {env : Env} {w : World} {u : UnitId}

theorem drainLoop_logs (env : Env) (port : Port) (fuel i elapsed : ℕ) (io : Io) :
    io.Logs (Event.Drains port) (drainLoop env port fuel i elapsed io) := by
  induction fuel generalizing i elapsed io with
  | zero => exact .refl io
  | succ fuel ih =>
      unfold drainLoop
      split
      · exact .refl io
      · refine Io.Logs.trans ?_ (ih _ _ _)
        exact ⟨[.flushRX port, .delay 1, .received port (env.delayArrivals i)],
          by simp [adapterFlushRX], by simp [Event.Drains]⟩

theorem mem_drained (env : Env) (w : World) (flushRX : Bool) (port : Port) :
    ∀ e ∈ (w.drained env flushRX port).log, e.Drains port := by
  have hdrained : (w.io (some port)).Logs (Event.Drains port) (w.drained env flushRX port) := by
    unfold drained
    split
    · exact drainLoop_logs ..
    · exact .refl _
  obtain ⟨events, hlog, hevents⟩ := hdrained
  rw [hlog]
  simpa [io] using hevents

theorem port_of_mem_pinSetup (env : Env) {u : UnitId}
    (hpin : pinRejected pf (w.units u).dirPin = false) {e : Event}
    (he : e ∈ w.pinSetup pf env u) : e.port = none := by
  cases hesp : pf.framework.espPlatform with
  | false =>
      rw [pinSetup_of_not_esp pf env w u hesp] at he
      cases he
  | true =>
      rw [(pinSetup_of_esp pf env w u hesp hpin).2] at he
      rcases List.mem_cons.mp he with rfl | he
      · rfl
      · rw [List.mem_singleton.mp he]
        rfl

variable (pf w) in
/-- What a step may log. -/
inductive StepReach (c : Call) (e : Event) : Prop
  /-- about the port of the unit's backend -/
  | line (u : UnitId) (call : SerialCall) (port : Port) (hop : c.op = .serial u call)
      (hlive : w.live u = true) (hport : (w.backend u).port = some port)
      (he : e.port = some port)
  /-- a level for the pin of the backend's owner -/
  | dir (u owner : UnitId) (call : SerialCall) (hop : c.op = .serial u call)
      (hlive : w.live u = true) (howner : (w.backend u).owner = some owner)
      (hdrives : (w.units owner).Drives pf e)
  /-- a step of the drain loop -/
  | drain (u : UnitId) (ad : AdapterUART) (hop : c.op = .begin u) (hlive : w.live u = true)
      (had : (w.units u).adapter = some ad)
      (hdrains : e.Drains (ad.line pf.framework))
  /-- the pin setup -/
  | setup (u : UnitId) (hop : c.op = .begin u) (hlive : w.live u = true)
      (hkind : (w.units u).kind = .sit3088)
      (hpin : pinRejected pf (w.units u).dirPin = false) (he : e ∈ w.pinSetup pf c.env u)
  | arrive (port : Port) (bytes : List Byte) (hop : c.op = .arrive port bytes)
      (he : e = .received port bytes)
  | transmit (port : Port) (n : ℕ) (b : Byte) (hop : c.op = .transmit port n)
      (he : e = .sent port b)

/-- **Inversion of the log of a step.** -/
theorem step_reach (pf : Platform) (w : World) (c : Call) {e : Event}
    (he : e ∈ (w.step pf c).2.events) : StepReach pf w c e := by
  have heffect := step_effect pf w c
  generalize w.step pf c = r at heffect he
  cases heffect with
  | rejected => cases he
  | construct => cases he
  | destroy => cases he
  | move => cases he
  | moveSelf => cases he
  | install => cases he
  | settings => cases he
  | begin u hop hlive r hbegin =>
      have hdrain : ∀ ad, (w.units u).adapter = some ad →
          e ∈ (w.drained c.env (w.units u).cfg.flushRX (ad.line pf.framework)).log →
          StepReach pf w c e := fun ad had he =>
        .drain u ad hop hlive had (mem_drained c.env w _ _ e he)
      cases hbegin with
      | unready => cases he
      | rejected => cases he
      | failed hkind hpin => exact .setup u hop hlive hkind hpin he
      | plain ad hkind had => exact hdrain ad had he
      | controlled ad hkind hpin had =>
          rcases List.mem_append.mp he with he | he
          · exact .setup u hop hlive hkind hpin he
          · exact hdrain ad had he
  | call u call hop hlive =>
      obtain ⟨events, hlog, hevents⟩ := (w.backend u).dispatch_reach pf c.env w.units call
        (w.io (w.backend u).port)
      have hempty : (w.io (w.backend u).port).log = [] := by
        cases (w.backend u).port <;> rfl
      rw [hempty, List.nil_append] at hlog
      have hmem : e ∈ events := hlog ▸ he
      rcases hevents e hmem with ⟨port, hport, he⟩ | ⟨owner, howner, hdrives⟩
      · exact .line u call port hop hlive hport he
      · exact .dir u owner call hop hlive howner hdrives
  | uartDriver => cases he
  | arrive port bytes hop => exact .arrive port bytes hop (by simpa [exec] using he)
  | transmit port n hop =>
      have hsent : e ∈ ((w.ports port).tx.map (Event.sent port)).take n := by
        simpa [exec, io, Io.transmit] using he
      obtain ⟨b, -, rfl⟩ := List.mem_map.mp (List.mem_of_mem_take hsent)
      exact .transmit port n b hop rfl

end World

end RS485
