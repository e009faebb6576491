import RS485.PendingInput
import RS485.MessageCuts

/-!
# The input of a unit

The pending input of a unit is what its backend holds back, if it is over an `IDFSerial`, and
then the RX ring of its port.  On every UART backend, plain or DIR-controlled, the functions
that read take from its front, `peek` shows the front, `flush(false)` drops what is there, and
everything else leaves it alone (`ISerial.Reads`).  A function that calls the driver may have
bytes arrive at the back.

This needs nothing to be assumed of the driver.  `World.OnPort.conserves` is the law of a call
of a unit that comes of it: what was pending and what arrived is what the call returned and
what is then pending.
-/

namespace RS485

/-! ## Reading from a backend -/

/-- The driver hands out `n` bytes if it has them. -/
def Env.Delivers (env : Env) (n : ℕ) : Prop := ∃ limit, env.delivered = some limit ∧ n ≤ limit

/-- The value of `peek` and `read` for these bytes: the first of them, or `-1`. -/
def front (bytes : List Byte) : ℤ := bytes.head?.elim (-1) fun b => b.toNat

@[simp] theorem front_nil : front [] = -1 := rfl

@[simp] theorem front_cons (b : Byte) (bs : List Byte) : front (b :: bs) = b.toNat := rfl

/-- The settings of the port are the same: its driver, its baud rate, the size of its TX ring,
and the timeout of its `HardwareSerial`. -/
def Io.SameSettings (io io' : Io) : Prop :=
  io'.uart =
    { io.uart with
      rx := io'.uart.rx
      tx := io'.uart.tx
      txRingUsed := io'.uart.txRingUsed }

theorem Io.SameSettings.trans {io io' io'' : Io} (h : io.SameSettings io')
    (h' : io'.SameSettings io'') : io.SameSettings io'' := by
  unfold Io.SameSettings at *
  rw [h', h]

section Settings

variable (env : Env) (port : Port) (io : Io)

theorem sameSettings_emit (events : List Event) : io.SameSettings (io.emit events) := rfl

theorem sameSettings_readBytes (length wait : ℕ) :
    io.SameSettings (uartReadBytes env port length wait io).1 := rfl

theorem sameSettings_writeBytes (bytes : List Byte) :
    io.SameSettings (uartWriteBytes env port bytes io).1 := by
  unfold uartWriteBytes
  cases env.accepted <;> rfl

theorem sameSettings_waitTxDone : io.SameSettings (uartWaitTxDone env port io) := by
  unfold uartWaitTxDone
  dsimp only
  split <;> rfl

theorem sameSettings_flushInput : io.SameSettings (uartFlushInput env port io) := by
  unfold uartFlushInput
  dsimp only
  split <;> rfl

end Settings

section Reads

variable {α : Type}

/-- The pending input: what is held back, and the RX ring. -/
def inputOf (held : α → List Byte) (s : α × Io) : List Byte := held s.1 ++ s.2.uart.rx

/-- The input is left alone, and nothing arrives. -/
def LeavesInput (held : α → List Byte) (s t : α × Io) : Prop :=
  inputOf held t = inputOf held s ∧ receivedBytes t.2.log = receivedBytes s.2.log

/-- `got` is taken from the front of the input, and bytes may arrive at its back.  If the driver
delivers, as much is taken as there is and as the buffer holds, and the call has waited for
what arrives unless there was enough without it. -/
def Fetches (env : Env) (held : α → List Byte) (d : Destination) (s t : α × Io)
    (got : List Byte) : Prop :=
  ∃ arrived, (arrived = env.arrivals ∨ arrived = []) ∧
    receivedBytes t.2.log = receivedBytes s.2.log ++ arrived ∧
    inputOf held s ++ arrived = got ++ inputOf held t ∧ got.length ≤ d.size ∧
    (d.isNull = false → env.Delivers d.size →
      (arrived = env.arrivals ∨ d.size ≤ (inputOf held s).length) ∧
        got = (inputOf held s ++ arrived).take d.size)

/-- What the functions of a UART backend do to its input.  None of them changes the settings of
the port. -/
structure ISerial.Reads (env : Env) (held : α → List Byte) (serial : ISerial (α × Io)) :
    Prop where
  available : ∀ s, LeavesInput held s (serial.available s).1 ∧
    (env.bufferedDataLen = true → (serial.available s).2 = (inputOf held s).length)
  availableForWrite : ∀ s, LeavesInput held s (serial.availableForWrite s).1
  peek : ∀ s, ∃ arrived, (arrived = env.arrivals ∨ arrived = []) ∧
    receivedBytes (serial.peek s).1.2.log = receivedBytes s.2.log ++ arrived ∧
    inputOf held (serial.peek s).1 = inputOf held s ++ arrived ∧
    (env.Delivers 1 → (serial.peek s).2 = front (inputOf held s ++ arrived))
  read : ∀ s, ∃ got, Fetches env held ⟨false, 1⟩ s (serial.read s).1 got ∧
    (serial.read s).2 = front got
  readBuf : ∀ d s, Fetches env held d s (serial.readBuf d s).1 (serial.readBuf d s).2
  readBytes : ∀ d s, Fetches env held d s (serial.readBytes d s).1 (serial.readBytes d s).2
  readBytesTimeout : ∀ d ms s,
    Fetches env held d s (serial.readBytesTimeout d ms s).1 (serial.readBytesTimeout d ms s).2
  flush : ∀ s, LeavesInput held s (serial.flush s)
  flushTx : ∀ s, LeavesInput held s (serial.flushTx true s)
  flushInput : ∀ s,
    receivedBytes (serial.flushTx false s).2.log = receivedBytes s.2.log ∧
      (env.flushInput = true → inputOf held (serial.flushTx false s) = []) ∧
      ∃ n, inputOf held (serial.flushTx false s) = (inputOf held s).drop n
  writeBuf : ∀ b s, LeavesInput held s (serial.writeBuf b s).1
  baudRate : ∀ s, LeavesInput held s (serial.baudRate s).1 ∧
    (env.baudrate = true → (serial.baudRate s).2 = s.2.uart.baud)
  settings : serial.Steps fun s t => s.2.SameSettings t.2

variable {held : α → List Byte}

theorem LeavesInput.trans {s t u : α × Io} (h : LeavesInput held s t)
    (h' : LeavesInput held t u) : LeavesInput held s u :=
  ⟨h'.1.trans h.1, h'.2.trans h.2⟩

theorem leavesInput_refl (s : α × Io) : LeavesInput held s s := ⟨rfl, rfl⟩

theorem leavesInput_emit (s : α) (io : Io) {events : List Event}
    (h : receivedBytes events = []) : LeavesInput held (s, io) (s, io.emit events) :=
  ⟨rfl, by simp [h]⟩

theorem leavesInput_waitTxDone (env : Env) (port : Port) (s : α) (io : Io) :
    LeavesInput held (s, io) (s, uartWaitTxDone env port io) := by
  unfold uartWaitTxDone
  dsimp only
  split
  · exact ⟨rfl, by simp [Event.arrived]⟩
  · exact ⟨rfl, by simp [Event.arrived]⟩

end Reads

/-! ### Arduino -/

namespace HSSerial

variable (env : Env)

/-- An `HSSerial` holds nothing back. -/
def held : HSSerial → List Byte := fun _ => []

@[simp] theorem inputOf_held (s : HSSerial × Io) : inputOf held s = s.2.uart.rx := rfl

/-- A read of the `HardwareSerial` hands out what the driver does. -/
theorem readBuf_eq (port : Port) (wait size : ℕ) (io : Io) :
    HardwareSerial.readBuf env port wait size io =
      ((uartReadBytes env port size wait io).1,
        (io.uart.rx ++ env.arrivals).take (env.readCount size)) := by
  unfold HardwareSerial.readBuf uartReadBytes
  cases hdelivered : env.delivered with
  | none => simp [Env.readCount_of_none env hdelivered]
  | some limit => rfl

theorem fetches_readBuf (wait : ℕ) (d : Destination) (s : HSSerial) (io : Io) :
    Fetches env held d (s, io) (s, (HardwareSerial.readBuf env s.hs wait d.size io).1)
      (HardwareSerial.readBuf env s.hs wait d.size io).2 := by
  rw [readBuf_eq]
  refine ⟨env.arrivals, Or.inl rfl, by simp [uartReadBytes, Event.arrived], ?_, ?_, ?_⟩
  · exact (List.take_append_drop ..).symm
  · rw [List.length_take]
    exact (min_le_left ..).trans (env.readCount_le d.size)
  · rintro - ⟨limit, hdelivered, hlimit⟩
    refine ⟨Or.inl rfl, ?_⟩
    rw [env.readCount_of_le hdelivered hlimit]
    rfl

/-- `read()` is a read of one byte. -/
theorem read_eq (port : Port) (io : Io) :
    HardwareSerial.read env port io =
      ((HardwareSerial.readBuf env port 0 1 io).1,
        front (HardwareSerial.readBuf env port 0 1 io).2) := by
  unfold HardwareSerial.read HardwareSerial.readBuf
  rw [IDFSerial.uartReadBytes_one]
  cases env.delivered with
  | none => rfl
  | some limit => cases ((io.uart.rx ++ env.arrivals).take (env.readCount 1)).head? <;> rfl

theorem steps_settings : (iserial env).Steps fun s t => s.2.SameSettings t.2 where
  available _ := rfl
  availableForWrite _ := rfl
  peek s := by
    simp only [iserial, pass, HardwareSerial.peek]
    split <;> rfl
  read s := by
    simp only [iserial, pass, read_eq, readBuf_eq]
    exact sameSettings_readBytes env s.1.hs s.2 1 0
  readBuf d s := by
    simp only [iserial, pass, readBuf_eq]
    exact sameSettings_readBytes env s.1.hs s.2 d.size 0
  readBytes d s := by
    simp only [iserial, pass, readBuf_eq]
    exact sameSettings_readBytes env s.1.hs s.2 d.size s.2.uart.timeout
  -- the timeout is set and put back
  readBytesTimeout d ms s := by
    simp only [iserial, readBytesTimeout, readBuf_eq]
    rfl
  flush s := sameSettings_waitTxDone env s.1.hs s.2
  flushTx txOnly s := by
    have hwait := sameSettings_waitTxDone env s.1.hs s.2
    cases txOnly with
    | true => exact hwait
    | false => exact hwait.trans (sameSettings_flushInput env s.1.hs _)
  writeBuf b s := by
    have hwrite := sameSettings_writeBytes env s.1.hs s.2 b.bytes
    simp only [iserial, pass, HardwareSerial.write]
    split <;> simp_all
  write b s := by
    have hwrite := sameSettings_writeBytes env s.1.hs s.2 [b]
    simp only [iserial, pass, HardwareSerial.write]
    split <;> simp_all
  baudRate _ := rfl

theorem reads : (iserial env).Reads env held where
  settings := steps_settings env
  available s := ⟨⟨rfl, by simp [iserial, pass, HardwareSerial.available, Event.arrived]⟩,
    fun _ => rfl⟩
  availableForWrite s :=
    ⟨rfl, by simp [iserial, pass, HardwareSerial.availableForWrite, Event.arrived]⟩
  peek := by
    rintro ⟨s, io⟩
    refine ⟨[], Or.inr rfl, ?_⟩
    simp only [iserial, pass, HardwareSerial.peek]
    cases hrx : io.uart.rx with
    | nil => simp [hrx]
    | cons b bs => simp [hrx]
  read := by
    rintro ⟨s, io⟩
    refine ⟨(HardwareSerial.readBuf env s.hs 0 1 io).2, ?_, ?_⟩
    · simp only [iserial, pass, read_eq]
      exact fetches_readBuf env 0 ⟨false, 1⟩ s io
    · simp only [iserial, pass, read_eq]
  readBuf d s := fetches_readBuf env 0 d s.1 s.2
  readBytes d s := fetches_readBuf env s.2.uart.timeout d s.1 s.2
  readBytesTimeout d ms s :=
    fetches_readBuf env ms.toNat d s.1 (HardwareSerial.setTimeout ms.toNat s.2)
  flush s := leavesInput_waitTxDone env s.1.hs s.1 s.2
  flushTx s := leavesInput_waitTxDone env s.1.hs s.1 s.2
  flushInput := by
    rintro ⟨s, io⟩
    have hwait : LeavesInput held (s, io) (s, uartWaitTxDone env s.hs io) :=
      leavesInput_waitTxDone env s.hs s io
    simp only [iserial, HardwareSerial.flushTx, uartFlushInput]
    cases env.flushInput with
    | false => exact ⟨by simpa [Event.arrived] using hwait.2, by simp, 0, hwait.1⟩
    | true => exact ⟨by simpa [Event.arrived] using hwait.2, by simp, io.uart.rx.length, by simp⟩
  writeBuf b := by
    rintro ⟨s, io⟩
    simp only [iserial, pass, HardwareSerial.write, uartWriteBytes]
    cases env.accepted with
    | none => exact leavesInput_emit s io (by simp [Event.arrived])
    | some limit => exact ⟨rfl, by simp [Event.arrived]⟩
  baudRate s := ⟨⟨rfl, by simp [iserial, pass, HardwareSerial.baudRate, Event.arrived]⟩,
    fun _ => rfl⟩

end HSSerial

/-! ### ESP-IDF -/

namespace IDFSerial

variable (pf : Platform) (env : Env)

/-- An `IDFSerial` holds back the byte it has peeked. -/
def heldBack (s : IDFSerial) : List Byte := s.peeked.toList

theorem Untouched.leavesInput {s t : IDFSerial × Io} (h : Untouched s t) :
    LeavesInput heldBack s t := by
  obtain ⟨hpeeked, hrx, hlog⟩ := h
  exact ⟨by simp [inputOf, heldBack, hpeeked, hrx], hlog⟩

theorem fetches_readWithWait (ticks : ℕ) (d : Destination) (s : IDFSerial) (io : Io) :
    Fetches env heldBack d (s, io) (readWithWait env ticks d (s, io)).1
      (readWithWait env ticks d (s, io)).2 := by
  by_cases hempty : d.isNull = true ∨ d.size = 0
  · have hr : readWithWait env ticks d (s, io) = ((s, io), []) := if_pos hempty
    rw [hr]
    refine ⟨[], Or.inr rfl, by simp, by simp, by simp, fun hnull _ => ?_⟩
    have hsize : d.size = 0 := by simpa [hnull] using hempty
    exact ⟨Or.inr (by omega), by simp [hsize]⟩
  · obtain ⟨hnull, hsize⟩ := not_or.mp hempty
    by_cases hheld : d.size ≤ s.held
    · -- the byte held back fills the buffer
      have hr : readWithWait env ticks d (s, io) =
          (({ s with peeked := none }, io), s.peeked.toList) := by
        simp [readWithWait, hempty, hheld]
      have hone : d.size = s.peeked.toList.length := by
        have hle : s.held ≤ 1 := by unfold held; split <;> omega
        rw [length_toList_peeked]
        omega
      rw [hr]
      refine ⟨[], Or.inr rfl, by simp, by simp [inputOf, heldBack], hone.ge,
        fun _ _ => ⟨Or.inr ?_, ?_⟩⟩
      · simp [inputOf, heldBack, hone]
      · simp [inputOf, heldBack, hone]
    · -- it goes to the front of the buffer, and the driver is asked for the rest
      have hr : readWithWait env ticks d (s, io) =
          (({ s with peeked := none },
            (uartReadBytes env s.port (d.size - s.held) ticks io).1),
            s.peeked.toList ++
              (io.uart.rx ++ env.arrivals).take (env.readCount (d.size - s.held))) := by
        simp only [readWithWait, if_neg hempty, if_neg hheld, uartReadBytes]
        cases hdelivered : env.delivered with
        | none => simp [Env.readCount_of_none env hdelivered]
        | some limit => rfl
      rw [hr]
      refine ⟨env.arrivals, Or.inl rfl, by simp [uartReadBytes, Event.arrived], ?_, ?_, ?_⟩
      · simp [inputOf, heldBack, uartReadBytes]
      · have hle := env.readCount_le (d.size - s.held)
        rw [List.length_append, length_toList_peeked, List.length_take]
        omega
      · rintro - ⟨limit, hdelivered, hlimit⟩
        have hcount : env.readCount (d.size - s.held) = d.size - s.held :=
          env.readCount_of_le hdelivered (le_trans (Nat.sub_le ..) hlimit)
        have hsplit : d.size = s.peeked.toList.length + (d.size - s.held) := by
          rw [length_toList_peeked]
          omega
        refine ⟨Or.inl rfl, ?_⟩
        rw [hcount, inputOf, heldBack, List.append_assoc, hsplit, List.take_length_add_append]
        simp

/-- `read()` is a read of one byte that does not wait. -/
theorem read_eq (s : IDFSerial) (io : Io) :
    read env (s, io) =
      ((readWithWait env 0 ⟨false, 1⟩ (s, io)).1,
        front (readWithWait env 0 ⟨false, 1⟩ (s, io)).2) := by
  cases hpeeked : s.peeked with
  | some b => simp [read, readWithWait, held, hpeeked]
  | none =>
      have hs : { s with peeked := none } = s := by rw [← hpeeked]
      have hwait : readWithWait env 0 ⟨false, 1⟩ (s, io) =
          ((s, (uartReadBytes env s.port 1 0 io).1),
            (uartReadBytes env s.port 1 0 io).2.getD []) := by
        cases hread : uartReadBytes env s.port 1 0 io with
        | mk io' got => cases got <;> simp [readWithWait, held, hpeeked, hread, hs]
      rw [hwait]
      simp only [read, hpeeked, uartReadBytes_one]
      cases env.delivered with
      | none => rfl
      | some limit =>
          cases ((io.uart.rx ++ env.arrivals).take (env.readCount 1)).head? <;> rfl

theorem readWithWait_settings (ticks : ℕ) (d : Destination) (s : IDFSerial × Io) :
    s.2.SameSettings (readWithWait env ticks d s).1.2 := by
  obtain ⟨s, io⟩ := s
  have hread := sameSettings_readBytes env s.port io (d.size - s.held) ticks
  simp only [readWithWait]
  split
  · rfl
  · split
    · rfl
    · split <;> simp_all

theorem writeBuf_settings (b : Buffer) (s : IDFSerial × Io) :
    s.2.SameSettings (writeBuf env b s).1.2 := by
  obtain ⟨s, io⟩ := s
  have hwrite := sameSettings_writeBytes env s.port io b.bytes
  simp only [writeBuf]
  split
  · rfl
  · split <;> simp_all

theorem steps_settings : (iserial pf env).Steps fun s t => s.2.SameSettings t.2 where
  available := by
    rintro ⟨s, io⟩
    simp only [iserial, available_eq]
    rfl
  availableForWrite := by
    rintro ⟨s, io⟩
    have hemit := sameSettings_emit io [.txBufferFreeSize s.port]
    simp only [iserial, availableForWrite, uartGetTxBufferFreeSize]
    cases env.txBufferFreeSize with
    | false => exact hemit
    | true =>
        simp only [if_true]
        split
        · exact hemit
        · split <;> exact hemit
  peek := by
    rintro ⟨s, io⟩
    have hread := sameSettings_readBytes env s.port io 1 0
    simp only [iserial, peek]
    split
    · rfl
    · split <;> simp_all
  read := by
    rintro ⟨s, io⟩
    simp only [iserial, read_eq]
    exact readWithWait_settings env 0 ⟨false, 1⟩ (s, io)
  readBuf d s := readWithWait_settings env 0 d s
  readBytes d s := readWithWait_settings env _ d s
  readBytesTimeout d ms s := readWithWait_settings env _ d s
  flush s := sameSettings_waitTxDone env s.1.port s.2
  flushTx txOnly s := by
    have hwait := sameSettings_waitTxDone env s.1.port s.2
    cases txOnly with
    | true => exact hwait
    | false => exact hwait.trans (sameSettings_flushInput env s.1.port _)
  writeBuf b s := writeBuf_settings env b s
  write b s := writeBuf_settings env (.mem [b]) s
  baudRate := by
    rintro ⟨s, io⟩
    have hemit := sameSettings_emit io [.getBaudrate s.port]
    simp only [iserial, baudRate, uartGetBaudrate]
    cases env.baudrate <;> exact hemit

theorem reads : (iserial pf env).Reads env heldBack where
  settings := steps_settings pf env
  available := by
    rintro ⟨s, io⟩
    simp only [iserial, available_eq]
    refine ⟨leavesInput_emit s io (by simp [Event.arrived]), fun hlen => ?_⟩
    simp [inputOf, heldBack, hlen]
  availableForWrite s := (untouched_availableForWrite pf env s.1 s.2).leavesInput
  peek := by
    rintro ⟨s, io⟩
    simp only [iserial, peek]
    cases hpeeked : s.peeked with
    | some b => exact ⟨[], Or.inr rfl, by simp, by simp, by simp [inputOf, heldBack, hpeeked]⟩
    | none =>
        refine ⟨env.arrivals, Or.inl rfl, ?_⟩
        rw [uartReadBytes_one]
        have hsplit := List.take_append_drop (env.readCount 1) (io.uart.rx ++ env.arrivals)
        rw [take_readCount_one] at hsplit
        have hfront : env.Delivers 1 →
            ((io.uart.rx ++ env.arrivals).take (env.readCount 1)).head? =
              (io.uart.rx ++ env.arrivals).head? := by
          rintro ⟨limit, hdelivered, hlimit⟩
          rw [env.readCount_of_le hdelivered hlimit]
          cases io.uart.rx ++ env.arrivals <;> rfl
        cases hdelivered : env.delivered with
        | none =>
            refine ⟨by simp [Event.arrived], ?_, ?_⟩
            · simp [inputOf, heldBack, hpeeked, Env.readCount_of_none env hdelivered]
            · rintro ⟨limit, hsome, -⟩
              rw [hdelivered] at hsome
              cases hsome
        | some limit =>
            cases hhead : ((io.uart.rx ++ env.arrivals).take (env.readCount 1)).head? with
            | none =>
                refine ⟨by simp [Event.arrived], ?_, fun h => ?_⟩
                · simpa [inputOf, heldBack, hpeeked, hhead] using hsplit
                · have hnone := hfront h
                  rw [hhead] at hnone
                  simp [front, inputOf, heldBack, hpeeked, ← hnone]
            | some b =>
                refine ⟨by simp [Event.arrived], ?_, fun h => ?_⟩
                · simpa [inputOf, heldBack, hpeeked, hhead] using hsplit
                · have hsome := hfront h
                  rw [hhead] at hsome
                  simp [front, inputOf, heldBack, hpeeked, ← hsome]
  read := by
    rintro ⟨s, io⟩
    have hread : (iserial pf env).read (s, io) =
        ((readWithWait env 0 ⟨false, 1⟩ (s, io)).1,
          front (readWithWait env 0 ⟨false, 1⟩ (s, io)).2) := read_eq env s io
    rw [hread]
    exact ⟨_, fetches_readWithWait env 0 ⟨false, 1⟩ s io, rfl⟩
  readBuf d s := fetches_readWithWait env 0 d s.1 s.2
  readBytes d s := fetches_readWithWait env _ d s.1 s.2
  readBytesTimeout d ms s := fetches_readWithWait env _ d s.1 s.2
  flush s := (untouched_flush env s.1 s.2).leavesInput
  flushTx s := (untouched_flush env s.1 s.2).leavesInput
  flushInput := by
    rintro ⟨s, io⟩
    refine ⟨(flushTx_clears env s io).1, fun hflush => ?_, _, (flushTx_clears env s io).2⟩
    simp [iserial, flushTx, uartFlushInput, hflush, inputOf, heldBack]
  writeBuf b s := (untouched_writeBuf env s.1 s.2 b).leavesInput
  baudRate := by
    rintro ⟨s, io⟩
    refine ⟨(untouched_baudRate env s io).leavesInput, fun hbaud => ?_⟩
    simp [iserial, baudRate, uartGetBaudrate, hbaud]

end IDFSerial

/-! ### The decorators -/

/-- A write drives the pin, and that brings no input. -/
theorem dirControlled_reads {α : Type} (pf : Platform) {env : Env} (unit : RS485Unit)
    {held : α → List Byte} {base : ISerial (α × Io)} (h : base.Reads env held) :
    (UnitSIT3088.dirControlled pf env unit base).Reads env held :=
  { h with
    settings := UnitSIT3088.dirControlled_steps (fun _ => rfl) (fun h h' => h.trans h')
      h.settings fun _ _ _ => rfl
    writeBuf := by
      rintro b ⟨s, io⟩
      simp only [UnitSIT3088.dirControlled, UnitSIT3088.dirControlledWrite]
      split
      · exact leavesInput_refl _
      · refine (leavesInput_emit s io
          (IDFSerial.receivedBytes_setTransmit pf env unit true)).trans ?_
        refine (h.writeBuf b _).trans ((h.flush _).trans ?_)
        exact leavesInput_emit _ _ (IDFSerial.receivedBytes_setTransmit pf env unit false) }

/-! ## Calls -/

/-- A relation that the buffer write and `flush(true)` respect is respected by every write. -/
theorem SerialCall.perform_payload_steps {σ : Type} {pf : Platform} {serial : ISerial σ}
    {call : SerialCall} {b : Buffer} {wait : Bool} {R : σ → σ → Prop} (hrefl : ∀ s, R s s)
    (htrans : ∀ {s t u}, R s t → R t u → R s u)
    (hwrite : ∀ b s, R s (serial.writeBuf b s).1) (hflush : ∀ s, R s (serial.flushTx true s))
    (hbyte : ∀ d s, serial.write d s = serial.writeBuf (.mem [d]) s)
    (hpayload : call.payload pf = some (b, wait)) (s : σ) :
    R s (call.perform pf serial s).1 := by
  have hbuf : R s (RS485Component.writeBuf serial b s).1 := by
    unfold RS485Component.writeBuf
    split
    · exact hrefl s
    · exact hwrite b s
  rw [perform_of_payload hbyte hpayload]
  unfold send RS485Component.writeWaiting
  dsimp only
  split
  · split
    · exact htrans hbuf (hflush _)
    · exact hbuf
  · exact hbuf

/-- A call on a UART backend accounts for every byte, whatever the driver does. -/
theorem ISerial.OnUart.perform_extends {α : Type} {env : Env} {serial : ISerial (α × Io)}
    (h : serial.OnUart env) (pf : Platform) (call : SerialCall) (s : α × Io) :
    s.2.Extends (fun _ => True) (call.perform pf serial s).1.2 := by
  cases hpayload : call.payload pf with
  | none =>
      have hquiet : s.2.Extends Event.Quiet (call.perform pf serial s).1.2 :=
        SerialCall.perform_quiet h.quiet hpayload s
      exact hquiet.mono fun _ _ => trivial
  | some p =>
      exact SerialCall.perform_payload_steps
        (R := fun s t : α × Io => s.2.Extends (fun _ => True) t.2) (fun s => .refl s.2)
        (fun h h' => h.trans h') h.write
        (fun s => (h.quiet.flushTx true s).mono fun _ _ => trivial) h.write_byte hpayload s

section Calls

variable {α : Type} {env : Env} {held : α → List Byte} {serial : ISerial (α × Io)}

/-- Writes leave the input alone. -/
theorem ISerial.Reads.leavesInput (h : serial.Reads env held)
    (hbyte : ∀ d s, serial.write d s = serial.writeBuf (.mem [d]) s) {pf : Platform}
    {call : SerialCall} {b : Buffer} {wait : Bool}
    (hpayload : call.payload pf = some (b, wait)) (s : α × Io) :
    LeavesInput held s (call.perform pf serial s).1 :=
  SerialCall.perform_payload_steps leavesInput_refl (fun h h' => h.trans h') h.writeBuf h.flushTx
    hbyte hpayload s

/-- **Conservation.**  What was pending and what arrives is what the call returns and what is
then pending, whatever the driver does. -/
theorem ISerial.Reads.conserves (h : serial.Reads env held)
    (hbyte : ∀ d s, serial.write d s = serial.writeBuf (.mem [d]) s) (pf : Platform)
    {call : SerialCall} (hcall : (IDFSerial.Input.call call env).keepsStream = true) (s : α)
    (uart : UartPort) :
    let r := call.perform pf serial (s, ⟨uart, []⟩)
    inputOf held (s, ⟨uart, []⟩) ++ receivedBytes r.1.2.log =
      (IDFSerial.Input.call call env).returned r.2 ++ inputOf held r.1 := by
  intro r
  have hleaves : LeavesInput held (s, ⟨uart, []⟩) r.1 →
      (IDFSerial.Input.call call env).returned r.2 = [] →
      inputOf held (s, ⟨uart, []⟩) ++ receivedBytes r.1.2.log =
        (IDFSerial.Input.call call env).returned r.2 ++ inputOf held r.1 := by
    rintro ⟨hinput, hlog⟩ hnone
    have hlog' : receivedBytes r.1.2.log = [] := hlog
    rw [hinput, hlog', hnone, List.append_nil, List.nil_append]
  have hfetches : ∀ (d : Destination) (got : List Byte),
      Fetches env held d (s, ⟨uart, []⟩) r.1 got →
      (IDFSerial.Input.call call env).returned r.2 = got →
      inputOf held (s, ⟨uart, []⟩) ++ receivedBytes r.1.2.log =
        (IDFSerial.Input.call call env).returned r.2 ++ inputOf held r.1 := by
    rintro d got ⟨arrived, -, hlog, hinput, -⟩ hgot
    have hlog' : receivedBytes r.1.2.log = arrived := hlog
    rw [hlog', hgot, hinput]
  cases hpayload : call.payload pf with
  | some p =>
      refine hleaves (h.leavesInput hbyte hpayload _) ?_
      cases call <;> simp only [SerialCall.payload, reduceCtorEq] at hpayload <;> rfl
  | none =>
      cases call with
      | baudRate => exact hleaves (h.baudRate _).1 rfl
      | available => exact hleaves (h.available _).1 rfl
      | availableForWrite => exact hleaves (h.availableForWrite _) rfl
      | peek =>
          obtain ⟨arrived, -, hlog, hinput, -⟩ := h.peek (s, ⟨uart, []⟩)
          have hlog' : receivedBytes r.1.2.log = arrived := hlog
          have hinput' : inputOf held r.1 = inputOf held (s, ⟨uart, []⟩) ++ arrived := hinput
          rw [hlog', hinput']
          rfl
      | read =>
          obtain ⟨got, hgot, hvalue⟩ := h.read (s, ⟨uart, []⟩)
          obtain ⟨-, -, -, -, hone, -⟩ := id hgot
          refine hfetches ⟨false, 1⟩ got hgot ?_
          have hr : r.2 = .int (front got) := congrArg Result.int hvalue
          rw [hr]
          cases got with
          | nil => rfl
          | cons b rest =>
              obtain rfl : rest = [] := List.eq_nil_of_length_eq_zero (by simpa using hone)
              simp [IDFSerial.Input.returned, not_lt.mpr (Int.natCast_nonneg _)]
      | readBuf d => exact hfetches d _ (h.readBuf d _) rfl
      | readBytes d => exact hfetches d _ (h.readBytes d _) rfl
      | readBytesTimeout d ms => exact hfetches d _ (h.readBytesTimeout d ms _) rfl
      | flush => exact hleaves (h.flush _) rfl
      | flushTx txOnly =>
          cases txOnly with
          | true => exact hleaves (h.flushTx _) rfl
          | false => cases hcall
      | readValue le T => cases hcall
      | _ => simp [SerialCall.payload] at hpayload

/-- What arrives during a call is what the environment has for it, or nothing. -/
theorem ISerial.Reads.arrivals (h : serial.Reads env held)
    (hbyte : ∀ d s, serial.write d s = serial.writeBuf (.mem [d]) s) (pf : Platform)
    (call : SerialCall) (s : α) (uart : UartPort) :
    let log := (call.perform pf serial (s, ⟨uart, []⟩)).1.2.log
    receivedBytes log = env.arrivals ∨ receivedBytes log = [] := by
  intro log
  have hfetches : ∀ (d : Destination) (t : α × Io) (got : List Byte),
      Fetches env held d (s, ⟨uart, []⟩) t got →
      receivedBytes t.2.log = env.arrivals ∨ receivedBytes t.2.log = [] := by
    rintro d t got ⟨arrived, harrived, hlog, -⟩
    have hlog' : receivedBytes t.2.log = arrived := hlog
    rw [hlog']
    exact harrived
  cases hpayload : call.payload pf with
  | some p => exact Or.inr (h.leavesInput hbyte hpayload _).2
  | none =>
      cases call with
      | baudRate => exact Or.inr (h.baudRate (s, ⟨uart, []⟩)).1.2
      | available => exact Or.inr (h.available (s, ⟨uart, []⟩)).1.2
      | availableForWrite => exact Or.inr (h.availableForWrite (s, ⟨uart, []⟩)).2
      | peek =>
          obtain ⟨arrived, harrived, hlog, -⟩ := h.peek (s, ⟨uart, []⟩)
          have hlog' : receivedBytes log = arrived := hlog
          rw [hlog']
          exact harrived
      | read =>
          obtain ⟨got, hgot, -⟩ := h.read (s, ⟨uart, []⟩)
          exact hfetches _ _ _ hgot
      | readBuf d => exact hfetches _ _ _ (h.readBuf d (s, ⟨uart, []⟩))
      | readBytes d => exact hfetches _ _ _ (h.readBytes d (s, ⟨uart, []⟩))
      | readBytesTimeout d ms => exact hfetches _ _ _ (h.readBytesTimeout d ms (s, ⟨uart, []⟩))
      | flush => exact Or.inr (h.flush (s, ⟨uart, []⟩)).2
      | flushTx txOnly =>
          cases txOnly with
          | true => exact Or.inr (h.flushTx (s, ⟨uart, []⟩)).2
          | false => exact Or.inr (h.flushInput (s, ⟨uart, []⟩)).1
      | readValue le T =>
          have hlog : log = (serial.readBytes ⟨false, T.size⟩ (s, ⟨uart, []⟩)).1.2.log := by
            simp only [log, SerialCall.perform, RS485Component.readValue_eq]
          rw [hlog]
          exact hfetches _ _ _ (h.readBytes ⟨false, T.size⟩ (s, ⟨uart, []⟩))
      | _ => simp [SerialCall.payload] at hpayload

end Calls

/-! ## Units -/

/-- What a backend holds back. -/
def Backend.held : Backend → List Byte
  | .idf s | .dirIDF s _ => s.peeked.toList
  | _ => []

/-- A backend that is bound to a port runs its calls on a UART backend that is read as
`ISerial.Reads` says. -/
theorem Backend.dispatch_reads (pf : Platform) (env : Env) (units : UnitId → RS485Unit)
    {b : Backend} {port : Port} (hport : b.port = some port) :
    ∃ (α : Type) (held : α → List Byte) (serial : ISerial (α × Io)) (s : α),
      serial.OnUart env ∧ serial.Reads env held ∧ b.held = held s ∧
      ∀ (call : SerialCall) (io : Io),
        let r := b.dispatch pf env units (fun serial s => call.perform pf serial s) io
        let p := call.perform pf serial (s, io)
        r.1.held = held p.1.1 ∧ r.2 = (p.1.2, p.2) := by
  cases b with
  | nullSerial => cases hport
  | hs s =>
      exact ⟨HSSerial, HSSerial.held, _, s, HSSerial.onUart env, HSSerial.reads env, rfl,
        fun _ _ => ⟨rfl, rfl⟩⟩
  | idf s =>
      exact ⟨IDFSerial, IDFSerial.heldBack, _, s, IDFSerial.onUart pf env,
        IDFSerial.reads pf env, rfl, fun _ _ => ⟨rfl, rfl⟩⟩
  | dirHS s owner =>
      exact ⟨HSSerial, HSSerial.held, _, s,
        dirControlled_onUart pf (units owner) (HSSerial.onUart env) (HSSerial.onBus env),
        dirControlled_reads pf (units owner) (HSSerial.reads env), rfl, fun _ _ => ⟨rfl, rfl⟩⟩
  | dirIDF s owner =>
      exact ⟨IDFSerial, IDFSerial.heldBack, _, s,
        dirControlled_onUart pf (units owner) (IDFSerial.onUart pf env) (IDFSerial.onBus pf env),
        dirControlled_reads pf (units owner) (IDFSerial.reads pf env), rfl,
        fun _ _ => ⟨rfl, rfl⟩⟩

namespace World

/-- The pending input of a unit. -/
def input (w : World) (u : UnitId) : List Byte :=
  match (w.backend u).port with
  | some p => (w.backend u).held ++ (w.ports p).rx
  | none => []

theorem OnPort.input_eq {w : World} {u : UnitId} {port : Port} (h : w.OnPort u port) :
    w.input u = (w.backend u).held ++ (w.ports port).rx := by
  simp only [input, h.port]

/-- A call of a unit on a port, as a call of a UART backend. -/
theorem OnPort.call (pf : Platform) {w : World} {u : UnitId} {port : Port} (h : w.OnPort u port)
    (env : Env) :
    ∃ (α : Type) (held : α → List Byte) (serial : ISerial (α × Io)) (s : α),
      serial.OnUart env ∧ serial.Reads env held ∧
      w.input u = inputOf held (s, ⟨w.ports port, []⟩) ∧
      ∀ call : SerialCall,
        let p := call.perform pf serial (s, ⟨w.ports port, []⟩)
        let r := w.step pf ⟨.serial u call, env⟩
        r.1.input u = inputOf held p.1 ∧ r.1.ports port = p.1.2.uart ∧
          r.2 = ⟨p.2, p.1.2.log⟩ := by
  obtain ⟨α, held, serial, s, huart, hreads, hheld, hdispatch⟩ :=
    Backend.dispatch_reads pf env w.units h.port
  refine ⟨α, held, serial, s, huart, hreads, ?_, fun call => ?_⟩
  · rw [h.input_eq, hheld]
    rfl
  · intro p r
    obtain ⟨hheld', hp⟩ := hdispatch call ⟨w.ports port, []⟩
    have hr : r = w.serialCall pf env u call := step_serial pf h.live call env
    have hself : r.1.backend u = ((w.backend u).dispatch pf env w.units
        (fun serial s => call.perform pf serial s) ⟨w.ports port, []⟩).1 := by
      rw [hr, h.owned.backend_serialCall_self h.live, h.port]
      rfl
    have hports : r.1.ports port = p.1.2.uart := by
      simp only [hr, serialCall, h.port, World.io, hp, storePort_ports_some, Function.update_self]
      rfl
    refine ⟨?_, hports, ?_⟩
    · have hstep : r.1.OnPort u port := h.step call env
      rw [hstep.input_eq, hself, hheld', hports]
      rfl
    · simp only [hr, serialCall, h.port, World.io, hp]
      rfl

/-- **A call of a unit** returns from the front of its input, and leaves the rest. -/
theorem OnPort.conserves {pf : Platform} {w : World} {u : UnitId} {port : Port}
    (h : w.OnPort u port) {call : SerialCall} {env : Env}
    (hcall : (IDFSerial.Input.call call env).keepsStream = true) :
    let r := w.step pf ⟨.serial u call, env⟩
    w.input u ++ receivedBytes r.2.events =
      (IDFSerial.Input.call call env).returned r.2.result ++ r.1.input u := by
  intro r
  obtain ⟨α, held, serial, s, huart, hreads, hinput, hcalls⟩ := h.call pf env
  obtain ⟨hinput', -, hout⟩ := hcalls call
  have hconserves := hreads.conserves huart.write_byte pf hcall s (w.ports port)
  rw [hinput, hinput', hout]
  exact hconserves

/-- What arrives during a call is what the environment has for it, or nothing. -/
theorem OnPort.arrivals {pf : Platform} {w : World} {u : UnitId} {port : Port}
    (h : w.OnPort u port) (call : SerialCall) (env : Env) :
    let events := (w.step pf ⟨.serial u call, env⟩).2.events
    receivedBytes events = env.arrivals ∨ receivedBytes events = [] := by
  intro events
  obtain ⟨α, held, serial, s, huart, hreads, -, hcalls⟩ := h.call pf env
  obtain ⟨-, -, hout⟩ := hcalls call
  have hevents : events = (call.perform pf serial (s, ⟨w.ports port, []⟩)).1.2.log :=
    congrArg Outcome.events hout
  rw [hevents]
  exact hreads.arrivals huart.write_byte pf call s (w.ports port)

/-- What leaves the port in a call is what was pending and what the driver accepts, up to what
is then pending. -/
theorem OnPort.transmits {pf : Platform} {w : World} {u : UnitId} {port : Port}
    (h : w.OnPort u port) (call : SerialCall) (env : Env) :
    let r := w.step pf ⟨.serial u call, env⟩
    sentBytes r.2.events ++ (r.1.ports port).tx =
      (w.ports port).tx ++ acceptedBytes r.2.events := by
  intro r
  obtain ⟨α, held, serial, s, huart, hreads, -, hcalls⟩ := h.call pf env
  obtain ⟨-, hports, hout⟩ := hcalls call
  have hextends := huart.perform_extends pf call (s, ⟨w.ports port, []⟩)
  obtain ⟨events, hlog, -, hbytes⟩ := hextends
  have hlog' : r.2.events = events := by
    rw [hout]
    simpa using hlog
  rw [hlog', hports]
  exact hbytes

end World

end RS485
