import RS485.Serial.Interface
import RS485.TickMath

/-!
# The ESP-IDF backend

`IDFSerial` puts the Arduino stream contract on top of the UART driver.  The driver has no
way to look at a byte without taking it, so one byte is held back in `peeked`; and it answers
a free size of zero both for a full TX ring and for none at all, so `txRingSeen` remembers
whether a ring has ever shown itself.
-/

namespace RS485

structure IDFSerial where
  port : Port
  txRingSeen : Bool := false
  /-- `_peeked`, which is `-1` while no byte is held back -/
  peeked : Option Byte := none
  timeoutMs : BitVec 32 := 1000
  deriving DecidableEq, Repr

namespace IDFSerial

variable (pf : Platform) (env : Env)

/-- `ticks_of` -/
def ticksOf (timeoutMs : BitVec 32) : ℕ :=
  (ticksFromMs timeoutMs pf.tickRateHz pf.portMaxDelay).toNat

/-- How many bytes are held back. -/
def held (s : IDFSerial) : ℕ := if s.peeked.isSome then 1 else 0

def available : IDFSerial × Io → (IDFSerial × Io) × ℤ
  | (s, io) =>
    match uartGetBufferedDataLen env s.port io with
    | (io', none) => ((s, io'), s.held)
    | (io', some len) => ((s, io'), len + s.held)

def availableForWrite : IDFSerial × Io → (IDFSerial × Io) × ℤ
  | (s, io) =>
    match uartGetTxBufferFreeSize env s.port io with
    | (io', some freeSize) =>
        if 0 < freeSize then
          (({ s with txRingSeen := true }, io'), freeSize)
        else if s.txRingSeen then
          ((s, io'), 0)
        else
          ((s, io'), pf.uartFifoLen)
    | (io', none) => ((s, io'), pf.uartFifoLen)

def peek : IDFSerial × Io → (IDFSerial × Io) × ℤ
  | (s, io) =>
    match s.peeked with
    | some b => ((s, io), b.toNat)
    | none =>
        match uartReadBytes env s.port 1 0 io with
        | (io', some [b]) => (({ s with peeked := some b }, io'), b.toNat)
        | (io', _) => ((s, io'), -1)

def read : IDFSerial × Io → (IDFSerial × Io) × ℤ
  | (s, io) =>
    match s.peeked with
    | some b => (({ s with peeked := none }, io), b.toNat)
    | none =>
        match uartReadBytes env s.port 1 0 io with
        | (io', some [b]) => ((s, io'), b.toNat)
        | (io', _) => ((s, io'), -1)

/-- `read_with_wait` -/
def readWithWait (ticks : ℕ) (d : Destination) : IDFSerial × Io → (IDFSerial × Io) × List Byte
  | (s, io) =>
    if d.isNull ∨ d.size = 0 then
      ((s, io), [])
    else
      -- the held-back byte goes to the front of the buffer
      let s' := { s with peeked := none }
      if d.size ≤ s.held then
        ((s', io), s.peeked.toList)
      else
        match uartReadBytes env s.port (d.size - s.held) ticks io with
        | (io', some got) => ((s', io'), s.peeked.toList ++ got)
        | (io', none) => ((s', io'), s.peeked.toList)

def flush : IDFSerial × Io → IDFSerial × Io
  | (s, io) => (s, uartWaitTxDone env s.port io)

def flushTx (txOnly : Bool) : IDFSerial × Io → IDFSerial × Io
  | (s, io) =>
    let io' := uartWaitTxDone env s.port io
    if txOnly then (s, io') else ({ s with peeked := none }, uartFlushInput env s.port io')

def writeBuf (b : Buffer) : IDFSerial × Io → (IDFSerial × Io) × ℕ
  | (s, io) =>
    if b.isNull ∨ b.size = 0 then
      ((s, io), 0)
    else
      match uartWriteBytes env s.port b.bytes io with
      | (io', some written) => ((s, io'), written)
      | (io', none) => ((s, io'), 0)

def baudRate : IDFSerial × Io → (IDFSerial × Io) × ℕ
  | (s, io) =>
    match uartGetBaudrate env s.port io with
    | (io', some baud) => ((s, io'), baud)
    | (io', none) => ((s, io'), 0)

/-- The virtual functions of an `IDFSerial`. -/
def iserial : ISerial (IDFSerial × Io) where
  available := available env
  availableForWrite := availableForWrite pf env
  peek := peek env
  read := read env
  readBuf := readWithWait env 0
  readBytes d s := readWithWait env (ticksOf pf s.1.timeoutMs) d s
  readBytesTimeout d timeoutMs := readWithWait env (ticksOf pf timeoutMs) d
  flush := flush env
  flushTx := flushTx env
  writeBuf := writeBuf env
  write b := writeBuf env (.mem [b])
  baudRate := baudRate env

theorem write_byte (d : Byte) (s : IDFSerial × Io) :
    (iserial pf env).write d s = (iserial pf env).writeBuf (.mem [d]) s := rfl

/-- Nothing of the backend has changed but the byte held back. -/
def SameButPeeked (s t : IDFSerial × Io) : Prop := t.1 = { s.1 with peeked := t.1.peeked }

theorem readWithWait_sameButPeeked (ticks : ℕ) (d : Destination) (s : IDFSerial × Io) :
    SameButPeeked s (readWithWait env ticks d s).1 := by
  obtain ⟨s, io⟩ := s
  simp only [readWithWait]
  split
  · rfl
  · split
    · rfl
    · split <;> rfl

theorem writeBuf_fst (b : Buffer) (s : IDFSerial × Io) : (writeBuf env b s).1.1 = s.1 := by
  obtain ⟨s, io⟩ := s
  simp only [writeBuf]
  split
  · rfl
  · split <;> rfl

/-- All but `availableForWrite` leave the backend as it is but for the byte held back. -/
theorem steps_sameButPeeked :
    ({ iserial pf env with availableForWrite := fun s => (s, 0) } : ISerial _).Steps
      SameButPeeked where
  available := by
    rintro ⟨s, io⟩
    simp only [iserial, available]
    split <;> rfl
  availableForWrite _ := rfl
  peek := by
    rintro ⟨s, io⟩
    simp only [iserial, peek]
    split
    · rfl
    · split <;> rfl
  read := by
    rintro ⟨s, io⟩
    simp only [iserial, read]
    split
    · rfl
    · split <;> rfl
  readBuf := readWithWait_sameButPeeked env 0
  readBytes d s := readWithWait_sameButPeeked env _ d s
  readBytesTimeout d ms := readWithWait_sameButPeeked env _ d
  flush _ := rfl
  flushTx txOnly _ := by cases txOnly <;> rfl
  writeBuf b s := by simp only [SameButPeeked, iserial, writeBuf_fst]
  write b s := by simp only [SameButPeeked, iserial, writeBuf_fst]
  baudRate := by
    rintro ⟨s, io⟩
    simp only [iserial, baudRate]
    split <;> rfl

/-- The backend stays on its port. -/
theorem steps_port : (iserial pf env).Steps fun s t => t.1.port = s.1.port :=
  { (steps_sameButPeeked pf env).mono fun _ _ h => congrArg port h with
    availableForWrite := by
      rintro ⟨s, io⟩
      simp only [iserial, availableForWrite]
      split
      · split
        · rfl
        · split <;> rfl
      · rfl }

end IDFSerial

end RS485
