import RS485.Serial.Interface

/-!
# The Arduino backend and the fallback

`HSSerial` passes every call through to a `HardwareSerial`, and `NullSerial` answers without
doing anything.
-/

namespace RS485

/-! ## Arduino's `HardwareSerial`

Its functions as the Arduino stream contract describes them, on the port it drives. -/

namespace HardwareSerial

variable (env : Env) (port : Port)

def available (io : Io) : Io × ℤ :=
  (io.emit [.bufferedDataLen port], io.uart.rx.length)

def availableForWrite (io : Io) : Io × ℤ :=
  (io.emit [.txBufferFreeSize port], env.writeRoom)

def peek (io : Io) : Io × ℤ :=
  match io.uart.rx with
  | b :: _ => (io, b.toNat)
  | [] => (io, -1)

def read (io : Io) : Io × ℤ :=
  match uartReadBytes env port 1 0 io with
  | (io', some [b]) => (io', b.toNat)
  | (io', _) => (io', -1)

/-- `read(buffer, size)` with `wait = 0`, and `readBytes(buffer, length)` with the timeout. -/
def readBuf (wait size : ℕ) (io : Io) : Io × List Byte :=
  match uartReadBytes env port size wait io with
  | (io', some got) => (io', got)
  | (io', none) => (io', [])

def setTimeout (timeoutMs : ℕ) (io : Io) : Io :=
  { io with uart := { io.uart with timeout := timeoutMs } }

def flush (io : Io) : Io :=
  uartWaitTxDone env port io

def flushTx (txOnly : Bool) (io : Io) : Io :=
  let io' := uartWaitTxDone env port io
  if txOnly then io' else uartFlushInput env port io'

def write (bytes : List Byte) (io : Io) : Io × ℕ :=
  match uartWriteBytes env port bytes io with
  | (io', some written) => (io', written)
  | (io', none) => (io', 0)

def baudRate (io : Io) : Io × ℕ :=
  (io.emit [.getBaudrate port], io.uart.baud)

end HardwareSerial

/-! ## `HSSerial` -/

/-- The backend over the `HardwareSerial` of a port. -/
structure HSSerial where
  hs : Port
  deriving DecidableEq, Repr

namespace HSSerial

variable (env : Env)

def readBytesTimeout (d : Destination) (timeoutMs : BitVec 32) :
    HSSerial × Io → (HSSerial × Io) × List Byte
  | (s, io) =>
    -- the timeout is state of the `HardwareSerial`, so it is put back
    let previous := io.uart.timeout
    let r := HardwareSerial.readBuf env s.hs timeoutMs.toNat d.size
      (HardwareSerial.setTimeout timeoutMs.toNat io)
    ((s, HardwareSerial.setTimeout previous r.1), r.2)

/-- Pass a call through to the `HardwareSerial`. -/
def pass {α : Type} (f : Port → Io → Io × α) : HSSerial × Io → (HSSerial × Io) × α
  | (s, io) => ((s, (f s.hs io).1), (f s.hs io).2)

/-- The virtual functions of an `HSSerial`. -/
def iserial : ISerial (HSSerial × Io) where
  available := pass HardwareSerial.available
  availableForWrite := pass (HardwareSerial.availableForWrite env)
  peek := pass fun _ => HardwareSerial.peek
  read := pass (HardwareSerial.read env)
  readBuf d := pass fun hs => HardwareSerial.readBuf env hs 0 d.size
  readBytes d := pass fun hs io => HardwareSerial.readBuf env hs io.uart.timeout d.size io
  readBytesTimeout := readBytesTimeout env
  flush s := (s.1, HardwareSerial.flush env s.1.hs s.2)
  flushTx txOnly s := (s.1, HardwareSerial.flushTx env s.1.hs txOnly s.2)
  writeBuf b := pass fun hs => HardwareSerial.write env hs b.bytes
  write b := pass fun hs => HardwareSerial.write env hs [b]
  baudRate := pass HardwareSerial.baudRate

theorem write_byte (d : Byte) (s : HSSerial × Io) :
    (iserial env).write d s = (iserial env).writeBuf (.mem [d]) s := rfl

/-- The backend stays on its `HardwareSerial`. -/
theorem steps_fst : (iserial env).Steps fun s t => t.1 = s.1 where
  available _ := rfl
  availableForWrite _ := rfl
  peek _ := rfl
  read _ := rfl
  readBuf _ _ := rfl
  readBytes _ _ := rfl
  readBytesTimeout _ _ _ := rfl
  flush _ := rfl
  flushTx _ _ := rfl
  writeBuf _ _ := rfl
  write _ _ := rfl
  baudRate _ := rfl

end HSSerial

/-! ## `NullSerial` -/

/-- The virtual functions of a `NullSerial`, which has no state and calls no driver. -/
def NullSerial.iserial : ISerial Io where
  available io := (io, 0)
  availableForWrite io := (io, 0)
  peek io := (io, -1)
  read io := (io, -1)
  readBuf _ io := (io, [])
  readBytes _ io := (io, [])
  readBytesTimeout _ _ io := (io, [])
  flush io := io
  flushTx _ io := io
  writeBuf _ io := (io, 0)
  write _ io := (io, 0)
  baudRate io := (io, 0)

theorem NullSerial.steps_eq : NullSerial.iserial.Steps fun s t => t = s where
  available _ := rfl
  availableForWrite _ := rfl
  peek _ := rfl
  read _ := rfl
  readBuf _ _ := rfl
  readBytes _ _ := rfl
  readBytesTimeout _ _ _ := rfl
  flush _ := rfl
  flushTx _ _ := rfl
  writeBuf _ _ := rfl
  write _ _ := rfl
  baudRate _ := rfl

/-- A call of the fallback touches nothing. -/
theorem NullSerial.perform_fst (pf : Platform) (call : SerialCall) (io : Io) :
    (call.perform pf NullSerial.iserial io).1 = io :=
  call.perform_steps (R := fun s t : Io => t = s) (fun _ => rfl) (fun h h' => h'.trans h)
    NullSerial.steps_eq (fun _ _ => rfl) io

end RS485
