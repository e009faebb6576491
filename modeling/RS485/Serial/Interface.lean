import RS485.Value

/-!
# The serial interface

`ISerial` is the abstract backend of `RS485Component`: what each of its virtual functions
does to the state of the backend and what it returns.  The Serial-compatible methods of
`RS485Component` are written once, over any backend, as they are in the source; `SerialCall`
lists them and `SerialCall.perform` carries one out.

`SerialCall.perform_of_payload` and `SerialCall.perform_quiet` are how everything about these
methods is proved.  All the write overloads come down to one write through the backend, with
or without a wait; every other method is a single call of one of its functions.
-/

namespace RS485

/-! ## Buffers -/

/-- A source buffer and its length: a null pointer with any length, or that many bytes. -/
inductive Buffer
  | null (size : ℕ)
  | mem (bytes : List Byte)
  deriving DecidableEq, Repr

namespace Buffer

def isNull : Buffer → Bool
  | .null _ => true
  | .mem _ => false

def size : Buffer → ℕ
  | .null n => n
  | .mem bytes => bytes.length

/-- The bytes that can be read from the buffer. -/
def bytes : Buffer → List Byte
  | .null _ => []
  | .mem bs => bs

end Buffer

/-- A destination buffer and its length. -/
structure Destination where
  isNull : Bool
  size : ℕ
  deriving DecidableEq, Repr

/-- `std::strlen` -/
def strlen (mem : List Byte) : ℕ := (mem.takeWhile (· ≠ 0)).length

/-- A C string as a buffer.  It is given by the memory it points to, or is null. -/
def strBuffer : Option (List Byte) → Buffer
  | none => .null 0
  | some mem => .mem (mem.take (strlen mem))

/-! ## The backend -/

/-- `RS485Component::ISerial`, over backends with states in `σ`.  The functions that fill a
buffer return the bytes they put there. -/
structure ISerial (σ : Type) where
  available : σ → σ × ℤ
  availableForWrite : σ → σ × ℤ
  peek : σ → σ × ℤ
  read : σ → σ × ℤ
  readBuf : Destination → σ → σ × List Byte
  readBytes : Destination → σ → σ × List Byte
  readBytesTimeout : Destination → BitVec 32 → σ → σ × List Byte
  flush : σ → σ
  flushTx : Bool → σ → σ
  writeBuf : Buffer → σ → σ × ℕ
  write : Byte → σ → σ × ℕ
  baudRate : σ → σ × ℕ

/-- Every function of the backend but the writes takes a state to one related to it. -/
structure ISerial.QuietSteps {σ : Type} (serial : ISerial σ) (R : σ → σ → Prop) : Prop where
  available : ∀ s, R s (serial.available s).1
  availableForWrite : ∀ s, R s (serial.availableForWrite s).1
  peek : ∀ s, R s (serial.peek s).1
  read : ∀ s, R s (serial.read s).1
  readBuf : ∀ d s, R s (serial.readBuf d s).1
  readBytes : ∀ d s, R s (serial.readBytes d s).1
  readBytesTimeout : ∀ d ms s, R s (serial.readBytesTimeout d ms s).1
  flush : ∀ s, R s (serial.flush s)
  flushTx : ∀ txOnly s, R s (serial.flushTx txOnly s)
  baudRate : ∀ s, R s (serial.baudRate s).1

/-- Every function of the backend takes a state to one related to it. -/
structure ISerial.Steps {σ : Type} (serial : ISerial σ) (R : σ → σ → Prop) : Prop
    extends serial.QuietSteps R where
  writeBuf : ∀ b s, R s (serial.writeBuf b s).1
  write : ∀ b s, R s (serial.write b s).1

theorem ISerial.Steps.mono {σ : Type} {serial : ISerial σ} {R Q : σ → σ → Prop}
    (h : serial.Steps R) (hRQ : ∀ s t, R s t → Q s t) : serial.Steps Q where
  available s := hRQ _ _ (h.available s)
  availableForWrite s := hRQ _ _ (h.availableForWrite s)
  peek s := hRQ _ _ (h.peek s)
  read s := hRQ _ _ (h.read s)
  readBuf d s := hRQ _ _ (h.readBuf d s)
  readBytes d s := hRQ _ _ (h.readBytes d s)
  readBytesTimeout d ms s := hRQ _ _ (h.readBytesTimeout d ms s)
  flush s := hRQ _ _ (h.flush s)
  flushTx txOnly s := hRQ _ _ (h.flushTx txOnly s)
  writeBuf b s := hRQ _ _ (h.writeBuf b s)
  write b s := hRQ _ _ (h.write b s)
  baudRate s := hRQ _ _ (h.baudRate s)

/-! ## The methods of `RS485Component` -/

namespace RS485Component

variable {σ : Type} (serial : ISerial σ)

/-- `write(const uint8_t d)` -/
def write (d : Byte) (s : σ) : σ × ℕ :=
  serial.write d s

/-- `write(const uint8_t *buffer, const size_t size)` -/
def writeBuf (buffer : Buffer) (s : σ) : σ × ℕ :=
  if buffer.isNull ∨ buffer.size = 0 then (s, 0) else serial.writeBuf buffer s

/-- `write(const char *buffer, const size_t size)` -/
def writeChars (buffer : Buffer) (s : σ) : σ × ℕ :=
  writeBuf serial buffer s

/-- `write(const char *s)` -/
def writeStr (str : Option (List Byte)) (s : σ) : σ × ℕ :=
  if str.isNone then (s, 0) else writeBuf serial (strBuffer str) s

def writeWaiting (buffer : Buffer) (s : σ) : σ × ℕ :=
  let r := writeBuf serial buffer s
  if 0 < r.2 then (serial.flushTx true r.1, r.2) else r

/-- `write(const uint8_t d, const Wait wait)` -/
def writeWait (d : Byte) (wait : Bool) (s : σ) : σ × ℕ :=
  if wait then writeWaiting serial (.mem [d]) s else write serial d s

/-- `write(const uint8_t *buffer, const size_t size, const bool wait)` -/
def writeBufWait (buffer : Buffer) (wait : Bool) (s : σ) : σ × ℕ :=
  if wait then writeWaiting serial buffer s else writeBuf serial buffer s

/-- `write(const char *buffer, const size_t size, const bool wait)` -/
def writeCharsWait (buffer : Buffer) (wait : Bool) (s : σ) : σ × ℕ :=
  if wait then writeWaiting serial buffer s else writeChars serial buffer s

/-- `write(const char *s, const Wait wait)` -/
def writeStrWait (str : Option (List Byte)) (wait : Bool) (s : σ) : σ × ℕ :=
  if wait then writeWaiting serial (strBuffer str) s else writeStr serial str s

/-- `writeValue<T, LittleEndian>(const T value)` -/
def writeValue (pf : Platform) (littleEndian : Bool) (value : TypedValue) (s : σ) : σ × Bool :=
  let tmp :=
    if littleEndian ≠ pf.littleEndian then byteswapIfNeeded pf value.type value.val
    else value.val
  let r := writeWaiting serial (.mem (objectBytes pf value.type tmp)) s
  (r.1, r.2 == value.type.size)

/-- `readValue<T, LittleEndian>(T &value)`: what it returns and what it leaves in `value`. -/
def readValue (pf : Platform) (littleEndian : Bool) (T : ValueType) (s : σ) :
    σ × Bool × T.Carrier :=
  let r := serial.readBytes ⟨false, T.size⟩ s
  if r.2.length ≠ T.size then
    (r.1, false, T.init)
  else
    let value := objectOfBytes pf T r.2
    (r.1, true, if littleEndian ≠ pf.littleEndian then byteswapIfNeeded pf T value else value)

/-- What `readValue` makes of the bytes it gets. -/
def decodeValue (pf : Platform) (littleEndian : Bool) (T : ValueType) (bytes : List Byte) :
    Bool × T.Carrier :=
  if bytes.length ≠ T.size then
    (false, T.init)
  else
    (true,
      if littleEndian ≠ pf.littleEndian then byteswapIfNeeded pf T (objectOfBytes pf T bytes)
      else objectOfBytes pf T bytes)

theorem readValue_eq (pf : Platform) (littleEndian : Bool) (T : ValueType) (s : σ) :
    readValue serial pf littleEndian T s =
      ((serial.readBytes ⟨false, T.size⟩ s).1,
        decodeValue pf littleEndian T (serial.readBytes ⟨false, T.size⟩ s).2) := by
  unfold readValue decodeValue
  dsimp only
  split <;> rfl

/-- Decoding the wire image gives the value back, whatever the byte order of the host. -/
theorem decodeValue_wireImage {pf : Platform} (hswap : pf.SwapsBytes) (littleEndian : Bool)
    (T : ValueType) (v : T.Carrier) :
    decodeValue pf littleEndian T (wireImage littleEndian T v) = (true, v) := by
  unfold decodeValue
  rw [if_neg (not_not.mpr (length_wireImage littleEndian T v)), swap_objectOfBytes pf hswap]

end RS485Component

/-! ## Calls -/

/-- A call of one of the Serial-compatible methods.  The overloads that differ only in a
`reinterpret_cast` of the destination are one call. -/
inductive SerialCall
  | baudRate
  | available
  | availableForWrite
  | peek
  | read
  | readBuf (buffer : Destination)
  | readBytes (buffer : Destination)
  | readBytesTimeout (buffer : Destination) (timeoutMs : BitVec 32)
  | flush
  | flushTx (txOnly : Bool)
  | write (d : Byte)
  | writeBuf (buffer : Buffer)
  | writeChars (buffer : Buffer)
  | writeStr (str : Option (List Byte))
  | writeWait (d : Byte) (wait : Bool)
  | writeBufWait (buffer : Buffer) (wait : Bool)
  | writeCharsWait (buffer : Buffer) (wait : Bool)
  | writeStrWait (str : Option (List Byte)) (wait : Bool)
  | writeValue (littleEndian : Bool) (value : TypedValue)
  | readValue (littleEndian : Bool) (type : ValueType)

/-- What an operation returns to its caller. -/
inductive Result
  | done
  | flag (b : Bool)
  | int (i : ℤ)
  | count (n : ℕ)
  | bytes (bs : List Byte)
  | value (ok : Bool) (v : TypedValue)
  /-- there was no such object to call -/
  | rejected

namespace SerialCall

open RS485Component

/-- Carry out a call on a component whose backend is `serial`. -/
def perform {σ : Type} (pf : Platform) (serial : ISerial σ) : SerialCall → σ → σ × Result
  | .baudRate, s => let r := serial.baudRate s; (r.1, .count r.2)
  | .available, s => let r := serial.available s; (r.1, .int r.2)
  | .availableForWrite, s => let r := serial.availableForWrite s; (r.1, .int r.2)
  | .peek, s => let r := serial.peek s; (r.1, .int r.2)
  | .read, s => let r := serial.read s; (r.1, .int r.2)
  | .readBuf d, s => let r := serial.readBuf d s; (r.1, .bytes r.2)
  | .readBytes d, s => let r := serial.readBytes d s; (r.1, .bytes r.2)
  | .readBytesTimeout d ms, s => let r := serial.readBytesTimeout d ms s; (r.1, .bytes r.2)
  | .flush, s => (serial.flush s, .done)
  | .flushTx txOnly, s => (serial.flushTx txOnly s, .done)
  | .write d, s => let r := RS485Component.write serial d s; (r.1, .count r.2)
  | .writeBuf b, s => let r := RS485Component.writeBuf serial b s; (r.1, .count r.2)
  | .writeChars b, s => let r := RS485Component.writeChars serial b s; (r.1, .count r.2)
  | .writeStr str, s => let r := RS485Component.writeStr serial str s; (r.1, .count r.2)
  | .writeWait d wait, s => let r := RS485Component.writeWait serial d wait s; (r.1, .count r.2)
  | .writeBufWait b wait, s =>
      let r := RS485Component.writeBufWait serial b wait s; (r.1, .count r.2)
  | .writeCharsWait b wait, s =>
      let r := RS485Component.writeCharsWait serial b wait s; (r.1, .count r.2)
  | .writeStrWait str wait, s =>
      let r := RS485Component.writeStrWait serial str wait s; (r.1, .count r.2)
  | .writeValue le v, s => let r := RS485Component.writeValue serial pf le v s; (r.1, .flag r.2)
  | .readValue le T, s =>
      let r := RS485Component.readValue serial pf le T s; (r.1, .value r.2.1 ⟨T, r.2.2⟩)

/-- The buffer a call hands to the backend's write, if it is a write, and whether the call
then waits for the transmission. -/
def payload (pf : Platform) : SerialCall → Option (Buffer × Bool)
  | .write d => some (.mem [d], false)
  | .writeBuf b | .writeChars b => some (b, false)
  | .writeStr str => some (strBuffer str, false)
  | .writeWait d wait => some (.mem [d], wait)
  | .writeBufWait b wait | .writeCharsWait b wait => some (b, wait)
  | .writeStrWait str wait => some (strBuffer str, wait)
  | .writeValue le v =>
      some (.mem (objectBytes pf v.type
        (if le ≠ pf.littleEndian then byteswapIfNeeded pf v.type v.val else v.val)), true)
  | _ => none

/-- What a write returns that has written `n` bytes. -/
def writeResult : SerialCall → ℕ → Result
  | .writeValue _ value, n => .flag (n == value.type.size)
  | _, n => .count n

/-! ### Writes are one of two methods, and everything else is one virtual function -/

section Perform

variable {σ : Type} {pf : Platform} {serial : ISerial σ} {call : SerialCall}

/-- What a call with a payload does to the backend. -/
def send (serial : ISerial σ) (b : Buffer) (wait : Bool) (s : σ) : σ :=
  if wait then (RS485Component.writeWaiting serial b s).1
  else (RS485Component.writeBuf serial b s).1

theorem writeBuf_of_empty {b : Buffer} (h : b.isNull ∨ b.size = 0) (s : σ) :
    RS485Component.writeBuf serial b s = (s, 0) :=
  if_pos h

theorem writeBuf_byte (hbyte : ∀ d s, serial.write d s = serial.writeBuf (.mem [d]) s)
    (d : Byte) (s : σ) : RS485Component.writeBuf serial (.mem [d]) s = serial.write d s := by
  simp [RS485Component.writeBuf, Buffer.isNull, Buffer.size, hbyte]

/-- The write a call begins with: the byte write of the backend for a byte that is not waited
for, the buffer write for everything else. -/
def written (pf : Platform) (serial : ISerial σ) (call : SerialCall) (s : σ) : σ × ℕ :=
  match call with
  | .write d | .writeWait d false => serial.write d s
  | _ =>
      match call.payload pf with
      | some (b, _) => RS485Component.writeBuf serial b s
      | none => (s, 0)

theorem writeWaiting_eq (b : Buffer) (s : σ) :
    RS485Component.writeWaiting serial b s =
      let r := RS485Component.writeBuf serial b s
      (if 0 < r.2 then serial.flushTx true r.1 else r.1, r.2) := by
  unfold RS485Component.writeWaiting
  dsimp only
  split <;> rfl

/-- **All the write overloads** begin with a write, wait if they are to and something was
written, and differ in what they make of the number of bytes. -/
theorem perform_eq_written {b : Buffer} {wait : Bool} (h : call.payload pf = some (b, wait))
    (s : σ) :
    call.perform pf serial s =
      let r := call.written pf serial s
      (if wait = true ∧ 0 < r.2 then serial.flushTx true r.1 else r.1, call.writeResult r.2) := by
  have hstr : ∀ str, RS485Component.writeStr serial str s =
      RS485Component.writeBuf serial (strBuffer str) s := by
    intro str
    cases str with
    | none => rfl
    | some mem => rfl
  cases call <;> simp only [payload, Option.some.injEq, Prod.mk.injEq, reduceCtorEq] at h
  case write d => obtain ⟨rfl, rfl⟩ := h; simp [perform, written, RS485Component.write, writeResult]
  case writeBuf b =>
    obtain ⟨rfl, rfl⟩ := h
    simp [perform, written, payload, writeResult]
  case writeChars b =>
    obtain ⟨rfl, rfl⟩ := h
    simp [perform, written, payload, writeResult, RS485Component.writeChars]
  case writeStr str =>
    obtain ⟨rfl, rfl⟩ := h
    simp [perform, written, payload, writeResult, hstr]
  case writeWait d wait =>
    obtain ⟨rfl, rfl⟩ := h
    cases wait <;>
      simp [perform, written, payload, writeResult, RS485Component.writeWait,
        RS485Component.write, writeWaiting_eq]
  case writeBufWait b wait =>
    obtain ⟨rfl, rfl⟩ := h
    cases wait <;>
      simp [perform, written, payload, writeResult, RS485Component.writeBufWait, writeWaiting_eq]
  case writeCharsWait b wait =>
    obtain ⟨rfl, rfl⟩ := h
    cases wait <;>
      simp [perform, written, payload, writeResult, RS485Component.writeCharsWait,
        RS485Component.writeChars, writeWaiting_eq]
  case writeStrWait str wait =>
    obtain ⟨rfl, rfl⟩ := h
    cases wait <;>
      simp [perform, written, payload, writeResult, RS485Component.writeStrWait, hstr,
        writeWaiting_eq]
  case writeValue le v =>
    obtain ⟨rfl, rfl⟩ := h
    simp [perform, written, payload, writeResult, RS485Component.writeValue, writeWaiting_eq]

/-- If the byte write is one of a buffer of one byte, every call begins with a buffer write. -/
theorem written_eq_writeBuf (hbyte : ∀ d s, serial.write d s = serial.writeBuf (.mem [d]) s)
    {b : Buffer} {wait : Bool} (h : call.payload pf = some (b, wait)) (s : σ) :
    call.written pf serial s = RS485Component.writeBuf serial b s := by
  cases call <;> simp only [payload, Option.some.injEq, Prod.mk.injEq, reduceCtorEq] at h
  case write d => obtain ⟨rfl, rfl⟩ := h; exact (writeBuf_byte hbyte d s).symm
  case writeWait d wait =>
    obtain ⟨rfl, rfl⟩ := h
    cases wait with
    | false => exact (writeBuf_byte hbyte d s).symm
    | true => rfl
  all_goals obtain ⟨rfl, rfl⟩ := h; rfl

theorem perform_of_payload (hbyte : ∀ d s, serial.write d s = serial.writeBuf (.mem [d]) s)
    {b : Buffer} {wait : Bool} (h : call.payload pf = some (b, wait)) (s : σ) :
    (call.perform pf serial s).1 = send serial b wait s := by
  rw [perform_eq_written h, written_eq_writeBuf hbyte h]
  cases wait <;> simp [send, writeWaiting_eq]

/-- A relation that every virtual function but the writes respects is respected by every
call without a payload. -/
theorem perform_quiet {R : σ → σ → Prop} (hserial : serial.QuietSteps R)
    (h : call.payload pf = none) (s : σ) : R s (call.perform pf serial s).1 := by
  cases call <;> simp only [payload, reduceCtorEq] at h
  case baudRate => exact hserial.baudRate s
  case available => exact hserial.available s
  case availableForWrite => exact hserial.availableForWrite s
  case peek => exact hserial.peek s
  case read => exact hserial.read s
  case readBuf d => exact hserial.readBuf d s
  case readBytes d => exact hserial.readBytes d s
  case readBytesTimeout d ms => exact hserial.readBytesTimeout d ms s
  case flush => exact hserial.flush s
  case flushTx txOnly => exact hserial.flushTx txOnly s
  case readValue le T =>
    simp only [perform, RS485Component.readValue_eq]
    exact hserial.readBytes _ s

/-- A reflexive and transitive relation that every virtual function respects is respected by
every call. -/
theorem perform_steps {R : σ → σ → Prop} (hrefl : ∀ s, R s s)
    (htrans : ∀ {s t u}, R s t → R t u → R s u) (hserial : serial.Steps R)
    (hbyte : ∀ d s, serial.write d s = serial.writeBuf (.mem [d]) s) (s : σ) :
    R s (call.perform pf serial s).1 := by
  cases h : call.payload pf with
  | none => exact perform_quiet hserial.toQuietSteps h s
  | some p =>
      obtain ⟨b, wait⟩ := p
      have hwrite : R s (RS485Component.writeBuf serial b s).1 := by
        unfold RS485Component.writeBuf
        split
        · exact hrefl s
        · exact hserial.writeBuf b s
      rw [perform_of_payload hbyte h]
      unfold send RS485Component.writeWaiting
      dsimp only
      split
      · split
        · exact htrans hwrite (hserial.flushTx true _)
        · exact hwrite
      · exact hwrite

end Perform

end SerialCall

end RS485
