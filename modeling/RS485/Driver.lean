import Mathlib.Data.BitVec
import Mathlib.Data.List.Basic
import Mathlib.Tactic.Common

/-!
# The platform and its drivers

What the library is compiled for and what it calls: the GPIO and UART drivers, the UART
adapter of the unit framework, and the clock.  None of that code is part of the library, so
it enters the model as the documented effect of each call on the port it is about, with the
driver's answers left to an environment `Env`, one for each operation of a unit.  An operation
makes most kinds of driver call at most once, so that every answer varies freely.  There are two
exceptions.  The answer of `gpio_set_level` depends on the pin and the level, and a waiting write
through a DIR decorator waits for the transmitter twice, with one answer: the first wait is the
decorator's, and by the second nothing has been written since.

Two things are recorded of a call: its effect on the state of the UART port, and an `Event`
in the log of the operation in progress.  `Io` carries both.
-/

namespace RS485

abbrev Byte := BitVec 8

/-- A UART port number, `uart_port_t`.  A `HardwareSerial` is named by the port it drives. -/
abbrev Port := ℕ

/-- A GPIO number.  The code keeps it in an `int8_t`, of which only the sign and the bound
`GPIO_NUM_MAX` are ever asked. -/
abbrev Pin := ℤ

/-! ## The platform -/

/-- What the library is built for: the two ESP frameworks, an Arduino core of another chip,
and a host build, which has neither. -/
inductive Framework
  | arduinoEsp32
  | espIdf
  | arduinoOther
  | host
  deriving DecidableEq, Repr

/-- `defined(ARDUINO)` -/
def Framework.arduino : Framework → Bool
  | .arduinoEsp32 | .arduinoOther => true
  | .espIdf | .host => false

/-- `defined(ESP_PLATFORM)` -/
def Framework.espPlatform : Framework → Bool
  | .arduinoEsp32 | .espIdf => true
  | .arduinoOther | .host => false

/-- An `AdapterUART`: the `HardwareSerial` it holds, if any, and the port it was built from
(`UART_NUM_MAX` if it was not built from a port). -/
structure AdapterUART where
  getSerial : Option Port
  uartPort : Port
  deriving DecidableEq, Repr

/-- The constants of the chip and of the build, and the third-party functions the library
calls: `m5::stl::byteswap_value`, and the move of the base class `Component`, of which only
the adapter matters (what the target gets, and what stays behind in the source). -/
structure Platform where
  framework : Framework
  gpioNumMax : Pin
  uartNumMax : Port
  /-- `SOC_UART_FIFO_LEN` -/
  uartFifoLen : ℕ
  uartFifoLen_pos : 0 < uartFifoLen
  tickBits : ℕ
  /-- `configTICK_RATE_HZ` -/
  tickRateHz : BitVec 32
  portMaxDelay : BitVec tickBits
  /-- `m5::endian::little` -/
  littleEndian : Bool
  byteswapValue : (n : ℕ) → BitVec (8 * n) → BitVec (8 * n)
  moveAdapter : Option AdapterUART → Option AdapterUART × Option AdapterUART

/-! ## The environment -/

/-- How the world outside the library behaves during one operation. -/
structure Env where
  /-- Does `gpio_config` accept the pin as an output? -/
  gpioConfig : Pin → Bool
  /-- Does `gpio_set_level` accept the level for the pin? -/
  gpioSetLevel : Pin → Bool → Bool
  /-- Does `uart_get_buffered_data_len` answer `ESP_OK`? -/
  bufferedDataLen : Bool
  /-- Does `uart_get_tx_buffer_free_size` answer `ESP_OK`? -/
  txBufferFreeSize : Bool
  /-- Does `uart_get_baudrate` answer `ESP_OK`? -/
  baudrate : Bool
  /-- Does `uart_flush_input` answer `ESP_OK`? -/
  flushInput : Bool
  /-- Does waiting for the transmitter end with the transmitter idle? -/
  waitTxDone : Bool
  /-- The bytes that arrive while the driver reads. -/
  arrivals : List Byte
  /-- What `HardwareSerial::availableForWrite` answers. -/
  writeRoom : ℤ
  /-- How many bytes the driver hands out at most when it reads, `none` for an error. -/
  delivered : Option ℕ
  /-- How many bytes the driver accepts at most when it writes, `none` for an error. -/
  accepted : Option ℕ
  /-- How many of the pending bytes leave the port before the driver's write returns. -/
  sentEarly : ℕ
  /-- How many of the bytes that are then pending still wait in the TX ring. -/
  ringUsed : ℕ
  /-- The milliseconds that pass between `begin()` reading the clock and its first look at
  the time elapsed. -/
  startLag : ℕ
  /-- By how much the `i`-th `delay(1)` of the drain loop overruns. -/
  delayLag : ℕ → ℕ
  /-- The bytes that arrive during the `i`-th `delay(1)` of the drain loop. -/
  delayArrivals : ℕ → List Byte

/-- An environment in which every driver call succeeds in full and nothing arrives. -/
def Env.calm : Env where
  gpioConfig _ := true
  gpioSetLevel _ _ := true
  bufferedDataLen := true
  txBufferFreeSize := true
  baudrate := true
  flushInput := true
  waitTxDone := true
  arrivals := []
  writeRoom := 128
  delivered := some 256
  accepted := some 256
  sentEarly := 0
  ringUsed := 0
  startLag := 0
  delayLag _ := 98
  delayArrivals _ := []

/-! ## Ports and logs -/

/-- The driver's view of a UART port.  `rx` is its RX ring and `tx` what it has accepted and
not yet put on the wire, both oldest byte first; the last `txRingUsed` bytes of `tx` are
still in the TX ring, whose capacity is zero on a port without one.  `timeout` belongs to
the `HardwareSerial` of the port. -/
structure UartPort where
  installed : Bool
  baud : ℕ
  rx : List Byte
  tx : List Byte
  txRingSize : ℕ
  txRingUsed : ℕ
  timeout : ℕ
  deriving DecidableEq, Repr, Inhabited

/-- The free space of the TX ring. -/
def UartPort.txRingFree (p : UartPort) : ℕ := p.txRingSize - p.txRingUsed

/-- A driver call, or something that happened on a UART line during one. -/
inductive Event
  | gpioConfig (pin : Pin) (accepted : Bool)
  | gpioSetLevel (pin : Pin) (level : Bool) (accepted : Bool)
  /-- the driver was handed bytes and accepted these -/
  | uartWrite (port : Port) (bytes : List Byte)
  /-- a byte left the port -/
  | sent (port : Port) (b : Byte)
  | waitTxDone (port : Port)
  /-- a read of at most `length` bytes, waiting for `wait` ticks (milliseconds, in a
  `HardwareSerial`) -/
  | uartRead (port : Port) (length wait : ℕ)
  | received (port : Port) (bytes : List Byte)
  | flushInput (port : Port)
  | bufferedDataLen (port : Port)
  | txBufferFreeSize (port : Port)
  | getBaudrate (port : Port)
  /-- `AdapterUART::flushRX()` -/
  | flushRX (port : Port)
  | delay (ms : ℕ)
  deriving DecidableEq, Repr

/-- The port an operation works on and the log of its driver calls. -/
structure Io where
  uart : UartPort
  log : List Event

namespace Io

def emit (io : Io) (events : List Event) : Io := { io with log := io.log ++ events }

@[simp] theorem emit_uart (io : Io) (events : List Event) : (io.emit events).uart = io.uart := rfl

@[simp] theorem emit_log (io : Io) (events : List Event) :
    (io.emit events).log = io.log ++ events := rfl

/-- The next `n` pending bytes leave the port; of the rest, `ringUsed` are still in the TX
ring, as far as they fit. -/
def transmit (io : Io) (port : Port) (n ringUsed : ℕ) : Io where
  uart :=
    { io.uart with
      tx := io.uart.tx.drop n
      txRingUsed := min ringUsed (min io.uart.txRingSize (io.uart.tx.drop n).length) }
  log := io.log ++ (io.uart.tx.take n).map (Event.sent port)

end Io

/-! ## The UART driver -/

/-- `uart_get_buffered_data_len`: the number of bytes in the RX ring, or an error. -/
def uartGetBufferedDataLen (env : Env) (port : Port) (io : Io) : Io × Option ℕ :=
  (io.emit [.bufferedDataLen port],
    if env.bufferedDataLen then some io.uart.rx.length else none)

/-- `uart_get_tx_buffer_free_size`: the free space of the TX ring, which is zero on a port
without one, or an error. -/
def uartGetTxBufferFreeSize (env : Env) (port : Port) (io : Io) : Io × Option ℕ :=
  (io.emit [.txBufferFreeSize port],
    if env.txBufferFreeSize then some io.uart.txRingFree else none)

/-- `uart_get_baudrate` -/
def uartGetBaudrate (env : Env) (port : Port) (io : Io) : Io × Option ℕ :=
  (io.emit [.getBaudrate port], if env.baudrate then some io.uart.baud else none)

/-- How many bytes a read of at most `length` gets out of a ring. -/
def Env.readCount (env : Env) (length : ℕ) : ℕ :=
  match env.delivered with
  | none => 0
  | some limit => min length limit

/-- `uart_read_bytes`: what arrives joins the RX ring, and the driver hands out the oldest
bytes of the ring, no more than asked for; or it fails and hands out nothing. -/
def uartReadBytes (env : Env) (port : Port) (length wait : ℕ) (io : Io) :
    Io × Option (List Byte) :=
  let ring := io.uart.rx ++ env.arrivals
  (({ io with uart := { io.uart with rx := ring.drop (env.readCount length) } } : Io).emit
      [.uartRead port length wait, .received port env.arrivals],
    env.delivered.map fun _ => ring.take (env.readCount length))

/-- `uart_write_bytes`: the driver accepts a prefix of the bytes, and pending bytes may leave
while it does; or it fails and accepts nothing. -/
def uartWriteBytes (env : Env) (port : Port) (bytes : List Byte) (io : Io) : Io × Option ℕ :=
  match env.accepted with
  | none => (io.emit [.uartWrite port []], none)
  | some limit =>
      let taken := bytes.take limit
      let queued : Io := { io with uart := { io.uart with tx := io.uart.tx ++ taken } }
      ((queued.emit [.uartWrite port taken]).transmit port env.sentEarly env.ringUsed,
        some taken.length)

/-- `uart_wait_tx_done` without a time limit: everything pending leaves the port. -/
def uartWaitTxDone (env : Env) (port : Port) (io : Io) : Io :=
  let waiting := io.emit [.waitTxDone port]
  if env.waitTxDone then waiting.transmit port waiting.uart.tx.length 0 else waiting

/-- `uart_flush_input` -/
def uartFlushInput (env : Env) (port : Port) (io : Io) : Io :=
  let flushed : Io := if env.flushInput then { io with uart := { io.uart with rx := [] } } else io
  flushed.emit [.flushInput port]

/-! ### The adapter -/

/-- The port whose RX ring `AdapterUART::flushRX()` empties. -/
def AdapterUART.line (framework : Framework) (ad : AdapterUART) : Port :=
  if framework.arduino then ad.getSerial.getD ad.uartPort else ad.uartPort

/-- `AdapterUART::flushRX()` -/
def adapterFlushRX (port : Port) (io : Io) : Io :=
  ({ io with uart := { io.uart with rx := [] } } : Io).emit [.flushRX port]

end RS485
