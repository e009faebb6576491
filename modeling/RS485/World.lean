import RS485.Lib.Machine
import RS485.Serial.Backend

/-!
# The world of a run

Units, the heap of backend objects, and the UART ports, and every operation a program can
perform on a unit: construct and destroy it, move it, set it up, begin it, and call its
Serial-compatible methods.

A unit holds its backend by a pointer and a flag, and a DIR decorator holds its owner by an
address, as in the source; nothing here makes them agree.  What is deleted is recorded in
`destroyed`, in order.  An operation on an object that does not exist is not part of any
program and is rejected.

`machine` is the whole as a machine, from which runs and everything about them come.
-/

namespace RS485

open Function

/-! ## Operations -/

inductive Op
  | construct (u : UnitId) (kind : UnitKind)
  | destroy (u : UnitId)
  /-- `T dst{std::move(src)}` -/
  | moveConstruct (src dst : UnitId)
  /-- `dst = std::move(src)` -/
  | moveAssign (src dst : UnitId)
  /-- the protected `install_serial` -/
  | installSerial (u : UnitId) (serial : Option Backend)
  /-- the unit framework registers an adapter with the unit -/
  | setAdapter (u : UnitId) (adapter : Option AdapterUART)
  /-- `UnitSIT3088::config(cfg)` -/
  | config (u : UnitId) (cfg : SIT3088ConfigT)
  /-- `RS485Component::config(cfg)` -/
  | configBase (u : UnitId) (cfg : ConfigT)
  | begin (u : UnitId)
  | serial (u : UnitId) (call : SerialCall)
  /-- the program installs or deletes the UART driver of a port, with rings that are empty -/
  | uartDriver (port : Port) (installed : Bool) (txRingSize : ℕ)
  /-- bytes arrive at a port between two operations -/
  | arrive (port : Port) (bytes : List Byte)
  /-- a transmitter makes progress between two operations -/
  | transmit (port : Port) (n : ℕ)

/-- An operation and the environment it runs in. -/
structure Call where
  op : Op
  env : Env

/-- What an operation returns and the driver calls it makes. -/
structure Outcome where
  result : Result
  events : List Event

/-! ## The world -/

structure World where
  units : UnitId → RS485Unit
  live : UnitId → Bool
  heap : ℕ → Backend
  /-- the number of backends handed over so far -/
  next : ℕ
  destroyed : List BackendPtr
  ports : Port → UartPort

namespace World

/-- No unit yet. -/
def init (ports : Port → UartPort) : World where
  units _ := RS485Unit.fresh .sp485
  live _ := false
  heap _ := .nullSerial
  next := 0
  destroyed := []
  ports := ports

/-- The object a backend pointer leads to. -/
def deref (w : World) : Option BackendPtr → Backend
  | some (.heap id) => w.heap id
  | _ => .nullSerial

/-- The backend a unit's methods call. -/
def backend (w : World) (u : UnitId) : Backend := w.deref (w.units u).serial.get

def setUnit (w : World) (u : UnitId) (unit : RS485Unit) : World :=
  { w with units := update w.units u unit }

/-- Store the new state of the object a pointer leads to.  The fallback has none. -/
def storeBackend (w : World) (p : Option BackendPtr) (b : Backend) : World :=
  match p with
  | some (.heap id) => { w with heap := update w.heap id b }
  | _ => w

/-- The port an operation is about to work on, with an empty log. -/
def io (w : World) : Option Port → Io
  | some p => ⟨w.ports p, []⟩
  | none => ⟨default, []⟩

def storePort (w : World) (port : Option Port) (uart : UartPort) : World :=
  match port with
  | some p => { w with ports := update w.ports p uart }
  | none => w

/-! ## `RS485Component` -/

/-- `install_serial` -/
def installSerial (w : World) (u : UnitId) : Option Backend → World
  | none => w
  | some b =>
      let unit := w.units u
      let r := unit.serial.assign ⟨some (.heap w.next), true⟩
      { w with
        units := update w.units u { unit with serial := r.1 }
        heap := update w.heap w.next b
        next := w.next + 1
        destroyed := w.destroyed ++ r.2.2 }

/-- `rebind_serial` -/
def rebindSerial (w : World) (u : UnitId) : World :=
  let p := (w.units u).serial
  if p.owned then w.storeBackend p.get ((w.deref p.get).rebind u) else w

/-- The move constructor: of the base class first, then of the fields of `UnitSIT3088`. -/
def moveConstruct (pf : Platform) (w : World) (src dst : UnitId) : World :=
  let other := w.units src
  let adapters := pf.moveAdapter other.adapter
  let moved := other.serial.released.assign SerialPtr.fallback
  let source := { other with adapter := adapters.2, serial := moved.1 }
  let target := { other with adapter := adapters.1 }
  rebindSerial
    { w with
      units := update (update w.units src source) dst target
      live := update w.live dst true
      destroyed := w.destroyed ++ moved.2.2 } dst

/-- The move assignment: of the base class, which guards against a move of a unit onto
itself, then of the fields of `UnitSIT3088`, which does not. -/
def moveAssign (pf : Platform) (w : World) (src dst : UnitId) : World :=
  let other := w.units src
  if src = dst then
    w.setUnit dst
      { w.units dst with dirPin := other.dirPin, configuredDirPin := other.configuredDirPin }
  else
    let adapters := pf.moveAdapter other.adapter
    let taken := (w.units dst).serial.assign other.serial
    let moved := taken.2.1.assign SerialPtr.fallback
    let source := { other with adapter := adapters.2, serial := moved.1 }
    let target :=
      { w.units dst with
        adapter := adapters.1
        cfg := other.cfg
        serial := taken.1
        dirPin := other.dirPin
        configuredDirPin := other.configuredDirPin }
    rebindSerial
      { w with
        units := update (update w.units src source) dst target
        destroyed := w.destroyed ++ taken.2.2 ++ moved.2.2 } dst

/-- `make_serial`, of `RS485Component` and of `UnitSIT3088`.  With `ARDUINO` the adapter's
serial is not null here: `begin` has checked it. -/
def makeSerial (pf : Platform) (w : World) (u : UnitId) (ad : AdapterUART) : Option Backend :=
  if pf.framework.arduino then
    match (w.units u).kind, ad.getSerial with
    | .sp485, some hs => some (.hs ⟨hs⟩)
    | .sit3088, some hs => some (.dirHS ⟨hs⟩ u)
    | _, none => none
  else if pf.framework.espPlatform then
    if ad.uartPort = pf.uartNumMax ∨ (w.ports ad.uartPort).installed = false then
      none
    else
      match (w.units u).kind with
      | .sp485 => some (.idf { port := ad.uartPort })
      | .sit3088 => some (.dirIDF { port := ad.uartPort } u)
  else
    match (w.units u).kind with
    | .sp485 => some .nullSerial
    | .sit3088 => none

/-- The drain loop of `begin`, `elapsed` milliseconds after it read the clock.  Every
iteration takes at least one, so `fuel` need not exceed what is left of the hundred. -/
def drainLoop (env : Env) (port : Port) : (fuel i elapsed : ℕ) → Io → Io
  | 0, _, _, io => io
  | fuel + 1, i, elapsed, io =>
      if 100 ≤ elapsed then io
      else
        let flushed := adapterFlushRX port io
        let arrived : Io :=
          { flushed with
            uart := { flushed.uart with rx := flushed.uart.rx ++ env.delayArrivals i } }
        drainLoop env port fuel (i + 1) (elapsed + 1 + env.delayLag i)
          (arrived.emit [.delay 1, .received port (env.delayArrivals i)])

/-- `RS485Component::begin` -/
def baseBegin (pf : Platform) (env : Env) (w : World) (u : UnitId) :
    World × List Event × Bool :=
  if pf.framework.arduino || pf.framework.espPlatform then
    match (w.units u).adapter with
    | none => (w, [], false)
    | some ad =>
        if pf.framework.arduino && ad.getSerial.isNone then
          (w, [], false)
        else
          match makeSerial pf w u ad with
          | none => (w, [], false)
          | some serial =>
              let w' := w.installSerial u (some serial)
              if (w.units u).cfg.flushRX then
                let port := some (ad.line pf.framework)
                let io := drainLoop env (ad.line pf.framework) 100 0 env.startLag (w'.io port)
                (w'.storePort port io.uart, io.log, true)
              else
                (w', [], true)
  else
    (w, [], false)

/-! ## `UnitSIT3088` -/

/-- Does the range guard of `begin` turn the pin down? -/
def pinRejected (pf : Platform) (pin : Pin) : Bool :=
  if pf.framework.espPlatform then pin < 0 || pf.gpioNumMax ≤ pin else pin < 0

/-- The unit once `begin` has captured the configured pin. -/
def captured (w : World) (u : UnitId) : RS485Unit :=
  { w.units u with configuredDirPin := (w.units u).dirPin }

/-- The unit once `begin` has undone that. -/
def rolledBack (w : World) (u : UnitId) : RS485Unit :=
  { w.units u with configuredDirPin := -1 }

/-- The driver calls of the pin setup in `begin`. -/
def pinSetup (pf : Platform) (env : Env) (w : World) (u : UnitId) : List Event :=
  UnitSIT3088.configureDirPin pf env (w.units u).dirPin ++
    UnitSIT3088.setTransmit pf env (w.captured u) false

/-- `begin`, of the unit's own class. -/
def begin (pf : Platform) (env : Env) (w : World) (u : UnitId) : World × List Event × Bool :=
  match (w.units u).kind with
  | .sp485 => baseBegin pf env w u
  | .sit3088 =>
      if pinRejected pf (w.units u).dirPin then
        (w, [], false)
      else
        let r := baseBegin pf env (w.setUnit u (w.captured u)) u
        if r.2.2 then
          (r.1, w.pinSetup pf env u ++ r.2.1, true)
        else
          -- the pin stays an output held low; only the bookkeeping is undone
          (r.1.setUnit u (r.1.rolledBack u), w.pinSetup pf env u ++ r.2.1, false)

/-! ## Steps -/

/-- A call of a Serial-compatible method of a unit. -/
def serialCall (pf : Platform) (env : Env) (w : World) (u : UnitId) (call : SerialCall) :
    World × Outcome :=
  let b := w.backend u
  let r := b.dispatch pf env w.units (fun serial s => call.perform pf serial s) (w.io b.port)
  ((w.storeBackend (w.units u).serial.get r.1).storePort b.port r.2.1.uart,
    ⟨r.2.2, r.2.1.log⟩)

/-- Do the objects an operation is about exist?  A unit is moved only to one of its class. -/
def enabled (w : World) : Op → Bool
  | .construct u _ => !w.live u
  | .destroy u => w.live u
  | .moveConstruct src dst => w.live src && !w.live dst
  | .moveAssign src dst =>
      w.live src && w.live dst && decide ((w.units src).kind = (w.units dst).kind)
  | .installSerial u _ => w.live u
  | .setAdapter u _ => w.live u
  | .config u _ => w.live u && decide ((w.units u).kind = .sit3088)
  | .configBase u _ => w.live u
  | .begin u => w.live u
  | .serial u _ => w.live u
  | .uartDriver _ _ _ => true
  | .arrive _ _ => true
  | .transmit _ _ => true

/-- Perform an operation. -/
def exec (pf : Platform) (env : Env) (w : World) : Op → World × Outcome
  | .construct u kind =>
      ({ w with
          units := update w.units u (RS485Unit.fresh kind)
          live := update w.live u true }, ⟨.done, []⟩)
  | .destroy u =>
      ({ w with
          live := update w.live u false
          destroyed := w.destroyed ++ (w.units u).serial.deleted }, ⟨.done, []⟩)
  | .moveConstruct src dst => (w.moveConstruct pf src dst, ⟨.done, []⟩)
  | .moveAssign src dst => (w.moveAssign pf src dst, ⟨.done, []⟩)
  | .installSerial u serial => (w.installSerial u serial, ⟨.done, []⟩)
  | .setAdapter u adapter => (w.setUnit u { w.units u with adapter := adapter }, ⟨.done, []⟩)
  | .config u cfg =>
      (w.setUnit u { w.units u with cfg := cfg.toConfigT, dirPin := cfg.dirPin }, ⟨.done, []⟩)
  | .configBase u cfg => (w.setUnit u { w.units u with cfg := cfg }, ⟨.done, []⟩)
  | .begin u =>
      let r := w.begin pf env u
      (r.1, ⟨.flag r.2.2, r.2.1⟩)
  | .serial u call => w.serialCall pf env u call
  | .uartDriver port installed txRingSize =>
      (w.storePort (some port)
        { w.ports port with
          installed := installed
          rx := []
          tx := []
          txRingSize := txRingSize
          txRingUsed := 0 }, ⟨.done, []⟩)
  | .arrive port bytes =>
      let uart := w.ports port
      (w.storePort (some port) { uart with rx := uart.rx ++ bytes },
        ⟨.done, [.received port bytes]⟩)
  | .transmit port n =>
      let io := (w.io (some port)).transmit port n env.ringUsed
      (w.storePort (some port) io.uart, ⟨.done, io.log⟩)

/-- One step of a run. -/
def step (pf : Platform) (w : World) (c : Call) : World × Outcome :=
  if w.enabled c.op then w.exec pf c.env c.op else (w, ⟨.rejected, []⟩)

/-- `UnitSIT3088::config()` -/
def getConfig (w : World) (u : UnitId) : SIT3088ConfigT :=
  { (w.units u).cfg with dirPin := (w.units u).dirPin }

/-- `RS485Component::config()` -/
def getConfigBase (w : World) (u : UnitId) : ConfigT := (w.units u).cfg

end World

/-- The program as a machine: a run reads a list of calls. -/
def machine (pf : Platform) : OutputMachine World Call Outcome := ⟨World.step pf⟩

/-! ### A sample -/

/-- Idle ports with an installed driver and no TX ring. -/
def samplePorts (_ : Port) : UartPort where
  installed := true
  baud := 115200
  rx := []
  tx := []
  txRingSize := 0
  txRingUsed := 0
  timeout := 1000

/-- A unit begins on DIR pin 5 and port 1 and sends two bytes. -/
def sampleRun : List Call :=
  [⟨.construct 0 .sit3088, .calm⟩, ⟨.setAdapter 0 (some ⟨none, 1⟩), .calm⟩,
    ⟨.config 0 { dirPin := 5 }, .calm⟩, ⟨.begin 0, .calm⟩,
    ⟨.serial 0 (.writeBuf (.mem [0x01, 0x02])), .calm⟩]

end RS485
