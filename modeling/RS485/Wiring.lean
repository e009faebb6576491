import RS485.PinUse

/-!
# Wiring

The board-aware helpers that connect a unit: they look up the pins of the board, name the DIR
pin to a `UnitSIT3088`, open the board's UART, and add the unit to the unit manager.  The board,
the core wiring helper that opens a UART, and the unit manager are third-party code, so they
are a parameter (`CoreWiring`), of which only what they change is relied on
(`CoreWiring.Lawful`).

A program that connects its units with the helpers, and names no other pin, touches no GPIO but
the DIR pin of its board.
-/

namespace RS485

open Function

/-! ## Boards -/

/-- `m5::board_t`, as far as the boards differ here. -/
inductive Board
  | m5AtomLite
  | m5AtomMatrix
  | m5AtomS3
  | m5AtomS3Lite
  | m5AtomS3R
  | m5AtomVoiceS3R
  | m5AtomS3RCam
  | m5AtomS3RExt
  | m5Tab5
  | other
  deriving DecidableEq, Repr

structure AtomicBasePinPair where
  rx : Pin
  tx : Pin
  deriving DecidableEq, Repr

/-- `atomicBaseUartPins` -/
def atomicBaseUartPins : Board → AtomicBasePinPair
  | .m5AtomLite | .m5AtomMatrix => ⟨22, 19⟩
  | .m5AtomS3 | .m5AtomS3Lite | .m5AtomS3R | .m5AtomVoiceS3R | .m5AtomS3RCam
  | .m5AtomS3RExt => ⟨5, 6⟩
  | _ => ⟨-1, -1⟩

structure Tab5BuiltinRS485Pins where
  rx : Pin
  tx : Pin
  dir : Pin
  deriving DecidableEq, Repr

/-- `tab5BuiltinRS485Pins` -/
def tab5BuiltinRS485Pins : Board → Tab5BuiltinRS485Pins
  | .m5Tab5 => ⟨21, 20, 34⟩
  | _ => ⟨-1, -1, -1⟩

/-- Do the helpers, for the Tab5 or for the others, know the board? -/
def Board.known (board : Board) (forTab5 : Bool) : Bool :=
  if forTab5 then board = .m5Tab5 else 0 ≤ (atomicBaseUartPins board).rx

/-- The DIR pin of the board, if it has one. -/
def Board.dirPins (board : Board) : List Pin := if board.known true then [34] else []

/-! ## The third-party code -/

/-- A call of the core wiring helper or of the unit manager. -/
inductive CoreCall (UartConfig SerialConfig : Type)
  | beginUartSerial (serial : Port) (baud : BitVec 32) (cfg : SerialConfig) (rx tx : Pin)
      (rxBufferSize : ℕ)
  | uartPortHandle (port : Port) (rx tx : Pin) (baud : BitVec 32) (config : UartConfig)
      (rxBufferSize : ℕ)
  /-- `units.add(unit, serial)` -/
  | addSerial (u : UnitId) (serial : Port)
  /-- `units.add(unit, port)` -/
  | addPort (u : UnitId) (port : Port)

/-- The pins a UART is opened on. -/
def CoreCall.pins {UartConfig SerialConfig : Type} :
    CoreCall UartConfig SerialConfig → Option (Pin × Pin)
  | .beginUartSerial _ _ _ rx tx _ | .uartPortHandle _ rx tx _ _ _ => some (rx, tx)
  | _ => none

/-- The board, the core wiring helper and the unit manager. -/
structure CoreWiring (UartConfig SerialConfig : Type) where
  getBoard : Board
  defaultUartSerial : Port
  defaultUartPort : Port
  toArduinoSerialConfig : UartConfig → SerialConfig
  beginUartSerial : Port → BitVec 32 → SerialConfig → Pin → Pin → ℕ → World → World × Bool
  uartPortHandle : Port → Pin → Pin → BitVec 32 → UartConfig → ℕ → World → World × Port
  addSerial : UnitId → Port → World → World × Bool
  addPort : UnitId → Port → World → World × Bool

/-- The world with other ports. -/
def World.withPorts (w : World) (ports : Port → UartPort) : World := { w with ports := ports }

/-- The world with another adapter registered with the unit. -/
def World.withAdapter (w : World) (u : UnitId) (adapter : Option AdapterUART) : World :=
  w.setUnit u { w.units u with adapter := adapter }

/-- What the helpers rely on. -/
structure CoreWiring.Lawful {UartConfig SerialConfig : Type} (pf : Platform)
    (core : CoreWiring UartConfig SerialConfig) : Prop where
  /-- opening a UART is about ports only, and a port that is handed out is installed -/
  beginUartSerial : ∀ serial baud cfg rx tx rxBufferSize w, ∃ ports,
    (core.beginUartSerial serial baud cfg rx tx rxBufferSize w).1 = w.withPorts ports
  uartPortHandle : ∀ port rx tx baud config rxBufferSize w, ∃ ports,
    (core.uartPortHandle port rx tx baud config rxBufferSize w).1 = w.withPorts ports ∧
      let port' := (core.uartPortHandle port rx tx baud config rxBufferSize w).2
      (port' ≠ pf.uartNumMax → (ports port').installed = true)
  /-- adding a unit registers an adapter with it -/
  addSerial : ∀ u serial w, ∃ adapter,
    (core.addSerial u serial w).1 = w.withAdapter u adapter ∧
      ((core.addSerial u serial w).2 = true → adapter = some ⟨some serial, pf.uartNumMax⟩)
  addPort : ∀ u port w, ∃ adapter,
    (core.addPort u port w).1 = w.withAdapter u adapter ∧
      ((core.addPort u port w).2 = true → adapter = some ⟨none, port⟩)

/-! ## The helpers -/

section Helpers

variable {UartConfig SerialConfig : Type} (pf : Platform)
  (core : CoreWiring UartConfig SerialConfig)

/-- How the helpers of Arduino end. -/
def connectSerial (u : UnitId) (baud : BitVec 32) (cfg : SerialConfig) (rx tx : Pin)
    (rxBufferSize : ℕ) (w : World) : World × List (CoreCall UartConfig SerialConfig) × Bool :=
  let serial := core.defaultUartSerial
  let opened := core.beginUartSerial serial baud cfg rx tx rxBufferSize w
  if opened.2 then
    let added := core.addSerial u serial opened.1
    (added.1, [.beginUartSerial serial baud cfg rx tx rxBufferSize, .addSerial u serial], added.2)
  else
    (opened.1, [.beginUartSerial serial baud cfg rx tx rxBufferSize], false)

/-- How those of ESP-IDF end. -/
def connectPort (u : UnitId) (baud : BitVec 32) (config : UartConfig) (rx tx : Pin)
    (rxBufferSize : ℕ) (w : World) : World × List (CoreCall UartConfig SerialConfig) × Bool :=
  let opened := core.uartPortHandle core.defaultUartPort rx tx baud config rxBufferSize w
  let call := .uartPortHandle core.defaultUartPort rx tx baud config rxBufferSize
  if opened.2 = pf.uartNumMax then
    (opened.1, [call], false)
  else
    let added := core.addPort u opened.2 opened.1
    (added.1, [call, .addPort u opened.2], added.2)

/-- `detail::add_atomic_base_uart` -/
def addAtomicBaseUart (u : UnitId) (baud : BitVec 32) (cfg : SerialConfig) (rxBufferSize : ℕ)
    (w : World) : World × List (CoreCall UartConfig SerialConfig) × Bool :=
  let p := atomicBaseUartPins core.getBoard
  if p.rx < 0 ∨ p.tx < 0 then (w, [], false)
  else connectSerial core u baud cfg p.rx p.tx rxBufferSize w

/-- `addAtomicBaseUART`, of the framework at hand.  The overload for a raw serial configuration
is `addAtomicBaseUart`. -/
def addAtomicBaseUART (u : UnitId) (baud : BitVec 32) (config : UartConfig) (rxBufferSize : ℕ)
    (w : World) : World × List (CoreCall UartConfig SerialConfig) × Bool :=
  if pf.framework.arduino then
    addAtomicBaseUart core u baud (core.toArduinoSerialConfig config) rxBufferSize w
  else
    let p := atomicBaseUartPins core.getBoard
    if p.rx < 0 ∨ p.tx < 0 then (w, [], false)
    else connectPort pf core u baud config p.rx p.tx rxBufferSize w

/-- The world once the helper has named the DIR pin, in a configuration it has read. -/
def World.named (w : World) (u : UnitId) (pin : Pin) : World :=
  let cfg := { w.getConfig u with dirPin := pin }
  w.setUnit u { w.units u with cfg := cfg.toConfigT, dirPin := cfg.dirPin }

/-- `detail::add_tab5_builtin_rs485_uart` -/
def addTab5BuiltinRS485Uart (u : UnitId) (baud : BitVec 32) (cfg : SerialConfig)
    (rxBufferSize : ℕ) (w : World) : World × List (CoreCall UartConfig SerialConfig) × Bool :=
  let p := tab5BuiltinRS485Pins core.getBoard
  if p.rx < 0 ∨ p.tx < 0 ∨ p.dir < 0 then (w, [], false)
  else connectSerial core u baud cfg p.rx p.tx rxBufferSize (w.named u p.dir)

/-- `addTab5BuiltinRS485UART`, of the framework at hand.  The overload for a raw serial
configuration is `addTab5BuiltinRS485Uart`. -/
def addTab5BuiltinRS485UART (u : UnitId) (baud : BitVec 32) (config : UartConfig)
    (rxBufferSize : ℕ) (w : World) : World × List (CoreCall UartConfig SerialConfig) × Bool :=
  if pf.framework.arduino then
    addTab5BuiltinRS485Uart core u baud (core.toArduinoSerialConfig config) rxBufferSize w
  else
    let p := tab5BuiltinRS485Pins core.getBoard
    if p.rx < 0 ∨ p.tx < 0 ∨ p.dir < 0 then (w, [], false)
    else connectPort pf core u baud config p.rx p.tx rxBufferSize (w.named u p.dir)

/-! ### What a helper can do -/

/-- The unit has been connected, or not quite: nothing but its adapter and the ports has changed,
the UART was opened on the pins given, and if all has gone well the unit is ready to begin on the
port it was added with. -/
structure Connected (u : UnitId) (rx tx : Pin) (w : World)
    (r : World × List (CoreCall UartConfig SerialConfig) × Bool) : Prop where
  world : ∃ ports adapter, r.1 = (w.withPorts ports).withAdapter u adapter
  pins : ∀ call ∈ r.2.1, ∀ p, call.pins = some p → p = (rx, tx)
  ready : r.2.2 = true → ∃ ad, (r.1.units u).adapter = some ad ∧
    (.addSerial u (ad.line pf.framework) ∈ r.2.1 ∨ .addPort u (ad.line pf.framework) ∈ r.2.1) ∧
    (pf.framework.arduino = true ∨ pf.framework.espPlatform = true →
      World.adapterReady pf r.1 u = true)

variable {pf core} {u : UnitId} {w : World}

@[simp] theorem World.withAdapter_self (u : UnitId) :
    w.withAdapter u (w.units u).adapter = w :=
  setUnit_self w u

theorem connectSerial_connected (hcore : core.Lawful pf) (harduino : pf.framework.arduino = true)
    (u : UnitId) (baud : BitVec 32) (cfg : SerialConfig) (rx tx : Pin) (rxBufferSize : ℕ)
    (w : World) : Connected pf u rx tx w (connectSerial core u baud cfg rx tx rxBufferSize w) := by
  obtain ⟨ports, hopened⟩ :=
    hcore.beginUartSerial core.defaultUartSerial baud cfg rx tx rxBufferSize w
  obtain ⟨adapter, hadded, had⟩ := hcore.addSerial u core.defaultUartSerial (w.withPorts ports)
  unfold connectSerial
  dsimp only
  rw [hopened]
  split
  · exact
      { world := ⟨ports, adapter, hadded⟩
        pins := by simp [CoreCall.pins]
        ready := by
          intro hok
          refine ⟨⟨some core.defaultUartSerial, pf.uartNumMax⟩, ?_, ?_, ?_⟩
          · simp [hadded, World.withAdapter, had hok]
          · simp [AdapterUART.line, harduino]
          · simp [World.adapterReady, hadded, World.withAdapter, had hok, harduino] }
  · exact
      { world := ⟨ports, ((w.withPorts ports).units u).adapter, (World.withAdapter_self u).symm⟩
        pins := by simp [CoreCall.pins]
        ready := by simp }

theorem connectPort_connected (hcore : core.Lawful pf) (harduino : pf.framework.arduino = false)
    (u : UnitId) (baud : BitVec 32) (config : UartConfig) (rx tx : Pin) (rxBufferSize : ℕ)
    (w : World) :
    Connected pf u rx tx w (connectPort pf core u baud config rx tx rxBufferSize w) := by
  obtain ⟨ports, hopened, hinstalled⟩ :=
    hcore.uartPortHandle core.defaultUartPort rx tx baud config rxBufferSize w
  unfold connectPort
  dsimp only at hinstalled ⊢
  generalize core.uartPortHandle core.defaultUartPort rx tx baud config rxBufferSize w = opened
    at hopened hinstalled ⊢
  obtain ⟨w', port⟩ := opened
  obtain rfl : w' = w.withPorts ports := hopened
  obtain ⟨adapter, hadded, had⟩ := hcore.addPort u port (w.withPorts ports)
  split
  · exact
      { world := ⟨ports, ((w.withPorts ports).units u).adapter, (World.withAdapter_self u).symm⟩
        pins := by simp [CoreCall.pins]
        ready := by simp }
  · next hport =>
    exact
      { world := ⟨ports, adapter, hadded⟩
        pins := by simp [CoreCall.pins]
        ready := by
          intro hok
          refine ⟨⟨none, port⟩, ?_, ?_, ?_⟩
          · simp [hadded, World.withAdapter, had hok]
          · simp [AdapterUART.line, harduino]
          · intro hframework
            have hports : (w.withPorts ports).ports = ports := rfl
            have hesp : pf.framework.espPlatform = true := by simpa [harduino] using hframework
            simp [World.adapterReady, hadded, World.withAdapter, had hok, harduino, hesp, hport,
              hports, hinstalled hport] }

end Helpers

/-! ## Programs -/

/-- The helpers, with the configuration of the UART. -/
inductive Helper (UartConfig SerialConfig : Type)
  | atomicBase (config : UartConfig)
  | tab5Builtin (config : UartConfig)
  /-- the overloads for a raw `SERIAL_*` value, which are there on Arduino only -/
  | atomicBaseRaw (cfg : SerialConfig)
  | tab5BuiltinRaw (cfg : SerialConfig)

/-- What a program does that connects its units with the helpers. -/
inductive WiredOp (UartConfig SerialConfig : Type)
  | call (c : Call)
  | add (helper : Helper UartConfig SerialConfig) (u : UnitId) (baud : BitVec 32)
      (rxBufferSize : ℕ)

/-- What an operation returns, and the driver calls and third-party calls it makes. -/
structure WiredOutcome (UartConfig SerialConfig : Type) extends Outcome where
  calls : List (CoreCall UartConfig SerialConfig)

section Programs

variable {UartConfig SerialConfig : Type} (pf : Platform)
  (core : CoreWiring UartConfig SerialConfig)

/-- Is there such a helper, and a unit of the class it takes? -/
def Helper.enabled (w : World) (u : UnitId) : Helper UartConfig SerialConfig → Bool
  | .atomicBase _ => w.live u
  | .tab5Builtin _ => w.live u && decide ((w.units u).kind = .sit3088)
  | .atomicBaseRaw _ => pf.framework.arduino && w.live u
  | .tab5BuiltinRaw _ =>
      pf.framework.arduino && w.live u && decide ((w.units u).kind = .sit3088)

def Helper.run (u : UnitId) (baud : BitVec 32) (rxBufferSize : ℕ) (w : World) :
    Helper UartConfig SerialConfig → World × List (CoreCall UartConfig SerialConfig) × Bool
  | .atomicBase config => addAtomicBaseUART pf core u baud config rxBufferSize w
  | .tab5Builtin config => addTab5BuiltinRS485UART pf core u baud config rxBufferSize w
  | .atomicBaseRaw cfg => addAtomicBaseUart core u baud cfg rxBufferSize w
  | .tab5BuiltinRaw cfg => addTab5BuiltinRS485Uart core u baud cfg rxBufferSize w

/-- A program with helpers as a machine. -/
def wiredMachine : OutputMachine World (WiredOp UartConfig SerialConfig)
    (WiredOutcome UartConfig SerialConfig) where
  step w
    | .call c => ((w.step pf c).1, ⟨(w.step pf c).2, []⟩)
    | .add helper u baud rxBufferSize =>
        if helper.enabled pf w u then
          let r := helper.run pf core u baud rxBufferSize w
          (r.1, ⟨⟨.flag r.2.2, []⟩, r.2.1⟩)
        else (w, ⟨⟨.rejected, []⟩, []⟩)

/-- The program names no pin but that of its board, and installs no decorator by hand: in a
configuration it sets, the DIR pin is the one it has read, as in the examples, or that of the
board, as in a `Tab5BuiltinRS485`. -/
def WiredOp.KeepsToBoard (board : Board) (w : World) : WiredOp UartConfig SerialConfig → Prop
  | .call c => c.op.installsNoDecorator = true ∧
      ∀ u cfg, c.op = .config u cfg → cfg.dirPin = (w.units u).dirPin ∨ cfg.dirPin ∈ board.dirPins
  | .add _ _ _ _ => True

/-- The constructor of a `Tab5BuiltinRS485`, which names the DIR pin of the Tab5. -/
def tab5BuiltinRS485 (u : UnitId) : List (WiredOp UartConfig SerialConfig) :=
  [.call ⟨.construct u .sit3088, .calm⟩, .call ⟨.config u { dirPin := 34 }, .calm⟩]

variable {pf core} {w : World}

/-- Is it one of the helpers for the Tab5, which take a `UnitSIT3088`? -/
def Helper.forTab5 : Helper UartConfig SerialConfig → Bool
  | .tab5Builtin _ | .tab5BuiltinRaw _ => true
  | _ => false

/-- **Inversion of a helper.**  Either the board is not known and nothing has happened, or the
unit has been connected on the UART pins of the board, on a Tab5 with the DIR pin named before. -/
inductive HelperStep (pf : Platform) (board : Board) (u : UnitId) (w : World) :
    Bool → World × List (CoreCall UartConfig SerialConfig) × Bool → Prop
  | unsupported {forTab5 : Bool} (hboard : board.known forTab5 = false) :
      HelperStep pf board u w forTab5 (w, [], false)
  | atomicBase (hboard : board.known false = true)
      {r : World × List (CoreCall UartConfig SerialConfig) × Bool}
      (h : Connected pf u (atomicBaseUartPins board).rx (atomicBaseUartPins board).tx w r) :
      HelperStep pf board u w false r
  | tab5Builtin (hboard : board.known true = true) (hkind : (w.units u).kind = .sit3088)
      {r : World × List (CoreCall UartConfig SerialConfig) × Bool}
      (h : Connected pf u 21 20 (w.named u 34) r) : HelperStep pf board u w true r

theorem Helper.live_of_enabled {helper : Helper UartConfig SerialConfig} {u : UnitId}
    (h : helper.enabled pf w u = true) : w.live u = true := by
  cases helper <;> simp_all [enabled]

theorem known_of_atomicBaseUartPins (board : Board) :
    board.known false =
      !decide ((atomicBaseUartPins board).rx < 0 ∨ (atomicBaseUartPins board).tx < 0) := by
  cases board <;> decide

theorem known_of_tab5BuiltinRS485Pins (board : Board) :
    board.known true = !decide ((tab5BuiltinRS485Pins board).rx < 0 ∨
      (tab5BuiltinRS485Pins board).tx < 0 ∨ (tab5BuiltinRS485Pins board).dir < 0) := by
  cases board <;> decide

theorem pins_of_known {board : Board} (h : board.known true = true) :
    tab5BuiltinRS485Pins board = ⟨21, 20, 34⟩ := by
  obtain rfl : board = .m5Tab5 := by simpa [Board.known] using h
  rfl

theorem addAtomicBaseUart_step (hcore : core.Lawful pf) (harduino : pf.framework.arduino = true)
    (u : UnitId) (baud : BitVec 32) (cfg : SerialConfig) (rxBufferSize : ℕ) (w : World) :
    HelperStep pf core.getBoard u w false (addAtomicBaseUart core u baud cfg rxBufferSize w) := by
  have hknown := known_of_atomicBaseUartPins core.getBoard
  unfold addAtomicBaseUart
  dsimp only
  split
  · next hpins => exact .unsupported (by simpa [hpins] using hknown)
  · next hpins =>
    exact .atomicBase (by simpa [hpins] using hknown) (connectSerial_connected hcore harduino ..)

theorem addTab5BuiltinRS485Uart_step (hcore : core.Lawful pf)
    (harduino : pf.framework.arduino = true) {u : UnitId} (hkind : (w.units u).kind = .sit3088)
    (baud : BitVec 32) (cfg : SerialConfig) (rxBufferSize : ℕ) :
    HelperStep pf core.getBoard u w true
      (addTab5BuiltinRS485Uart core u baud cfg rxBufferSize w) := by
  have hknown := known_of_tab5BuiltinRS485Pins core.getBoard
  unfold addTab5BuiltinRS485Uart
  dsimp only
  split
  · next hpins => exact .unsupported (by simpa [hpins] using hknown)
  · next hpins =>
    have hboard : core.getBoard.known true = true := by simpa [hpins] using hknown
    rw [pins_of_known hboard]
    exact .tab5Builtin hboard hkind (connectSerial_connected hcore harduino ..)

theorem Helper.step (hcore : core.Lawful pf) (helper : Helper UartConfig SerialConfig)
    (u : UnitId) (baud : BitVec 32) (rxBufferSize : ℕ)
    (henabled : helper.enabled pf w u = true) :
    HelperStep pf core.getBoard u w helper.forTab5
      (helper.run pf core u baud rxBufferSize w) := by
  cases helper with
  | atomicBase config =>
      simp only [run, addAtomicBaseUART]
      split
      · next harduino => exact addAtomicBaseUart_step hcore harduino ..
      · next harduino =>
        have hknown := known_of_atomicBaseUartPins core.getBoard
        split
        · next hpins =>
          have hboard : core.getBoard.known false = false := by simpa [hpins] using hknown
          exact .unsupported hboard
        · next hpins =>
          exact .atomicBase (by simpa [hpins] using hknown)
            (connectPort_connected hcore (by simpa using harduino) ..)
  | tab5Builtin config =>
      have hkind : (w.units u).kind = .sit3088 := by
        simp only [enabled, Bool.and_eq_true, decide_eq_true_eq] at henabled
        exact henabled.2
      simp only [run, addTab5BuiltinRS485UART]
      split
      · next harduino => exact addTab5BuiltinRS485Uart_step hcore harduino hkind ..
      · next harduino =>
        have hknown := known_of_tab5BuiltinRS485Pins core.getBoard
        split
        · next hpins =>
          have hboard : core.getBoard.known true = false := by simpa [hpins] using hknown
          exact .unsupported hboard
        · next hpins =>
          have hboard : core.getBoard.known true = true := by simpa [hpins] using hknown
          rw [pins_of_known hboard]
          exact .tab5Builtin hboard hkind
            (connectPort_connected hcore (by simpa using harduino) ..)
  | atomicBaseRaw cfg =>
      simp only [enabled, Bool.and_eq_true] at henabled
      exact addAtomicBaseUart_step hcore henabled.1 ..
  | tab5BuiltinRaw cfg =>
      simp only [enabled, Bool.and_eq_true, decide_eq_true_eq] at henabled
      exact addTab5BuiltinRS485Uart_step hcore henabled.1.1 henabled.2 ..

end Programs

/-! ## The pins -/

theorem Board.mem_dirPins {board : Board} {pin : Pin} :
    pin ∈ board.dirPins ↔ board = .m5Tab5 ∧ pin = 34 := by
  by_cases hboard : board = .m5Tab5 <;> simp [dirPins, known, hboard]

/-- The UART pins of a board are two, and neither is its DIR pin. -/
theorem Board.uartPins {board : Board} (h : board.known false = true) :
    0 ≤ (atomicBaseUartPins board).rx ∧ 0 ≤ (atomicBaseUartPins board).tx ∧
      (atomicBaseUartPins board).rx ≠ (atomicBaseUartPins board).tx ∧
      (atomicBaseUartPins board).rx ≠ 34 ∧ (atomicBaseUartPins board).tx ≠ 34 := by
  cases board <;> first | decide | cases h

namespace PinsNamed

variable {pf : Platform} {named : List Pin} {w : World}

/-- To name a pin again, or the pin that stands for none, is to name none. -/
theorem of_known {pins : List Pin} (h : PinsNamed pf (named ++ pins) w)
    (hpins : ∀ pin ∈ pins, pin = -1 ∨ pin ∈ named) : PinsNamed pf named w := by
  have hknown : ∀ pin ∈ named ++ pins, pin = -1 ∨ pin ∈ named := by
    intro pin hpin
    exact (List.mem_append.mp hpin).elim Or.inr (hpins pin)
  exact
    { owned := h.owned
      dirPin := fun u hu => (h.dirPin u hu).elim Or.inl (hknown _)
      captured := by
        intro u hu
        rcases h.captured u hu with hnone | ⟨hpin, hrange⟩
        · exact Or.inl hnone
        · exact (hknown _ hpin).imp_right fun hpin => ⟨hpin, hrange⟩
      owner := h.owner }

theorem withPorts (h : PinsNamed pf named w) (ports : Port → UartPort) :
    PinsNamed pf named (w.withPorts ports) where
  owned := ⟨h.owned.wellFormed, h.owned.fallback, h.owned.balanced⟩
  dirPin := h.dirPin
  captured := h.captured
  owner := h.owner

theorem withAdapter (h : PinsNamed pf named w) {u : UnitId} (hlive : w.live u = true)
    (adapter : Option AdapterUART) : PinsNamed pf named (w.withAdapter u adapter) := by
  have henabled : w.enabled (.setAdapter u adapter) = true := hlive
  have hstep := h.step (c := ⟨.setAdapter u adapter, .calm⟩) rfl
  rw [World.step, if_pos henabled] at hstep
  exact hstep.of_known (by simp [World.namedPin])

theorem setDirPin (h : PinsNamed pf named w) {u : UnitId} (hlive : w.live u = true)
    (hkind : (w.units u).kind = .sit3088) {pin : Pin} (hpin : pin ∈ named) :
    PinsNamed pf named (w.named u pin) := by
  have henabled : w.enabled (.config u { w.getConfig u with dirPin := pin }) = true := by
    simp [World.enabled, hlive, hkind]
  have hstep := h.step (c := ⟨.config u { w.getConfig u with dirPin := pin }, .calm⟩) rfl
  rw [World.step, if_pos henabled] at hstep
  exact hstep.of_known (by simp [World.namedPin, henabled, hpin])

variable {UartConfig SerialConfig : Type} {core : CoreWiring UartConfig SerialConfig}

theorem connected {u : UnitId} {rx tx : Pin} (h : PinsNamed pf named w) (hlive : w.live u = true)
    {r : World × List (CoreCall UartConfig SerialConfig) × Bool} (hr : Connected pf u rx tx w r) :
    PinsNamed pf named r.1 := by
  obtain ⟨ports, adapter, hworld⟩ := hr.world
  rw [hworld]
  exact (h.withPorts ports).withAdapter hlive adapter

/-- **A step** of a program with helpers keeps to the DIR pin of the board. -/
theorem wiredStep (hcore : core.Lawful pf) (h : PinsNamed pf core.getBoard.dirPins w)
    {op : WiredOp UartConfig SerialConfig} (hop : op.KeepsToBoard core.getBoard w) :
    PinsNamed pf core.getBoard.dirPins ((wiredMachine pf core).step w op).1 := by
  cases op with
  | call c =>
      obtain ⟨hplain, hconfig⟩ := hop
      refine (h.step hplain).of_known ?_
      intro pin hpin
      obtain ⟨op, env⟩ := c
      simp only [World.namedPin, Option.mem_toList] at hpin
      split at hpin
      · next u cfg =>
        split at hpin
        · next henabled =>
          simp only [World.enabled, Bool.and_eq_true] at henabled
          rw [← Option.some.inj hpin]
          rcases hconfig u cfg rfl with hread | hboard
          · rw [hread]
            exact h.dirPin u henabled.1
          · exact Or.inr hboard
        · cases hpin
      · cases hpin
  | add helper u baud rxBufferSize =>
      simp only [wiredMachine]
      split
      · next henabled =>
        have hlive : w.live u = true := helper.live_of_enabled henabled
        have hstep := helper.step hcore u baud rxBufferSize henabled
        generalize helper.run pf core u baud rxBufferSize w = r at hstep ⊢
        generalize helper.forTab5 = forTab5 at hstep
        cases hstep with
        | unsupported => exact h
        | atomicBase hboard hr => exact h.connected hlive hr
        | tab5Builtin hboard hkind hr =>
            have hpin : (34 : Pin) ∈ core.getBoard.dirPins := by simp [Board.dirPins, hboard]
            exact (h.setDirPin hlive hkind hpin).connected hlive hr
      · exact h

end PinsNamed

/-- **A wired program touches the DIR pin of its board and no other GPIO.**  In every run of a
program that connects its units with the helpers, with whatever else it does to them, and names
no pin itself but that of its board: a step that makes a driver call about a GPIO runs on a Tab5,
the GPIO is 34, and the step is the `begin` of a `UnitSIT3088` with that pin or a write to one that
has captured it.
On any other board no `UnitSIT3088` ever begins.  And the helpers never open a UART on a pin that
is not there, on the same pin twice, or on the DIR pin. -/
theorem wired_pins {UartConfig SerialConfig : Type} (pf : Platform)
    (core : CoreWiring UartConfig SerialConfig) (hcore : core.Lawful pf)
    (ports : Port → UartPort) (ops : List (WiredOp UartConfig SerialConfig))
    (hplain : (wiredMachine pf core).Along (WiredOp.KeepsToBoard core.getBoard)
      (World.init ports) ops) :
    (wiredMachine pf core).Along
      (fun w op =>
        let out := ((wiredMachine pf core).step w op).2
        (∀ e ∈ out.events, ∀ pin, e.pin = some pin →
          core.getBoard = .m5Tab5 ∧ pin = 34 ∧ ∃ c, op = .call c ∧ w.UsesPin pf c pin) ∧
        (∀ u env, w.live u = true → (w.units u).kind = .sit3088 →
          (w.begin pf env u).2.2 = true → core.getBoard = .m5Tab5 ∧ (w.units u).dirPin = 34) ∧
        ∀ call ∈ out.calls, ∀ rx tx, call.pins = some (rx, tx) →
          0 ≤ rx ∧ 0 ≤ tx ∧ rx ≠ tx ∧ rx ≠ 34 ∧ tx ≠ 34)
      (World.init ports) ops := by
  refine OutputMachine.along_of_invariant (I := PinsNamed pf core.getBoard.dirPins)
    (fun w op h hop => h.wiredStep hcore hop) ?_
    ((PinsNamed.init pf ports).append core.getBoard.dirPins) hplain
  intro w op h hop
  refine ⟨?_, ?_, ?_⟩
  · intro e he pin hpin
    cases op with
    | call c =>
        obtain ⟨hnamed, -, -, huses⟩ := h.touched he hpin
        obtain ⟨hboard, hdir⟩ := Board.mem_dirPins.mp hnamed
        exact ⟨hboard, hdir, c, rfl, huses⟩
    | add helper u baud rxBufferSize =>
        simp only [wiredMachine] at he
        split at he <;> cases he
  · intro u env hlive hkind hbegin
    obtain ⟨-, hpin⟩ := (World.begin_eq_true_iff pf env w u).mp hbegin
    apply Board.mem_dirPins.mp
    exact (h.dirPin u hlive).resolve_left (PinsNamed.ne_of_not_rejected (hpin hkind))
  · intro call hcall rx tx hpins
    cases op with
    | call c => cases hcall
    | add helper u baud rxBufferSize =>
        simp only [wiredMachine] at hcall
        split at hcall
        · next henabled =>
          have hstep := helper.step hcore u baud rxBufferSize henabled
          generalize helper.run pf core u baud rxBufferSize w = r at hstep hcall
          generalize helper.forTab5 = forTab5 at hstep
          cases hstep with
          | unsupported => cases hcall
          | atomicBase hboard hr =>
              obtain ⟨rfl, rfl⟩ := Prod.mk.inj (hr.pins call hcall _ hpins)
              exact Board.uartPins hboard
          | tab5Builtin hboard hkind hr =>
              obtain ⟨rfl, rfl⟩ := Prod.mk.inj (hr.pins call hcall _ hpins)
              decide
        · cases hcall

/-! ### A sample -/

/-- A board whose third-party code does what it is asked to. -/
def sampleCore (board : Board) : CoreWiring Unit Unit where
  getBoard := board
  defaultUartSerial := 1
  defaultUartPort := 1
  toArduinoSerialConfig := id
  beginUartSerial serial _ _ _ _ _ w :=
    (w.withPorts (update w.ports serial { w.ports serial with installed := true, rx := [] }), true)
  uartPortHandle port _ _ _ _ _ w :=
    (w.withPorts (update w.ports port { w.ports port with installed := true, rx := [] }), port)
  addSerial u serial w := (w.withAdapter u (some ⟨some serial, Platform.esp32.uartNumMax⟩), true)
  addPort u port w := (w.withAdapter u (some ⟨none, port⟩), true)

theorem sampleCore_lawful (board : Board) : (sampleCore board).Lawful .esp32 where
  beginUartSerial _ _ _ _ _ _ _ := ⟨_, rfl⟩
  uartPortHandle _ _ _ _ _ _ _ := ⟨_, rfl, fun _ => by simp [sampleCore]⟩
  addSerial _ _ _ := ⟨_, rfl, fun _ => rfl⟩
  addPort _ _ _ := ⟨_, rfl, fun _ => rfl⟩

/-- A `Tab5BuiltinRS485` is constructed, wired, begun and written to. -/
def sampleWired : List (WiredOp Unit Unit) :=
  tab5BuiltinRS485 0 ++ [.add (.tab5Builtin ()) 0 115200 0, .call ⟨.begin 0, .calm⟩,
    .call ⟨.serial 0 (.writeBuf (.mem [0x01, 0x02])), .calm⟩]

theorem sample_wired_pins :
    (wiredMachine .esp32 (sampleCore .m5Tab5)).Along
      (fun w op =>
        let out := ((wiredMachine .esp32 (sampleCore .m5Tab5)).step w op).2
        (∀ e ∈ out.events, ∀ pin, e.pin = some pin →
          (sampleCore .m5Tab5).getBoard = .m5Tab5 ∧ pin = 34 ∧
            ∃ c, op = .call c ∧ w.UsesPin .esp32 c pin) ∧
        (∀ u env, w.live u = true → (w.units u).kind = .sit3088 →
          (w.begin .esp32 env u).2.2 = true →
            (sampleCore .m5Tab5).getBoard = .m5Tab5 ∧ (w.units u).dirPin = 34) ∧
        ∀ call ∈ out.calls, ∀ rx tx, call.pins = some (rx, tx) →
          0 ≤ rx ∧ 0 ≤ tx ∧ rx ≠ tx ∧ rx ≠ 34 ∧ tx ≠ 34)
      (World.init samplePorts) sampleWired := by
  refine wired_pins .esp32 (sampleCore .m5Tab5) (sampleCore_lawful .m5Tab5) samplePorts sampleWired
    ⟨⟨rfl, ?_⟩, ⟨rfl, ?_⟩, trivial, ⟨rfl, ?_⟩, ⟨rfl, ?_⟩, trivial⟩
  · intro u cfg h
    cases h
  · intro u cfg h
    cases h
    exact Or.inr (List.mem_singleton_self 34)
  · intro u cfg h
    cases h
  · intro u cfg h
    cases h

/-! ## What is wired begins -/

namespace World

variable {pf : Platform} {w : World} {u : UnitId}

/-- A unit that begins is on the port of its adapter. -/
theorem begin_on_adapter {ad : AdapterUART} (had : (w.units u).adapter = some ad) {env : Env}
    (hok : (w.begin pf env u).2.2 = true) :
    let b := w.begin pf env u
    (b.1.backend u).port = some (ad.line pf.framework) ∧
      ((w.units u).kind = .sit3088 →
        (b.1.units u).configuredDirPin = (w.units u).dirPin ∧
          (b.1.backend u).owner = some u) := by
  have hbegin := begin_step pf env w u
  generalize w.begin pf env u = b at hbegin hok
  cases hbegin with
  | unready | rejected | failed => cases hok
  | plain ad' hkind had' =>
      obtain rfl : ad = ad' := Option.some.inj (had.symm.trans had')
      refine ⟨?_, fun hsit => ?_⟩
      · rw [backend_begun_self, newBackend_port]
      · simp [hkind] at hsit
  | controlled ad' hkind _ had' =>
      obtain rfl : ad = ad' := Option.some.inj (had.symm.trans had')
      refine ⟨?_, fun _ => ⟨by simp, ?_⟩⟩
      · rw [backend_begun_self, newBackend_port]
      · rw [backend_begun_self, captured_kind, hkind, newBackend_owner]

end World

/-- The DIR pin that a unit has once a helper has returned true. -/
def Helper.dirPin {UartConfig SerialConfig : Type} (helper : Helper UartConfig SerialConfig)
    (w : World) (u : UnitId) : Pin :=
  if helper.forTab5 then 34 else (w.units u).dirPin

/-- What holds of a unit that a helper has added to a world `w`, if the call of the helper has led
to the world and the calls of `r`. -/
structure Added {UartConfig SerialConfig : Type} (pf : Platform) (pin : Pin) (u : UnitId)
    (w : World) (r : World × List (CoreCall UartConfig SerialConfig) × Bool) : Prop where
  others : ∀ v ≠ u, r.1.units v = w.units v
  cfg : (r.1.units u).cfg = (w.units u).cfg
  /-- it begins unless its DIR pin is turned down, whatever the drivers answer -/
  begins : ∀ env, (r.1.begin pf env u).2.2 = true ↔
    ((w.units u).kind = .sit3088 → World.pinRejected pf pin = false)
  begun : ∀ env, (r.1.begin pf env u).2.2 = true →
    let b := (r.1.begin pf env u).1
    (∃ line, (.addSerial u line ∈ r.2.1 ∨ .addPort u line ∈ r.2.1) ∧
      (b.backend u).port = some line) ∧
    ((w.units u).kind = .sit3088 →
      (b.units u).configuredDirPin = pin ∧ (b.backend u).owner = some u)

/-- A unit that has been connected has been added, with the DIR pin it had then. -/
theorem Connected.added {UartConfig SerialConfig : Type} {pf : Platform} {u : UnitId}
    {rx tx : Pin} {w : World} {r : World × List (CoreCall UartConfig SerialConfig) × Bool}
    (hframework : pf.framework.arduino = true ∨ pf.framework.espPlatform = true)
    (h : Connected pf u rx tx w r) (hok : r.2.2 = true) : Added pf (w.units u).dirPin u w r := by
  obtain ⟨ports, adapter, hworld⟩ := h.world
  obtain ⟨ad, had, hadded, hready⟩ := h.ready hok
  have hkind : (r.1.units u).kind = (w.units u).kind := by
    simp [hworld, World.withAdapter, World.withPorts]
  have hpin : (r.1.units u).dirPin = (w.units u).dirPin := by
    simp [hworld, World.withAdapter, World.withPorts]
  refine ⟨fun v hv => ?_, ?_, fun env => ?_, fun env hbegin => ?_⟩
  · simp [hworld, World.withAdapter, World.withPorts, hv]
  · simp [hworld, World.withAdapter, World.withPorts]
  · rw [World.begin_eq_true_iff, World.Accepted, hkind, hpin]
    exact and_iff_right (hready hframework)
  · obtain ⟨hport, hcaptured⟩ := World.begin_on_adapter had hbegin
    refine ⟨⟨_, hadded, hport⟩, fun hsit => ?_⟩
    rw [← hpin]
    exact hcaptured (hkind.trans hsit)

/-- **A unit that a helper has added begins.**  On a board that the helper does not know, nothing
happens at all.  Where it returns true, the unit's configuration but for the DIR pin is as it
was, no other unit has changed, and a `begin` that follows succeeds, whatever the drivers answer,
unless the unit is a `UnitSIT3088` whose DIR pin is turned down: that is pin 34 after a helper for
the Tab5, and otherwise the one it has been given before.  Its backend is then on the port that the
unit was added with, and a `UnitSIT3088` has captured its pin and owns its decorator. -/
theorem added_unit_begins {UartConfig SerialConfig : Type} (pf : Platform)
    (hframework : pf.framework.arduino = true ∨ pf.framework.espPlatform = true)
    (core : CoreWiring UartConfig SerialConfig) (hcore : core.Lawful pf) (w : World)
    (helper : Helper UartConfig SerialConfig) (u : UnitId)
    (henabled : helper.enabled pf w u = true) (baud : BitVec 32) (rxBufferSize : ℕ) :
    let r := helper.run pf core u baud rxBufferSize w
    (core.getBoard.known helper.forTab5 = false → r = (w, [], false)) ∧
    (r.2.2 = true → Added pf (helper.dirPin w u) u w r) := by
  intro r
  have hstep : HelperStep pf core.getBoard u w helper.forTab5 r :=
    helper.step hcore u baud rxBufferSize henabled
  unfold Helper.dirPin
  generalize r = r at hstep ⊢
  generalize helper.forTab5 = forTab5 at hstep ⊢
  cases hstep with
  | unsupported hboard => exact ⟨fun _ => rfl, fun hok => by cases hok⟩
  | atomicBase hboard hr => exact ⟨fun hnot => by simp [hboard] at hnot, hr.added hframework⟩
  | tab5Builtin hboard hsit hr =>
      refine ⟨fun hnot => by simp [hboard] at hnot, fun hok => ?_⟩
      obtain ⟨hothers, hcfg, hbegins, hbegun⟩ := hr.added hframework hok
      have hpin : ((w.named u 34).units u).dirPin = 34 := by simp [World.named]
      have hkind : ((w.named u 34).units u).kind = (w.units u).kind := by simp [World.named]
      rw [hpin, hkind] at hbegins hbegun
      refine ⟨fun v hv => ?_, ?_, hbegins, hbegun⟩
      · rw [hothers v hv]
        simp [World.named, hv]
      · rw [hcfg]
        simp [World.named, World.getConfig]

/-- A unit of either class, before it is wired. -/
def sampleUnit (kind : UnitKind) : World :=
  (machine .esp32).after (World.init samplePorts) [⟨.construct 0 kind, .calm⟩]

/-- On a Tab5 the unit begins, and captures pin 34.  On an AtomS3 the helper for the Tab5 does
nothing, and the other one adds any unit: one with automatic direction begins, and a `UnitSIT3088`
that has been given no pin does not. -/
theorem sample_added_unit :
    let tab5 : Helper Unit Unit := .tab5Builtin ()
    let base : Helper Unit Unit := .atomicBase ()
    let sit3088 := sampleUnit .sit3088
    let onTab5 := (tab5.run .esp32 (sampleCore .m5Tab5) 0 115200 0 sit3088).1
    let onBase := fun kind =>
      (base.run .esp32 (sampleCore .m5AtomS3) 0 115200 0 (sampleUnit kind)).1
    tab5.run .esp32 (sampleCore .m5AtomS3) 0 115200 0 sit3088 = (sit3088, [], false) ∧
      (∀ env, let b := onTab5.begin .esp32 env 0
        b.2.2 = true ∧ (b.1.units 0).configuredDirPin = 34 ∧ (b.1.backend 0).owner = some 0) ∧
      (∀ env, ((onBase .sp485).begin .esp32 env 0).2.2 = true) ∧
      ∀ env, ((onBase .sit3088).begin .esp32 env 0).2.2 = false := by
  intro tab5 base sit3088 onTab5 onBase
  have hunknown := (added_unit_begins .esp32 (Or.inr rfl) (sampleCore .m5AtomS3)
    (sampleCore_lawful _) sit3088 tab5 0 (by decide) 115200 0).1
  have htab5 := (added_unit_begins .esp32 (Or.inr rfl) (sampleCore .m5Tab5)
    (sampleCore_lawful _) sit3088 tab5 0 (by decide) 115200 0).2 rfl
  have hbase := fun kind => (added_unit_begins .esp32 (Or.inr rfl) (sampleCore .m5AtomS3)
    (sampleCore_lawful _) (sampleUnit kind) base 0 (by cases kind <;> decide) 115200 0).2
      (by cases kind <;> rfl)
  refine ⟨hunknown rfl, fun env => ?_, fun env => ?_, fun env => ?_⟩
  · have hok := (htab5.begins env).mpr fun _ => by decide
    exact ⟨hok, (htab5.begun env hok).2 rfl⟩
  · exact ((hbase .sp485).begins env).mpr fun hsit => absurd hsit (by decide)
  · rw [← Bool.not_eq_true, (hbase .sit3088).begins env]
    exact fun hpin => absurd (hpin rfl) (by decide)

end RS485
