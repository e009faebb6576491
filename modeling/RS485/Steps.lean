import RS485.World

/-!
# What the operations do

The facts about single operations that the invariants and the comparisons of runs are made
of, so that none of them has to unfold an operation again.

* The frame of each primitive: which field of the world it leaves alone.
* `begin_step` is the inversion of `begin()`: it gives up before it touches anything, fails
  after the pin setup, or installs `newBackend` and drains its port.
* `moved` is what a move does, by construction or by assignment.
* `step_effect` is the inversion of a step of a run.
-/

namespace RS485

open Function

/-! ## Frames -/

namespace World

section Frames

variable (w : World) (u v : UnitId) (unit : RS485Unit) (ptr : Option BackendPtr) (b : Backend)
  (port : Option Port) (uart : UartPort)

@[simp] theorem setUnit_units : (w.setUnit u unit).units = update w.units u unit := rfl
@[simp] theorem setUnit_live : (w.setUnit u unit).live = w.live := rfl
@[simp] theorem setUnit_heap : (w.setUnit u unit).heap = w.heap := rfl
@[simp] theorem setUnit_next : (w.setUnit u unit).next = w.next := rfl
@[simp] theorem setUnit_destroyed : (w.setUnit u unit).destroyed = w.destroyed := rfl
@[simp] theorem setUnit_ports : (w.setUnit u unit).ports = w.ports := rfl

@[simp] theorem storeBackend_units : (w.storeBackend ptr b).units = w.units := by
  unfold storeBackend; split <;> rfl

@[simp] theorem storeBackend_live : (w.storeBackend ptr b).live = w.live := by
  unfold storeBackend; split <;> rfl

@[simp] theorem storeBackend_next : (w.storeBackend ptr b).next = w.next := by
  unfold storeBackend; split <;> rfl

@[simp] theorem storeBackend_destroyed : (w.storeBackend ptr b).destroyed = w.destroyed := by
  unfold storeBackend; split <;> rfl

@[simp] theorem storeBackend_ports : (w.storeBackend ptr b).ports = w.ports := by
  unfold storeBackend; split <;> rfl

@[simp] theorem storePort_units : (w.storePort port uart).units = w.units := by
  cases port <;> rfl

@[simp] theorem storePort_live : (w.storePort port uart).live = w.live := by
  cases port <;> rfl

@[simp] theorem storePort_heap : (w.storePort port uart).heap = w.heap := by
  cases port <;> rfl

@[simp] theorem storePort_next : (w.storePort port uart).next = w.next := by
  cases port <;> rfl

@[simp] theorem storePort_destroyed : (w.storePort port uart).destroyed = w.destroyed := by
  cases port <;> rfl

@[simp] theorem storePort_ports_some (p : Port) :
    (w.storePort (some p) uart).ports = update w.ports p uart := rfl

@[simp] theorem rebindSerial_units : (w.rebindSerial u).units = w.units := by
  unfold rebindSerial; dsimp only; split <;> simp

@[simp] theorem rebindSerial_live : (w.rebindSerial u).live = w.live := by
  unfold rebindSerial; dsimp only; split <;> simp

@[simp] theorem rebindSerial_next : (w.rebindSerial u).next = w.next := by
  unfold rebindSerial; dsimp only; split <;> simp

@[simp] theorem rebindSerial_destroyed : (w.rebindSerial u).destroyed = w.destroyed := by
  unfold rebindSerial; dsimp only; split <;> simp

@[simp] theorem rebindSerial_ports : (w.rebindSerial u).ports = w.ports := by
  unfold rebindSerial; dsimp only; split <;> simp

@[simp] theorem installSerial_live (s : Option Backend) :
    (w.installSerial u s).live = w.live := by
  cases s <;> rfl

@[simp] theorem installSerial_ports (s : Option Backend) :
    (w.installSerial u s).ports = w.ports := by
  cases s <;> rfl

@[simp] theorem installSerial_io (s : Option Backend) :
    (w.installSerial u s).io port = w.io port := by
  cases s <;> cases port <;> rfl

@[simp] theorem setUnit_io : (w.setUnit u unit).io port = w.io port := by
  cases port <;> rfl

@[simp] theorem setUnit_self : w.setUnit u (w.units u) = w := by
  simp [setUnit]

@[simp] theorem setUnit_setUnit (unit' : RS485Unit) :
    (w.setUnit u unit).setUnit u unit' = w.setUnit u unit' := by
  simp [setUnit]

@[simp] theorem storePort_self : w.storePort port (w.io port).uart = w := by
  cases port <;> simp [storePort, io]

end Frames

/-! ## `begin` -/

section Begin

variable (pf : Platform) (env : Env) (w : World) (u : UnitId)

/-- Do the checks of `RS485Component::begin` and `make_serial` let the adapter through: is
there one, with a `HardwareSerial` on Arduino, with an installed port on ESP-IDF? -/
def adapterReady : Bool :=
  (pf.framework.arduino || pf.framework.espPlatform) &&
    match (w.units u).adapter with
    | none => false
    | some ad =>
        if pf.framework.arduino then ad.getSerial.isSome
        else decide (ad.uartPort ≠ pf.uartNumMax) && (w.ports ad.uartPort).installed

/-- The backend a successful `begin` installs. -/
def newBackend (kind : UnitKind) (port : Port) : Backend :=
  match kind, pf.framework.arduino with
  | .sp485, true => .hs ⟨port⟩
  | .sp485, false => .idf { port := port }
  | .sit3088, true => .dirHS ⟨port⟩ u
  | .sit3088, false => .dirIDF { port := port } u

/-- The port and the log after the drain loop. -/
def drained (flushRX : Bool) (port : Port) : Io :=
  if flushRX then drainLoop env port 100 0 env.startLag (w.io (some port)) else w.io (some port)

/-- The world after `begin` has installed a backend over the port and drained it. -/
def begun (unit : RS485Unit) (port : Port) : World :=
  ((w.setUnit u unit).installSerial u (some (newBackend pf u unit.kind port))).storePort
    (some port) (drained env w unit.cfg.flushRX port).uart

section NewBackend

variable (kind : UnitKind) (port : Port)

theorem newBackend_port : (newBackend pf u kind port).port = some port := by
  cases kind <;> cases h : pf.framework.arduino <;> simp [newBackend, h, Backend.port]

/-- A `UnitSIT3088` gets a DIR decorator, and is its owner. -/
theorem newBackend_owner : (newBackend pf u kind port).owner =
    match kind with
    | .sp485 => none
    | .sit3088 => some u := by
  cases kind <;> cases h : pf.framework.arduino <;> simp [newBackend, h, Backend.owner]

/-- Without `ARDUINO` there is a fresh `IDFSerial` in it. -/
theorem newBackend_idfSerial : (newBackend pf u kind port).idfSerial =
    if pf.framework.arduino then none else some { port := port } := by
  cases kind <;> cases h : pf.framework.arduino <;> simp [newBackend, h, Backend.idfSerial]

theorem newBackend_rebind (v : UnitId) :
    (newBackend pf u kind port).rebind v = newBackend pf v kind port := by
  cases kind <;> cases h : pf.framework.arduino <;> simp [newBackend, h, Backend.rebind]

end NewBackend

variable {pf w u}

theorem makeSerial_of_not_ready {ad : AdapterUART} (had : (w.units u).adapter = some ad)
    (hframework : pf.framework.arduino = true ∨ pf.framework.espPlatform = true)
    (hserial : pf.framework.arduino = true → ad.getSerial.isSome = true)
    (hready : adapterReady pf w u = false) : makeSerial pf w u ad = none := by
  unfold adapterReady at hready
  rw [had] at hready
  cases harduino : pf.framework.arduino with
  | true => simp [harduino, hserial harduino] at hready
  | false =>
      have hesp : pf.framework.espPlatform = true := by simpa [harduino] using hframework
      have hport : ad.uartPort = pf.uartNumMax ∨ (w.ports ad.uartPort).installed = false := by
        simp only [harduino, hesp, Bool.false_or, Bool.true_and, Bool.false_eq_true, if_false,
          Bool.and_eq_false_iff, decide_eq_false_iff_not, ne_eq, not_not] at hready
        exact hready
      simp [makeSerial, harduino, hesp, hport]

theorem makeSerial_of_ready {ad : AdapterUART} (had : (w.units u).adapter = some ad)
    (hready : adapterReady pf w u = true) :
    makeSerial pf w u ad = some (newBackend pf u (w.units u).kind (ad.line pf.framework)) := by
  unfold adapterReady at hready
  rw [had] at hready
  cases harduino : pf.framework.arduino with
  | true =>
      simp only [harduino, Bool.true_or, if_true, Bool.true_and] at hready
      obtain ⟨hs, hhs⟩ := Option.isSome_iff_exists.mp hready
      cases hkind : (w.units u).kind <;>
        simp [makeSerial, newBackend, AdapterUART.line, harduino, hhs, hkind]
  | false =>
      simp only [harduino, Bool.false_or, Bool.and_eq_true, Bool.false_eq_true, if_false,
        decide_eq_true_eq] at hready
      obtain ⟨hesp, hmax, hinstalled⟩ := hready
      cases hkind : (w.units u).kind <;>
        simp [makeSerial, newBackend, AdapterUART.line, harduino, hesp, hkind, hmax, hinstalled]

/-- A `begin` of the base class whose checks fail changes nothing. -/
theorem baseBegin_of_not_ready (hready : adapterReady pf w u = false) :
    baseBegin pf env w u = (w, [], false) := by
  unfold baseBegin
  by_cases hframework : (pf.framework.arduino || pf.framework.espPlatform) = true
  · rw [if_pos hframework]
    cases had : (w.units u).adapter with
    | none => rfl
    | some ad =>
        dsimp only
        split
        · rfl
        · next hserial =>
          rw [makeSerial_of_not_ready had (by simpa using hframework) ?_ hready]
          intro harduino
          cases hget : ad.getSerial with
          | none => simp [harduino, hget] at hserial
          | some hs => rfl
  · rw [if_neg hframework]

/-- A `begin` of the base class whose checks pass succeeds. -/
theorem baseBegin_of_ready (hready : adapterReady pf w u = true) :
    ∃ ad, (w.units u).adapter = some ad ∧
      baseBegin pf env w u =
        (begun pf env w u (w.units u) (ad.line pf.framework),
          (drained env w (w.units u).cfg.flushRX (ad.line pf.framework)).log, true) := by
  have hready' := hready
  unfold adapterReady at hready'
  cases had : (w.units u).adapter with
  | none => simp [had] at hready'
  | some ad =>
      refine ⟨ad, rfl, ?_⟩
      simp only [had, Bool.and_eq_true] at hready'
      have hserial : ¬ (pf.framework.arduino && ad.getSerial.isNone) = true := by
        cases harduino : pf.framework.arduino
        · simp
        · have := hready'.2
          cases hget : ad.getSerial <;> simp_all
      unfold baseBegin
      simp only [hready'.1, if_true, had, hserial, makeSerial_of_ready had hready, begun,
        drained, setUnit_self]
      cases (w.units u).cfg.flushRX with
      | true => simp
      | false =>
          -- without `flushRX` the port is stored back as it was
          have hio : (w.installSerial u (some (newBackend pf u (w.units u).kind
              (ad.line pf.framework)))).io (some (ad.line pf.framework)) =
                w.io (some (ad.line pf.framework)) := by simp
          simp only [Bool.false_eq_true, if_false, ← hio, storePort_self]
          simp [io]

theorem begin_sp485 (hkind : (w.units u).kind = .sp485) :
    begin pf env w u = baseBegin pf env w u := by
  simp [begin, hkind]

theorem begin_rejected (hkind : (w.units u).kind = .sit3088)
    (hpin : pinRejected pf (w.units u).dirPin = true) :
    begin pf env w u = (w, [], false) := by
  simp [begin, hkind, hpin]

@[simp] theorem adapterReady_captured :
    adapterReady pf (w.setUnit u (w.captured u)) u = adapterReady pf w u := by
  simp [adapterReady, captured]

@[simp] theorem drained_setUnit (unit : RS485Unit) (flushRX : Bool) (port : Port) :
    drained env (w.setUnit u unit) flushRX port = drained env w flushRX port := by
  simp [drained]

@[simp] theorem begun_setUnit (unit unit' : RS485Unit) (port : Port) :
    begun pf env (w.setUnit u unit) u unit' port = begun pf env w u unit' port := by
  simp [begun]

@[simp] theorem rolledBack_captured :
    (w.setUnit u (w.captured u)).rolledBack u = w.rolledBack u := by
  simp [rolledBack, captured]

theorem begin_failed (hkind : (w.units u).kind = .sit3088)
    (hpin : pinRejected pf (w.units u).dirPin = false) (hready : adapterReady pf w u = false) :
    begin pf env w u = (w.setUnit u (w.rolledBack u), w.pinSetup pf env u, false) := by
  have hbase := baseBegin_of_not_ready env (adapterReady_captured.trans hready)
  simp [begin, hkind, hpin, hbase]

theorem begin_succeeded (hkind : (w.units u).kind = .sit3088)
    (hpin : pinRejected pf (w.units u).dirPin = false) (hready : adapterReady pf w u = true) :
    ∃ ad, (w.units u).adapter = some ad ∧
      begin pf env w u =
        (begun pf env w u (w.captured u) (ad.line pf.framework),
          w.pinSetup pf env u ++
            (drained env w (w.units u).cfg.flushRX (ad.line pf.framework)).log, true) := by
  obtain ⟨ad, had, hbase⟩ := baseBegin_of_ready env (adapterReady_captured.trans hready)
  refine ⟨ad, by simpa [captured] using had, ?_⟩
  have hself : (w.setUnit u (w.captured u)).units u = w.captured u := by simp
  simp only [begin, hkind, hpin, hbase, hself, begun_setUnit, drained_setUnit, if_true,
    Bool.false_eq_true, if_false]
  rfl

variable (pf w u)

/-- What `begin` can do: nothing, because the checks fail or the range guard turns the pin
down; the pin setup only; or install a backend and drain its port. -/
inductive BeginStep : World × List Event × Bool → Prop
  | unready (hkind : (w.units u).kind = .sp485) (hready : adapterReady pf w u = false) :
      BeginStep (w, [], false)
  | rejected (hkind : (w.units u).kind = .sit3088)
      (hpin : pinRejected pf (w.units u).dirPin = true) : BeginStep (w, [], false)
  | failed (hkind : (w.units u).kind = .sit3088)
      (hpin : pinRejected pf (w.units u).dirPin = false) (hready : adapterReady pf w u = false) :
      BeginStep (w.setUnit u (w.rolledBack u), w.pinSetup pf env u, false)
  | plain (ad : AdapterUART) (hkind : (w.units u).kind = .sp485)
      (had : (w.units u).adapter = some ad) (hready : adapterReady pf w u = true) :
      BeginStep
        (begun pf env w u (w.units u) (ad.line pf.framework),
          (drained env w (w.units u).cfg.flushRX (ad.line pf.framework)).log, true)
  | controlled (ad : AdapterUART) (hkind : (w.units u).kind = .sit3088)
      (hpin : pinRejected pf (w.units u).dirPin = false)
      (had : (w.units u).adapter = some ad) (hready : adapterReady pf w u = true) :
      BeginStep
        (begun pf env w u (w.captured u) (ad.line pf.framework),
          w.pinSetup pf env u ++
            (drained env w (w.units u).cfg.flushRX (ad.line pf.framework)).log, true)

/-- **Inversion of `begin`.** -/
theorem begin_step : BeginStep pf env w u (begin pf env w u) := by
  cases hkind : (w.units u).kind with
  | sp485 =>
      rw [begin_sp485 env hkind]
      cases hready : adapterReady pf w u with
      | false =>
          rw [baseBegin_of_not_ready env hready]
          exact .unready hkind hready
      | true =>
          obtain ⟨ad, had, hbegin⟩ := baseBegin_of_ready env hready
          rw [hbegin]
          exact .plain ad hkind had hready
  | sit3088 =>
      cases hpin : pinRejected pf (w.units u).dirPin with
      | true =>
          rw [begin_rejected env hkind hpin]
          exact .rejected hkind hpin
      | false =>
          cases hready : adapterReady pf w u with
          | false =>
              rw [begin_failed env hkind hpin hready]
              exact .failed hkind hpin hready
          | true =>
              obtain ⟨ad, had, hbegin⟩ := begin_succeeded env hkind hpin hready
              rw [hbegin]
              exact .controlled ad hkind hpin had hready

/-- On an ESP framework the pin setup is one call of each kind, on a pin in range. -/
theorem pinSetup_of_esp (hesp : pf.framework.espPlatform = true)
    (hpin : pinRejected pf (w.units u).dirPin = false) :
    (0 ≤ (w.units u).dirPin ∧ (w.units u).dirPin < pf.gpioNumMax) ∧
      w.pinSetup pf env u =
        [.gpioConfig (w.units u).dirPin (env.gpioConfig (w.units u).dirPin),
          .gpioSetLevel (w.units u).dirPin false (env.gpioSetLevel (w.units u).dirPin false)] := by
  have hrange : 0 ≤ (w.units u).dirPin ∧ (w.units u).dirPin < pf.gpioNumMax := by
    simpa [pinRejected, hesp] using hpin
  have hnonneg : ¬ (w.units u).dirPin < 0 := not_lt.mpr hrange.1
  refine ⟨hrange, ?_⟩
  simp [pinSetup, UnitSIT3088.configureDirPin, UnitSIT3088.setTransmit, captured, hesp, hnonneg]

/-- On any other the DIR pin is never touched. -/
theorem pinSetup_of_not_esp (hesp : pf.framework.espPlatform = false) :
    w.pinSetup pf env u = [] := by
  simp [pinSetup, UnitSIT3088.configureDirPin, UnitSIT3088.setTransmit, hesp]

section Begun

variable (unit : RS485Unit) (port : Port)

@[simp] theorem begun_units : (begun pf env w u unit port).units =
    update w.units u { unit with serial := ⟨some (.heap w.next), true⟩ } := by
  simp [begun, installSerial]

@[simp] theorem begun_live : (begun pf env w u unit port).live = w.live := by
  simp [begun]

@[simp] theorem begun_heap : (begun pf env w u unit port).heap =
    update w.heap w.next (newBackend pf u unit.kind port) := by
  simp [begun, installSerial]

@[simp] theorem begun_next : (begun pf env w u unit port).next = w.next + 1 := by
  simp [begun, installSerial]

@[simp] theorem begun_destroyed : (begun pf env w u unit port).destroyed =
    w.destroyed ++ unit.serial.deleted := by
  simp [begun, installSerial]

@[simp] theorem begun_ports : (begun pf env w u unit port).ports =
    update w.ports port (drained env w unit.cfg.flushRX port).uart := by
  simp [begun]

end Begun

/-- Do the checks of `begin` let the unit through: its adapter, and for a `UnitSIT3088` its
DIR pin? -/
def Accepted : Prop :=
  adapterReady pf w u = true ∧
    ((w.units u).kind = .sit3088 → pinRejected pf (w.units u).dirPin = false)

theorem begin_eq_true_iff : (begin pf env w u).2.2 = true ↔ Accepted pf w u := by
  have hbegin := begin_step pf env w u
  generalize begin pf env w u = r at hbegin
  unfold Accepted
  cases hbegin with
  | unready hkind hready => simp [hready]
  | rejected hkind hpin => simp [hkind, hpin]
  | failed hkind hpin hready => simp [hready]
  | plain ad hkind had hready => simp [hkind, hready]
  | controlled ad hkind hpin had hready => simp [hpin, hready]

theorem begin_live : (begin pf env w u).1.live = w.live := by
  have hbegin := begin_step pf env w u
  generalize begin pf env w u = r at hbegin
  cases hbegin <;> simp

@[simp] theorem captured_serial : (w.captured u).serial = (w.units u).serial := rfl
@[simp] theorem captured_kind : (w.captured u).kind = (w.units u).kind := rfl
@[simp] theorem captured_adapter : (w.captured u).adapter = (w.units u).adapter := rfl
@[simp] theorem captured_cfg : (w.captured u).cfg = (w.units u).cfg := rfl
@[simp] theorem captured_dirPin : (w.captured u).dirPin = (w.units u).dirPin := rfl
@[simp] theorem captured_configuredDirPin :
    (w.captured u).configuredDirPin = (w.units u).dirPin := rfl
@[simp] theorem rolledBack_serial : (w.rolledBack u).serial = (w.units u).serial := rfl
@[simp] theorem rolledBack_configuredDirPin : (w.rolledBack u).configuredDirPin = -1 := rfl

end Begin

/-! ## Moves -/

/-- What a move leaves in its source. -/
def leftBehind (pf : Platform) (unit : RS485Unit) : RS485Unit :=
  { unit with adapter := (pf.moveAdapter unit.adapter).2, serial := SerialPtr.fallback }

/-- What a move puts into its target. -/
def carriedOver (pf : Platform) (unit : RS485Unit) : RS485Unit :=
  { unit with adapter := (pf.moveAdapter unit.adapter).1 }

/-- The world after a move between two units, by construction or by assignment. -/
def moved (pf : Platform) (w : World) (src dst : UnitId) : World :=
  rebindSerial
    { w with
      units :=
        update (update w.units src (leftBehind pf (w.units src))) dst
          (carriedOver pf (w.units src))
      live := update w.live dst true
      destroyed :=
        w.destroyed ++ if w.live dst then (w.units dst).serial.deleted else [] } dst

section Moves

variable {pf : Platform} {w : World} {src dst : UnitId}

theorem moveConstruct_eq_moved (hdst : w.live dst = false) :
    w.moveConstruct pf src dst = moved pf w src dst := by
  simp [moveConstruct, moved, leftBehind, carriedOver, hdst]

theorem moveAssign_eq_moved (hne : src ≠ dst) (hdst : w.live dst = true)
    (hkind : (w.units src).kind = (w.units dst).kind) :
    w.moveAssign pf src dst = moved pf w src dst := by
  have hlive : update w.live dst true = w.live := by
    rw [← hdst, update_eq_self]
  simp [moveAssign, moved, leftBehind, carriedOver, hne, hdst, hkind, hlive]

theorem moveAssign_self : w.moveAssign pf src src = w :=
  (if_pos rfl).trans (setUnit_self w src)

@[simp] theorem moved_units : (moved pf w src dst).units =
    update (update w.units src (leftBehind pf (w.units src))) dst
      (carriedOver pf (w.units src)) := by
  simp [moved]

@[simp] theorem moved_live : (moved pf w src dst).live = update w.live dst true := by
  simp [moved]

@[simp] theorem moved_next : (moved pf w src dst).next = w.next := by
  simp [moved]

@[simp] theorem moved_destroyed : (moved pf w src dst).destroyed =
    w.destroyed ++ if w.live dst then (w.units dst).serial.deleted else [] := by
  simp [moved]

@[simp] theorem moved_ports : (moved pf w src dst).ports = w.ports := by
  simp [moved]

/-- A move of a unit on the fallback leaves the heap alone. -/
theorem moved_heap_of_fallback (hserial : (w.units src).serial = SerialPtr.fallback) :
    (moved pf w src dst).heap = w.heap := by
  simp [moved, rebindSerial, carriedOver, hserial, SerialPtr.fallback]

/-- A move of a unit with a backend of its own binds the backend to the target. -/
theorem moved_heap_of_heap {id : ℕ} (hserial : (w.units src).serial = ⟨some (.heap id), true⟩) :
    (moved pf w src dst).heap = update w.heap id ((w.heap id).rebind dst) := by
  simp [moved, rebindSerial, carriedOver, hserial, storeBackend, deref]

end Moves

/-! ## Steps -/

theorem step_serial (pf : Platform) {w : World} {u : UnitId} (hlive : w.live u = true)
    (call : SerialCall) (env : Env) :
    w.step pf ⟨.serial u call, env⟩ = w.serialCall pf env u call :=
  if_pos hlive

theorem step_of_not_enabled (pf : Platform) {w : World} {c : Call}
    (h : w.enabled c.op = false) : w.step pf c = (w, ⟨.rejected, []⟩) :=
  if_neg (by simp [h])

/-- What a step can do. -/
inductive Effect (pf : Platform) (w : World) (c : Call) : World × Outcome → Prop
  | rejected (hop : w.enabled c.op = false) : Effect pf w c (w, ⟨.rejected, []⟩)
  | construct (u : UnitId) (kind : UnitKind) (hop : c.op = .construct u kind)
      (hlive : w.live u = false) :
      Effect pf w c
        ({ w with
            units := update w.units u (RS485Unit.fresh kind)
            live := update w.live u true }, ⟨.done, []⟩)
  | destroy (u : UnitId) (hop : c.op = .destroy u) (hlive : w.live u = true) :
      Effect pf w c
        ({ w with
            live := update w.live u false
            destroyed := w.destroyed ++ (w.units u).serial.deleted }, ⟨.done, []⟩)
  | move (src dst : UnitId)
      (hop : c.op = .moveConstruct src dst ∧ w.live dst = false ∨
        c.op = .moveAssign src dst ∧ w.live dst = true ∧
          (w.units src).kind = (w.units dst).kind)
      (hsrc : w.live src = true) (hne : src ≠ dst) :
      Effect pf w c (moved pf w src dst, ⟨.done, []⟩)
  | moveSelf (u : UnitId) (hop : c.op = .moveAssign u u) : Effect pf w c (w, ⟨.done, []⟩)
  | install (u : UnitId) (serial : Option Backend) (hop : c.op = .installSerial u serial)
      (hlive : w.live u = true) :
      Effect pf w c (w.installSerial u serial, ⟨.done, []⟩)
  | settings (u : UnitId) (unit : RS485Unit)
      (hop : (∃ ad, c.op = .setAdapter u ad) ∨ (∃ cfg, c.op = .config u cfg) ∨
        ∃ cfg, c.op = .configBase u cfg)
      (hkind : unit.kind = (w.units u).kind) (hserial : unit.serial = (w.units u).serial)
      (hpin : unit.configuredDirPin = (w.units u).configuredDirPin) :
      Effect pf w c (w.setUnit u unit, ⟨.done, []⟩)
  | begin (u : UnitId) (hop : c.op = .begin u) (hlive : w.live u = true)
      (r : World × List Event × Bool) (h : BeginStep pf c.env w u r) :
      Effect pf w c (r.1, ⟨.flag r.2.2, r.2.1⟩)
  | call (u : UnitId) (call : SerialCall) (hop : c.op = .serial u call)
      (hlive : w.live u = true) : Effect pf w c (w.serialCall pf c.env u call)
  | uartDriver (port : Port) (installed : Bool) (txRingSize : ℕ)
      (hop : c.op = .uartDriver port installed txRingSize) :
      Effect pf w c (w.exec pf c.env (.uartDriver port installed txRingSize))
  | arrive (port : Port) (bytes : List Byte) (hop : c.op = .arrive port bytes) :
      Effect pf w c (w.exec pf c.env (.arrive port bytes))
  | transmit (port : Port) (n : ℕ) (hop : c.op = .transmit port n) :
      Effect pf w c (w.exec pf c.env (.transmit port n))

/-- **Inversion of a step.** -/
theorem step_effect (pf : Platform) (w : World) (c : Call) : Effect pf w c (w.step pf c) := by
  obtain ⟨op, env⟩ := c
  unfold step
  cases henabled : w.enabled op with
  | false => exact .rejected henabled
  | true =>
      rw [if_pos rfl]
      cases op with
      | construct u kind => exact .construct u kind rfl (by simpa [enabled] using henabled)
      | destroy u => exact .destroy u rfl henabled
      | moveConstruct src dst =>
          simp only [enabled, Bool.and_eq_true, Bool.not_eq_true'] at henabled
          obtain ⟨hsrc, hdst⟩ := henabled
          have hne : src ≠ dst := by
            rintro rfl
            rw [hsrc] at hdst
            cases hdst
          simp only [exec, moveConstruct_eq_moved hdst]
          exact .move src dst (Or.inl ⟨rfl, hdst⟩) hsrc hne
      | moveAssign src dst =>
          simp only [enabled, Bool.and_eq_true, decide_eq_true_eq] at henabled
          obtain ⟨⟨hsrc, hdst⟩, hkind⟩ := henabled
          by_cases hne : src = dst
          · subst hne
            simp only [exec, moveAssign_self]
            exact .moveSelf src rfl
          · simp only [exec, moveAssign_eq_moved hne hdst hkind]
            exact .move src dst (Or.inr ⟨rfl, hdst, hkind⟩) hsrc hne
      | installSerial u serial => exact .install u serial rfl henabled
      | setAdapter u ad => exact .settings u _ (Or.inl ⟨ad, rfl⟩) rfl rfl rfl
      | config u cfg => exact .settings u _ (Or.inr (Or.inl ⟨cfg, rfl⟩)) rfl rfl rfl
      | configBase u cfg => exact .settings u _ (Or.inr (Or.inr ⟨cfg, rfl⟩)) rfl rfl rfl
      | begin u => exact .begin u rfl henabled _ (begin_step pf env w u)
      | serial u call => exact .call u call rfl henabled
      | uartDriver port installed txRingSize => exact .uartDriver port installed txRingSize rfl
      | arrive port bytes => exact .arrive port bytes rfl
      | transmit port n => exact .transmit port n rfl

end World

end RS485
