import RS485.PinUse
import RS485.SameUnit

/-!
# Units that hold their backends

What the units are for, without the pointers: a unit holds its backend, and a move carries it
over.  There is no heap, no flag that says who deletes what, and no pointer from a decorator
back to a unit, since a decorator drives the pin of the unit that holds it.

`World.fleet` reads this off a world, and `fleet_step` says that every operation of the code is
the one described here, with the same outcome.
-/

namespace RS485

open Function

/-! ## The units -/

/-- A unit with the backend that its methods call.  The owner of a decorator is left out: it
is 0 throughout. -/
structure OwningUnit where
  kind : UnitKind
  adapter : Option AdapterUART
  cfg : ConfigT
  dirPin : Pin
  configuredDirPin : Pin
  backend : Backend

/-- The units there are, and the ports. -/
@[ext]
structure Fleet where
  units : UnitId → Option OwningUnit
  ports : Port → UartPort

/-- The port a backend is about to work on, with an empty log. -/
def ioOf (ports : Port → UartPort) : Option Port → Io
  | some p => ⟨ports p, []⟩
  | none => ⟨default, []⟩

def storeUart (ports : Port → UartPort) (port : Option Port) (uart : UartPort) :
    Port → UartPort :=
  match port with
  | some p => update ports p uart
  | none => ports

namespace OwningUnit

variable (pf : Platform) (env : Env) (ports : Port → UartPort) (x : OwningUnit)

def fresh (kind : UnitKind) : OwningUnit where
  kind := kind
  adapter := none
  cfg := {}
  dirPin := -1
  configuredDirPin := -1
  backend := .nullSerial

/-- The unit as far as its decorator can see it. -/
def unit : RS485Unit where
  kind := x.kind
  adapter := x.adapter
  cfg := x.cfg
  serial := SerialPtr.fallback
  dirPin := x.dirPin
  configuredDirPin := x.configuredDirPin

/-- What a move leaves behind, and what it carries over. -/
def leftBehind : OwningUnit :=
  { x with adapter := (pf.moveAdapter x.adapter).2, backend := .nullSerial }

def carriedOver : OwningUnit := { x with adapter := (pf.moveAdapter x.adapter).1 }

/-- The pin that `begin` captures: that of a `UnitSIT3088` only. -/
def capture (pin : Pin) : Pin :=
  match x.kind with
  | .sp485 => x.configuredDirPin
  | .sit3088 => pin

/-- The pin setup, of a `UnitSIT3088` only. -/
def pinSetup : List Event :=
  match x.kind with
  | .sp485 => []
  | .sit3088 =>
      UnitSIT3088.configureDirPin pf env x.dirPin ++
        UnitSIT3088.setTransmit pf env { x.unit with configuredDirPin := x.dirPin } false

/-- Does the adapter lead to a port that can be begun on? -/
def ready (ad : AdapterUART) : Bool :=
  (pf.framework.arduino || pf.framework.espPlatform) &&
    if pf.framework.arduino then ad.getSerial.isSome
    else decide (ad.uartPort ≠ pf.uartNumMax) && (ports ad.uartPort).installed

/-- A `begin` that turns the unit down after the pin setup. -/
def failed : OwningUnit × (Port → UartPort) × List Event × Bool :=
  ({ x with configuredDirPin := x.capture (-1) }, ports, x.pinSetup pf env, false)

/-- A `begin` on a port. -/
def begun (line : Port) : OwningUnit × (Port → UartPort) × List Event × Bool :=
  let io := ioOf ports (some line)
  let drained := if x.cfg.flushRX then World.drainLoop env line 100 0 env.startLag io else io
  ({ x with
      configuredDirPin := x.capture x.dirPin
      backend := World.newBackend pf 0 x.kind line },
    update ports line drained.uart, x.pinSetup pf env ++ drained.log, true)

def begin : OwningUnit × (Port → UartPort) × List Event × Bool :=
  if x.kind = .sit3088 ∧ World.pinRejected pf x.dirPin = true then
    (x, ports, [], false)
  else
    match x.adapter with
    | none => x.failed pf env ports
    | some ad =>
        if ready pf ports ad then x.begun pf env ports (ad.line pf.framework)
        else x.failed pf env ports

/-- A call of a Serial-compatible method. -/
def serialCall (call : SerialCall) : OwningUnit × (Port → UartPort) × Outcome :=
  let r := x.backend.dispatch pf env (fun _ => x.unit)
    (fun serial s => call.perform pf serial s) (ioOf ports x.backend.port)
  ({ x with backend := r.1 }, storeUart ports x.backend.port r.2.1.uart, ⟨r.2.2, r.2.1.log⟩)

end OwningUnit

/-! ## Operations -/

namespace Fleet

variable (pf : Platform) (f : Fleet)

def init (ports : Port → UartPort) : Fleet := ⟨fun _ => none, ports⟩

def set (u : UnitId) (x : Option OwningUnit) : Fleet := { f with units := update f.units u x }

def setPort (port : Port) (uart : UartPort) : Fleet :=
  { f with ports := update f.ports port uart }

def moved (src dst : UnitId) (x : OwningUnit) : Fleet :=
  (f.set src (some (x.leftBehind pf))).set dst (some (x.carriedOver pf))

/-- An operation on what there is at its places. -/
def construct (u : UnitId) (kind : UnitKind) : Option OwningUnit → Fleet × Outcome
  | none => (f.set u (some (.fresh kind)), ⟨.done, []⟩)
  | some _ => (f, ⟨.rejected, []⟩)

def destroy (u : UnitId) : Option OwningUnit → Fleet × Outcome
  | none => (f, ⟨.rejected, []⟩)
  | some _ => (f.set u none, ⟨.done, []⟩)

def moveConstruct (src dst : UnitId) : (x y : Option OwningUnit) → Fleet × Outcome
  | some x, none => (f.moved pf src dst x, ⟨.done, []⟩)
  | _, _ => (f, ⟨.rejected, []⟩)

def moveAssign (src dst : UnitId) : (x y : Option OwningUnit) → Fleet × Outcome
  | some x, some y =>
      if x.kind = y.kind then
        (if src = dst then f else f.moved pf src dst x, ⟨.done, []⟩)
      else (f, ⟨.rejected, []⟩)
  | _, _ => (f, ⟨.rejected, []⟩)

/-- An operation of one unit, if there is such a unit. -/
def ofUnit (u : UnitId)
    (g : OwningUnit → (Port → UartPort) → OwningUnit × (Port → UartPort) × Outcome) :
    Fleet × Outcome :=
  match f.units u with
  | none => (f, ⟨.rejected, []⟩)
  | some x =>
      (⟨update f.units u (some (g x f.ports).1), (g x f.ports).2.1⟩, (g x f.ports).2.2)

/-- Perform an operation. -/
def step (c : Call) : Fleet × Outcome :=
  match c.op with
  | .construct u kind => f.construct u kind (f.units u)
  | .destroy u => f.destroy u (f.units u)
  | .moveConstruct src dst => f.moveConstruct pf src dst (f.units src) (f.units dst)
  | .moveAssign src dst => f.moveAssign pf src dst (f.units src) (f.units dst)
  | .installSerial u serial =>
      f.ofUnit u fun x ports =>
        ({ x with backend := serial.elim x.backend (Backend.rebind 0) }, ports, ⟨.done, []⟩)
  | .setAdapter u adapter =>
      f.ofUnit u fun x ports => ({ x with adapter := adapter }, ports, ⟨.done, []⟩)
  | .config u cfg =>
      f.ofUnit u fun x ports =>
        if x.kind = .sit3088 then
          ({ x with cfg := cfg.toConfigT, dirPin := cfg.dirPin }, ports, ⟨.done, []⟩)
        else (x, ports, ⟨.rejected, []⟩)
  | .configBase u cfg => f.ofUnit u fun x ports => ({ x with cfg := cfg }, ports, ⟨.done, []⟩)
  | .begin u =>
      f.ofUnit u fun x ports =>
        let r := x.begin pf c.env ports
        (r.1, r.2.1, ⟨.flag r.2.2.2, r.2.2.1⟩)
  | .serial u call => f.ofUnit u fun x ports => x.serialCall pf c.env ports call
  | .uartDriver port installed txRingSize =>
      (f.setPort port
        { f.ports port with
          installed := installed
          rx := []
          tx := []
          txRingSize := txRingSize
          txRingUsed := 0 }, ⟨.done, []⟩)
  | .arrive port bytes =>
      (f.setPort port { f.ports port with rx := (f.ports port).rx ++ bytes },
        ⟨.done, [.received port bytes]⟩)
  | .transmit port n =>
      let io := (ioOf f.ports (some port)).transmit port n c.env.ringUsed
      (f.setPort port io.uart, ⟨.done, io.log⟩)

end Fleet

/-- A program on units that hold their backends. -/
def fleetMachine (pf : Platform) : OutputMachine Fleet Call Outcome := ⟨Fleet.step pf⟩

/-! ## Reading it off a world -/

namespace World

/-- The unit with the backend it points to. -/
def owning (w : World) (u : UnitId) : OwningUnit where
  kind := (w.units u).kind
  adapter := (w.units u).adapter
  cfg := (w.units u).cfg
  dirPin := (w.units u).dirPin
  configuredDirPin := (w.units u).configuredDirPin
  backend := (w.backend u).rebind 0

def fleet (w : World) : Fleet where
  units u := if w.live u then some (w.owning u) else none
  ports := w.ports

variable {pf : Platform} {env : Env} {w w' : World} {u v : UnitId}

theorem fleet_units_of_live (h : w.live u = true) : w.fleet.units u = some (w.owning u) :=
  if_pos h

theorem fleet_units_of_dead (h : w.live u = false) : w.fleet.units u = none :=
  if_neg (by simp [h])

/-- The fields and the backend are all there is to a unit. -/
theorem owning_congr (hunit : w'.units v = w.units v) (hbackend : w'.backend v = w.backend v) :
    w'.owning v = w.owning v := by
  simp only [owning, hunit, hbackend]

/-- A change of one unit and of ports. -/
theorem fleet_of_unit (hlive : w'.live = update w.live u true)
    (hother : ∀ v, w.live v = true → v ≠ u → w'.owning v = w.owning v) :
    w'.fleet = ⟨update w.fleet.units u (some (w'.owning u)), w'.ports⟩ := by
  refine Fleet.ext (funext fun v => ?_) rfl
  by_cases hvu : v = u
  · subst hvu
    simp [fleet, hlive]
  · cases hv : w.live v with
    | false => simp [fleet, hlive, hvu, hv]
    | true => simp [fleet, hlive, hvu, hv, hother v hv hvu]

/-- A change of ports. -/
theorem fleet_storePort (port : Port) (uart : UartPort) :
    (w.storePort (some port) uart).fleet = w.fleet.setPort port uart := by
  refine Fleet.ext (funext fun v => ?_) (by simp [fleet, Fleet.setPort])
  have howning : (w.storePort (some port) uart).owning v = w.owning v :=
    owning_congr (by simp) (by simp)
  simp [fleet, Fleet.setPort, howning]

/-! ### An operation of one unit -/

/-- An operation that changes one unit that is there, and ports. -/
theorem ofUnit_eq (hu : w.live u = true) (hlive : w'.live = w.live)
    (hother : ∀ v, w.live v = true → v ≠ u → w'.owning v = w.owning v)
    {g : OwningUnit → (Port → UartPort) → OwningUnit × (Port → UartPort) × Outcome}
    {out : Outcome}
    (hg : g (w.owning u) w.ports = (w'.owning u, w'.ports, out)) :
    w.fleet.ofUnit u g = (w'.fleet, out) := by
  have hlive' : w'.live = update w.live u true := by rw [hlive, ← hu, update_eq_self]
  have hports : w.fleet.ports = w.ports := rfl
  rw [fleet_of_unit hlive' hother]
  simp only [Fleet.ofUnit, fleet_units_of_live hu, hports, hg]

theorem ofUnit_of_dead (hu : w.live u = false)
    (g : OwningUnit → (Port → UartPort) → OwningUnit × (Port → UartPort) × Outcome) :
    w.fleet.ofUnit u g = (w.fleet, ⟨.rejected, []⟩) := by
  simp only [Fleet.ofUnit, fleet_units_of_dead hu]

theorem owning_setUnit_other {unit : RS485Unit} (hserial : unit.serial = (w.units u).serial)
    (hvu : v ≠ u) : (w.setUnit u unit).owning v = w.owning v :=
  owning_congr (by simp [hvu]) (backend_setUnit hserial)

theorem owning_setUnit_self {unit : RS485Unit} (hserial : unit.serial = (w.units u).serial) :
    (w.setUnit u unit).owning u =
      { kind := unit.kind
        adapter := unit.adapter
        cfg := unit.cfg
        dirPin := unit.dirPin
        configuredDirPin := unit.configuredDirPin
        backend := (w.backend u).rebind 0 } := by
  simp [owning, backend_setUnit hserial]

/-- New fields, and the backend as it was. -/
theorem ofUnit_setUnit (hu : w.live u = true) (unit : RS485Unit)
    (hserial : unit.serial = (w.units u).serial)
    {g : OwningUnit → (Port → UartPort) → OwningUnit × (Port → UartPort) × Outcome}
    {out : Outcome}
    (hg : g (w.owning u) w.ports =
      ({ kind := unit.kind
         adapter := unit.adapter
         cfg := unit.cfg
         dirPin := unit.dirPin
         configuredDirPin := unit.configuredDirPin
         backend := (w.backend u).rebind 0 }, w.ports, out)) :
    w.fleet.ofUnit u g = ((w.setUnit u unit).fleet, out) := by
  have hlive : (w.setUnit u unit).live = w.live := rfl
  refine ofUnit_eq hu hlive (fun _ _ hvu => owning_setUnit_other hserial hvu) ?_
  rw [owning_setUnit_self hserial]
  exact hg

theorem ready_eq {ad : AdapterUART} (had : (w.units u).adapter = some ad) :
    OwningUnit.ready pf w.ports ad = adapterReady pf w u := by
  simp only [OwningUnit.ready, adapterReady, had]

theorem pinSetup_owning (hkind : (w.units u).kind = .sit3088) :
    (w.owning u).pinSetup pf env = w.pinSetup pf env u := by
  have htransmit : UnitSIT3088.setTransmit pf env
      { (w.owning u).unit with configuredDirPin := (w.owning u).dirPin } =
        UnitSIT3088.setTransmit pf env (w.captured u) := UnitSIT3088.setTransmit_congr rfl
  simp only [OwningUnit.pinSetup, pinSetup, owning, hkind] at htransmit ⊢
  rw [htransmit]

theorem owning_begin_of_not_ready
    (hpin : (w.units u).kind = .sit3088 → pinRejected pf (w.units u).dirPin = false)
    (hready : adapterReady pf w u = false) :
    (w.owning u).begin pf env w.ports = (w.owning u).failed pf env w.ports := by
  have hnot : ¬ ((w.owning u).kind = .sit3088 ∧ pinRejected pf (w.owning u).dirPin = true) := by
    rintro ⟨hkind, hrejected⟩
    have haccepted : pinRejected pf (w.owning u).dirPin = false := hpin hkind
    rw [haccepted] at hrejected
    cases hrejected
  rw [OwningUnit.begin, if_neg hnot]
  cases had : (w.units u).adapter with
  | none =>
      have hadapter : (w.owning u).adapter = none := had
      rw [hadapter]
  | some ad =>
      have hadapter : (w.owning u).adapter = some ad := had
      rw [hadapter]
      exact if_neg (by rw [ready_eq had, hready]; simp)

theorem owning_begin_of_ready
    (hpin : (w.units u).kind = .sit3088 → pinRejected pf (w.units u).dirPin = false)
    {ad : AdapterUART} (had : (w.units u).adapter = some ad)
    (hready : adapterReady pf w u = true) :
    (w.owning u).begin pf env w.ports =
      (w.owning u).begun pf env w.ports (ad.line pf.framework) := by
  have hnot : ¬ ((w.owning u).kind = .sit3088 ∧ pinRejected pf (w.owning u).dirPin = true) := by
    rintro ⟨hkind, hrejected⟩
    have haccepted : pinRejected pf (w.owning u).dirPin = false := hpin hkind
    rw [haccepted] at hrejected
    cases hrejected
  have hadapter : (w.owning u).adapter = some ad := had
  rw [OwningUnit.begin, if_neg hnot, hadapter]
  exact if_pos (by rw [ready_eq had, hready])

/-- What `begin` makes of a world in which it succeeds. -/
theorem owning_begun {unit : RS485Unit} (hkind : unit.kind = (w.units u).kind)
    (hadapter : unit.adapter = (w.units u).adapter) (hcfg : unit.cfg = (w.units u).cfg)
    (hdirPin : unit.dirPin = (w.units u).dirPin)
    (hcaptured : unit.configuredDirPin = (w.owning u).capture (w.units u).dirPin) (line : Port) :
    (w.owning u).begun pf env w.ports line =
      ((begun pf env w u unit line).owning u, (begun pf env w u unit line).ports,
        (w.owning u).pinSetup pf env ++ (w.drained env (w.units u).cfg.flushRX line).log,
        true) := by
  have howning : (begun pf env w u unit line).owning u =
      { w.owning u with
        configuredDirPin := (w.owning u).capture (w.units u).dirPin
        backend := newBackend pf 0 (w.units u).kind line } := by
    simp [owning, backend_begun_self, newBackend_rebind, hkind, hadapter, hcfg, hdirPin, hcaptured]
  rw [howning, begun_ports, hcfg]
  rfl

/-- **`begin()`** is the one of the unit that holds its backend. -/
theorem ofUnit_begin (h : w.Owned) (hu : w.live u = true) :
    w.fleet.ofUnit u (fun x ports =>
        let r := x.begin pf env ports
        (r.1, r.2.1, ⟨.flag r.2.2.2, r.2.2.1⟩)) =
      ((begin pf env w u).1.fleet,
        ⟨.flag (begin pf env w u).2.2, (begin pf env w u).2.1⟩) := by
  have hbegin := begin_step pf env w u
  generalize begin pf env w u = r at hbegin
  have hbegun : ∀ (unit : RS485Unit) (line : Port),
      (begun pf env w u unit line).live = w.live ∧
      ∀ v, w.live v = true → v ≠ u → (begun pf env w u unit line).owning v = w.owning v := by
    intro unit line
    refine ⟨begun_live .., fun v hv hvu => owning_congr ?_ (h.backend_begun_other hv hvu ..)⟩
    simp [hvu]
  cases hbegin with
  | unready hkind hready =>
      refine ofUnit_eq hu rfl (fun _ _ _ => rfl) ?_
      dsimp only
      rw [owning_begin_of_not_ready (by simp [hkind]) hready]
      simp only [OwningUnit.failed, OwningUnit.capture, OwningUnit.pinSetup, owning, hkind]
  | rejected hkind hpin =>
      refine ofUnit_eq hu rfl (fun _ _ _ => rfl) ?_
      dsimp only
      rw [OwningUnit.begin, if_pos ⟨hkind, hpin⟩]
  | failed hkind hpin hready =>
      refine ofUnit_setUnit hu (w.rolledBack u) (rolledBack_serial w u) ?_
      dsimp only
      rw [owning_begin_of_not_ready (fun _ => hpin) hready]
      simp only [OwningUnit.failed, pinSetup_owning hkind]
      simp only [OwningUnit.capture, owning, hkind, rolledBack]
  | plain ad hkind had hready =>
      obtain ⟨hlive, hother⟩ := hbegun (w.units u) (ad.line pf.framework)
      refine ofUnit_eq hu hlive hother ?_
      have hcaptured : (w.units u).configuredDirPin =
          (w.owning u).capture (w.units u).dirPin := by
        simp [OwningUnit.capture, owning, hkind]
      have hsetup : (w.owning u).pinSetup pf env = [] := by
        simp [OwningUnit.pinSetup, owning, hkind]
      dsimp only
      rw [owning_begin_of_ready (by simp [hkind]) had hready,
        owning_begun rfl rfl rfl rfl hcaptured, hsetup, List.nil_append]
  | controlled ad hkind hpin had hready =>
      obtain ⟨hlive, hother⟩ := hbegun (w.captured u) (ad.line pf.framework)
      refine ofUnit_eq hu hlive hother ?_
      have hcaptured : (w.captured u).configuredDirPin =
          (w.owning u).capture (w.units u).dirPin := by
        simp [OwningUnit.capture, owning, hkind]
      dsimp only
      rw [owning_begin_of_ready (fun _ => hpin) had hready,
        owning_begun (captured_kind w u) (captured_adapter w u) (captured_cfg w u)
          (captured_dirPin w u) hcaptured, pinSetup_owning hkind]

/-- **A call** is one of the backend the unit holds. -/
theorem ofUnit_serialCall (h : w.Owned) (hu : w.live u = true)
    (howner : ∀ v, (w.backend u).owner = some v → v = u) (call : SerialCall) :
    w.fleet.ofUnit u (fun x ports => x.serialCall pf env ports call) =
      ((w.serialCall pf env u call).1.fleet, (w.serialCall pf env u call).2) := by
  have hlive : (w.serialCall pf env u call).1.live = w.live := by simp [serialCall]
  refine ofUnit_eq hu hlive (fun v hv hvu => ?_) ?_
  · exact owning_congr (by simp [serialCall]) (h.backend_serialCall_other hu hv hvu call)
  · have hio : ioOf w.ports (w.backend u).port = w.io (w.backend u).port := by
      cases (w.backend u).port <;> rfl
    have hdispatch : ((w.backend u).rebind 0).dispatch pf env (fun _ => (w.owning u).unit)
        (fun serial s => call.perform pf serial s) (w.io (w.backend u).port) =
          (((w.backend u).dispatch pf env w.units (fun serial s => call.perform pf serial s)
              (w.io (w.backend u).port)).1.rebind 0,
            ((w.backend u).dispatch pf env w.units (fun serial s => call.perform pf serial s)
              (w.io (w.backend u).port)).2) :=
      Backend.dispatch_rebind pf env _ (fun v hv => by rw [howner v hv]; rfl) _
    have hself : (w.serialCall pf env u call).1.owning u =
        { w.owning u with
          backend := ((w.backend u).dispatch pf env w.units
            (fun serial s => call.perform pf serial s) (w.io (w.backend u).port)).1.rebind 0 } := by
      have hunit : (w.serialCall pf env u call).1.units u = w.units u := by simp [serialCall]
      simp only [owning, h.backend_serialCall_self hu, hunit]
    have hports : (w.serialCall pf env u call).1.ports =
        storeUart w.ports (w.backend u).port ((w.backend u).dispatch pf env w.units
          (fun serial s => call.perform pf serial s) (w.io (w.backend u).port)).2.1.uart := by
      cases hport : (w.backend u).port <;> simp [serialCall, storeUart, storePort, hport]
    have hbackend : (w.owning u).backend = (w.backend u).rebind 0 := rfl
    rw [hself, hports]
    simp only [OwningUnit.serialCall, hbackend, Backend.port_rebind, hio, hdispatch]
    rfl

/-! ### Moves -/

theorem fleet_moved (h : w.Owned) {src dst : UnitId} (hsrc : w.live src = true)
    (hne : src ≠ dst) :
    (World.moved pf w src dst).fleet = w.fleet.moved pf src dst (w.owning src) := by
  have hmoved : ∀ v, (World.moved pf w src dst).live v = true →
      (World.moved pf w src dst).owning v =
        if v = dst then (w.owning src).carriedOver pf
        else if v = src then (w.owning src).leftBehind pf else w.owning v := by
    intro v hv
    by_cases hvd : v = dst
    · subst hvd
      simp [owning, h.backend_moved_target hsrc, World.carriedOver, OwningUnit.carriedOver,
        Backend.rebind_rebind]
    · by_cases hvs : v = src
      · subst hvs
        simp [owning, backend_moved_source hne, World.leftBehind, OwningUnit.leftBehind, hvd,
          Backend.rebind]
      · have hv' : w.live v = true := by simpa [hvd] using hv
        rw [if_neg hvd, if_neg hvs]
        exact owning_congr (by simp [hvd, hvs]) (h.backend_moved_other hsrc hv' hvs hvd)
  refine Fleet.ext (funext fun v => ?_) (moved_ports ..)
  by_cases hvd : v = dst
  · subst hvd
    have hlive : (World.moved pf w src v).live v = true := by simp
    rw [fleet_units_of_live hlive, hmoved v hlive]
    simp [Fleet.moved, Fleet.set]
  · have hlive : (World.moved pf w src dst).live v = w.live v := by simp [hvd]
    by_cases hvs : v = src
    · subst hvs
      rw [fleet_units_of_live (hlive.trans hsrc), hmoved v (hlive.trans hsrc)]
      simp [Fleet.moved, Fleet.set, hvd]
    · simp only [Fleet.moved, Fleet.set, update_of_ne hvd, update_of_ne hvs]
      cases hv : w.live v with
      | false => rw [fleet_units_of_dead hv, fleet_units_of_dead (hlive.trans hv)]
      | true =>
          rw [fleet_units_of_live hv, fleet_units_of_live (hlive.trans hv),
            hmoved v (hlive.trans hv), if_neg hvd, if_neg hvs]

/-! ### Steps -/

/-- An operation that needs a unit, and one that is there. -/
theorem ofUnit_step {op : Op} (henabled : w.enabled op = w.live u)
    {g : OwningUnit → (Port → UartPort) → OwningUnit × (Port → UartPort) × Outcome}
    (hexec : w.live u = true →
      w.fleet.ofUnit u g = ((w.exec pf env op).1.fleet, (w.exec pf env op).2)) :
    w.fleet.ofUnit u g = ((w.step pf ⟨op, env⟩).1.fleet, (w.step pf ⟨op, env⟩).2) := by
  unfold step
  rw [henabled]
  cases hu : w.live u with
  | false => exact ofUnit_of_dead hu g
  | true => exact hexec hu

theorem fleet_construct (kind : UnitKind) :
    (World.fleet
      { w with
        units := update w.units u (RS485Unit.fresh kind)
        live := update w.live u true }) = w.fleet.set u (some (.fresh kind)) := by
  refine Fleet.ext (funext fun v => ?_) rfl
  by_cases hvu : v = u
  · subst hvu
    have hbackend : World.backend
        { w with
          units := update w.units v (RS485Unit.fresh kind)
          live := update w.live v true } v = .nullSerial :=
      backend_of_fallback (by simp [RS485Unit.fresh])
    simp only [fleet, Fleet.set, owning, hbackend, update_self, if_true]
    rfl
  · have howning : World.owning
        { w with
          units := update w.units u (RS485Unit.fresh kind)
          live := update w.live u true } v = w.owning v :=
      owning_congr (by simp [hvu]) (backend_construct_other hvu)
    simp only [fleet, Fleet.set, howning, update_of_ne hvu]

theorem fleet_destroy (destroyed : List BackendPtr) :
    (World.fleet
      { w with
        live := update w.live u false
        destroyed := destroyed }) = w.fleet.set u none := by
  refine Fleet.ext (funext fun v => ?_) rfl
  by_cases hvu : v = u
  · subst hvu
    simp [fleet, Fleet.set]
  · simp only [fleet, Fleet.set, update_of_ne hvu]
    rfl

theorem ofUnit_config (hu : w.live u = true) (cfg : SIT3088ConfigT) (c : Call)
    (hop : c.op = .config u cfg) :
    w.fleet.ofUnit u (fun x ports =>
        if x.kind = .sit3088 then
          ({ x with cfg := cfg.toConfigT, dirPin := cfg.dirPin }, ports, ⟨.done, []⟩)
        else (x, ports, ⟨.rejected, []⟩)) =
      ((w.step pf c).1.fleet, (w.step pf c).2) := by
  obtain ⟨op, env⟩ := c
  obtain rfl : op = .config u cfg := hop
  have hkind' : (w.owning u).kind = (w.units u).kind := rfl
  unfold step
  cases hkind : (w.units u).kind with
  | sp485 =>
      have henabled : w.enabled (.config u cfg) = false := by simp [enabled, hkind]
      simp only [henabled, Bool.false_eq_true, if_false]
      exact ofUnit_eq hu rfl (fun _ _ _ => rfl) (by simp [hkind', hkind])
  | sit3088 =>
      have henabled : w.enabled (.config u cfg) = true := by simp [enabled, hu, hkind]
      simp only [henabled, if_true]
      exact ofUnit_setUnit hu { w.units u with cfg := cfg.toConfigT, dirPin := cfg.dirPin } rfl
        (if_pos (hkind'.trans hkind))

/-- **A step** of the code is one of units that hold their backends, with the same outcome. -/
theorem fleet_step (h : w.Owned)
    (howner : ∀ u v, w.live u = true → (w.backend u).owner = some v → v = u) {c : Call}
    (hplain : c.op.installsNoDecorator = true) :
    w.fleet.step pf c = ((w.step pf c).1.fleet, (w.step pf c).2) := by
  obtain ⟨op, env⟩ := c
  cases op with
  | construct u kind =>
      unfold step
      cases hu : w.live u with
      | true =>
          have henabled : w.enabled (.construct u kind) = false := by simp [enabled, hu]
          simp only [Fleet.step, Fleet.construct, fleet_units_of_live hu, henabled,
            Bool.false_eq_true, if_false]
      | false =>
          have henabled : w.enabled (.construct u kind) = true := by simp [enabled, hu]
          simp only [Fleet.step, Fleet.construct, fleet_units_of_dead hu, henabled, if_true]
          exact Prod.ext (fleet_construct kind).symm rfl
  | destroy u =>
      unfold step
      cases hu : w.live u with
      | false =>
          have henabled : w.enabled (.destroy u) = false := hu
          simp only [Fleet.step, Fleet.destroy, fleet_units_of_dead hu, henabled, Bool.false_eq_true,
            if_false]
      | true =>
          have henabled : w.enabled (.destroy u) = true := hu
          simp only [Fleet.step, Fleet.destroy, fleet_units_of_live hu, henabled, if_true]
          exact Prod.ext (fleet_destroy _).symm rfl
  | moveConstruct src dst =>
      unfold step
      cases hsrc : w.live src with
      | false =>
          have henabled : w.enabled (.moveConstruct src dst) = false := by simp [enabled, hsrc]
          simp only [Fleet.step, Fleet.moveConstruct, fleet_units_of_dead hsrc, henabled,
            Bool.false_eq_true, if_false]
      | true =>
          cases hdst : w.live dst with
          | true =>
              have henabled : w.enabled (.moveConstruct src dst) = false := by
                simp [enabled, hdst]
              simp only [Fleet.step, Fleet.moveConstruct, fleet_units_of_live hsrc,
                fleet_units_of_live hdst, henabled, Bool.false_eq_true, if_false]
          | false =>
              have henabled : w.enabled (.moveConstruct src dst) = true := by
                simp [enabled, hsrc, hdst]
              have hne : src ≠ dst := by
                rintro rfl
                rw [hsrc] at hdst
                cases hdst
              simp only [Fleet.step, Fleet.moveConstruct, fleet_units_of_live hsrc,
                fleet_units_of_dead hdst, henabled, if_true, exec, moveConstruct_eq_moved hdst, fleet_moved h hsrc hne]
  | moveAssign src dst =>
      unfold step
      cases hsrc : w.live src with
      | false =>
          have henabled : w.enabled (.moveAssign src dst) = false := by simp [enabled, hsrc]
          simp only [Fleet.step, Fleet.moveAssign, fleet_units_of_dead hsrc, henabled,
            Bool.false_eq_true, if_false]
      | true =>
          cases hdst : w.live dst with
          | false =>
              have henabled : w.enabled (.moveAssign src dst) = false := by simp [enabled, hdst]
              simp only [Fleet.step, Fleet.moveAssign, fleet_units_of_live hsrc,
                fleet_units_of_dead hdst, henabled, Bool.false_eq_true, if_false]
          | true =>
              have hkinds : ((w.owning src).kind = (w.owning dst).kind) =
                  ((w.units src).kind = (w.units dst).kind) := rfl
              simp only [Fleet.step, Fleet.moveAssign, fleet_units_of_live hsrc,
                fleet_units_of_live hdst, hkinds]
              by_cases hkind : (w.units src).kind = (w.units dst).kind
              · have henabled : w.enabled (.moveAssign src dst) = true := by
                  simp [enabled, hsrc, hdst, hkind]
                simp only [henabled, if_true, if_pos hkind, exec]
                by_cases hne : src = dst
                · subst hne
                  rw [if_pos rfl, moveAssign_self]
                · rw [if_neg hne, moveAssign_eq_moved hne hdst hkind, fleet_moved h hsrc hne]
              · have henabled : w.enabled (.moveAssign src dst) = false := by
                  simp [enabled, hkind]
                simp only [henabled, if_neg hkind, Bool.false_eq_true, if_false]
  | installSerial u serial =>
      dsimp only [Fleet.step]
      refine ofUnit_step rfl fun hu => ?_
      have hlive : (w.installSerial u serial).live = w.live := installSerial_live ..
      refine ofUnit_eq hu hlive (fun v hv hvu => ?_) ?_
      · refine owning_congr ?_ (h.backend_install_other hv hvu serial)
        cases serial <;> simp [installSerial, hvu]
      · cases serial with
        | none => rfl
        | some b =>
            have howning : (w.installSerial u (some b)).owning u =
                { w.owning u with backend := b.rebind 0 } := by
              simp only [owning, backend_install_self]
              simp [installSerial]
            rw [howning]
            rfl
  | setAdapter u adapter =>
      dsimp only [Fleet.step]
      exact ofUnit_step rfl fun hu =>
        ofUnit_setUnit hu { w.units u with adapter := adapter } rfl rfl
  | config u cfg =>
      cases hu : w.live u with
      | false =>
          have henabled : w.enabled (.config u cfg) = false := by simp [enabled, hu]
          rw [step_of_not_enabled pf henabled]
          dsimp only [Fleet.step]
          exact ofUnit_of_dead hu _
      | true => exact ofUnit_config hu cfg _ rfl
  | configBase u cfg =>
      dsimp only [Fleet.step]
      exact ofUnit_step rfl fun hu => ofUnit_setUnit hu { w.units u with cfg := cfg } rfl rfl
  | begin u =>
      dsimp only [Fleet.step]
      exact ofUnit_step rfl fun hu => ofUnit_begin h hu
  | serial u call =>
      dsimp only [Fleet.step]
      exact ofUnit_step rfl fun hu => ofUnit_serialCall h hu (fun v => howner u v hu) call
  | uartDriver port installed txRingSize => exact Prod.ext (fleet_storePort port _).symm rfl
  | arrive port bytes => exact Prod.ext (fleet_storePort port _).symm rfl
  | transmit port n => exact Prod.ext (fleet_storePort port _).symm rfl

end World

/-! ## Runs -/

section Runs

variable {pf : Platform} {w : World} {c : Call}

/-- In a program that installs no decorator by hand, every decorator is owned by the unit that
holds it, -/
theorem PinsNamed.refines {named : List Pin} (h : PinsNamed pf named w)
    (hplain : c.op.installsNoDecorator = true) :
    (fleetMachine pf).step w.fleet c =
      (((machine pf).step w c).1.fleet, ((machine pf).step w c).2) :=
  World.fleet_step h.owned (fun u v hu hv => (h.owner u v hu hv).1) hplain

/-- and goes on being so. -/
theorem PinsNamed.exists_step (h : ∃ named, PinsNamed pf named w)
    (hplain : c.op.installsNoDecorator = true) :
    ∃ named, PinsNamed pf named ((machine pf).step w c).1 := by
  obtain ⟨named, h⟩ := h
  exact ⟨_, h.step hplain⟩

/-- A run of such a program is one of units that hold their backends. -/
theorem PinsNamed.run (h : ∃ named, PinsNamed pf named w) {calls : List Call}
    (hplain : ∀ c ∈ calls, c.op.installsNoDecorator = true) :
    (fleetMachine pf).outputs w.fleet calls = (machine pf).outputs w calls ∧
      (fleetMachine pf).after w.fleet calls = ((machine pf).after w calls).fleet := by
  refine OutputMachine.outputs_of_refinement (m := machine pf) World.fleet
    (I := fun w => ∃ named, PinsNamed pf named w)
    (P := fun _ c => c.op.installsNoDecorator = true) ?_ ?_ h
    ((machine pf).along_of_forall hplain _)
  · intro w c h hc
    exact PinsNamed.exists_step h hc
  · rintro w c ⟨named, h⟩ hc
    exact h.refines hc

end Runs

/-- **The pointers are as good as none.**  In every run of any program that installs no DIR
decorator by hand, with all the backends on a heap, shared fallback, deleters, moves and owner
pointers: every operation returns what it returns, and makes the driver calls it makes, if each
unit simply holds its backend; and at the end the units have the fields and the backends, and the
ports are in the state, that they have there. -/
theorem units_hold_backends (pf : Platform) (ports : Port → UartPort) (calls : List Call)
    (hplain : ∀ c ∈ calls, c.op.installsNoDecorator = true) :
    (fleetMachine pf).outputs (Fleet.init ports) calls =
        (machine pf).outputs (World.init ports) calls ∧
      (fleetMachine pf).after (Fleet.init ports) calls =
        ((machine pf).after (World.init ports) calls).fleet := by
  have hinit : (World.init ports).fleet = Fleet.init ports := rfl
  rw [← hinit]
  exact PinsNamed.run ⟨[], PinsNamed.init pf ports⟩ hplain

/-- A unit writes, is moved, and writes again from its new place. -/
def sampleMoved : List Call :=
  sampleRun ++ [⟨.moveConstruct 0 1, .calm⟩, ⟨.serial 1 (.writeBuf (.mem [0x03])), .calm⟩]

theorem sample_holds_backends :
    (fleetMachine .esp32).outputs (Fleet.init samplePorts) sampleMoved =
        (machine .esp32).outputs (World.init samplePorts) sampleMoved ∧
      (fleetMachine .esp32).after (Fleet.init samplePorts) sampleMoved =
        ((machine .esp32).after (World.init samplePorts) sampleMoved).fleet :=
  units_hold_backends .esp32 samplePorts sampleMoved (by decide)

end RS485
