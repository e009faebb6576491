import RS485.Lib.UniquePtr
import RS485.Serial.Hs
import RS485.Serial.Idf

/-!
# Units and their backends

The fields of a unit, the two hooks of `UnitSIT3088` that drive the DIR pin, and the dynamic
types a backend can have.

`DirControlledSerial` and `DirControlledIDFSerial` are one decorator over two backends: all
of the base's functions but the two writes, which raise the pin, write through the base, wait
for the transmission to complete, and lower the pin.  The pin is the captured one of the unit
the decorator's owner pointer leads to, so a backend is called with the units at hand.
-/

namespace RS485

/-! ## Units -/

/-- `RS485Component::config_t` -/
structure ConfigT where
  flushRX : Bool := true
  deriving DecidableEq, Repr

/-- `UnitSIT3088::config_t` -/
structure SIT3088ConfigT extends ConfigT where
  dirPin : Pin := -1
  deriving DecidableEq, Repr

inductive UnitKind
  | sp485
  | sit3088
  deriving DecidableEq, Repr

abbrev UnitId := ℕ

/-- A backend object: the shared fallback, or one handed over on the heap. -/
inductive BackendPtr
  | fallback
  | heap (id : ℕ)
  deriving DecidableEq, Repr

/-- `RS485Component::SerialPtr` -/
abbrev SerialPtr := FlaggedPtr BackendPtr

/-- `SerialPtr(null_serial(), SerialDeleter{false})` -/
def SerialPtr.fallback : SerialPtr := ⟨some .fallback, false⟩

/-- The fields of a unit.  The two pins belong to `UnitSIT3088`; a `UnitSP485` adds no field
to `RS485Component`, and its pins are never read. -/
structure RS485Unit where
  kind : UnitKind
  adapter : Option AdapterUART
  cfg : ConfigT
  serial : SerialPtr
  dirPin : Pin
  configuredDirPin : Pin
  deriving DecidableEq, Repr

/-- A default-constructed unit. -/
def RS485Unit.fresh (kind : UnitKind) : RS485Unit where
  kind := kind
  adapter := none
  cfg := {}
  serial := SerialPtr.fallback
  dirPin := -1
  configuredDirPin := -1

namespace UnitSIT3088

variable (pf : Platform) (env : Env)

/-- `configure_dir_pin`: the driver calls it makes.  The answer of `gpio_config` is dropped. -/
def configureDirPin (pin : Pin) : List Event :=
  if pf.framework.espPlatform then [.gpioConfig pin (env.gpioConfig pin)] else []

/-- `set_transmit`: the driver calls it makes. -/
def setTransmit (unit : RS485Unit) (txEnable : Bool) : List Event :=
  if pf.framework.espPlatform then
    if unit.configuredDirPin < 0 then []
    else
      [.gpioSetLevel unit.configuredDirPin txEnable
        (env.gpioSetLevel unit.configuredDirPin txEnable)]
  else []

/-- `write` of either decorator. -/
def dirControlledWrite {α : Type} (unit : RS485Unit) (base : ISerial (α × Io)) (b : Buffer) :
    α × Io → (α × Io) × ℕ
  | (s, io) =>
    if b.isNull ∨ b.size = 0 then
      ((s, io), 0)
    else
      let r := base.writeBuf b (s, io.emit (setTransmit pf env unit true))
      -- block until the transmission is complete before releasing DIR
      let drained := base.flush r.1
      ((drained.1, drained.2.emit (setTransmit pf env unit false)), r.2)

/-- The virtual functions of a decorator over `base`, owned by `unit`. -/
def dirControlled {α : Type} (unit : RS485Unit) (base : ISerial (α × Io)) :
    ISerial (α × Io) :=
  { base with
    writeBuf := dirControlledWrite pf env unit base
    write := fun b => dirControlledWrite pf env unit base (.mem [b]) }

theorem setTransmit_of_esp {unit : RS485Unit} (hesp : pf.framework.espPlatform = true)
    (hpin : 0 ≤ unit.configuredDirPin) (level : Bool) :
    setTransmit pf env unit level =
      [.gpioSetLevel unit.configuredDirPin level
        (env.gpioSetLevel unit.configuredDirPin level)] := by
  simp [setTransmit, hesp, not_lt.mpr hpin]

theorem setTransmit_of_not {unit : RS485Unit}
    (h : pf.framework.espPlatform = false ∨ unit.configuredDirPin < 0) (level : Bool) :
    setTransmit pf env unit level = [] := by
  unfold setTransmit
  rcases h with hesp | hpin
  · simp [hesp]
  · simp [hpin]

section DirControlled

variable {α : Type} {pf env} {unit unit' : RS485Unit} {base : ISerial (α × Io)}

theorem setTransmit_congr (hpin : unit.configuredDirPin = unit'.configuredDirPin) :
    setTransmit pf env unit = setTransmit pf env unit' := by
  funext level
  simp only [setTransmit, hpin]

/-- All a decorator reads of its owner is the captured pin. -/
theorem dirControlled_congr (hpin : unit.configuredDirPin = unit'.configuredDirPin) :
    dirControlled pf env unit base = dirControlled pf env unit' base := by
  have htransmit : setTransmit pf env unit = setTransmit pf env unit' := setTransmit_congr hpin
  have hwrite : dirControlledWrite pf env unit base = dirControlledWrite pf env unit' base := by
    funext b s
    simp only [dirControlledWrite, htransmit]
  simp only [dirControlled, hwrite]

theorem dirControlled_write_byte (d : Byte) (s : α × Io) :
    (dirControlled pf env unit base).write d s =
      (dirControlled pf env unit base).writeBuf (.mem [d]) s := rfl

/-- All but the writes are inherited. -/
theorem dirControlled_quietSteps {R : α × Io → α × Io → Prop} (hbase : base.QuietSteps R) :
    (dirControlled pf env unit base).QuietSteps R :=
  { hbase with }

/-- A call without a payload is one of the base. -/
theorem dirControlled_perform_of_quiet {call : SerialCall} (h : call.payload pf = none)
    (s : α × Io) :
    call.perform pf (dirControlled pf env unit base) s = call.perform pf base s := by
  cases call <;> simp only [SerialCall.payload, reduceCtorEq] at h <;> rfl

/-- What the functions of the base do, those of the decorator do, up to events. -/
theorem dirControlled_steps {R : α × Io → α × Io → Prop} (hrefl : ∀ s, R s s)
    (htrans : ∀ {s t u}, R s t → R t u → R s u) (hbase : base.Steps R)
    (hemit : ∀ s io events, R (s, io) (s, io.emit events)) :
    (dirControlled pf env unit base).Steps R := by
  have hwrite : ∀ b s, R s (dirControlledWrite pf env unit base b s).1 := by
    rintro b ⟨s, io⟩
    simp only [dirControlledWrite]
    split
    · exact hrefl _
    · exact htrans (hemit s io _) (htrans (hbase.writeBuf b _) (htrans (hbase.flush _)
        (hemit _ _ _)))
  exact { dirControlled_quietSteps hbase.toQuietSteps with
    writeBuf := hwrite
    write := fun d => hwrite (.mem [d]) }

end DirControlled

end UnitSIT3088

/-! ## Backends -/

/-- The dynamic type of a backend and its state. -/
inductive Backend
  | nullSerial
  | hs (s : HSSerial)
  | idf (s : IDFSerial)
  /-- `DirControlledSerial` -/
  | dirHS (s : HSSerial) (owner : UnitId)
  /-- `DirControlledIDFSerial` -/
  | dirIDF (s : IDFSerial) (owner : UnitId)
  deriving DecidableEq, Repr

namespace Backend

/-- The port the backend is bound to. -/
def port : Backend → Option Port
  | .nullSerial => none
  | .hs s | .dirHS s _ => some s.hs
  | .idf s | .dirIDF s _ => some s.port

/-- The owner pointer of a DIR decorator. -/
def owner : Backend → Option UnitId
  | .dirHS _ owner | .dirIDF _ owner => some owner
  | _ => none

/-- The `IDFSerial` of a backend, plain or DIR-controlled. -/
def idfSerial : Backend → Option IDFSerial
  | .idf s | .dirIDF s _ => some s
  | _ => none

/-- `ISerial::rebind` -/
def rebind (unit : UnitId) : Backend → Backend
  | .dirHS s _ => .dirHS s unit
  | .dirIDF s _ => .dirIDF s unit
  | b => b

theorem port_of_idfSerial {b : Backend} {s : IDFSerial} (h : b.idfSerial = some s) :
    b.port = some s.port := by
  cases b <;> simp only [idfSerial, Option.some.injEq, reduceCtorEq] at h <;> rw [← h] <;> rfl

@[simp] theorem port_rebind (b : Backend) (u : UnitId) : (b.rebind u).port = b.port := by
  cases b <;> rfl

@[simp] theorem idfSerial_rebind (b : Backend) (u : UnitId) :
    (b.rebind u).idfSerial = b.idfSerial := by
  cases b <;> rfl

/-- A virtual call: `f` is run with the functions of the backend's dynamic type. -/
def dispatch {α : Type} (pf : Platform) (env : Env) (units : UnitId → RS485Unit)
    (f : ∀ {σ : Type}, ISerial σ → σ → σ × α) : Backend → Io → Backend × Io × α
  | .nullSerial, io =>
      let r := f NullSerial.iserial io
      (.nullSerial, r.1, r.2)
  | .hs s, io =>
      let r := f (HSSerial.iserial env) (s, io)
      (.hs r.1.1, r.1.2, r.2)
  | .idf s, io =>
      let r := f (IDFSerial.iserial pf env) (s, io)
      (.idf r.1.1, r.1.2, r.2)
  | .dirHS s owner, io =>
      let r := f (UnitSIT3088.dirControlled pf env (units owner) (HSSerial.iserial env)) (s, io)
      (.dirHS r.1.1 owner, r.1.2, r.2)
  | .dirIDF s owner, io =>
      let r := f (UnitSIT3088.dirControlled pf env (units owner) (IDFSerial.iserial pf env))
        (s, io)
      (.dirIDF r.1.1 owner, r.1.2, r.2)

section Dispatch

variable (pf : Platform) (env : Env) (units : UnitId → RS485Unit)

/-- A call changes neither the port nor the owner of a backend. -/
theorem dispatch_keeps (call : SerialCall) (b : Backend) (io : Io) :
    let b' := (b.dispatch pf env units (fun serial s => call.perform pf serial s) io).1
    b'.port = b.port ∧ b'.owner = b.owner := by
  cases b with
  | nullSerial => exact ⟨rfl, rfl⟩
  | hs s =>
      have hsteps : (call.perform pf (HSSerial.iserial env) (s, io)).1.1 = s :=
        call.perform_steps (R := fun s t : HSSerial × Io => t.1 = s.1) (fun _ => rfl)
          (fun h h' => h'.trans h) (HSSerial.steps_fst env) (HSSerial.write_byte env) (s, io)
      exact ⟨congrArg (fun s : HSSerial => some s.hs) hsteps, rfl⟩
  | idf s =>
      have hsteps : (call.perform pf (IDFSerial.iserial pf env) (s, io)).1.1.port = s.port :=
        call.perform_steps (R := fun s t : IDFSerial × Io => t.1.port = s.1.port)
          (fun _ => rfl) (fun h h' => h'.trans h) (IDFSerial.steps_port pf env)
          (IDFSerial.write_byte pf env) (s, io)
      exact ⟨congrArg some hsteps, rfl⟩
  | dirHS s owner =>
      have hsteps : (call.perform pf
          (UnitSIT3088.dirControlled pf env (units owner) (HSSerial.iserial env)) (s, io)).1.1 =
            s :=
        call.perform_steps (R := fun s t : HSSerial × Io => t.1 = s.1) (fun _ => rfl)
          (fun h h' => h'.trans h)
          (UnitSIT3088.dirControlled_steps (fun _ => rfl) (fun h h' => h'.trans h)
            (HSSerial.steps_fst env) fun _ _ _ => rfl)
          UnitSIT3088.dirControlled_write_byte (s, io)
      exact ⟨congrArg (fun s : HSSerial => some s.hs) hsteps, rfl⟩
  | dirIDF s owner =>
      have hsteps : (call.perform pf
          (UnitSIT3088.dirControlled pf env (units owner) (IDFSerial.iserial pf env))
          (s, io)).1.1.port = s.port :=
        call.perform_steps (R := fun s t : IDFSerial × Io => t.1.port = s.1.port)
          (fun _ => rfl) (fun h h' => h'.trans h)
          (UnitSIT3088.dirControlled_steps (fun _ => rfl) (fun h h' => h'.trans h)
            (IDFSerial.steps_port pf env) fun _ _ _ => rfl)
          UnitSIT3088.dirControlled_write_byte (s, io)
      exact ⟨congrArg some hsteps, rfl⟩

theorem isSome_idfSerial_dispatch {α : Type} (f : ∀ {σ : Type}, ISerial σ → σ → σ × α)
    (b : Backend) (io : Io) :
    (b.dispatch pf env units f io).1.idfSerial.isSome = b.idfSerial.isSome := by
  cases b <;> rfl

/-- A backend over an `IDFSerial` runs its calls on that, or on a decorator over it. -/
theorem dispatch_of_idf {b : Backend} {s : IDFSerial} (hs : b.idfSerial = some s) :
    ∃ serial : ISerial (IDFSerial × Io),
      (serial = IDFSerial.iserial pf env ∨
        ∃ unit, serial = UnitSIT3088.dirControlled pf env unit (IDFSerial.iserial pf env)) ∧
      ∀ (call : SerialCall) (io : Io),
        let r := call.perform pf serial (s, io)
        (b.dispatch pf env units (fun serial s => call.perform pf serial s) io).1.idfSerial =
            some r.1.1 ∧
          (b.dispatch pf env units (fun serial s => call.perform pf serial s) io).2 =
            (r.1.2, r.2) := by
  cases b with
  | nullSerial => cases hs
  | hs _ => cases hs
  | dirHS _ _ => cases hs
  | idf s' =>
      obtain rfl : s' = s := Option.some.inj hs
      exact ⟨_, Or.inl rfl, fun _ _ => ⟨rfl, rfl⟩⟩
  | dirIDF s' owner =>
      obtain rfl : s' = s := Option.some.inj hs
      exact ⟨_, Or.inr ⟨units owner, rfl⟩, fun _ _ => ⟨rfl, rfl⟩⟩

/-- A call without a payload is one of the `IDFSerial`, whether that is DIR-controlled or
not. -/
theorem dispatch_of_quiet {b : Backend} {s : IDFSerial} (hs : b.idfSerial = some s)
    {call : SerialCall} (hcall : call.payload pf = none) (io : Io) :
    let r := call.perform pf (IDFSerial.iserial pf env) (s, io)
    (b.dispatch pf env units (fun serial s => call.perform pf serial s) io).1.idfSerial =
        some r.1.1 ∧
      (b.dispatch pf env units (fun serial s => call.perform pf serial s) io).2 =
        (r.1.2, r.2) := by
  intro r
  obtain ⟨serial, hserial, hdispatch⟩ := dispatch_of_idf pf env units hs
  have hr : r = call.perform pf serial (s, io) := by
    rcases hserial with rfl | ⟨unit, rfl⟩
    · rfl
    · exact (UnitSIT3088.dirControlled_perform_of_quiet hcall (s, io)).symm
  rw [hr]
  exact hdispatch call io

variable {units}

/-- All a call reads of the units is the captured pin of the owner. -/
theorem dispatch_congr {α : Type} {units' : UnitId → RS485Unit}
    (f : ∀ {σ : Type}, ISerial σ → σ → σ × α) {b : Backend}
    (hpin : ∀ owner, b.owner = some owner →
      (units' owner).configuredDirPin = (units owner).configuredDirPin) (io : Io) :
    b.dispatch pf env units' f io = b.dispatch pf env units f io := by
  cases b with
  | nullSerial => rfl
  | hs s => rfl
  | idf s => rfl
  | dirHS s owner => simp only [dispatch, UnitSIT3088.dirControlled_congr (hpin owner rfl)]
  | dirIDF s owner => simp only [dispatch, UnitSIT3088.dirControlled_congr (hpin owner rfl)]

/-- A backend that is bound to another unit with the same captured pin answers the same. -/
theorem dispatch_rebind {α : Type} {units' : UnitId → RS485Unit} {unit : UnitId}
    (f : ∀ {σ : Type}, ISerial σ → σ → σ × α) {b : Backend}
    (hpin : ∀ owner, b.owner = some owner →
      (units' unit).configuredDirPin = (units owner).configuredDirPin) (io : Io) :
    (b.rebind unit).dispatch pf env units' f io =
      ((b.dispatch pf env units f io).1.rebind unit, (b.dispatch pf env units f io).2) := by
  cases b with
  | nullSerial => rfl
  | hs s => rfl
  | idf s => rfl
  | dirHS s owner =>
      simp only [rebind, dispatch, UnitSIT3088.dirControlled_congr (hpin owner rfl)]
  | dirIDF s owner =>
      simp only [rebind, dispatch, UnitSIT3088.dirControlled_congr (hpin owner rfl)]

end Dispatch

end Backend

end RS485
