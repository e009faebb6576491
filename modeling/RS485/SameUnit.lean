import RS485.Binding

/-!
# The same unit in two worlds

`SameUnit` relates a unit that stays where it is to one that is moved about: the holder has
the fields of the unit but for its pointer, its backend is the unit's, bound to the holder
instead, and the ports of the unit are in the same state.  An operation of the unit keeps the
relation and has the same outcome on both sides (`SameUnit.step_op`).
-/

namespace RS485

open Function

/-! ## Two ends of the comparison -/

/-- The fields of a unit but for its pointer. -/
def RS485Unit.bare (unit : RS485Unit) : RS485Unit := { unit with serial := SerialPtr.fallback }

/-- The adapter drives ports in `Q` only. -/
def AdapterUART.Within (Q : Set Port) (ad : AdapterUART) : Prop :=
  ad.uartPort ∈ Q ∧ ∀ p, ad.getSerial = some p → p ∈ Q

theorem AdapterUART.Within.line {Q : Set Port} {ad : AdapterUART} (h : ad.Within Q)
    (framework : Framework) : ad.line framework ∈ Q := by
  unfold AdapterUART.line
  split
  · cases hget : ad.getSerial with
    | none => exact h.1
    | some p => exact h.2 p hget
  · exact h.1

/-- The unit `a` of `s` and its holder in `t`, with `Q` the ports the unit may use. -/
structure SameUnit (Q : Set Port) (a : UnitId) (s : World) (t : World × UnitId) : Prop where
  live : s.live a = true
  holderLive : t.1.live t.2 = true
  fields : (t.1.units t.2).bare = (s.units a).bare
  backend : t.1.backend t.2 = (s.backend a).rebind t.2
  ports : ∀ p ∈ Q, t.1.ports p = s.ports p
  adapter : ∀ ad, (s.units a).adapter = some ad → ad.Within Q
  port : ∀ p, (s.backend a).port = some p → p ∈ Q
  owner : ∀ u, (s.backend a).owner = some u → u = a
  apart : ∀ u, t.1.live u = true → u ≠ t.2 → ∀ p, (t.1.backend u).port = some p → p ∉ Q

namespace Backend

theorem rebind_rebind (b : Backend) (u v : UnitId) : (b.rebind u).rebind v = b.rebind v := by
  cases b <;> rfl

end Backend

namespace SameUnit

variable {Q : Set Port} {a : UnitId} {s : World} {t : World × UnitId} {pf : Platform} {env : Env}

theorem kind (h : SameUnit Q a s t) : (t.1.units t.2).kind = (s.units a).kind :=
  (congrArg RS485Unit.kind h.fields :)

theorem adapter_eq (h : SameUnit Q a s t) : (t.1.units t.2).adapter = (s.units a).adapter :=
  (congrArg RS485Unit.adapter h.fields :)

theorem cfg (h : SameUnit Q a s t) : (t.1.units t.2).cfg = (s.units a).cfg :=
  (congrArg RS485Unit.cfg h.fields :)

theorem dirPin (h : SameUnit Q a s t) : (t.1.units t.2).dirPin = (s.units a).dirPin :=
  (congrArg RS485Unit.dirPin h.fields :)

theorem configuredDirPin (h : SameUnit Q a s t) :
    (t.1.units t.2).configuredDirPin = (s.units a).configuredDirPin :=
  (congrArg RS485Unit.configuredDirPin h.fields :)

/-- A change of fields on both sides. -/
theorem setUnit (h : SameUnit Q a s t) {unit unit' : RS485Unit} (hfields : unit'.bare = unit.bare)
    (hserial : unit.serial = (s.units a).serial)
    (hserial' : unit'.serial = (t.1.units t.2).serial)
    (hadapter : ∀ ad, unit.adapter = some ad → ad.Within Q) :
    SameUnit Q a (s.setUnit a unit) (t.1.setUnit t.2 unit', t.2) where
  live := h.live
  holderLive := h.holderLive
  fields := by simpa using hfields
  backend := by
    rw [World.backend_setUnit hserial, World.backend_setUnit hserial']
    exact h.backend
  ports := h.ports
  adapter ad had := hadapter ad (by simpa using had)
  port p hp := h.port p (by rwa [World.backend_setUnit hserial] at hp)
  owner u hu := h.owner u (by rwa [World.backend_setUnit hserial] at hu)
  apart u hu hne p hp := h.apart u hu hne p (by rwa [World.backend_setUnit hserial'] at hp)

/-- The same new state of a port on both sides. -/
theorem storePort (h : SameUnit Q a s t) (port : Port) (uart : UartPort) :
    SameUnit Q a (s.storePort (some port) uart) (t.1.storePort (some port) uart, t.2) where
  live := h.live
  holderLive := h.holderLive
  fields := h.fields
  backend := by simpa using h.backend
  ports p hp := by
    by_cases hpp : p = port
    · subst hpp
      simp
    · simpa [hpp] using h.ports p hp
  adapter := h.adapter
  port p hp := h.port p (by simpa using hp)
  owner u hu := h.owner u (by simpa using hu)
  apart u hu hne p hp := h.apart u hu hne p (by simpa using hp)

/-! ## Operations of the unit -/

theorem io_eq (h : SameUnit Q a s t) (port : Option Port) (hport : ∀ p, port = some p → p ∈ Q) :
    t.1.io port = s.io port := by
  cases port with
  | none => rfl
  | some p => simp only [World.io, h.ports p (hport p rfl)]

theorem adapterReady_eq (h : SameUnit Q a s t) (pf : Platform) :
    World.adapterReady pf t.1 t.2 = World.adapterReady pf s a := by
  unfold World.adapterReady
  rw [h.adapter_eq]
  cases had : (s.units a).adapter with
  | none => rfl
  | some ad => simp only [h.ports _ (h.adapter ad had).1]

theorem drained_eq (h : SameUnit Q a s t) {port : Port} (hport : port ∈ Q) (flushRX : Bool) :
    World.drained env t.1 flushRX port = World.drained env s flushRX port := by
  unfold World.drained
  rw [h.io_eq (some port) fun p hp => Option.some.inj hp ▸ hport]

theorem pinSetup_eq (h : SameUnit Q a s t) :
    World.pinSetup pf env t.1 t.2 = World.pinSetup pf env s a := by
  have htransmit : UnitSIT3088.setTransmit pf env (t.1.captured t.2) =
      UnitSIT3088.setTransmit pf env (s.captured a) := UnitSIT3088.setTransmit_congr h.dirPin
  simp only [World.pinSetup, htransmit, h.dirPin]

theorem captured_bare (h : SameUnit Q a s t) :
    (t.1.captured t.2).bare = (s.captured a).bare :=
  congrArg (fun unit : RS485Unit => { unit with configuredDirPin := unit.dirPin }) h.fields

/-- A successful `begin` on both sides. -/
theorem begun (h : SameUnit Q a s t) (howned : t.1.Owned) {unit unit' : RS485Unit} {line : Port}
    (hfields : unit'.bare = unit.bare) (hadapter : unit.adapter = (s.units a).adapter)
    (hline : line ∈ Q) :
    SameUnit Q a (World.begun pf env s a unit line)
      (World.begun pf env t.1 t.2 unit' line, t.2) where
  live := by simpa using h.live
  holderLive := by simpa using h.holderLive
  fields := by
    simp only [World.begun_units, update_self]
    exact hfields
  backend := by
    have hkind : unit'.kind = unit.kind := (congrArg RS485Unit.kind hfields :)
    simp only [World.backend_begun_self, World.newBackend_rebind, hkind]
  ports p hp := by
    have hcfg : unit'.cfg = unit.cfg := (congrArg RS485Unit.cfg hfields :)
    by_cases hpp : p = line
    · subst hpp
      simp [h.drained_eq hp, hcfg]
    · simpa [hpp] using h.ports p hp
  adapter ad had := h.adapter ad (by simpa [hadapter] using had)
  port p hp := by
    rw [World.backend_begun_self, World.newBackend_port] at hp
    exact Option.some.inj hp ▸ hline
  owner u hu := by
    rw [World.backend_begun_self, World.newBackend_owner] at hu
    cases hkind : unit.kind with
    | sp485 => simp [hkind] at hu
    | sit3088 => simpa [hkind, eq_comm] using hu
  apart u hu hne p hp := by
    have hu' : t.1.live u = true := by simpa using hu
    rw [howned.backend_begun_other hu' hne] at hp
    exact h.apart u hu' hne p hp

/-- `begin` has the same outcome on both sides. -/
theorem begin (h : SameUnit Q a s t) (howned : t.1.Owned) (pf : Platform) (env : Env) :
    (World.begin pf env t.1 t.2).2 = (World.begin pf env s a).2 ∧
      SameUnit Q a (World.begin pf env s a).1 ((World.begin pf env t.1 t.2).1, t.2) := by
  have hready := h.adapterReady_eq pf
  cases hkind : (s.units a).kind with
  | sp485 =>
      rw [World.begin_sp485 env hkind, World.begin_sp485 env (h.kind.trans hkind)]
      cases hs : World.adapterReady pf s a with
      | false =>
          rw [World.baseBegin_of_not_ready env hs,
            World.baseBegin_of_not_ready env (hready.trans hs)]
          exact ⟨rfl, h⟩
      | true =>
          -- both sides have the same adapter, so they drain the same port
          obtain ⟨ad, had, hbegin⟩ := World.baseBegin_of_ready env hs
          obtain ⟨ad', had', hbegin'⟩ := World.baseBegin_of_ready env (hready.trans hs)
          obtain rfl : ad' = ad := Option.some.inj (had'.symm.trans (h.adapter_eq.trans had))
          have hline := (h.adapter _ had).line pf.framework
          rw [hbegin, hbegin', h.cfg, h.drained_eq hline]
          exact ⟨rfl, h.begun howned h.fields rfl hline⟩
  | sit3088 =>
      have hkind' := h.kind.trans hkind
      cases hpin : World.pinRejected pf (s.units a).dirPin with
      | true =>
          rw [World.begin_rejected env hkind hpin,
            World.begin_rejected env hkind' (h.dirPin ▸ hpin)]
          exact ⟨rfl, h⟩
      | false =>
          have hpin' : World.pinRejected pf (t.1.units t.2).dirPin = false := h.dirPin ▸ hpin
          cases hs : World.adapterReady pf s a with
          | false =>
              rw [World.begin_failed env hkind hpin hs,
                World.begin_failed env hkind' hpin' (hready.trans hs), h.pinSetup_eq]
              refine ⟨rfl, h.setUnit ?_ rfl rfl h.adapter⟩
              exact congrArg (fun unit : RS485Unit => { unit with configuredDirPin := -1 })
                h.fields
          | true =>
              obtain ⟨ad, had, hbegin⟩ := World.begin_succeeded env hkind hpin hs
              obtain ⟨ad', had', hbegin'⟩ :=
                World.begin_succeeded env hkind' hpin' (hready.trans hs)
              obtain rfl : ad' = ad := Option.some.inj (had'.symm.trans (h.adapter_eq.trans had))
              have hline := (h.adapter _ had).line pf.framework
              rw [hbegin, hbegin', h.cfg, h.drained_eq hline, h.pinSetup_eq]
              exact ⟨rfl, h.begun howned h.captured_bare rfl hline⟩

/-- A call has the same outcome on both sides. -/
theorem serialCall (h : SameUnit Q a s t) (howned : s.Owned) (howned' : t.1.Owned)
    (call : SerialCall) :
    (t.1.serialCall pf env t.2 call).2 = (s.serialCall pf env a call).2 ∧
      SameUnit Q a (s.serialCall pf env a call).1 ((t.1.serialCall pf env t.2 call).1, t.2) := by
  have hport : (t.1.backend t.2).port = (s.backend a).port := by
    rw [h.backend, Backend.port_rebind]
  have hio : t.1.io (t.1.backend t.2).port = s.io (s.backend a).port := by
    rw [hport]
    exact h.io_eq _ h.port
  have hdispatch : (t.1.backend t.2).dispatch pf env t.1.units
      (fun serial s => call.perform pf serial s) (t.1.io (t.1.backend t.2).port) =
        (((s.backend a).dispatch pf env s.units (fun serial s => call.perform pf serial s)
          (s.io (s.backend a).port)).1.rebind t.2,
        ((s.backend a).dispatch pf env s.units (fun serial s => call.perform pf serial s)
          (s.io (s.backend a).port)).2) := by
    rw [hio, h.backend]
    exact Backend.dispatch_rebind pf env _
      (fun u hu => h.owner u hu ▸ h.configuredDirPin) _
  have hkeeps := (s.backend a).dispatch_keeps pf env s.units call (s.io (s.backend a).port)
  refine ⟨by simp only [World.serialCall, hdispatch], ?_⟩
  exact
    { live := by simpa [World.serialCall] using h.live
      holderLive := by simpa [World.serialCall] using h.holderLive
      fields := by simpa [World.serialCall] using h.fields
      backend := by
        rw [howned.backend_serialCall_self h.live, howned'.backend_serialCall_self h.holderLive,
          hdispatch]
      -- the call leaves the port of the backend in the same state on both sides
      ports := fun p hp => by
        simp only [World.serialCall]
        rw [hdispatch, hport]
        cases hbackend : (s.backend a).port with
        | none => simpa [World.storePort] using h.ports p hp
        | some q =>
            by_cases hpq : p = q
            · subst hpq
              simp
            · simpa [hpq] using h.ports p hp
      adapter := fun ad had => h.adapter ad (by simpa [World.serialCall] using had)
      port := fun p hp => by
        rw [howned.backend_serialCall_self h.live, hkeeps.1] at hp
        exact h.port p hp
      owner := fun u hu => by
        rw [howned.backend_serialCall_self h.live, hkeeps.2] at hu
        exact h.owner u hu
      apart := fun u hu hne p hp => by
        have hu' : t.1.live u = true := by simpa [World.serialCall] using hu
        rw [howned'.backend_serialCall_other h.holderLive hu' hne] at hp
        exact h.apart u hu' hne p hp }

end SameUnit

/-- An operation of one unit, or something that happens on one of its ports. -/
inductive UnitOp
  | setAdapter (adapter : Option AdapterUART)
  | config (cfg : SIT3088ConfigT)
  | configBase (cfg : ConfigT)
  | begin
  | serial (call : SerialCall)
  | uartDriver (port : Port) (installed : Bool) (txRingSize : ℕ)
  | arrive (port : Port) (bytes : List Byte)
  | transmit (port : Port) (n : ℕ)

/-- The operation, addressed to the unit `u`. -/
def UnitOp.at (u : UnitId) : UnitOp → Op
  | .setAdapter ad => .setAdapter u ad
  | .config cfg => .config u cfg
  | .configBase cfg => .configBase u cfg
  | .begin => .begin u
  | .serial call => .serial u call
  | .uartDriver port installed txRingSize => .uartDriver port installed txRingSize
  | .arrive port bytes => .arrive port bytes
  | .transmit port n => .transmit port n

/-- The operation is about ports in `Q` only. -/
def UnitOp.Within (Q : Set Port) : UnitOp → Prop
  | .setAdapter adapter => ∀ ad, adapter = some ad → ad.Within Q
  | .uartDriver port _ _ | .arrive port _ | .transmit port _ => port ∈ Q
  | _ => True

namespace SameUnit

variable {Q : Set Port} {a : UnitId} {s : World} {t : World × UnitId} {pf : Platform}

/-- **An operation of the unit** has the same outcome on both sides and leaves both with the
same unit. -/
theorem step_op (h : SameUnit Q a s t) (howned : s.Owned) (howned' : t.1.Owned) {op : UnitOp}
    (hop : op.Within Q) (env : Env) :
    (t.1.step pf ⟨op.at t.2, env⟩).2 = (s.step pf ⟨op.at a, env⟩).2 ∧
      SameUnit Q a (s.step pf ⟨op.at a, env⟩).1 ((t.1.step pf ⟨op.at t.2, env⟩).1, t.2) := by
  have henabled : t.1.enabled (op.at t.2) = s.enabled (op.at a) := by
    cases op <;> simp [UnitOp.at, World.enabled, h.live, h.holderLive, h.kind]
  unfold World.step
  rw [henabled]
  cases s.enabled (op.at a) with
  | false => exact ⟨rfl, h⟩
  | true =>
      simp only [if_true]
      cases op with
      | setAdapter ad =>
          exact ⟨rfl, h.setUnit (congrArg (fun unit => { unit with adapter := ad }) h.fields :)
            rfl rfl hop⟩
      | config cfg =>
          exact ⟨rfl, h.setUnit (congrArg (fun unit : RS485Unit =>
            { unit with cfg := cfg.toConfigT, dirPin := cfg.dirPin }) h.fields :) rfl rfl
              h.adapter⟩
      | configBase cfg =>
          exact ⟨rfl, h.setUnit (congrArg (fun unit => { unit with cfg := cfg }) h.fields :)
            rfl rfl h.adapter⟩
      | begin =>
          obtain ⟨hout, hsame⟩ := h.begin howned' pf env
          exact ⟨by simp only [UnitOp.at, World.exec, hout], hsame⟩
      | serial call => exact h.serialCall howned howned' call
      | uartDriver port installed txRingSize =>
          simp only [UnitOp.at, World.exec, h.ports port hop]
          exact ⟨trivial, h.storePort port _⟩
      | arrive port bytes =>
          simp only [UnitOp.at, World.exec, h.ports port hop]
          exact ⟨trivial, h.storePort port _⟩
      | transmit port n =>
          have hio := h.io_eq (some port) fun p hp => Option.some.inj hp ▸ hop
          simp only [UnitOp.at, World.exec, hio]
          exact ⟨trivial, h.storePort port _⟩

end SameUnit

end RS485
