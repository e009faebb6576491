import RS485.Binding
import RS485.Bus
import RS485.Emission

/-!
# Which pins are touched

The library touches a GPIO for one reason: a `UnitSIT3088` sets up its DIR pin when it begins,
and switches the direction around each write.  The pin it drives later is the one `begin` has
captured, and a decorator drives the pin of its owner, so a pin is driven only if the program
has named it, in a configuration of a `UnitSIT3088`, and the range guard has let it through.

`PinsNamed` is the invariant of the run, where `named` are the pins that have been named so
far.  It says where each pin field comes from, and that every decorator is owned by the unit
that calls it; an operation that is not about such a unit, or names no pin, keeps it.
-/

namespace RS485

open Function

/-! ## Naming a pin -/

/-- Operations that install no DIR decorator by hand.  The decorators are private to
`UnitSIT3088`, and only its `make_serial` builds them. -/
def Op.installsNoDecorator : Op → Bool
  | .installSerial _ (some b) => b.owner.isNone
  | _ => true

namespace World

/-- The DIR pin that a call names, which is one of `UnitSIT3088::config(cfg)`. -/
def namedPin (w : World) (c : Call) : Option Pin :=
  match c.op with
  | .config u cfg => if w.enabled (.config u cfg) then some cfg.dirPin else none
  | _ => none

/-- A call that may drive the pin: a `begin` of a `UnitSIT3088` that is configured with it, or
a write to one that has captured it. -/
def UsesPin (pf : Platform) (w : World) (c : Call) (pin : Pin) : Prop :=
  ∃ u, w.live u = true ∧ (w.units u).kind = .sit3088 ∧
    (c.op = .begin u ∧ pin = (w.units u).dirPin ∨
      ∃ call : SerialCall, c.op = .serial u call ∧ call.writes pf ∧
        (w.backend u).owner = some u ∧ pin = (w.units u).configuredDirPin)

/-! ## Where a pin field comes from -/

variable (pf : Platform) (w : World) (c : Call)

/-- Where the fields of the unit `v` after a step come from, as far as pins go. -/
inductive PinsFrom (v : UnitId) (unit : RS485Unit) : Prop
  /-- from a unit that was there before -/
  | kept (u : UnitId) (hlive : w.live u = true) (hdirPin : unit.dirPin = (w.units u).dirPin)
      (hcaptured : unit.configuredDirPin = (w.units u).configuredDirPin)
  | constructed (hdirPin : unit.dirPin = -1) (hcaptured : unit.configuredDirPin = -1)
  | named (hlive : w.live v = true) (hnamed : w.namedPin c = some unit.dirPin)
      (hcaptured : unit.configuredDirPin = (w.units v).configuredDirPin)
  | captured (hlive : w.live v = true) (hpin : pinRejected pf (w.units v).dirPin = false)
      (hdirPin : unit.dirPin = (w.units v).dirPin)
      (hcaptured : unit.configuredDirPin = (w.units v).dirPin)
  | rolledBack (hlive : w.live v = true) (hdirPin : unit.dirPin = (w.units v).dirPin)
      (hcaptured : unit.configuredDirPin = -1)

variable {pf w c} {u v : UnitId}

/-- The new settings of a unit. -/
theorem pinsFrom_settings {unit : RS485Unit} (henabled : w.enabled c.op = true)
    (hop : (∃ ad, c.op = .setAdapter u ad) ∨ (∃ cfg, c.op = .config u cfg) ∨
      ∃ cfg, c.op = .configBase u cfg)
    (hstep : w.step pf c = (w.setUnit u unit, ⟨.done, []⟩)) : PinsFrom pf w c u unit := by
  obtain ⟨op, env⟩ := c
  have hexec : (w.exec pf env op).1.units u = unit := by
    have hunit : (w.step pf ⟨op, env⟩).1.units u = unit := by simp [hstep]
    rwa [World.step, if_pos henabled] at hunit
  rcases hop with ⟨ad, rfl⟩ | ⟨cfg, rfl⟩ | ⟨cfg, rfl⟩
  · subst hexec
    exact .kept u henabled (by simp [exec]) (by simp [exec])
  · have hlive : w.live u = true := by
      simp only [enabled, Bool.and_eq_true] at henabled
      exact henabled.1
    subst hexec
    exact .named hlive (by simp [namedPin, henabled, exec]) (by simp [exec])
  · subst hexec
    exact .kept u henabled (by simp [exec]) (by simp [exec])

theorem pinsFrom_step (henabled : w.enabled c.op = true) (hv : (w.step pf c).1.live v = true) :
    PinsFrom pf w c v ((w.step pf c).1.units v) := by
  have heffect := step_effect pf w c
  generalize hstep : w.step pf c = r at heffect hv ⊢
  cases heffect with
  | rejected hop =>
      rw [henabled] at hop
      cases hop
  | construct u kind =>
      by_cases hvu : v = u
      · subst hvu
        exact .constructed (by simp [RS485Unit.fresh]) (by simp [RS485Unit.fresh])
      · exact .kept v (by simpa [hvu] using hv) (by simp [hvu]) (by simp [hvu])
  | destroy u =>
      have hvu : v ≠ u := by
        rintro rfl
        simp at hv
      exact .kept v (by simpa [hvu] using hv) rfl rfl
  | move src dst hop hsrc hne =>
      by_cases hvd : v = dst
      · subst hvd
        exact .kept src hsrc (by simp [carriedOver]) (by simp [carriedOver])
      · by_cases hvs : v = src
        · subst hvs
          exact .kept v hsrc (by simp [hvd, leftBehind]) (by simp [hvd, leftBehind])
        · exact .kept v (by simpa [hvd] using hv) (by simp [hvd, hvs]) (by simp [hvd, hvs])
  | moveSelf => exact .kept v hv rfl rfl
  | install u serial =>
      have hfields : ((w.installSerial u serial).units v).dirPin = (w.units v).dirPin ∧
          ((w.installSerial u serial).units v).configuredDirPin =
            (w.units v).configuredDirPin := by
        cases serial with
        | none => exact ⟨rfl, rfl⟩
        | some b =>
            by_cases hvu : v = u
            · subst hvu
              simp [installSerial]
            · simp [installSerial, hvu]
      exact .kept v (by simpa using hv) hfields.1 hfields.2
  | settings u unit hop =>
      by_cases hvu : v = u
      · subst hvu
        simpa using pinsFrom_settings henabled hop hstep
      · exact .kept v hv (by simp [hvu]) (by simp [hvu])
  | begin u hop hlive r hbegin =>
      by_cases hvu : v = u
      · subst hvu
        cases hbegin with
        | unready => exact .kept v hlive rfl rfl
        | rejected => exact .kept v hlive rfl rfl
        | failed => exact .rolledBack hlive (by simp [rolledBack]) (by simp [rolledBack])
        | plain => exact .kept v hlive (by simp) (by simp)
        | controlled ad hkind hpin => exact .captured hlive hpin (by simp) (by simp)
      · cases hbegin with
        | unready => exact .kept v hv rfl rfl
        | rejected => exact .kept v hv rfl rfl
        | failed => exact .kept v hv (by simp [hvu]) (by simp [hvu])
        | plain => exact .kept v (by simpa using hv) (by simp [hvu]) (by simp [hvu])
        | controlled => exact .kept v (by simpa using hv) (by simp [hvu]) (by simp [hvu])
  | call u call =>
      exact .kept v (by simpa [serialCall] using hv) (by simp [serialCall]) (by simp [serialCall])
  | uartDriver => exact .kept v hv (by simp [exec]) (by simp [exec])
  | arrive => exact .kept v hv (by simp [exec]) (by simp [exec])
  | transmit => exact .kept v hv (by simp [exec]) (by simp [exec])

/-- A unit stays of its class. -/
theorem kind_step (pf : Platform) (c : Call) (hv : w.live v = true) :
    ((w.step pf c).1.units v).kind = (w.units v).kind := by
  have heffect := step_effect pf w c
  generalize w.step pf c = r at heffect ⊢
  cases heffect with
  | rejected => rfl
  | construct u kind hop hlive =>
      have hvu : v ≠ u := by
        rintro rfl
        rw [hlive] at hv
        cases hv
      simp [hvu]
  | destroy => rfl
  | move src dst hop hsrc hne =>
      by_cases hvd : v = dst
      · subst hvd
        -- a unit is moved only into one of its class
        rcases hop with ⟨-, hdead⟩ | ⟨-, -, hkind⟩
        · rw [hv] at hdead
          cases hdead
        · simpa [carriedOver] using hkind
      · by_cases hvs : v = src
        · subst hvs
          simp [hvd, leftBehind]
        · simp [hvd, hvs]
  | moveSelf => rfl
  | install u serial =>
      cases serial with
      | none => rfl
      | some b =>
          by_cases hvu : v = u
          · subst hvu
            simp [installSerial]
          · simp [installSerial, hvu]
  | settings u unit hop hkind =>
      by_cases hvu : v = u
      · subst hvu
        simpa using hkind
      · simp [hvu]
  | begin u hop hlive r hbegin =>
      by_cases hvu : v = u
      · subst hvu
        cases hbegin <;> simp [rolledBack]
      · cases hbegin <;> simp [hvu]
  | call u call => simp [serialCall]
  | uartDriver => simp [exec]
  | arrive => simp [exec]
  | transmit => simp [exec]

/-- A unit that is moved into has the class of the one it is moved from. -/
theorem kind_moved {src : UnitId} (henabled : w.enabled c.op = true)
    (hop : c.op = .moveConstruct src v ∧ w.live v = false ∨ c.op = .moveAssign src v) :
    ((w.step pf c).1.units v).kind = (w.units src).kind := by
  obtain ⟨op, env⟩ := c
  rcases hop with ⟨hop, hdst⟩ | hop
  · obtain rfl : op = .moveConstruct src v := hop
    rw [World.step, if_pos henabled]
    simp [exec, moveConstruct_eq_moved hdst, carriedOver]
  · obtain rfl : op = .moveAssign src v := hop
    have hlive := henabled
    simp only [enabled, Bool.and_eq_true, decide_eq_true_eq] at hlive
    rw [kind_step pf _ hlive.1.2, hlive.2]

end World

/-! ## The invariant -/

/-- The pins of the units, `named` being those named so far. -/
structure PinsNamed (pf : Platform) (named : List Pin) (w : World) : Prop where
  owned : w.Owned
  dirPin : ∀ u, w.live u = true → (w.units u).dirPin = -1 ∨ (w.units u).dirPin ∈ named
  captured : ∀ u, w.live u = true → (w.units u).configuredDirPin = -1 ∨
    (w.units u).configuredDirPin ∈ named ∧
      World.pinRejected pf (w.units u).configuredDirPin = false
  /-- a decorator is one of a `UnitSIT3088`, and drives the pin of the unit that calls it -/
  owner : ∀ u v, w.live u = true → (w.backend u).owner = some v →
    v = u ∧ (w.units u).kind = .sit3088

namespace PinsNamed

variable {pf : Platform} {named : List Pin} {w : World} {c : Call}

theorem init (pf : Platform) (ports : Port → UartPort) : PinsNamed pf [] (World.init ports) where
  owned := World.owned_init ports
  dirPin u hu := by cases hu
  captured u hu := by cases hu
  owner u v hu := by cases hu

/-- More pins may have been named. -/
theorem append (h : PinsNamed pf named w) (pins : List Pin) :
    PinsNamed pf (named ++ pins) w where
  owned := h.owned
  dirPin u hu := (h.dirPin u hu).imp_right fun hpin => List.mem_append_left _ hpin
  captured u hu :=
    (h.captured u hu).imp_right fun hpin => ⟨List.mem_append_left _ hpin.1, hpin.2⟩
  owner := h.owner

/-- A pin that passes the range guard is not the one that stands for none. -/
theorem ne_of_not_rejected {pin : Pin} (h : World.pinRejected pf pin = false) : pin ≠ -1 := by
  rintro rfl
  unfold World.pinRejected at h
  split at h <;> simp at h

theorem owner_step (h : PinsNamed pf named w) (henabled : w.enabled c.op = true)
    (hplain : c.op.installsNoDecorator = true) {u v : UnitId}
    (hu : (w.step pf c).1.live u = true) (hv : ((w.step pf c).1.backend u).owner = some v) :
    v = u ∧ ((w.step pf c).1.units u).kind = .sit3088 := by
  have hfrom := h.owned.backendFrom pf hu
  generalize (w.step pf c).1.backend u = b at hfrom hv
  cases hfrom with
  | kept hlive =>
      obtain ⟨hvu, hkind⟩ := h.owner u v hlive hv
      exact ⟨hvu, by rw [World.kind_step pf c hlive, hkind]⟩
  | constructed => cases hv
  | movedOut => cases hv
  | movedIn src hop hsrc =>
      have hmoved : ((w.step pf c).1.units u).kind = (w.units src).kind :=
        World.kind_moved henabled hop
      rw [hmoved]
      cases hb : w.backend src with
      | nullSerial => simp [hb, Backend.rebind, Backend.owner] at hv
      | hs s => simp [hb, Backend.rebind, Backend.owner] at hv
      | idf s => simp [hb, Backend.rebind, Backend.owner] at hv
      | dirHS s owner =>
          obtain ⟨-, hkind⟩ := h.owner src owner hsrc (by rw [hb]; rfl)
          rw [hb] at hv
          exact ⟨(Option.some.inj hv).symm, hkind⟩
      | dirIDF s owner =>
          obtain ⟨-, hkind⟩ := h.owner src owner hsrc (by rw [hb]; rfl)
          rw [hb] at hv
          exact ⟨(Option.some.inj hv).symm, hkind⟩
  | installed b hop => simp [Op.installsNoDecorator, hop, hv] at hplain
  | begun ad hop hlive =>
      rw [World.newBackend_owner] at hv
      rw [World.kind_step pf c hlive]
      cases hkind : (w.units u).kind with
      | sp485 => simp [hkind] at hv
      | sit3088 => exact ⟨by simpa [hkind, eq_comm] using hv, rfl⟩
  | called call hop hlive =>
      rw [((w.backend u).dispatch_keeps pf c.env w.units call _).2] at hv
      obtain ⟨hvu, hkind⟩ := h.owner u v hlive hv
      exact ⟨hvu, by rw [World.kind_step pf c hlive, hkind]⟩

/-- **A step** keeps the invariant, with the pin it names. -/
theorem step (h : PinsNamed pf named w) (hplain : c.op.installsNoDecorator = true) :
    PinsNamed pf (named ++ (w.namedPin c).toList) (w.step pf c).1 := by
  have hmono : ∀ {pin : Pin}, pin ∈ named → pin ∈ named ++ (w.namedPin c).toList :=
    fun hpin => List.mem_append_left _ hpin
  cases henabled : w.enabled c.op with
  | false =>
      rw [World.step_of_not_enabled pf henabled]
      exact h.append _
  | true =>
      refine ⟨h.owned.step pf c, ?_, ?_, fun u v hu hv => h.owner_step henabled hplain hu hv⟩
      · intro v hv
        cases World.pinsFrom_step henabled hv with
        | kept u hlive hdirPin =>
            rw [hdirPin]
            exact (h.dirPin u hlive).imp_right hmono
        | constructed hdirPin => exact Or.inl hdirPin
        | named hlive hnamed => exact Or.inr (by simp [hnamed])
        | captured hlive hpin hdirPin =>
            rw [hdirPin]
            exact (h.dirPin v hlive).imp_right hmono
        | rolledBack hlive hdirPin =>
            rw [hdirPin]
            exact (h.dirPin v hlive).imp_right hmono
      · intro v hv
        cases World.pinsFrom_step henabled hv with
        | kept u hlive hdirPin hcaptured =>
            rw [hcaptured]
            exact (h.captured u hlive).imp_right fun hpin => ⟨hmono hpin.1, hpin.2⟩
        | constructed hdirPin hcaptured => exact Or.inl hcaptured
        | named hlive hnamed hcaptured =>
            rw [hcaptured]
            exact (h.captured v hlive).imp_right fun hpin => ⟨hmono hpin.1, hpin.2⟩
        | captured hlive hpin hdirPin hcaptured =>
            rw [hcaptured]
            exact Or.inr ⟨hmono ((h.dirPin v hlive).resolve_left (ne_of_not_rejected hpin)), hpin⟩
        | rolledBack hlive hdirPin hcaptured => exact Or.inl hcaptured

/-- On an ESP framework the range guard lets through the pins there are. -/
theorem range_of_not_rejected {pin : Pin} (hesp : pf.framework.espPlatform = true)
    (h : World.pinRejected pf pin = false) : 0 ≤ pin ∧ pin < pf.gpioNumMax := by
  simpa [World.pinRejected, hesp] using h

/-- Only a write drives the pin. -/
theorem writes_of_drives {u : UnitId} {call : SerialCall} (hop : c.op = .serial u call)
    (hlive : w.live u = true) (howner : (w.backend u).owner = some u) {e : Event}
    (he : e ∈ (w.step pf c).2.events) (hdrives : (w.units u).Drives pf e) : call.writes pf := by
  by_contra hquiet
  obtain ⟨op, env⟩ := c
  obtain rfl : op = .serial u call := hop
  rw [World.step_serial pf hlive] at he
  have hgpio : e.isGpio = false := ((World.serialCall_quiet (Or.inr howner) hquiet).1 e he).1
  obtain ⟨-, -, level, accepted, rfl⟩ := hdrives
  cases hgpio

/-- **A pin that a step touches** has been named, is in range, and is the pin of the unit that
the step is about. -/
theorem touched (h : PinsNamed pf named w) {e : Event} (he : e ∈ (w.step pf c).2.events)
    {pin : Pin} (hpin : e.pin = some pin) :
    pin ∈ named ∧ (0 ≤ pin ∧ pin < pf.gpioNumMax) ∧ pf.framework.espPlatform = true ∧
      w.UsesPin pf c pin := by
  cases World.step_reach pf w c he with
  | line u call port hop hlive hport hline =>
      rw [Event.pin_of_port hline] at hpin
      cases hpin
  | dir u owner call hop hlive howner hdrives =>
      obtain ⟨rfl, hkind⟩ := h.owner u owner hlive howner
      have hwrites : call.writes pf := writes_of_drives hop hlive howner he hdrives
      obtain ⟨hesp, hnonneg, level, accepted, rfl⟩ := hdrives
      obtain rfl : (w.units owner).configuredDirPin = pin := Option.some.inj hpin
      have hset : (w.units owner).configuredDirPin ≠ -1 := by
        intro hnone
        rw [hnone] at hnonneg
        exact absurd hnonneg (by decide)
      obtain ⟨hnamed, hrange⟩ := (h.captured owner hlive).resolve_left hset
      exact ⟨hnamed, range_of_not_rejected hesp hrange, hesp, owner, hlive, hkind,
        Or.inr ⟨call, hop, hwrites, howner, rfl⟩⟩
  | drain u ad hop hlive had hdrains =>
      rcases hdrains with rfl | rfl | ⟨bytes, rfl⟩ <;> cases hpin
  | setup u hop hlive hkind hrange he =>
      have hesp : pf.framework.espPlatform = true := by
        by_contra hesp
        rw [World.pinSetup_of_not_esp pf c.env w u (by simpa using hesp)] at he
        cases he
      obtain ⟨hbounds, hsetup⟩ := World.pinSetup_of_esp pf c.env w u hesp hrange
      obtain rfl : (w.units u).dirPin = pin := by
        rw [hsetup] at he
        rcases List.mem_cons.mp he with rfl | he
        · exact Option.some.inj hpin
        · rw [List.mem_singleton] at he
          subst he
          exact Option.some.inj hpin
      have hnamed := (h.dirPin u hlive).resolve_left (ne_of_not_rejected hrange)
      exact ⟨hnamed, hbounds, hesp, u, hlive, hkind, Or.inl ⟨hop, rfl⟩⟩
  | arrive port bytes hop he =>
      rw [he] at hpin
      cases hpin
  | transmit port n b hop he =>
      rw [he] at hpin
      cases hpin

end PinsNamed

/-! ## Runs -/

/-- **The pins a program names are the pins it touches.**  In a run of any program that installs
no DIR decorator by hand, with units of either class, moves, failing and repeated `begin`s, and
units that come and go: if a step makes a driver call about a GPIO, the program runs on an ESP
framework, an earlier step has configured a `UnitSIT3088` with that pin, the pin is in range,
and the step is the `begin` of a `UnitSIT3088` that is configured with the pin, or a write to one
that has captured it, through a decorator that it owns itself. -/
theorem pins_are_named (pf : Platform) (ports : Port → UartPort) (calls : List Call)
    (hplain : ∀ c ∈ calls, c.op.installsNoDecorator = true) :
    ∀ before c later, calls = before ++ c :: later →
      let w := (machine pf).after (World.init ports) before
      ∀ e ∈ (w.step pf c).2.events, ∀ pin, e.pin = some pin →
        pin ∈ (machine pf).collect (fun w c _ => w.namedPin c) (World.init ports) before ∧
          (0 ≤ pin ∧ pin < pf.gpioNumMax) ∧ pf.framework.espPlatform = true ∧
          w.UsesPin pf c pin := by
  rintro before c later rfl w e he pin hpin
  have hbefore : ∀ c' ∈ before, c'.op.installsNoDecorator = true := by
    intro c' hc'
    exact hplain c' (List.mem_append_left _ hc')
  have hnamed := OutputMachine.after_collect_invariant (m := machine pf)
    (P := fun _ c => c.op.installsNoDecorator = true) (fun w c _ => w.namedPin c)
    (fun named w c h hc => PinsNamed.step h hc) (PinsNamed.init pf ports)
    ((machine pf).along_of_forall hbefore (World.init ports))
  rw [List.nil_append] at hnamed
  exact hnamed.touched he hpin

/-- The write of the sample run drives pin 5. -/
theorem sample_pins_named :
    let w := (machine .esp32).after (World.init samplePorts) (sampleRun.take 4)
    ∀ e ∈ (w.step .esp32 ⟨.serial 0 (.writeBuf (.mem [0x01, 0x02])), .calm⟩).2.events,
      ∀ pin, e.pin = some pin →
        pin ∈ (machine .esp32).collect (fun w c _ => w.namedPin c) (World.init samplePorts)
            (sampleRun.take 4) ∧
          (0 ≤ pin ∧ pin < Platform.esp32.gpioNumMax) ∧
          Platform.esp32.framework.espPlatform = true ∧
          w.UsesPin .esp32 ⟨.serial 0 (.writeBuf (.mem [0x01, 0x02])), .calm⟩ pin :=
  pins_are_named .esp32 samplePorts sampleRun (by decide) (sampleRun.take 4) _ [] rfl

end RS485
