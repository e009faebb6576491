import RS485.Binding
import RS485.Bus

/-!
# What a successful `begin()` of a `UnitSIT3088` means

`begin()` checks the range of the DIR pin, makes the pin an output, captures it and drives it
low, and then begins as its base class does.  It asks the answers of the range check and of
the base class, but not those of `gpio_config` and `gpio_set_level`; so a unit that has begun
controls its transceiver exactly if these two have accepted the pin.
-/

namespace RS485

open Function

/-- After `begin()` of the unit `u` the transceiver is under control: the GPIO driver has
accepted the pin as an output and driven it low, and not high since; the captured pin is the
configured one; and the unit owns a DIR decorator over the adapter's port that is bound to
it. -/
structure ControlsTransceiver (pf : Platform) (w : World) (u : UnitId)
    (r : World × List Event × Bool) : Prop where
  output : .gpioConfig (w.units u).dirPin true ∈ r.2.1
  drivenLow : .gpioSetLevel (w.units u).dirPin false true ∈ r.2.1
  notRaised : ∀ answer, .gpioSetLevel (w.units u).dirPin true answer ∉ r.2.1
  captured : (r.1.units u).configuredDirPin = (w.units u).dirPin
  owned : (r.1.units u).serial.owned = true
  bound : (r.1.backend u).owner = some u
  port : ∃ ad, (w.units u).adapter = some ad ∧
    (r.1.backend u).port = some (ad.line pf.framework)

namespace World

variable {pf : Platform} {env : Env} {w : World} {u : UnitId}

/-- After a successful `begin()` all that is left in doubt is what the GPIO driver said. -/
theorem controlsTransceiver_iff (hesp : pf.framework.espPlatform = true)
    (hkind : (w.units u).kind = .sit3088) (hok : (begin pf env w u).2.2 = true) :
    ControlsTransceiver pf w u (begin pf env w u) ↔
      env.gpioConfig (w.units u).dirPin = true ∧
        env.gpioSetLevel (w.units u).dirPin false = true := by
  obtain ⟨hready, hpin⟩ := (begin_eq_true_iff pf env w u).mp hok
  obtain ⟨ad, had, hbegin⟩ := begin_succeeded env hkind (hpin hkind) hready
  obtain ⟨-, hsetup⟩ := pinSetup_of_esp pf env w u hesp (hpin hkind)
  rw [hbegin, hsetup]
  -- the drain loop makes no call of the GPIO driver
  have hdrained : ∀ e ∈ (drained env w (w.units u).cfg.flushRX (ad.line pf.framework)).log,
      e.NoGpio := by
    obtain ⟨events, hlog, hquiet, -⟩ :=
      drained_extends env w (w.units u).cfg.flushRX (ad.line pf.framework)
    rw [hlog]
    exact fun e he => (hquiet e he).noGpio
  have hnoConfig := fun pin answer => notMem_of_noGpio (e := .gpioConfig pin answer) hdrained rfl
  have hnoLevel := fun pin level answer =>
    notMem_of_noGpio (e := .gpioSetLevel pin level answer) hdrained rfl
  constructor
  · intro h
    have houtput := h.output
    have hlow := h.drivenLow
    simp only [List.cons_append, List.nil_append, List.mem_cons, Event.gpioConfig.injEq,
      Event.gpioSetLevel.injEq, true_and, reduceCtorEq, false_or, hnoConfig, hnoLevel,
      or_false] at houtput hlow
    exact ⟨houtput.symm, hlow.symm⟩
  · rintro ⟨hconfig, hlevel⟩
    have hbackend : (begun pf env w u (w.captured u) (ad.line pf.framework)).backend u =
        newBackend pf u .sit3088 (ad.line pf.framework) := by
      rw [backend_begun_self, captured_kind, hkind]
    exact
      { output := by simp [hconfig]
        drivenLow := by simp [hlevel]
        notRaised := fun answer => by simp [hnoLevel]
        captured := by simp
        owned := by simp
        bound := by rw [hbackend, newBackend_owner]
        port := ⟨ad, had, by rw [hbackend, newBackend_port]⟩ }

end World

/-- **A begun `UnitSIT3088` controls its transceiver** exactly if `begin()` turns the unit down
or the GPIO driver accepts the pin as an output and the low level on it. -/
theorem begin_controls_iff (pf : Platform) (hesp : pf.framework.espPlatform = true) (env : Env)
    (w : World) (u : UnitId) (hkind : (w.units u).kind = .sit3088) :
    ((w.begin pf env u).2.2 = true → ControlsTransceiver pf w u (w.begin pf env u)) ↔
      (World.Accepted pf w u →
        env.gpioConfig (w.units u).dirPin = true ∧
          env.gpioSetLevel (w.units u).dirPin false = true) := by
  rw [← World.begin_eq_true_iff pf env]
  exact forall_congr' fun hok => World.controlsTransceiver_iff hesp hkind hok

/-- A unit with DIR pin `pin` on an installed port. -/
def readyRun (pin : Pin) : List Call :=
  [⟨.construct 0 .sit3088, .calm⟩, ⟨.setAdapter 0 (some ⟨none, 1⟩), .calm⟩,
    ⟨.config 0 { dirPin := pin }, .calm⟩]

/-- A GPIO driver for which the pins from 34 on are inputs only. -/
def inputOnlyEnv : Env :=
  { Env.calm with
    gpioConfig := fun pin => pin < 34
    gpioSetLevel := fun pin _ => pin < 34 }

theorem begin_controls_sample :
    let w := (machine .esp32).after (World.init samplePorts) (readyRun 33)
    (w.begin .esp32 inputOnlyEnv 0).2.2 = true →
      ControlsTransceiver .esp32 w 0 (w.begin .esp32 inputOnlyEnv 0) :=
  (begin_controls_iff .esp32 rfl inputOnlyEnv _ 0 rfl).mpr fun _ => by decide

/-- With one of those pins `begin()` reports success although the GPIO driver has turned the
pin down twice. -/
theorem begin_without_output :
    let w := (machine .esp32).after (World.init samplePorts) (readyRun 34)
    let r := w.begin .esp32 inputOnlyEnv 0
    r.2.2 = true ∧ (r.1.units 0).configuredDirPin = 34 ∧
      r.2.1.take 2 = [.gpioConfig 34 false, .gpioSetLevel 34 false false] ∧
      ¬ ControlsTransceiver .esp32 w 0 r := by
  intro w r
  refine ⟨by decide, by decide, by decide, fun h => ?_⟩
  have houtput := h.output
  revert houtput
  decide

end RS485
