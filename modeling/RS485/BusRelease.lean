import RS485.Bus

/-!
# The bus is released at rest

One unit that leaves its DIR pin high holds the whole bus.  `BusLog` is what the log of a run
says about the pins between two operations: each one that was ever configured was last driven
low, and only pins in range that were configured before are driven at all.

A log stays so when an operation appends one of three things: events that do not touch the
pins, a pin setup, or a pulse on a configured pin.  `AtRest` is the invariant of a run.  It
adds that every captured pin is a configured one, which is why all pulses are of the third
kind, and that no transmitter is busy.
-/

namespace RS485

open Function

/-! ## Logs -/

/-- A level that `gpio_set_level` does not accept. -/
def Event.refused : Event → Bool
  | .gpioSetLevel _ _ accepted => !accepted
  | _ => false

/-- The pin has been set up by `configure_dir_pin`. -/
def Configured (pin : Pin) (log : List Event) : Prop := ∃ ok, .gpioConfig pin ok ∈ log

theorem Configured.append {pin : Pin} {log : List Event} (h : Configured pin log)
    (events : List Event) : Configured pin (log ++ events) :=
  let ⟨ok, hok⟩ := h
  ⟨ok, List.mem_append_left _ hok⟩

/-- The level the driver has last accepted for the pin. -/
def acceptedLevel (pin : Pin) (log : List Event) : Option Bool :=
  (log.filterMap fun e => if e.refused then none else e.levelOf pin).getLast?

/-- If the driver accepts what the pin is driven to, that is its level. -/
theorem acceptedLevel_eq {pin : Pin} {log : List Event}
    (h : ∀ level ok, .gpioSetLevel pin level ok ∈ log → ok = true) :
    acceptedLevel pin log = lastLevel pin log := by
  have hlevels : log.filterMap (fun e => if e.refused then none else e.levelOf pin) =
      log.filterMap (Event.levelOf pin) := by
    apply List.filterMap_congr
    intro e he
    cases e with
    | gpioSetLevel p level ok =>
        by_cases hp : p = pin
        · subst hp
          rw [h level ok he]
          rfl
        · simp [Event.levelOf, hp]
    | _ => rfl
  rw [acceptedLevel, hlevels, lastLevel]

/-- What the log of a run says about the DIR pins between two operations. -/
structure BusLog (pf : Platform) (log : List Event) : Prop where
  inRange : ∀ pin, Configured pin log → 0 ≤ pin ∧ pin < pf.gpioNumMax
  configured : ∀ (n : ℕ) pin level ok, log[n]? = some (.gpioSetLevel pin level ok) →
    Configured pin (log.take n)
  released : ∀ pin, Configured pin log → lastLevel pin log = some false

namespace BusLog

variable {pf : Platform} {log : List Event}

theorem nil : BusLog pf [] where
  inRange pin h := by simp [Configured] at h
  configured n pin level ok h := by simp at h
  released pin h := by simp [Configured] at h

/-- Driving pins that are configured is allowed. -/
private theorem configured_append
    (h : ∀ (n : ℕ) pin level ok, log[n]? = some (.gpioSetLevel pin level ok) →
      Configured pin (log.take n)) (events : List Event)
    (hevents : ∀ pin level ok, .gpioSetLevel pin level ok ∈ events → Configured pin log) :
    ∀ (n : ℕ) pin level ok, (log ++ events)[n]? = some (.gpioSetLevel pin level ok) →
      Configured pin ((log ++ events).take n) := by
  intro n pin level ok hn
  by_cases hlt : n < log.length
  · rw [List.getElem?_append_left hlt] at hn
    rw [List.take_append_of_le_length (Nat.le_of_lt hlt)]
    exact h n pin level ok hn
  · rw [List.getElem?_append_right (not_lt.mp hlt)] at hn
    rw [List.take_append, List.take_of_length_le (not_lt.mp hlt)]
    exact (hevents pin level ok (List.mem_of_getElem? hn)).append _

private theorem configured_of_append {pin : Pin} {events : List Event}
    (hevents : ∀ ok, .gpioConfig pin ok ∉ events) (h : Configured pin (log ++ events)) :
    Configured pin log := by
  obtain ⟨ok, hok⟩ := h
  exact ⟨ok, (List.mem_append.mp hok).resolve_right (hevents ok)⟩

/-- Events that do not touch the pins. -/
theorem append_noGpio (h : BusLog pf log) {events : List Event}
    (hevents : ∀ e ∈ events, e.NoGpio) : BusLog pf (log ++ events) where
  inRange pin hpin :=
    h.inRange pin (configured_of_append (fun _ => notMem_of_noGpio hevents rfl) hpin)
  configured := configured_append h.configured events
    fun _ _ _ hmem => absurd hmem (notMem_of_noGpio hevents rfl)
  released pin hpin := by
    rw [lastLevel_append, lastLevel_of_noGpio hevents, Option.none_or]
    exact h.released pin (configured_of_append (fun _ => notMem_of_noGpio hevents rfl) hpin)

/-- A pin is set up and driven low. -/
theorem append_setup (h : BusLog pf log) {pin : Pin} (hrange : 0 ≤ pin ∧ pin < pf.gpioNumMax)
    (ok ok' : Bool) : BusLog pf (log ++ [.gpioConfig pin ok, .gpioSetLevel pin false ok']) where
  inRange p hp := by
    obtain ⟨ok'', hmem⟩ := hp
    rcases List.mem_append.mp hmem with hmem | hmem
    · exact h.inRange p ⟨ok'', hmem⟩
    · obtain ⟨rfl, -⟩ : p = pin ∧ ok'' = ok := by simpa using hmem
      exact hrange
  configured := by
    have hconfig := configured_append h.configured [.gpioConfig pin ok] (by simp)
    have hset := configured_append hconfig [.gpioSetLevel pin false ok'] (by
      intro p level ok'' hmem
      obtain ⟨rfl, -⟩ : p = pin ∧ level = false ∧ ok'' = ok' := by simpa using hmem
      exact ⟨ok, by simp⟩)
    simpa using hset
  released p hp := by
    rw [lastLevel_append]
    by_cases hpp : pin = p
    · simp [lastLevel, Event.levelOf, hpp]
    · have hold : Configured p log := by
        refine configured_of_append (fun ok'' hmem => ?_) hp
        simp [Ne.symm hpp] at hmem
      simpa [lastLevel, Event.levelOf, hpp] using h.released p hold

/-- A configured pin is raised and lowered again. -/
theorem append_pulse (h : BusLog pf log) {pin : Pin} (hpin : Configured pin log)
    {mid tail : List Event} (hmid : ∀ e ∈ mid, e.NoGpio) (htail : ∀ e ∈ tail, e.NoGpio)
    (ok ok' : Bool) :
    BusLog pf (log ++
      ([.gpioSetLevel pin true ok] ++ mid ++ [.gpioSetLevel pin false ok'] ++ tail)) where
  inRange p hp := by
    refine h.inRange p (configured_of_append (fun ok'' hmem => ?_) hp)
    simp only [List.mem_append, List.mem_singleton, reduceCtorEq, or_false, false_or] at hmem
    rcases hmem with hmem | hmem
    · exact notMem_of_noGpio hmid rfl hmem
    · exact notMem_of_noGpio htail rfl hmem
  configured := by
    refine configured_append h.configured _ fun p level ok'' hmem => ?_
    simp only [List.mem_append, List.mem_singleton, Event.gpioSetLevel.injEq] at hmem
    rcases hmem with ((⟨rfl, -⟩ | hmem) | ⟨rfl, -⟩) | hmem
    · exact hpin
    · exact absurd hmem (notMem_of_noGpio hmid rfl)
    · exact hpin
    · exact absurd hmem (notMem_of_noGpio htail rfl)
  released p hp := by
    have hpulse : lastLevel p
        ([.gpioSetLevel pin true ok] ++ mid ++ [.gpioSetLevel pin false ok'] ++ tail) =
        if pin = p then some false else none := by
      simp only [lastLevel_append, lastLevel_of_noGpio hmid, lastLevel_of_noGpio htail]
      by_cases hpp : pin = p <;> simp [lastLevel, Event.levelOf, hpp]
    rw [lastLevel_append, hpulse]
    by_cases hpp : pin = p
    · simp [hpp]
    · simp only [if_neg hpp, Option.none_or]
      refine h.released p (configured_of_append (fun ok'' hmem => ?_) hp)
      simp only [List.mem_append, List.mem_singleton, reduceCtorEq, or_false, false_or] at hmem
      rcases hmem with hmem | hmem
      · exact notMem_of_noGpio hmid rfl hmem
      · exact notMem_of_noGpio htail rfl hmem

end BusLog

/-! ## The invariant -/

namespace World

/-- The invariant of a run of units that share nothing but the ports: `log` is everything the
run has logged so far. -/
structure AtRest (pf : Platform) (w : World) (log : List Event) : Prop where
  controlled : w.Controlled
  idle : ∀ p, (w.ports p).tx = []
  busLog : BusLog pf log
  captured : pf.framework.espPlatform = true → ∀ u, w.live u = true →
    0 ≤ (w.units u).configuredDirPin → Configured (w.units u).configuredDirPin log

theorem atRest_init (pf : Platform) {ports : Port → UartPort} (hports : ∀ p, (ports p).tx = []) :
    AtRest pf (World.init ports) [] where
  controlled := controlled_init ports
  idle := hports
  busLog := .nil
  captured _ u hu := by cases hu

variable {pf : Platform} {w : World} {log : List Event}

/-- A pin setup extends the log as it should, and leaves the pin configured. -/
theorem BusLog.append_pinSetup (env : Env) {u : UnitId} (h : BusLog pf log)
    (hpin : pinRejected pf (w.units u).dirPin = false) :
    BusLog pf (log ++ w.pinSetup pf env u) ∧
      (pf.framework.espPlatform = true →
        Configured (w.units u).dirPin (log ++ w.pinSetup pf env u)) := by
  cases hesp : pf.framework.espPlatform with
  | false =>
      rw [pinSetup_of_not_esp pf env w u hesp]
      exact ⟨h.append_noGpio (by simp), fun hne => by cases hne⟩
  | true =>
      obtain ⟨hrange, hsetup⟩ := pinSetup_of_esp pf env w u hesp hpin
      rw [hsetup]
      exact ⟨h.append_setup hrange _ _,
        fun _ => ⟨env.gpioConfig (w.units u).dirPin, List.mem_append_right _ (by simp)⟩⟩

/-- So does a call of a unit whose captured pin, if any, is configured. -/
theorem BusLog.append_call {env : Env} {u : UnitId} {call : SerialCall} (h : BusLog pf log)
    (hu : w.Bound u) (hidle : env.waitTxDone = true)
    (hpin : pf.framework.espPlatform = true → 0 ≤ (w.units u).configuredDirPin →
      Configured (w.units u).configuredDirPin log) :
    BusLog pf (log ++ (w.serialCall pf env u call).2.events) := by
  by_cases hcall : call.writes pf
  · rcases hu with hnull | howner
    · rw [(serialCall_of_null pf env call hnull).2]
      exact h.append_noGpio (by simp)
    · obtain ⟨port, -, ⟨mid, tail, hevents, hmid, htail, -, -⟩, -⟩ :=
        serialCall_transmits howner hidle hcall
      have htail' : ∀ e ∈ tail, e.NoGpio := fun e he => (htail e he).noGpio
      rw [hevents]
      -- either the call is one pulse on the captured pin, or the pin is not touched
      by_cases hdriven : pf.framework.espPlatform = true ∧ 0 ≤ (w.units u).configuredDirPin
      · obtain ⟨hesp, hnonneg⟩ := hdriven
        rw [UnitSIT3088.setTransmit_of_esp pf env hesp hnonneg,
          UnitSIT3088.setTransmit_of_esp pf env hesp hnonneg]
        exact h.append_pulse (hpin hesp hnonneg) hmid htail' _ _
      · have hnot : pf.framework.espPlatform = false ∨ (w.units u).configuredDirPin < 0 := by
          simpa [or_iff_not_imp_left] using hdriven
        rw [UnitSIT3088.setTransmit_of_not pf env hnot, UnitSIT3088.setTransmit_of_not pf env hnot]
        refine h.append_noGpio fun e he => ?_
        simp only [List.nil_append, List.append_nil, List.mem_append] at he
        exact he.elim (hmid e) (htail' e)
  · exact h.append_noGpio fun e he => ((serialCall_quiet hu hcall).1 e he).noGpio

theorem serialCall_idle {env : Env} {u : UnitId} {call : SerialCall} (hu : w.Bound u)
    (hidle : env.waitTxDone = true) (h : ∀ p, (w.ports p).tx = []) (p : Port) :
    ((w.serialCall pf env u call).1.ports p).tx = [] := by
  by_cases hcall : call.writes pf
  · rcases hu with hnull | howner
    · rw [(serialCall_of_null pf env call hnull).1]
      exact h p
    · obtain ⟨port, -, -, uart, huart, hports⟩ :=
        serialCall_transmits howner hidle hcall
      rw [hports]
      by_cases hpp : p = port
      · subst hpp
        simpa using huart
      · simpa [hpp] using h p
  · exact (serialCall_quiet hu hcall).2 p (h p)

/-- **Every step keeps the invariant.** -/
theorem AtRest.step (h : AtRest pf w log) {c : Call} (hop : c.op.onSIT3088 = true)
    (hidle : c.env.waitTxDone = true) :
    AtRest pf (w.step pf c).1 (log ++ (w.step pf c).2.events) := by
  have hcontrolled := h.controlled.step pf hop
  have heffect := step_effect pf w c
  generalize w.step pf c = r at heffect hcontrolled
  cases heffect with
  | rejected => simpa using h
  | construct u kind hcop hlive =>
      refine ⟨hcontrolled, h.idle, by simpa using h.busLog, fun hesp v hv hpin => ?_⟩
      by_cases hvu : v = u
      · subst hvu
        simp [RS485Unit.fresh] at hpin
      · simpa [hvu] using h.captured hesp v (by simpa [hvu] using hv) (by simpa [hvu] using hpin)
  | destroy u hcop hlive =>
      refine ⟨hcontrolled, h.idle, by simpa using h.busLog, fun hesp v hv hpin => ?_⟩
      by_cases hvu : v = u
      · subst hvu
        simp at hv
      · simpa using h.captured hesp v (by simpa [hvu] using hv) hpin
  | move src dst hcop hsrc hne =>
      refine ⟨hcontrolled, by simpa using h.idle, by simpa using h.busLog,
        fun hesp v hv hpin => ?_⟩
      simp only [moved_units, moved_live, List.append_nil] at hv hpin ⊢
      by_cases hvd : v = dst
        -- the target has the source's captured pin, which is configured already
      · subst hvd
        simp only [update_self, carriedOver] at hpin ⊢
        exact h.captured hesp src hsrc hpin
      · rw [update_of_ne hvd] at hv hpin ⊢
        by_cases hvs : v = src
        · subst hvs
          simp only [update_self, leftBehind] at hpin ⊢
          exact h.captured hesp v hsrc hpin
        · rw [update_of_ne hvs] at hpin ⊢
          exact h.captured hesp v hv hpin
  | moveSelf => simpa using h
  | install u serial hcop => simp [Op.onSIT3088, hcop] at hop
  | settings u unit hcop hkind hserial hpin' =>
      refine ⟨hcontrolled, h.idle, by simpa using h.busLog, fun hesp v hv hpin => ?_⟩
      by_cases hvu : v = u
      · subst hvu
        simp only [setUnit_units, update_self, hpin', List.append_nil] at hpin ⊢
        exact h.captured hesp v hv hpin
      · simp only [setUnit_units, update_of_ne hvu, List.append_nil] at hpin ⊢
        exact h.captured hesp v hv hpin
  | begin u hcop hlive r hbegin =>
      cases hbegin with
      | unready => simpa using h
      | rejected => simpa using h
      | failed hkind hpin' =>
          refine ⟨hcontrolled, h.idle, (BusLog.append_pinSetup c.env h.busLog hpin').1,
            fun hesp v hv hpin => ?_⟩
          -- the pin has been set up, but the unit claims none
          by_cases hvu : v = u
          · subst hvu
            simp at hpin
          · simp only [setUnit_units, update_of_ne hvu] at hpin ⊢
            exact (h.captured hesp v hv hpin).append _
      | plain ad hkind => rw [h.controlled.kind u hlive] at hkind; cases hkind
      | controlled ad hkind hpin' =>
          have hdrained := drained_extends c.env w (w.units u).cfg.flushRX
            (ad.line pf.framework)
          obtain ⟨events, hlog, hquiet, -⟩ := id hdrained
          obtain ⟨hbus, hconfigured⟩ := BusLog.append_pinSetup c.env h.busLog hpin'
          have hlog' : (drained c.env w (w.units u).cfg.flushRX (ad.line pf.framework)).log =
              events := hlog
          simp only [hlog', ← List.append_assoc]
          refine ⟨hcontrolled, fun p => ?_,
            hbus.append_noGpio fun e he => (hquiet e he).noGpio, fun hesp v hv hpin => ?_⟩
          · by_cases hpp : p = ad.line pf.framework
            · subst hpp
              simpa using hdrained.idle (h.idle _)
            · simpa [hpp] using h.idle p
          · by_cases hvu : v = u
            · subst hvu
              simpa using (hconfigured hesp).append _
            · simp only [begun_units, update_of_ne hvu, begun_live] at hpin hv ⊢
              exact ((h.captured hesp v hv hpin).append _).append _
  | call u call hcop hlive =>
      have hbound := h.controlled.bound u hlive
      refine ⟨hcontrolled, serialCall_idle hbound hidle h.idle,
        BusLog.append_call h.busLog hbound hidle fun hesp hpin => h.captured hesp u hlive hpin,
        fun hesp v hv hpin => ?_⟩
      simp only [serialCall, storePort_units, storeBackend_units, storePort_live,
        storeBackend_live] at hv hpin ⊢
      exact (h.captured hesp v hv hpin).append _
  | uartDriver port installed txRingSize hcop =>
      refine ⟨hcontrolled, fun p => ?_, by simpa [exec] using h.busLog,
        fun hesp v hv hpin => by simpa [exec] using h.captured hesp v hv hpin⟩
      by_cases hpp : p = port
      · subst hpp
        simp [exec]
      · simpa [exec, hpp] using h.idle p
  | arrive port bytes hcop =>
      refine ⟨hcontrolled, fun p => ?_,
        h.busLog.append_noGpio (by simp [exec, Event.NoGpio, Event.isGpio]),
        fun hesp v hv hpin => (h.captured hesp v hv hpin).append _⟩
      by_cases hpp : p = port
      · subst hpp
        simpa [exec] using h.idle p
      · simpa [exec, hpp] using h.idle p
  | transmit port n hcop =>
      have hsent : (w.io (some port)).Extends Event.Quiet
          ((w.io (some port)).transmit port n c.env.ringUsed) :=
        Io.Extends.transmit _ quiet_sent port n _
      obtain ⟨events, hlog, hquiet, -⟩ := id hsent
      have hlog' : ((w.io (some port)).transmit port n c.env.ringUsed).log = events := hlog
      refine ⟨hcontrolled, fun p => ?_, ?_, fun hesp v hv hpin => ?_⟩
      · by_cases hpp : p = port
        · subst hpp
          simpa [exec] using hsent.idle (h.idle p)
        · simpa [exec, hpp] using h.idle p
      · simp only [exec, hlog']
        exact h.busLog.append_noGpio fun e he => (hquiet e he).noGpio
      · exact (h.captured hesp v hv hpin).append _

end World

/-! ## Runs -/

theorem World.atRest_after (pf : Platform) {ports : Port → UartPort}
    (hports : ∀ p, (ports p).tx = []) (calls : List Call)
    (hcalls : ∀ c ∈ calls, c.op.onSIT3088 = true ∧ c.env.waitTxDone = true) :
    World.AtRest pf ((machine pf).after (World.init ports) calls)
      (((machine pf).outputs (World.init ports) calls).flatMap Outcome.events) := by
  have hafter := OutputMachine.after_invariant
    (m := (machine pf).withHistory fun log _ _ _ o => log ++ o.events)
    (I := fun p => World.AtRest pf p.1 p.2)
    (s := (World.init ports, [])) (fun p c h hc => h.step hc.1 hc.2)
    (World.atRest_init pf hports) (OutputMachine.along_of_forall _ hcalls _)
  rwa [OutputMachine.after_withHistory_fst, OutputMachine.after_withHistory_append,
    List.nil_append] at hafter

/-- A DIR pin is raised in a write of a non-empty buffer and nowhere else. -/
theorem World.Controlled.raised {pf : Platform} {w : World} (h : w.Controlled) {c : Call}
    (hop : c.op.onSIT3088 = true) {pin : Pin} {ok : Bool}
    (hraised : .gpioSetLevel pin true ok ∈ (w.step pf c).2.events) :
    ∃ u call, c.op = .serial u call ∧ call.writes pf := by
  have hquiet : ∀ {events : List Event}, (∀ e ∈ events, e.Quiet) →
      .gpioSetLevel pin true ok ∉ events :=
    fun hevents => notMem_of_noGpio (fun e he => (hevents e he).noGpio) rfl
  have hsetup : ∀ u, pinRejected pf (w.units u).dirPin = false →
      .gpioSetLevel pin true ok ∉ w.pinSetup pf c.env u := by
    intro u hpin
    cases hesp : pf.framework.espPlatform with
    | false => simp [pinSetup_of_not_esp pf c.env w u hesp]
    | true => simp [(pinSetup_of_esp pf c.env w u hesp hpin).2]
  have heffect := step_effect pf w c
  generalize w.step pf c = r at heffect hraised
  cases heffect with
  | install u serial hcop => simp [Op.onSIT3088, hcop] at hop
  | begin u hcop hlive r hbegin =>
      cases hbegin with
      | unready => simp at hraised
      | rejected => simp at hraised
      | failed hkind hpin => exact absurd hraised (hsetup u hpin)
      | plain ad hkind => rw [h.kind u hlive] at hkind; cases hkind
      | controlled ad hkind hpin =>
          obtain ⟨events, hlog, hevents, -⟩ :=
            drained_extends c.env w (w.units u).cfg.flushRX (ad.line pf.framework)
          simp only [hlog, World.io, List.nil_append] at hraised
          exact ((List.mem_append.mp hraised).elim (hsetup u hpin) (hquiet hevents)).elim
  | call u call hcop hlive =>
      refine ⟨u, call, hcop, ?_⟩
      by_contra hcall
      exact hquiet (serialCall_quiet (h.bound u hlive) hcall).1 hraised
  | transmit port n hcop =>
      obtain ⟨events, hlog, hevents, -⟩ :=
        Io.Extends.transmit (w.io (some port)) quiet_sent port n c.env.ringUsed
      have hlog' : ((w.io (some port)).transmit port n c.env.ringUsed).log = events := hlog
      simp only [exec, hlog'] at hraised
      exact absurd hraised (hquiet hevents)
  | _ => simp [exec] at hraised

/-- **The bus is released at rest.**  After any run of `UnitSIT3088`s that starts with idle
transmitters, every pin that was ever configured as a DIR pin was last driven low, and is low if
the driver accepts the levels it is driven to; and no byte is waiting in a transmitter.  In the
log of the run only pins in range are configured and driven, and each is configured before it is
driven.  Along the run, a pin is raised only in a write of a buffer that is not null and not
empty. -/
theorem bus_released_at_rest (pf : Platform) (ports : Port → UartPort)
    (hports : ∀ p, (ports p).tx = []) (calls : List Call)
    (hcalls : ∀ c ∈ calls, c.op.onSIT3088 = true ∧ c.env.waitTxDone = true) :
    let log := ((machine pf).outputs (World.init ports) calls).flatMap Outcome.events
    (∀ pin, Configured pin log → lastLevel pin log = some false ∧
      ((∀ level ok, .gpioSetLevel pin level ok ∈ log → ok = true) →
        acceptedLevel pin log = some false)) ∧
    (∀ p, (((machine pf).after (World.init ports) calls).ports p).tx = []) ∧
    (∀ pin, Configured pin log → 0 ≤ pin ∧ pin < pf.gpioNumMax) ∧
    (∀ (n : ℕ) pin level ok, log[n]? = some (.gpioSetLevel pin level ok) →
      (0 ≤ pin ∧ pin < pf.gpioNumMax) ∧ Configured pin (log.take n)) ∧
    (machine pf).Along
      (fun w c => ∀ pin ok, .gpioSetLevel pin true ok ∈ (w.step pf c).2.events →
        ∃ u call b wait, c.op = .serial u call ∧ call.payload pf = some (b, wait) ∧
          b.isNull = false ∧ b.size ≠ 0) (World.init ports) calls := by
  intro log
  have hrest := World.atRest_after pf hports calls hcalls
  refine ⟨fun pin hpin => ?_, hrest.idle, hrest.busLog.inRange, ?_, ?_⟩
  · have hlow : lastLevel pin log = some false := hrest.busLog.released pin hpin
    exact ⟨hlow, fun haccepts => (acceptedLevel_eq haccepts).trans hlow⟩
  · intro n pin level ok hn
    have hconfigured := hrest.busLog.configured n pin level ok hn
    obtain ⟨ok', hok'⟩ := hconfigured
    exact ⟨hrest.busLog.inRange pin ⟨ok', List.mem_of_mem_take hok'⟩, ok', hok'⟩
  · refine OutputMachine.along_of_invariant (I := World.Controlled)
      (P := fun _ c => c.op.onSIT3088 = true ∧ c.env.waitTxDone = true)
      (fun w c h hc => h.step pf hc.1) ?_ (World.controlled_init ports)
      ((machine pf).along_of_forall hcalls _)
    intro w c h hc pin ok hraised
    obtain ⟨u, call, hop, b, wait, hpayload, hb⟩ := h.raised hc.1 hraised
    refine ⟨u, call, b, wait, hop, hpayload, ?_, ?_⟩
    · simpa using fun hnull => hb (Or.inl hnull)
    · exact fun hsize => hb (Or.inr hsize)

/-- A run of one unit: it begins on pin 5 and port 1 and sends two bytes. -/
theorem bus_released_after_sample :
    lastLevel 5 (((machine .esp32).outputs (World.init samplePorts) sampleRun).flatMap
      Outcome.events) = some false :=
  ((bus_released_at_rest .esp32 samplePorts (fun _ => rfl) sampleRun (by decide)).1 5
    ⟨true, by decide⟩).1

end RS485
