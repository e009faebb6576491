import RS485.Bus

/-!
# DIR covers every transmitted byte

`Covered` is what a transmission should look like on the bus: the DIR pin is up whenever bytes
are handed to the UART or leave it, and is lowered only when everything has left.  A decorator
whose owner has a captured pin transmits that way (`Transmission.covered`), so all depends on
the captured pin being there as long as the decorator is.

`latestPin` follows the pin of the latest successful `begin()` of each unit, and
`World.PinKept` is the invariant: a unit with a decorator has captured exactly that pin.
Every operation keeps it but one.  A `begin()` that fails after the pin setup clears the
captured pin and leaves the backend of an earlier, successful `begin()` in place
(`World.losesPin`); the decorator then writes with the driver disabled, as
`undriven_after_failed_begin` shows.
-/

namespace RS485

open Function

/-! ## Covered transmissions -/

/-- Everything that is pending or accepted leaves the port while `pin` is high. -/
structure Covered (pin : Pin) (pending : List Byte) (events : List Event) : Prop where
  accepted : ∀ p level ok, .gpioSetLevel p level ok ∈ events → p = pin ∧ ok = true
  queued_high : ∀ pre port bytes post, events = pre ++ .uartWrite port bytes :: post →
    lastLevel pin pre = some true
  sent_high : ∀ pre port b post, events = pre ++ .sent port b :: post →
    lastLevel pin pre = some true
  lowered_idle : ∀ pre ok post, events = pre ++ .gpioSetLevel pin false ok :: post →
    sentBytes pre = pending ++ acceptedBytes pre
  all_sent : sentBytes events = pending ++ acceptedBytes events

section Split

variable {α : Type*} {l₁ l₂ pre post : List α} {a : α}

private theorem append_eq_of_notMem_right (h : l₁ ++ l₂ = pre ++ a :: post) (ha : a ∉ l₂) :
    ∃ post', l₁ = pre ++ a :: post' := by
  rcases List.append_eq_append_iff.mp h with ⟨as, -, hl₂⟩ | ⟨bs, hl₁, hpost⟩
  · exact absurd (hl₂ ▸ List.mem_append_right as (List.mem_cons_self ..)) ha
  · cases bs with
    | nil =>
        have hmem : a ∈ [] ++ l₂ := hpost ▸ List.mem_cons_self ..
        exact absurd hmem ha
    | cons b bs =>
        obtain ⟨rfl, -⟩ : a = b ∧ post = bs ++ l₂ := by simpa using hpost
        exact ⟨bs, hl₁⟩

private theorem append_eq_of_notMem_left (h : l₁ ++ l₂ = pre ++ a :: post) (ha : a ∉ l₁) :
    ∃ pre', pre = l₁ ++ pre' ∧ l₂ = pre' ++ a :: post := by
  rcases List.append_eq_append_iff.mp h with ⟨as, hpre, hl₂⟩ | ⟨bs, hl₁, hpost⟩
  · exact ⟨as, hpre, hl₂⟩
  · cases bs with
    | nil => exact ⟨[], by simpa using hl₁.symm, by simpa using hpost.symm⟩
    | cons b bs =>
        obtain ⟨rfl, -⟩ : a = b ∧ post = bs ++ l₂ := by simpa using hpost
        exact absurd (hl₁ ▸ List.mem_append_right pre (List.mem_cons_self ..)) ha

end Split

/-- What is handed over or sent during a transmission is handed over or sent while the pin is
up. -/
private theorem high_of_mem_mid {pin : Pin} {mid rest pre post : List Event} {e : Event}
    (hmid : ∀ e ∈ mid, e.NoGpio) (hrest : e ∉ rest) (hgpio : e.isGpio = false)
    (h : .gpioSetLevel pin true true :: mid ++ rest = pre ++ e :: post) :
    lastLevel pin pre = some true := by
  obtain ⟨post', hpost'⟩ := append_eq_of_notMem_right h hrest
  cases pre with
  | nil =>
      obtain ⟨rfl, -⟩ : .gpioSetLevel pin true true = e ∧ mid = post' := by simpa using hpost'
      cases hgpio
  | cons e' pre =>
      obtain ⟨rfl, hmid'⟩ : .gpioSetLevel pin true true = e' ∧ mid = pre ++ e :: post' := by
        simpa using hpost'
      have hpre : ∀ e ∈ pre, e.NoGpio :=
        fun e he => hmid e (hmid' ▸ List.mem_append_left _ he)
      have happend := lastLevel_append pin [.gpioSetLevel pin true true] pre
      rw [lastLevel_of_noGpio hpre, Option.none_or] at happend
      simpa [lastLevel, Event.levelOf] using happend

/-- A transmission between a raise and a release of the pin, both accepted, is covered. -/
theorem Transmission.covered {pin : Pin} {pending : List Byte} {events : List Event}
    (h : Transmission [.gpioSetLevel pin true true] [.gpioSetLevel pin false true] pending
      events) : Covered pin pending events := by
  obtain ⟨mid, tail, rfl, hmid, htail, hbytes, hsent⟩ := h
  have htail' : ∀ e ∈ tail, e.NoGpio := fun e he => (htail e he).noGpio
  have hshape : [Event.gpioSetLevel pin true true] ++ mid ++ [.gpioSetLevel pin false true] ++
      tail = .gpioSetLevel pin true true :: mid ++ .gpioSetLevel pin false true :: tail := by
    simp
  rw [hshape]
  refine ⟨?_, ?_, ?_, ?_, ?_⟩
  · intro p level ok hmem
    simp only [List.cons_append, List.mem_cons, List.mem_append, Event.gpioSetLevel.injEq]
      at hmem
    rcases hmem with ⟨rfl, -, rfl⟩ | hmem | ⟨rfl, -, rfl⟩ | hmem
    · exact ⟨rfl, rfl⟩
    · exact absurd hmem (notMem_of_noGpio hmid rfl)
    · exact ⟨rfl, rfl⟩
    · exact absurd hmem (notMem_of_noGpio htail' rfl)
  · intro pre port bytes post heq
    refine high_of_mem_mid hmid (fun hmem => ?_) rfl heq
    rcases List.mem_cons.mp hmem with heq | hmem
    · cases heq
    · cases (htail _ hmem).2
  · intro pre port b post heq
    refine high_of_mem_mid hmid (fun hmem => ?_) rfl heq
    rcases List.mem_cons.mp hmem with heq | hmem
    · cases heq
    · have hb : b ∈ sentBytes tail := List.mem_flatMap.mpr ⟨_, hmem, by simp [Event.departed]⟩
      rw [hsent] at hb
      cases hb
  · intro pre ok post heq
    -- the pin is lowered once, after the whole of `mid`
    obtain ⟨pre', rfl, hpre'⟩ := append_eq_of_notMem_left heq (by
      simpa using notMem_of_noGpio hmid rfl)
    cases pre' with
    | nil => simpa [Event.departed, Event.accepted] using hbytes
    | cons e pre' =>
        obtain ⟨-, rfl⟩ : .gpioSetLevel pin false true = e ∧
            tail = pre' ++ .gpioSetLevel pin false ok :: post := by simpa using hpre'
        exact absurd (List.mem_append_right _ (List.mem_cons_self ..))
          (notMem_of_noGpio htail' rfl)
  · simpa [Event.departed, Event.accepted, hsent, acceptedBytes_of_quiet htail] using hbytes

/-! ## The pin of the latest successful `begin` -/

/-- The pin captured by the latest successful `begin()` of each unit.  A move takes it
along. -/
def latestPin (pins : UnitId → Option Pin) (w : World) (c : Call) (_ : World) (o : Outcome) :
    UnitId → Option Pin :=
  match c.op, o.result with
  | .construct u _, .done => update pins u none
  | .begin u, .flag true => update pins u (some (w.units u).dirPin)
  | .moveConstruct src dst, .done => update (update pins src none) dst (pins src)
  | .moveAssign src dst, .done =>
      if src = dst then pins else update (update pins src none) dst (pins src)
  | _, _ => pins

namespace World

/-- A `begin()` that passes the range guard and then fails, on a unit that still has a backend
of its own. -/
def losesPin (pf : Platform) (w : World) : Op → Prop
  | .begin u =>
      (w.units u).serial.owned = true ∧ pinRejected pf (w.units u).dirPin = false ∧
        adapterReady pf w u = false
  | _ => False

/-- The invariant: a unit with a decorator has captured the pin of its latest successful
`begin()`. -/
structure PinKept (pf : Platform) (w : World) (pins : UnitId → Option Pin) : Prop where
  controlled : w.Controlled
  kept : ∀ u, w.live u = true → (w.backend u).owner = some u →
    pins u = some (w.units u).configuredDirPin ∧
      0 ≤ (w.units u).configuredDirPin ∧ (w.units u).configuredDirPin < pf.gpioNumMax

variable {pf : Platform} {w : World} {pins : UnitId → Option Pin}

theorem PinKept.step (h : PinKept pf w pins) {c : Call} (hesp : pf.framework.espPlatform = true)
    (hop : c.op.onSIT3088 = true) (hkeeps : ¬ losesPin pf w c.op) :
    PinKept pf (w.step pf c).1 (latestPin pins w c (w.step pf c).1 (w.step pf c).2) := by
  have hcontrolled := h.controlled.step pf hop
  have heffect := step_effect pf w c
  generalize w.step pf c = r at heffect hcontrolled
  have howned := h.controlled.owned
  cases heffect with
  | rejected hcop =>
      have hpins : latestPin pins w c w ⟨.rejected, []⟩ = pins := by
        cases hc : c.op <;> simp [latestPin, hc]
      exact ⟨h.controlled, by simpa only [hpins] using h.kept⟩
  | construct u kind hcop hlive =>
      refine ⟨hcontrolled, fun v hv howner => ?_⟩
      by_cases hvu : v = u
      · subst hvu
        rw [backend_of_fallback (by simp [RS485Unit.fresh])] at howner
        cases howner
      · simp only [latestPin, hcop, update_of_ne hvu] at hv ⊢
        rw [backend_construct_other hvu] at howner
        exact h.kept v hv howner
  | destroy u hcop hlive =>
      refine ⟨hcontrolled, fun v hv howner => ?_⟩
      have hvu : v ≠ u := by
        rintro rfl
        simp at hv
      simp only [latestPin, hcop, update_of_ne hvu] at hv ⊢
      exact h.kept v hv howner
  | move src dst hcop hsrc hne =>
      have hpins : latestPin pins w c (moved pf w src dst) ⟨.done, []⟩ =
          update (update pins src none) dst (pins src) := by
        rcases hcop with ⟨hcop, -⟩ | ⟨hcop, -⟩ <;> simp [latestPin, hcop, hne]
      refine ⟨hcontrolled, fun v hv howner => ?_⟩
      simp only [hpins, moved_units, moved_live] at hv ⊢
      by_cases hvd : v = dst
      · subst hvd
        rw [howned.backend_moved_target hsrc] at howner
        -- what the target holds now, the source held, bound to itself
        have hsrcOwner : (w.backend src).owner = some src := by
          rcases h.controlled.bound src hsrc with hnull | hbound
          · rw [hnull] at howner
            cases howner
          · exact hbound
        simpa [carriedOver] using h.kept src hsrc hsrcOwner
      · by_cases hvs : v = src
        · subst hvs
          rw [backend_moved_source hne] at howner
          cases howner
        · rw [update_of_ne hvd] at hv
          rw [howned.backend_moved_other hsrc hv hvs hvd] at howner
          simpa [hvd, hvs] using h.kept v hv howner
  | moveSelf u hcop => exact ⟨h.controlled, by simpa [latestPin, hcop] using h.kept⟩
  | install u serial hcop => simp [Op.onSIT3088, hcop] at hop
  | settings u unit hcop hkind hserial hpin =>
      have hpins : latestPin pins w c (w.setUnit u unit) ⟨.done, []⟩ = pins := by
        rcases hcop with ⟨ad, hcop⟩ | ⟨cfg, hcop⟩ | ⟨cfg, hcop⟩ <;> simp [latestPin, hcop]
      refine ⟨hcontrolled, fun v hv howner => ?_⟩
      rw [backend_setUnit hserial] at howner
      have hkept := h.kept v hv howner
      by_cases hvu : v = u
      · subst hvu
        simpa [hpins, hpin] using hkept
      · simpa [hpins, hvu] using hkept
  | begin u hcop hlive r hbegin =>
      cases hbegin with
      | unready => exact ⟨h.controlled, by simpa [latestPin, hcop] using h.kept⟩
      | rejected => exact ⟨h.controlled, by simpa [latestPin, hcop] using h.kept⟩
      | failed hkind hpin hready =>
          refine ⟨hcontrolled, fun v hv howner => ?_⟩
          rw [backend_setUnit (rolledBack_serial w u)] at howner
          by_cases hvu : v = u
          · -- no decorator is installed that the lost pin could matter to
            subst hvu
            have hfallback : (w.units v).serial = SerialPtr.fallback := by
              rcases howned.wellFormed v hlive with hptr | ⟨id, hid⟩
              · exact hptr
              · refine absurd ?_ hkeeps
                rw [hcop]
                exact ⟨by rw [hid], hpin, hready⟩
            rw [backend_of_fallback hfallback] at howner
            cases howner
          · simpa [latestPin, hcop, hvu] using h.kept v hv howner
      | plain ad hkind => rw [h.controlled.kind u hlive] at hkind; cases hkind
      | controlled ad hkind hpin =>
          refine ⟨hcontrolled, fun v hv howner => ?_⟩
          by_cases hvu : v = u
          · subst hvu
            simpa [latestPin, hcop] using (pinSetup_of_esp pf c.env w v hesp hpin).1
          · simp only [begun_live] at hv
            rw [howned.backend_begun_other hv hvu] at howner
            simpa [latestPin, hcop, hvu] using h.kept v hv howner
  | call u call hcop hlive =>
      refine ⟨hcontrolled, fun v hv howner => ?_⟩
      have hv' : w.live v = true := by simpa [serialCall] using hv
      have howner' : (w.backend v).owner = some v := by
        by_cases hvu : v = u
        · subst hvu
          rwa [howned.backend_serialCall_self hlive, (Backend.dispatch_keeps ..).2] at howner
        · rwa [howned.backend_serialCall_other hlive hv' hvu] at howner
      simpa [latestPin, hcop, serialCall] using h.kept v hv' howner'
  | uartDriver port installed txRingSize hcop =>
      exact ⟨hcontrolled, by simpa [latestPin, hcop, exec] using h.kept⟩
  | arrive port bytes hcop => exact ⟨hcontrolled, by simpa [latestPin, hcop, exec] using h.kept⟩
  | transmit port n hcop => exact ⟨hcontrolled, by simpa [latestPin, hcop, exec] using h.kept⟩

end World

/-- `gpio_config` and `gpio_set_level` succeed on every pin in range. -/
def Env.DrivesPins (pf : Platform) (env : Env) : Prop :=
  ∀ pin, 0 ≤ pin → pin < pf.gpioNumMax →
    env.gpioConfig pin = true ∧ ∀ level, env.gpioSetLevel pin level = true

theorem Env.calm_drivesPins (pf : Platform) : Env.calm.DrivesPins pf :=
  fun _ _ _ => ⟨rfl, fun _ => rfl⟩

/-- A call that hands bytes to the UART is a covered transmission. -/
theorem World.PinKept.covered {pf : Platform} {w : World} {pins : UnitId → Option Pin}
    (h : World.PinKept pf w pins) (hesp : pf.framework.espPlatform = true) {u : UnitId}
    (hlive : w.live u = true) {env : Env} (hidle : env.waitTxDone = true)
    (hdrives : env.DrivesPins pf) {call : SerialCall} {port : Port} {bytes : List Byte}
    (hwrite : .uartWrite port bytes ∈ (w.serialCall pf env u call).2.events) :
    ∃ pin port, pins u = some pin ∧ 0 ≤ pin ∧ (w.backend u).port = some port ∧
      Covered pin (w.ports port).tx (w.serialCall pf env u call).2.events := by
  have hbound := h.controlled.bound u hlive
  have hcall : call.writes pf := by
    by_contra hcall
    cases ((serialCall_quiet hbound hcall).1 _ hwrite).2
  rcases hbound with hnull | howner
  · rw [(serialCall_of_null pf env call hnull).2] at hwrite
    cases hwrite
  · obtain ⟨hpins, hnonneg, hlt⟩ := h.kept u hlive howner
    obtain ⟨port, hport, htransmission, -⟩ :=
      serialCall_transmits howner hidle hcall
    have haccepted := (hdrives _ hnonneg hlt).2
    rw [UnitSIT3088.setTransmit_of_esp pf env hesp hnonneg,
      UnitSIT3088.setTransmit_of_esp pf env hesp hnonneg, haccepted, haccepted]
      at htransmission
    exact ⟨_, port, hpins, hnonneg, hport, htransmission.covered⟩

/-! ## Runs -/

/-- **DIR covers every transmitted byte**, in every run in which no `begin()` that passes the
range guard fails on a unit with a backend of its own.  Whoever holds a decorator at the end
owns it and has captured the pin of its latest successful `begin()`, and along the run every
call that hands bytes to the UART is a transmission covered by that pin. -/
theorem dir_covers_every_byte (pf : Platform) (hesp : pf.framework.espPlatform = true)
    (ports : Port → UartPort) (calls : List Call)
    (hcalls : ∀ c ∈ calls,
      c.op.onSIT3088 = true ∧ c.env.waitTxDone = true ∧ c.env.DrivesPins pf)
    (hkeeps : (machine pf).Along (fun w c => ¬ w.losesPin pf c.op) (World.init ports) calls) :
    let m := (machine pf).withHistory latestPin
    let s := (World.init ports, fun _ => none)
    (∀ u, (m.after s calls).1.live u = true → ((m.after s calls).1.backend u).owner ≠ none →
      ((m.after s calls).1.backend u).owner = some u ∧
        0 ≤ ((m.after s calls).1.units u).configuredDirPin ∧
        (m.after s calls).2 u = some ((m.after s calls).1.units u).configuredDirPin) ∧
    m.Along
      (fun p c => ∀ u call, c.op = .serial u call →
        (∃ port bytes, .uartWrite port bytes ∈ (p.1.step pf c).2.events) →
        ∃ pin port, p.2 u = some pin ∧ 0 ≤ pin ∧ (p.1.backend u).port = some port ∧
          Covered pin (p.1.ports port).tx (p.1.step pf c).2.events) s calls := by
  intro m s
  have hinit : World.PinKept pf s.1 s.2 := ⟨World.controlled_init ports, fun u hu => by cases hu⟩
  have hassumed : m.Along (fun p c => (c.op.onSIT3088 = true ∧ c.env.waitTxDone = true ∧
      c.env.DrivesPins pf) ∧ ¬ p.1.losesPin pf c.op) s calls :=
    (m.along_of_forall hcalls s).and
      (((machine pf).along_withHistory_fst latestPin _ s calls).mpr hkeeps)
  have hstep : ∀ (p : World × (UnitId → Option Pin)) (c : Call), World.PinKept pf p.1 p.2 →
      ((c.op.onSIT3088 = true ∧ c.env.waitTxDone = true ∧ c.env.DrivesPins pf) ∧
        ¬ p.1.losesPin pf c.op) → World.PinKept pf (m.step p c).1.1 (m.step p c).1.2 :=
    fun p c h hc => h.step hesp hc.1.1 hc.2
  refine ⟨fun u hlive howner => ?_, ?_⟩
  · have hend : World.PinKept pf (m.after s calls).1 (m.after s calls).2 :=
      OutputMachine.after_invariant (I := fun p => World.PinKept pf p.1 p.2) hstep hinit hassumed
    rcases hend.controlled.bound u hlive with hnull | hbound
    · rw [hnull] at howner
      exact absurd rfl howner
    · obtain ⟨hpins, hnonneg, -⟩ := hend.kept u hlive hbound
      exact ⟨hbound, hnonneg, hpins⟩
  · refine OutputMachine.along_of_invariant (I := fun p => World.PinKept pf p.1 p.2) hstep ?_
      hinit hassumed
    rintro p ⟨op, env⟩ h ⟨⟨-, hidle, hdrives⟩, -⟩ u call hop ⟨port, bytes, hwrite⟩
    simp only at hop hidle hdrives
    subst hop
    cases hlive : p.1.live u with
    | false =>
        rw [World.step_of_not_enabled pf (c := ⟨.serial u call, env⟩) hlive] at hwrite
        cases hwrite
    | true =>
        rw [World.step_serial pf hlive] at hwrite ⊢
        exact h.covered hesp hlive hidle hdrives hwrite

/-- A run without failing `begin()`s. -/
theorem dir_covers_sample :
    ((((machine .esp32).withHistory latestPin).after (World.init samplePorts, fun _ => none)
      sampleRun).1.units 0).configuredDirPin = 5 ∧
    ((((machine .esp32).withHistory latestPin).after (World.init samplePorts, fun _ => none)
      sampleRun).1.backend 0).owner = some 0 :=
  ⟨by decide, ((dir_covers_every_byte .esp32 rfl samplePorts sampleRun
    (by
      have hop : ∀ c ∈ sampleRun, c.op.onSIT3088 = true := by decide
      have henv : ∀ c ∈ sampleRun, c.env = .calm := by simp [sampleRun]
      exact fun c hc => ⟨hop c hc, henv c hc ▸ rfl, henv c hc ▸ Env.calm_drivesPins _⟩)
    ⟨id, id, id, fun h => absurd h.1 (by decide), id, trivial⟩).1 0 (by decide) (by decide)).1⟩

/-- A unit begins on DIR pin 5 and port 1; the driver of the port is deleted, `begin()` fails,
and the driver is installed again. -/
def failedBeginRun : List Call :=
  [⟨.construct 0 .sit3088, .calm⟩, ⟨.setAdapter 0 (some ⟨none, 1⟩), .calm⟩,
    ⟨.config 0 { dirPin := 5 }, .calm⟩, ⟨.begin 0, .calm⟩,
    ⟨.uartDriver 1 false 0, .calm⟩, ⟨.begin 0, .calm⟩, ⟨.uartDriver 1 true 0, .calm⟩]

/-- After that the unit still holds its decorator, without a captured pin, and what it writes
leaves the port although no pin has been raised. -/
theorem undriven_after_failed_begin :
    let w := (machine .esp32).after (World.init samplePorts) failedBeginRun
    (∀ c ∈ failedBeginRun, c.op.onSIT3088 = true ∧ c.env.waitTxDone = true ∧
      c.env.DrivesPins .esp32) ∧
    w.live 0 = true ∧ (w.backend 0).owner = some 0 ∧ (w.units 0).configuredDirPin = -1 ∧
    (w.step .esp32 ⟨.serial 0 (.write 0x55), .calm⟩).2.events =
      [.uartWrite 1 [0x55], .waitTxDone 1, .sent 1 0x55] ∧
    ∀ pin, ¬ Covered pin (w.ports 1).tx
      (w.step .esp32 ⟨.serial 0 (.write 0x55), .calm⟩).2.events := by
  intro w
  have hevents : (w.step .esp32 ⟨.serial 0 (.write 0x55), .calm⟩).2.events =
      [.uartWrite 1 [0x55], .waitTxDone 1, .sent 1 0x55] := by decide
  refine ⟨fun c hc => ?_, by decide, by decide, by decide, hevents, fun pin hcovered => ?_⟩
  · have hop : ∀ c ∈ failedBeginRun, c.op.onSIT3088 = true := by decide
    have henv : ∀ c ∈ failedBeginRun, c.env = .calm := by simp [failedBeginRun]
    exact ⟨hop c hc, henv c hc ▸ rfl, henv c hc ▸ Env.calm_drivesPins _⟩
  · have hhigh := hcovered.queued_high [] 1 [0x55] _ hevents
    cases hhigh

end RS485
