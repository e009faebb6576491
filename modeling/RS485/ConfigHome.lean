import RS485.Steps

/-!
# Configuration acts at `begin()` only

Two runs perform the same operations but for their `config()` calls, of which each has its
own.  If at every `begin()` the settings last written are the same in both, the runs cannot
be told apart.

* `lastWritten` is the history variable the hypothesis is about: the settings last written
  for a unit, through the derived class or through its base, carried along by moves.
  `settings_eq_lastWritten` says that this is what both getters read.
* `World.forget` blanks the settings of all units.  Every operation but `begin()` and
  `config()` commutes with it (`World.step_forget`), so it neither reads settings nor lets
  them reach anything else.
* `begin()` reads and writes one unit only (`World.begin_withUnits`).
-/

namespace RS485

open Function

/-- Is the operation a `config(cfg)`, through either class? -/
def Op.isConfig : Op → Bool
  | .config _ _ | .configBase _ _ => true
  | _ => false

/-! ## The settings last written -/

/-- The settings last written for each unit.  A write through the base class is one of
`flushRX` only, and a move carries the source's settings to the target. -/
def lastWritten (settings : UnitId → SIT3088ConfigT) (w : World) (c : Call) (_ : World)
    (_ : Outcome) : UnitId → SIT3088ConfigT :=
  if w.enabled c.op then
    match c.op with
    | .construct u _ => update settings u {}
    | .config u cfg => update settings u cfg
    | .configBase u cfg => update settings u { settings u with flushRX := cfg.flushRX }
    | .moveConstruct src dst | .moveAssign src dst => update settings dst (settings src)
    | _ => settings
  else settings

/-- The program with the settings last written. -/
def configMachine (pf : Platform) :
    OutputMachine (World × (UnitId → SIT3088ConfigT)) Call Outcome :=
  (machine pf).withHistory lastWritten

/-- The settings of a unit, as its getter puts them together. -/
def RS485Unit.settings (unit : RS485Unit) : SIT3088ConfigT :=
  { unit.cfg with dirPin := unit.dirPin }

namespace World

theorem getConfig_eq (w : World) : w.getConfig = RS485Unit.settings ∘ w.units := rfl

theorem getConfig_setUnit {w : World} {u : UnitId} {unit : RS485Unit} :
    (w.setUnit u unit).getConfig = update w.getConfig u unit.settings := by
  simp only [getConfig_eq, setUnit_units, comp_update]

theorem getConfig_setUnit_of_eq {w : World} {u : UnitId} {unit : RS485Unit}
    (h : unit.settings = (w.units u).settings) : (w.setUnit u unit).getConfig = w.getConfig := by
  rw [getConfig_setUnit, h]
  exact update_eq_self u w.getConfig

theorem getConfig_moved (pf : Platform) (w : World) (src dst : UnitId) :
    (moved pf w src dst).getConfig = update w.getConfig dst (w.getConfig src) := by
  simp only [getConfig_eq, moved_units, comp_update]
  have hsrc : update (RS485Unit.settings ∘ w.units) src (leftBehind pf (w.units src)).settings =
      RS485Unit.settings ∘ w.units := update_eq_self src _
  rw [hsrc]
  rfl

theorem getConfig_installSerial (w : World) (u : UnitId) (serial : Option Backend) :
    (w.installSerial u serial).getConfig = w.getConfig := by
  cases serial with
  | none => rfl
  | some b =>
      simp only [getConfig_eq, installSerial, comp_update]
      exact update_eq_self u _

theorem getConfig_begin (pf : Platform) (env : Env) (w : World) (u : UnitId) :
    (begin pf env w u).1.getConfig = w.getConfig := by
  have hbegun : ∀ (unit : RS485Unit) (port : Port), unit.settings = (w.units u).settings →
      (begun pf env w u unit port).getConfig = w.getConfig := by
    intro unit port hunit
    simp only [getConfig_eq, begun_units, comp_update]
    exact (congrArg (update _ u) hunit).trans (update_eq_self u _)
  have hbegin := begin_step pf env w u
  generalize begin pf env w u = r at hbegin
  cases hbegin with
  | unready => rfl
  | rejected => rfl
  | failed => exact getConfig_setUnit_of_eq rfl
  | plain => exact hbegun _ _ rfl
  | controlled => exact hbegun _ _ rfl

/-- **The settings are those last written**, if they were before a step. -/
theorem getConfig_step (pf : Platform) (w : World) (c : Call) :
    (w.step pf c).1.getConfig =
      lastWritten w.getConfig w c (w.step pf c).1 (w.step pf c).2 := by
  obtain ⟨op, env⟩ := c
  unfold step lastWritten
  split
  · next hop =>
    cases op with
    | construct u kind => simp only [exec, getConfig_eq, comp_update]; rfl
    | moveConstruct src dst =>
        simp only [enabled, Bool.and_eq_true, Bool.not_eq_true'] at hop
        simp only [exec, moveConstruct_eq_moved hop.2, getConfig_moved]
    | moveAssign src dst =>
        simp only [enabled, Bool.and_eq_true, decide_eq_true_eq] at hop
        simp only [exec]
        by_cases hne : src = dst
        · subst hne
          rw [moveAssign_self, update_eq_self]
        · rw [moveAssign_eq_moved hne hop.1.2 hop.2, getConfig_moved]
    | config u cfg => exact getConfig_setUnit
    | configBase u cfg => exact getConfig_setUnit
    | begin u => exact getConfig_begin pf env w u
    | installSerial u serial => exact getConfig_installSerial w u serial
    | setAdapter u ad => exact getConfig_setUnit_of_eq rfl
    | destroy u => rfl
    | serial u call => simp only [exec, serialCall, getConfig_eq, storePort_units,
        storeBackend_units]
    | uartDriver port installed txRingSize => rfl
    | arrive port bytes => rfl
    | transmit port n => rfl
  · rfl

end World

/-! ## Forgetting the settings -/

/-- The unit with its settings blanked. -/
def RS485Unit.unset (unit : RS485Unit) : RS485Unit := { unit with cfg := {}, dirPin := -1 }

namespace World

/-- The world with the settings of all units blanked. -/
def forget (w : World) : World := { w with units := RS485Unit.unset ∘ w.units }

section Forget

variable (w : World) (u : UnitId)

@[simp] theorem forget_units_apply : (w.forget).units u = (w.units u).unset := rfl

theorem forget_setUnit (unit : RS485Unit) :
    (w.setUnit u unit).forget = w.forget.setUnit u unit.unset := by
  simp only [forget, setUnit, comp_update]

theorem forget_storeBackend (ptr : Option BackendPtr) (b : Backend) :
    (w.storeBackend ptr b).forget = w.forget.storeBackend ptr b := by
  unfold storeBackend
  split <;> rfl

theorem forget_storePort (port : Option Port) (uart : UartPort) :
    (w.storePort port uart).forget = w.forget.storePort port uart := by
  cases port <;> rfl

theorem forget_rebindSerial : (w.rebindSerial u).forget = w.forget.rebindSerial u := by
  have hderef : w.forget.deref = w.deref := rfl
  simp only [rebindSerial, forget_units_apply, RS485Unit.unset, hderef]
  split
  · exact forget_storeBackend w _ _
  · rfl

theorem forget_installSerial (serial : Option Backend) :
    (w.installSerial u serial).forget = w.forget.installSerial u serial := by
  cases serial with
  | none => rfl
  | some b => simp only [installSerial, forget, comp_update]; rfl

theorem forget_moved (pf : Platform) (src dst : UnitId) :
    (moved pf w src dst).forget = moved pf w.forget src dst := by
  unfold moved
  rw [forget_rebindSerial]
  simp only [forget, comp_update]
  rfl

end Forget

theorem forget_serialCall (pf : Platform) (env : Env) (w : World) (u : UnitId)
    (call : SerialCall) :
    w.forget.serialCall pf env u call =
      ((w.serialCall pf env u call).1.forget, (w.serialCall pf env u call).2) := by
  have hdispatch : ∀ io, (w.backend u).dispatch pf env w.forget.units
      (fun serial s => call.perform pf serial s) io =
        (w.backend u).dispatch pf env w.units (fun serial s => call.perform pf serial s) io :=
    fun io => Backend.dispatch_congr pf env _ (fun _ _ => rfl) io
  have hbackend : w.forget.backend u = w.backend u := rfl
  have hio : ∀ port, w.forget.io port = w.io port := by
    rintro (_ | port) <;> rfl
  simp only [serialCall, forget_storePort, forget_storeBackend, hbackend, hdispatch, hio]
  rfl

/-- **Every operation but `begin()` and `config()`** commutes with forgetting the settings. -/
theorem step_forget (pf : Platform) (w : World) {c : Call} (hconfig : c.op.isConfig = false)
    (hbegin : ∀ u, c.op ≠ .begin u) :
    w.forget.step pf c = ((w.step pf c).1.forget, (w.step pf c).2) := by
  obtain ⟨op, env⟩ := c
  have henabled : w.forget.enabled op = w.enabled op := by cases op <;> rfl
  unfold step
  simp only [henabled]
  split
  · next hop =>
    cases op with
    | construct u kind => simp only [exec, forget, comp_update]; rfl
    | destroy u => rfl
    | moveConstruct src dst =>
        simp only [enabled, Bool.and_eq_true, Bool.not_eq_true'] at hop
        simp only [exec]
        rw [moveConstruct_eq_moved hop.2, moveConstruct_eq_moved (w := w.forget) hop.2,
          forget_moved]
    | moveAssign src dst =>
        simp only [enabled, Bool.and_eq_true, decide_eq_true_eq] at hop
        simp only [exec]
        by_cases hne : src = dst
        · subst hne
          rw [moveAssign_self, moveAssign_self]
        · rw [moveAssign_eq_moved hne hop.1.2 hop.2,
            moveAssign_eq_moved (w := w.forget) hne hop.1.2 hop.2, forget_moved]
    | installSerial u serial => simp only [exec, forget_installSerial]
    | setAdapter u ad => simp only [exec, forget_setUnit]; rfl
    | config u cfg => cases hconfig
    | configBase u cfg => cases hconfig
    | begin u => exact absurd rfl (hbegin u)
    | serial u call => exact forget_serialCall pf env w u call
    | uartDriver port installed txRingSize => simp only [exec, forget_storePort]; rfl
    | arrive port bytes => simp only [exec, forget_storePort]; rfl
    | transmit port n => simp only [exec, forget_storePort]; rfl
  · rfl

/-- **A `config()`** changes nothing but settings. -/
theorem config_forget (pf : Platform) (w : World) {c : Call} (hconfig : c.op.isConfig = true) :
    (w.step pf c).1.forget = w.forget := by
  have hself : ∀ u unit, unit.unset = (w.units u).unset → (w.setUnit u unit).forget = w.forget := by
    intro u unit hunit
    rw [forget_setUnit, hunit]
    exact setUnit_self w.forget u
  obtain ⟨op, env⟩ := c
  unfold step
  split
  · cases op <;> simp only [Op.isConfig, Bool.false_eq_true] at hconfig
    · exact hself _ _ rfl
    · exact hself _ _ rfl
  · rfl

/-! ## `begin()` -/

/-- The world with other units. -/
def withUnits (w : World) (units : UnitId → RS485Unit) : World := { w with units := units }

section WithUnits

variable {pf : Platform} (env : Env) {w : World} {u : UnitId} {units : UnitId → RS485Unit}

theorem withUnits_update {unit : RS485Unit} (h : units u = unit) :
    w.withUnits units = w.withUnits (update units u unit) := by
  rw [← h, update_eq_self]

/-- **`begin()`** reads and changes the fields of its own unit only. -/
theorem begin_withUnits (h : units u = w.units u) :
    begin pf env (w.withUnits units) u =
      ((begin pf env w u).1.withUnits (update units u ((begin pf env w u).1.units u)),
        (begin pf env w u).2) := by
  have hunits : (w.withUnits units).units u = w.units u := h
  have hready : adapterReady pf (w.withUnits units) u = adapterReady pf w u := by
    simp only [adapterReady, hunits]
    rfl
  have hdrained : drained env (w.withUnits units) = drained env w := rfl
  have hpinSetup : (w.withUnits units).pinSetup pf env u = w.pinSetup pf env u := by
    simp only [pinSetup, captured, hunits]
  have hbegun : ∀ (unit : RS485Unit) (port : Port),
      begun pf env (w.withUnits units) u unit port =
        (begun pf env w u unit port).withUnits
          (update units u ((begun pf env w u unit port).units u)) := by
    intro unit port
    rw [begun_units, update_self]
    simp [begun, withUnits, setUnit, installSerial, storePort]
    rfl
  cases hkind : (w.units u).kind with
  | sp485 =>
      have hkind' : ((w.withUnits units).units u).kind = .sp485 := by rw [hunits, hkind]
      rw [begin_sp485 env hkind, begin_sp485 env hkind']
      cases hs : adapterReady pf w u with
      | false =>
          rw [baseBegin_of_not_ready env hs, baseBegin_of_not_ready env (hready.trans hs)]
          exact Prod.ext (withUnits_update h) rfl
      | true =>
          obtain ⟨ad, had, hbegin⟩ := baseBegin_of_ready env hs
          obtain ⟨ad', had', hbegin'⟩ := baseBegin_of_ready env (hready.trans hs)
          obtain rfl : ad' = ad := Option.some.inj (had'.symm.trans (by rw [hunits, had]))
          rw [hbegin, hbegin', hunits, hbegun, hdrained]
  | sit3088 =>
      have hkind' : ((w.withUnits units).units u).kind = .sit3088 := by rw [hunits, hkind]
      cases hpin : pinRejected pf (w.units u).dirPin with
      | true =>
          rw [begin_rejected env hkind hpin, begin_rejected env hkind' (hunits ▸ hpin)]
          exact Prod.ext (withUnits_update h) rfl
      | false =>
          have hpin' : pinRejected pf ((w.withUnits units).units u).dirPin = false :=
            hunits ▸ hpin
          cases hs : adapterReady pf w u with
          | false =>
              rw [begin_failed env hkind hpin hs,
                begin_failed env hkind' hpin' (hready.trans hs), hpinSetup]
              simp only [rolledBack, setUnit, withUnits, update_self]
              rw [h]
          | true =>
              obtain ⟨ad, had, hbegin⟩ := begin_succeeded env hkind hpin hs
              obtain ⟨ad', had', hbegin'⟩ :=
                begin_succeeded env hkind' hpin' (hready.trans hs)
              obtain rfl : ad' = ad := Option.some.inj (had'.symm.trans (by rw [hunits, had]))
              have hcaptured : (w.withUnits units).captured u = w.captured u := by
                simp only [captured, hunits]
              rw [hbegin, hbegin', hunits, hcaptured, hbegun, hdrained, hpinSetup]

end WithUnits

end World

/-! ## Two runs -/

namespace World

/-- Worlds that are the same but for settings, and have the same settings for the unit, begin
it alike. -/
theorem begin_sameButSettings {pf : Platform} (env : Env) {w w' : World} {u : UnitId}
    (h : w.forget = w'.forget) (hconfig : w.getConfig u = w'.getConfig u) :
    (begin pf env w u).2 = (begin pf env w' u).2 ∧
      (begin pf env w u).1.forget = (begin pf env w' u).1.forget := by
  have hunset : RS485Unit.unset ∘ w.units = RS485Unit.unset ∘ w'.units :=
    congrArg World.units h
  -- blanked fields agree by the first assumption, settings by the second
  have hunit : w'.units u = w.units u := by
    have hfields : (w.units u).unset = (w'.units u).unset := congrFun hunset u
    have hcfg : (w'.units u).cfg = (w.units u).cfg :=
      (congrArg SIT3088ConfigT.toConfigT hconfig).symm
    have hpin : (w'.units u).dirPin = (w.units u).dirPin :=
      (congrArg SIT3088ConfigT.dirPin hconfig).symm
    cases hu : w.units u
    cases hu' : w'.units u
    simp_all [RS485Unit.unset]
  have hworld : w' = w.withUnits w'.units := by
    cases w
    cases w'
    simp_all [forget, withUnits]
  -- with its own units for the others, this says which unit `begin()` changes
  have hown : (begin pf env w u).1.units = update w.units u ((begin pf env w u).1.units u) :=
    congrArg (fun r => r.1.units) (begin_withUnits env (rfl : w.units u = w.units u))
  rw [hworld, begin_withUnits env hunit]
  refine ⟨rfl, ?_⟩
  have hunits : RS485Unit.unset ∘ (begin pf env w u).1.units =
      RS485Unit.unset ∘ update w'.units u ((begin pf env w u).1.units u) := by
    rw [hown, comp_update, comp_update, update_self, hunset]
  simp only [forget, withUnits, hunits]

end World

/-- What a `begin()` acts on: the settings last written. -/
def beginSettings (p : World × (UnitId → SIT3088ConfigT)) (c : Call) :
    Option SIT3088ConfigT :=
  match c.op with
  | .begin u => if p.1.live u then some (p.2 u) else none
  | _ => none

/-- The two worlds differ in settings only, and the history variable of each is right. -/
structure AlikeButSettings (p q : World × (UnitId → SIT3088ConfigT)) : Prop where
  left : p.1.getConfig = p.2
  right : q.1.getConfig = q.2
  forget : p.1.forget = q.1.forget

namespace AlikeButSettings

variable {pf : Platform} {p q : World × (UnitId → SIT3088ConfigT)} {c : Call}

theorem getConfig_configMachine (pf : Platform) (h : p.1.getConfig = p.2) (c : Call) :
    ((configMachine pf).step p c).1.1.getConfig = ((configMachine pf).step p c).1.2 := by
  simp only [configMachine, OutputMachine.withHistory_step, machine, World.getConfig_step, h]

theorem config_left (h : AlikeButSettings p q) (hc : (!c.op.isConfig) = false) :
    AlikeButSettings ((configMachine pf).step p c).1 q where
  left := getConfig_configMachine pf h.left c
  right := h.right
  forget := (World.config_forget pf p.1 (by simpa using hc)).trans h.forget

theorem config_right (h : AlikeButSettings p q) (hc : (!c.op.isConfig) = false) :
    AlikeButSettings p ((configMachine pf).step q c).1 where
  left := h.left
  right := getConfig_configMachine pf h.right c
  forget := h.forget.trans (World.config_forget pf q.1 (by simpa using hc)).symm

/-- An operation on both sides, with the same settings last written if it is a `begin()`. -/
theorem step (h : AlikeButSettings p q) (hc : (!c.op.isConfig) = true) :
    (beginSettings p c).isSome = (beginSettings q c).isSome ∧
      (beginSettings p c = beginSettings q c →
        ((configMachine pf).step p c).2 = ((configMachine pf).step q c).2 ∧
          AlikeButSettings ((configMachine pf).step p c).1 ((configMachine pf).step q c).1) := by
  have hlive : p.1.live = q.1.live := (congrArg World.live h.forget :)
  have hsame : beginSettings p c = beginSettings q c →
      (p.1.step pf c).2 = (q.1.step pf c).2 ∧
        (p.1.step pf c).1.forget = (q.1.step pf c).1.forget := by
    intro hlabel
    by_cases hbegin : ∀ u, c.op ≠ .begin u
    · have hconfig : c.op.isConfig = false := by simpa using hc
      have hstep := World.step_forget pf p.1 hconfig hbegin
      rw [h.forget, World.step_forget pf q.1 hconfig hbegin] at hstep
      exact ⟨(congrArg Prod.snd hstep).symm, (congrArg Prod.fst hstep).symm⟩
    · obtain ⟨u, hop⟩ := not_forall_not.mp hbegin
      obtain ⟨op, env⟩ := c
      obtain rfl : op = .begin u := hop
      have henabled : ∀ w : World, w.enabled (.begin u) = w.live u := fun _ => rfl
      simp only [beginSettings] at hlabel
      simp only [World.step, henabled, hlive] at hlabel ⊢
      cases hu : q.1.live u with
      | false => exact ⟨rfl, h.forget⟩
      | true =>
          simp only [hu, if_true, Option.some.injEq] at hlabel
          have hconfig : p.1.getConfig u = q.1.getConfig u := by rw [h.left, h.right, hlabel]
          obtain ⟨hout, hforget⟩ := World.begin_sameButSettings env h.forget hconfig
          simp only [if_true, World.exec]
          exact ⟨by rw [hout], hforget⟩
  refine ⟨?_, fun hlabel => ⟨(hsame hlabel).1, ?_⟩⟩
  · obtain ⟨op, env⟩ := c
    cases op <;> simp only [beginSettings]
    case begin u =>
      rw [hlive]
      split <;> rfl
  · exact
      { left := getConfig_configMachine pf h.left c
        right := getConfig_configMachine pf h.right c
        forget := (hsame hlabel).2 }

end AlikeButSettings

/-- **Configuration acts at `begin()` only, and has one home.**  Runs of the same operations
but for `config()`, with the same settings last written at every `begin()`, have the same
outcomes.  At every point both getters read what was last written through either class, and
no `config()` changes a captured pin or a backend. -/
theorem config_acts_at_begin (pf : Platform) (ports : Port → UartPort) :
    (∀ cs ds : List Call,
      cs.filter (fun c => !c.op.isConfig) = ds.filter (fun c => !c.op.isConfig) →
      (configMachine pf).collect (fun p c _ => beginSettings p c)
          (World.init ports, fun _ => {}) cs =
        (configMachine pf).collect (fun p c _ => beginSettings p c)
          (World.init ports, fun _ => {}) ds →
      (machine pf).collect (fun _ c o => if c.op.isConfig then none else some o)
          (World.init ports) cs =
        (machine pf).collect (fun _ c o => if c.op.isConfig then none else some o)
          (World.init ports) ds) ∧
    (∀ (cs : List Call) (u : UnitId),
      let p := (configMachine pf).after (World.init ports, fun _ => {}) cs
      p.1.getConfig u = p.2 u ∧ (p.1.getConfigBase u).flushRX = (p.2 u).flushRX) ∧
    ∀ (w : World) (c : Call), c.op.isConfig = true → ∀ u,
      ((w.step pf c).1.units u).configuredDirPin = (w.units u).configuredDirPin ∧
        (w.step pf c).1.backend u = w.backend u := by
  refine ⟨?_, ?_, ?_⟩
  · intro cs ds hsame hlabels
    -- both runs are watched by the history variable, which does not disturb them
    rw [← OutputMachine.collect_withHistory_fst _ lastWritten _
        (World.init ports, fun _ => ({} : SIT3088ConfigT)),
      ← OutputMachine.collect_withHistory_fst _ lastWritten _
        (World.init ports, fun _ => ({} : SIT3088ConfigT))]
    have hlabel : (fun p c (_ : Outcome) => beginSettings p c) =
        fun p c _ => if (!c.op.isConfig) = true then beginSettings p c else none := by
      funext p ⟨op, env⟩ _
      cases op <;> rfl
    have hobserve : (fun (_ : World × (UnitId → SIT3088ConfigT)) (c : Call) (o : Outcome) =>
        if c.op.isConfig = true then none else some o) =
          fun _ c o => if (!c.op.isConfig) = true then some o else none := by
      funext p c o
      cases c.op.isConfig <;> rfl
    rw [hlabel] at hlabels
    rw [hobserve]
    exact OutputMachine.collect_eq_of_unwinding (fun c => !c.op.isConfig) beginSettings
      (fun _ o => o) AlikeButSettings (fun p q c hc h => h.config_left hc)
      (fun p q c hc h => h.config_right hc) (fun p q c hc h => h.step hc) cs ds _ _
      ⟨rfl, rfl, rfl⟩ hsame hlabels
  · intro cs u p
    have hconfig : p.1.getConfig = p.2 :=
      OutputMachine.after_invariant (I := fun p => p.1.getConfig = p.2) (P := fun _ _ => True)
        (fun p c h _ => AlikeButSettings.getConfig_configMachine pf h c)
        rfl ((configMachine pf).along_of_all (fun _ _ => trivial) _ _)
    exact ⟨congrFun hconfig u, congrArg (fun cfg => (cfg u).flushRX) hconfig⟩
  · intro w c hc u
    have hforget := World.config_forget pf w hc
    refine ⟨(congrArg (fun w => (w.units u).configuredDirPin) hforget :), ?_⟩
    exact (congrArg (fun w => w.backend u) hforget :)

/-- A unit is set up by the settings in `before`, begins, is set up by those in `after`, and
writes a byte. -/
def configRun (before after : List SIT3088ConfigT) : List Call :=
  [⟨.construct 0 .sit3088, .calm⟩, ⟨.setAdapter 0 (some ⟨none, 1⟩), .calm⟩] ++
    before.map (fun cfg => ⟨.config 0 cfg, .calm⟩) ++ [⟨.begin 0, .calm⟩] ++
    after.map (fun cfg => ⟨.config 0 cfg, .calm⟩) ++ [⟨.serial 0 (.write 0x55), .calm⟩]

/-- Setting another pin before the one that counts is as good as setting it afterwards. -/
theorem config_sample_alike :
    (machine .esp32).collect (fun _ c o => if c.op.isConfig then none else some o)
        (World.init samplePorts) (configRun [{ dirPin := 7 }, { dirPin := 5 }] []) =
      (machine .esp32).collect (fun _ c o => if c.op.isConfig then none else some o)
        (World.init samplePorts) (configRun [{ dirPin := 5 }] [{ dirPin := 7 }]) :=
  (config_acts_at_begin .esp32 samplePorts).1 _ _ rfl (by decide)

end RS485
