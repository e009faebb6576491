import RS485.Binding
import RS485.IdfFifo

/-!
# What `begin()` does to pending input

A unit on the ESP-IDF backend has pending input: the byte its backend holds back, if any, and
the RX ring of the port.  `begin()` puts a new backend in the place of the old one, which
takes the held-back byte with it, and if `flushRX` is set it empties the ring for a hundred
milliseconds.  The last thing it does there is to wait for one, and what arrives in that time
stays.

`fate_of_pending_input` says exactly when `flushRX` alone decides what becomes of pending
input.  What the reads after `begin()` return is found from the input that is then pending by
`World.pending_conserved`, which holds for plain and for DIR-controlled backends.
-/

namespace RS485

/-! ## The drain loop -/

/-- The milliseconds that have elapsed when the drain loop looks at the clock before its
`i`-th iteration. -/
def Env.elapsed (env : Env) : ℕ → ℕ
  | 0 => env.startLag
  | i + 1 => env.elapsed i + 1 + env.delayLag i

/-- The `i`-th `delay(1)` is the last one. -/
def Env.IsLastDelay (env : Env) (i : ℕ) : Prop :=
  env.elapsed i < 100 ∧ 100 ≤ env.elapsed (i + 1)

namespace World

theorem drainLoop_of_le (env : Env) (port : Port) (fuel i : ℕ) {elapsed : ℕ}
    (h : 100 ≤ elapsed) (io : Io) : drainLoop env port fuel i elapsed io = io := by
  cases fuel with
  | zero => rfl
  | succ fuel => exact if_pos h

/-- The drain loop ends, and leaves in the ring what arrived during its last `delay(1)`. -/
theorem drainLoop_rx (env : Env) (port : Port) (fuel i : ℕ) (io : Io)
    (hstart : env.elapsed i < 100) (hfuel : 100 ≤ env.elapsed i + fuel) :
    ∃ k, env.IsLastDelay k ∧
      (drainLoop env port fuel i (env.elapsed i) io).uart.rx = env.delayArrivals k := by
  induction fuel generalizing i io with
  | zero => omega
  | succ fuel ih =>
      simp only [drainLoop, if_neg (not_le.mpr hstart)]
      have hnext : env.elapsed i + 1 + env.delayLag i = env.elapsed (i + 1) := rfl
      rw [hnext]
      -- the ring was emptied before the delay, so what is in it now arrived during it
      by_cases hlast : env.elapsed (i + 1) < 100
      · exact ih (i + 1) _ hlast (by omega)
      · refine ⟨i, ⟨hstart, not_lt.mp hlast⟩, ?_⟩
        rw [drainLoop_of_le env port fuel (i + 1) (not_lt.mp hlast)]
        simp [adapterFlushRX]

end World

theorem Env.elapsed_strictMono (env : Env) : StrictMono env.elapsed :=
  strictMono_nat_of_lt_succ fun i => by simp only [Env.elapsed]; omega

theorem Env.IsLastDelay.unique {env : Env} {i j : ℕ} (hi : env.IsLastDelay i)
    (hj : env.IsLastDelay j) : i = j := by
  have hle : ∀ {i j}, env.IsLastDelay i → env.IsLastDelay j → i ≤ j := by
    intro i j hi hj
    by_contra hlt
    have := env.elapsed_strictMono.monotone (not_le.mp hlt : j < i)
    exact absurd hi.1 (not_lt.mpr (le_trans hj.2 this))
  exact le_antisymm (hle hi hj) (hle hj hi)

/-! ## Pending input -/

namespace World

/-- The pending input of a unit on the ESP-IDF backend. -/
def pendingInput (w : World) (u : UnitId) : List Byte :=
  match (w.backend u).idfSerial with
  | some s => s.pending (w.ports s.port)
  | none => []

theorem pendingInput_of_idf {w : World} {u : UnitId} {s : IDFSerial}
    (h : (w.backend u).idfSerial = some s) : w.pendingInput u = s.pending (w.ports s.port) := by
  simp only [pendingInput, h]

end World

/-! ### What later reads return -/

namespace IDFSerial

variable (pf : Platform) (env : Env)

theorem receivedBytes_setTransmit (unit : RS485Unit) (level : Bool) :
    receivedBytes (UnitSIT3088.setTransmit pf env unit level) = [] := by
  unfold UnitSIT3088.setTransmit
  split
  · split <;> simp [Event.arrived]
  · rfl

theorem untouched_emit (s : IDFSerial) (io : Io) {events : List Event}
    (h : receivedBytes events = []) : Untouched (s, io) (s, io.emit events) :=
  ⟨rfl, rfl, by simp [h]⟩

/-- A write through the decorator leaves the pending input alone, as one through the base
does. -/
theorem untouched_dirControlled (unit : RS485Unit) {call : SerialCall} {b : Buffer} {wait : Bool}
    (hpayload : call.payload pf = some (b, wait)) (s : IDFSerial) (io : Io) :
    Untouched (s, io)
      (call.perform pf (UnitSIT3088.dirControlled pf env unit (iserial pf env)) (s, io)).1 := by
  have hwrite : Untouched (s, io) (RS485Component.writeBuf
      (UnitSIT3088.dirControlled pf env unit (iserial pf env)) b (s, io)).1 := by
    by_cases hempty : b.isNull ∨ b.size = 0
    · rw [SerialCall.writeBuf_of_empty hempty]
      exact ⟨rfl, rfl, rfl⟩
    · simp only [RS485Component.writeBuf, if_neg hempty, UnitSIT3088.dirControlled,
        UnitSIT3088.dirControlledWrite]
      refine (untouched_emit s io (receivedBytes_setTransmit pf env unit true)).trans ?_
      refine (untouched_writeBuf env s _ b).trans ?_
      refine (untouched_flush env _ _).trans ?_
      exact untouched_emit _ _ (receivedBytes_setTransmit pf env unit false)
  rw [SerialCall.perform_of_payload UnitSIT3088.dirControlled_write_byte hpayload]
  unfold SerialCall.send RS485Component.writeWaiting
  dsimp only
  split
  · split
    · exact hwrite.trans (untouched_flush env _ _)
    · exact hwrite
  · exact hwrite

/-- What a call through the decorator returns comes off the front of the pending input. -/
theorem dirControlled_conserves (unit : RS485Unit) (s : IDFSerial) (uart : UartPort)
    {call : SerialCall} (hcall : (Input.call call env).keepsStream = true) :
    let r := call.perform pf (UnitSIT3088.dirControlled pf env unit (iserial pf env))
      (s, ⟨uart, []⟩)
    s.pending uart ++ receivedBytes r.1.2.log =
      (Input.call call env).returned r.2 ++ r.1.1.pending r.1.2.uart := by
  intro r
  cases hpayload : call.payload pf with
  | none =>
      have hr : r = call.perform pf (iserial pf env) (s, ⟨uart, []⟩) :=
        UnitSIT3088.dirControlled_perform_of_quiet hpayload _
      rw [hr]
      exact step_conserves pf (s, uart) hcall
  | some p =>
      obtain ⟨hpeeked, hrx, hlog⟩ : Untouched (s, ⟨uart, []⟩) r.1 :=
        untouched_dirControlled pf env unit hpayload s ⟨uart, []⟩
      have hreturned : (Input.call call env).returned r.2 = [] := by
        cases call <;> simp only [SerialCall.payload, reduceCtorEq] at hpayload <;> rfl
      rw [hreturned]
      simp [pending, hpeeked, hrx, hlog]

end IDFSerial

namespace World

variable {pf : Platform} {w : World} {u : UnitId} {s : IDFSerial}

/-- A call of the unit returns from the front of its pending input, and leaves the rest. -/
theorem serialCall_conserves (howned : w.Owned) (hlive : w.live u = true)
    (hs : (w.backend u).idfSerial = some s) {call : SerialCall} {env : Env}
    (hcall : (IDFSerial.Input.call call env).keepsStream = true) :
    let r := w.serialCall pf env u call
    (∃ s', (r.1.backend u).idfSerial = some s' ∧ s'.port = s.port) ∧
      w.pendingInput u ++ receivedBytes r.2.events =
        (IDFSerial.Input.call call env).returned r.2.result ++ r.1.pendingInput u := by
  intro r
  obtain ⟨serial, hserial, hcalls⟩ := howned.serialCall_of_idf pf hlive hs env
  let p := call.perform pf serial (s, ⟨w.ports s.port, []⟩)
  obtain ⟨hs', hport, huart, hout⟩ : (r.1.backend u).idfSerial = some p.1.1 ∧
      p.1.1.port = s.port ∧ r.1.ports s.port = p.1.2.uart ∧ r.2 = ⟨p.2, p.1.2.log⟩ := hcalls call
  have hconserves : s.pending (w.ports s.port) ++ receivedBytes p.1.2.log =
      (IDFSerial.Input.call call env).returned p.2 ++ p.1.1.pending p.1.2.uart := by
    rcases hserial with rfl | ⟨unit, rfl⟩
    · exact IDFSerial.step_conserves pf (s, w.ports s.port) hcall
    · exact IDFSerial.dirControlled_conserves pf env unit s _ hcall
  refine ⟨⟨p.1.1, hs', hport⟩, ?_⟩
  rw [pendingInput_of_idf hs, pendingInput_of_idf hs', hport, huart, hout]
  exact hconserves

end World

/-- An operation of a unit, or an arrival at its port. -/
def IDFSerial.Input.onUnit (u : UnitId) (port : Port) : IDFSerial.Input → Call
  | .call c env => ⟨.serial u c, env⟩
  | .arrive bytes => ⟨.arrive port bytes, .calm⟩

/-- What the unit's reads return over a run of its own calls and arrivals at its port. -/
def returnedBytes (pf : Platform) (u : UnitId) (port : Port) (w : World)
    (later : List IDFSerial.Input) : List Byte :=
  (List.zipWith (fun i (o : Outcome) => i.returned o.result) later
    ((machine pf).outputs w (later.map (IDFSerial.Input.onUnit u port)))).flatten

/-- What arrives over the run. -/
def arrivedBytes (pf : Platform) (u : UnitId) (port : Port) (w : World)
    (later : List IDFSerial.Input) : List Byte :=
  receivedBytes (((machine pf).outputs w
    (later.map (IDFSerial.Input.onUnit u port))).flatMap Outcome.events)

/-- The pending input after the run. -/
def leftPending (pf : Platform) (u : UnitId) (port : Port) (w : World)
    (later : List IDFSerial.Input) : List Byte :=
  ((machine pf).after w (later.map (IDFSerial.Input.onUnit u port))).pendingInput u

/-- **Conservation**, over a run of the unit's calls. -/
theorem pending_conserved (pf : Platform) {u : UnitId} {port : Port}
    {later : List IDFSerial.Input} (hlater : ∀ i ∈ later, i.keepsStream = true) {w : World}
    {s : IDFSerial} (howned : w.Owned) (hlive : w.live u = true)
    (hs : (w.backend u).idfSerial = some s) (hport : s.port = port) :
    returnedBytes pf u port w later ++ leftPending pf u port w later =
      w.pendingInput u ++ arrivedBytes pf u port w later := by
  induction later generalizing w s with
  | nil => simp [returnedBytes, leftPending, arrivedBytes]
  | cons i later ih =>
      let r := w.step pf (i.onUnit u port)
      have hstep : (∃ s', (r.1.backend u).idfSerial = some s' ∧ s'.port = port) ∧
          r.1.live u = true ∧
          w.pendingInput u ++ receivedBytes r.2.events =
            i.returned r.2.result ++ r.1.pendingInput u := by
        cases i with
        | call c env =>
            have hkeeps := hlater _ (List.mem_cons_self ..)
            have hr : r = w.serialCall pf env u c := World.step_serial pf hlive c env
            rw [hr, ← hport]
            obtain ⟨hs', hconserves⟩ := World.serialCall_conserves howned hlive hs hkeeps
            exact ⟨hs', by simpa [World.serialCall] using hlive, hconserves⟩
        | arrive bytes =>
            have hr : r = w.exec pf .calm (.arrive port bytes) := rfl
            have hs' : (r.1.backend u).idfSerial = some s := by
              simpa [hr, World.exec] using hs
            refine ⟨⟨s, hs', hport⟩, by simpa [hr, World.exec] using hlive, ?_⟩
            rw [World.pendingInput_of_idf hs, World.pendingInput_of_idf hs', hr, hport]
            simp [World.exec, IDFSerial.pending, IDFSerial.Input.returned, Event.arrived]
      obtain ⟨⟨s', hs', hport'⟩, hlive', hconserves⟩ := hstep
      have hrest := ih (fun j hj => hlater j (List.mem_cons_of_mem _ hj))
        (howned.step pf (i.onUnit u port)) hlive' hs' hport'
      have hsplit : returnedBytes pf u port w (i :: later) =
          i.returned r.2.result ++ returnedBytes pf u port r.1 later := rfl
      have hleft : leftPending pf u port w (i :: later) = leftPending pf u port r.1 later := rfl
      have harrived : arrivedBytes pf u port w (i :: later) =
          receivedBytes r.2.events ++ arrivedBytes pf u port r.1 later := by
        simp [arrivedBytes, r, machine]
      rw [hsplit, hleft, harrived, List.append_assoc, ← List.append_assoc (w.pendingInput u),
        hconserves, List.append_assoc, ← hrest]

/-- What reads return from now on is found from what is pending now. -/
theorem reads_iff_pending (pf : Platform) {u : UnitId} {w : World} {s : IDFSerial}
    (howned : w.Owned) (hlive : w.live u = true) (hs : (w.backend u).idfSerial = some s)
    (q : List Byte) :
    (∀ later : List IDFSerial.Input, (∀ i ∈ later, i.keepsStream = true) →
      returnedBytes pf u s.port w later ++ leftPending pf u s.port w later =
        q ++ arrivedBytes pf u s.port w later) ↔ w.pendingInput u = q := by
  constructor
  · intro h
    simpa [returnedBytes, leftPending, arrivedBytes] using h [] (by simp)
  · rintro rfl later hlater
    exact pending_conserved pf hlater howned hlive hs rfl

/-! ## The fate of pending input -/

namespace World

/-- What a successful `begin()` leaves on ESP-IDF: a backend without a held-back byte over
the adapter's port, drained. -/
theorem begin_idf_of_true {pf : Platform} (hidf : pf.framework = .espIdf) {env : Env}
    {w : World} {u : UnitId} (hok : (begin pf env w u).2.2 = true) :
    ∃ ad s, (w.units u).adapter = some ad ∧
      ((begin pf env w u).1.backend u).idfSerial = some s ∧ s.port = ad.uartPort ∧
      s.peeked = none ∧
      (begin pf env w u).1.ports ad.uartPort =
        (drained env w (w.units u).cfg.flushRX ad.uartPort).uart := by
  have hbegun : ∀ (unit : RS485Unit) (ad : AdapterUART), unit.cfg = (w.units u).cfg →
      (w.units u).adapter = some ad →
      ∃ ad' s, (w.units u).adapter = some ad' ∧
        ((begun pf env w u unit (ad.line pf.framework)).backend u).idfSerial = some s ∧
        s.port = ad'.uartPort ∧ s.peeked = none ∧
        (begun pf env w u unit (ad.line pf.framework)).ports ad'.uartPort =
          (drained env w (w.units u).cfg.flushRX ad'.uartPort).uart := by
    intro unit ad hcfg had
    have hline : ad.line pf.framework = ad.uartPort := by
      simp [AdapterUART.line, hidf, Framework.arduino]
    refine ⟨ad, { port := ad.uartPort }, had, ?_, rfl, rfl, ?_⟩
    · rw [backend_begun_self, hline, newBackend_idfSerial]
      simp [hidf, Framework.arduino]
    · simp [hline, hcfg]
  have hbegin := begin_step pf env w u
  generalize begin pf env w u = r at hbegin hok ⊢
  cases hbegin with
  | unready => cases hok
  | rejected => cases hok
  | failed => cases hok
  | plain ad hkind had => exact hbegun (w.units u) ad rfl had
  | controlled ad hkind hpin had => exact hbegun (w.captured u) ad rfl had

/-- A `begin()` that fails changes neither backends nor ports. -/
theorem begin_frame_of_false {pf : Platform} {env : Env} {w : World} {u : UnitId}
    (hfail : (begin pf env w u).2.2 = false) :
    (begin pf env w u).1.backend u = w.backend u ∧ (begin pf env w u).1.ports = w.ports := by
  have hbegin := begin_step pf env w u
  generalize begin pf env w u = r at hbegin hfail ⊢
  cases hbegin with
  | unready => exact ⟨rfl, rfl⟩
  | rejected => exact ⟨rfl, rfl⟩
  | failed => exact ⟨backend_setUnit (rolledBack_serial w u), rfl⟩
  | plain => cases hfail
  | controlled => cases hfail

end World

/-- `flushRX` alone decides the fate of what is pending at a `begin()` of the unit `u`.  If
`begin()` succeeds with it set, what reads return afterwards has arrived afterwards; if it
succeeds without, the reads return what was pending and then what arrives; and if it fails it
changes nothing. -/
structure FlushRXDecides (pf : Platform) (env : Env) (w : World) (u : UnitId) (port : Port) :
    Prop where
  flushed : (w.begin pf env u).2.2 = true → (w.units u).cfg.flushRX = true →
    ∀ later : List IDFSerial.Input, (∀ i ∈ later, i.keepsStream = true) →
      returnedBytes pf u port (w.begin pf env u).1 later ++
          leftPending pf u port (w.begin pf env u).1 later =
        arrivedBytes pf u port (w.begin pf env u).1 later
  kept : (w.begin pf env u).2.2 = true → (w.units u).cfg.flushRX = false →
    ∀ later : List IDFSerial.Input, (∀ i ∈ later, i.keepsStream = true) →
      returnedBytes pf u port (w.begin pf env u).1 later ++
          leftPending pf u port (w.begin pf env u).1 later =
        w.pendingInput u ++ arrivedBytes pf u port (w.begin pf env u).1 later
  failed : (w.begin pf env u).2.2 = false →
    (w.begin pf env u).1.backend u = w.backend u ∧ (w.begin pf env u).1.ports = w.ports

/-- For a `begin()` that succeeds it is a matter of what is pending afterwards. -/
theorem flushRXDecides_iff {pf : Platform} {env : Env} {w : World} {u : UnitId} {s : IDFSerial}
    (howned : (w.begin pf env u).1.Owned) (hlive : (w.begin pf env u).1.live u = true)
    (hs : ((w.begin pf env u).1.backend u).idfSerial = some s)
    (hok : (w.begin pf env u).2.2 = true) :
    FlushRXDecides pf env w u s.port ↔
      ((w.units u).cfg.flushRX = true → (w.begin pf env u).1.pendingInput u = []) ∧
        ((w.units u).cfg.flushRX = false →
          (w.begin pf env u).1.pendingInput u = w.pendingInput u) := by
  have hreads := reads_iff_pending pf howned hlive hs
  constructor
  · intro h
    exact ⟨fun hflush => (hreads []).mp (h.flushed hok hflush),
      fun hflush => (hreads _).mp (h.kept hok hflush)⟩
  · rintro ⟨hflushed, hkept⟩
    exact
      { flushed := fun _ hflush => (hreads []).mpr (hflushed hflush)
        kept := fun _ hflush => (hreads _).mpr (hkept hflush)
        failed := fun hfail => by simp [hok] at hfail }

/-- **The fate of pending input.**  A unit of a reachable world has an ESP-IDF backend and
begins again on the same port, with a drain loop that gets to run.  `flushRX` alone decides
the fate of what is pending exactly if the checks of `begin()` turn the unit down, or `flushRX`
is not set and no byte is held back, or it is set and no byte arrives in the last `delay(1)`
of the drain loop. -/
theorem fate_of_pending_input (pf : Platform) (hidf : pf.framework = .espIdf)
    (ports : Port → UartPort) (calls : List Call) (u : UnitId) (s : IDFSerial) (env : Env)
    (hstart : env.startLag < 100) :
    let w := (machine pf).after (World.init ports) calls
    w.live u = true → (w.backend u).idfSerial = some s →
    (∀ ad, (w.units u).adapter = some ad → ad.uartPort = s.port) →
    (FlushRXDecides pf env w u s.port ↔
      (World.Accepted pf w u →
        ((w.units u).cfg.flushRX = false → s.peeked = none) ∧
        ((w.units u).cfg.flushRX = true →
          ∀ i, env.IsLastDelay i → env.delayArrivals i = []))) := by
  intro w hlive hs hadapter
  have howned : w.Owned := owned_after pf ports calls
  have howned' : (w.begin pf env u).1.Owned := by
    have hstep := howned.step pf ⟨.begin u, env⟩
    have hr : (w.step pf ⟨.begin u, env⟩).1 = (w.begin pf env u).1 := by
      simp [World.step, World.enabled, hlive, World.exec]
    rwa [hr] at hstep
  cases hok : (w.begin pf env u).2.2 with
  | true =>
      obtain ⟨ad, s', had, hs', hport, hpeeked, hports⟩ := World.begin_idf_of_true hidf hok
      have haccepted := (World.begin_eq_true_iff pf env w u).mp hok
      rw [hadapter ad had] at hport hports
      have hlive' : (w.begin pf env u).1.live u = true := by rwa [World.begin_live]
      have hafter : (w.begin pf env u).1.pendingInput u =
          (World.drained env w (w.units u).cfg.flushRX s.port).uart.rx := by
        rw [World.pendingInput_of_idf hs', hport, hports]
        simp [IDFSerial.pending, hpeeked]
      have hbefore : w.pendingInput u = s.peeked.toList ++ (w.ports s.port).rx :=
        World.pendingInput_of_idf hs
      -- a new backend holds nothing back, so what is pending is what is in the ring
      rw [← hport, flushRXDecides_iff howned' hlive' hs' hok, hafter, hbefore]
      simp only [haccepted, true_implies]
      cases (w.units u).cfg.flushRX with
      | true =>
          obtain ⟨k, hlast, hrx⟩ :=
            World.drainLoop_rx env s.port 100 0 (w.io (some s.port)) hstart (by omega)
          have hdrained : (World.drained env w true s.port).uart.rx = env.delayArrivals k := hrx
          rw [hdrained]
          constructor
          · rintro ⟨hnone, -⟩
            exact ⟨fun hf => absurd hf (by decide), fun _ i hi => hi.unique hlast ▸ hnone rfl⟩
          · rintro ⟨-, hnone⟩
            exact ⟨fun _ => hnone rfl k hlast, fun hf => absurd hf (by decide)⟩
      | false =>
          have hdrained : (World.drained env w false s.port).uart.rx = (w.ports s.port).rx := rfl
          rw [hdrained]
          -- the ring is as it was, so what has gone is the held-back byte
          constructor
          · rintro ⟨-, hall⟩
            exact ⟨fun _ => Option.toList_eq_nil_iff.mp (List.self_eq_append_left.mp (hall rfl)),
              fun hf => absurd hf (by decide)⟩
          · rintro ⟨hnone, -⟩
            refine ⟨fun hf => absurd hf (by decide), fun _ => ?_⟩
            rw [hnone rfl]
            rfl
  | false =>
      have hrejected : ¬ World.Accepted pf w u := by
        rw [← World.begin_eq_true_iff pf env, hok]
        exact Bool.false_ne_true
      refine iff_of_true ?_ fun h => absurd h hrejected
      exact ⟨fun h => by simp [hok] at h, fun h => by simp [hok] at h,
        World.begin_frame_of_false⟩

/-- A unit begins on port 1 without `flushRX`, and two bytes arrive. -/
def pendingRun : List Call :=
  [⟨.construct 0 .sit3088, .calm⟩, ⟨.setAdapter 0 (some ⟨none, 1⟩), .calm⟩,
    ⟨.config 0 { flushRX := false, dirPin := 5 }, .calm⟩, ⟨.begin 0, .calm⟩,
    ⟨.arrive 1 [1, 2], .calm⟩]

theorem fate_of_sample_input :
    FlushRXDecides .esp32 .calm ((machine .esp32).after (World.init samplePorts) pendingRun) 0 1 :=
  (fate_of_pending_input .esp32 rfl samplePorts pendingRun 0 { port := 1 } .calm (by decide)
    (by decide) (by decide) (fun ad had => by obtain rfl := Option.some.inj had; rfl)).mpr
    fun _ => ⟨fun _ => rfl, fun h => absurd h (by decide)⟩

/-- If the unit then peeks before it begins again, the first byte is lost. -/
theorem peeked_byte_lost :
    let w := (machine .esp32).after (World.init samplePorts)
      (pendingRun ++ [⟨.serial 0 .peek, .calm⟩])
    let w' := (w.begin .esp32 .calm 0).1
    (w.begin .esp32 .calm 0).2.2 = true ∧ (w.units 0).cfg.flushRX = false ∧
      w.pendingInput 0 = [1, 2] ∧
      (w.step .esp32 ⟨.serial 0 .read, .calm⟩).2.result = .int 1 ∧
      (w'.step .esp32 ⟨.serial 0 .read, .calm⟩).2.result = .int 2 ∧
      ¬ FlushRXDecides .esp32 .calm w 0 1 := by
  intro w w'
  refine ⟨by decide, by decide, by decide, rfl, rfl, fun h => ?_⟩
  have hkept := h.kept (by decide) (by decide) [] (by simp)
  revert hkept
  decide

end RS485
