import RS485.Binding

/-!
# How many bytes `availableForWrite()` promises

The driver reports a free size of zero for a full TX ring as for no ring at all.  A backend
that has once been told of free space knows that there is a ring, and answers zero from then
on when it is full; before that it answers the length of the hardware FIFO.  What it knows
goes with the backend: a move takes it along, a successful `begin()` starts anew, and a
backend that is installed ready-made comes with what it knows.

`ringSeen` is that knowledge as a history variable of the run, so that
`availableForWrite_within_ring` can say exactly when an answer stays within the free space of
the ring.
-/

namespace RS485

open Function

/-! ## What a backend has been told -/

/-- For each unit: has its backend been told of free space in the TX ring? -/
def ringSeen (seen : UnitId → Bool) (w : World) (c : Call) (_ : World) (o : Outcome) :
    UnitId → Bool :=
  if w.enabled c.op then
    match c.op, o.result with
    | .construct u _, _ | .begin u, .flag true => update seen u false
    | .installSerial u (some b), _ =>
        update seen u ((b.idfSerial.map IDFSerial.txRingSeen).getD false)
    | .moveConstruct src dst, _ | .moveAssign src dst, _ =>
        if src = dst then seen else update seen dst (seen src)
    | .serial u .availableForWrite, _ =>
        match (w.backend u).idfSerial with
        | some s => update seen u (seen u || decide (0 < (w.ports s.port).txRingFree))
        | none => seen
    | _, _ => seen
  else seen

theorem ringSeen_serial_of_ne {seen : UnitId → Bool} {w w' : World} {c : Call} {o : Outcome}
    {v : UnitId} {call : SerialCall} (hop : c.op = .serial v call)
    (hcall : call ≠ .availableForWrite) : ringSeen seen w c w' o = seen := by
  unfold ringSeen
  rw [hop]
  cases call <;> first | exact absurd rfl hcall | simp

theorem ringSeen_availableForWrite {seen : UnitId → Bool} {w w' : World} {c : Call}
    {o : Outcome} {v : UnitId} (hop : c.op = .serial v .availableForWrite)
    (hlive : w.live v = true) :
    ringSeen seen w c w' o =
      match (w.backend v).idfSerial with
      | some s => update seen v (seen v || decide (0 < (w.ports s.port).txRingFree))
      | none => seen := by
  unfold ringSeen
  rw [hop]
  exact if_pos hlive

/-- The program with what its backends have been told. -/
def ringMachine (pf : Platform) : OutputMachine (World × (UnitId → Bool)) Call Outcome :=
  (machine pf).withHistory ringSeen

/-- Each ESP-IDF backend remembers what it has been told. -/
structure RingKnown (p : World × (UnitId → Bool)) : Prop where
  owned : p.1.Owned
  known : ∀ u, p.1.live u = true → ∀ s, (p.1.backend u).idfSerial = some s →
    s.txRingSeen = p.2 u

/-! ## One call -/

namespace IDFSerial

variable (pf : Platform) (env : Env)

/-- The answer, and what the backend then knows. -/
theorem availableForWrite_eq (henv : env.txBufferFreeSize = true) (s : IDFSerial) (io : Io) :
    availableForWrite pf env (s, io) =
      (({ s with txRingSeen := s.txRingSeen || decide (0 < io.uart.txRingFree) },
          io.emit [.txBufferFreeSize s.port]),
        ((if 0 < io.uart.txRingFree then io.uart.txRingFree
          else if s.txRingSeen then 0 else pf.uartFifoLen : ℕ) : ℤ)) := by
  unfold availableForWrite uartGetTxBufferFreeSize
  by_cases hfree : 0 < io.uart.txRingFree
  · simp [henv, hfree]
  · cases hseen : s.txRingSeen <;> simp [henv, hfree, hseen] <;> cases s <;> simp_all

end IDFSerial

namespace SerialCall

/-- Only `availableForWrite` calls the backend's `availableForWrite`, so any other call
respects what the rest of the functions respect. -/
theorem perform_steps_of_ne {σ : Type} {pf : Platform} {serial : ISerial σ} {R : σ → σ → Prop}
    {call : SerialCall} (hcall : call ≠ .availableForWrite) (hrefl : ∀ s, R s s)
    (htrans : ∀ {s t u}, R s t → R t u → R s u)
    (hserial : ({ serial with availableForWrite := fun s => (s, 0) } : ISerial σ).Steps R)
    (hbyte : ∀ d s, serial.write d s = serial.writeBuf (.mem [d]) s) (s : σ) :
    R s (call.perform pf serial s).1 := by
  have hperform : call.perform pf serial s =
      call.perform pf { serial with availableForWrite := fun s => (s, 0) } s := by
    cases call <;> first | rfl | exact absurd rfl hcall
  rw [hperform]
  exact call.perform_steps hrefl htrans hserial hbyte s

end SerialCall

namespace Backend

variable (pf : Platform) (env : Env) (units : UnitId → RS485Unit)

/-- No call but `availableForWrite` changes what an ESP-IDF backend knows of the TX ring. -/
theorem txRingSeen_dispatch {call : SerialCall} (hcall : call ≠ .availableForWrite)
    (b : Backend) (io : Io) :
    ((b.dispatch pf env units (fun serial s => call.perform pf serial s) io).1.idfSerial).map
        IDFSerial.txRingSeen = b.idfSerial.map IDFSerial.txRingSeen := by
  let R : IDFSerial × Io → IDFSerial × Io → Prop :=
    fun s t => t.1.txRingSeen = s.1.txRingSeen
  have hrefl : ∀ s, R s s := fun _ => rfl
  have htrans : ∀ {s t u}, R s t → R t u → R s u := fun h h' => Eq.trans h' h
  have hbase := (IDFSerial.steps_sameButPeeked pf env).mono (Q := R)
    fun _ _ h => (congrArg IDFSerial.txRingSeen h :)
  cases b with
  | nullSerial => rfl
  | hs s => rfl
  | dirHS s owner => rfl
  | idf s =>
      exact congrArg some (SerialCall.perform_steps_of_ne hcall hrefl htrans hbase
        (IDFSerial.write_byte pf env) (s, io))
  | dirIDF s owner =>
      exact congrArg some (SerialCall.perform_steps_of_ne hcall hrefl htrans
        (UnitSIT3088.dirControlled_steps hrefl htrans hbase fun _ _ _ => rfl)
        UnitSIT3088.dirControlled_write_byte (s, io))

/-- The answer, and what the backend then knows. -/
theorem dispatch_availableForWrite (henv : env.txBufferFreeSize = true) {b : Backend}
    {s : IDFSerial} (hs : b.idfSerial = some s) (io : Io) :
    let r := b.dispatch pf env units
      (fun serial s => SerialCall.availableForWrite.perform pf serial s) io
    r.1.idfSerial =
        some { s with txRingSeen := s.txRingSeen || decide (0 < io.uart.txRingFree) } ∧
      r.2.2 = .int (if 0 < io.uart.txRingFree then io.uart.txRingFree
        else if s.txRingSeen then 0 else pf.uartFifoLen : ℕ) := by
  have hanswer := IDFSerial.availableForWrite_eq pf env henv s io
  obtain ⟨hs', hr⟩ := dispatch_of_quiet pf env units hs
    (show SerialCall.availableForWrite.payload pf = none from rfl) io
  refine ⟨hs'.trans ?_, (congrArg Prod.snd hr).trans ?_⟩
  · exact congrArg (fun r : (IDFSerial × Io) × ℤ => some r.1.1) hanswer
  · exact congrArg (fun r : (IDFSerial × Io) × ℤ => Result.int r.2) hanswer

end Backend

/-! ## Runs -/

namespace RingKnown

theorem init (ports : Port → UartPort) : RingKnown (World.init ports, fun _ => false) where
  owned := owned_after (.esp32) ports []
  known u hu := by cases hu

/-- **Every step** leaves the backends with what they have been told. -/
theorem step (pf : Platform) {p : World × (UnitId → Bool)} (h : RingKnown p) {c : Call}
    (henv : c.env.txBufferFreeSize = true) :
    RingKnown ((ringMachine pf).step p c).1 := by
  obtain ⟨w, seen⟩ := p
  refine ⟨h.owned.step pf c, ?_⟩
  have hknown : ∀ u, w.live u = true → ∀ s, (w.backend u).idfSerial = some s →
      s.txRingSeen = seen u := h.known
  have howned : w.Owned := h.owned
  simp only [ringMachine, machine, OutputMachine.withHistory_step]
  have heffect := World.step_effect pf w c
  generalize w.step pf c = r at heffect
  -- a backend that has not changed, with a history that has not either
  have hkeep : ∀ {w' : World} {seen' : UnitId → Bool} {u : UnitId}, w.live u = true →
      w'.backend u = w.backend u → seen' u = seen u → ∀ s,
      (w'.backend u).idfSerial = some s → s.txRingSeen = seen' u := by
    intro w' seen' u hu hbackend hseen s hs
    rw [hseen]
    exact hknown u hu s (hbackend ▸ hs)
  intro u hu
  cases heffect with
  | rejected hop =>
      refine hkeep hu rfl ?_
      simp [ringSeen, hop]
  | construct v kind hop hlive =>
      by_cases huv : u = v
      · intro s hs
        rw [World.backend_of_fallback (by simp [huv, RS485Unit.fresh])] at hs
        cases hs
      · refine hkeep (by simpa [huv] using hu) (World.backend_construct_other huv) ?_
        simp [ringSeen, hop, World.enabled, hlive, huv]
  | destroy v hop hlive =>
      have huv : u ≠ v := by
        rintro rfl
        simp at hu
      refine hkeep (by simpa [huv] using hu) rfl ?_
      simp [ringSeen, hop]
  | move src dst hop hsrc hne =>
      have hseen : ∀ v, ringSeen seen w c (World.moved pf w src dst) ⟨.done, []⟩ v =
          update seen dst (seen src) v := by
        intro v
        rcases hop with ⟨hop, hdst⟩ | ⟨hop, hdst, hkind⟩
        · simp [ringSeen, hop, World.enabled, hsrc, hdst, hne]
        · simp [ringSeen, hop, World.enabled, hsrc, hdst, hkind, hne]
      rw [hseen]
      by_cases hud : u = dst
      · subst hud
        intro s hs
        rw [howned.backend_moved_target hsrc] at hs
        rw [update_self]
        exact hknown src hsrc s (by simpa using hs)
      · by_cases hus : u = src
        · subst hus
          intro s hs
          rw [World.backend_moved_source hne] at hs
          cases hs
        · have hu' : w.live u = true := by simpa [hud] using hu
          exact hkeep hu' (howned.backend_moved_other hsrc hu' hus hud) (by simp [hud])
  | moveSelf v hop =>
      refine hkeep hu rfl ?_
      simp [ringSeen, hop]
  | install v serial hop hlive =>
      cases serial with
      | none =>
          refine hkeep hu rfl ?_
          simp [ringSeen, hop]
      | some b =>
          have hu' : w.live u = true := by simpa using hu
          by_cases huv : u = v
          · subst huv
            intro s hs
            rw [World.backend_install_self] at hs
            simp [ringSeen, hop, World.enabled, hlive, hs]
          · refine hkeep hu' (howned.backend_install_other hu' huv (some b)) ?_
            simp [ringSeen, hop, World.enabled, hlive, huv]
  | settings v unit hop hkind hserial hpin =>
      refine hkeep hu (World.backend_setUnit hserial) ?_
      rcases hop with ⟨ad, hop⟩ | ⟨cfg, hop⟩ | ⟨cfg, hop⟩ <;> simp [ringSeen, hop]
  | begin v hop hlive r hbegin =>
      have hbegun : ∀ (unit : RS485Unit) (port : Port) (events : List Event) (s : IDFSerial),
          ((World.begun pf c.env w v unit port).backend u).idfSerial = some s →
          w.live u = true →
          s.txRingSeen =
            ringSeen seen w c (World.begun pf c.env w v unit port) ⟨.flag true, events⟩ u := by
        intro unit port events s hs hu'
        by_cases huv : u = v
        · subst huv
          rw [World.backend_begun_self, World.newBackend_idfSerial] at hs
          have hfresh : s.txRingSeen = false := by
            cases harduino : pf.framework.arduino with
            | true => simp [harduino] at hs
            | false =>
                simp only [harduino, Bool.false_eq_true, if_false, Option.some.injEq] at hs
                rw [← hs]
          simp [ringSeen, hop, World.enabled, hlive, hfresh]
        · rw [howned.backend_begun_other hu' huv] at hs
          simpa [ringSeen, hop, World.enabled, hlive, huv] using hknown u hu' s hs
      -- a `begin()` that fails keeps the backend, and with it what that knows
      have hfail : ∀ (w' : World) (events : List Event), w'.backend u = w.backend u →
          w.live u = true → ∀ s, (w'.backend u).idfSerial = some s →
          s.txRingSeen = ringSeen seen w c w' ⟨.flag false, events⟩ u := by
        intro w' events hbackend hu'
        refine hkeep hu' hbackend ?_
        simp [ringSeen, hop]
      cases hbegin with
      | unready => exact hfail w _ rfl hu
      | rejected => exact hfail w _ rfl hu
      | failed => exact hfail _ _ (World.backend_setUnit (World.rolledBack_serial w v)) hu
      | plain => exact fun s hs => hbegun _ _ _ s hs (by simpa using hu)
      | controlled => exact fun s hs => hbegun _ _ _ s hs (by simpa using hu)
  | call v call hop hlive =>
      have hu' : w.live u = true := by simpa [World.serialCall] using hu
      by_cases huv : u = v
      · subst huv
        intro s hs
        rw [howned.backend_serialCall_self hlive] at hs
        by_cases hcall : call = .availableForWrite
        · subst hcall
          rw [ringSeen_availableForWrite hop hlive]
          cases hb : (w.backend u).idfSerial with
          -- no call turns another backend into one on ESP-IDF
          | none =>
              have hnone := Backend.isSome_idfSerial_dispatch pf c.env w.units
                (fun serial s => SerialCall.availableForWrite.perform pf serial s) (w.backend u)
                (w.io (w.backend u).port)
              rw [hs, hb] at hnone
              cases hnone
          | some s₀ =>
              obtain ⟨hnext, -⟩ := Backend.dispatch_availableForWrite pf c.env w.units henv hb
                (w.io (w.backend u).port)
              obtain rfl := Option.some.inj (hnext.symm.trans hs)
              simp only [update_self, hknown u hlive s₀ hb, Backend.port_of_idfSerial hb]
              rfl
        · have hsame := Backend.txRingSeen_dispatch pf c.env w.units hcall (w.backend u)
            (w.io (w.backend u).port)
          rw [hs] at hsame
          obtain ⟨s', hs', hseen⟩ := Option.map_eq_some_iff.mp hsame.symm
          rw [← hseen, hknown u hlive s' hs', ringSeen_serial_of_ne hop hcall]
      · refine hkeep hu' (howned.backend_serialCall_other hlive hu' huv call) ?_
        by_cases hcall : call = .availableForWrite
        · subst hcall
          rw [ringSeen_availableForWrite hop hlive]
          split <;> simp [huv]
        · rw [ringSeen_serial_of_ne hop hcall]
  | uartDriver port installed txRingSize hop =>
      refine hkeep (by simpa [World.exec] using hu) (by simp [World.exec]) ?_
      simp [ringSeen, hop]
  | arrive port bytes hop =>
      refine hkeep (by simpa [World.exec] using hu) (by simp [World.exec]) ?_
      simp [ringSeen, hop]
  | transmit port n hop =>
      refine hkeep (by simpa [World.exec] using hu) (by simp [World.exec]) ?_
      simp [ringSeen, hop]

end RingKnown

theorem answer_le_iff {free fifoLen : ℕ} (hfifo : 0 < fifoLen) {seen : Bool} :
    (if 0 < free then free else if seen then 0 else fifoLen) ≤ free ↔
      0 < free ∨ seen = true := by
  by_cases hfree : 0 < free
  · simp [hfree]
  · cases seen with
    | true => simp [hfree]
    | false => simpa [hfree] using Nat.not_le.mp fun h => hfree (Nat.lt_of_lt_of_le hfifo h)

/-- The answer of a unit on an ESP-IDF backend. -/
theorem World.availableForWrite_result (pf : Platform) {w : World} {u : UnitId}
    (hlive : w.live u = true) {s : IDFSerial} (hs : (w.backend u).idfSerial = some s) {env : Env}
    (henv : env.txBufferFreeSize = true) :
    let free := (w.ports s.port).txRingFree
    (w.step pf ⟨.serial u .availableForWrite, env⟩).2.result =
      .int (if 0 < free then free else if s.txRingSeen then 0 else pf.uartFifoLen : ℕ) := by
  intro free
  have hanswer := (Backend.dispatch_availableForWrite pf env w.units henv hs
    (w.io (w.backend u).port)).2
  have hfree : (w.io (w.backend u).port).uart.txRingFree = free := by
    rw [Backend.port_of_idfSerial hs]
    rfl
  rw [hfree] at hanswer
  rw [World.step_serial pf hlive]
  exact hanswer

/-- **How much `availableForWrite()` promises.**  In a run in which the driver always reports
the free size, the answer of a unit on an ESP-IDF backend is the free space of the ring, as
long as there is any.  When there is none it is zero if the backend has been told of free
space before, and the length of the hardware FIFO otherwise.  So it is within the free space
exactly if there is some or the backend has been told of some. -/
theorem availableForWrite_within_ring (pf : Platform) (ports : Port → UartPort)
    (calls : List Call)
    (hcalls : ∀ c ∈ calls, c.env.txBufferFreeSize = true) :
    (ringMachine pf).Along
      (fun p c => ∀ u s, c.op = .serial u .availableForWrite → p.1.live u = true →
        (p.1.backend u).idfSerial = some s →
        let free := (p.1.ports s.port).txRingFree
        ∃ n : ℕ, (p.1.step pf c).2.result = .int n ∧
          n = (if 0 < free then free else if p.2 u then 0 else pf.uartFifoLen) ∧
          (n ≤ free ↔ 0 < free ∨ p.2 u = true))
      (World.init ports, fun _ => false) calls := by
  refine OutputMachine.along_of_invariant (I := RingKnown)
    (P := fun _ c => c.env.txBufferFreeSize = true) (fun p c h hc => h.step pf hc) ?_
    (.init ports)
    ((ringMachine pf).along_of_forall hcalls _)
  rintro ⟨w, seen⟩ ⟨op, env⟩ h henv u s hop hlive hs free
  obtain rfl : op = .serial u .availableForWrite := hop
  have hanswer := World.availableForWrite_result pf hlive hs henv
  have hseen : s.txRingSeen = seen u := h.known u hlive s hs
  rw [hseen] at hanswer
  exact ⟨_, hanswer, rfl, answer_le_iff pf.uartFifoLen_pos⟩

/-- As much as the hardware FIFO takes, and 256 bytes more. -/
def ringFilling : List Byte := List.replicate 384 1

/-- A unit begins on port 1, which has a TX ring of 256 bytes, asks for its free space and fills
it. -/
def fullRingRun : List Call :=
  [⟨.construct 0 .sp485, .calm⟩, ⟨.uartDriver 1 true 256, .calm⟩,
    ⟨.setAdapter 0 (some ⟨none, 1⟩), .calm⟩, ⟨.begin 0, .calm⟩,
    ⟨.serial 0 .availableForWrite, .calm⟩,
    ⟨.serial 0 (.writeBuf (.mem ringFilling)),
      { Env.calm with accepted := some 384, ringUsed := 256 }⟩]

/-- The backend has been told of free space, so its next answer is zero. -/
theorem availableForWrite_sample :
    let w := (machine .esp32).after (World.init samplePorts) fullRingRun
    (w.ports 1).txRingFree = 0 ∧
      (w.step .esp32 ⟨.serial 0 .availableForWrite, .calm⟩).2.result = .int 0 := by
  intro w
  have hfull : (w.ports 1).txRingFree = 0 := by decide +kernel
  have hcalls : ∀ c ∈ fullRingRun ++ [⟨.serial 0 .availableForWrite, .calm⟩],
      c.env.txBufferFreeSize = true := by
    simp [fullRingRun, Env.calm]
  have hlast := (availableForWrite_within_ring .esp32 samplePorts _ hcalls).last 0
    { port := 1, txRingSeen := true } rfl
  rw [ringMachine, OutputMachine.after_withHistory_fst] at hlast
  obtain ⟨n, hresult, -, hle⟩ := hlast (by decide +kernel) (by decide +kernel)
  have hzero := hle.mpr (Or.inr (by decide +kernel))
  dsimp only at hresult hzero
  rw [hfull] at hzero
  rw [Nat.le_zero.mp hzero] at hresult
  exact ⟨hfull, hresult⟩

/-- Once the unit has begun again, the ring is as full as before, and the answer is the length
of the hardware FIFO. -/
theorem overpromise_after_begin :
    let w := (machine .esp32).after (World.init samplePorts) (fullRingRun ++ [⟨.begin 0, .calm⟩])
    (w.ports 1).txRingSize = 256 ∧ (w.ports 1).txRingFree = 0 ∧
      (w.step .esp32 ⟨.serial 0 .availableForWrite, .calm⟩).2.result = .int 128 := by
  intro w
  have hfull : (w.ports 1).txRingFree = 0 := by decide +kernel
  have hs : (w.backend 0).idfSerial = some { port := 1 } := by decide +kernel
  have hlive : w.live 0 = true := by decide +kernel
  have henv : Env.calm.txBufferFreeSize = true := rfl
  have hanswer := World.availableForWrite_result .esp32 hlive hs henv
  dsimp only at hanswer
  rw [hfull] at hanswer
  exact ⟨by decide +kernel, hfull, hanswer⟩

end RS485
