import RS485.Serial.Backend

/-!
# Timeouts of the ESP-IDF backend

What the driver is asked to wait.  A read with a timeout hands it to the driver in ticks, and
it reaches the driver only for bytes that the one held back does not supply
(`readWithWait_log`).  By the tick arithmetic a timeout is then never "block forever" and never
turns into a read that does not wait (`timeouts_never_endless`).
-/

namespace RS485

/-- The timeout of a call that reads with one: its own, or that of the backend. -/
def SerialCall.timeout (s : IDFSerial) : SerialCall → Option (BitVec 32)
  | .readBytes _ | .readValue _ _ => some s.timeoutMs
  | .readBytesTimeout _ timeoutMs => some timeoutMs
  | _ => none

namespace IDFSerial

variable (pf : Platform) (env : Env)

/-- A read makes one driver call, for what the byte held back leaves to be filled, or none. -/
theorem readWithWait_log (ticks : ℕ) (d : Destination) (s : IDFSerial) (uart : UartPort) :
    (readWithWait env ticks d (s, ⟨uart, []⟩)).1.2.log =
      if d.isNull = true ∨ d.size ≤ s.held then []
      else [.uartRead s.port (d.size - s.held) ticks, .received s.port env.arrivals] := by
  have hwaits : ∀ (port : Port) (io : Io) (n : ℕ), (uartReadBytes env port n ticks io).1.log =
      io.log ++ [.uartRead port n ticks, .received port env.arrivals] := fun _ _ _ => rfl
  simp only [readWithWait]
  split
  · next hempty =>
    have hnone : d.isNull = true ∨ d.size ≤ s.held := by
      apply hempty.imp_right
      omega
    rw [if_pos hnone]
  · next hempty =>
    obtain ⟨hnull, -⟩ := not_or.mp hempty
    split
    · next hheld => rw [if_pos (Or.inr hheld)]
    · next hheld =>
      have hnone : ¬ (d.isNull = true ∨ d.size ≤ s.held) := not_or.mpr ⟨hnull, hheld⟩
      have hlog := hwaits s.port ⟨uart, []⟩ (d.size - s.held)
      rw [if_neg hnone]
      split <;> simp_all

/-- A call with a timeout reads with that timeout, converted. -/
theorem perform_of_timeout {s : IDFSerial} {call : SerialCall} {timeoutMs : BitVec 32}
    (hcall : call.timeout s = some timeoutMs) (io : Io) :
    ∃ d, (call.perform pf (iserial pf env) (s, io)).1 =
      (readWithWait env (ticksOf pf timeoutMs) d (s, io)).1 := by
  cases call <;> simp only [SerialCall.timeout, Option.some.injEq, reduceCtorEq] at hcall
  case readBytes d => exact ⟨d, by rw [← hcall]; rfl⟩
  case readBytesTimeout d ms => exact ⟨d, by rw [← hcall]; rfl⟩
  case readValue le T =>
    refine ⟨⟨false, T.size⟩, ?_⟩
    rw [← hcall]
    simp only [SerialCall.perform, RS485Component.readValue_eq]
    rfl

theorem ticksOf_eq (hw : pf.tickBits ≤ 64) (hmax : 2 ≤ pf.portMaxDelay.toNat)
    (timeoutMs : BitVec 32) :
    ticksOf pf timeoutMs =
      exactTicks timeoutMs.toNat pf.tickRateHz.toNat pf.portMaxDelay.toNat :=
  toNat_ticksFromMs timeoutMs pf.tickRateHz hw hmax

theorem ticksOf_lt (hw : pf.tickBits ≤ 64) (hmax : 2 ≤ pf.portMaxDelay.toNat)
    (timeoutMs : BitVec 32) : ticksOf pf timeoutMs < pf.portMaxDelay.toNat := by
  rw [ticksOf_eq pf hw hmax]
  exact exactTicks_lt hmax

theorem ticksOf_eq_zero_iff (hw : pf.tickBits ≤ 64) (hmax : 2 ≤ pf.portMaxDelay.toNat)
    (timeoutMs : BitVec 32) : ticksOf pf timeoutMs = 0 ↔ timeoutMs = 0 := by
  rw [ticksOf_eq pf hw hmax, exactTicks_eq_zero_iff]
  exact ⟨fun h => BitVec.eq_of_toNat_eq h, fun h => congrArg BitVec.toNat h⟩

end IDFSerial

namespace Backend

variable (pf : Platform) (env : Env) (units : UnitId → RS485Unit)

/-- A read with a timeout asks the driver to wait for that timeout, converted. -/
theorem wait_of_uartRead {b : Backend} {s : IDFSerial} (hs : b.idfSerial = some s)
    {call : SerialCall} {timeoutMs : BitVec 32} (hcall : call.timeout s = some timeoutMs)
    (uart : UartPort) {port : Port} {length wait : ℕ}
    (hread : .uartRead port length wait ∈
      (b.dispatch pf env units (fun serial s => call.perform pf serial s) ⟨uart, []⟩).2.1.log) :
    port = s.port ∧ wait = IDFSerial.ticksOf pf timeoutMs := by
  have hquiet : call.payload pf = none := by
    cases call <;> simp only [SerialCall.timeout, reduceCtorEq] at hcall <;> rfl
  obtain ⟨d, hperform⟩ := IDFSerial.perform_of_timeout pf env hcall ⟨uart, []⟩
  have hdispatch := (dispatch_of_quiet pf env units hs hquiet ⟨uart, []⟩).2
  have hmem : .uartRead port length wait ∈ (IDFSerial.readWithWait env
      (IDFSerial.ticksOf pf timeoutMs) d (s, ⟨uart, []⟩)).1.2.log := by
    rwa [← hperform, ← congrArg (fun r : Io × Result => r.1.log) hdispatch]
  rw [IDFSerial.readWithWait_log] at hmem
  split at hmem
  · cases hmem
  · simp only [List.mem_cons, Event.uartRead.injEq, reduceCtorEq, List.not_mem_nil, or_false]
      at hmem
    exact ⟨hmem.1, hmem.2.2⟩

end Backend

/-- **Timeouts convert without wrap and never become endless.**  For every tick type of at most
64 bits, the conversion yields the exact quotient, rounded down and kept between one tick and
the last wait below `maxDelay`; no product, difference or cast in it wraps.  So the result is
zero for the timeout zero only, it is always below `maxDelay`, it is monotone in both arguments,
and unless it is saturated it falls short of the timeout by less than one tick.  A read with a
timeout that reaches the driver of an ESP-IDF backend, whatever that holds back, asks for a wait
of the timeout so converted: it is below `portMAX_DELAY`, and zero only if the timeout is. -/
theorem timeouts_never_endless :
    (∀ {w : ℕ} (maxDelay : BitVec w), w ≤ 64 → 2 ≤ maxDelay.toNat →
      (∀ timeoutMs tickRateHz : BitVec 32,
        let product : BitVec 64 := timeoutMs.setWidth 64 * tickRateHz.setWidth 64
        let ticks := ticksFromMs timeoutMs tickRateHz maxDelay
        product.toNat = timeoutMs.toNat * tickRateHz.toNat ∧
        ((product / 1000).toNat < maxDelay.toNat →
          ((product / 1000).setWidth w).toNat = (product / 1000).toNat) ∧
        (maxDelay - 1).toNat = maxDelay.toNat - 1 ∧
        ticks.toNat = exactTicks timeoutMs.toNat tickRateHz.toNat maxDelay.toNat ∧
        (ticks = 0 ↔ timeoutMs = 0) ∧
        ticks < maxDelay ∧
        (ticks ≠ maxDelay - 1 →
          timeoutMs.toNat * tickRateHz.toNat < 1000 * (ticks.toNat + 1))) ∧
      ∀ timeoutMs timeoutMs' tickRateHz tickRateHz' : BitVec 32,
        timeoutMs ≤ timeoutMs' → tickRateHz ≤ tickRateHz' →
          ticksFromMs timeoutMs tickRateHz maxDelay ≤
            ticksFromMs timeoutMs' tickRateHz' maxDelay) ∧
    ∀ pf : Platform, pf.tickBits ≤ 64 → 2 ≤ pf.portMaxDelay.toNat →
      ∀ (env : Env) (units : UnitId → RS485Unit) (b : Backend) (s : IDFSerial),
        b.idfSerial = some s →
        ∀ (call : SerialCall) (timeoutMs : BitVec 32), call.timeout s = some timeoutMs →
        ∀ (uart : UartPort) (port : Port) (length wait : ℕ),
          .uartRead port length wait ∈
            (b.dispatch pf env units (fun serial s => call.perform pf serial s)
              ⟨uart, []⟩).2.1.log →
          wait = exactTicks timeoutMs.toNat pf.tickRateHz.toNat pf.portMaxDelay.toNat ∧
            wait < pf.portMaxDelay.toNat ∧ (wait = 0 ↔ timeoutMs = 0) := by
  refine ⟨fun {w} maxDelay hw hmax => ⟨?_, ?_⟩, ?_⟩
  · intro timeoutMs tickRateHz product ticks
    have hexact : ticks.toNat = exactTicks timeoutMs.toNat tickRateHz.toNat maxDelay.toNat :=
      toNat_ticksFromMs timeoutMs tickRateHz hw hmax
    refine ⟨toNat_mul_setWidth timeoutMs tickRateHz, toNat_setWidth_of_lt, toNat_sub_one hmax,
      hexact, ?_, ?_, ?_⟩
    · rw [← BitVec.toNat_inj, ← BitVec.toNat_inj, hexact]
      simpa using exactTicks_eq_zero_iff
    · rw [BitVec.lt_def, hexact]
      exact exactTicks_lt hmax
    · intro hsaturated
      rw [hexact]
      apply lt_succ_exactTicks hmax
      intro heq
      apply hsaturated
      apply BitVec.eq_of_toNat_eq
      rw [hexact, heq, toNat_sub_one hmax]
  · intro timeoutMs timeoutMs' tickRateHz tickRateHz' htimeout hrate
    rw [BitVec.le_def, toNat_ticksFromMs _ _ hw hmax, toNat_ticksFromMs _ _ hw hmax]
    exact exactTicks_mono htimeout hrate
  · intro pf hw hmax env units b s hs call timeoutMs hcall uart port length wait hread
    obtain ⟨-, rfl⟩ := Backend.wait_of_uartRead pf env units hs hcall uart hread
    exact ⟨IDFSerial.ticksOf_eq pf hw hmax timeoutMs, IDFSerial.ticksOf_lt pf hw hmax timeoutMs,
      IDFSerial.ticksOf_eq_zero_iff pf hw hmax timeoutMs⟩

/-- A 16-bit tick type saturates, and a read of five bytes within three milliseconds, one of
them held back, waits for four but not without end. -/
theorem timeouts_sample :
    ticksFromMs 700000 100 (0xFFFF : BitVec 16) < 0xFFFF ∧
    ∃ wait, .uartRead 1 4 wait ∈
        ((Backend.idf { port := 1, peeked := some 7 }).dispatch .esp32 .calm
          (fun _ => RS485Unit.fresh .sp485)
          (fun serial s => (SerialCall.readBytesTimeout ⟨false, 5⟩ 3).perform .esp32 serial s)
          ⟨default, []⟩).2.1.log ∧
      wait < Platform.esp32.portMaxDelay.toNat ∧ (wait = 0 ↔ (3 : BitVec 32) = 0) := by
  obtain ⟨hconvert, hwait⟩ := timeouts_never_endless
  obtain ⟨hsample, -⟩ := hconvert (0xFFFF : BitVec 16) (by decide) (by decide)
  obtain ⟨-, -, -, -, -, hlt, -⟩ := hsample 700000 100
  have hread : .uartRead 1 4 1 ∈
      ((Backend.idf { port := 1, peeked := some 7 }).dispatch .esp32 .calm
        (fun _ => RS485Unit.fresh .sp485)
        (fun serial s => (SerialCall.readBytesTimeout ⟨false, 5⟩ 3).perform .esp32 serial s)
        ⟨default, []⟩).2.1.log := by decide
  obtain ⟨-, hbounds⟩ :=
    hwait .esp32 (by decide) (by decide) .calm _ _ _ rfl _ _ rfl _ _ _ _ hread
  exact ⟨hlt, 1, hread, hbounds⟩

end RS485
