import RS485.Binding

/-!
# Units without a backend of their own

A unit is on the shared fallback from its construction, and again from a move out of it, until
something gives it a backend (`fallback_after`).  While it is, the null backend answers its
calls and no driver is called (`step_serial_of_fallback`).
-/

namespace RS485

open Function

namespace World

/-- Does the operation leave the unit `u` on the fallback: a construction, or a move out of
it? -/
def Empties (c : Call) (u : UnitId) : Prop :=
  (∃ kind, c.op = .construct u kind) ∨ (∃ dst, c.op = .moveConstruct u dst) ∨
    ∃ dst, u ≠ dst ∧ c.op = .moveAssign u dst

/-- Does the operation give the unit `u` a backend: a `begin()` of it that succeeds, a move of
another unit into it, or an installation? -/
def Refills (pf : Platform) (w : World) (c : Call) (u : UnitId) : Prop :=
  (c.op = .begin u ∧ (w.step pf c).2.result = .flag true) ∨ (∃ src, c.op = .moveConstruct src u) ∨
    (∃ src, src ≠ u ∧ c.op = .moveAssign src u) ∨ ∃ b, c.op = .installSerial u (some b)

/-- A unit on the fallback stays there until it is given a backend. -/
theorem fallback_step {pf : Platform} {w : World} {c : Call} {u : UnitId}
    (h : (w.units u).serial = SerialPtr.fallback) (hc : ¬ Refills pf w c u) :
    ((w.step pf c).1.units u).serial = SerialPtr.fallback := by
  have heffect := step_effect pf w c
  generalize hr : w.step pf c = r at heffect
  cases heffect with
  | rejected => exact h
  | construct v kind =>
      by_cases huv : u = v
      · subst huv
        simp [RS485Unit.fresh]
      · simpa [huv] using h
  | destroy => exact h
  | move src dst hop hsrc hne =>
      -- a move into `u` would refill it
      have hdst : u ≠ dst := by
        rintro rfl
        rcases hop with ⟨hop, -⟩ | ⟨hop, -⟩
        · exact hc (Or.inr (Or.inl ⟨src, hop⟩))
        · exact hc (Or.inr (Or.inr (Or.inl ⟨src, hne, hop⟩)))
      by_cases hus : u = src
      · subst hus
        simp [hdst, leftBehind]
      · simpa [hdst, hus] using h
  | moveSelf => exact h
  | install v serial hop =>
      cases serial with
      | none => exact h
      | some b =>
          have huv : u ≠ v := by
            rintro rfl
            exact hc (Or.inr (Or.inr (Or.inr ⟨b, hop⟩)))
          simpa [installSerial, huv] using h
  | settings v unit hop hkind hserial =>
      by_cases huv : u = v
      · subst huv
        simpa [hserial] using h
      · simpa [huv] using h
  | begin v hop hlive r hbegin =>
      by_cases huv : u = v
      · subst huv
        have hfalse : r.2.2 = false := by
          cases hflag : r.2.2 with
          | false => rfl
          | true => exact absurd (Or.inl ⟨hop, by rw [hr, hflag]⟩) hc
        cases hbegin with
        | unready => exact h
        | rejected => exact h
        | failed => simpa using h
        | plain => cases hfalse
        | controlled => cases hfalse
      · cases hbegin with
        | unready => exact h
        | rejected => exact h
        | failed => simpa [huv] using h
        | plain => simpa [huv] using h
        | controlled => simpa [huv] using h
  | call => simpa [serialCall] using h
  | uartDriver => simpa [exec] using h
  | arrive => simpa [exec] using h
  | transmit => simpa [exec] using h

/-- A unit that an operation leaves on the fallback is there. -/
theorem fallback_of_empties {pf : Platform} {w : World} {c : Call} {u : UnitId}
    (henabled : w.enabled c.op = true) (hc : Empties c u) :
    ((w.step pf c).1.units u).serial = SerialPtr.fallback := by
  have hmoved : ∀ dst, u ≠ dst → ((moved pf w u dst).units u).serial = SerialPtr.fallback := by
    intro dst hne
    simp [hne, leftBehind]
  obtain ⟨op, env⟩ := c
  rcases hc with ⟨kind, rfl⟩ | ⟨dst, rfl⟩ | ⟨dst, hne, rfl⟩
  · simp [step, henabled, exec, RS485Unit.fresh]
  · have hlive : w.live u = true ∧ w.live dst = false := by simpa [enabled] using henabled
    have hne : u ≠ dst := by
      rintro rfl
      simp [hlive.1] at hlive
    simp only [step, henabled, if_true, exec, moveConstruct_eq_moved hlive.2]
    exact hmoved dst hne
  · have hlive : (w.live u = true ∧ w.live dst = true) ∧ (w.units u).kind = (w.units dst).kind := by
      simpa [enabled] using henabled
    simp only [step, henabled, if_true, exec, moveAssign_eq_moved hne hlive.1.2 hlive.2]
    exact hmoved dst hne

/-- It stays there along a run that gives it no backend. -/
theorem fallback_after {pf : Platform} {w : World} {u : UnitId} {calls : List Call}
    (h : (w.units u).serial = SerialPtr.fallback)
    (hcalls : (machine pf).Along (fun w c => ¬ Refills pf w c u) w calls) :
    (((machine pf).after w calls).units u).serial = SerialPtr.fallback :=
  OutputMachine.after_invariant (I := fun w => (w.units u).serial = SerialPtr.fallback)
    (fun _ _ h hc => fallback_step h hc) h hcalls

/-- A call of a unit on the fallback is answered by the null backend and reaches no driver. -/
theorem step_serial_of_fallback (pf : Platform) {w : World} {u : UnitId}
    (hlive : w.live u = true) (h : (w.units u).serial = SerialPtr.fallback) (call : SerialCall)
    (env : Env) :
    w.step pf ⟨.serial u call, env⟩ =
      (w, ⟨(call.perform pf NullSerial.iserial (w.io none)).2, []⟩) := by
  have hfst : (call.perform pf NullSerial.iserial (w.io none)).1 = w.io none :=
    NullSerial.perform_fst pf call _
  rw [step_serial pf hlive]
  simp only [serialCall, backend_of_fallback h, Backend.dispatch, Backend.port, hfst, h]
  rfl

end World

end RS485
