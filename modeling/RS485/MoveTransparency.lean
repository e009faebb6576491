import RS485.Fallback
import RS485.SameUnit

/-!
# Moving a unit is transparent

Two runs are compared.  In one a unit stays where it is; in the other it is moved about, each
of its operations is performed on whoever holds it at the time, and other units, among them
the ones it was moved out of, do what they like on ports of their own.

The two sides are related by `SameUnit`, which a move keeps (`SameUnit.move`), and so does
whatever the other units do (`SameUnit.other`).  What is left of the moved run when moves and
foreign operations are erased is then the run without moves.
-/

namespace RS485

open Function

/-! ## Moves -/

namespace SameUnit

variable {Q : Set Port} {a : UnitId} {s : World} {t : World × UnitId} {pf : Platform}

/-- **A move** of the holder to another place. -/
theorem move (h : SameUnit Q a s t) (howned' : t.1.Owned)
    (hadapter : ∀ ad, (pf.moveAdapter ad).1 = ad) {dst : UnitId} (hne : t.2 ≠ dst) :
    SameUnit Q a s (World.moved pf t.1 t.2 dst, dst) where
  live := h.live
  holderLive := by simp
  fields := by
    simp only [World.moved_units, update_self, World.carriedOver, hadapter]
    exact h.fields
  backend := by
    rw [howned'.backend_moved_target h.holderLive, h.backend, Backend.rebind_rebind]
  ports p hp := by simpa using h.ports p hp
  adapter := h.adapter
  port := h.port
  owner := h.owner
  apart u hu hud p hp := by
    by_cases huh : u = t.2
    · subst huh
      rw [World.backend_moved_source hne] at hp
      cases hp
    · have hu' : t.1.live u = true := by simpa [hud] using hu
      rw [howned'.backend_moved_other h.holderLive hu' huh hud] at hp
      exact h.apart u hu' huh p hp

end SameUnit

/-! ## The rest of the program -/

/-- An operation of the rest of the program: it is not about the unit `h` and not about ports
in `Q`.  In particular another unit may begin on other ports only. -/
def Op.Apart (Q : Set Port) (pf : Platform) (w : World) (h : UnitId) : Op → Prop
  | .construct _ _ => True
  | .destroy u | .setAdapter u _ | .config u _ | .configBase u _ | .serial u _ => u ≠ h
  | .moveConstruct src _ => src ≠ h
  | .moveAssign src dst => src ≠ h ∧ dst ≠ h
  | .installSerial u new => u ≠ h ∧ ∀ b, new = some b → ∀ p, b.port = some p → p ∉ Q
  | .begin u => u ≠ h ∧ ∀ ad, (w.units u).adapter = some ad → ad.line pf.framework ∉ Q
  | .uartDriver port _ _ | .arrive port _ | .transmit port _ => port ∉ Q

namespace SameUnit

variable {Q : Set Port} {a : UnitId} {s : World} {t : World × UnitId} {pf : Platform}

/-- The rest of the program leaves the holder, what is in it and its ports alone, -/
theorem frame_step (h : SameUnit Q a s t) {c : Call} (hc : c.op.Apart Q pf t.1 t.2) :
    (t.1.step pf c).1.live t.2 = true ∧
      ((t.1.step pf c).1.units t.2).bare = (t.1.units t.2).bare ∧
      ∀ p ∈ Q, (t.1.step pf c).1.ports p = t.1.ports p := by
  have heffect := World.step_effect pf t.1 c
  generalize t.1.step pf c = r at heffect
  have hholder := h.holderLive
  have hne_of_mem : ∀ {p port : Port}, p ∈ Q → port ∉ Q → p ≠ port := by
    rintro p port hp hport rfl
    exact hport hp
  cases heffect with
  | rejected => exact ⟨hholder, rfl, fun _ _ => rfl⟩
  | construct u kind hop hlive =>
      have hne : t.2 ≠ u := by
        rintro rfl
        rw [hlive] at hholder
        cases hholder
      exact ⟨by simpa [hne] using hholder, by simp [hne], fun _ _ => rfl⟩
  | destroy u hop =>
      rw [hop] at hc
      have hne : t.2 ≠ u := Ne.symm (id hc : u ≠ t.2)
      exact ⟨by simpa [hne] using hholder, rfl, fun _ _ => rfl⟩
  | move src dst hop hsrc hne =>
      have hsrcHolder : t.2 ≠ src := by
        rcases hop with ⟨hop, -⟩ | ⟨hop, -⟩ <;> rw [hop] at hc
        · exact Ne.symm (id hc : src ≠ t.2)
        · exact Ne.symm hc.1
      have hdstHolder : t.2 ≠ dst := by
        rcases hop with ⟨hop, hdst⟩ | ⟨hop, -⟩ <;> rw [hop] at hc
        · rintro rfl
          rw [hdst] at hholder
          cases hholder
        · exact Ne.symm hc.2
      exact ⟨by simpa [hdstHolder] using hholder, by simp [hdstHolder, hsrcHolder],
        fun _ _ => by simp⟩
  | moveSelf => exact ⟨hholder, rfl, fun _ _ => rfl⟩
  | install u serial hop =>
      rw [hop] at hc
      refine ⟨by simpa using hholder, ?_, fun _ _ => by simp⟩
      cases serial <;> simp [World.installSerial, Ne.symm hc.1]
  | settings u unit hop =>
      have hne : t.2 ≠ u := by
        rcases hop with ⟨ad, hop⟩ | ⟨cfg, hop⟩ | ⟨cfg, hop⟩ <;> rw [hop] at hc <;>
          exact Ne.symm (id hc : u ≠ t.2)
      exact ⟨hholder, by simp [hne], fun _ _ => rfl⟩
  | begin u hop hlive r hbegin =>
      rw [hop] at hc
      have hne : t.2 ≠ u := Ne.symm hc.1
      have hbegun : ∀ (unit : RS485Unit) (ad : AdapterUART), (t.1.units u).adapter = some ad →
          let w := World.begun pf c.env t.1 u unit (ad.line pf.framework)
          w.live t.2 = true ∧ (w.units t.2).bare = (t.1.units t.2).bare ∧
            ∀ p ∈ Q, w.ports p = t.1.ports p := by
        intro unit ad had
        refine ⟨by simpa using hholder, by simp [hne], fun p hp => ?_⟩
        simp [hne_of_mem hp (hc.2 ad had)]
      cases hbegin with
      | unready => exact ⟨hholder, rfl, fun _ _ => rfl⟩
      | rejected => exact ⟨hholder, rfl, fun _ _ => rfl⟩
      | failed => exact ⟨hholder, by simp [hne], fun _ _ => rfl⟩
      | plain ad hkind had => exact hbegun _ ad had
      | controlled ad hkind hpin had => exact hbegun _ ad had
  | call u call hop hlive =>
      rw [hop] at hc
      refine ⟨by simpa [World.serialCall] using hholder, by simp [World.serialCall],
        fun p hp => ?_⟩
      -- the call works on the port of its own backend only
      cases hbackend : (t.1.backend u).port with
      | none => simp [World.serialCall, hbackend, World.storePort]
      | some port =>
          have hport : port ∉ Q := h.apart u hlive hc port hbackend
          simp [World.serialCall, hbackend, hne_of_mem hp hport]
  | uartDriver port installed txRingSize hop =>
      rw [hop] at hc
      exact ⟨by simpa [World.exec] using hholder, by simp [World.exec],
        fun p hp => by simp [World.exec, hne_of_mem hp hc]⟩
  | arrive port bytes hop =>
      rw [hop] at hc
      exact ⟨by simpa [World.exec] using hholder, by simp [World.exec],
        fun p hp => by simp [World.exec, hne_of_mem hp hc]⟩
  | transmit port n hop =>
      rw [hop] at hc
      exact ⟨by simpa [World.exec] using hholder, by simp [World.exec],
        fun p hp => by simp [World.exec, hne_of_mem hp hc]⟩

/-- and the backend of the holder, since its operations are about other units; -/
theorem backend_step (h : SameUnit Q a s t) (howned' : t.1.Owned) {c : Call}
    (hc : c.op.Apart Q pf t.1 t.2) :
    (t.1.step pf c).1.backend t.2 = t.1.backend t.2 := by
  have hfrom := howned'.backendFrom pf (h.frame_step hc).1
  have hholder := h.holderLive
  generalize (t.1.step pf c).1.backend t.2 = b at hfrom ⊢
  cases hfrom with
  | kept => rfl
  | constructed kind hop hlive =>
      rw [hlive] at hholder
      cases hholder
  | movedOut dst hop =>
      rcases hop with hop | hop <;> rw [hop] at hc
      · exact absurd rfl hc
      · exact absurd rfl hc.1
  | movedIn src hop hsrc =>
      rcases hop with ⟨hop, hlive⟩ | hop
      · rw [hlive] at hholder
        cases hholder
      · rw [hop] at hc
        exact absurd rfl hc.2
  | installed b hop =>
      rw [hop] at hc
      exact absurd rfl hc.1
  | begun ad hop =>
      rw [hop] at hc
      exact absurd rfl hc.1
  | called call hop =>
      rw [hop] at hc
      exact absurd rfl hc

/-- and it gives no other unit a backend on these ports. -/
theorem apart_step (h : SameUnit Q a s t) (howned' : t.1.Owned) {c : Call}
    (hc : c.op.Apart Q pf t.1 t.2) {u : UnitId} (hu : (t.1.step pf c).1.live u = true)
    (hut : u ≠ t.2) {p : Port} (hp : ((t.1.step pf c).1.backend u).port = some p) : p ∉ Q := by
  have hfrom := howned'.backendFrom pf hu
  generalize (t.1.step pf c).1.backend u = b at hfrom hp
  cases hfrom with
  | kept hlive => exact h.apart u hlive hut p hp
  | constructed => cases hp
  | movedOut => cases hp
  | movedIn src hop hsrc =>
      have hsrcHolder : src ≠ t.2 := by
        rcases hop with ⟨hop, -⟩ | hop <;> rw [hop] at hc
        · exact hc
        · exact hc.1
      rw [Backend.port_rebind] at hp
      exact h.apart src hsrc hsrcHolder p hp
  | installed b hop =>
      rw [hop] at hc
      exact hc.2 b rfl p hp
  | begun ad hop hlive had =>
      rw [hop] at hc
      rw [World.newBackend_port] at hp
      exact Option.some.inj hp ▸ hc.2 ad had
  | called call hop hlive =>
      rw [(Backend.dispatch_keeps ..).1] at hp
      exact h.apart u hlive hut p hp

/-- **The rest of the program** keeps the relation. -/
theorem other (h : SameUnit Q a s t) (howned' : t.1.Owned) {c : Call}
    (hc : c.op.Apart Q pf t.1 t.2) : SameUnit Q a s ((t.1.step pf c).1, t.2) where
  live := h.live
  holderLive := (h.frame_step hc).1
  fields := (h.frame_step hc).2.1.trans h.fields
  backend := (h.backend_step howned' hc).trans h.backend
  ports p hp := ((h.frame_step hc).2.2 p hp).trans (h.ports p hp)
  adapter := h.adapter
  port := h.port
  owner := h.owner
  apart _ hu hut _ hp := h.apart_step howned' hc hu hut hp

end SameUnit

/-! ## Runs -/

/-- What happens in a run in which the unit is moved about: an operation of the unit, a move
of it to another place, by construction or by assignment, or anything else. -/
inductive TrackedInput
  | unit (op : UnitOp) (env : Env)
  | moveTo (dst : UnitId) (assign : Bool) (env : Env)
  | other (c : Call)

/-- A move out of the unit `h`. -/
def moveOp (h dst : UnitId) (assign : Bool) : Op :=
  if assign then .moveAssign h dst else .moveConstruct h dst

/-- The program together with the current holder of the unit, to which the operations of the
unit are addressed. -/
def trackedMachine (pf : Platform) : OutputMachine (World × UnitId) TrackedInput Outcome where
  step t
    | .unit op env => let r := t.1.step pf ⟨op.at t.2, env⟩; ((r.1, t.2), r.2)
    | .moveTo dst assign env =>
        let op := moveOp t.2 dst assign
        let r := t.1.step pf ⟨op, env⟩
        ((r.1, if t.1.enabled op then dst else t.2), r.2)
    | .other c => let r := t.1.step pf c; ((r.1, t.2), r.2)

/-- What the run without moves performs: the operations of the unit, on the unit `a`. -/
def TrackedInput.inPlace (a : UnitId) : TrackedInput → Option Call
  | .unit op env => some ⟨op.at a, env⟩
  | _ => none

/-- The unit keeps to its ports, and the rest of the program keeps off them. -/
def TrackedInput.Separate (Q : Set Port) (pf : Platform) (t : World × UnitId) :
    TrackedInput → Prop
  | .unit op _ => op.Within Q
  | .moveTo _ _ _ => True
  | .other c => c.op.Apart Q pf t.1 t.2

theorem World.step_moveOp {w : World} {src dst : UnitId} {assign : Bool} (pf : Platform)
    (env : Env) (hne : src ≠ dst) (henabled : w.enabled (moveOp src dst assign) = true) :
    (w.step pf ⟨moveOp src dst assign, env⟩).1 = World.moved pf w src dst := by
  unfold World.step
  rw [if_pos henabled]
  cases assign with
  | false =>
      simp only [moveOp, Bool.false_eq_true, if_false, World.enabled, Bool.and_eq_true,
        Bool.not_eq_true'] at henabled
      exact World.moveConstruct_eq_moved henabled.2
  | true =>
      simp only [moveOp, if_true, World.enabled, Bool.and_eq_true,
        decide_eq_true_eq] at henabled
      exact World.moveAssign_eq_moved hne henabled.1.2 henabled.2

theorem World.step_moveOp_self (pf : Platform) (w : World) (u : UnitId) (assign : Bool)
    (env : Env) : (w.step pf ⟨moveOp u u assign, env⟩).1 = w := by
  unfold World.step
  split
  · next henabled =>
    cases assign with
    | false => simp [moveOp, World.enabled] at henabled
    | true => exact World.moveAssign_self
  · rfl

/-- A move keeps the relation, whether it is one to another place, to the holder's own, or
one that does not take place. -/
theorem SameUnit.moveTo {Q : Set Port} {a : UnitId} {s : World} {t : World × UnitId}
    {pf : Platform} (h : SameUnit Q a s t) (howned' : t.1.Owned)
    (hadapter : ∀ ad, (pf.moveAdapter ad).1 = ad) (dst : UnitId) (assign : Bool) (env : Env) :
    SameUnit Q a s ((trackedMachine pf).step t (.moveTo dst assign env)).1 := by
  simp only [trackedMachine]
  cases henabled : t.1.enabled (moveOp t.2 dst assign) with
  | false =>
      rw [World.step_of_not_enabled pf henabled]
      exact h
  | true =>
      rw [if_pos rfl]
      by_cases hne : t.2 = dst
      · subst hne
        rw [World.step_moveOp_self]
        exact h
      · rw [World.step_moveOp pf env hne henabled]
        exact h.move howned' hadapter hne

/-- A unit that has just been constructed, in a world where nobody else is on its ports. -/
theorem SameUnit.construct (pf : Platform) {Q : Set Port} {w : World} {a : UnitId}
    (hlive : w.live a = false)
    (hapart : ∀ u, w.live u = true → ∀ p, (w.backend u).port = some p → p ∉ Q)
    (kind : UnitKind) (env : Env) :
    SameUnit Q a (w.step pf ⟨.construct a kind, env⟩).1
      ((w.step pf ⟨.construct a kind, env⟩).1, a) := by
  have hstep : (w.step pf ⟨.construct a kind, env⟩).1 =
      { w with
        units := update w.units a (RS485Unit.fresh kind)
        live := update w.live a true } := by
    simp [World.step, World.enabled, hlive, World.exec]
  generalize (w.step pf ⟨.construct a kind, env⟩).1 = w' at hstep ⊢
  subst hstep
  refine
    { live := by simp
      holderLive := by simp
      fields := rfl
      backend := ?_
      ports := fun p _ => rfl
      adapter := fun ad had => by simp [RS485Unit.fresh] at had
      port := fun p hp => ?_
      owner := fun u hu => ?_
      apart := fun u hu hne p hp => ?_ }
  · rw [World.backend_of_fallback (by simp [RS485Unit.fresh])]
    rfl
  · rw [World.backend_of_fallback (by simp [RS485Unit.fresh])] at hp
    cases hp
  · rw [World.backend_of_fallback (by simp [RS485Unit.fresh])] at hu
    cases hu
  · rw [World.backend_construct_other hne] at hp
    exact hapart u (by simpa [show u ≠ a from hne] using hu) p hp

/-! ## The result -/

/-- **Moving a unit is transparent.**  A unit is constructed where nobody else is on its
ports.  The operations of the unit in a run in which it is moved about give the outcomes,
results and driver calls, that the same operations give when it stays where it is.  And from
any move on, a call of the unit that was moved from is answered by the null backend, for as
long as it is given no backend. -/
theorem moves_are_transparent (pf : Platform) (hadapter : ∀ ad, (pf.moveAdapter ad).1 = ad)
    (ports : Port → UartPort) (calls : List Call) :
    let w := (machine pf).after (World.init ports) calls
    (∀ (Q : Set Port) (a : UnitId) (kind : UnitKind) (env : Env) (js : List TrackedInput),
      w.live a = false →
      (∀ u, w.live u = true → ∀ p, (w.backend u).port = some p → p ∉ Q) →
      let s := (w.step pf ⟨.construct a kind, env⟩).1
      (trackedMachine pf).Along (fun t j => j.Separate Q pf t) (s, a) js →
      (machine pf).outputs s (js.filterMap (TrackedInput.inPlace a)) =
        (trackedMachine pf).collect (fun _ j o => (j.inPlace a).map fun _ => o) (s, a) js) ∧
    ∀ (src dst : UnitId) (assign : Bool) (env : Env) (later : List Call),
      src ≠ dst → w.enabled (moveOp src dst assign) = true →
      let s := (w.step pf ⟨moveOp src dst assign, env⟩).1
      (machine pf).Along (fun w c => ¬ World.Refills pf w c src) s later →
      ∀ (call : SerialCall) (env : Env), ((machine pf).after s later).live src = true →
        ((machine pf).after s later).step pf ⟨.serial src call, env⟩ =
          ((machine pf).after s later,
            ⟨(call.perform pf NullSerial.iserial ⟨default, []⟩).2, []⟩) := by
  intro w
  have howned : w.Owned := owned_after pf ports calls
  refine ⟨?_, ?_⟩
  · intro Q a kind env js hlive hapart s hseparate
    have hs : s.Owned := howned.step pf _
    refine (OutputMachine.outputs_filterMap_eq_collect (TrackedInput.inPlace a)
      (fun s t => s.Owned ∧ t.1.Owned ∧ SameUnit Q a s t) (fun t j => j.Separate Q pf t)
      ?_ ?_ js s (s, a) ⟨hs, hs, SameUnit.construct pf hlive hapart kind env⟩ hseparate).1
    -- inputs that are erased: moves, and the rest of the program
    · rintro s t j herase hj ⟨howned, howned', h⟩
      cases j with
      | unit op env => cases herase
      | moveTo dst assign env =>
          exact ⟨howned, howned'.step pf _, h.moveTo howned' hadapter dst assign env⟩
      | other c => exact ⟨howned, howned'.step pf c, h.other howned' hj⟩
    -- inputs that are kept: operations of the unit, on both sides
    · rintro s t j i herase hj ⟨howned, howned', h⟩
      cases j with
      | unit op env =>
          obtain rfl := Option.some.inj herase
          obtain ⟨hout, hsame⟩ := h.step_op howned howned' hj env
          exact ⟨hout.symm, howned.step pf _, howned'.step pf _, hsame⟩
      | moveTo dst assign env => cases herase
      | other c => cases herase
  · intro src dst assign env later hne henabled s hkept call env' hlive
    have hsource : (s.units src).serial = SerialPtr.fallback := by
      simp [s, World.step_moveOp pf env hne henabled, hne, World.leftBehind]
    exact World.step_serial_of_fallback pf hlive (World.fallback_after hsource hkept) call env'

/-- A unit begins on DIR pin 5 and port 1, is moved, its first place is destroyed, and it
writes a byte. -/
def movedRun : List TrackedInput :=
  [.unit (.setAdapter (some ⟨none, 1⟩)) .calm, .unit (.config { dirPin := 5 }) .calm,
    .unit .begin .calm, .moveTo 1 false .calm, .other ⟨.destroy 0, .calm⟩,
    .unit (.serial (.write 0x55)) .calm]

theorem moved_sample_transparent :
    let s := ((World.init samplePorts).step .esp32 ⟨.construct 0 .sit3088, .calm⟩).1
    (machine .esp32).outputs s (movedRun.filterMap (TrackedInput.inPlace 0)) =
      (trackedMachine .esp32).collect (fun _ j o => (j.inPlace 0).map fun _ => o) (s, 0)
        movedRun ∧
    (s.step .esp32 ⟨moveOp 0 1 false, .calm⟩).1.step .esp32 ⟨.serial 0 .peek, .calm⟩ =
      ((s.step .esp32 ⟨moveOp 0 1 false, .calm⟩).1, ⟨.int (-1), []⟩) := by
  refine ⟨?_, ?_⟩
  · refine (moves_are_transparent .esp32 (fun _ => rfl) samplePorts []).1 {1} 0 .sit3088 .calm
      movedRun rfl (fun u hu => by cases hu) ?_
    refine ⟨?_, trivial, trivial, trivial, ?_, trivial, trivial⟩
    · intro ad had
      obtain rfl := Option.some.inj had
      exact ⟨rfl, fun p hp => by cases hp⟩
    · show (0 : ℕ) ≠ _
      decide
  · exact (moves_are_transparent .esp32 (fun _ => rfl) samplePorts
      [⟨.construct 0 .sit3088, .calm⟩]).2 0 1 false .calm [] (by decide) (by decide) trivial
        .peek .calm (by decide)

end RS485
