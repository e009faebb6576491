import RS485.Ownership

/-!
# Which backend a unit's calls reach

`World.backend` goes through the unit's pointer into the heap.  Since no heap object has two
holders, an operation on one unit leaves the backends of the others alone, and each operation
has a simple effect on the backend of the unit it is about: a move takes it along, rebound; a
successful `begin` puts a new one in its place; a call leaves it what the call made of it.
`Owned.backendFrom` is the inversion of a step in these terms.

`World.Controlled` is the invariant of programs that use `UnitSIT3088` only: every backend
there is a DIR decorator bound to its holder, or the fallback.
-/

namespace RS485

open Function

namespace World

section Backends

variable {pf : Platform} {env : Env} {w w' : World} {u v src dst : UnitId}

theorem backend_of_fallback (h : (w.units u).serial = SerialPtr.fallback) :
    w.backend u = .nullSerial := by
  simp [backend, deref, h, SerialPtr.fallback]

theorem backend_of_heap {id : ℕ} (h : (w.units u).serial = ⟨some (.heap id), true⟩) :
    w.backend u = w.heap id := by
  simp [backend, deref, h]

theorem backend_congr (hserial : (w'.units u).serial = (w.units u).serial)
    (hheap : w'.heap = w.heap) : w'.backend u = w.backend u := by
  simp only [backend, deref, hserial, hheap]

theorem backend_construct_other {kind : UnitKind} (hvu : v ≠ u) :
    backend
      { w with
        units := update w.units u (RS485Unit.fresh kind)
        live := update w.live u true } v = w.backend v :=
  backend_congr (by simp [hvu]) rfl

@[simp] theorem backend_storePort (port : Option Port) (uart : UartPort) :
    (w.storePort port uart).backend u = w.backend u :=
  backend_congr (by simp) (by simp)

/-- Two units do not hold the same object. -/
theorem Owned.id_ne (h : w.Owned) (hu : w.live u = true) (hv : w.live v = true) (hne : u ≠ v)
    {i j : ℕ} (hi : (w.units u).serial = ⟨some (.heap i), true⟩)
    (hj : (w.units v).serial = ⟨some (.heap j), true⟩) : i ≠ j := by
  rintro rfl
  refine hne (h.balanced.held_once u v i ?_ ?_)
  · simp [ledger, holds, hu, hi]
  · simp [ledger, holds, hv, hj]

/-- The object a unit holds was handed over before. -/
theorem Owned.id_lt_next (h : w.Owned) (hu : w.live u = true) {i : ℕ}
    (hi : (w.units u).serial = ⟨some (.heap i), true⟩) : i < w.next :=
  h.balanced.held_issued u i (by simp [ledger, holds, hu, hi])

/-- A change of an object that `v` does not hold is none of its backend. -/
theorem Owned.backend_of_update (h : w.Owned) (hv : w.live v = true) {id : ℕ} {b : Backend}
    (hserial : (w'.units v).serial = (w.units v).serial) (hheap : w'.heap = update w.heap id b)
    (hid : ∀ j, (w.units v).serial = ⟨some (.heap j), true⟩ → j ≠ id) :
    w'.backend v = w.backend v := by
  rcases h.wellFormed v hv with hptr | ⟨j, hptr⟩
  · rw [backend_of_fallback hptr, backend_of_fallback (hserial.trans hptr)]
  · rw [backend_of_heap hptr, backend_of_heap (hserial.trans hptr), hheap,
      update_of_ne (hid j hptr)]

/-! ### Moves -/

theorem Owned.backend_moved_target (h : w.Owned) (hsrc : w.live src = true) :
    (moved pf w src dst).backend dst = (w.backend src).rebind dst := by
  rcases h.wellFormed src hsrc with hptr | ⟨id, hptr⟩
  · rw [backend_of_fallback hptr, backend_of_fallback (by simpa [carriedOver] using hptr)]
    rfl
  · have hdst : ((moved pf w src dst).units dst).serial = ⟨some (.heap id), true⟩ := by
      simpa [carriedOver] using hptr
    rw [backend_of_heap hptr, backend_of_heap hdst, moved_heap_of_heap hptr, update_self]

theorem backend_moved_source (hne : src ≠ dst) :
    (moved pf w src dst).backend src = .nullSerial :=
  backend_of_fallback (by simp [hne, leftBehind])

theorem Owned.backend_moved_other (h : w.Owned) (hsrc : w.live src = true)
    (hv : w.live v = true) (hvs : v ≠ src) (hvd : v ≠ dst) :
    (moved pf w src dst).backend v = w.backend v := by
  have hserial : ((moved pf w src dst).units v).serial = (w.units v).serial := by
    simp [hvs, hvd]
  rcases h.wellFormed src hsrc with hptr | ⟨id, hptr⟩
  · exact backend_congr hserial (moved_heap_of_fallback hptr)
  · exact h.backend_of_update hv hserial (moved_heap_of_heap hptr)
      fun j hj => h.id_ne hv hsrc hvs hj hptr

/-! ### `begin` -/

theorem backend_begun_self (unit : RS485Unit) (port : Port) :
    (begun pf env w u unit port).backend u = newBackend pf u unit.kind port := by
  have hserial : ((begun pf env w u unit port).units u).serial = ⟨some (.heap w.next), true⟩ := by
    simp
  rw [backend_of_heap hserial, begun_heap, update_self]

theorem Owned.backend_begun_other (h : w.Owned) (hv : w.live v = true) (hvu : v ≠ u)
    (unit : RS485Unit) (port : Port) :
    (begun pf env w u unit port).backend v = w.backend v :=
  h.backend_of_update hv (by simp [hvu]) (begun_heap ..)
    fun _ hj => Nat.ne_of_lt (h.id_lt_next hv hj)

theorem backend_setUnit {unit : RS485Unit} (hserial : unit.serial = (w.units u).serial) :
    (w.setUnit u unit).backend v = w.backend v := by
  refine backend_congr ?_ rfl
  by_cases hvu : v = u
  · subst hvu
    simp [hserial]
  · simp [hvu]

theorem backend_install_self (b : Backend) : (w.installSerial u (some b)).backend u = b := by
  simp [backend, deref, installSerial]

theorem Owned.backend_install_other (h : w.Owned) (hv : w.live v = true) (hvu : v ≠ u)
    (serial : Option Backend) : (w.installSerial u serial).backend v = w.backend v := by
  cases serial with
  | none => rfl
  | some b =>
      exact h.backend_of_update hv (by simp [installSerial, hvu]) rfl
        fun _ hj => Nat.ne_of_lt (h.id_lt_next hv hj)

/-! ### Calls -/

theorem Owned.backend_serialCall_self (h : w.Owned) (hu : w.live u = true) (call : SerialCall) :
    (w.serialCall pf env u call).1.backend u =
      ((w.backend u).dispatch pf env w.units (fun serial s => call.perform pf serial s)
        (w.io (w.backend u).port)).1 := by
  rcases h.wellFormed u hu with hptr | ⟨id, hptr⟩
  · rw [backend_of_fallback hptr, backend_of_fallback (by simpa [serialCall] using hptr)]
    rfl
  · have hserial : ((w.serialCall pf env u call).1.units u).serial =
        ⟨some (.heap id), true⟩ := by
      simpa [serialCall] using hptr
    rw [backend_of_heap hserial]
    simp [serialCall, hptr, storeBackend]

variable (pf) in
/-- A call of a unit on an `IDFSerial` is one of that, or of a decorator over it. -/
theorem Owned.serialCall_of_idf (h : w.Owned) (hu : w.live u = true) {s : IDFSerial}
    (hs : (w.backend u).idfSerial = some s) (env : Env) :
    ∃ serial : ISerial (IDFSerial × Io),
      (serial = IDFSerial.iserial pf env ∨
        ∃ unit, serial = UnitSIT3088.dirControlled pf env unit (IDFSerial.iserial pf env)) ∧
      ∀ call : SerialCall,
        let p := call.perform pf serial (s, ⟨w.ports s.port, []⟩)
        let r := w.serialCall pf env u call
        (r.1.backend u).idfSerial = some p.1.1 ∧ p.1.1.port = s.port ∧
          r.1.ports s.port = p.1.2.uart ∧ r.2 = ⟨p.2, p.1.2.log⟩ := by
  obtain ⟨serial, hserial, hdispatch⟩ := Backend.dispatch_of_idf pf env w.units hs
  have hport : (w.backend u).port = some s.port := Backend.port_of_idfSerial hs
  refine ⟨serial, hserial, fun call => ?_⟩
  intro p r
  obtain ⟨hidf, hp⟩ := hdispatch call (w.io (w.backend u).port)
  have hself : r.1.backend u = ((w.backend u).dispatch pf env w.units
      (fun serial s => call.perform pf serial s) (w.io (w.backend u).port)).1 :=
    h.backend_serialCall_self hu call
  have hkeeps : (r.1.backend u).port = (w.backend u).port := by
    rw [hself]
    exact ((w.backend u).dispatch_keeps pf env w.units call _).1
  have hs' : (r.1.backend u).idfSerial = some p.1.1 := by
    rw [hself, hidf, hport]
    rfl
  rw [hport] at hp
  refine ⟨hs', ?_, ?_, ?_⟩
  · rw [Backend.port_of_idfSerial hs', hport] at hkeeps
    exact Option.some.inj hkeeps
  · simp only [r, serialCall, hport, hp, storePort_ports_some, Function.update_self]
    rfl
  · simp only [r, serialCall, hport, hp]
    rfl

theorem Owned.backend_serialCall_other (h : w.Owned) (hu : w.live u = true)
    (hv : w.live v = true) (hvu : v ≠ u) (call : SerialCall) :
    (w.serialCall pf env u call).1.backend v = w.backend v := by
  rcases h.wellFormed u hu with hptr | ⟨id, hptr⟩
  · refine backend_congr (by simp [serialCall]) ?_
    simp [serialCall, hptr, SerialPtr.fallback, storeBackend]
  · have hheap : (w.serialCall pf env u call).1.heap = update w.heap id
        ((w.backend u).dispatch pf env w.units (fun serial s => call.perform pf serial s)
          (w.io (w.backend u).port)).1 := by
      simp [serialCall, hptr, storeBackend]
    exact h.backend_of_update hv (by simp [serialCall]) hheap
      fun j hj => h.id_ne hv hu hvu hj hptr

/-! ### Where a backend comes from -/

variable (pf) in
/-- Where the backend that the unit `v` has after a step comes from. -/
inductive BackendFrom (w : World) (c : Call) (v : UnitId) : Backend → Prop
  | kept (hlive : w.live v = true) : BackendFrom w c v (w.backend v)
  | constructed (kind : UnitKind) (hop : c.op = .construct v kind) (hlive : w.live v = false) :
      BackendFrom w c v .nullSerial
  | movedOut (dst : UnitId) (hop : c.op = .moveConstruct v dst ∨ c.op = .moveAssign v dst) :
      BackendFrom w c v .nullSerial
  | movedIn (src : UnitId)
      (hop : c.op = .moveConstruct src v ∧ w.live v = false ∨ c.op = .moveAssign src v)
      (hsrc : w.live src = true) : BackendFrom w c v ((w.backend src).rebind v)
  | installed (b : Backend) (hop : c.op = .installSerial v (some b)) : BackendFrom w c v b
  | begun (ad : AdapterUART) (hop : c.op = .begin v) (hlive : w.live v = true)
      (had : (w.units v).adapter = some ad) :
      BackendFrom w c v (newBackend pf v (w.units v).kind (ad.line pf.framework))
  | called (call : SerialCall) (hop : c.op = .serial v call) (hlive : w.live v = true) :
      BackendFrom w c v ((w.backend v).dispatch pf c.env w.units
        (fun serial s => call.perform pf serial s) (w.io (w.backend v).port)).1

variable (pf) in
/-- **Every backend** is the one the unit had before, or comes from the operation. -/
theorem Owned.backendFrom (h : w.Owned) {c : Call} (hv : (w.step pf c).1.live v = true) :
    BackendFrom pf w c v ((w.step pf c).1.backend v) := by
  have heffect := step_effect pf w c
  generalize w.step pf c = r at heffect hv ⊢
  cases heffect with
  | rejected => exact .kept hv
  | construct u kind hop hlive =>
      by_cases hvu : v = u
      · subst hvu
        rw [backend_of_fallback (by simp [RS485Unit.fresh])]
        exact .constructed kind hop hlive
      · rw [backend_construct_other hvu]
        exact .kept (by simpa [hvu] using hv)
  | destroy u hop =>
      have hvu : v ≠ u := by
        rintro rfl
        simp at hv
      exact .kept (by simpa [hvu] using hv)
  | move src dst hop hsrc hne =>
      by_cases hvd : v = dst
      · subst hvd
        rw [h.backend_moved_target hsrc]
        exact .movedIn src (hop.imp_right And.left) hsrc
      · by_cases hvs : v = src
        · subst hvs
          rw [backend_moved_source hne]
          exact .movedOut dst (hop.imp And.left And.left)
        · have hv' : w.live v = true := by simpa [hvd] using hv
          rw [h.backend_moved_other hsrc hv' hvs hvd]
          exact .kept hv'
  | moveSelf => exact .kept hv
  | install u serial hop =>
      have hv' : w.live v = true := by simpa using hv
      by_cases hvu : v = u
      · subst hvu
        cases serial with
        | none => exact .kept hv'
        | some b =>
            rw [backend_install_self]
            exact .installed b hop
      · rw [h.backend_install_other hv' hvu]
        exact .kept hv'
  | settings u unit hop hkind hserial =>
      rw [backend_setUnit hserial]
      exact .kept hv
  | begin u hop hlive r hbegin =>
      have hbegun : ∀ (unit : RS485Unit) (ad : AdapterUART), unit.kind = (w.units u).kind →
          (w.units u).adapter = some ad → w.live v = true → BackendFrom pf w c v
            ((World.begun pf c.env w u unit (ad.line pf.framework)).backend v) := by
        intro unit ad hkind had hv'
        by_cases hvu : v = u
        · subst hvu
          rw [backend_begun_self, hkind]
          exact .begun ad hop hv' had
        · rw [h.backend_begun_other hv' hvu]
          exact .kept hv'
      cases hbegin with
      | unready => exact .kept hv
      | rejected => exact .kept hv
      | failed =>
          rw [backend_setUnit (rolledBack_serial w u)]
          exact .kept hv
      | plain ad hkind had => exact hbegun _ ad rfl had (by simpa using hv)
      | controlled ad hkind hpin had => exact hbegun _ ad rfl had (by simpa using hv)
  | call u call hop hlive =>
      have hv' : w.live v = true := by simpa [serialCall] using hv
      by_cases hvu : v = u
      · subst hvu
        rw [h.backend_serialCall_self hlive]
        exact .called call hop hlive
      · rw [h.backend_serialCall_other hlive hv' hvu]
        exact .kept hv'
  | uartDriver => exact .kept hv
  | arrive => exact .kept hv
  | transmit => exact .kept hv

end Backends

/-! ## Programs that use `UnitSIT3088` only -/

end World

/-- Operations of programs that use no other class of units and install no backend by
hand. -/
def Op.onSIT3088 : Op → Bool
  | .construct _ kind => kind == .sit3088
  | .installSerial _ _ => false
  | _ => true

namespace World

/-- The unit calls the fallback or a DIR decorator it owns. -/
def Bound (w : World) (u : UnitId) : Prop :=
  w.backend u = .nullSerial ∨ (w.backend u).owner = some u

/-- The invariant of programs on `UnitSIT3088`. -/
structure Controlled (w : World) : Prop where
  owned : w.Owned
  kind : ∀ u, w.live u = true → (w.units u).kind = .sit3088
  bound : ∀ u, w.live u = true → w.Bound u

theorem controlled_init (ports : Port → UartPort) : (World.init ports).Controlled where
  owned := owned_init ports
  kind u h := by cases h
  bound u h := by cases h

variable {pf : Platform} {w : World}

/-- A step leaves every unit with a backend that is bound to it. -/
theorem Controlled.bound_step (h : w.Controlled) {c : Call} (hop : c.op.onSIT3088 = true)
    {v : UnitId} (hv : (w.step pf c).1.live v = true) : (w.step pf c).1.Bound v := by
  have hfrom := h.owned.backendFrom pf hv
  unfold Bound
  generalize (w.step pf c).1.backend v = b at hfrom ⊢
  cases hfrom with
  | kept hlive => exact h.bound v hlive
  | constructed => exact Or.inl rfl
  | movedOut => exact Or.inl rfl
  | movedIn src hcop hsrc =>
      rcases h.bound src hsrc with hnull | howner
      · left
        rw [hnull]
        rfl
      · right
        cases hb : w.backend src <;> simp_all [Backend.owner, Backend.rebind]
  | installed b hcop => simp [Op.onSIT3088, hcop] at hop
  | begun ad hcop hlive had =>
      right
      rw [newBackend_owner, h.kind v hlive]
  | called call hcop hlive =>
      rcases h.bound v hlive with hnull | howner
      · left
        rw [hnull]
        rfl
      · right
        rw [← howner]
        exact ((w.backend v).dispatch_keeps pf c.env w.units call _).2

theorem Controlled.kind_step (h : w.Controlled) {c : Call} (hop : c.op.onSIT3088 = true)
    {v : UnitId} (hv : (w.step pf c).1.live v = true) :
    ((w.step pf c).1.units v).kind = .sit3088 := by
  have heffect := step_effect pf w c
  generalize w.step pf c = r at heffect hv ⊢
  cases heffect with
  | rejected => exact h.kind v hv
  | construct u kind hcop hlive =>
      have hkind : kind = .sit3088 := by simpa [Op.onSIT3088, hcop] using hop
      by_cases hvu : v = u
      · subst hvu
        simp [RS485Unit.fresh, hkind]
      · simpa [hvu] using h.kind v (by simpa [hvu] using hv)
  | destroy u hcop hlive =>
      have hvu : v ≠ u := by
        rintro rfl
        simp at hv
      exact h.kind v (by simpa [hvu] using hv)
  | move src dst hcop hsrc hne =>
      by_cases hvd : v = dst
      · subst hvd
        simpa [carriedOver] using h.kind src hsrc
      · by_cases hvs : v = src
        · subst hvs
          simpa [hvd, leftBehind] using h.kind v hsrc
        · simpa [hvd, hvs] using h.kind v (by simpa [hvd] using hv)
  | moveSelf => exact h.kind v hv
  | install u serial hcop => simp [Op.onSIT3088, hcop] at hop
  | settings u unit hcop hkind =>
      by_cases hvu : v = u
      · subst hvu
        simpa [hkind] using h.kind v hv
      · simpa [hvu] using h.kind v hv
  | begin u hcop hlive r hbegin =>
      cases hbegin with
      | unready => exact h.kind v hv
      | rejected => exact h.kind v hv
      | failed =>
          by_cases hvu : v = u
          · subst hvu
            simpa [rolledBack] using h.kind v hv
          · simpa [hvu] using h.kind v hv
      | plain ad hkind => rw [h.kind u hlive] at hkind; cases hkind
      | controlled ad hkind =>
          by_cases hvu : v = u
          · subst hvu
            simpa using hkind
          · simpa [hvu] using h.kind v (by simpa using hv)
  | call u call => simpa [serialCall] using h.kind v (by simpa [serialCall] using hv)
  | uartDriver => exact h.kind v hv
  | arrive => exact h.kind v hv
  | transmit => exact h.kind v hv

variable (pf) in
theorem Controlled.step (h : w.Controlled) {c : Call} (hop : c.op.onSIT3088 = true) :
    (w.step pf c).1.Controlled where
  owned := h.owned.step pf c
  kind _ hv := h.kind_step hop hv
  bound _ hv := h.bound_step hop hv

end World

end RS485
