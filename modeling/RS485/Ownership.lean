import Mathlib.Data.List.Nodup
import RS485.Steps

/-!
# Who owns which backend

A unit's pointer leads to the shared fallback or to a backend of the unit's own, and the flag
in its deleter must tell which.  `SerialPtr.WellFormed` says that it does, and `World.ledger`
is what the pointers of the live units amount to: who holds which heap object, and what has
been destroyed.

Every step keeps the pointers well formed and acts on the ledger as one of its operations:
`begin` and `install_serial` issue, a move transfers, a destructor drops, and nothing else
touches it.  So the ledger stays balanced (`World.Owned.step`), and `backend_ownership` reads
off what that says about a run.
-/

namespace RS485

open Function

/-! ## Pointers -/

def BackendPtr.heapId : BackendPtr → Option ℕ
  | .fallback => none
  | .heap id => some id

theorem BackendPtr.mem_filterMap_heapId {ps : List BackendPtr} {id : ℕ} :
    id ∈ ps.filterMap heapId ↔ .heap id ∈ ps := by
  rw [List.mem_filterMap]
  constructor
  · rintro ⟨p, hp, hid⟩
    cases p with
    | fallback => cases hid
    | heap id' => cases hid; exact hp
  · intro h
    exact ⟨.heap id, h, rfl⟩

/-- A list of pointers without the fallback is known by the heap objects in it. -/
theorem BackendPtr.map_heap_filterMap_heapId {ps : List BackendPtr} (h : .fallback ∉ ps) :
    (ps.filterMap heapId).map .heap = ps := by
  induction ps with
  | nil => rfl
  | cons p ps ih =>
      cases p with
      | fallback => simp at h
      | heap id =>
          have htail : BackendPtr.fallback ∉ ps := fun hmem => h (List.mem_cons_of_mem _ hmem)
          simp [heapId, ih htail]

namespace SerialPtr

/-- The flag tells the shared fallback from a backend of the unit's own. -/
def WellFormed (p : SerialPtr) : Prop :=
  p = fallback ∨ ∃ id, p = ⟨some (.heap id), true⟩

/-- The heap object the pointer leads to. -/
def heapId (p : SerialPtr) : Option ℕ := p.get.bind BackendPtr.heapId

@[simp] theorem heapId_fallback : fallback.heapId = none := rfl

@[simp] theorem heapId_heap (id : ℕ) (owned : Bool) :
    heapId ⟨some (.heap id), owned⟩ = some id := rfl

theorem wellFormed_fallback : WellFormed fallback := Or.inl rfl

theorem wellFormed_heap (id : ℕ) : WellFormed ⟨some (.heap id), true⟩ := Or.inr ⟨id, rfl⟩

theorem WellFormed.filterMap_deleted {p : SerialPtr} (h : p.WellFormed) :
    p.deleted.filterMap BackendPtr.heapId = p.heapId.toList := by
  rcases h with rfl | ⟨id, rfl⟩ <;> rfl

theorem WellFormed.fallback_notMem_deleted {p : SerialPtr} (h : p.WellFormed) :
    .fallback ∉ p.deleted := by
  rcases h with rfl | ⟨id, rfl⟩ <;> simp [FlaggedPtr.deleted, fallback]

end SerialPtr

/-! ## The ledger -/

namespace World

/-- The heap object a unit holds. -/
def holds (w : World) (u : UnitId) : Option ℕ :=
  if w.live u then (w.units u).serial.heapId else none

/-- Heap objects as resources. -/
def ledger (w : World) : Ledger UnitId :=
  ⟨w.holds, w.next, w.destroyed.filterMap BackendPtr.heapId⟩

theorem holds_of_live {w : World} {u : UnitId} (h : w.live u = true) :
    w.holds u = (w.units u).serial.heapId := if_pos h

/-- The invariant: the flags are right, the fallback has not been destroyed, and the ledger
is balanced. -/
structure Owned (w : World) : Prop where
  wellFormed : ∀ u, w.live u = true → (w.units u).serial.WellFormed
  fallback : .fallback ∉ w.destroyed
  balanced : w.ledger.Balanced

theorem owned_init (ports : Port → UartPort) : (World.init ports).Owned where
  wellFormed u h := by cases h
  fallback := by simp [World.init]
  balanced := Ledger.balanced_empty

namespace Owned

variable {pf : Platform} {w w' : World} {u src dst : UnitId}

/-- What leaves the pointers and what is destroyed as they are keeps the invariant. -/
theorem of_same (h : w.Owned) (hserial : ∀ u, (w'.units u).serial = (w.units u).serial)
    (hlive : w'.live = w.live) (hnext : w'.next = w.next)
    (hdestroyed : w'.destroyed = w.destroyed) : w'.Owned where
  wellFormed u hu := by
    rw [hserial]
    exact h.wellFormed u (hlive ▸ hu)
  fallback := by
    rw [hdestroyed]
    exact h.fallback
  balanced := by
    have hledger : w'.ledger = w.ledger := by
      have hholds : w'.holds = w.holds := by
        funext u
        simp only [holds, hlive, hserial]
      simp only [ledger, hholds, hnext, hdestroyed]
    exact hledger ▸ h.balanced

/-- A new backend is issued to the unit it is handed to. -/
theorem of_issued (h : w.Owned) (hu : w.live u = true) {unit : RS485Unit}
    (hunits : w'.units = update w.units u { unit with serial := ⟨some (.heap w.next), true⟩ })
    (hlive : w'.live = w.live) (hnext : w'.next = w.next + 1)
    (hdestroyed : w'.destroyed = w.destroyed ++ (w.units u).serial.deleted) : w'.Owned where
  wellFormed v hv := by
    rw [hunits]
    by_cases hvu : v = u
    · subst hvu
      simpa using SerialPtr.wellFormed_heap _
    · rw [update_of_ne hvu]
      exact h.wellFormed v (hlive ▸ hv)
  fallback := by
    rw [hdestroyed, List.mem_append, not_or]
    exact ⟨h.fallback, (h.wellFormed u hu).fallback_notMem_deleted⟩
  balanced := by
    have hledger : w'.ledger = w.ledger.issue u := by
      have hholds : w'.holds = update w.holds u (some w.next) := by
        funext v
        by_cases hvu : v = u
        · subst hvu
          simp [holds, hlive, hu, hunits]
        · simp [holds, hlive, hunits, hvu]
      simp only [ledger, Ledger.issue, hholds, hnext, hdestroyed, List.filterMap_append,
        (h.wellFormed u hu).filterMap_deleted, holds_of_live hu]
    exact hledger ▸ h.balanced.issue u

theorem of_constructed (h : w.Owned) (hu : w.live u = false) (kind : UnitKind) :
    ({ w with
        units := update w.units u (RS485Unit.fresh kind)
        live := update w.live u true } : World).Owned where
  wellFormed v hv := by
    by_cases hvu : v = u
    · subst hvu
      simpa [RS485Unit.fresh] using SerialPtr.wellFormed_fallback
    · simpa [hvu] using h.wellFormed v (by simpa [hvu] using hv)
  fallback := h.fallback
  balanced := by
    have hholds : holds
        { w with
          units := update w.units u (RS485Unit.fresh kind)
          live := update w.live u true } = w.holds := by
      funext v
      by_cases hvu : v = u
      · subst hvu
        simp [holds, hu, RS485Unit.fresh]
      · simp [holds, hvu]
    simp only [ledger, hholds]
    exact h.balanced

theorem of_destroyed (h : w.Owned) (hu : w.live u = true) :
    ({ w with
        live := update w.live u false
        destroyed := w.destroyed ++ (w.units u).serial.deleted } : World).Owned where
  wellFormed v hv := by
    have hvu : v ≠ u := by
      rintro rfl
      simp at hv
    exact h.wellFormed v (by simpa [hvu] using hv)
  fallback := by
    rw [List.mem_append, not_or]
    exact ⟨h.fallback, (h.wellFormed u hu).fallback_notMem_deleted⟩
  balanced := by
    have hledger : ledger
        { w with
          live := update w.live u false
          destroyed := w.destroyed ++ (w.units u).serial.deleted } = w.ledger.drop u := by
      have hholds : holds
          { w with
            live := update w.live u false
            destroyed := w.destroyed ++ (w.units u).serial.deleted } =
          update w.holds u none := by
        funext v
        by_cases hvu : v = u
        · subst hvu
          simp [holds]
        · simp [holds, hvu]
      simp only [ledger, Ledger.drop, hholds, List.filterMap_append,
        (h.wellFormed u hu).filterMap_deleted, holds_of_live hu]
    exact hledger ▸ h.balanced.drop u

/-- A move transfers what the source holds to the target, which gives up what it held. -/
theorem of_moved (h : w.Owned) (hsrc : w.live src = true) (hne : src ≠ dst) :
    (moved pf w src dst).Owned where
  wellFormed v hv := by
    rw [moved_units]
    by_cases hvd : v = dst
    · subst hvd
      simpa [carriedOver] using h.wellFormed src hsrc
    · rw [update_of_ne hvd]
      by_cases hvs : v = src
      · subst hvs
        simpa [leftBehind] using SerialPtr.wellFormed_fallback
      · rw [update_of_ne hvs]
        exact h.wellFormed v (by simpa [hvd] using hv)
  fallback := by
    rw [moved_destroyed, List.mem_append, not_or]
    refine ⟨h.fallback, ?_⟩
    split
    · next hdst => exact (h.wellFormed dst hdst).fallback_notMem_deleted
    · exact List.not_mem_nil
  balanced := by
    have hledger : (moved pf w src dst).ledger = w.ledger.transfer src dst := by
      -- the source is left with the fallback, and the target holds what it held
      have hholds : (moved pf w src dst).holds =
          update (update w.holds src none) dst (w.holds src) := by
        funext v
        by_cases hvd : v = dst
        · subst hvd
          simp [holds, carriedOver, hsrc]
        · by_cases hvs : v = src
          · subst hvs
            simp [holds, leftBehind, hvd]
          · simp [holds, hvd, hvs]
      have hreturned : (moved pf w src dst).destroyed.filterMap BackendPtr.heapId =
          w.destroyed.filterMap BackendPtr.heapId ++ (w.holds dst).toList := by
        rw [moved_destroyed, List.filterMap_append]
        cases hdst : w.live dst with
        | false => simp [holds, hdst]
        | true => simp [holds, hdst, (h.wellFormed dst hdst).filterMap_deleted]
      simp only [ledger, Ledger.transfer, hholds, hreturned, moved_next]
    exact hledger ▸ h.balanced.transfer hne

variable (pf) in
/-- **Every step keeps the invariant.** -/
theorem step (h : w.Owned) (c : Call) : (w.step pf c).1.Owned := by
  have heffect := step_effect pf w c
  generalize w.step pf c = r at heffect
  cases heffect with
  | rejected => exact h
  | construct u kind hop hlive => exact h.of_constructed hlive kind
  | destroy u hop hlive => exact h.of_destroyed hlive
  | move src dst hop hsrc hne => exact h.of_moved hsrc hne
  | moveSelf => exact h
  | install u serial hop hlive =>
      cases serial with
      | none => exact h
      | some b => exact h.of_issued hlive rfl rfl rfl rfl
  | settings u unit hop hkind hserial hpin =>
      refine h.of_same (fun v => ?_) rfl rfl rfl
      by_cases hvu : v = u
      · subst hvu
        simp [hserial]
      · simp [hvu]
  | begin u hop hlive r hbegin =>
      cases hbegin with
      | unready => exact h
      | rejected => exact h
      | failed =>
          refine h.of_same (fun v => ?_) rfl rfl rfl
          by_cases hvu : v = u
          · subst hvu
            simp
          · simp [hvu]
      | plain =>
          exact h.of_issued hlive (begun_units ..) (begun_live ..) (begun_next ..)
            (begun_destroyed ..)
      | controlled =>
          exact h.of_issued hlive (begun_units ..) (begun_live ..) (begun_next ..)
            (begun_destroyed ..)
  | call u call hop hlive =>
      exact h.of_same (fun _ => by simp [serialCall]) (by simp [serialCall])
        (by simp [serialCall]) (by simp [serialCall])
  | uartDriver port installed txRingSize hop => exact h.of_same (fun _ => rfl) rfl rfl rfl
  | arrive port bytes hop => exact h.of_same (fun _ => rfl) rfl rfl rfl
  | transmit port n hop => exact h.of_same (fun _ => rfl) rfl rfl rfl

end Owned

/-- The unit that has given up its backend by an operation with this result. -/
def replaced : Op → Result → Option UnitId
  | .destroy u, .done => some u
  | .moveAssign src dst, .done => if src = dst then none else some dst
  | .installSerial u (some _), .done => some u
  | .begin u, .flag true => some u
  | _, _ => none

/-- A backend is destroyed when it is replaced or its holder is destroyed, and at no other
time. -/
theorem step_destroyed (pf : Platform) (w : World) (c : Call) :
    (w.step pf c).1.destroyed =
      w.destroyed ++ ((replaced c.op (w.step pf c).2.result).elim []
        fun u => (w.units u).serial.deleted) := by
  have heffect := step_effect pf w c
  generalize w.step pf c = r at heffect
  cases heffect with
  | rejected hop => cases c.op <;> simp [replaced]
  | construct u kind hop => simp [replaced, hop]
  | destroy u hop => simp [replaced, hop]
  | move src dst hop hsrc hne =>
      rcases hop with ⟨hop, hdst⟩ | ⟨hop, hdst, -⟩ <;> simp [replaced, hop, hdst, hne]
  | moveSelf u hop => simp [replaced, hop]
  | install u serial hop => cases serial <;> simp [replaced, hop, installSerial]
  | settings u unit hop =>
      rcases hop with ⟨ad, hop⟩ | ⟨cfg, hop⟩ | ⟨cfg, hop⟩ <;> simp [replaced, hop]
  | begin u hop hlive r hbegin => cases hbegin <;> simp [replaced, hop]
  | call u call hop =>
      simp [serialCall, replaced, hop]
  | uartDriver port installed txRingSize hop => simp [exec, replaced, hop, storePort]
  | arrive port bytes hop => simp [exec, replaced, hop, storePort]
  | transmit port n hop => simp [exec, replaced, hop, storePort]

/-- The unit that is handed a new backend by an operation with this result. -/
def issuedTo : Op → Result → Option UnitId
  | .installSerial u (some _), .done => some u
  | .begin u, .flag true => some u
  | _, _ => none

/-- A backend is handed over when it is installed or a `begin()` succeeds, to the unit, and at no
other time. -/
theorem step_issued (pf : Platform) (w : World) (c : Call) :
    let r := w.step pf c
    r.1.next = w.next + (issuedTo c.op r.2.result).toList.length ∧
      ∀ u ∈ issuedTo c.op r.2.result, (r.1.units u).serial = ⟨some (.heap w.next), true⟩ := by
  intro r
  have heffect : w.Effect pf c r := step_effect pf w c
  clear_value r
  cases heffect with
  | rejected hop => cases c.op <;> simp [issuedTo]
  | construct u kind hop => simp [issuedTo, hop]
  | destroy u hop => simp [issuedTo, hop]
  | move src dst hop =>
      rcases hop with ⟨hop, -⟩ | ⟨hop, -⟩ <;> simp [issuedTo, hop]
  | moveSelf u hop => simp [issuedTo, hop]
  | install u serial hop => cases serial <;> simp [issuedTo, hop, installSerial]
  | settings u unit hop =>
      rcases hop with ⟨ad, hop⟩ | ⟨cfg, hop⟩ | ⟨cfg, hop⟩ <;> simp [issuedTo, hop]
  | begin u hop hlive r hbegin => cases hbegin <;> simp [issuedTo, hop]
  | call u call hop => cases call <;> simp [serialCall, issuedTo, hop]
  | uartDriver port installed txRingSize hop => simp [exec, issuedTo, hop, storePort]
  | arrive port bytes hop => simp [exec, issuedTo, hop, storePort]
  | transmit port n hop => simp [exec, issuedTo, hop, storePort]

end World

/-! ## Runs -/

theorem owned_after (pf : Platform) (ports : Port → UartPort) (calls : List Call) :
    ((machine pf).after (World.init ports) calls).Owned :=
  OutputMachine.after_invariant (P := fun _ _ => True) (fun _ c h _ => h.step pf c)
    (World.owned_init ports) ((machine pf).along_of_all (fun _ _ => trivial) _ _)

/-- **Backend ownership.**  After any run, every live unit has a backend and its flag is set
exactly if that is not the shared fallback.  Each backend handed over is held by exactly one
live unit or has been destroyed, none is destroyed twice, the fallback never, and once no
unit is left every one has been destroyed.  Along the run, a backend is handed over exactly when
one is installed or a `begin()` succeeds, and its unit then holds it; and one is destroyed
exactly when it is replaced or its holder is destroyed.  Installing nothing and moving a unit
onto itself change nothing. -/
theorem backend_ownership (pf : Platform) (ports : Port → UartPort) (calls : List Call) :
    let w := (machine pf).after (World.init ports) calls
    (∀ u, w.live u = true → ∃ p, (w.units u).serial.get = some p ∧
      ((w.units u).serial.owned = true ↔ p ≠ .fallback)) ∧
    (∀ id < w.next,
      (∃! u, w.live u = true ∧ (w.units u).serial.get = some (.heap id)) ∧
          .heap id ∉ w.destroyed ∨
        (∀ u, ¬ (w.live u = true ∧ (w.units u).serial.get = some (.heap id))) ∧
          .heap id ∈ w.destroyed) ∧
    w.destroyed.Nodup ∧ .fallback ∉ w.destroyed ∧
    ((∀ u, w.live u = false) → ∀ id < w.next, w.destroyed.count (.heap id) = 1) ∧
    (machine pf).Along
      (fun w c => (w.step pf c).1.next =
          w.next + (World.issuedTo c.op (w.step pf c).2.result).toList.length ∧
        ∀ u ∈ World.issuedTo c.op (w.step pf c).2.result,
          ((w.step pf c).1.units u).serial = ⟨some (.heap w.next), true⟩)
      (World.init ports) calls ∧
    (machine pf).Along
      (fun w c => (w.step pf c).1.destroyed =
        w.destroyed ++ ((World.replaced c.op (w.step pf c).2.result).elim []
          fun u => (w.units u).serial.deleted)) (World.init ports) calls ∧
    ∀ u env, (w.step pf ⟨.installSerial u none, env⟩).1 = w ∧
      (w.step pf ⟨.moveAssign u u, env⟩).1 = w := by
  intro w
  have howned : w.Owned := owned_after pf ports calls
  have hholds : ∀ u id, w.holds u = some id ↔
      w.live u = true ∧ (w.units u).serial.get = some (.heap id) := by
    intro u id
    cases hu : w.live u with
    | false => simp [World.holds, hu]
    | true =>
        rcases howned.wellFormed u hu with hptr | ⟨id', hptr⟩ <;>
          simp [World.holds, hu, hptr, SerialPtr.fallback, SerialPtr.heapId, BackendPtr.heapId]
  have hreturned : ∀ id, id ∈ w.ledger.returned ↔ .heap id ∈ w.destroyed :=
    fun id => BackendPtr.mem_filterMap_heapId
  have hnodup : w.destroyed.Nodup := by
    rw [← BackendPtr.map_heap_filterMap_heapId howned.fallback]
    exact howned.balanced.returned_once.map fun _ _ heq => BackendPtr.heap.inj heq
  refine ⟨?_, ?_, hnodup, howned.fallback, ?_, ?_, ?_, ?_⟩
  · intro u hu
    rcases howned.wellFormed u hu with hptr | ⟨id, hptr⟩ <;>
      simp [hptr, SerialPtr.fallback]
  · intro id hid
    -- what is accounted for has gone or has a holder, and not both
    rcases howned.balanced.accounted id hid with hgone | ⟨u, hu⟩
    · right
      refine ⟨fun u hu => ?_, (hreturned id).mp hgone⟩
      exact howned.balanced.held_not_returned u id ((hholds u id).mpr hu) hgone
    · left
      refine ⟨⟨u, (hholds u id).mp hu, fun v hv => ?_⟩, fun hgone => ?_⟩
      · exact howned.balanced.held_once v u id ((hholds v id).mpr hv) hu
      · exact howned.balanced.held_not_returned u id hu ((hreturned id).mpr hgone)
  · intro hnone id hid
    refine List.count_eq_one_of_mem hnodup ?_
    rcases howned.balanced.accounted id hid with hgone | ⟨u, hu⟩
    · exact (hreturned id).mp hgone
    · have hlive := ((hholds u id).mp hu).1
      rw [hnone u] at hlive
      cases hlive
  · exact (machine pf).along_of_all (World.step_issued pf) _ _
  · exact (machine pf).along_of_all (World.step_destroyed pf) _ _
  · intro u env
    constructor
    · unfold World.step
      split <;> rfl
    · unfold World.step
      split
      · exact World.moveAssign_self
      · rfl

end RS485
