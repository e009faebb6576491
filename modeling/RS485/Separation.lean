import RS485.Fleet

/-!
# Parts of a program

Two parts of a program that have no unit and no port in common cannot disturb each other: what
one part's operations return, and the driver calls they make, are what they would be if the other
part were not there.

This is shown where units hold their backends, since there an operation touches its own units and
ports and no others.  `Local` says so of an operation of one unit, `Fleet.Confined` of any
operation: it leaves what is outside of its part alone, does not look there, and keeps the units
of its part on the ports of its part.  What the pointers of the code do is then a matter of
`units_hold_backends`.
-/

namespace RS485

open Function

/-- The ports agree on `Q`. -/
def AgreeAt (Q : Set Port) (ports ports' : Port → UartPort) : Prop :=
  ∀ p ∈ Q, ports p = ports' p

/-! ## Operations of one unit -/

namespace OwningUnit

variable {Q : Set Port} {pf : Platform} {env : Env} {ports ports' : Port → UartPort}
  {x : OwningUnit}

/-- The unit may use ports in `Q` only. -/
structure Within (Q : Set Port) (x : OwningUnit) : Prop where
  adapter : ∀ ad, x.adapter = some ad → ad.Within Q
  port : ∀ p, x.backend.port = some p → p ∈ Q

theorem fresh_within (kind : UnitKind) : ∀ y, some (fresh kind) = some y → y.Within Q := by
  intro y hy
  rw [← Option.some.inj hy]
  exact ⟨by simp [fresh], by simp [fresh, Backend.port]⟩

/-- What an operation makes of a unit and of the ports is about ports in `Q` only. -/
structure Local (Q : Set Port)
    (g : (Port → UartPort) → OwningUnit × (Port → UartPort) × Outcome) : Prop where
  within : ∀ ports, (g ports).1.Within Q
  frame : ∀ ports, AgreeAt Qᶜ (g ports).2.1 ports
  congr : ∀ ports ports', AgreeAt Q ports ports' →
    (g ports).1 = (g ports').1 ∧ AgreeAt Q (g ports).2.1 (g ports').2.1 ∧
      (g ports).2.2 = (g ports').2.2

/-- An operation that changes fields only. -/
theorem local_of_fields {y : OwningUnit} {out : Outcome} (hy : y.Within Q) :
    Local Q fun ports => (y, ports, out) where
  within _ := hy
  frame _ _ _ := rfl
  congr _ _ h := ⟨rfl, h, rfl⟩

/-- A choice that depends on ports in `Q` only. -/
theorem Local.ite {b : (Port → UartPort) → Bool}
    {g g' : (Port → UartPort) → OwningUnit × (Port → UartPort) × Outcome}
    (hb : ∀ ports ports', AgreeAt Q ports ports' → b ports = b ports') (hg : Local Q g)
    (hg' : Local Q g') : Local Q fun ports => if b ports then g ports else g' ports where
  within ports := by
    cases b ports
    · exact hg'.within ports
    · exact hg.within ports
  frame ports := by
    cases b ports
    · exact hg'.frame ports
    · exact hg.frame ports
  congr ports ports' h := by
    rw [hb ports ports' h]
    cases b ports'
    · exact hg'.congr ports ports' h
    · exact hg.congr ports ports' h

theorem ioOf_congr (h : AgreeAt Q ports ports') {port : Option Port}
    (hport : ∀ p, port = some p → p ∈ Q) : ioOf ports port = ioOf ports' port := by
  cases port with
  | none => rfl
  | some p => simp only [ioOf, h p (hport p rfl)]

theorem storeUart_frame {port : Option Port} (hport : ∀ p, port = some p → p ∈ Q)
    (uart : UartPort) : AgreeAt Qᶜ (storeUart ports port uart) ports := by
  intro p hp
  cases port with
  | none => rfl
  | some q =>
      have hne : p ≠ q := by
        rintro rfl
        exact hp (hport p rfl)
      simp [storeUart, hne]

theorem storeUart_congr (h : AgreeAt Q ports ports') (port : Option Port) (uart : UartPort) :
    AgreeAt Q (storeUart ports port uart) (storeUart ports' port uart) := by
  intro p hp
  cases port with
  | none => exact h p hp
  | some q =>
      by_cases hpq : p = q
      · subst hpq
        simp [storeUart]
      · simpa [storeUart, hpq] using h p hp

/-- **A call** is about the port of the backend. -/
theorem local_serialCall (h : x.Within Q) (call : SerialCall) :
    Local Q fun ports => x.serialCall pf env ports call where
  within ports := by
    refine ⟨h.adapter, fun p hp => h.port p ?_⟩
    rw [← hp]
    exact ((x.backend.dispatch_keeps pf env (fun _ => x.unit) call _).1).symm
  frame ports := storeUart_frame h.port _
  congr ports ports' hports := by
    simp only [serialCall, ioOf_congr hports h.port]
    exact ⟨trivial, storeUart_congr hports _ _, trivial⟩

theorem ready_congr (h : AgreeAt Q ports ports') {ad : AdapterUART} (had : ad.Within Q) :
    ready pf ports ad = ready pf ports' ad := by
  simp only [ready, h ad.uartPort had.1]

/-- What a program sees of `begin`. -/
def reported (r : OwningUnit × (Port → UartPort) × List Event × Bool) :
    OwningUnit × (Port → UartPort) × Outcome :=
  (r.1, r.2.1, ⟨.flag r.2.2.2, r.2.2.1⟩)

theorem local_begun (h : x.Within Q) {line : Port} (hline : line ∈ Q) :
    Local Q fun ports => reported (x.begun pf env ports line) := by
  have hport : ∀ p, some line = some p → p ∈ Q := by simpa using hline
  refine ⟨fun ports => ⟨h.adapter, ?_⟩, fun ports => storeUart_frame hport _, ?_⟩
  · intro p hp
    have hnew : (World.newBackend pf 0 x.kind line).port = some p := hp
    rw [World.newBackend_port] at hnew
    exact hport p hnew
  · intro ports ports' hports
    simp only [reported, begun, ioOf_congr hports hport]
    exact ⟨trivial, storeUart_congr hports (some line) _, trivial⟩

/-- **`begin()`** is about the port that the adapter leads to. -/
theorem local_begin (h : x.Within Q) :
    Local Q fun ports => reported (x.begin pf env ports) := by
  have hfailed : Local Q fun ports => reported (x.failed pf env ports) := by
    simp only [reported, failed]
    exact local_of_fields ⟨h.adapter, h.port⟩
  by_cases hrejected : x.kind = .sit3088 ∧ World.pinRejected pf x.dirPin = true
  · simp only [begin, if_pos hrejected, reported]
    exact local_of_fields h
  · simp only [begin, if_neg hrejected]
    cases had : x.adapter with
    | none => exact hfailed
    | some ad =>
        simp only [apply_ite reported]
        exact Local.ite (fun _ _ hports => ready_congr hports (h.adapter ad had))
          (local_begun h ((h.adapter ad had).line pf.framework)) hfailed

end OwningUnit

/-! ## Operations of a part -/

/-- The operation is about units in `A` and ports in `Q` only. -/
def Op.Within (A : Set UnitId) (Q : Set Port) : Op → Prop
  | .moveConstruct src dst | .moveAssign src dst => src ∈ A ∧ dst ∈ A
  | .installSerial u backend => u ∈ A ∧ ∀ b, backend = some b → ∀ p, b.port = some p → p ∈ Q
  | .setAdapter u adapter => u ∈ A ∧ ∀ ad, adapter = some ad → ad.Within Q
  | .construct u _ | .destroy u | .config u _ | .configBase u _ | .begin u => u ∈ A
  | .serial u _ => u ∈ A
  | .uartDriver port _ _ | .arrive port _ | .transmit port _ => port ∈ Q

/-- The adapters that a move leaves at its two ends are the one that was there, or none. -/
def Platform.MovesAdapters (pf : Platform) : Prop :=
  ∀ adapter ad, (pf.moveAdapter adapter).1 = some ad ∨ (pf.moveAdapter adapter).2 = some ad →
    adapter = some ad

theorem Platform.esp32_movesAdapters : Platform.esp32.MovesAdapters := by
  simp [Platform.MovesAdapters, Platform.esp32]

namespace Fleet

variable {A : Set UnitId} {Q : Set Port} {pf : Platform} {f g : Fleet} {u : UnitId}

/-- The units in `A` may use ports in `Q` only. -/
def Part (A : Set UnitId) (Q : Set Port) (f : Fleet) : Prop :=
  ∀ u ∈ A, ∀ x, f.units u = some x → x.Within Q

/-- The units in `A` are the same, and the ports in `Q`. -/
structure AgreeOn (A : Set UnitId) (Q : Set Port) (f g : Fleet) : Prop where
  units : ∀ u ∈ A, f.units u = g.units u
  ports : AgreeAt Q f.ports g.ports

/-- The operation is about the part with the units `A` and the ports `Q` only. -/
structure Confined (A : Set UnitId) (Q : Set Port) (step : Fleet → Fleet × Outcome) : Prop where
  part : ∀ f, f.Part A Q → (step f).1.Part A Q
  frame : ∀ f, f.Part A Q → AgreeOn Aᶜ Qᶜ (step f).1 f
  congr : ∀ f g, f.Part A Q → AgreeOn A Q f g →
    (step f).2 = (step g).2 ∧ AgreeOn A Q (step f).1 (step g).1

theorem AgreeOn.refl (f : Fleet) : AgreeOn A Q f f := ⟨fun _ _ => rfl, fun _ _ => rfl⟩

theorem AgreeOn.symm (h : AgreeOn A Q f g) : AgreeOn A Q g f :=
  ⟨fun u hu => (h.units u hu).symm, fun p hp => (h.ports p hp).symm⟩

theorem AgreeOn.trans {f' : Fleet} (h : AgreeOn A Q f g) (h' : AgreeOn A Q g f') :
    AgreeOn A Q f f' :=
  ⟨fun u hu => (h.units u hu).trans (h'.units u hu),
    fun p hp => (h.ports p hp).trans (h'.ports p hp)⟩

theorem Part.of_agreeOn (hf : f.Part A Q) (h : AgreeOn A Q g f) : g.Part A Q := by
  intro u hu x hx
  rw [h.units u hu] at hx
  exact hf u hu x hx

/-! ### A unit put in its place -/

variable {x : Option OwningUnit} {ports ports' : Port → UartPort}

theorem Part.put (hf : f.Part A Q) (hx : ∀ y, x = some y → y.Within Q) :
    Part A Q ⟨update f.units u x, ports⟩ := by
  intro v hv y hy
  by_cases hvu : v = u
  · subst hvu
    exact hx y (by simpa using hy)
  · exact hf v hv y (by simpa [hvu] using hy)

theorem agreeOn_put (hu : u ∈ A) (hports : AgreeAt Qᶜ ports f.ports) :
    AgreeOn Aᶜ Qᶜ ⟨update f.units u x, ports⟩ f := by
  refine ⟨fun v hv => ?_, hports⟩
  have hvu : v ≠ u := by
    rintro rfl
    exact hv hu
  simp [hvu]

theorem AgreeOn.put (h : AgreeOn A Q f g) (hports : AgreeAt Q ports ports') :
    AgreeOn A Q ⟨update f.units u x, ports⟩ ⟨update g.units u x, ports'⟩ := by
  refine ⟨fun v hv => ?_, hports⟩
  by_cases hvu : v = u
  · subst hvu
    simp
  · simpa [hvu] using h.units v hv

theorem confined_nothing (out : Outcome) : Confined A Q fun f => (f, out) :=
  ⟨fun _ hf => hf, fun f _ => AgreeOn.refl f, fun _ _ _ h => ⟨rfl, h⟩⟩

theorem confined_set (hu : u ∈ A) (hx : ∀ y, x = some y → y.Within Q) (out : Outcome) :
    Confined A Q fun f => (f.set u x, out) :=
  ⟨fun _ hf => hf.put hx, fun _ _ => agreeOn_put hu fun _ _ => rfl,
    fun _ _ _ h => ⟨rfl, h.put h.ports⟩⟩

/-- An operation that depends on whether there is a unit, and which. -/
theorem confined_choice (hu : u ∈ A) (op : Option OwningUnit → Fleet → Fleet × Outcome)
    (hop : ∀ x, (∀ y, x = some y → y.Within Q) → Confined A Q (op x)) :
    Confined A Q fun f => op (f.units u) f := by
  refine ⟨fun f hf => (hop _ (hf u hu)).part f hf, fun f hf => (hop _ (hf u hu)).frame f hf,
    fun f g hf h => ?_⟩
  rw [← h.units u hu]
  exact (hop _ (hf u hu)).congr f g hf h

theorem confined_choices {v : UnitId} (hu : u ∈ A) (hv : v ∈ A)
    (op : Option OwningUnit → Option OwningUnit → Fleet → Fleet × Outcome)
    (hop : ∀ x y, (∀ z, x = some z → z.Within Q) → Confined A Q (op x y)) :
    Confined A Q fun f => op (f.units u) (f.units v) f :=
  confined_choice hu (fun x f => op x (f.units v) f) fun x hx =>
    confined_choice hv (op x) fun y _ => hop x y hx

/-- An operation of one unit of the part, -/
theorem confined_ofUnit (hu : u ∈ A)
    {op : OwningUnit → (Port → UartPort) → OwningUnit × (Port → UartPort) × Outcome}
    (hop : ∀ x : OwningUnit, x.Within Q → OwningUnit.Local Q (op x)) :
    Confined A Q fun f => f.ofUnit u op := by
  refine ⟨fun f hf => ?_, fun f hf => ?_, fun f g hf h => ?_⟩
  · cases hx : f.units u with
    | none => simpa only [ofUnit, hx] using hf
    | some x =>
        simp only [ofUnit, hx]
        refine hf.put fun y hy => ?_
        rw [← Option.some.inj hy]
        exact (hop x (hf u hu x hx)).within f.ports
  · cases hx : f.units u with
    | none =>
        simp only [ofUnit, hx]
        exact AgreeOn.refl f
    | some x =>
        simp only [ofUnit, hx]
        exact agreeOn_put hu ((hop x (hf u hu x hx)).frame f.ports)
  · cases hx : f.units u with
    | none =>
        simp only [ofUnit, ← h.units u hu, hx]
        exact ⟨trivial, h⟩
    | some x =>
        obtain ⟨hunit, hports, hout⟩ := (hop x (hf u hu x hx)).congr f.ports g.ports h.ports
        simp only [ofUnit, ← h.units u hu, hx, hunit, hout]
        exact ⟨trivial, h.put hports⟩

/-- one of a port of the part, -/
theorem confined_setPort {port : Port} (hport : port ∈ Q)
    (op : UartPort → UartPort × Outcome) :
    Confined A Q fun f => (f.setPort port (op (f.ports port)).1, (op (f.ports port)).2) := by
  have hport' : ∀ p, some port = some p → p ∈ Q := by simpa using hport
  refine ⟨fun f hf => hf, fun f _ => ⟨fun _ _ => rfl, ?_⟩, fun f g _ h => ?_⟩
  · exact OwningUnit.storeUart_frame hport' _
  · rw [h.ports port hport]
    exact ⟨rfl, h.units, OwningUnit.storeUart_congr h.ports (some port) _⟩

/-- and a move within the part. -/
theorem confined_moved (hpf : pf.MovesAdapters) {src dst : UnitId} (hsrc : src ∈ A)
    (hdst : dst ∈ A) {x : OwningUnit} (hx : x.Within Q) (out : Outcome) :
    Confined A Q fun f => (f.moved pf src dst x, out) := by
  have hleft : ∀ y, some (x.leftBehind pf) = some y → y.Within Q := by
    intro y hy
    rw [← Option.some.inj hy]
    exact ⟨fun ad had => hx.adapter ad (hpf _ _ (.inr had)), fun p hp => by cases hp⟩
  have hcarried : ∀ y, some (x.carriedOver pf) = some y → y.Within Q := by
    intro y hy
    rw [← Option.some.inj hy]
    exact ⟨fun ad had => hx.adapter ad (hpf _ _ (.inl had)), hx.port⟩
  refine ⟨fun f hf => (hf.put hleft).put hcarried, fun f _ => ?_, fun f g _ h => ⟨rfl, ?_⟩⟩
  · have hout := agreeOn_put (f := f) (Q := Q) (x := some (x.leftBehind pf)) hsrc fun _ _ => rfl
    exact (agreeOn_put hdst fun _ _ => rfl).trans hout
  · exact (h.put h.ports).put h.ports

/-- **A step** of a part is about that part only. -/
theorem confined_step (hpf : pf.MovesAdapters) {c : Call} (hc : c.op.Within A Q) :
    Confined A Q fun f => f.step pf c := by
  obtain ⟨op, env⟩ := c
  cases op with
  | construct u kind =>
      refine confined_choice hc (fun x f => f.construct u kind x) fun x _ => ?_
      cases x with
      | none => exact confined_set hc (OwningUnit.fresh_within kind) _
      | some x => exact confined_nothing _
  | destroy u =>
      refine confined_choice hc (fun x f => f.destroy u x) fun x _ => ?_
      cases x with
      | none => exact confined_nothing _
      | some x => exact confined_set hc (by simp) _
  | moveConstruct src dst =>
      refine confined_choices hc.1 hc.2 (fun x y f => f.moveConstruct pf src dst x y)
        fun x y hx => ?_
      cases x with
      | none => exact confined_nothing _
      | some x =>
          cases y with
          | none => exact confined_moved hpf hc.1 hc.2 (hx x rfl) _
          | some y => exact confined_nothing _
  | moveAssign src dst =>
      refine confined_choices hc.1 hc.2 (fun x y f => f.moveAssign pf src dst x y)
        fun x y hx => ?_
      cases x with
      | none => exact confined_nothing _
      | some x =>
          cases y with
          | none => exact confined_nothing _
          | some y =>
              dsimp only [moveAssign]
              by_cases hkind : x.kind = y.kind
              · by_cases hself : src = dst
                · simp only [if_pos hkind, if_pos hself]
                  exact confined_nothing _
                · simp only [if_pos hkind, if_neg hself]
                  exact confined_moved hpf hc.1 hc.2 (hx x rfl) _
              · simp only [if_neg hkind]
                exact confined_nothing _
  | installSerial u serial =>
      dsimp only [step]
      refine confined_ofUnit hc.1 fun x hx => OwningUnit.local_of_fields ⟨hx.adapter, ?_⟩
      cases serial with
      | none => exact hx.port
      | some b =>
          intro p hp
          exact hc.2 b rfl p (by simpa using hp)
  | setAdapter u adapter =>
      dsimp only [step]
      exact confined_ofUnit hc.1 fun x hx => OwningUnit.local_of_fields ⟨hc.2, hx.port⟩
  | config u cfg =>
      dsimp only [step]
      refine confined_ofUnit hc fun x hx => ?_
      by_cases hkind : x.kind = .sit3088
      · simp only [if_pos hkind]
        exact OwningUnit.local_of_fields ⟨hx.adapter, hx.port⟩
      · simp only [if_neg hkind]
        exact OwningUnit.local_of_fields hx
  | configBase u cfg =>
      dsimp only [step]
      exact confined_ofUnit hc fun x hx => OwningUnit.local_of_fields ⟨hx.adapter, hx.port⟩
  | begin u =>
      dsimp only [step]
      exact confined_ofUnit hc fun x hx => OwningUnit.local_begin hx
  | serial u call =>
      dsimp only [step]
      exact confined_ofUnit hc fun x hx => OwningUnit.local_serialCall hx call
  | uartDriver port installed txRingSize =>
      exact confined_setPort hc fun uart =>
        ({ uart with
            installed := installed
            rx := []
            tx := []
            txRingSize := txRingSize
            txRingUsed := 0 }, ⟨.done, []⟩)
  | arrive port bytes =>
      exact confined_setPort hc fun uart =>
        ({ uart with rx := uart.rx ++ bytes }, ⟨.done, [.received port bytes]⟩)
  | transmit port n =>
      exact confined_setPort hc fun uart =>
        let io := Io.transmit ⟨uart, []⟩ port n env.ringUsed
        (io.uart, ⟨.done, io.log⟩)

end Fleet

/-! ## Runs -/

/-- Two parts of a program side by side: `keep` says which operations are of the one with the
units `A` and the ports `Q`. -/
@[mk_iff]
structure InParts (A : Set UnitId) (Q : Set Port) (keep : Call → Bool) (c : Call) : Prop where
  plain : c.op.installsNoDecorator = true
  kept : keep c = true → c.op.Within A Q
  dropped : keep c = false → c.op.Within Aᶜ Qᶜ

section Runs

variable {A : Set UnitId} {Q : Set Port} {pf : Platform} {f g : Fleet} {c : Call}

/-- What the runs with and without the other part have in common: the part itself, while
either part keeps to its ports. -/
structure SamePart (A : Set UnitId) (Q : Set Port) (f g : Fleet) : Prop where
  agree : Fleet.AgreeOn A Q f g
  part : f.Part A Q
  others : g.Part Aᶜ Qᶜ

theorem SamePart.init (A : Set UnitId) (Q : Set Port) (ports : Port → UartPort) :
    SamePart A Q (Fleet.init ports) (Fleet.init ports) where
  agree := Fleet.AgreeOn.refl _
  part := by simp [Fleet.Part, Fleet.init]
  others := by simp [Fleet.Part, Fleet.init]

theorem SamePart.dropped (hpf : pf.MovesAdapters) (h : SamePart A Q f g)
    (hc : c.op.Within Aᶜ Qᶜ) : SamePart A Q f (g.step pf c).1 := by
  have hconfined := Fleet.confined_step hpf hc
  have hframe := hconfined.frame g h.others
  rw [compl_compl, compl_compl] at hframe
  exact ⟨h.agree.trans hframe.symm, h.part, hconfined.part g h.others⟩

theorem SamePart.kept (hpf : pf.MovesAdapters) (h : SamePart A Q f g) (hc : c.op.Within A Q) :
    (f.step pf c).2 = (g.step pf c).2 ∧ SamePart A Q (f.step pf c).1 (g.step pf c).1 := by
  have hconfined := Fleet.confined_step hpf hc
  have hpart : g.Part A Q := h.part.of_agreeOn h.agree.symm
  obtain ⟨hout, hagree⟩ := hconfined.congr f g h.part h.agree
  exact ⟨hout, hagree, hconfined.part f h.part, h.others.of_agreeOn (hconfined.frame g hpart)⟩

/-- The run without the other part, where units hold their backends. -/
theorem fleet_parts (hpf : pf.MovesAdapters) {keep : Call → Bool} (ports : Port → UartPort)
    {calls : List Call} (hparts : ∀ c ∈ calls, InParts A Q keep c) :
    (fleetMachine pf).outputs (Fleet.init ports) (calls.filter keep) =
        (fleetMachine pf).collect (fun _ c o => if keep c then some o else none)
          (Fleet.init ports) calls ∧
      SamePart A Q ((fleetMachine pf).after (Fleet.init ports) (calls.filter keep))
        ((fleetMachine pf).after (Fleet.init ports) calls) := by
  have herase := OutputMachine.outputs_filterMap_eq_collect (m := fleetMachine pf)
    (n := fleetMachine pf) (Option.guard keep) (SamePart A Q) (fun _ c => InParts A Q keep c)
    ?_ ?_ calls _ _ (SamePart.init A Q ports) ((fleetMachine pf).along_of_forall hparts _)
  · simp only [List.filterMap_eq_filter] at herase
    refine ⟨herase.1.trans (OutputMachine.collect_congr ?_), herase.2⟩
    refine (fleetMachine pf).along_of_all (fun f c => ?_) _ _
    cases hkeep : keep c <;> simp [Option.guard, hkeep]
  · intro f g c hdrop hc h
    exact h.dropped hpf (hc.dropped (by simpa using hdrop))
  · intro f g c c' herased hc h
    obtain ⟨rfl, hkeep⟩ := Option.guard_eq_some_iff.mp herased
    exact h.kept hpf (hc.kept hkeep)

end Runs

/-- **Parts do not interfere.**  A program has two parts with no unit and no port in common,
their operations mixed in any way.  Take the operations of one part out: those of the other
return what they returned and make the driver calls they made, and at the end its units have the
fields and the backends, and its ports are in the state, that they had. -/
theorem parts_do_not_interfere (pf : Platform) (hpf : pf.MovesAdapters) (A : Set UnitId)
    (Q : Set Port) (keep : Call → Bool) (ports : Port → UartPort) (calls : List Call)
    (hparts : ∀ c ∈ calls, InParts A Q keep c) :
    (machine pf).outputs (World.init ports) (calls.filter keep) =
        (machine pf).collect (fun _ c o => if keep c then some o else none) (World.init ports)
          calls ∧
      Fleet.AgreeOn A Q ((machine pf).after (World.init ports) (calls.filter keep)).fleet
        ((machine pf).after (World.init ports) calls).fleet := by
  have hplain : ∀ c ∈ calls, c.op.installsNoDecorator = true := fun c hc => (hparts c hc).plain
  have hplain' : ∀ c ∈ calls.filter keep, c.op.installsNoDecorator = true :=
    fun c hc => hplain c (List.mem_of_mem_filter hc)
  have hinit : ∃ named, PinsNamed pf named (World.init ports) := ⟨[], PinsNamed.init pf ports⟩
  obtain ⟨houtputs, hsame⟩ := fleet_parts hpf ports hparts
  obtain ⟨hout, hafter⟩ := PinsNamed.run hinit hplain
  obtain ⟨hout', hafter'⟩ := PinsNamed.run hinit hplain'
  have hfleet : (World.init ports).fleet = Fleet.init ports := rfl
  rw [hfleet] at hout hafter hout' hafter'
  rw [← hafter, ← hafter', ← hout', houtputs]
  exact ⟨OutputMachine.collect_eq_of_outputs_eq (fun c o => if keep c then some o else none) hout,
    hsame.agree⟩

/-! ### A sample -/

/-- A UnitSIT3088 on port 1 and DIR pin 5 beside a UnitSP485 on port 2, which is moved. -/
def sampleParts : List Call :=
  [⟨.construct 0 .sit3088, .calm⟩, ⟨.construct 1 .sp485, .calm⟩,
    ⟨.setAdapter 0 (some ⟨none, 1⟩), .calm⟩, ⟨.setAdapter 1 (some ⟨none, 2⟩), .calm⟩,
    ⟨.config 0 { dirPin := 5 }, .calm⟩, ⟨.begin 1, .calm⟩, ⟨.begin 0, .calm⟩,
    ⟨.serial 1 (.writeBuf (.mem [0x03])), .calm⟩, ⟨.moveConstruct 1 2, .calm⟩,
    ⟨.serial 0 (.writeBuf (.mem [0x01, 0x02])), .calm⟩, ⟨.arrive 2 [0x04], .calm⟩,
    ⟨.serial 2 .read, .calm⟩]

/-- The operations of unit 0. -/
def sampleKeep (c : Call) : Bool :=
  match c.op with
  | .construct 0 _ | .setAdapter 0 _ | .config 0 _ | .begin 0 | .serial 0 _ => true
  | _ => false

theorem sampleParts_inParts : ∀ c ∈ sampleParts, InParts {0} {1} sampleKeep c := by
  simp [sampleParts, inParts_iff, sampleKeep, Op.installsNoDecorator,
    Op.Within, AdapterUART.Within]

theorem sample_parts :
    (machine .esp32).outputs (World.init samplePorts) (sampleParts.filter sampleKeep) =
        (machine .esp32).collect (fun _ c o => if sampleKeep c then some o else none)
          (World.init samplePorts) sampleParts ∧
      Fleet.AgreeOn {0} {1}
        ((machine .esp32).after (World.init samplePorts) (sampleParts.filter sampleKeep)).fleet
        ((machine .esp32).after (World.init samplePorts) sampleParts).fleet :=
  parts_do_not_interfere .esp32 Platform.esp32_movesAdapters {0} {1} sampleKeep samplePorts
    sampleParts sampleParts_inParts

end RS485
