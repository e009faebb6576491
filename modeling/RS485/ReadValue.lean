import RS485.Fallback
import RS485.ValueLink

/-!
# What `readValue` takes and reports

A `readValue` on an `IDFSerial` asks for as many bytes as its type has, and gets a prefix of
what is pending and what arrives before it times out.  With all of them it reports the value
they are the wire image of; with fewer it reports failure and `T{}`.  Either way it has taken
just these bytes (`ReadsExactly`), so that whatever comes next begins with the first byte that
was not delivered.

`readValue_exact` says so of every `readValue` of a run, and adds up what a run of them takes.
The last part is about units: one on an `IDFSerial`, plain or DIR-controlled, reads as that
does, and one without a backend of its own reads nothing.
-/

namespace RS485

/-- What a `readValue` of type `T` does with a stream: it takes the bytes that are delivered
and leaves the rest.  If there are as many as `T` has, it returns the one value whose wire
image, in the declared byte order, they are; otherwise it fails and the value is `T{}`. -/
structure ReadsExactly (littleEndian : Bool) (T : ValueType) (stream delivered rest : List Byte)
    (result : Result) : Prop where
  split : stream = delivered ++ rest
  length_le : delivered.length ≤ T.size
  complete : delivered.length = T.size → ∃ v,
    (∀ v', wireImage littleEndian T v' = delivered ↔ v' = v) ∧ result = .value true ⟨T, v⟩
  short : delivered.length < T.size → result = .value false ⟨T, T.init⟩

/-! ## One `readValue` -/

namespace RS485Component

variable {pf : Platform} {littleEndian : Bool} {T : ValueType} {bytes : List Byte}

/-- As many bytes as the type has are decoded to the value they are the image of. -/
theorem decodeValue_of_complete (hswap : pf.SwapsBytes) (h : bytes.length = T.size) :
    ∃ v, (∀ v', wireImage littleEndian T v' = bytes ↔ v' = v) ∧
      decodeValue pf littleEndian T bytes = (true, v) := by
  obtain ⟨v, hv, hunique⟩ := existsUnique_wireImage littleEndian T h
  refine ⟨v, fun v' => ⟨hunique v', ?_⟩, ?_⟩
  · rintro rfl
    exact hv
  · rw [← hv]
    exact decodeValue_wireImage hswap littleEndian T v

theorem decodeValue_of_short (h : bytes.length ≠ T.size) :
    decodeValue pf littleEndian T bytes = (false, T.init) :=
  if_pos h

end RS485Component

namespace IDFSerial

/-- What a `readValue` gets of the pending input and of what arrives before it times out: the
byte held back, and what the driver hands out of the rest. -/
def delivered (p : IDFSerial × UartPort) (T : ValueType) (env : Env) (arrived : List Byte) :
    List Byte :=
  (p.1.pending p.2 ++ arrived).take
    (min T.size (p.1.held + env.readCount (T.size - p.1.held)))

variable {pf : Platform} (p : IDFSerial × UartPort) (T : ValueType) (env : Env)

/-- A driver that hands out what there is delivers all that the type has room for. -/
theorem delivered_of_succeeds {littleEndian : Bool}
    (h : (SerialCall.readValue littleEndian T).Succeeds env) (arrived : List Byte) :
    delivered p T env arrived = (p.1.pending p.2 ++ arrived).take T.size := by
  obtain ⟨limit, hdelivered, hlimit⟩ := h
  have hcount : env.readCount (T.size - p.1.held) = T.size - p.1.held :=
    env.readCount_of_le hdelivered (le_trans (Nat.sub_le ..) hlimit)
  have hreach : min T.size (p.1.held + env.readCount (T.size - p.1.held)) = T.size := by
    rw [hcount]
    omega
  rw [delivered, hreach]

/-- What is delivered is taken, and nothing else. -/
theorem delivered_append_pending (littleEndian : Bool) :
    let r := (machine pf).step p (.call (.readValue littleEndian T) env)
    p.1.pending p.2 ++ receivedBytes r.2.2 =
      delivered p T env (receivedBytes r.2.2) ++ r.1.1.pending r.1.2 := by
  intro r
  have hrest : r.1.1.pending r.1.2 = (p.1.pending p.2 ++ receivedBytes r.2.2).drop
      (min T.size (p.1.held + env.readCount (T.size - p.1.held))) :=
    (perform_serve pf env p.1 (.readValue littleEndian T) p.2).1
  rw [hrest]
  exact (List.take_append_drop ..).symm

/-- **One `readValue`** takes what is delivered and reports it, if that is enough. -/
theorem readValue_readsExactly (hswap : pf.SwapsBytes) (littleEndian : Bool) :
    let r := (machine pf).step p (.call (.readValue littleEndian T) env)
    ReadsExactly littleEndian T (p.1.pending p.2 ++ receivedBytes r.2.2)
      (delivered p T env (receivedBytes r.2.2)) (r.1.1.pending r.1.2) r.2.1 := by
  intro r
  let bytes := delivered p T env (receivedBytes r.2.2)
  obtain ⟨-, hanswer⟩ := perform_serve pf env p.1 (.readValue littleEndian T) p.2
  have hresult : r.2.1 =
      .value (RS485Component.decodeValue pf littleEndian T bytes).1
        ⟨T, (RS485Component.decodeValue pf littleEndian T bytes).2⟩ := hanswer _ rfl
  refine ⟨delivered_append_pending p T env littleEndian, ?_, ?_, ?_⟩
  · exact le_trans (List.length_take_le ..) (Nat.min_le_left ..)
  · intro hcomplete
    obtain ⟨v, hv, hdecode⟩ := RS485Component.decodeValue_of_complete hswap hcomplete
    have hdecode' : RS485Component.decodeValue pf littleEndian T bytes = (true, v) := hdecode
    refine ⟨v, hv, ?_⟩
    rw [hresult, hdecode']
  · intro hshort
    have hdecode : RS485Component.decodeValue pf littleEndian T bytes = (false, T.init) :=
      RS485Component.decodeValue_of_short (Nat.ne_of_lt hshort)
    rw [hresult, hdecode]

/-! ## Runs -/

/-- The bytes a `readValue` takes off the stream. -/
def Input.takes (p : IDFSerial × UartPort) : Input → Result × List Event → Option (List Byte)
  | .call (.readValue _ T) env, o => some (delivered p T env (receivedBytes o.2))
  | _, _ => none

theorem Input.takes_of_not_reads {i : Input} (hreads : i.reads = none)
    (o : Result × List Event) : i.takes p o = none := by
  cases i with
  | arrive bytes => rfl
  | call call env => cases call <;> first | rfl | cases hreads

/-- What is pending and what arrives during a run of `readValue` calls is, in order, what they
take and what is then pending. -/
theorem reads_take (inputs : List Input) (hinputs : ∀ i ∈ inputs, i.readsOrLooks = true) :
    p.1.pending p.2 ++ receivedBytes (((machine pf).outputs p inputs).flatMap Prod.snd) =
      ((machine pf).collect (fun p i o => i.takes p o) p inputs).flatten ++
        ((machine pf).after p inputs).1.pending ((machine pf).after p inputs).2 := by
  induction inputs generalizing p with
  | nil => simp
  | cons i inputs ih =>
      obtain ⟨hi, hinputs'⟩ := List.forall_mem_cons.mp hinputs
      have hrest := ih ((machine pf).step p i).1 hinputs'
      -- the step splits the stream, and the rest of the run splits what it leaves
      have hstep : p.1.pending p.2 ++ receivedBytes ((machine pf).step p i).2.2 =
          (i.takes p ((machine pf).step p i).2).toList.flatten ++
            ((machine pf).step p i).1.1.pending ((machine pf).step p i).1.2 := by
        cases hreads : i.reads with
        | none =>
            rw [Input.takes_of_not_reads p hreads, pending_of_not_reads hi hreads]
            rfl
        | some x =>
            cases i with
            | arrive bytes => cases hreads
            | call call env =>
                cases call <;> cases hreads
                simpa [Input.takes] using delivered_append_pending p _ env _
      simp only [OutputMachine.outputs_cons, List.flatMap_cons, receivedBytes_append,
        OutputMachine.collect_cons, OutputMachine.after_cons, List.flatten_append]
      rw [← List.append_assoc, hstep, List.append_assoc, hrest, List.append_assoc]

end IDFSerial

/-! ## Units -/

namespace World

variable {pf : Platform} {w : World} {u : UnitId}

/-- A call without a payload of a unit on an `IDFSerial` is one of that `IDFSerial`. -/
theorem step_of_quiet_idf (howned : w.Owned) (hlive : w.live u = true) {s : IDFSerial}
    (hs : (w.backend u).idfSerial = some s) {call : SerialCall} (hcall : call.payload pf = none)
    (env : Env) :
    let r := (IDFSerial.machine pf).step (s, w.ports s.port) (.call call env)
    let r' := w.step pf ⟨.serial u call, env⟩
    r'.2 = ⟨r.2.1, r.2.2⟩ ∧ (r'.1.backend u).idfSerial = some r.1.1 ∧
      r'.1.ports s.port = r.1.2 := by
  intro r r'
  obtain ⟨serial, hserial, hcalls⟩ := howned.serialCall_of_idf pf hlive hs env
  obtain ⟨hs', -, huart, hout⟩ := hcalls call
  have hr : call.perform pf serial (s, ⟨w.ports s.port, []⟩) =
      call.perform pf (IDFSerial.iserial pf env) (s, ⟨w.ports s.port, []⟩) := by
    rcases hserial with rfl | ⟨unit, rfl⟩
    · rfl
    · exact UnitSIT3088.dirControlled_perform_of_quiet hcall _
  have hstep : r' = w.serialCall pf env u call := step_serial pf hlive call env
  rw [hr] at hs' huart hout
  rw [hstep]
  exact ⟨hout, hs', huart⟩

/-- A `readValue` of a unit on the fallback fails. -/
theorem step_readValue_of_fallback (pf : Platform) (hlive : w.live u = true)
    (h : (w.units u).serial = SerialPtr.fallback) (littleEndian : Bool) (T : ValueType)
    (env : Env) :
    w.step pf ⟨.serial u (.readValue littleEndian T), env⟩ =
      (w, ⟨.value false ⟨T, T.init⟩, []⟩) := by
  have hshort : ([] : List Byte).length ≠ T.size := Nat.ne_of_lt T.size_pos
  rw [step_serial_of_fallback pf hlive h]
  simp only [SerialCall.perform, RS485Component.readValue_eq, NullSerial.iserial,
    RS485Component.decodeValue_of_short hshort]

end World

/-! ## The result -/

/-- **`readValue` consumes and reports exactly.**  In every run of an `IDFSerial`, each
`readValue` takes what is delivered to it before it times out, which is all its type has room
for if the driver hands out what there is, and reports the value or failure by `ReadsExactly`.
In a run of `readValue` calls, looks and arrivals the stream is cut into what they take, one
after the other, and what is then pending.  A unit on an `IDFSerial`, plain or DIR-controlled,
reads as that does.  And a unit that has been constructed or moved from fails to read, with the
value `T{}`, for as long as it is given no backend. -/
theorem readValue_exact (pf : Platform) (hswap : pf.SwapsBytes) :
    (∀ (p : IDFSerial × UartPort) (inputs : List IDFSerial.Input),
      let m := IDFSerial.machine pf
      m.Along
        (fun p i => ∀ littleEndian T env, i = .call (.readValue littleEndian T) env →
          let r := m.step p i
          let stream := p.1.pending p.2 ++ receivedBytes r.2.2
          let delivered := IDFSerial.delivered p T env (receivedBytes r.2.2)
          ReadsExactly littleEndian T stream delivered (r.1.1.pending r.1.2) r.2.1 ∧
          ((SerialCall.readValue littleEndian T).Succeeds env → delivered = stream.take T.size))
        p inputs ∧
      ((∀ i ∈ inputs, i.readsOrLooks = true) →
        p.1.pending p.2 ++ receivedBytes ((m.outputs p inputs).flatMap Prod.snd) =
          (m.collect (fun p i o => i.takes p o) p inputs).flatten ++
            (m.after p inputs).1.pending (m.after p inputs).2)) ∧
    ∀ (ports : Port → UartPort) (calls : List Call),
      let w := (machine pf).after (World.init ports) calls
      (∀ (u : UnitId) (s : IDFSerial), w.live u = true → (w.backend u).idfSerial = some s →
        ∀ (littleEndian : Bool) (T : ValueType) (env : Env),
        let r := (IDFSerial.machine pf).step (s, w.ports s.port)
          (.call (.readValue littleEndian T) env)
        let r' := w.step pf ⟨.serial u (.readValue littleEndian T), env⟩
        r'.2 = ⟨r.2.1, r.2.2⟩ ∧ (r'.1.backend u).idfSerial = some r.1.1 ∧
          r'.1.ports s.port = r.1.2) ∧
      ∀ (u : UnitId) (c : Call) (later : List Call),
        w.enabled c.op = true → World.Empties c u →
        let s := (w.step pf c).1
        (machine pf).Along (fun w c => ¬ World.Refills pf w c u) s later →
        ((machine pf).after s later).live u = true →
        ∀ (littleEndian : Bool) (T : ValueType) (env : Env),
          ((machine pf).after s later).step pf ⟨.serial u (.readValue littleEndian T), env⟩ =
            ((machine pf).after s later, ⟨.value false ⟨T, T.init⟩, []⟩) := by
  refine ⟨fun p inputs => ⟨?_, fun hinputs => IDFSerial.reads_take p inputs hinputs⟩,
    fun ports calls => ⟨?_, ?_⟩⟩
  · apply OutputMachine.along_of_all
    rintro p i littleEndian T env rfl
    exact ⟨IDFSerial.readValue_readsExactly p T env hswap littleEndian,
      fun h => IDFSerial.delivered_of_succeeds p T env h _⟩
  · intro u s hlive hs littleEndian T env
    exact World.step_of_quiet_idf (owned_after pf ports calls) hlive hs rfl env
  · intro u c later henabled hc s hkept hlive littleEndian T env
    have hempty : (s.units u).serial = SerialPtr.fallback :=
      World.fallback_of_empties henabled hc
    exact World.step_readValue_of_fallback pf hlive (World.fallback_after hempty hkept)
      littleEndian T env

/-- A `uint16_t` is asked for when only its first byte is there, which is held back; the next
one is read whole from the byte after it. -/
def shortReadInputs : List IDFSerial.Input :=
  [.arrive [0xAA], .call .peek .calm, .call (.readValue true (.scalar .integral16)) .calm,
    .arrive [0x34, 0x12], .call (.readValue true (.scalar .integral16)) .calm]

theorem readValue_sample :
    let p : IDFSerial × UartPort := ({ port := 1 }, samplePorts 1)
    let m := IDFSerial.machine .esp32
    [0xAA, 0x34, 0x12] = (m.collect (fun p i o => i.takes p o) p shortReadInputs).flatten ++
        (m.after p shortReadInputs).1.pending (m.after p shortReadInputs).2 ∧
      m.collect (fun p i o => i.takes p o) p shortReadInputs = [[0xAA], [0x34, 0x12]] ∧
      IDFSerial.readResults .esp32 p shortReadInputs =
        [.value false ⟨.scalar .integral16, (0 : BitVec 16)⟩,
          .value true ⟨.scalar .integral16, (0x1234 : BitVec 16)⟩] :=
  ⟨((readValue_exact .esp32 Platform.esp32_swapsBytes).1 ({ port := 1 }, samplePorts 1)
    shortReadInputs).2 (by decide), rfl, rfl⟩

end RS485
