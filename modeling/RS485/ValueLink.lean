import RS485.Bus
import RS485.IdfFifo

/-!
# Typed values survive the link

A sequence of values is written on one host and read on another, by `writeValue` and
`readValue` with the same types and byte-order flags.  The writer's backend is any one that
accepts what it is given.  The reader's is an `IDFSerial`, on which the bytes arrive in any
portions and `available()` and `peek()` may be called at any time.

The argument is one invariant of the reading side: what is pending and what is still to
arrive are the wire images of the values still to be read.  `readValue` takes the first image
off and decodes it (`decodeValue_wireImage`); everything else moves bytes from the future to
the pending input and leaves their sequence alone.
-/

namespace RS485

open ByteOrder

/-! ## Writing -/

/-- A backend that accepts every buffer that can hold a value: `sent` is what it has been
handed so far. -/
structure ISerial.AcceptsAll {σ : Type} (serial : ISerial σ) (sent : σ → List Byte) : Prop where
  writeBuf : ∀ bytes s, bytes ≠ [] → bytes.length ≤ 256 →
    (serial.writeBuf (.mem bytes) s).2 = bytes.length ∧
      sent (serial.writeBuf (.mem bytes) s).1 = sent s ++ bytes
  flushTx : ∀ s, sent (serial.flushTx true s) = sent s

/-- A run of `writeValue` calls. -/
def valueSender {σ : Type} (pf : Platform) (serial : ISerial σ) :
    OutputMachine σ (Bool × TypedValue) Bool where
  step s x := RS485Component.writeValue serial pf x.1 x.2 s

/-- The wire images of a sequence of values. -/
def wireImages (values : List (Bool × TypedValue)) : List Byte :=
  values.flatMap fun x => wireImage x.1 x.2.type x.2.val

section Sending

variable {σ : Type} {pf : Platform} {serial : ISerial σ} {sent : σ → List Byte}

/-- `writeValue` hands over the wire image, all of it. -/
theorem writeValue_sends (hswap : pf.SwapsBytes) (haccepts : serial.AcceptsAll sent)
    (littleEndian : Bool) (value : TypedValue) (s : σ) :
    let r := RS485Component.writeValue serial pf littleEndian value s
    r.2 = true ∧ sent r.1 = sent s ++ wireImage littleEndian value.type value.val := by
  intro r
  have hlength : (wireImage littleEndian value.type value.val).length = value.type.size :=
    length_wireImage ..
  have hpos : 0 < (wireImage littleEndian value.type value.val).length :=
    hlength ▸ value.type.size_pos
  have hne : wireImage littleEndian value.type value.val ≠ [] := List.length_pos_iff.mp hpos
  obtain ⟨hcount, hsent⟩ := haccepts.writeBuf _ s hne (hlength ▸ value.type.size_le)
  have hwrite : RS485Component.writeBuf serial
      (.mem (wireImage littleEndian value.type value.val)) s =
        serial.writeBuf (.mem (wireImage littleEndian value.type value.val)) s := by
    refine if_neg ?_
    simpa only [Buffer.isNull, Buffer.size, Bool.false_eq_true, false_or] using hpos.ne'
  simp only [r, RS485Component.writeValue, objectBytes_swap pf hswap,
    RS485Component.writeWaiting, hwrite, hcount, if_pos hpos]
  exact ⟨by simp [hlength], by rw [haccepts.flushTx, hsent]⟩

theorem valueSender_sends (hswap : pf.SwapsBytes) (haccepts : serial.AcceptsAll sent)
    (s : σ) (values : List (Bool × TypedValue)) :
    (valueSender pf serial).outputs s values = values.map (fun _ => true) ∧
      sent ((valueSender pf serial).after s values) = sent s ++ wireImages values := by
  induction values generalizing s with
  | nil => simp [wireImages]
  | cons x values ih =>
      obtain ⟨hflag, hsent⟩ := writeValue_sends hswap haccepts x.1 x.2 s
      obtain ⟨hflags, hrest⟩ := ih ((valueSender pf serial).step s x).1
      refine ⟨?_, ?_⟩
      · simp only [OutputMachine.outputs_cons, List.map_cons, hflags]
        exact congrArg (· :: _) hflag
      · have hstep : sent ((valueSender pf serial).step s x).1 =
            sent s ++ wireImage x.1 x.2.type x.2.val := hsent
        rw [OutputMachine.after_cons, hrest, hstep]
        simp [wireImages]

/-- An `IDFSerial` whose driver accepts whole values is such a backend. -/
theorem IDFSerial.acceptsAll (pf : Platform) {env : Env} {limit : ℕ}
    (haccepted : env.accepted = some limit) (hlimit : 256 ≤ limit) :
    (IDFSerial.iserial pf env).AcceptsAll fun p => acceptedBytes p.2.log where
  writeBuf bytes p hne hle := by
    obtain ⟨s, io⟩ := p
    have htake : bytes.take limit = bytes := List.take_of_length_le (le_trans hle hlimit)
    have hempty : ¬ ((Buffer.mem bytes).isNull = true ∨ (Buffer.mem bytes).size = 0) := by
      simpa [Buffer.isNull, Buffer.size] using hne
    simp only [iserial, writeBuf, if_neg hempty, uartWriteBytes, haccepted, Buffer.bytes, htake]
    exact ⟨trivial, by simp [Event.accepted]⟩
  flushTx p := by
    obtain ⟨s, io⟩ := p
    simp only [iserial, flushTx, if_true, uartWaitTxDone]
    split <;> simp [Event.accepted]

end Sending

/-! ## Reading -/

namespace IDFSerial

/-- The flag and the type of a `readValue`. -/
def Input.reads : Input → Option (Bool × ValueType)
  | .call (.readValue le T) _ => some (le, T)
  | _ => none

/-- The reading side does nothing but read values, look, and receive. -/
def Input.readsOrLooks : Input → Bool
  | .call (.readValue _ _) _ | .call .available _ | .call .peek _ | .arrive _ => true
  | _ => false

variable (pf : Platform)

/-- A `readValue` finds the bytes it waits for: they are there in time, and the driver hands
them out. -/
def InTime (p : IDFSerial × UartPort) : Input → Prop
  | .call (.readValue le T) env =>
      (SerialCall.readValue le T).Succeeds env ∧
        T.size ≤ (p.1.pending p.2 ++
          receivedBytes ((machine pf).step p (.call (.readValue le T) env)).2.2).length
  | _ => True

/-- What the calls of `readValue` return. -/
def readResults (p : IDFSerial × UartPort) (inputs : List Input) : List Result :=
  (machine pf).collect (fun _ i o => i.reads.map fun _ => o.1) p inputs

variable {pf} {p : IDFSerial × UartPort}

/-- `available()`, `peek()` and arrivals only append what arrives. -/
theorem pending_of_not_reads {i : Input} (hi : i.readsOrLooks = true) (hreads : i.reads = none) :
    ((machine pf).step p i).1.1.pending ((machine pf).step p i).1.2 =
      p.1.pending p.2 ++ receivedBytes ((machine pf).step p i).2.2 := by
  cases i with
  | arrive bytes => simp [machine, pending, Event.arrived]
  | call call env =>
      have hserve := (perform_serve pf env p.1 call p.2).1
      cases call with
      | available => exact hserve
      | peek => exact hserve
      | readValue le T => cases hreads
      | _ => cases hi

/-- `readValue` takes the image at the front and returns the value it stands for. -/
theorem readValue_takes (hswap : pf.SwapsBytes) {le : Bool} {T : ValueType} {env : Env}
    {v : T.Carrier} {future rest : List Byte}
    (htime : InTime pf p (.call (.readValue le T) env))
    (hstream : p.1.pending p.2 ++
      receivedBytes ((machine pf).step p (.call (.readValue le T) env)).2.2 ++ future =
        wireImage le T v ++ rest) :
    ((machine pf).step p (.call (.readValue le T) env)).2.1 = .value true ⟨T, v⟩ ∧
      ((machine pf).step p (.call (.readValue le T) env)).1.1.pending
        ((machine pf).step p (.call (.readValue le T) env)).1.2 ++ future = rest := by
  obtain ⟨hsucceeds, hlength⟩ := htime
  obtain ⟨hpending, hanswer⟩ := perform_serve pf env p.1 (.readValue le T) p.2
  have hserved : served env p.1 p.2 (.readValue le T)
      ((machine pf).step p (.call (.readValue le T) env)).2.2 =
        Fifo.servePlain (p.1.pending p.2 ++
          receivedBytes ((machine pf).step p (.call (.readValue le T) env)).2.2)
          (.take T.size) :=
    Fifo.serve_of_suffices (suffices_of_succeeds pf env p.1 _ p.2 hsucceeds)
  have hsize : (wireImage le T v).length = T.size := length_wireImage le T v
  -- the first `T.size` bytes of what is there are the first of the stream
  have hfront : (p.1.pending p.2 ++
      receivedBytes ((machine pf).step p (.call (.readValue le T) env)).2.2).take T.size =
        wireImage le T v := by
    have htake := (List.take_append_of_le_length hlength).symm.trans
      (congrArg (List.take T.size) hstream)
    rw [← hsize]
    rwa [← hsize, List.take_left] at htake
  have hanswered : SerialCall.answer pf (.readValue le T)
      (Fifo.servePlain (p.1.pending p.2 ++ receivedBytes
        ((machine pf).step p (.call (.readValue le T) env)).2.2) (.take T.size)).1 =
        some (.value true ⟨T, v⟩) := by
    simp only [Fifo.servePlain, SerialCall.answer, hfront,
      RS485Component.decodeValue_wireImage hswap]
  have hrest : ((machine pf).step p (.call (.readValue le T) env)).1.1.pending
      ((machine pf).step p (.call (.readValue le T) env)).1.2 =
        (p.1.pending p.2 ++ receivedBytes
          ((machine pf).step p (.call (.readValue le T) env)).2.2).drop T.size :=
    hpending.trans (congrArg Prod.snd hserved)
  refine ⟨hanswer _ ?_, ?_⟩
  · exact (congrArg (fun r => SerialCall.answer pf (.readValue le T) r.1) hserved).trans hanswered
  · rw [hrest, ← List.drop_append_of_le_length hlength, hstream, ← hsize, List.drop_left]

/-- The reading side: if what is pending and what arrives during the run are the images of
the values, the calls of `readValue` return the values and nothing is left. -/
theorem readResults_of_stream (hswap : pf.SwapsBytes) (inputs : List Input)
    (values : List (Bool × TypedValue)) (p : IDFSerial × UartPort)
    (hinputs : ∀ i ∈ inputs, i.readsOrLooks = true)
    (hreads : inputs.filterMap Input.reads = values.map fun x => (x.1, x.2.type))
    (htime : (machine pf).Along (InTime pf) p inputs)
    (hstream : p.1.pending p.2 ++
      receivedBytes (((machine pf).outputs p inputs).flatMap Prod.snd) = wireImages values) :
    readResults pf p inputs = values.map (fun x => .value true x.2) ∧
      ((machine pf).after p inputs).1.pending ((machine pf).after p inputs).2 = [] := by
  induction inputs generalizing values p with
  | nil =>
      obtain rfl : values = [] := by simpa using hreads.symm
      exact ⟨rfl, by simpa [wireImages] using hstream⟩
  | cons i inputs ih =>
      obtain ⟨hi, hinputs'⟩ := List.forall_mem_cons.mp hinputs
      simp only [OutputMachine.outputs_cons, List.flatMap_cons, receivedBytes_append,
        ← List.append_assoc] at hstream
      simp only [readResults, OutputMachine.collect_cons, OutputMachine.after_cons]
      cases hread : i.reads with
      | none =>
          rw [← pending_of_not_reads hi hread] at hstream
          have hreads' : inputs.filterMap Input.reads = values.map fun x => (x.1, x.2.type) := by
            rw [← hreads, List.filterMap_cons_none hread]
          obtain ⟨hresults, hend⟩ := ih values _ hinputs' hreads' htime.2 hstream
          exact ⟨by simpa [readResults] using hresults, hend⟩
      | some x =>
          rw [List.filterMap_cons_some hread] at hreads
          cases values with
          | nil => cases hreads
          | cons y values =>
              obtain ⟨rfl, hreads'⟩ : x = (y.1, y.2.type) ∧ inputs.filterMap Input.reads =
                  values.map fun x => (x.1, x.2.type) := by simpa using hreads
              obtain ⟨env, rfl⟩ : ∃ env, i = .call (.readValue y.1 y.2.type) env := by
                cases i with
                | arrive bytes => cases hread
                | call call env =>
                    cases call <;> cases hread
                    exact ⟨env, rfl⟩
              have himages : wireImages (y :: values) =
                  wireImage y.1 y.2.type y.2.val ++ wireImages values := rfl
              obtain ⟨hresult, hnext⟩ :=
                readValue_takes hswap htime.1 (hstream.trans himages)
              obtain ⟨hresults, hend⟩ := ih values _ hinputs' hreads' htime.2 hnext
              refine ⟨?_, hend⟩
              simp only [readResults] at hresults
              simp [hresult, hresults]

end IDFSerial

/-! ## The link -/

/-- **Typed values survive the link.**  The values are written in order on one host and the
bytes of the writer, no more and no less, arrive at an empty `IDFSerial` of another, where the
same types are read with the same flags, each in time.  Then every call succeeds, the values
read are the values written, and no byte is left.  What goes over the wire is the same on
every host: a scalar is sent least significant byte first if its flag says little-endian and
most significant byte first otherwise. -/
theorem typed_values_survive {σ : Type} (sender receiver : Platform)
    (hsender : sender.SwapsBytes) (hreceiver : receiver.SwapsBytes) {serial : ISerial σ}
    {sent : σ → List Byte} (haccepts : serial.AcceptsAll sent) (s : σ)
    (values : List (Bool × TypedValue)) (p : IDFSerial × UartPort)
    (hempty : p.1.pending p.2 = []) (inputs : List IDFSerial.Input)
    (hinputs : ∀ i ∈ inputs, i.readsOrLooks = true)
    (hreads : inputs.filterMap IDFSerial.Input.reads = values.map fun x => (x.1, x.2.type))
    (htime : (IDFSerial.machine receiver).Along (IDFSerial.InTime receiver) p inputs)
    (hlink : sent ((valueSender sender serial).after s values) = sent s ++
      receivedBytes (((IDFSerial.machine receiver).outputs p inputs).flatMap Prod.snd)) :
    (valueSender sender serial).outputs s values = values.map (fun _ => true) ∧
    IDFSerial.readResults receiver p inputs = values.map (fun x => .value true x.2) ∧
    ((IDFSerial.machine receiver).after p inputs).1.pending
      ((IDFSerial.machine receiver).after p inputs).2 = [] ∧
    sent ((valueSender sender serial).after s values) = sent s ++ wireImages values ∧
    ∀ (littleEndian : Bool) (t : ScalarType) (v : BitVec (8 * t.size)) (i : ℕ), i < t.size →
      (wireImage littleEndian (.scalar t) v)[i]? =
        some (BitVec.ofNat 8 (v.toNat / 256 ^ (if littleEndian then i else t.size - 1 - i))) := by
  obtain ⟨hflags, hsent⟩ := valueSender_sends hsender haccepts s values
  have hstream : receivedBytes
      (((IDFSerial.machine receiver).outputs p inputs).flatMap Prod.snd) = wireImages values :=
    List.append_cancel_left (hlink.symm.trans hsent)
  obtain ⟨hresults, hend⟩ := IDFSerial.readResults_of_stream hreceiver inputs values p hinputs
    hreads htime (by rw [hempty, List.nil_append, hstream])
  refine ⟨hflags, hresults, hend, hsent, ?_⟩
  intro littleEndian t v i hi
  cases littleEndian with
  | true => exact getElem?_toBytesLE v hi
  | false =>
      have hreverse : (toBytesLE v).reverse[i]? = (toBytesLE v)[t.size - 1 - i]? := by
        rw [List.getElem?_reverse (by simpa using hi), length_toBytesLE]
      exact hreverse.trans (getElem?_toBytesLE v (by omega))

/-- An integer sent little-endian and a NaN sent big-endian. -/
def sampleValues : List (Bool × TypedValue) :=
  [(true, ⟨.scalar .integral16, (0x1234 : BitVec 16)⟩),
    (false, ⟨.scalar .float32, (0x7FC00001 : BitVec 32)⟩)]

/-- The bytes arrive in two portions, split within the second value. -/
def sampleInputs : List IDFSerial.Input :=
  [.arrive [0x34, 0x12, 0x7F], .call .peek .calm,
    .call (.readValue true (.scalar .integral16)) .calm, .call .available .calm,
    .call .peek .calm, .arrive [0xC0, 0x00, 0x01],
    .call (.readValue false (.scalar .float32)) .calm]

/-- From an ESP32 to a big-endian host. -/
theorem sample_values_survive :
    IDFSerial.readResults { Platform.esp32 with littleEndian := false }
        ({ port := 1 }, samplePorts 1) sampleInputs =
      sampleValues.map fun x => .value true x.2 :=
  (typed_values_survive .esp32 { Platform.esp32 with littleEndian := false }
    Platform.esp32_swapsBytes Platform.esp32_swapsBytes
    (IDFSerial.acceptsAll .esp32 (rfl : Env.calm.accepted = some 256) (le_refl 256))
    ({ port := 1 }, ⟨samplePorts 1, []⟩) sampleValues ({ port := 1 }, samplePorts 1) rfl
    sampleInputs (by decide) rfl
    ⟨trivial, trivial, ⟨⟨256, rfl, by decide⟩, by decide⟩, trivial, trivial, trivial,
      ⟨⟨256, rfl, by decide⟩, by decide⟩, trivial⟩ (by decide)).2.1

end RS485
