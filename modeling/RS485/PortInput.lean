import Mathlib.Algebra.BigOperators.Group.Finset.Basic
import Mathlib.Tactic.Abel
import RS485.PortOutput
import RS485.ReadValue

/-!
# What comes in at a port

Whatever arrives at a port is in one place: the program has been given it, it is still in the RX
ring, a backend that has peeked it holds it back, or it has been dropped.  A program may have
several units on a port, and then what one of them holds back is passed by what another one
reads, so bytes are counted here and their order is left out.

`World.stock` is what is in the ring and what is held back, by the backends that units have and
by those that have been replaced or deleted: with these it is out of reach, but it has not been
given to anyone.  A step accounts for the input of every port (`World.Owned.input_step`), and
`World.dropped` is what it drops; in a run the steps add up (`port_input`).
-/

namespace RS485

open Function

/-! ## What a call gives -/

/-- The bytes that a call gives to the program. -/
def SerialCall.given (call : SerialCall) (result : Result) : List Byte :=
  match call, result with
  | .read, .int i => if i < 0 then [] else [BitVec.ofInt 8 i]
  | .readBuf _, .bytes bs | .readBytes _, .bytes bs | .readBytesTimeout _ _, .bytes bs => bs
  | .readValue littleEndian _, .value true v => wireImage littleEndian v.type v.val
  | _, _ => []

/-- Does the call drop input, as `flush(false)` does and a `readValue` that fails? -/
def SerialCall.drops (call : SerialCall) (result : Result) : Bool :=
  match call, result with
  | .flushTx false, _ | .readValue _ _, .value false _ => true
  | _, _ => false

theorem SerialCall.given_eq_returned {call : SerialCall} {env : Env}
    (hcall : (IDFSerial.Input.call call env).keepsStream = true) (result : Result) :
    call.given result = (IDFSerial.Input.call call env).returned result := by
  cases call with
  | readValue littleEndian T => cases hcall
  | _ => cases result <;> rfl

section Calls

variable {α : Type} {env : Env} {held : α → List Byte} {serial : ISerial (α × Io)}

/-- A `readValue` gives what it takes, or drops it. -/
theorem ISerial.Reads.accounts_readValue (h : serial.Reads env held) {pf : Platform}
    (hswap : pf.SwapsBytes) (littleEndian : Bool) (T : ValueType) (s : α) (uart : UartPort) :
    let call := SerialCall.readValue littleEndian T
    let r := call.perform pf serial (s, ⟨uart, []⟩)
    ∃ dropped, inputOf held (s, ⟨uart, []⟩) ++ receivedBytes r.1.2.log =
        call.given r.2 ++ dropped ++ inputOf held r.1 ∧
      (call.drops r.2 = false → dropped = []) := by
  intro call r
  obtain ⟨arrived, -, hlog, hinput, hlength, -⟩ := h.readBytes ⟨false, T.size⟩ (s, ⟨uart, []⟩)
  have hr : r = ((serial.readBytes ⟨false, T.size⟩ (s, ⟨uart, []⟩)).1,
      .value (RS485Component.decodeValue pf littleEndian T
          (serial.readBytes ⟨false, T.size⟩ (s, ⟨uart, []⟩)).2).1
        ⟨T, (RS485Component.decodeValue pf littleEndian T
          (serial.readBytes ⟨false, T.size⟩ (s, ⟨uart, []⟩)).2).2⟩) := by
    simp only [r, call, SerialCall.perform, RS485Component.readValue_eq]
  generalize serial.readBytes ⟨false, T.size⟩ (s, ⟨uart, []⟩) = p at hr hlog hinput hlength
  have hlog' : receivedBytes r.1.2.log = arrived := by
    rw [hr]
    exact hlog
  rw [hlog', hinput]
  rcases Nat.lt_or_eq_of_le hlength with hshort | hcomplete
  · have hdecode : RS485Component.decodeValue pf littleEndian T p.2 = (false, T.init) :=
      RS485Component.decodeValue_of_short (Nat.ne_of_lt hshort)
    refine ⟨p.2, ?_, fun hdrops => ?_⟩
    · rw [hr, hdecode]
      rfl
    · rw [hr, hdecode] at hdrops
      cases hdrops
  · obtain ⟨v, hv, hdecode⟩ : ∃ v, (∀ v', wireImage littleEndian T v' = p.2 ↔ v' = v) ∧
        RS485Component.decodeValue pf littleEndian T p.2 = (true, v) :=
      RS485Component.decodeValue_of_complete hswap hcomplete
    refine ⟨[], ?_, fun _ => rfl⟩
    have himage : wireImage littleEndian T v = p.2 := (hv v).mpr rfl
    rw [hr, hdecode, List.append_nil]
    change p.2 ++ _ = wireImage littleEndian T v ++ _
    rw [himage]

/-- **A call** accounts for the input: what was pending and what arrives is what the program is
given and what is then pending, but for what the call drops in between. -/
theorem ISerial.Reads.accounts (h : serial.Reads env held)
    (hbyte : ∀ d s, serial.write d s = serial.writeBuf (.mem [d]) s) {pf : Platform}
    (hswap : pf.SwapsBytes) (call : SerialCall) (s : α) (uart : UartPort) :
    let r := call.perform pf serial (s, ⟨uart, []⟩)
    ∃ dropped, inputOf held (s, ⟨uart, []⟩) ++ receivedBytes r.1.2.log =
        call.given r.2 ++ dropped ++ inputOf held r.1 ∧
      (call.drops r.2 = false → dropped = []) := by
  intro r
  cases hkeeps : (IDFSerial.Input.call call env).keepsStream with
  | true =>
      refine ⟨[], ?_, fun _ => rfl⟩
      rw [SerialCall.given_eq_returned hkeeps, List.append_nil]
      exact h.conserves hbyte pf hkeeps s uart
  | false =>
      cases call with
      | readValue littleEndian T => exact h.accounts_readValue hswap littleEndian T s uart
      | flushTx txOnly =>
          cases txOnly with
          | true => cases hkeeps
          | false =>
              obtain ⟨hlog, -, n, hinput⟩ := h.flushInput (s, ⟨uart, []⟩)
              have hlog' : receivedBytes r.1.2.log = [] := hlog
              have hinput' : inputOf held r.1 = (inputOf held (s, ⟨uart, []⟩)).drop n := hinput
              refine ⟨(inputOf held (s, ⟨uart, []⟩)).take n, ?_, fun hdrops => by cases hdrops⟩
              rw [hlog', hinput', List.append_nil]
              exact (List.take_append_drop ..).symm
      | _ => cases hkeeps

end Calls

theorem receivedBytes_onPort {port : Port} {es : List Event}
    (h : ∀ e ∈ es, e.port = some port ∨ e.port = none) :
    receivedBytes (onPort port es) = receivedBytes es :=
  flatMap_onPort (fun e he => by cases e <;> first | rfl | cases he) h

/-! ## What is in stock -/

/-- What a backend on the port holds back. -/
def Backend.heldAt (port : Port) (b : Backend) : Multiset Byte :=
  if b.port = some port then b.held else 0

@[simp] theorem Backend.heldAt_rebind (port : Port) (b : Backend) (u : UnitId) :
    (b.rebind u).heldAt port = b.heldAt port := by
  cases b <;> rfl

theorem Backend.heldAt_of_held {b : Backend} (h : b.held = []) (port : Port) :
    b.heldAt port = 0 := by
  simp [Backend.heldAt, h]

namespace World

theorem held_newBackend (pf : Platform) (u : UnitId) (kind : UnitKind) (line : Port) :
    (newBackend pf u kind line).held = [] := by
  cases kind <;> cases h : pf.framework.arduino <;> simp [newBackend, h, Backend.held]

/-- What is in the RX ring of the port, and what backends on it hold back, of all that have been
handed over so far. -/
def stock (w : World) (port : Port) : Multiset Byte :=
  (w.ports port).rx + ∑ id ∈ Finset.range w.next, (w.heap id).heldAt port

variable {pf : Platform} {w w' : World} {c : Call} {port : Port} {u : UnitId}

theorem stock_congr (hports : (w'.ports port).rx = (w.ports port).rx) (hnext : w'.next = w.next)
    (hheap : ∀ id, (w'.heap id).heldAt port = (w.heap id).heldAt port) :
    w'.stock port = w.stock port := by
  simp only [stock, hports, hnext, hheap]

/-- A backend that holds nothing back is handed over. -/
theorem stock_of_issued {b : Backend} (hb : b.held = []) (hnext : w'.next = w.next + 1)
    (hheap : w'.heap = update w.heap w.next b) :
    w'.stock port = (w'.ports port).rx +
      ∑ id ∈ Finset.range w.next, (w.heap id).heldAt port := by
  have hothers : ∀ id ∈ Finset.range w.next,
      (update w.heap w.next b id).heldAt port = (w.heap id).heldAt port := by
    intro id hid
    rw [update_of_ne (Nat.ne_of_lt (Finset.mem_range.mp hid))]
  rw [stock, hnext, hheap, Finset.sum_range_succ, update_self, Finset.sum_congr rfl hothers,
    Backend.heldAt_of_held hb, add_zero]

/-- A backend has changed. -/
theorem stock_of_update (port : Port) {id : ℕ} (hid : id < w.next) {b : Backend}
    (hnext : w'.next = w.next) (hheap : w'.heap = update w.heap id b) :
    ∃ others : Multiset Byte,
      w.stock port = others + (w.ports port).rx + (w.heap id).heldAt port ∧
      w'.stock port = others + (w'.ports port).rx + b.heldAt port := by
  have hmem : id ∈ Finset.range w.next := Finset.mem_range.mpr hid
  refine ⟨∑ i ∈ (Finset.range w.next).erase id, (w.heap i).heldAt port, ?_, ?_⟩
  · rw [stock, ← Finset.add_sum_erase _ _ hmem]
    abel
  · have hothers : ∀ i ∈ (Finset.range w.next).erase id,
        (update w.heap id b i).heldAt port = (w.heap i).heldAt port := by
      intro i hi
      rw [update_of_ne (Finset.ne_of_mem_erase hi)]
    rw [stock, hnext, hheap, ← Finset.add_sum_erase _ _ hmem, update_self,
      Finset.sum_congr rfl hothers]
    abel

/-- Binding an object to another unit changes nothing of what it holds back. -/
theorem heldAt_storeBackend_rebind (ptr : Option BackendPtr) (u : UnitId) (id : ℕ) :
    ((w.storeBackend ptr ((w.deref ptr).rebind u)).heap id).heldAt port =
      (w.heap id).heldAt port := by
  cases ptr with
  | none => rfl
  | some p =>
      cases p with
      | fallback => rfl
      | heap i =>
          by_cases hid : id = i
          · subst hid
            simp [storeBackend, deref]
          · simp [storeBackend, hid]

theorem heldAt_moved (src dst : UnitId) (id : ℕ) :
    ((moved pf w src dst).heap id).heldAt port = (w.heap id).heldAt port := by
  unfold moved rebindSerial
  dsimp only
  split
  · exact heldAt_storeBackend_rebind ..
  · rfl

/-! ## Steps -/

/-- What the drain loop does to the ring: it drops from the front, and what arrives joins at the
back. -/
theorem drainLoop_input (env : Env) (line : Port) (fuel i elapsed : ℕ) (io : Io) :
    ∃ dropped arrived,
      receivedBytes (drainLoop env line fuel i elapsed io).log =
        receivedBytes io.log ++ arrived ∧
      io.uart.rx ++ arrived = dropped ++ (drainLoop env line fuel i elapsed io).uart.rx := by
  induction fuel generalizing i elapsed io with
  | zero => exact ⟨[], [], by simp [drainLoop]⟩
  | succ fuel ih =>
      unfold drainLoop
      split
      · exact ⟨[], [], by simp⟩
      · obtain ⟨dropped, arrived, hlog, hrx⟩ := ih (i + 1) (elapsed + 1 + env.delayLag i) _
        refine ⟨io.uart.rx ++ dropped, env.delayArrivals i ++ arrived, hlog.trans ?_, ?_⟩
        · simp [adapterFlushRX, Event.arrived]
        · rw [List.append_assoc, ← hrx]
          simp [adapterFlushRX]

theorem drained_input (env : Env) (flushRX : Bool) (line : Port) :
    ∃ dropped,
      (w.ports line).rx ++ receivedBytes (w.drained env flushRX line).log =
        dropped ++ (w.drained env flushRX line).uart.rx ∧
      (flushRX = false → dropped = []) := by
  cases flushRX with
  | false => exact ⟨[], by simp [drained, io], fun _ => rfl⟩
  | true =>
      obtain ⟨dropped, arrived, hlog, hrx⟩ :=
        drainLoop_input env line 100 0 env.startLag (w.io (some line))
      refine ⟨dropped, ?_, fun h => by cases h⟩
      have hlog' : receivedBytes (w.drained env true line).log = arrived := hlog
      rw [hlog']
      exact hrx

/-- The bytes that a step gives to the program of those that came in at the port. -/
def given (port : Port) (w : World) (c : Call) (out : Outcome) : List Byte :=
  match c.op with
  | .serial u call =>
      if w.live u ∧ (w.backend u).port = some port then call.given out.result else []
  | _ => []

/-- The step drops input of the port: a call of a unit there does, or a `begin` that is to flush
it. -/
def DropsInput (pf : Platform) (port : Port) (w : World) (c : Call) : Prop :=
  match c.op with
  | .serial u call =>
      w.live u = true ∧ (w.backend u).port = some port ∧
        call.drops (w.step pf c).2.result = true
  | .begin u =>
      w.live u = true ∧ (w.units u).cfg.flushRX = true ∧
        ∃ ad, (w.units u).adapter = some ad ∧ ad.line pf.framework = port
  | _ => False

/-- A `begin` that installs a backend. -/
theorem input_begun (pf : Platform) (w : World) (port : Port) (env : Env) (u : UnitId)
    (unit : RS485Unit) (line : Port) (setup : List Event) (hsetup : ∀ e ∈ setup, e.port = none)
    (flushRX : Bool) (hflush : unit.cfg.flushRX = flushRX) :
    ∃ dropped : Multiset Byte,
      w.stock port + receivedBytes (onPort port (setup ++ (w.drained env flushRX line).log)) =
        dropped + (begun pf env w u unit line).stock port ∧
      (flushRX = true ∧ line = port ∨ dropped = 0) := by
  have hnone : onPort port setup = [] := onPort_eq_nil fun e he => by simp [hsetup e he]
  rw [onPort_append, hnone, List.nil_append,
    stock_of_issued (held_newBackend pf u unit.kind line) (begun_next ..) (begun_heap ..),
    begun_ports, hflush]
  by_cases hline : line = port
  · subst hline
    obtain ⟨dropped, hrx, hkept⟩ := w.drained_input env flushRX line
    have hreach : ∀ e ∈ (w.drained env flushRX line).log,
        e.port = some line ∨ e.port = none := by
      intro e he
      exact (mem_drained env w flushRX line e he).port_eq
    refine ⟨dropped, ?_, ?_⟩
    · have hcount := congrArg (fun l : List Byte => (l : Multiset Byte)) hrx
      simp only [← Multiset.coe_add] at hcount
      rw [receivedBytes_onPort hreach, update_self, stock, add_right_comm, hcount, add_assoc]
    · cases flushRX with
      | true => exact Or.inl ⟨rfl, rfl⟩
      | false => exact Or.inr (by simp [hkept rfl])
  · have hother : onPort port (w.drained env flushRX line).log = [] := by
      refine onPort_eq_nil fun e he hon => ?_
      rcases (mem_drained env w flushRX line e he).port_eq with hport | hport
      · exact hline (Option.some.inj (hport.symm.trans hon))
      · cases hport.symm.trans hon
    refine ⟨0, ?_, Or.inr rfl⟩
    rw [hother, update_of_ne (Ne.symm hline), stock]
    simp

/-- A call of a unit on a port accounts for the input of the unit. -/
theorem OnPort.accounts (h : w.OnPort u port) (hswap : pf.SwapsBytes) (call : SerialCall)
    (env : Env) :
    let r := w.step pf ⟨.serial u call, env⟩
    ∃ dropped, w.input u ++ receivedBytes r.2.events =
        call.given r.2.result ++ dropped ++ r.1.input u ∧
      (call.drops r.2.result = false → dropped = []) := by
  intro r
  obtain ⟨α, held, serial, s, huart, hreads, hinput, hcalls⟩ := h.call pf env
  obtain ⟨hinput', -, hout⟩ := hcalls call
  have haccounts := hreads.accounts huart.write_byte hswap call s (w.ports port)
  rw [hinput, hinput', hout]
  exact haccounts

theorem OnPort.coe_input (h : w.OnPort u port) :
    (w.input u : Multiset Byte) = (w.ports port).rx + (w.backend u).heldAt port := by
  rw [h.input_eq, Backend.heldAt, if_pos h.port, ← Multiset.coe_add, add_comm]

/-- Of the stock of a port, a call changes the input of the unit alone. -/
theorem OnPort.stock_step (pf : Platform) (h : w.OnPort u port) (call : SerialCall) (env : Env) :
    let w' := (w.step pf ⟨.serial u call, env⟩).1
    ∃ others : Multiset Byte,
      w.stock port = others + w.input u ∧ w'.stock port = others + w'.input u := by
  intro w'
  have h' : w'.OnPort u port := h.step call env
  have hw' : w' = (w.serialCall pf env u call).1 := by
    rw [← step_serial pf h.live call env]
  rcases h.owned.wellFormed u h.live with hserial | ⟨id, hserial⟩
  · have hport := h.port
    rw [backend_of_fallback hserial] at hport
    cases hport
  · have hserial' : (w'.units u).serial = ⟨some (.heap id), true⟩ := by
      simpa [hw', serialCall] using hserial
    have hheap : ∃ b, w'.heap = update w.heap id b := by
      simp [hw', serialCall, storeBackend, hserial]
    obtain ⟨b, hheap⟩ := hheap
    have hnext : w'.next = w.next := by simp [hw', serialCall]
    obtain ⟨others, hstock, hstock'⟩ :=
      stock_of_update port (h.owned.id_lt_next h.live hserial) hnext hheap
    have hb : w'.backend u = b := by rw [backend_of_heap hserial', hheap, update_self]
    refine ⟨others, ?_, ?_⟩
    · rw [hstock, h.coe_input, backend_of_heap hserial, add_assoc]
    · rw [hstock', h'.coe_input, hb, add_assoc]

/-- A call of a unit that is not on the port does nothing to its stock. -/
theorem Owned.stock_serialCall_other (h : w.Owned) (hlive : w.live u = true)
    (hport : (w.backend u).port ≠ some port) (call : SerialCall) (env : Env) :
    (w.serialCall pf env u call).1.stock port = w.stock port := by
  have hrx : ((w.serialCall pf env u call).1.ports port).rx = (w.ports port).rx := by
    rw [ports_serialCall pf env hport call]
  have hnext : (w.serialCall pf env u call).1.next = w.next := by simp [serialCall]
  rcases h.wellFormed u hlive with hserial | ⟨id, hserial⟩
  · refine stock_congr hrx hnext fun id => ?_
    simp [serialCall, storeBackend, hserial, SerialPtr.fallback]
  · have hkeeps := ((w.backend u).dispatch_keeps pf env w.units call
      (w.io (w.backend u).port)).1
    have hheap : (w.serialCall pf env u call).1.heap = update w.heap id
        ((w.backend u).dispatch pf env w.units (fun serial s => call.perform pf serial s)
          (w.io (w.backend u).port)).1 := by
      simp [serialCall, storeBackend, hserial]
    refine stock_congr hrx hnext fun i => ?_
    rw [hheap]
    by_cases hi : i = id
    · subst hi
      rw [update_self, Backend.heldAt, Backend.heldAt, hkeeps, if_neg hport,
        ← backend_of_heap hserial, if_neg hport]
    · rw [update_of_ne hi]

/-- What is not a call of a serial method gives the program nothing. -/
theorem input_other (hother : ∀ u call, c.op ≠ .serial u call)
    (hopen : ∀ installed ring, c.op ≠ .uartDriver port installed ring)
    (hempty : ∀ u b, c.op = .installSerial u (some b) → b.held = []) :
    let r := w.step pf c
    ∃ dropped : Multiset Byte,
      w.stock port + receivedBytes (onPort port r.2.events) = dropped + r.1.stock port ∧
      (w.DropsInput pf port c ∨ dropped = 0) := by
  intro r
  have heffect := step_effect pf w c
  change Effect pf w c r at heffect
  generalize r = r at heffect ⊢
  have hsame : ∀ (w' : World) (result : Result), w'.stock port = w.stock port →
      ∃ dropped : Multiset Byte,
        w.stock port + receivedBytes (onPort port (⟨result, []⟩ : Outcome).events) =
          dropped + w'.stock port ∧ (w.DropsInput pf port c ∨ dropped = 0) := by
    intro w' result hstock
    exact ⟨0, by simp [hstock], Or.inr rfl⟩
  cases heffect with
  | rejected => exact hsame _ _ rfl
  | construct => exact hsame _ _ rfl
  | destroy => exact hsame _ _ rfl
  | move src dst =>
      exact hsame _ _ (stock_congr (by simp) (by simp) fun id => heldAt_moved src dst id)
  | moveSelf => exact hsame _ _ rfl
  | install u serial hop =>
      cases serial with
      | none => exact hsame _ _ rfl
      | some b => exact hsame _ _ (stock_of_issued (hempty u b hop) rfl rfl)
  | settings => exact hsame _ _ rfl
  | begin u hop hlive r hbegin =>
      have hdrops : ∀ {dropped : Multiset Byte} {unit : RS485Unit} {ad : AdapterUART},
          unit.cfg = (w.units u).cfg → (w.units u).adapter = some ad →
          (unit.cfg.flushRX = true ∧ ad.line pf.framework = port ∨ dropped = 0) →
          w.DropsInput pf port c ∨ dropped = 0 := by
        intro dropped unit ad hcfg had h
        rcases h with ⟨hflush, hline⟩ | hnone
        · refine Or.inl ?_
          simp only [DropsInput, hop]
          exact ⟨hlive, hcfg ▸ hflush, ad, had, hline⟩
        · exact Or.inr hnone
      cases hbegin with
      | unready => exact hsame _ _ rfl
      | rejected => exact hsame _ _ rfl
      | failed hkind hpin =>
          have hsetup : onPort port (w.pinSetup pf c.env u) = [] :=
            onPort_eq_nil fun e he => by simp [port_of_mem_pinSetup c.env hpin he]
          refine ⟨0, ?_, Or.inr rfl⟩
          simp only [hsetup, receivedBytes_nil, zero_add]
          exact add_zero _
      | plain ad hkind had =>
          obtain ⟨dropped, hstock, hkept⟩ := input_begun pf w port c.env u
            (w.units u) (ad.line pf.framework) [] (by simp) _ rfl
          exact ⟨dropped, hstock, hdrops rfl had hkept⟩
      | controlled ad hkind hpin had =>
          obtain ⟨dropped, hstock, hkept⟩ := input_begun pf w port c.env u
            (w.captured u) (ad.line pf.framework) (w.pinSetup pf c.env u)
            (fun e he => port_of_mem_pinSetup c.env hpin he) _ rfl
          exact ⟨dropped, hstock, hdrops rfl had hkept⟩
  | call u call hop => exact absurd hop (hother u call)
  | uartDriver q installed ring hop =>
      have hne : port ≠ q := by
        rintro rfl
        exact hopen installed ring hop
      exact hsame _ _ (stock_congr (by simp [exec, hne]) rfl fun _ => rfl)
  | arrive q bytes =>
      by_cases hq : port = q
      · subst hq
        refine ⟨0, ?_, Or.inr rfl⟩
        have hrx : ((w.exec pf c.env (.arrive port bytes)).1.ports port).rx =
            (w.ports port).rx ++ bytes := by simp [exec]
        have hlog : receivedBytes
            (onPort port (w.exec pf c.env (.arrive port bytes)).2.events) = bytes := by
          simp [exec, onPort, Event.port, Event.arrived]
        rw [hlog, stock, stock, hrx, ← Multiset.coe_add, zero_add, add_right_comm]
        rfl
      · refine ⟨0, ?_, Or.inr rfl⟩
        have hstock : (w.exec pf c.env (.arrive q bytes)).1.stock port = w.stock port :=
          stock_congr (by simp [exec, hq]) rfl fun _ => rfl
        rw [hstock]
        simp [exec, onPort, Event.port, Ne.symm hq]
  | transmit q n =>
      refine ⟨0, ?_, Or.inr rfl⟩
      have hstock : (w.exec pf c.env (.transmit q n)).1.stock port = w.stock port := by
        refine stock_congr ?_ rfl fun _ => rfl
        by_cases hq : port = q
        · subst hq
          simp [exec, io, Io.transmit]
        · simp [exec, hq]
      have hlog : receivedBytes (onPort port (w.exec pf c.env (.transmit q n)).2.events) = [] := by
        apply List.flatMap_eq_nil_iff.mpr
        intro e he
        have hsent : e ∈ ((w.ports q).tx.take n).map (Event.sent q) := by
          simpa [exec, io, Io.transmit] using (List.mem_filter.mp he).1
        obtain ⟨b, -, rfl⟩ := List.mem_map.mp hsent
        rfl
      rw [hstock, hlog]
      simp

/-- **A step** accounts for the input of a port, unless the program opens the port anew: what was
in stock and what comes in is what the program is given and what is then in stock, but for what
the step drops. -/
theorem Owned.input_step (h : w.Owned) (hswap : pf.SwapsBytes)
    (hopen : ∀ installed ring, c.op ≠ .uartDriver port installed ring)
    (hempty : ∀ u b, c.op = .installSerial u (some b) → b.held = []) :
    let r := w.step pf c
    ∃ dropped : Multiset Byte,
      w.stock port + receivedBytes (onPort port r.2.events) =
        w.given port c r.2 + dropped + r.1.stock port ∧
      (w.DropsInput pf port c ∨ dropped = 0) := by
  intro r
  by_cases hother : ∀ u call, c.op ≠ .serial u call
  · have hgiven : w.given port c r.2 = [] := by
      unfold given
      split
      · next u call hop => exact absurd hop (hother u call)
      · rfl
    rw [hgiven, Multiset.coe_nil]
    simp only [zero_add]
    exact input_other hother hopen hempty
  · push Not at hother
    obtain ⟨u, call, hop⟩ := hother
    obtain ⟨op, env⟩ := c
    obtain rfl : op = .serial u call := hop
    by_cases hon : w.live u = true ∧ (w.backend u).port = some port
    · obtain ⟨hlive, hport⟩ := hon
      have hunit : w.OnPort u port := ⟨h, hlive, hport⟩
      obtain ⟨dropped, haccounts, hdropped⟩ := hunit.accounts hswap call env
      obtain ⟨others, hstock, hstock'⟩ := hunit.stock_step pf call env
      have hgiven : w.given port ⟨.serial u call, env⟩ r.2 = call.given r.2.result :=
        if_pos ⟨hlive, hport⟩
      have hevents : receivedBytes (onPort port r.2.events) = receivedBytes r.2.events := by
        refine receivedBytes_onPort ?_
        have hr : r = w.serialCall pf env u call := step_serial pf hlive call env
        rw [hr]
        exact port_of_mem_serialCall pf env hlive hport call
      refine ⟨dropped, ?_, ?_⟩
      · have hcount := congrArg (fun l : List Byte => (l : Multiset Byte)) haccounts
        simp only [← Multiset.coe_add] at hcount
        rw [hgiven, hevents, hstock, hstock', add_assoc, hcount]
        abel
      · cases hdrops : call.drops r.2.result with
        | true => exact Or.inl ⟨hlive, hport, hdrops⟩
        | false => exact Or.inr (by rw [hdropped hdrops]; rfl)
    · have hgiven : w.given port ⟨.serial u call, env⟩ r.2 = [] := if_neg hon
      refine ⟨0, ?_, Or.inr rfl⟩
      rw [hgiven]
      cases hlive : w.live u with
      | false =>
          have hr : r = (w, ⟨.rejected, []⟩) := step_of_not_enabled pf hlive
          rw [hr]
          simp
      | true =>
          have hport : (w.backend u).port ≠ some port := fun hport => hon ⟨hlive, hport⟩
          have hr : r = w.serialCall pf env u call := step_serial pf hlive call env
          rw [hr, onPort_serialCall pf env hlive hport call,
            h.stock_serialCall_other hlive hport call env]
          simp

/-- The bytes that a step drops of what came in at the port: of what was in stock or comes in,
those that the program is not given and that are not in stock then. -/
def dropped (pf : Platform) (port : Port) (w : World) (c : Call) : Multiset Byte :=
  let r := w.step pf c
  w.stock port + receivedBytes (onPort port r.2.events) - (w.given port c r.2 + r.1.stock port)

/-- The step accounts for the input of the port, and what it drops is of a step that may. -/
structure AccountsInput (pf : Platform) (port : Port) (w : World) (c : Call) : Prop where
  accounts : w.stock port + receivedBytes (onPort port (w.step pf c).2.events) =
    w.given port c (w.step pf c).2 + w.dropped pf port c + (w.step pf c).1.stock port
  drops : w.dropped pf port c ≠ 0 → w.DropsInput pf port c

theorem Owned.accountsInput (h : w.Owned) (hswap : pf.SwapsBytes)
    (hopen : ∀ installed ring, c.op ≠ .uartDriver port installed ring)
    (hempty : ∀ u b, c.op = .installSerial u (some b) → b.held = []) :
    w.AccountsInput pf port c := by
  obtain ⟨rest, hstep, hrest⟩ := h.input_step hswap hopen hempty
  have hdropped : w.dropped pf port c = rest := by
    rw [dropped, hstep, add_right_comm, add_tsub_cancel_left]
  exact ⟨hdropped ▸ hstep, fun hne => hrest.resolve_right (hdropped ▸ hne)⟩

end World

/-! ## Runs -/

/-- What a run makes of the input of a port, if each step accounts for it. -/
theorem World.input_run {pf : Platform} {port : Port} {calls : List Call} {w : World}
    (h : (machine pf).Along (World.AccountsInput pf port) w calls) :
    w.stock port +
        receivedBytes (onPort port (((machine pf).outputs w calls).flatMap Outcome.events)) =
      ((machine pf).collect (fun w c o => some (w.given port c o)) w calls).flatten +
        ((machine pf).collect (fun w c _ => some (w.dropped pf port c)) w calls).sum +
        ((machine pf).after w calls).stock port := by
  induction calls generalizing w with
  | nil => simp
  | cons c calls ih =>
      have hmachine : (machine pf).step w c = w.step pf c := rfl
      have hrun := ih h.2
      simp only [hmachine, OutputMachine.outputs_cons, List.flatMap_cons, OutputMachine.after_cons,
        OutputMachine.collect_cons, onPort_append, receivedBytes_append, Option.toList_some,
        List.singleton_append, List.flatten_cons, List.sum_cons, ← Multiset.coe_add] at hrun ⊢
      rw [← add_assoc, h.1.accounts, add_assoc _ _ (receivedBytes _ : Multiset Byte), hrun]
      abel

/-- **What comes in at a port** in a run is what was in its ring and what has arrived, and of
that the program is given what is neither in stock at the end nor has been dropped.  So no byte
is given to the program twice, or to two of its units, and none that has not come in there: this
is so of any number of units of either class on this port and on others, with moves, failing and
repeated `begin`s and whatever the drivers do, as long as the program does not open the port anew
and hands over no backend with a byte of its own.  The same is true of each step, and no step drops
anything but a `flush(false)`, a `readValue` that fails and a `begin` that is to flush. -/
theorem port_input (pf : Platform) (hswap : pf.SwapsBytes) (ports : Port → UartPort)
    (calls : List Call) (port : Port)
    (hopen : ∀ c ∈ calls, ∀ installed ring, c.op ≠ .uartDriver port installed ring)
    (hempty : ∀ c ∈ calls, ∀ u b, c.op = .installSerial u (some b) → b.held = []) :
    let m := machine pf
    let w := World.init ports
    m.Along (World.AccountsInput pf port) w calls ∧
      (ports port).rx +
          receivedBytes (onPort port ((m.outputs w calls).flatMap Outcome.events)) =
        (m.collect (fun w c o => some (w.given port c o)) w calls).flatten +
          (m.collect (fun w c _ => some (w.dropped pf port c)) w calls).sum +
          (m.after w calls).stock port := by
  intro m w
  have hsteps : m.Along (World.AccountsInput pf port) w calls := by
    refine OutputMachine.along_of_invariant (I := World.Owned)
      (fun w c h _ => h.step pf c) (fun w c h hc => h.accountsInput hswap hc.1 hc.2)
      (World.owned_init ports)
      (m.along_of_forall (fun c hc => And.intro (hopen c hc) (hempty c hc)) w)
  have hstock : w.stock port = (ports port).rx := by simp [World.stock, w, World.init]
  rw [← hstock]
  exact ⟨hsteps, World.input_run hsteps⟩

/-- Two units share port 1, and neither flushes it when it begins.  The first one peeks, the second
one reads past what it holds back, the first one reads that, and then drops the rest. -/
def sharedInput : List Call :=
  [⟨.construct 0 .sp485, .calm⟩, ⟨.configBase 0 { flushRX := false }, .calm⟩,
    ⟨.setAdapter 0 (some ⟨none, 1⟩), .calm⟩, ⟨.begin 0, .calm⟩, ⟨.construct 1 .sp485, .calm⟩,
    ⟨.configBase 1 { flushRX := false }, .calm⟩, ⟨.setAdapter 1 (some ⟨none, 1⟩), .calm⟩,
    ⟨.arrive 1 [0x01, 0x02, 0x03], .calm⟩, ⟨.begin 1, .calm⟩, ⟨.serial 0 .peek, .calm⟩,
    ⟨.serial 1 .read, .calm⟩, ⟨.serial 0 .read, .calm⟩, ⟨.serial 0 (.flushTx false), .calm⟩]

/-- Until the last step nothing is dropped, and then the byte that is left. -/
theorem sample_port_input :
    let m := machine .esp32
    let w := World.init samplePorts
    (m.collect (fun w c o => some (w.given 1 c o)) w sharedInput).flatten = [0x02, 0x01] ∧
      m.collect (fun w c _ => some (w.dropped .esp32 1 c)) w sharedInput =
        List.replicate 12 0 ++ [{0x03}] ∧
      World.DropsInput .esp32 1 (m.after w (sharedInput.take 12))
        ⟨.serial 0 (.flushTx false), .calm⟩ ∧
      (m.after w sharedInput).stock 1 = 0 := by
  intro m w
  have hgiven : (m.collect (fun w c o => some (w.given 1 c o)) w sharedInput).flatten =
      [0x02, 0x01] := by decide
  have hdropped : m.collect (fun w c _ => some (w.dropped .esp32 1 c)) w sharedInput =
      List.replicate 12 0 ++ [{0x03}] := by decide +kernel
  obtain ⟨hsteps, hrun⟩ := port_input .esp32 Platform.esp32_swapsBytes samplePorts sharedInput 1
    (by simp [sharedInput]) (by simp [sharedInput])
  have hlast : World.AccountsInput .esp32 1 (m.after w (sharedInput.take 12))
      ⟨.serial 0 (.flushTx false), .calm⟩ := OutputMachine.Along.last hsteps
  refine ⟨hgiven, hdropped, hlast.drops (by decide +kernel), ?_⟩
  have hreceived : receivedBytes (onPort 1 ((m.outputs w sharedInput).flatMap Outcome.events)) =
      [0x01, 0x02, 0x03] := by decide
  rw [hgiven, hdropped, hreceived] at hrun
  have hcount := congrArg Multiset.card hrun
  exact Multiset.card_eq_zero.mp (by simpa [samplePorts] using hcount)

end RS485
