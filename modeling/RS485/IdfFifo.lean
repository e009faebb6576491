import RS485.Lib.Fifo
import RS485.Lib.Machine
import RS485.Serial.Idf

/-!
# The ESP-IDF backend is a queue

The pending input of an `IDFSerial` is the byte it holds back, if any, followed by the RX ring
of the driver.  Every call serves this queue as `Fifo.serve` does: `available` asks for its
size, `peek` for its front, `read` pops, the buffer reads take, `flush(false)` clears, and
everything else leaves it alone (`perform_serve`).  The byte held back is always in reach;
what lies behind it is in reach as far as the driver delivers (`SerialCall.reach`), which is
all that a failing driver call can change.

`idf_serial_is_fifo` carries this over to runs, where bytes also arrive between and during
calls, and concludes that none of them is lost, duplicated or reordered.
-/

namespace RS485

/-! ## Received bytes -/

/-- The bytes that arrive at a port. -/
def Event.arrived : Event → List Byte
  | .received _ bytes => bytes
  | _ => []

def receivedBytes (events : List Event) : List Byte := events.flatMap Event.arrived

@[simp] theorem receivedBytes_nil : receivedBytes [] = [] := rfl

@[simp] theorem receivedBytes_cons (e : Event) (es : List Event) :
    receivedBytes (e :: es) = e.arrived ++ receivedBytes es := by
  simp [receivedBytes]

@[simp] theorem receivedBytes_append (es es' : List Event) :
    receivedBytes (es ++ es') = receivedBytes es ++ receivedBytes es' := by
  simp [receivedBytes]

@[simp] theorem receivedBytes_map_sent (port : Port) (bs : List Byte) :
    receivedBytes (bs.map (Event.sent port)) = [] := by
  induction bs with
  | nil => rfl
  | cons b bs ih => simp [ih, Event.arrived]

@[simp] theorem transmit_rx (io : Io) (port : Port) (n ringUsed : ℕ) :
    (io.transmit port n ringUsed).uart.rx = io.uart.rx := rfl

@[simp] theorem receivedBytes_transmit (io : Io) (port : Port) (n ringUsed : ℕ) :
    receivedBytes (io.transmit port n ringUsed).log = receivedBytes io.log := by
  rw [Io.transmit, receivedBytes_append, receivedBytes_map_sent, List.append_nil]

/-! ## Calls as requests -/

namespace SerialCall

/-- What a call asks of the pending input. -/
def request : SerialCall → Fifo.Request
  | .available => .size
  | .peek => .front
  | .read => .pop
  | .readBuf d | .readBytes d | .readBytesTimeout d _ => .take (if d.isNull then 0 else d.size)
  | .readValue _ T => .take T.size
  | .flushTx false => .clear
  | _ => .idle

/-- How much of the pending input is in reach of a call: the byte held back, and what the
driver delivers on top. -/
def reach (env : Env) (s : IDFSerial) (ringLength : ℕ) : SerialCall → ℕ
  | .available => s.held + if env.bufferedDataLen then ringLength else 0
  | .peek | .read => s.held + env.readCount (1 - s.held)
  | .readBuf d | .readBytes d | .readBytesTimeout d _ => s.held + env.readCount (d.size - s.held)
  | .readValue _ T => s.held + env.readCount (T.size - s.held)
  | .flushTx false => s.held + if env.flushInput then ringLength else 0
  | _ => s.held

/-- The driver call a call of the backend makes succeeds in full. -/
def Succeeds (env : Env) : SerialCall → Prop
  | .available => env.bufferedDataLen = true
  | .peek | .read => ∃ limit, env.delivered = some limit ∧ 1 ≤ limit
  | .readBuf d | .readBytes d | .readBytesTimeout d _ =>
      ∃ limit, env.delivered = some limit ∧ d.size ≤ limit
  | .readValue _ T => ∃ limit, env.delivered = some limit ∧ T.size ≤ limit
  | .flushTx false => env.flushInput = true
  | _ => True

/-- What the queue's reply says about the call's result. -/
def answer (pf : Platform) : SerialCall → Fifo.Reply Byte → Option Result
  | .available, .size n => some (.int n)
  | .peek, .item x | .read, .item x => some (.int (x.elim (-1) fun b => b.toNat))
  | .readBuf _, .items bs | .readBytes _, .items bs | .readBytesTimeout _ _, .items bs =>
      some (.bytes bs)
  | .readValue le T, .items bs =>
      let r := RS485Component.decodeValue pf le T bs
      some (.value r.1 ⟨T, r.2⟩)
  | _, _ => none

end SerialCall

namespace Env

variable (env : Env)

theorem readCount_le (n : ℕ) : env.readCount n ≤ n := by
  unfold readCount
  split
  · exact Nat.zero_le n
  · exact Nat.min_le_left n _

@[simp] theorem readCount_zero : env.readCount 0 = 0 :=
  Nat.le_zero.mp (env.readCount_le 0)

theorem readCount_of_le {n limit : ℕ} (h : env.delivered = some limit) (hn : n ≤ limit) :
    env.readCount n = n := by
  simp [readCount, h, hn]

theorem readCount_of_none {n : ℕ} (h : env.delivered = none) : env.readCount n = 0 := by
  simp [readCount, h]

end Env

/-! ## One call -/

namespace IDFSerial

/-- The pending input. -/
def pending (s : IDFSerial) (uart : UartPort) : List Byte := s.peeked.toList ++ uart.rx

@[simp] theorem length_toList_peeked (s : IDFSerial) : s.peeked.toList.length = s.held := by
  unfold held
  cases s.peeked <;> rfl

/-- The call leaves the pending input as it is, and nothing arrives. -/
def Untouched (s t : IDFSerial × Io) : Prop :=
  t.1.peeked = s.1.peeked ∧ t.2.uart.rx = s.2.uart.rx ∧
    receivedBytes t.2.log = receivedBytes s.2.log

theorem Untouched.trans {s t u : IDFSerial × Io} (h : Untouched s t) (h' : Untouched t u) :
    Untouched s u :=
  ⟨h'.1.trans h.1, h'.2.1.trans h.2.1, h'.2.2.trans h.2.2⟩

variable (pf : Platform) (env : Env) (s : IDFSerial) (io : Io)

theorem untouched_flush : Untouched (s, io) (flush env (s, io)) := by
  unfold flush uartWaitTxDone
  dsimp only
  split
  · exact ⟨rfl, by simp, by simp [Event.arrived]⟩
  · exact ⟨rfl, by simp, by simp [Event.arrived]⟩

theorem untouched_availableForWrite :
    Untouched (s, io) (availableForWrite pf env (s, io)).1 := by
  unfold availableForWrite uartGetTxBufferFreeSize
  cases env.txBufferFreeSize with
  | false => exact ⟨rfl, by simp, by simp [Event.arrived]⟩
  | true =>
      simp only [if_true]
      split
      · exact ⟨rfl, by simp, by simp [Event.arrived]⟩
      · split <;> exact ⟨rfl, by simp, by simp [Event.arrived]⟩

theorem untouched_baudRate : Untouched (s, io) (baudRate env (s, io)).1 := by
  unfold baudRate uartGetBaudrate
  cases env.baudrate <;> exact ⟨rfl, by simp, by simp [Event.arrived]⟩

theorem untouched_writeBuf (b : Buffer) : Untouched (s, io) (writeBuf env b (s, io)).1 := by
  unfold writeBuf uartWriteBytes
  dsimp only
  split
  · exact ⟨rfl, rfl, rfl⟩
  · cases env.accepted with
    | none => exact ⟨rfl, by simp, by simp [Event.arrived]⟩
    | some limit => exact ⟨rfl, by simp, by simp [Event.arrived]⟩

theorem untouched_send (b : Buffer) (wait : Bool) :
    Untouched (s, io) (SerialCall.send (iserial pf env) b wait (s, io)) := by
  have hwrite : Untouched (s, io) (RS485Component.writeBuf (iserial pf env) b (s, io)).1 := by
    unfold RS485Component.writeBuf
    split
    · exact ⟨rfl, rfl, rfl⟩
    · exact untouched_writeBuf env s io b
  unfold SerialCall.send RS485Component.writeWaiting
  dsimp only
  split
  · split
    · exact hwrite.trans (untouched_flush env _ _)
    · exact hwrite
  · exact hwrite

/-! ### The calls that read -/

theorem available_eq : available env (s, io) =
    ((s, io.emit [.bufferedDataLen s.port]),
      ((s.held + if env.bufferedDataLen then io.uart.rx.length else 0 : ℕ) : ℤ)) := by
  unfold available uartGetBufferedDataLen
  cases env.bufferedDataLen with
  | false => rfl
  | true => simp [add_comm]

/-- A read that waits takes what is in reach, up to the length of the buffer. -/
theorem readWithWait_takes (ticks : ℕ) (d : Destination) :
    let r := readWithWait env ticks d (s, io)
    let k := min (if d.isNull then 0 else d.size) (s.held + env.readCount (d.size - s.held))
    ∃ arrived, receivedBytes r.1.2.log = receivedBytes io.log ++ arrived ∧
      r.2 = (s.pending io.uart ++ arrived).take k ∧
      r.1.1.pending r.1.2.uart = (s.pending io.uart ++ arrived).drop k := by
  intro r k
  by_cases hempty : d.isNull = true ∨ d.size = 0
  · have hr : r = ((s, io), []) := if_pos hempty
    have hk : k = 0 := by rcases hempty with h | h <;> simp [k, h]
    exact ⟨[], by simp [hr], by simp [hr, hk], by simp [hr, hk]⟩
  · obtain ⟨hnull, hsize⟩ := not_or.mp hempty
    have hk : k = min d.size (s.held + env.readCount (d.size - s.held)) := by simp [k, hnull]
    by_cases hheld : d.size ≤ s.held
    · -- the buffer is one byte long and the byte held back fills it
      have hr : r = (({ s with peeked := none }, io), s.peeked.toList) := by
        simp [r, readWithWait, hempty, hheld]
      have hone : s.held = d.size := by
        have : s.held ≤ 1 := by unfold held; split <;> omega
        omega
      have hk' : k = s.peeked.toList.length := by simp [hk, hone]
      exact ⟨[], by simp [hr], by simp [hr, hk', pending], by simp [hr, hk', pending]⟩
    · have hle := env.readCount_le (d.size - s.held)
      have hk' : k = s.peeked.toList.length + env.readCount (d.size - s.held) := by
        rw [hk, length_toList_peeked]
        omega
      have hring : s.pending io.uart ++ env.arrivals =
          s.peeked.toList ++ (io.uart.rx ++ env.arrivals) := List.append_assoc ..
      refine ⟨env.arrivals, ?_, ?_, ?_⟩
      · simp only [r, readWithWait, if_neg hempty, if_neg hheld, uartReadBytes]
        cases env.delivered <;> simp [Event.arrived]
      · rw [hring, hk', List.take_length_add_append]
        simp only [r, readWithWait, if_neg hempty, if_neg hheld, uartReadBytes]
        cases hdelivered : env.delivered with
        | none => simp [Env.readCount_of_none env hdelivered]
        | some limit => rfl
      · rw [hring, hk', List.drop_length_add_append]
        simp only [r, readWithWait, if_neg hempty, if_neg hheld, uartReadBytes]
        cases env.delivered <;> rfl

theorem take_readCount_one (ring : List Byte) :
    ring.take (env.readCount 1) = (ring.take (env.readCount 1)).head?.toList := by
  rcases Nat.le_one_iff_eq_zero_or_eq_one.mp (env.readCount_le 1) with h | h <;>
    cases ring <;> simp [h]

/-- What the driver hands out to a read of one byte. -/
theorem uartReadBytes_one (port : Port) :
    uartReadBytes env port 1 0 io =
      (({ io with uart := { io.uart with
            rx := (io.uart.rx ++ env.arrivals).drop (env.readCount 1) } } : Io).emit
          [.uartRead port 1 0, .received port env.arrivals],
        env.delivered.map fun _ => ((io.uart.rx ++ env.arrivals).take
          (env.readCount 1)).head?.toList) := by
  simp only [uartReadBytes]
  rw [← take_readCount_one]

/-- `read` pops the queue, if its front is in reach. -/
theorem read_pops :
    let r := read env (s, io)
    let k := s.held + env.readCount (1 - s.held)
    ∃ arrived, receivedBytes r.1.2.log = receivedBytes io.log ++ arrived ∧
      r.2 = (((s.pending io.uart ++ arrived).take k).head?.elim (-1) fun b => (b.toNat : ℤ)) ∧
      r.1.1.pending r.1.2.uart = (s.pending io.uart ++ arrived).drop (min k 1) := by
  intro r k
  cases hpeeked : s.peeked with
  | some b =>
      have hk : k = 1 := by simp [k, held, hpeeked]
      have hr : r = (({ s with peeked := none }, io), (b.toNat : ℤ)) := by
        simp [r, read, hpeeked]
      exact ⟨[], by simp [hr], by simp [hr, hk, pending, hpeeked],
        by simp [hr, hk, pending, hpeeked]⟩
  | none =>
      have hk : k = env.readCount 1 := by simp [k, held, hpeeked]
      have hmin : min k 1 = env.readCount 1 := by
        rw [hk]
        exact Nat.min_eq_left (env.readCount_le 1)
      have hq : s.pending io.uart = io.uart.rx := by simp [pending, hpeeked]
      refine ⟨env.arrivals, ?_⟩
      rw [hmin, hk, hq]
      simp only [r, read, hpeeked, uartReadBytes_one]
      cases hdelivered : env.delivered with
      | none => simp [Event.arrived, Env.readCount_of_none env hdelivered, pending, hpeeked]
      | some limit =>
          cases ((io.uart.rx ++ env.arrivals).take (env.readCount 1)).head? <;>
            simp [Event.arrived, pending, hpeeked]

/-- `peek` shows the front of the queue, if that is in reach, and leaves the queue alone. -/
theorem peek_shows :
    let r := peek env (s, io)
    let k := s.held + env.readCount (1 - s.held)
    ∃ arrived, receivedBytes r.1.2.log = receivedBytes io.log ++ arrived ∧
      r.2 = (((s.pending io.uart ++ arrived).take k).head?.elim (-1) fun b => (b.toNat : ℤ)) ∧
      r.1.1.pending r.1.2.uart = s.pending io.uart ++ arrived := by
  intro r k
  cases hpeeked : s.peeked with
  | some b =>
      have hk : k = 1 := by simp [k, held, hpeeked]
      have hr : r = ((s, io), (b.toNat : ℤ)) := by simp [r, peek, hpeeked]
      exact ⟨[], by simp [hr], by simp [hr, hk, pending, hpeeked], by simp [hr]⟩
  | none =>
      have hk : k = env.readCount 1 := by simp [k, held, hpeeked]
      have hq : s.pending io.uart = io.uart.rx := by simp [pending, hpeeked]
      refine ⟨env.arrivals, ?_⟩
      rw [hk, hq]
      simp only [r, peek, hpeeked, uartReadBytes_one]
      cases hdelivered : env.delivered with
      | none => simp [Event.arrived, Env.readCount_of_none env hdelivered, pending, hpeeked]
      | some limit =>
          -- the byte moves from the front of the ring to `peeked`
          have hsplit := List.take_append_drop (env.readCount 1) (io.uart.rx ++ env.arrivals)
          rw [take_readCount_one] at hsplit
          cases hhead : ((io.uart.rx ++ env.arrivals).take (env.readCount 1)).head? with
          | none => simpa [Event.arrived, pending, hpeeked, hhead] using hsplit
          | some b => simpa [Event.arrived, pending, hhead] using hsplit

/-- `flush(false)` drops what is in reach. -/
theorem flushTx_clears :
    let t := flushTx env false (s, io)
    receivedBytes t.2.log = receivedBytes io.log ∧
      t.1.pending t.2.uart =
        (s.pending io.uart).drop (s.held + if env.flushInput then io.uart.rx.length else 0) := by
  obtain ⟨-, hrx, hlog⟩ : Untouched (s, io) (s, uartWaitTxDone env s.port io) :=
    untouched_flush env s io
  have hheld : s.held = s.peeked.toList.length := (length_toList_peeked s).symm
  simp only [flushTx, Bool.false_eq_true, if_false, uartFlushInput, pending, hheld,
    List.drop_length_add_append]
  cases env.flushInput with
  | false => exact ⟨by simpa [Event.arrived] using hlog, by simpa using hrx⟩
  | true => exact ⟨by simpa [Event.arrived] using hlog, by simp⟩

/-! ### All calls -/

/-- What a call with this log does to the queue and gets from it. -/
def served (uart : UartPort) (call : SerialCall) (log : List Event) :
    Fifo.Reply Byte × List Byte :=
  Fifo.serve (s.pending uart ++ receivedBytes log) (call.reach env s uart.rx.length) call.request

section Served

variable {env s} {uart : UartPort} {call : SerialCall}

theorem served_of_untouched {t : IDFSerial × Io} (h : Untouched (s, ⟨uart, []⟩) t)
    (hidle : call.request = .idle) :
    served env s uart call t.2.log = (.done, t.1.pending t.2.uart) := by
  obtain ⟨hpeeked, hrx, hlog⟩ := h
  simp [served, hidle, Fifo.serve, pending, hpeeked, hrx, hlog]

/-- A call that fills a buffer takes from the queue. -/
theorem served_of_takes {ticks : ℕ} {d : Destination}
    (hrequest : call.request = .take (if d.isNull then 0 else d.size))
    (hreach : call.reach env s uart.rx.length = s.held + env.readCount (d.size - s.held)) :
    let r := readWithWait env ticks d (s, ⟨uart, []⟩)
    served env s uart call r.1.2.log = (.items r.2, r.1.1.pending r.1.2.uart) := by
  obtain ⟨arrived, hlog, hbytes, hpending⟩ := readWithWait_takes env s ⟨uart, []⟩ ticks d
  have hlog' : receivedBytes (readWithWait env ticks d (s, ⟨uart, []⟩)).1.2.log = arrived := hlog
  simp only [served, hlog', hrequest, hreach, Fifo.serve, hbytes, hpending]

end Served

/-- **Every call serves the pending input as a queue.** -/
theorem perform_serve (call : SerialCall) (uart : UartPort) :
    let r := call.perform pf (iserial pf env) (s, ⟨uart, []⟩)
    r.1.1.pending r.1.2.uart = (served env s uart call r.1.2.log).2 ∧
      ∀ res, call.answer pf (served env s uart call r.1.2.log).1 = some res → r.2 = res := by
  intro r
  -- it is enough to know what the queue replies
  suffices h : ∃ reply,
      served env s uart call r.1.2.log = (reply, r.1.1.pending r.1.2.uart) ∧
        ∀ res, call.answer pf reply = some res → r.2 = res by
    obtain ⟨reply, hserved, hanswer⟩ := h
    rw [hserved]
    exact ⟨rfl, hanswer⟩
  have huntouched : Untouched (s, ⟨uart, []⟩) r.1 → call.request = .idle →
      call.answer pf .done = none → ∃ reply,
        served env s uart call r.1.2.log = (reply, r.1.1.pending r.1.2.uart) ∧
          ∀ res, call.answer pf reply = some res → r.2 = res :=
    fun h hidle hnone =>
      ⟨.done, served_of_untouched h hidle, fun res hres => by simp [hnone] at hres⟩
  cases hpayload : call.payload pf with
  | some p =>
      obtain ⟨b, wait⟩ := p
      have hr : r.1 = SerialCall.send (iserial pf env) b wait (s, ⟨uart, []⟩) :=
        call.perform_of_payload (write_byte pf env) hpayload _
      have hsend : Untouched (s, ⟨uart, []⟩) r.1 := hr ▸ untouched_send pf env s _ b wait
      cases call <;> simp only [SerialCall.payload, reduceCtorEq] at hpayload <;>
        exact huntouched hsend rfl rfl
  | none =>
      cases call with
      | baudRate => exact huntouched (untouched_baudRate env s ⟨uart, []⟩) rfl rfl
      | available =>
          have hlength : (s.pending uart).length = s.held + uart.rx.length := by simp [pending]
          refine ⟨.size (s.held + if env.bufferedDataLen then uart.rx.length else 0), ?_, ?_⟩
          · simp only [r, SerialCall.perform, iserial, available_eq, served, SerialCall.request,
              SerialCall.reach, Fifo.serve]
            cases env.bufferedDataLen <;> simp [Event.arrived, hlength]
          · rintro res ⟨⟩
            simp only [r, SerialCall.perform, iserial, available_eq]
      | availableForWrite =>
          exact huntouched (untouched_availableForWrite pf env s ⟨uart, []⟩) rfl rfl
      | peek =>
          obtain ⟨arrived, hlog, hval, hpending⟩ := peek_shows env s ⟨uart, []⟩
          have hlog' : receivedBytes r.1.2.log = arrived := hlog
          refine ⟨.item ((s.pending uart ++ arrived).take
            (s.held + env.readCount (1 - s.held))).head?, ?_, ?_⟩
          · rw [served, hlog']
            exact congrArg (Prod.mk _) hpending.symm
          · rintro res ⟨⟩
            exact congrArg Result.int hval
      | read =>
          obtain ⟨arrived, hlog, hval, hpending⟩ := read_pops env s ⟨uart, []⟩
          have hlog' : receivedBytes r.1.2.log = arrived := hlog
          refine ⟨.item ((s.pending uart ++ arrived).take
            (s.held + env.readCount (1 - s.held))).head?, ?_, ?_⟩
          · rw [served, hlog']
            exact congrArg (Prod.mk _) hpending.symm
          · rintro res ⟨⟩
            exact congrArg Result.int hval
      | readBuf d => exact ⟨_, served_of_takes rfl rfl, by rintro res ⟨⟩; rfl⟩
      | readBytes d => exact ⟨_, served_of_takes rfl rfl, by rintro res ⟨⟩; rfl⟩
      | readBytesTimeout d ms => exact ⟨_, served_of_takes rfl rfl, by rintro res ⟨⟩; rfl⟩
      | flush => exact huntouched (untouched_flush env s ⟨uart, []⟩) rfl rfl
      | flushTx txOnly =>
          cases txOnly with
          | true => exact huntouched (untouched_flush env s ⟨uart, []⟩) rfl rfl
          | false =>
              obtain ⟨hlog, hpending⟩ := flushTx_clears env s ⟨uart, []⟩
              have hlog' : receivedBytes r.1.2.log = [] := hlog
              refine ⟨.done, ?_, by rintro res ⟨⟩⟩
              rw [served, hlog', List.append_nil]
              exact congrArg (Prod.mk _) hpending.symm
      | readValue le T =>
          let q := readWithWait env (ticksOf pf s.timeoutMs) ⟨false, T.size⟩ (s, ⟨uart, []⟩)
          let decoded := RS485Component.decodeValue pf le T q.2
          have hr : r = (q.1, .value decoded.1 ⟨T, decoded.2⟩) := by
            simp only [r, SerialCall.perform, RS485Component.readValue_eq]
            rfl
          rw [hr]
          exact ⟨_, served_of_takes rfl rfl, by rintro res ⟨⟩; rfl⟩
      | _ => simp [SerialCall.payload] at hpayload

/-- A call whose driver call succeeds in full finds all it can use in reach. -/
theorem suffices_of_succeeds (call : SerialCall) (uart : UartPort)
    (h : call.Succeeds env) :
    Fifo.Suffices
      (s.pending uart ++
        receivedBytes (call.perform pf (iserial pf env) (s, ⟨uart, []⟩)).1.2.log)
      (call.reach env s uart.rx.length) call.request := by
  have hread : ∀ n, (∃ limit, env.delivered = some limit ∧ n ≤ limit) →
      n ≤ s.held + env.readCount (n - s.held) := by
    rintro n ⟨limit, hdelivered, hn⟩
    rw [env.readCount_of_le hdelivered (le_trans (Nat.sub_le ..) hn)]
    omega
  have hbuffer : ∀ d : Destination, (∃ limit, env.delivered = some limit ∧ d.size ≤ limit) →
      (if d.isNull then 0 else d.size) ≤ s.held + env.readCount (d.size - s.held) := by
    intro d hd
    split
    · exact Nat.zero_le _
    · exact hread d.size hd
  cases call with
  | available =>
      have hsucceeds : env.bufferedDataLen = true := h
      simp [SerialCall.perform, iserial, available_eq, SerialCall.reach, SerialCall.request,
        Fifo.Suffices, hsucceeds, pending, Event.arrived]
  | peek => exact hread 1 h
  | read => exact hread 1 h
  | readBuf d => exact hbuffer d h
  | readBytes d => exact hbuffer d h
  | readBytesTimeout d ms => exact hbuffer d h
  | readValue le T => exact hread T.size h
  | flushTx txOnly =>
      cases txOnly with
      | true => trivial
      | false =>
          have hsucceeds : env.flushInput = true := h
          have hlog : receivedBytes
              ((SerialCall.flushTx false).perform pf (iserial pf env) (s, ⟨uart, []⟩)).1.2.log =
                [] := (flushTx_clears env s ⟨uart, []⟩).1
          rw [hlog]
          simp [SerialCall.reach, SerialCall.request, Fifo.Suffices, hsucceeds, pending]
  | _ => trivial

/-! ## Runs -/

/-- A step of the backend's life: a call, or bytes that arrive between calls. -/
inductive Input
  | call (call : SerialCall) (env : Env)
  | arrive (bytes : List Byte)

/-- The backend and the port under it as a machine.  It answers with the result of the call
and the log. -/
def machine : OutputMachine (IDFSerial × UartPort) Input (Result × List Event) where
  step p
    | .call call env =>
        let r := call.perform pf (iserial pf env) (p.1, ⟨p.2, []⟩)
        ((r.1.1, r.1.2.uart), (r.2, r.1.2.log))
    | .arrive bytes =>
        ((p.1, { p.2 with rx := p.2.rx ++ bytes }), (.done, [.received p.1.port bytes]))

/-- The step of the queue that a step of the backend is. -/
def queueStep (p : IDFSerial × UartPort) : Input → Fifo.Step Byte
  | .call call env =>
      { arrived := receivedBytes ((machine pf).step p (.call call env)).2.2
        reach := call.reach env p.1 p.2.rx.length
        request := call.request }
  | .arrive bytes => { arrived := bytes, reach := 0, request := .idle }

theorem queueStep_fst (p : IDFSerial × UartPort) (i : Input) :
    ((Fifo.machine Byte).step (p.1.pending p.2) (queueStep pf p i)).1 =
      ((machine pf).step p i).1.1.pending ((machine pf).step p i).1.2 := by
  cases i with
  | call call env => exact (perform_serve pf env p.1 call p.2).1.symm
  | arrive bytes => simp [queueStep, machine, Fifo.serve, pending]

/-- The input is neither `flush(false)`, which drops pending bytes, nor `readValue`, which
does not return the bytes it takes. -/
def Input.keepsStream : Input → Bool
  | .call (.flushTx false) _ | .call (.readValue _ _) _ => false
  | _ => true

/-- The bytes a result hands to the caller. -/
def Input.returned : Input → Result → List Byte
  | .call .read _, .int i => if i < 0 then [] else [BitVec.ofInt 8 i]
  | .call (.readBuf _) _, .bytes bs | .call (.readBytes _) _, .bytes bs
  | .call (.readBytesTimeout _ _) _, .bytes bs => bs
  | _, _ => []

/-- What the queue hands out is what the caller gets. -/
theorem taken_eq_returned (p : IDFSerial × UartPort) {i : Input} (hi : i.keepsStream = true) :
    Fifo.taken (queueStep pf p i).request
        ((Fifo.machine Byte).step (p.1.pending p.2) (queueStep pf p i)).2 =
      i.returned ((machine pf).step p i).2.1 := by
  cases i with
  | arrive bytes => rfl
  | call call env =>
      obtain ⟨-, hanswer⟩ := perform_serve pf env p.1 call p.2
      cases call with
      | read =>
          have hresult := hanswer _ rfl
          simp only [machine, hresult, queueStep, SerialCall.request, Fifo.machine_step,
            Fifo.serve, Fifo.taken, Input.returned]
          cases (List.take _ (_ ++ _)).head? with
          | none => rfl
          | some b => simp [not_lt.mpr (Int.natCast_nonneg _)]
      | readBuf d =>
          exact (congrArg (Input.call (.readBuf d) env).returned (hanswer _ rfl)).symm
      | readBytes d =>
          exact (congrArg (Input.call (.readBytes d) env).returned (hanswer _ rfl)).symm
      | readBytesTimeout d ms =>
          exact (congrArg (Input.call (.readBytesTimeout d ms) env).returned (hanswer _ rfl)).symm
      | flushTx txOnly =>
          cases txOnly with
          | true => rfl
          | false => cases hi
      | readValue le T => cases hi
      | _ => rfl

theorem queueStep_arrived (p : IDFSerial × UartPort) (i : Input) :
    (queueStep pf p i).arrived = receivedBytes ((machine pf).step p i).2.2 := by
  cases i with
  | call call env => rfl
  | arrive bytes => simp [queueStep, machine, Event.arrived]

theorem queueStep_request_ne_clear (p : IDFSerial × UartPort) {i : Input}
    (hi : i.keepsStream = true) : (queueStep pf p i).request ≠ .clear := by
  cases i with
  | arrive bytes => simp [queueStep]
  | call call env =>
      cases call with
      | flushTx txOnly => cases txOnly <;> simp_all [queueStep, SerialCall.request,
          Input.keepsStream]
      | _ => simp [queueStep, SerialCall.request]

/-- What was pending and what arrives is what is returned and what is then pending. -/
theorem step_conserves (p : IDFSerial × UartPort) {i : Input} (hi : i.keepsStream = true) :
    p.1.pending p.2 ++ receivedBytes ((machine pf).step p i).2.2 =
      i.returned ((machine pf).step p i).2.1 ++
        ((machine pf).step p i).1.1.pending ((machine pf).step p i).1.2 := by
  rw [← taken_eq_returned pf p hi, ← queueStep_fst, ← queueStep_arrived]
  exact (Fifo.taken_append_serve _ _ (queueStep_request_ne_clear pf p hi)).symm

/-- What arrives at the queue is what the log says has arrived. -/
theorem arrived_eq_received (p : IDFSerial × UartPort) (inputs : List Input) :
    (((machine pf).collect (fun p i _ => some (queueStep pf p i)) p inputs).map
        Fifo.Step.arrived).flatten =
      receivedBytes (((machine pf).outputs p inputs).flatMap Prod.snd) := by
  induction inputs generalizing p with
  | nil => rfl
  | cons i inputs ih => simp [queueStep_arrived, ih]

/-- **The ESP-IDF backend is a queue.**  Its pending input goes through any run as a queue
does that is asked, at each call, what the call asks.  The answers are the queue's; the byte
held back is always in reach, and if the driver call a call makes succeeds in full, the call
is served as the textbook queue serves it.  In a run without `flush(false)` and `readValue`
what was pending and what arrived is, in order, what was returned and what is pending. -/
theorem idf_serial_is_fifo (p : IDFSerial × UartPort) (inputs : List Input) :
    let m := machine pf
    let fifo := Fifo.machine Byte
    fifo.after (p.1.pending p.2) (m.collect (fun p i _ => some (queueStep pf p i)) p inputs) =
        (m.after p inputs).1.pending (m.after p inputs).2 ∧
    m.Along
      (fun p i => ∀ call env, i = .call call env →
        let q := p.1.pending p.2 ++ receivedBytes (m.step p i).2.2
        let served := Fifo.serve q (call.reach env p.1 p.2.rx.length) call.request
        (m.step p i).1.1.pending (m.step p i).1.2 = served.2 ∧
        (∀ res, call.answer pf served.1 = some res → (m.step p i).2.1 = res) ∧
        p.1.held ≤ call.reach env p.1 p.2.rx.length ∧
        (call.Succeeds env → served = Fifo.servePlain q call.request)) p inputs ∧
    ((∀ i ∈ inputs, i.keepsStream = true) →
      p.1.pending p.2 ++ receivedBytes ((m.outputs p inputs).flatMap Prod.snd) =
        (m.collect (fun _ i o => some (i.returned o.1)) p inputs).flatten ++
          (m.after p inputs).1.pending (m.after p inputs).2) := by
  intro m fifo
  refine ⟨OutputMachine.after_of_simulation (queueStep_fst pf) p inputs,
    m.along_of_all ?_ p inputs, fun hkeeps => ?_⟩
  · rintro p i call env rfl
    obtain ⟨hpending, hanswer⟩ := perform_serve pf env p.1 call p.2
    refine ⟨hpending, hanswer, ?_, fun h => ?_⟩
    · cases call <;> simp [SerialCall.reach]
      rename_i txOnly
      cases txOnly <;> simp
    · exact Fifo.serve_of_suffices (suffices_of_succeeds pf env p.1 call p.2 h)
  · have hclear : ∀ step ∈ m.collect (fun p i _ => some (queueStep pf p i)) p inputs,
        step.request ≠ .clear := by
      refine OutputMachine.forall_mem_collect (OutputMachine.Along.mono ?_
        (m.along_of_forall hkeeps p))
      rintro p i hi step hstep
      obtain rfl : queueStep pf p i = step := by simpa using hstep
      exact queueStep_request_ne_clear pf p hi
    have hconserved := Fifo.conserved (p.1.pending p.2) _ hclear
    rw [arrived_eq_received, Fifo.takenAlong, OutputMachine.collect_of_simulation
      (queueStep_fst pf), OutputMachine.after_of_simulation (queueStep_fst pf)] at hconserved
    rw [hconserved]
    refine congrArg (fun l => List.flatten l ++ _) (OutputMachine.collect_congr ?_)
    refine OutputMachine.Along.mono (fun p i hi => ?_) (m.along_of_forall hkeeps p)
    exact congrArg some (taken_eq_returned pf p hi)

/-- If `uart_flush_input` fails, `flush(false)` drops the byte held back and keeps the ring. -/
theorem flush_without_driver :
    let s : IDFSerial := { port := 1, peeked := some 1 }
    let uart : UartPort := ⟨true, 115200, [2], [], 0, 0, 1000⟩
    let p := ((machine .esp32).step (s, uart)
      (.call (.flushTx false) { Env.calm with flushInput := false })).1
    s.pending uart = [1, 2] ∧ p.1.pending p.2 = [2] ∧
      ((machine .esp32).step p (.call .available .calm)).2.1 = .int 1 ∧
      ((machine .esp32).step p (.call .read .calm)).2.1 = .int 2 :=
  ⟨rfl, rfl, rfl, rfl⟩

end IDFSerial

end RS485
