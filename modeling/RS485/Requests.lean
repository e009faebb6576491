import RS485.Node
import RS485.WaitingWrites

/-!
# What a request does

A program on a node talks to its unit by requests, whose answers the driver chooses.  The two
streams of the node go on meanwhile: the driver accepts bytes, and the program is handed bytes
from the front of the input (`Node.Passes`).  A request that does not read also has a bound on
the time it takes (`Node.Goes`).

What a program may count on are its `Terms`.  It may be more or less: that requests are short, and
also that the driver tells how much it has and delivers it, or that it takes what it is given.

There is one rule for each request, `wp_write` and so on, that says what holds whatever the
driver chooses, and what if it does better.  What a program of requests does is found with these
rules alone.
-/

namespace RS485

open Client

/-! ## The requests -/

namespace Ask

/-- `m5::utility::millis()` -/
def now : Client Ask Answer (BitVec 32) :=
  .ask .millis fun
    | .millis t => .done t
    | _ => .done 0

/-- `m5::utility::hasElapsed(start, interval)`, which is not part of the library either: has the
clock gone on by `interval` since `start`?  It is the difference of two 32-bit readings. -/
def hasElapsed (start interval : BitVec 32) : Client Ask Answer Bool :=
  now.bind fun t => .done (decide (interval ≤ t - start))

/-- `m5::utility::delay(ms)` -/
def wait (ms : ℕ) : Client Ask Answer Unit :=
  .ask (.delay ms) fun _ => .done ()

/-- `M5.BtnA.wasClicked()` -/
def clicked : Client Ask Answer Bool :=
  .ask .wasClicked fun
    | .clicked b => .done b
    | _ => .done false

/-- `rs485.available()` -/
def available : Client Ask Answer ℤ :=
  .ask (.serial .available) fun
    | .serial (.int i) => .done i
    | _ => .done 0

/-- `rs485.availableForWrite()` -/
def availableForWrite : Client Ask Answer ℤ :=
  .ask (.serial .availableForWrite) fun
    | .serial (.int i) => .done i
    | _ => .done 0

/-- `rs485.write(buffer, size)` -/
def write (bytes : List Byte) : Client Ask Answer ℕ :=
  .ask (.serial (.writeBuf (.mem bytes))) fun
    | .serial (.count n) => .done n
    | _ => .done 0

/-- `rs485.writeValue<T, LittleEndian>(value)` -/
def writeValue (littleEndian : Bool) (value : TypedValue) : Client Ask Answer Bool :=
  .ask (.serial (.writeValue littleEndian value)) fun
    | .serial (.flag b) => .done b
    | _ => .done false

/-- `rs485.flush(true)` -/
def flushTx : Client Ask Answer Unit :=
  .ask (.serial (.flushTx true)) fun _ => .done ()

/-- `rs485.readBytes(buffer, size, timeout_ms)` -/
def readBytes (size : ℕ) (timeoutMs : BitVec 32) : Client Ask Answer (List Byte) :=
  .ask (.serial (.readBytesTimeout ⟨false, size⟩ timeoutMs)) fun
    | .serial (.bytes bs) => .done bs
    | _ => .done []

end Ask

/-! ## The clock -/

/-- The time between two readings of the clock, if it is short of a full turn. -/
theorem elapsed_toNat {start now : ℕ} (hle : start ≤ now) (hturn : now - start < 2 ^ 32) :
    (BitVec.ofNat 32 now - BitVec.ofNat 32 start).toNat = now - start := by
  rw [BitVec.toNat_sub, BitVec.toNat_ofNat, BitVec.toNat_ofNat]
  omega

/-! ## The two streams -/

/-- The streams of the node go on: its unit stays on the port, the driver accepts `bytes`, and the
program is handed `got` from the front of the input, to which bytes may have come at the back. -/
structure Node.Streams (n : Node) (u : UnitId) (port : Port) (bytes got : List Byte)
    (n' : Node) : Prop where
  on : n'.On u port
  accepted : acceptedBytes n'.log = acceptedBytes n.log ++ bytes
  out : n'.out port = n.out port ++ bytes
  stream : ∃ arrived, receivedBytes n'.log = receivedBytes n.log ++ arrived ∧
    n.input u ++ arrived = got ++ n'.input u

/-- The node goes on, and the button is not asked. -/
structure Node.Passes (n : Node) (u : UnitId) (port : Port) (bytes got : List Byte) (n' : Node) :
    Prop extends n.Streams u port bytes got n' where
  button : n'.button = n.button

/-- The node goes on, the program is handed nothing, and no more than `time` passes. -/
structure Node.Goes (n : Node) (u : UnitId) (port : Port) (time : ℕ) (bytes : List Byte)
    (n' : Node) : Prop extends n.Passes u port bytes [] n' where
  later : n.now ≤ n'.now
  soon : n'.now ≤ n.now + time

section Streams

variable {pf : Platform} {u : UnitId} {port : Port} {n n' n'' : Node}
  {bytes bytes' got got' : List Byte} {time time' : ℕ}

theorem Node.Streams.refl (h : n.On u port) : n.Streams u port [] [] n :=
  ⟨h, by simp, by simp, [], by simp, by simp⟩

theorem Node.Streams.trans (h : n.Streams u port bytes got n')
    (h' : n'.Streams u port bytes' got' n'') :
    n.Streams u port (bytes ++ bytes') (got ++ got') n'' := by
  obtain ⟨arrived, hlog, hsplit⟩ := h.stream
  obtain ⟨arrived', hlog', hsplit'⟩ := h'.stream
  refine ⟨h'.on, ?_, ?_, arrived ++ arrived', ?_, ?_⟩
  · rw [h'.accepted, h.accepted, List.append_assoc]
  · rw [h'.out, h.out, List.append_assoc]
  · rw [hlog', hlog, List.append_assoc]
  · calc n.input u ++ (arrived ++ arrived')
        = got ++ (n'.input u ++ arrived') := by
          rw [← List.append_assoc, hsplit, List.append_assoc]
      _ = got ++ got' ++ n''.input u := by rw [hsplit', List.append_assoc]

/-- The number of bytes that were pending and have arrived is that of those handed out and
pending. -/
theorem Node.Streams.count (h : n.Streams u port bytes got n') :
    (n.input u).length + (receivedBytes n'.log).length =
      (receivedBytes n.log).length + got.length + (n'.input u).length := by
  obtain ⟨arrived, hlog, hsplit⟩ := h.stream
  have hlength := congrArg List.length hsplit
  rw [hlog, List.length_append]
  rw [List.length_append, List.length_append] at hlength
  omega

theorem Node.Streams.arrived_le (h : n.Streams u port bytes got n') :
    (receivedBytes n.log).length ≤ (receivedBytes n'.log).length := by
  obtain ⟨arrived, hlog, -⟩ := h.stream
  rw [hlog, List.length_append]
  omega

theorem Node.Passes.refl (h : n.On u port) : n.Passes u port [] [] n := ⟨.refl h, rfl⟩

theorem Node.Passes.trans (h : n.Passes u port bytes got n')
    (h' : n'.Passes u port bytes' got' n'') :
    n.Passes u port (bytes ++ bytes') (got ++ got') n'' :=
  ⟨h.toStreams.trans h'.toStreams, h'.button.trans h.button⟩

theorem Node.Goes.trans (h : n.Goes u port time bytes n') (h' : n'.Goes u port time' bytes' n'') :
    n.Goes u port (time + time') (bytes ++ bytes') n'' where
  toPasses := h.toPasses.trans h'.toPasses
  later := le_trans h.later h'.later
  soon := by
    have hfirst := h.soon
    have hsecond := h'.soon
    omega

/-- What happens before a request. -/
theorem Node.On.passes_elapse (pf : Platform) (h : n.On u port) (x : Moment) :
    n.Passes u port [] [] (n.elapse pf port x) := by
  obtain ⟨hon, hinput, hout, -, haccepted, -⟩ := h.elapse pf x
  obtain ⟨events, hlog, -, -, hreceived⟩ := n.elapse_log pf port x
  refine ⟨⟨hon, by simp [haccepted], by simp [hout], x.arrived, ?_, ?_⟩, rfl⟩
  · rw [hlog, receivedBytes_append, hreceived]
  · rw [hinput, List.nil_append]

/-- **A call** hands over what its log says, and hands out what it returns. -/
theorem Node.On.passes_call (pf : Platform) (h : n.On u port) (x : Moment) (call : SerialCall)
    (hkeeps : (Ask.serial call).keepsStream = true)
    (haccepted : acceptedBytes
      ((n.elapse pf port x).world.step pf ⟨.serial u call, x.env⟩).2.events = bytes) :
    n.Passes u port bytes
      ((Ask.serial call).returned ((nodeMachine pf u port).step n (.serial call, x)).2)
      ((nodeMachine pf u port).step n (.serial call, x)).1 := by
  let r := (nodeMachine pf u port).step n (.serial call, x)
  have helapse : n.Passes u port [] [] (n.elapse pf port x) := h.passes_elapse pf x
  obtain ⟨hon, -, -, hlog, hout⟩ := Node.On.call pf helapse.on x call
  rw [haccepted] at hout
  obtain ⟨events, hlog', hstream⟩ := h.step_input hkeeps x
  refine ⟨⟨hon, ?_, ?_, receivedBytes events, ?_, hstream⟩, rfl⟩
  · have hcall : r.1.log = (n.elapse pf port x).log ++
        ((n.elapse pf port x).world.step pf ⟨.serial u call, x.env⟩).2.events := hlog
    rw [hcall, acceptedBytes_append, haccepted, helapse.accepted, List.append_nil]
  · exact hout.trans (by rw [helapse.out, List.append_nil])
  · rw [← receivedBytes_append, ← hlog']

end Streams

/-! ## The calls of a unit -/

section Calls

variable {pf : Platform} {w : World} {u : UnitId} {port : Port}

theorem World.OnPort.accepted_quiet (pf : Platform) (h : w.OnPort u port) (call : SerialCall)
    (hpayload : call.payload pf = none) (env : Env) :
    acceptedBytes (w.step pf ⟨.serial u call, env⟩).2.events = [] := by
  obtain ⟨α, held, serial, s, huart, -, -, hcalls⟩ := h.call pf env
  obtain ⟨-, -, hout⟩ := hcalls call
  have hquiet : Io.Extends Event.Quiet ⟨w.ports port, []⟩
      (call.perform pf serial (s, ⟨w.ports port, []⟩)).1.2 :=
    SerialCall.perform_quiet huart.quiet hpayload (s, ⟨w.ports port, []⟩)
  obtain ⟨events, hlog, hevents, -⟩ := hquiet
  have hlog' : (w.step pf ⟨.serial u call, env⟩).2.events = events := by
    rw [hout]
    simpa using hlog
  rw [hlog']
  exact acceptedBytes_of_quiet hevents

/-- A write returns what it makes of the number of bytes the driver accepts, which are a prefix
of its buffer. -/
theorem World.OnPort.accepted_write (h : w.OnPort u port) (call : SerialCall) {b : Buffer}
    {wait : Bool} (hpayload : call.payload pf = some (b, wait)) (env : Env) :
    let o := (w.step pf ⟨.serial u call, env⟩).2
    o.result = call.writeResult (env.takes b.bytes).length ∧
      acceptedBytes o.events = env.takes b.bytes := by
  obtain ⟨α, held, serial, s, huart, -, -, hcalls⟩ := h.call pf env
  obtain ⟨-, -, hout⟩ := hcalls call
  obtain ⟨hresult, haccepted⟩ := huart.result_of_payload hpayload (s, ⟨w.ports port, []⟩)
  intro o
  constructor
  · have ho : o.result = (call.perform pf serial (s, ⟨w.ports port, []⟩)).2 :=
      congrArg Outcome.result hout
    rw [ho, hresult]
  · have ho : o.events = (call.perform pf serial (s, ⟨w.ports port, []⟩)).1.2.log :=
      congrArg Outcome.events hout
    rw [ho, huart.accepted hpayload, haccepted]
    rfl

/-- If the driver tells, the number of bytes that are pending. -/
theorem World.OnPort.available (h : w.OnPort u port) {env : Env}
    (htells : env.bufferedDataLen = true) :
    let r := w.step pf ⟨.serial u .available, env⟩
    r.2.result = .int (w.input u).length ∧ r.1.input u = w.input u := by
  intro r
  obtain ⟨α, held, serial, s, -, hreads, hinput, hcalls⟩ := h.call pf env
  obtain ⟨hinput', -, hout⟩ := hcalls .available
  obtain ⟨⟨hsame, -⟩, hexact⟩ := hreads.available (s, ⟨w.ports port, []⟩)
  constructor
  · rw [hinput, ← hexact htells]
    exact congrArg Outcome.result hout
  · rw [hinput, hinput']
    exact hsame

/-- `flush(true)` leaves nothing pending in the transmitter. -/
theorem World.OnPort.flushTx_idle (h : w.OnPort u port) {env : Env}
    (hwaits : env.waitTxDone = true) :
    ((w.step pf ⟨.serial u (.flushTx true), env⟩).1.ports port).tx = [] := by
  obtain ⟨α, held, serial, s, huart, -, -, hcalls⟩ := h.call pf env
  obtain ⟨-, hports, -⟩ := hcalls (.flushTx true)
  rw [hports]
  exact huart.flushTx_idle hwaits _

/-- A read that waits returns bytes from the front of the input, and all of it that fits if the
driver delivers. -/
theorem World.OnPort.readBytes (h : w.OnPort u port) (size : ℕ) (timeoutMs : BitVec 32)
    (env : Env) :
    let r := w.step pf ⟨.serial u (.readBytesTimeout ⟨false, size⟩ timeoutMs), env⟩
    ∃ got, r.2.result = .bytes got ∧ got.length ≤ size ∧
      w.input u ++ receivedBytes r.2.events = got ++ r.1.input u ∧
      (env.Delivers size → got = (w.input u ++ receivedBytes r.2.events).take size) := by
  intro r
  obtain ⟨α, held, serial, s, -, hreads, hinput, hcalls⟩ := h.call pf env
  obtain ⟨hinput', -, hout⟩ := hcalls (.readBytesTimeout ⟨false, size⟩ timeoutMs)
  obtain ⟨arrived, -, hlog, hsplit, hlength, hexact⟩ :=
    hreads.readBytesTimeout ⟨false, size⟩ timeoutMs (s, ⟨w.ports port, []⟩)
  have hreceived : receivedBytes r.2.events = arrived := by
    rw [hout]
    exact hlog
  refine ⟨_, by rw [hout]; rfl, hlength, ?_, fun hdelivers => ?_⟩
  · rw [hinput, hreceived, hinput']
    exact hsplit
  · rw [hinput, hreceived]
    exact (hexact rfl hdelivers).2

end Calls

/-! ## What a program may count on -/

/-- The moment is short, and waiting for the transmitter ends with the transmitter idle. -/
structure Moment.Fair (maxLag : ℕ) (x : Moment) : Prop where
  lag : x.lag ≤ maxLag
  waits : x.env.waitTxDone = true

/-- The driver tells how many bytes it has, and delivers as many as it is asked for. -/
structure Moment.Tells (x : Moment) : Prop where
  told : x.env.bufferedDataLen = true
  delivers : x.env.Delivers (2 ^ 31)

/-- The number a call returns. -/
def Result.int? : Result → Option ℤ
  | .int i => some i
  | _ => none

theorem Result.eq_int_of_mem {r : Result} {i : ℤ} (h : i ∈ r.int?) : r = .int i := by
  cases r with
  | int j => rw [Option.some.inj h]
  | _ => cases h

/-- In this moment `availableForWrite()` would tell of room for `room` bytes, and the driver
accepts as many. -/
def Node.HasRoom (pf : Platform) (u : UnitId) (port : Port) (room : ℕ) (n : Node) (x : Moment) :
    Prop :=
  (∃ limit ∈ x.env.accepted, room ≤ limit) ∧
    ∃ i ∈ ((n.elapse pf port x).world.step pf
      ⟨.serial u .availableForWrite, x.env⟩).2.result.int?, (room : ℤ) ≤ i

instance (pf : Platform) (u : UnitId) (port : Port) (room : ℕ) (n : Node) (x : Moment) :
    Decidable (n.HasRoom pf u port room x) :=
  inferInstanceAs (Decidable (_ ∧ _))

/-- What a program may count on: no request lets it wait longer than `maxLag` milliseconds; if
`heard`, the driver tells and delivers what it has; and if `taken`, it has room for `room` bytes
whenever it is asked, and accepts them. -/
structure Terms where
  maxLag : ℕ
  heard : Prop
  taken : Prop
  room : ℕ

/-- A request is served on these terms. -/
structure Terms.Met (T : Terms) (pf : Platform) (u : UnitId) (port : Port) (n : Node) (_ : Ask)
    (x : Moment) : Prop where
  fair : x.Fair T.maxLag
  tells : T.heard → x.Tells
  hasRoom : T.taken → n.HasRoom pf u port T.room x

/-- A run is on these terms if its moments are fair and the driver does what it may be counted
on for. -/
theorem Terms.along {T : Terms} {pf : Platform} {u : UnitId} {port : Port} {ρ : Type*}
    {c : Client Ask Answer ρ} {e : ℕ → Moment} {n : Node} (hfair : ∀ k, (e k).Fair T.maxLag)
    (htells : T.heard → ∀ k, (e k).Tells)
    (hroom : T.taken → c.AlongRun (nodeMachine pf u port)
      (fun n _ x => n.HasRoom pf u port T.room x) e n) :
    c.AlongRun (nodeMachine pf u port) (T.Met pf u port) e n := by
  have hmoments : c.AlongRun (nodeMachine pf u port)
      (fun _ _ x => x.Fair T.maxLag ∧ (T.heard → x.Tells)) e n :=
    alongRun_of_forall _ (fun _ _ k => ⟨hfair k, fun hheard => htells hheard k⟩) c n
  exact (OutputMachine.Along.and hmoments (OutputMachine.Along.all hroom)).mono
    fun _ _ h => ⟨h.1.1, h.1.2, h.2⟩

/-- If `reliable`, the driver delivers `len` bytes when it has them. -/
def DeliveringMoments (reliable : Prop) (len : ℕ) : Node → Ask → Moment → Prop :=
  fun _ _ x => reliable → x.env.Delivers len

/-! ## The rules -/

section Rules

variable {pf : Platform} {u : UnitId} {port : Port} {T : Terms} {n : Node}

/-- A request that is no call does what happens before it. -/
theorem Node.On.goes_elapse (pf : Platform) (h : n.On u port) {maxLag : ℕ} {x : Moment}
    (hx : x.Fair maxLag) : n.Goes u port maxLag [] (n.elapse pf port x) := by
  have hnow : (n.elapse pf port x).now = n.now + x.lag := rfl
  have hlag := hx.lag
  exact ⟨h.passes_elapse pf x, by omega, by omega⟩

/-- A call takes no time of its own. -/
theorem Node.On.goes_call (pf : Platform) (h : n.On u port) {maxLag : ℕ} {x : Moment}
    (hx : x.Fair maxLag) (call : SerialCall) {bytes : List Byte}
    (hkeeps : (Ask.serial call).keepsStream = true)
    (hreturned : ∀ result, (Ask.serial call).returned (.serial result) = [])
    (haccepted : acceptedBytes
      ((n.elapse pf port x).world.step pf ⟨.serial u call, x.env⟩).2.events = bytes) :
    n.Goes u port maxLag bytes ((nodeMachine pf u port).step n (.serial call, x)).1 := by
  have hnow : ((nodeMachine pf u port).step n (.serial call, x)).1.now = n.now + x.lag := rfl
  have hlag := hx.lag
  have hpasses := h.passes_call pf x call hkeeps haccepted
  have hnone : (Ask.serial call).returned
      ((nodeMachine pf u port).step n (.serial call, x)).2 = [] := hreturned _
  rw [hnone] at hpasses
  exact ⟨hpasses, by omega, by omega⟩

theorem wp_now (h : n.On u port) {Q : BitVec 32 → Node → Prop}
    (hQ : ∀ n', n.Goes u port T.maxLag [] n' → Q (BitVec.ofNat 32 n'.now) n') :
    wp (nodeMachine pf u port) (T.Met pf u port) Ask.now Q n :=
  fun _ hx => hQ _ (h.goes_elapse pf hx.fair)

/-- `hasElapsed` compares the time since `start`, if that is short of a turn of the clock. -/
theorem wp_hasElapsed (h : n.On u port) {start : ℕ} {interval : BitVec 32}
    (hstart : start ≤ n.now) (hturn : n.now + T.maxLag - start < 2 ^ 32)
    {Q : Bool → Node → Prop}
    (hQ : ∀ n' elapsed, n.Goes u port T.maxLag [] n' →
      (elapsed = true ↔ interval.toNat ≤ n'.now - start) → Q elapsed n') :
    wp (nodeMachine pf u port) (T.Met pf u port)
      (Ask.hasElapsed (BitVec.ofNat 32 start) interval) Q n := by
  refine wp_bind.mpr (wp_now h fun n' hgoes => hQ n' _ hgoes ?_)
  have hlater := hgoes.later
  have hsoon := hgoes.soon
  rw [decide_eq_true_iff, BitVec.le_def, elapsed_toNat (by omega) (by omega)]

theorem wp_wait (h : n.On u port) (ms : ℕ) {Q : Unit → Node → Prop}
    (hQ : ∀ n', n.Goes u port (T.maxLag + ms) [] n' → n.now + ms ≤ n'.now → Q () n') :
    wp (nodeMachine pf u port) (T.Met pf u port) (Ask.wait ms) Q n := by
  intro x hx
  have hgoes : n.Goes u port T.maxLag [] (n.elapse pf port x) := h.goes_elapse pf hx.fair
  have hlater := hgoes.later
  have hsoon := hgoes.soon
  have hpasses : n.Passes u port [] []
      ((nodeMachine pf u port).step n (.delay ms, x)).1 :=
    ⟨⟨hgoes.on, hgoes.accepted, hgoes.out, hgoes.stream⟩, rfl⟩
  refine hQ _ ⟨hpasses, ?_, ?_⟩ ?_
  · exact le_trans hlater (Nat.le_add_right ..)
  · change (n.elapse pf port x).now + ms ≤ n.now + (T.maxLag + ms)
    omega
  · exact Nat.add_le_add_right hlater ms

/-- The button answers, and that is all that happens. -/
theorem wp_clicked (h : n.On u port) {Q : Bool → Node → Prop}
    (hQ : ∀ n' clicked, n.Streams u port [] [] n' →
      n'.button = n.button ++ [⟨clicked, (receivedBytes n'.log).length⟩] → Q clicked n') :
    wp (nodeMachine pf u port) (T.Met pf u port) Ask.clicked Q n := by
  intro x hx
  have hpasses : n.Passes u port [] [] (n.elapse pf port x) := h.passes_elapse pf x
  exact hQ _ x.clicked ⟨hpasses.on, hpasses.accepted, hpasses.out, hpasses.stream⟩ rfl

theorem wp_available (h : n.On u port) {Q : ℤ → Node → Prop}
    (hQ : ∀ n' (i : ℤ), n.Goes u port T.maxLag [] n' →
      (T.heard → i = (n'.input u).length) → Q i n') :
    wp (nodeMachine pf u port) (T.Met pf u port) Ask.available Q n := by
  intro x hx
  have hon : (n.elapse pf port x).On u port := (h.passes_elapse pf x).on
  have hgoes := h.goes_call pf hx.fair .available rfl (fun _ => rfl)
    (World.OnPort.accepted_quiet pf hon .available rfl x.env)
  let r := (n.elapse pf port x).world.step pf ⟨.serial u .available, x.env⟩
  have hexact : T.heard → r.2.result = .int (r.1.input u).length := by
    intro hheard
    obtain ⟨hresult, hinput⟩ : r.2.result = .int ((n.elapse pf port x).world.input u).length ∧
        r.1.input u = (n.elapse pf port x).world.input u :=
      World.OnPort.available hon (hx.tells hheard).told
    rw [hresult, hinput]
  dsimp only
  split
  · next i hanswer =>
    refine hQ _ i hgoes fun hheard => ?_
    have hi : r.2.result = .int i := Answer.serial.inj hanswer
    exact Result.int.inj (hi.symm.trans (hexact hheard))
  · next hanswer =>
    refine hQ _ 0 hgoes fun hheard => ?_
    exact absurd (congrArg Answer.serial (hexact hheard)) (hanswer _)

theorem wp_availableForWrite (h : n.On u port) {Q : ℤ → Node → Prop}
    (hQ : ∀ n' i, n.Goes u port T.maxLag [] n' → (T.taken → (T.room : ℤ) ≤ i) → Q i n') :
    wp (nodeMachine pf u port) (T.Met pf u port) Ask.availableForWrite Q n := by
  intro x hx
  have hgoes := h.goes_call pf hx.fair .availableForWrite rfl (fun _ => rfl)
    (World.OnPort.accepted_quiet pf (h.passes_elapse pf x).on .availableForWrite rfl x.env)
  let r := (n.elapse pf port x).world.step pf ⟨.serial u .availableForWrite, x.env⟩
  have hroom : T.taken → ∃ i, r.2.result = .int i ∧ (T.room : ℤ) ≤ i := by
    intro htaken
    obtain ⟨-, i, hi, hle⟩ := hx.hasRoom htaken
    exact ⟨i, Result.eq_int_of_mem hi, hle⟩
  dsimp only
  split
  · next i hanswer =>
    refine hQ _ i hgoes fun htaken => ?_
    obtain ⟨j, hj, hle⟩ := hroom htaken
    have hi : r.2.result = .int i := Answer.serial.inj hanswer
    rwa [Result.int.inj (hi.symm.trans hj)]
  · next hanswer =>
    refine hQ _ 0 hgoes fun htaken => ?_
    obtain ⟨j, hj, -⟩ := hroom htaken
    exact absurd (congrArg Answer.serial hj) (hanswer j)

/-- A driver that has room accepts as much as it has room for. -/
theorem Node.HasRoom.takes {room : ℕ} {x : Moment} (h : n.HasRoom pf u port room x)
    (bytes : List Byte) : min room bytes.length ≤ (x.env.takes bytes).length := by
  obtain ⟨⟨limit, hlimit, hle⟩, -⟩ := h
  have htakes : x.env.takes bytes = bytes.take limit := by
    rw [Env.takes, Option.mem_def.mp hlimit]
  rw [htakes, List.length_take]
  omega

theorem Env.takes_prefix (env : Env) (bytes : List Byte) : env.takes bytes <+: bytes := by
  rw [← env.take_length_takes]
  exact List.take_prefix ..

theorem wp_write (h : n.On u port) (bytes : List Byte) {Q : ℕ → Node → Prop}
    (hQ : ∀ n' k, k ≤ bytes.length → (T.taken → min T.room bytes.length ≤ k) →
      n.Goes u port T.maxLag (bytes.take k) n' → Q k n') :
    wp (nodeMachine pf u port) (T.Met pf u port) (Ask.write bytes) Q n := by
  intro x hx
  have hpayload : (SerialCall.writeBuf (.mem bytes)).payload pf = some (.mem bytes, false) := rfl
  obtain ⟨hresult, haccepted⟩ := World.OnPort.accepted_write (h.passes_elapse pf x).on _ hpayload
    x.env
  have hgoes := h.goes_call pf hx.fair _ rfl (fun _ => rfl) haccepted
  have hanswer : ((nodeMachine pf u port).step n (.serial (.writeBuf (.mem bytes)), x)).2 =
      .serial (.count (x.env.takes bytes).length) := congrArg Answer.serial hresult
  have hbytes : (Buffer.mem bytes).bytes = bytes := rfl
  rw [hanswer]
  rw [hbytes, ← x.env.take_length_takes] at hgoes
  exact hQ _ _ (x.env.takes_prefix bytes).length_le
    (fun htaken => (hx.hasRoom htaken).takes bytes) hgoes

/-- `writeValue` hands over a prefix of the wire image, and reports whether that is all of it. -/
theorem wp_writeValue (h : n.On u port) (hswap : pf.SwapsBytes) (littleEndian : Bool)
    (value : TypedValue) {Q : Bool → Node → Prop}
    (hQ : ∀ n' bytes ok, bytes <+: wireImage littleEndian value.type value.val →
      (ok = true ↔ bytes = wireImage littleEndian value.type value.val) →
      (T.taken → value.type.size ≤ T.room → ok = true) →
      n.Goes u port T.maxLag bytes n' → Q ok n') :
    wp (nodeMachine pf u port) (T.Met pf u port) (Ask.writeValue littleEndian value) Q n := by
  intro x hx
  let image := wireImage littleEndian value.type value.val
  have hpayload : (SerialCall.writeValue littleEndian value).payload pf =
      some (.mem image, true) := by
    simp only [SerialCall.payload, objectBytes_swap pf hswap]
    rfl
  obtain ⟨hresult, haccepted⟩ := World.OnPort.accepted_write
    (h.passes_elapse pf x).on (.writeValue littleEndian value) hpayload x.env
  have hgoes := h.goes_call pf hx.fair _ rfl (fun _ => rfl) haccepted
  let k := (x.env.takes image).length
  have hanswer : ((nodeMachine pf u port).step n
      (.serial (.writeValue littleEndian value), x)).2 = .serial (.flag (k == value.type.size)) :=
    congrArg Answer.serial hresult
  have hlength : image.length = value.type.size := length_wireImage _ _ _
  have hfront : x.env.takes image <+: image := x.env.takes_prefix image
  have hle : k ≤ image.length := hfront.length_le
  rw [hanswer]
  refine hQ _ (x.env.takes image) _ hfront ?_ ?_ hgoes
  · rw [beq_iff_eq, ← hlength]
    exact ⟨hfront.eq_of_length, congrArg List.length⟩
  · intro htaken hroom
    have htakes : min T.room image.length ≤ k := (hx.hasRoom htaken).takes image
    rw [beq_iff_eq]
    omega

theorem wp_flushTx (h : n.On u port) {Q : Unit → Node → Prop}
    (hQ : ∀ n', n.Goes u port T.maxLag [] n' → (n'.world.ports port).tx = [] → Q () n') :
    wp (nodeMachine pf u port) (T.Met pf u port) Ask.flushTx Q n := by
  intro x hx
  have hon : (n.elapse pf port x).On u port := (h.passes_elapse pf x).on
  have hgoes := h.goes_call pf hx.fair (.flushTx true) rfl (fun _ => rfl)
    (World.OnPort.accepted_quiet pf hon (.flushTx true) rfl x.env)
  exact hQ _ hgoes (World.OnPort.flushTx_idle hon hx.fair.waits)

/-- A read of a chunk hands out what it returns.  If the driver delivers, it leaves something
behind only when the buffer is full. -/
theorem wp_readBytes {reliable : Prop} {len size : ℕ} {timeoutMs : BitVec 32} (h : n.On u port)
    (hsize : size ≤ len) {Q : List Byte → Node → Prop}
    (hQ : ∀ n' more, n.Passes u port [] more n' → more.length ≤ size →
      (reliable → more.length < size → n'.input u = []) → Q more n') :
    wp (nodeMachine pf u port) (DeliveringMoments reliable len) (Ask.readBytes size timeoutMs) Q
      n := by
  intro x hx
  let n₁ := n.elapse pf port x
  have hon : n₁.On u port := (h.passes_elapse pf x).on
  let r := n₁.world.step pf ⟨.serial u (.readBytesTimeout ⟨false, size⟩ timeoutMs), x.env⟩
  obtain ⟨more, hresult, hlength, hsplit, hexact⟩ : ∃ got, r.2.result = .bytes got ∧
      got.length ≤ size ∧ n₁.world.input u ++ receivedBytes r.2.events = got ++ r.1.input u ∧
      (x.env.Delivers size → got = (n₁.world.input u ++ receivedBytes r.2.events).take size) :=
    World.OnPort.readBytes hon size timeoutMs x.env
  have hanswer : ((nodeMachine pf u port).step n
      (.serial (.readBytesTimeout ⟨false, size⟩ timeoutMs), x)).2 = .serial (.bytes more) :=
    congrArg Answer.serial hresult
  have hpasses := h.passes_call pf x (.readBytesTimeout ⟨false, size⟩ timeoutMs) rfl
    (World.OnPort.accepted_quiet pf hon (.readBytesTimeout ⟨false, size⟩ timeoutMs) rfl x.env)
  rw [hanswer] at hpasses ⊢
  refine hQ _ more hpasses hlength fun hreliable hless => ?_
  obtain ⟨limit, hdelivered, hlimit⟩ := hx hreliable
  have htake := hexact ⟨limit, hdelivered, le_trans hsize hlimit⟩
  -- less than the size is all there is
  have hall : more = n₁.world.input u ++ receivedBytes r.2.events := by
    rw [htake, List.take_eq_self_iff]
    rw [htake, List.length_take] at hless
    omega
  have hrest : more ++ r.1.input u = more := by rw [← hsplit, ← hall]
  exact List.self_eq_append_right.mp hrest.symm

end Rules

end RS485
