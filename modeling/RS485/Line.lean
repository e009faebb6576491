import RS485.Node
import RS485.WaitingWrites

/-!
# The ideal serial line

What a unit is for: a line with an inbox that is read in the order in which it fills, and an
outbox that grows by what is written.  `Line` is just that, without ports, rings, held-back
bytes, DIR pins and timeouts, and `Line.iserial` is a backend on it.

A unit is as good as this line as long as the driver does what it is asked
(`SerialCall.Ideal`): the calls it makes succeed, and bytes arrive during a call only if it
waits for them.  Then every request is answered as the line answers it (`Node.Represents.step`)
and so no program can tell the two apart (`units_are_lines`), nor two units from each other,
whatever their class, their backend and their framework.  One request is left out:
`availableForWrite()` tells how the bytes are buffered, which a line does not do.
-/

namespace RS485

/-! ## The line -/

/-- What has arrived and was not read, what was accepted so far, and the clock. -/
structure Line where
  rx : List Byte
  out : List Byte
  baud : ℕ
  now : ℕ
  deriving DecidableEq, Repr

namespace Line

/-- Take `n` bytes.  If there are fewer, wait for what arrives. -/
def fetch (env : Env) (n : ℕ) (l : Line) : Line × List Byte :=
  let inbox := if n ≤ l.rx.length then l.rx else l.rx ++ env.arrivals
  ({ l with rx := inbox.drop n }, inbox.take n)

/-- Accept bytes. -/
def send (env : Env) (bytes : List Byte) (l : Line) : Line × ℕ :=
  ({ l with out := l.out ++ env.takes bytes }, (env.takes bytes).length)

/-- The line as a backend. -/
def iserial (env : Env) : ISerial Line where
  available l := (l, l.rx.length)
  availableForWrite l := (l, 0)
  peek l := (l, front l.rx)
  read l := ({ l with rx := l.rx.tail }, front l.rx)
  readBuf d l := ({ l with rx := l.rx.drop d.size }, l.rx.take d.size)
  readBytes d := fetch env d.size
  readBytesTimeout d _ := fetch env d.size
  flush l := l
  flushTx txOnly l := if txOnly then l else { l with rx := [] }
  writeBuf b := send env b.bytes
  write b := send env [b]
  baudRate l := (l, l.baud)

/-- What happens before a request. -/
def elapse (l : Line) (x : Moment) : Line :=
  { l with rx := l.rx ++ x.arrived, now := l.now + x.lag }

/-- Answer a request. -/
def answer (pf : Platform) (l : Line) (x : Moment) : Ask → Line × Answer
  | .serial call =>
      let r := call.perform pf (iserial x.env) l
      (r.1, .serial r.2)
  | .millis => (l, .millis (BitVec.ofNat 32 l.now))
  | .delay ms => ({ l with now := l.now + ms }, .done)
  | .wasClicked => (l, .clicked x.clicked)

end Line

/-- The line as a machine that clients run on. -/
def lineMachine (pf : Platform) : OutputMachine Line (Ask × Moment) Answer where
  step l i := (l.elapse i.2).answer pf i.2 i.1

/-! ## When a unit is as good as the line -/

/-- The driver does what the call asks of it.  A call that reads has a buffer to fill, and bytes
arrive during it only if it waits for them. -/
def SerialCall.Ideal (env : Env) (l : Line) : SerialCall → Prop
  | .availableForWrite => False
  | .available => env.bufferedDataLen = true
  | .baudRate => env.baudrate = true
  | .peek | .read => env.Delivers 1 ∧ env.arrivals = []
  | .readBuf d => d.isNull = false ∧ env.Delivers d.size ∧ env.arrivals = []
  | .readBytes d | .readBytesTimeout d _ =>
      d.isNull = false ∧ env.Delivers d.size ∧ (d.size ≤ l.rx.length → env.arrivals = [])
  | .readValue _ T => env.Delivers T.size ∧ (T.size ≤ l.rx.length → env.arrivals = [])
  | .flushTx false => env.flushInput = true
  | _ => True

/-- The request is one that a line can answer, in a moment in which the driver does what it is
asked. -/
def Ask.Ideal (l : Line) (ask : Ask) (x : Moment) : Prop :=
  match ask with
  | .serial call => call.Ideal x.env (l.elapse x)
  | _ => True

/-! ## One call -/

section Call

variable {α : Type} {env : Env} {held : α → List Byte} {serial : ISerial (α × Io)}

/-- A read that waits is a `fetch`. -/
theorem Fetches.eq_fetch {d : Destination} {s t : α × Io} {got : List Byte} {l : Line}
    (h : Fetches env held d s t got) (hinput : inputOf held s = l.rx) (hnull : d.isNull = false)
    (hdelivers : env.Delivers d.size) (hwaits : d.size ≤ l.rx.length → env.arrivals = []) :
    got = (l.fetch env d.size).2 ∧ inputOf held t = (l.fetch env d.size).1.rx := by
  obtain ⟨arrived, harrivals, -, hsplit, -, hexact⟩ := h
  obtain ⟨harrived, hgot⟩ := hexact hnull hdelivers
  rw [hinput] at hsplit harrived hgot
  -- if there is enough, nothing arrives, and otherwise the call has waited
  have hinbox : l.rx ++ arrived =
      if d.size ≤ l.rx.length then l.rx else l.rx ++ env.arrivals := by
    by_cases henough : d.size ≤ l.rx.length
    · have hnone : arrived = [] := harrivals.elim (fun h => h.trans (hwaits henough)) id
      rw [if_pos henough, hnone, List.append_nil]
    · rw [if_neg henough]
      rcases harrived with harrived | harrived
      · rw [harrived]
      · exact absurd harrived henough
  have hrest : inputOf held t = (l.rx ++ arrived).drop d.size := by
    rw [hgot] at hsplit
    have hcut := List.take_append_drop d.size (l.rx ++ arrived)
    exact (List.append_cancel_left (hcut.trans hsplit)).symm
  unfold Line.fetch
  rw [← hinbox]
  exact ⟨hgot, hrest⟩

/-- A read that does not wait, in a moment in which nothing arrives. -/
theorem Fetches.eq_take {d : Destination} {s t : α × Io} {got : List Byte} {l : Line}
    (h : Fetches env held d s t got) (hinput : inputOf held s = l.rx) (hnull : d.isNull = false)
    (hdelivers : env.Delivers d.size) (hnone : env.arrivals = []) :
    got = l.rx.take d.size ∧ inputOf held t = l.rx.drop d.size := by
  have hfetch := h.eq_fetch hinput hnull hdelivers fun _ => hnone
  simpa [Line.fetch, hnone] using hfetch

/-- A line accepts what the driver accepts, and nothing else of it changes. -/
theorem Line.perform_of_payload {pf : Platform} {call : SerialCall} {b : Buffer} {wait : Bool}
    (hpayload : call.payload pf = some (b, wait)) (l : Line) :
    call.perform pf (Line.iserial env) l =
      ({ l with out := l.out ++ env.takes b.bytes },
        call.writeResult (env.takes b.bytes).length) := by
  have hwritten : call.written pf (Line.iserial env) l = l.send env b.bytes := by
    rw [SerialCall.written_eq_writeBuf (fun _ _ => rfl) hpayload]
    unfold RS485Component.writeBuf
    split
    · next hempty => simp [Line.send, b.isEmpty_iff.mp hempty]
    · rfl
  rw [SerialCall.perform_eq_written hpayload, hwritten]
  simp [Line.iserial, Line.send]

/-- **One call.**  A UART backend answers as the line does, its input is the line's afterwards,
and the driver accepts what joins the line's outbox. -/
theorem ISerial.Reads.perform_ideal (hreads : serial.Reads env held) (huart : serial.OnUart env)
    (pf : Platform) {call : SerialCall} {s : α} {uart : UartPort} {l : Line}
    (hideal : call.Ideal env l) (hinput : inputOf held (s, ⟨uart, []⟩) = l.rx)
    (hbaud : uart.baud = l.baud) :
    let r := call.perform pf serial (s, ⟨uart, []⟩)
    let q := call.perform pf (Line.iserial env) l
    r.2 = q.2 ∧ inputOf held r.1 = q.1.rx ∧ l.out ++ acceptedBytes r.1.2.log = q.1.out ∧
      r.1.2.uart.baud = q.1.baud ∧ q.1.now = l.now := by
  intro r q
  have hsettings : r.1.2.uart.baud = l.baud := by
    have hsame : Io.SameSettings ⟨uart, []⟩ r.1.2 :=
      call.perform_steps (R := fun s t : α × Io => s.2.SameSettings t.2) (fun _ => rfl)
        (fun h h' => h.trans h') hreads.settings huart.write_byte (s, ⟨uart, []⟩)
    rw [hsame, ← hbaud]
  cases hpayload : call.payload pf with
  | some p =>
      obtain ⟨b, wait⟩ := p
      have hq : q = ({ l with out := l.out ++ env.takes b.bytes },
          call.writeResult (env.takes b.bytes).length) := Line.perform_of_payload hpayload l
      obtain ⟨hresult, haccepted⟩ := huart.result_of_payload hpayload (s, ⟨uart, []⟩)
      obtain ⟨hleaves, -⟩ : LeavesInput held (s, ⟨uart, []⟩) r.1 :=
        hreads.leavesInput huart.write_byte hpayload _
      have hlog : acceptedBytes r.1.2.log = [] ++ call.accepted pf serial (s, ⟨uart, []⟩) :=
        huart.accepted hpayload (s, ⟨uart, []⟩)
      rw [haccepted, List.nil_append] at hlog
      rw [hq]
      exact ⟨hresult, hleaves.trans hinput, by rw [hlog], hsettings, rfl⟩
  | none =>
      have hquiet : Io.Extends Event.Quiet ⟨uart, []⟩ r.1.2 :=
        SerialCall.perform_quiet huart.quiet hpayload (s, ⟨uart, []⟩)
      obtain ⟨events, hlog, hevents, -⟩ := hquiet
      have haccepted : acceptedBytes r.1.2.log = [] := by
        rw [hlog, List.nil_append]
        exact acceptedBytes_of_quiet hevents
      rw [haccepted, List.append_nil]
      -- the outbox and the clock are as they were, so it is about the result and the inbox
      have hline : q.1.out = l.out → q.1.baud = l.baud → q.1.now = l.now →
          r.2 = q.2 ∧ inputOf held r.1 = q.1.rx →
          r.2 = q.2 ∧ inputOf held r.1 = q.1.rx ∧ l.out = q.1.out ∧
            r.1.2.uart.baud = q.1.baud ∧ q.1.now = l.now := by
        rintro hout hq hnow ⟨hresult, hrx⟩
        exact ⟨hresult, hrx, hout.symm, hsettings.trans hq.symm, hnow⟩
      cases call with
      | baudRate =>
          obtain ⟨⟨hleaves, -⟩, hvalue⟩ := hreads.baudRate (s, ⟨uart, []⟩)
          refine hline rfl rfl rfl ⟨congrArg Result.count ?_, hleaves.trans hinput⟩
          exact (hvalue hideal).trans hbaud
      | available =>
          obtain ⟨⟨hleaves, -⟩, hvalue⟩ := hreads.available (s, ⟨uart, []⟩)
          refine hline rfl rfl rfl ⟨congrArg Result.int ?_, hleaves.trans hinput⟩
          rw [hinput] at hvalue
          exact hvalue hideal
      | availableForWrite => exact absurd hideal id
      | peek =>
          obtain ⟨hdelivers, hnone⟩ := hideal
          obtain ⟨arrived, harrived, -, hrx, hvalue⟩ := hreads.peek (s, ⟨uart, []⟩)
          have hempty : arrived = [] := harrived.elim (fun h => h.trans hnone) id
          rw [hempty, List.append_nil, hinput] at hrx hvalue
          exact hline rfl rfl rfl ⟨congrArg Result.int (hvalue hdelivers), hrx⟩
      | read =>
          obtain ⟨hdelivers, hnone⟩ := hideal
          obtain ⟨got, hgot, hvalue⟩ := hreads.read (s, ⟨uart, []⟩)
          obtain ⟨htake, hdrop⟩ := hgot.eq_take hinput rfl hdelivers hnone
          refine hline rfl rfl rfl ⟨congrArg Result.int ?_, ?_⟩
          · have hfront : front (l.rx.take 1) = front l.rx := by cases l.rx <;> rfl
            rw [hvalue, htake]
            exact hfront
          · exact hdrop.trans List.drop_one
      | readBuf d =>
          obtain ⟨hnull, hdelivers, hnone⟩ := hideal
          obtain ⟨htake, hdrop⟩ := (hreads.readBuf d _).eq_take hinput hnull hdelivers hnone
          exact hline rfl rfl rfl ⟨congrArg Result.bytes htake, hdrop⟩
      | readBytes d =>
          obtain ⟨hnull, hdelivers, hwaits⟩ := hideal
          obtain ⟨hgot, hrest⟩ := (hreads.readBytes d _).eq_fetch hinput hnull hdelivers hwaits
          exact hline rfl rfl rfl ⟨congrArg Result.bytes hgot, hrest⟩
      | readBytesTimeout d ms =>
          obtain ⟨hnull, hdelivers, hwaits⟩ := hideal
          obtain ⟨hgot, hrest⟩ :=
            (hreads.readBytesTimeout d ms _).eq_fetch hinput hnull hdelivers hwaits
          exact hline rfl rfl rfl ⟨congrArg Result.bytes hgot, hrest⟩
      | flush => exact hline rfl rfl rfl ⟨rfl, (hreads.flush _).1.trans hinput⟩
      | flushTx txOnly =>
          cases txOnly with
          | true => exact hline rfl rfl rfl ⟨rfl, (hreads.flushTx _).1.trans hinput⟩
          | false => exact hline rfl rfl rfl ⟨rfl, (hreads.flushInput _).2.1 hideal⟩
      | readValue le T =>
          obtain ⟨hdelivers, hwaits⟩ := hideal
          obtain ⟨hgot, hrest⟩ := (hreads.readBytes ⟨false, T.size⟩ (s, ⟨uart, []⟩)).eq_fetch
            hinput rfl hdelivers hwaits
          have hq : q = ((l.fetch env T.size).1,
              let decoded := RS485Component.decodeValue pf le T (l.fetch env T.size).2
              .value decoded.1 ⟨T, decoded.2⟩) := by
            simp only [q, SerialCall.perform, RS485Component.readValue_eq]
            rfl
          refine hline ?_ ?_ ?_ ⟨?_, ?_⟩
          · rw [hq]; rfl
          · rw [hq]; rfl
          · rw [hq]; rfl
          · rw [hq]
            simp only [r, SerialCall.perform, RS485Component.readValue_eq, hgot]
          · rw [hq]
            simp only [r, SerialCall.perform, RS485Component.readValue_eq, hrest]
      | _ => simp [SerialCall.payload] at hpayload

end Call

/-! ## Nodes as lines -/

namespace Node

/-- The line a node stands for. -/
def line (n : Node) (u : UnitId) (port : Port) : Line where
  rx := n.input u
  out := n.out port
  baud := (n.world.ports port).baud
  now := n.now

variable {pf : Platform} {n : Node} {u : UnitId} {port : Port}

theorem On.line_elapse (h : n.On u port) (x : Moment) :
    (n.elapse pf port x).line u port = (n.line u port).elapse x := by
  obtain ⟨-, hinput, hout, hnow, -, hbaud⟩ := h.elapse pf x
  simp only [line, Line.elapse, hinput, hout, hnow, hbaud]

/-- A call of the unit is a call of the line. -/
theorem On.line_call (pf : Platform) (h : n.On u port) {x : Moment} {call : SerialCall}
    (hideal : call.Ideal x.env (n.line u port)) :
    let r := n.answer pf u x (.serial call)
    let q := (n.line u port).answer pf x (.serial call)
    r.2 = q.2 ∧ r.1.line u port = q.1 := by
  intro r q
  obtain ⟨α, held, serial, s, huart, hreads, hinput, hcalls⟩ :=
    World.OnPort.call pf h x.env
  obtain ⟨hinput', hports, hout⟩ := hcalls call
  obtain ⟨hresult, hrx, haccepted, hbaud, hnow⟩ :=
    hreads.perform_ideal huart pf hideal hinput.symm rfl
  obtain ⟨-, hworld, hnow', -, hout'⟩ := On.call pf h x call
  have hrest : r.1.line u port = (call.perform pf (Line.iserial x.env) (n.line u port)).1 := by
    have hrx' : r.1.input u = (call.perform pf (Line.iserial x.env) (n.line u port)).1.rx :=
      hinput'.trans hrx
    have hbaud' : (r.1.world.ports port).baud =
        (call.perform pf (Line.iserial x.env) (n.line u port)).1.baud := by
      rw [hworld, hports]
      exact hbaud
    rw [hout] at hout'
    have hout'' : r.1.out port = (call.perform pf (Line.iserial x.env) (n.line u port)).1.out :=
      hout'.trans haccepted
    have hnow'' : r.1.now = (call.perform pf (Line.iserial x.env) (n.line u port)).1.now :=
      hnow'.trans hnow.symm
    simp only [line, hrx', hout'', hbaud', hnow'']
  refine ⟨?_, hrest⟩
  have hr : r.2 = .serial (n.world.step pf ⟨.serial u call, x.env⟩).2.result := rfl
  rw [hr, hout]
  exact congrArg Answer.serial hresult

/-- **A request** that a line can answer is answered as the line answers it, and the node stands
for what becomes of the line. -/
theorem On.line_step (pf : Platform) (h : n.On u port) {ask : Ask} {x : Moment}
    (hideal : ask.Ideal (n.line u port) x) :
    ((nodeMachine pf u port).step n (ask, x)).2 =
        ((lineMachine pf).step (n.line u port) (ask, x)).2 ∧
      ((nodeMachine pf u port).step n (ask, x)).1.line u port =
        ((lineMachine pf).step (n.line u port) (ask, x)).1 := by
  obtain ⟨hon, -⟩ := h.elapse pf x
  have hline : (n.elapse pf port x).line u port = (n.line u port).elapse x := h.line_elapse x
  cases ask with
  | serial call =>
      have hideal' : call.Ideal x.env ((n.elapse pf port x).line u port) := by
        rw [hline]
        exact hideal
      have hcall := On.line_call pf hon hideal'
      rw [hline] at hcall
      exact hcall
  | millis =>
      have hnow : (n.elapse pf port x).now = ((n.line u port).elapse x).now :=
        congrArg Line.now hline
      exact ⟨congrArg (fun k => Answer.millis (BitVec.ofNat 32 k)) hnow, hline⟩
  | delay ms =>
      refine ⟨rfl, ?_⟩
      exact congrArg (fun l : Line => { l with now := l.now + ms }) hline
  | wasClicked => exact ⟨rfl, hline⟩

/-- No program can tell the node from the line it stands for. -/
theorem On.line_client (h : n.On u port) {ρ : Type} {c : Client Ask Answer ρ} {e : ℕ → Moment}
    (hideal : c.AlongRun (lineMachine pf) Ask.Ideal e (n.line u port)) :
    c.result (nodeMachine pf u port) e n = c.result (lineMachine pf) e (n.line u port) ∧
      (c.final (nodeMachine pf u port) e n).line u port =
        c.final (lineMachine pf) e (n.line u port) := by
  obtain ⟨hresult, -, hline⟩ := Client.result_of_simulation
    (R := fun (n : Node) (l : Line) => n.On u port ∧ n.line u port = l)
    (by
      rintro n l ask x ⟨hon, rfl⟩ hask
      obtain ⟨hanswer, hnext⟩ := hon.line_step pf hask
      exact ⟨hanswer, hon.step ask x, hnext⟩)
    ⟨h, rfl⟩ hideal
  exact ⟨hresult, hline⟩

end Node

/-- Hosts with the same byte order make the same calls of a backend. -/
theorem SerialCall.perform_congr {pf pf' : Platform} (horder : pf'.littleEndian = pf.littleEndian)
    (hswap : pf'.byteswapValue = pf.byteswapValue) {σ : Type} (serial : ISerial σ)
    (call : SerialCall) (s : σ) : call.perform pf' serial s = call.perform pf serial s := by
  cases pf
  cases pf'
  obtain rfl := horder
  obtain rfl := hswap
  rfl

theorem lineMachine_congr {pf pf' : Platform} (horder : pf'.littleEndian = pf.littleEndian)
    (hswap : pf'.byteswapValue = pf.byteswapValue) : lineMachine pf' = lineMachine pf := by
  have hanswer : Line.answer pf' = Line.answer pf := by
    funext l x ask
    cases ask with
    | serial call =>
        simp only [Line.answer, SerialCall.perform_congr horder hswap]
    | _ => rfl
  simp only [lineMachine, hanswer]

/-- **Units are lines.**  A unit of a reachable world has a backend on a port: a
`HardwareSerial` or an ESP-IDF port, plain or DIR-controlled.  A program that runs on it, asks
for anything but `availableForWrite()` and finds the driver doing what it is asked gets the
results that it gets from an ideal line with the same bytes pending, and leaves pending and has
put out what it does there.  So a unit of any other class, backend and framework with the same
bytes pending gives it the same results, as long as the host has the same byte order. -/
theorem units_are_lines (pf : Platform) (ports : Port → UartPort) (calls : List Call) (u : UnitId)
    (port : Port) {ρ : Type} (c : Client Ask Answer ρ) (e : ℕ → Moment) :
    let n := Node.start ((machine pf).after (World.init ports) calls)
    n.world.live u = true → (n.world.backend u).port = some port →
    c.AlongRun (lineMachine pf) Ask.Ideal e (n.line u port) →
    (c.result (nodeMachine pf u port) e n = c.result (lineMachine pf) e (n.line u port) ∧
      (c.final (nodeMachine pf u port) e n).line u port =
        c.final (lineMachine pf) e (n.line u port)) ∧
    ∀ (pf' : Platform) (ports' : Port → UartPort) (calls' : List Call) (u' : UnitId)
      (port' : Port),
      let n' := Node.start ((machine pf').after (World.init ports') calls')
      pf'.littleEndian = pf.littleEndian → pf'.byteswapValue = pf.byteswapValue →
      n'.world.live u' = true → (n'.world.backend u').port = some port' →
      n'.line u' port' = n.line u port →
      c.result (nodeMachine pf' u' port') e n' = c.result (nodeMachine pf u port) e n ∧
        (c.final (nodeMachine pf' u' port') e n').line u' port' =
          (c.final (nodeMachine pf u port) e n).line u port := by
  intro n hlive hport hideal
  have hon : n.On u port := ⟨owned_after pf ports calls, hlive, hport⟩
  obtain ⟨hresult, hfinal⟩ := hon.line_client hideal
  refine ⟨⟨hresult, hfinal⟩, ?_⟩
  intro pf' ports' calls' u' port' n' horder hswap hlive' hport' hline
  have hon' : n'.On u' port' := ⟨owned_after pf' ports' calls', hlive', hport'⟩
  have hmachine : lineMachine pf' = lineMachine pf := lineMachine_congr horder hswap
  have hideal' : c.AlongRun (lineMachine pf') Ask.Ideal e (n'.line u' port') := by
    rw [hmachine, hline]
    exact hideal
  obtain ⟨hresult', hfinal'⟩ := hon'.line_client hideal'
  rw [hmachine, hline] at hresult' hfinal'
  exact ⟨hresult'.trans hresult.symm, hfinal'.trans hfinal.symm⟩

/-- A program that waits for two bytes and sends them back. -/
def echo : Client Ask Answer (List Byte) :=
  .ask (.serial .peek) fun _ =>
    .ask (.serial (.readBytes ⟨false, 2⟩)) fun
      | .serial (.bytes bs) => .ask (.serial (.writeBuf (.mem bs))) fun _ => .done bs
      | _ => .done []

/-- One byte arrives before the program runs, and one while it waits. -/
def echoMoments : ℕ → Moment
  | 0 => { Moment.calm with arrived := [0x41] }
  | 1 => { Moment.calm with env := { Env.calm with arrivals := [0x42] } }
  | _ => .calm

/-- On a unit with a DIR pin it does what it does on the line. -/
theorem echo_on_unit :
    let n := Node.start ((machine .esp32).after (World.init samplePorts) sampleRun)
    echo.result (nodeMachine .esp32 0 1) echoMoments n = [0x41, 0x42] ∧
      (echo.final (nodeMachine .esp32 0 1) echoMoments n).line 0 1 =
        ⟨[], [0x41, 0x42], 115200, 0⟩ := by
  intro n
  have hideal : echo.AlongRun (lineMachine .esp32) Ask.Ideal echoMoments (n.line 0 1) :=
    ⟨⟨⟨256, rfl, by decide⟩, rfl⟩, ⟨rfl, ⟨256, rfl, by decide⟩, fun h => absurd h (by decide)⟩,
      trivial, trivial⟩
  exact (units_are_lines .esp32 samplePorts sampleRun 0 1 echo echoMoments (by decide)
    (by decide) hideal).1

end RS485
