import RS485.Line

/-!
# The fake of the tests

The Serial-compatible methods are tested without hardware, on a fake backend that serves reads
from one vector of bytes and records what is written in another.  The fake is an ideal line
too, if nothing arrives and everything is accepted (`FakeSerial.perform_testable`): its reads
copy byte by byte from where the last one stopped, and what is left from there is the inbox.

So what a program does on the fake it does on every unit with the same bytes pending
(`tests_speak_for_units`).  The fake does not stand for a unit in two respects, which the
program must therefore leave out: `availableForWrite()` is always 64, and `flush(false)` drops
no input.
-/

namespace RS485

/-- `FakeSerial`, without what it counts of its destructions and its last owner. -/
structure FakeSerial where
  rx : List Byte := []
  tx : List Byte := []
  pos : ℕ := 0
  lastTimeoutMs : BitVec 32 := 0
  baud : ℕ := 19200
  flushCount : ℕ := 0
  flushTxOnlyCount : ℕ := 0
  readCount : ℕ := 0
  readBufCount : ℕ := 0
  readBytesCount : ℕ := 0
  readBytesTimeoutCount : ℕ := 0
  deriving DecidableEq, Repr

namespace FakeSerial

def feed (f : FakeSerial) (data : List Byte) : FakeSerial := { f with rx := data, pos := 0 }

def remaining (f : FakeSerial) : ℕ := f.rx.length - f.pos

def peek (f : FakeSerial) : ℤ :=
  match f.rx[f.pos]? with
  | some b => b.toNat
  | none => -1

def read (f : FakeSerial) : FakeSerial × ℤ :=
  let counted := { f with readCount := f.readCount + 1 }
  match f.rx[f.pos]? with
  | some b => ({ counted with pos := f.pos + 1 }, b.toNat)
  | none => (counted, -1)

/-- `take`: the loop, with room for that many more bytes. -/
def take : ℕ → FakeSerial → FakeSerial × List Byte
  | 0, f => (f, [])
  | room + 1, f =>
      match f.rx[f.pos]? with
      | some b =>
          let r := take room { f with pos := f.pos + 1 }
          (r.1, b :: r.2)
      | none => (f, [])

/-- The virtual functions of a `FakeSerial`. -/
def iserial : ISerial FakeSerial where
  available f := (f, f.remaining)
  availableForWrite f := (f, 64)
  peek f := (f, f.peek)
  read := read
  readBuf d f := take d.size { f with readBufCount := f.readBufCount + 1 }
  readBytes d f := take d.size { f with readBytesCount := f.readBytesCount + 1 }
  readBytesTimeout d timeoutMs f :=
    take d.size
      { f with
        readBytesTimeoutCount := f.readBytesTimeoutCount + 1
        lastTimeoutMs := timeoutMs }
  flush f := { f with flushCount := f.flushCount + 1 }
  flushTx txOnly f :=
    { f with
      flushCount := f.flushCount + 1
      flushTxOnlyCount := if txOnly then f.flushTxOnlyCount + 1 else f.flushTxOnlyCount }
  writeBuf b f := ({ f with tx := f.tx ++ b.bytes }, b.bytes.length)
  write b f := ({ f with tx := f.tx ++ [b] }, 1)
  baudRate f := (f, f.baud)

/-- The line a fake stands for. -/
def line (f : FakeSerial) (now : ℕ) : Line := ⟨f.rx.drop f.pos, f.tx, f.baud, now⟩

/-- A fake that is fed some bytes has these to read, whatever it has been read from before. -/
@[simp] theorem line_feed (data : List Byte) (f : FakeSerial) (now : ℕ) :
    (f.feed data).line now = ⟨data, f.tx, f.baud, now⟩ := rfl

/-! ## Its functions -/

section Functions

variable (f : FakeSerial) (now : ℕ)

theorem peek_eq : f.peek = front (f.rx.drop f.pos) := by
  unfold peek
  rw [← List.head?_drop]
  cases f.rx.drop f.pos <;> rfl

theorem read_line : (f.read).2 = front (f.line now).rx ∧
    (f.read).1.line now = { f.line now with rx := (f.line now).rx.tail } := by
  have hhead : (f.rx.drop f.pos).head? = f.rx[f.pos]? := List.head?_drop
  simp only [read, line]
  rw [← hhead]
  cases hrest : f.rx.drop f.pos with
  | nil => simp [hrest]
  | cons b bs => simp [List.drop_add_one_eq_tail_drop, hrest]

/-- The loop takes what there is, up to the room there is. -/
theorem take_line (room : ℕ) (f : FakeSerial) :
    (f.take room).2 = (f.line now).rx.take room ∧
      (f.take room).1.line now = { f.line now with rx := (f.line now).rx.drop room } := by
  induction room generalizing f with
  | zero => simp [take]
  | succ room ih =>
      have hhead : (f.rx.drop f.pos).head? = f.rx[f.pos]? := List.head?_drop
      simp only [take]
      rw [← hhead]
      cases hrest : f.rx.drop f.pos with
      | nil => simp [line, hrest]
      | cons b bs =>
          obtain ⟨htake, hdrop⟩ := ih { f with pos := f.pos + 1 }
          have hnext : f.rx.drop (f.pos + 1) = bs := by
            rw [List.drop_add_one_eq_tail_drop, hrest]
            rfl
          simp only [List.head?_cons, line, hnext] at htake hdrop ⊢
          simp [hrest, htake, hdrop]

end Functions

/-! ## Programs on the fake -/

/-- The fake can stand for a unit in this call: nothing arrives, and the driver accepts all that
is written. -/
def Testable (pf : Platform) (env : Env) : SerialCall → Prop
  | .availableForWrite | .flushTx false => False
  | call => env.arrivals = [] ∧
      ∀ b wait, call.payload pf = some (b, wait) → env.takes b.bytes = b.bytes

/-- **One call** of the fake is one of the line. -/
theorem perform_testable {pf : Platform} {env : Env} {call : SerialCall}
    (h : Testable pf env call) (f : FakeSerial) (now : ℕ) :
    (call.perform pf iserial f).2 = (call.perform pf (Line.iserial env) (f.line now)).2 ∧
      (call.perform pf iserial f).1.line now =
        (call.perform pf (Line.iserial env) (f.line now)).1 := by
  cases hpayload : call.payload pf with
  | some p =>
      obtain ⟨b, wait⟩ := p
      have htakes : env.takes b.bytes = b.bytes := by
        cases call <;> simp only [SerialCall.payload, reduceCtorEq] at hpayload <;>
          exact h.2 _ _ hpayload
      have hwritten : call.written pf iserial f =
          ({ f with tx := f.tx ++ b.bytes }, b.bytes.length) := by
        rw [SerialCall.written_eq_writeBuf (fun _ _ => rfl) hpayload]
        unfold RS485Component.writeBuf
        split
        · next hempty => simp [b.isEmpty_iff.mp hempty]
        · rfl
      rw [Line.perform_of_payload hpayload, SerialCall.perform_eq_written hpayload, hwritten,
        htakes]
      refine ⟨rfl, ?_⟩
      dsimp only
      split <;> rfl
  | none =>
      have hfetch : ∀ n, env.arrivals = [] → (f.line now).fetch env n =
          ({ f.line now with rx := (f.line now).rx.drop n }, (f.line now).rx.take n) := by
        intro n hnone
        simp [Line.fetch, hnone]
      -- every buffer read is the loop, on a fake that has counted it
      have hread : ∀ (g : FakeSerial) (n : ℕ), g.line now = f.line now →
          (g.take n).2 = (f.line now).rx.take n ∧
            (g.take n).1.line now = { f.line now with rx := (f.line now).rx.drop n } := by
        intro g n hline
        rw [← hline]
        exact take_line now n g
      cases call with
      | baudRate => exact ⟨rfl, rfl⟩
      | available =>
          refine ⟨congrArg Result.int ?_, rfl⟩
          simp [iserial, Line.iserial, line, remaining]
      | availableForWrite => exact absurd h id
      | peek => exact ⟨congrArg Result.int f.peek_eq, rfl⟩
      | read =>
          obtain ⟨hvalue, hrest⟩ := f.read_line now
          exact ⟨congrArg Result.int hvalue, hrest⟩
      | readBuf d =>
          obtain ⟨htake, hdrop⟩ := hread { f with readBufCount := f.readBufCount + 1 } d.size rfl
          exact ⟨congrArg Result.bytes htake, hdrop⟩
      | readBytes d =>
          obtain ⟨htake, hdrop⟩ :=
            hread { f with readBytesCount := f.readBytesCount + 1 } d.size rfl
          simp only [SerialCall.perform, Line.iserial, hfetch d.size h.1]
          exact ⟨congrArg Result.bytes htake, hdrop⟩
      | readBytesTimeout d ms =>
          obtain ⟨htake, hdrop⟩ := hread
            { f with
              readBytesTimeoutCount := f.readBytesTimeoutCount + 1
              lastTimeoutMs := ms } d.size rfl
          simp only [SerialCall.perform, Line.iserial, hfetch d.size h.1]
          exact ⟨congrArg Result.bytes htake, hdrop⟩
      | flush => exact ⟨rfl, rfl⟩
      | flushTx txOnly =>
          cases txOnly with
          | true => exact ⟨rfl, rfl⟩
          | false => exact absurd h id
      | readValue le T =>
          obtain ⟨htake, hdrop⟩ :=
            hread { f with readBytesCount := f.readBytesCount + 1 } T.size rfl
          simp only [SerialCall.perform, RS485Component.readValue_eq, Line.iserial,
            hfetch T.size h.1]
          refine ⟨?_, hdrop⟩
          simp only [iserial, htake]
      | _ => simp [SerialCall.payload] at hpayload

end FakeSerial

/-- A fake and a clock. -/
structure FakeNode where
  serial : FakeSerial
  now : ℕ

/-- The fake as a machine that clients run on.  Nothing arrives at it by itself. -/
def fakeMachine (pf : Platform) : OutputMachine FakeNode (Ask × Moment) Answer where
  step n i :=
    let n' : FakeNode := { n with now := n.now + i.2.lag }
    match i.1 with
    | .serial call =>
        let r := call.perform pf FakeSerial.iserial n'.serial
        ({ n' with serial := r.1 }, .serial r.2)
    | .millis => (n', .millis (BitVec.ofNat 32 n'.now))
    | .delay ms => ({ n' with now := n'.now + ms }, .done)
    | .wasClicked => (n', .clicked i.2.clicked)

/-- The fake can stand for a unit in this request. -/
def Ask.Testable (pf : Platform) (ask : Ask) (x : Moment) : Prop :=
  x.arrived = [] ∧
    match ask with
    | .serial call => FakeSerial.Testable pf x.env call
    | _ => True

theorem fakeMachine_step {pf : Platform} {ask : Ask} {x : Moment} (h : ask.Testable pf x)
    (n : FakeNode) :
    ((fakeMachine pf).step n (ask, x)).2 =
        ((lineMachine pf).step (n.serial.line n.now) (ask, x)).2 ∧
      ((fakeMachine pf).step n (ask, x)).1.serial.line
          ((fakeMachine pf).step n (ask, x)).1.now =
        ((lineMachine pf).step (n.serial.line n.now) (ask, x)).1 := by
  obtain ⟨hnone, hcall⟩ := h
  have helapse : (n.serial.line n.now).elapse x = n.serial.line (n.now + x.lag) := by
    simp [Line.elapse, FakeSerial.line, hnone]
  simp only [lineMachine, helapse]
  cases ask with
  | serial call =>
      obtain ⟨hresult, hline⟩ := FakeSerial.perform_testable hcall n.serial (n.now + x.lag)
      exact ⟨congrArg Answer.serial hresult, hline⟩
  | millis => exact ⟨rfl, rfl⟩
  | delay ms => exact ⟨rfl, rfl⟩
  | wasClicked => exact ⟨rfl, rfl⟩

/-- **What the tests show of the fake holds of the units.**  A program that calls neither
`availableForWrite()` nor `flush(false)` runs on a fake that is fed what a unit of a reachable
world has pending, and that has recorded what the unit has put out.  If nothing arrives at the
unit, and its driver does what it is asked and accepts what is written, the program gets the
same results on the unit, leaves the same bytes to be read, and has put out what the fake has
recorded. -/
theorem tests_speak_for_units (pf : Platform) (ports : Port → UartPort) (calls : List Call)
    (u : UnitId) (port : Port) {ρ : Type} (c : Client Ask Answer ρ) (e : ℕ → Moment)
    (fake : FakeSerial) :
    let n := Node.start ((machine pf).after (World.init ports) calls)
    n.world.live u = true → (n.world.backend u).port = some port →
    fake.line 0 = n.line u port →
    c.AlongRun (lineMachine pf) (fun l ask x => ask.Ideal l x ∧ ask.Testable pf x) e
      (n.line u port) →
    let fake' := (c.final (fakeMachine pf) e ⟨fake, 0⟩).serial
    let n' := c.final (nodeMachine pf u port) e n
    c.result (nodeMachine pf u port) e n = c.result (fakeMachine pf) e ⟨fake, 0⟩ ∧
      n'.input u = fake'.rx.drop fake'.pos ∧ n'.out port = fake'.tx := by
  intro n hlive hport hline hadmitted fake' n'
  have hon : n.On u port := ⟨owned_after pf ports calls, hlive, hport⟩
  obtain ⟨hresult, hfinal⟩ := hon.line_client
    (OutputMachine.Along.mono (fun _ _ h => h.1) hadmitted)
  obtain ⟨hfake, hfakeLine⟩ := Client.result_of_simulation
    (R := fun (n : FakeNode) (l : Line) => n.serial.line n.now = l)
    (by
      rintro n l ask x rfl ⟨-, htestable⟩
      exact fakeMachine_step htestable n)
    (s := ⟨fake, 0⟩) hline hadmitted
  have hsame := hfinal.trans hfakeLine.symm
  exact ⟨hresult.trans hfake.symm, congrArg Line.rx hsame, congrArg Line.out hsame⟩

/-- Two bytes arrive for the unit of `sampleRun`. -/
def echoRun : List Call := sampleRun ++ [⟨.arrive 1 [0x41, 0x42], .calm⟩]

/-- A fake that has been read from, and is fed the same bytes. -/
def echoFake : FakeSerial :=
  FakeSerial.feed { rx := [0x40], pos := 1, baud := 115200 } [0x41, 0x42]

theorem echo_testable : echo.AlongRun (lineMachine .esp32)
    (fun l ask x => ask.Ideal l x ∧ ask.Testable .esp32 x) (fun _ => .calm)
    ⟨[0x41, 0x42], [], 115200, 0⟩ := by
  refine ⟨⟨⟨⟨256, rfl, by decide⟩, rfl⟩, rfl, rfl, fun _ _ h => by cases h⟩,
    ⟨⟨rfl, ⟨256, rfl, by decide⟩, fun _ => rfl⟩, rfl, rfl, fun _ _ h => by cases h⟩,
    ⟨trivial, rfl, rfl, fun b wait h => ?_⟩, trivial⟩
  obtain rfl : b = .mem [0x41, 0x42] := (congrArg Prod.fst (Option.some.inj h)).symm
  exact List.take_of_length_le (by decide)

/-- The echo on the fake, and on a unit with a DIR pin. -/
theorem echo_on_fake :
    let n := Node.start ((machine .esp32).after (World.init samplePorts) echoRun)
    echo.result (nodeMachine .esp32 0 1) (fun _ => .calm) n = [0x41, 0x42] ∧
      (echo.final (nodeMachine .esp32 0 1) (fun _ => .calm) n).out 1 = [0x41, 0x42] := by
  intro n
  have hfake := tests_speak_for_units .esp32 samplePorts echoRun 0 1 echo (fun _ => .calm)
    echoFake (by decide) (by decide) (FakeSerial.line_feed ..) echo_testable
  exact ⟨hfake.1, hfake.2.2⟩

end RS485
