import RS485.Link
import RS485.Transceiver

/-!
# Two transceivers

Two boards run the transceiver example, joined by a wire in either direction.  Their requests
may be mixed in any way, and the wires deliver at any time.  What is proved of the example on one
node is true of both (`wp_together`), since a turn of one leaves the other node as it is; and the
wires lose nothing (`Wired`).  What an end may count on is said of its own slots and of its own
driver (`Served`).  So what one board shows is what the clicks on the other have sent, up to what
is on its way: `transceivers_talk`.
-/

namespace RS485

open Client

/-- A moment of one end: of the bytes on the wire, `before` arrive before the request and up to
`during` more while it waits. -/
structure Slot where
  moment : Moment
  before : ℕ
  during : ℕ

/-- Its moment, in which what arrives comes off the wire. -/
def Slot.momentOn (s : Slot) (wire : List Byte) : Moment :=
  { s.moment with
    arrived := wire.take s.before
    env := { s.moment.env with arrivals := (wire.drop s.before).take s.during } }

/-- The turn in which the end `i` makes a request. -/
def Slot.turn (s : Slot) (i : End) (ask : Ask) : Turn := ⟨i, ask, s.moment, s.before, s.during⟩

/-- The link as a machine that clients take turns on. -/
def slotMachine (ends : Ends) : OutputMachine Link (End × Ask × Slot) Answer :=
  ⟨fun l x => l.step ends (x.2.2.turn x.1 x.2.1)⟩

/-- The two programs at work: at each input one of them makes its next request. -/
def talkMachine (ends : Ends) :
    OutputMachine (Link × (End → Client Ask Answer (Option Transceiver))) (End × Slot) Unit :=
  together (slotMachine ends)

/-- Both boards after `setup()`, with so many turns of `loop()` to go. -/
def talkStart (world : End → World) (wire : End → List Byte) (turns : End → ℕ) :
    Link × (End → Client Ask Answer (Option Transceiver)) :=
  (Link.start world wire, fun i => Transceiver.run (turns i) Transceiver.setup)

/-- Has the button of the end `i` been clicked, if this is how it is asked? -/
def pressedBy (i : End) (x : End × Ask × Slot) : Option Bool :=
  if x.1 = i then pressed (x.2.1, x.2.2.moment) else none

/-- If the turn is of the end `i`, its driver has room for `room` bytes. -/
def RoomAt (ends : Ends) (i : End) (room : ℕ)
    (q : Link × (End → Client Ask Answer (Option Transceiver))) (x : End × Slot) : Prop :=
  x.1 = i →
    (q.1.node i).HasRoom (ends.pf i) (ends.unit i) (ends.port i) room (x.2.momentOn (q.1.wire i))

instance (ends : Ends) (i : End) (room : ℕ)
    (q : Link × (End → Client Ask Answer (Option Transceiver))) (x : End × Slot) :
    Decidable (RoomAt ends i room q x) :=
  inferInstanceAs (Decidable (_ → _))

/-- A request of the end `i` is served on its terms. -/
def Served (ends : Ends) (T : End → Terms) (l : Link) (i : End) (s : Slot) : Prop :=
  ∀ ask, (T i).Met (ends.pf i) (ends.unit i) (ends.port i) (l.node i) ask
    (s.momentOn (l.wire i))

/-- **The wires lose nothing.**  What has left a port has arrived at the other end or is on the
wire, behind what was there at first, and what the driver has accepted has left the port or is
pending there. -/
structure Wired (ends : Ends) (world : End → World) (wire : End → List Byte) (l : Link) : Prop where
  on : l.On ends
  wires : ∀ i, wire i ++ sentBytes (l.node i.other).log =
    receivedBytes (l.node i).log ++ l.wire i
  sent : ∀ i, sentBytes (l.node i).log ++ ((l.node i).world.ports (ends.port i)).tx =
    ((world i).ports (ends.port i)).tx ++ acceptedBytes (l.node i).log

section Talk

variable {ends : Ends} {world : End → World} {wire : End → List Byte} {l : Link}

theorem Wired.step (h : Wired ends world wire l) (t : Turn) :
    Wired ends world wire (l.step ends t).1 := by
  obtain ⟨events, hlog, hother, hto, hfrom, hsent⟩ := h.on.step_wire t
  have hcases : ∀ i, i = t.who ∨ i = t.who.other := by
    intro i
    cases i <;> cases t.who <;> simp [End.other]
  refine ⟨h.on.step_on t, fun i => ?_, fun i => ?_⟩
  · rcases hcases i with rfl | rfl
    · rw [hother, hlog, h.wires, receivedBytes_append, List.append_assoc, hto]
    · have hwires := h.wires t.who.other
      rw [End.other_other] at hwires ⊢
      rw [hother, hlog, hfrom, sentBytes_append, ← List.append_assoc, hwires, List.append_assoc]
  · rcases hcases i with rfl | rfl
    · rw [hlog, sentBytes_append, acceptedBytes_append, List.append_assoc, hsent,
        ← List.append_assoc, h.sent, List.append_assoc]
    · rw [hother]
      exact h.sent t.who.other

/-- A turn, seen from the nodes. -/
theorem slotMachine_step (ends : Ends) (l : Link) (i : End) (ask : Ask) (s : Slot) :
    let r := (nodeMachine (ends.pf i) (ends.unit i) (ends.port i)).step (l.node i)
      (ask, s.momentOn (l.wire i))
    ((slotMachine ends).step l (i, ask, s)).2 = r.2 ∧
      ((slotMachine ends).step l (i, ask, s)).1.node = Function.update l.node i r.1 :=
  ⟨rfl, rfl⟩

/-- What comes off the wire is nothing to the button. -/
theorem pressed_momentOn (s : Slot) (ask : Ask) (wire : List Byte) :
    pressed (ask, s.momentOn wire) = pressed (ask, s.moment) := by
  cases ask <;> rfl

/-- The buttons answer as the slots say. -/
theorem pressed_after (ends : Ends) (l : Link) (i : End) (xs : List (End × Ask × Slot)) :
    (((slotMachine ends).after l xs).node i).button.map Press.clicked =
      (l.node i).button.map Press.clicked ++ xs.filterMap (pressedBy i) := by
  induction xs generalizing l with
  | nil => exact (List.append_nil _).symm
  | cons x xs ih =>
      obtain ⟨j, ask, s⟩ := x
      obtain ⟨-, hnode⟩ := slotMachine_step ends l j ask s
      have hstep : (((slotMachine ends).step l (j, ask, s)).1.node i).button.map Press.clicked =
          (l.node i).button.map Press.clicked ++ [(j, ask, s)].filterMap (pressedBy i) := by
        rw [hnode]
        by_cases hj : j = i
        · subst hj
          have hown : pressedBy j (j, ask, s) = pressed (ask, s.momentOn (l.wire j)) :=
            (if_pos rfl).trans (pressed_momentOn s ask (l.wire j)).symm
          have hbutton := Node.button_after (ends.pf j) (ends.unit j) (ends.port j) (l.node j)
            [(ask, s.momentOn (l.wire j))]
          rw [Function.update_self]
          refine hbutton.trans ?_
          simp only [List.filterMap_cons, List.filterMap_nil, hown]
        · have hnone : pressedBy i (j, ask, s) = none := if_neg hj
          rw [Function.update_of_ne (Ne.symm hj), List.filterMap_cons_none hnone,
            List.filterMap_nil, List.append_nil]
      rw [OutputMachine.after_cons, ih, hstep, List.append_assoc, ← List.filterMap_append,
        List.singleton_append]

/-- Both ends are served if the slots are as they should be and there is room. -/
theorem served_along {T : End → Terms} {slots : List (End × Slot)}
    {q : Link × (End → Client Ask Answer (Option Transceiver))}
    (hfair : ∀ s ∈ slots, s.2.moment.Fair (T s.1).maxLag)
    (htells : ∀ s ∈ slots, (T s.1).heard → s.2.moment.Tells)
    (hroom : ∀ i, (T i).taken → (talkMachine ends).Along (RoomAt ends i (T i).room) q slots) :
    (talkMachine ends).Along (fun q x => Served ends T q.1 x.1 x.2) q slots := by
  have hslots := (talkMachine ends).along_of_forall
    (fun s hs => And.intro (hfair s hs) (htells s hs)) q
  have hrooms := OutputMachine.Along.all fun i => OutputMachine.Along.all (hroom i)
  refine (OutputMachine.Along.and hslots hrooms).mono fun q x hx ask => ?_
  obtain ⟨⟨hmoment, hheard⟩, htaken⟩ := hx
  exact ⟨⟨hmoment.lag, hmoment.waits⟩, fun h => ⟨(hheard h).told, (hheard h).delivers⟩,
    fun h => htaken x.1 h rfl⟩

/-- **Both programs** do what they do alone. -/
theorem wp_talk (hon : (Link.start world wire).On ends) (turns : End → ℕ) {T : End → Terms}
    (hswap : ∀ i, (ends.pf i).SwapsBytes) (hturn : ∀ i, 4 * (T i).maxLag + 201 < 2 ^ 32)
    (hroom : ∀ i, (T i).taken → EnoughRoom (T i).maxLag (T i).room) {slots : List (End × Slot)}
    (hserved : (talkMachine ends).Along (fun q x => Served ends T q.1 x.1 x.2)
      (talkStart world wire turns) slots) :
    let q := (talkMachine ends).after (talkStart world wire turns) slots
    ∀ i, wp (nodeMachine (ends.pf i) (ends.unit i) (ends.port i))
      ((T i).Met (ends.pf i) (ends.unit i) (ends.port i)) (q.2 i)
      (fun r n' => ∃ t, r = some t ∧ ∃ presses clicks got, presses.length = turns i ∧
        Relays (T i) (Node.start (world i)) (ends.unit i) (ends.port i) presses clicks got t n')
      (q.1.node i) := by
  refine wp_together Link.node (fun l i ask s hs => ?_) (fun i => ?_) hserved
  · obtain ⟨hanswer, hnode⟩ := slotMachine_step ends l i ask s
    exact ⟨s.momentOn (l.wire i), hs ask, hanswer, hnode⟩
  · exact wp_run_transceiver (hswap i) (hturn i) (hroom i) (turns i) (relays_setup (hon i))

end Talk

/-- **Two transceivers talk.**  Two boards of any kind, each with a unit on a port, run the
example.  Their buttons are clicked at any time, their requests are mixed in any way, the wires
deliver at any time, and the drivers accept and deliver what they like.  When the program of one
board has done its turns, it has asked its button once in each, and there is a click for each time
that had been clicked.  What can be read from its log is the front of a stream: what was on its way
to it at first, and then what the driver of the other board has accepted.  The rest of the stream
is pending for its unit, on the wire, or pending in the transmitter of the other board.  What its
own driver has accepted is what its clicks say; so once both have done their turns, each shows what
the clicks on the other have sent.

If at every request the driver of a board has room for `room` bytes and accepts them, and that is
enough, its clicks send all there is.  If it tells how much it has and delivers it, all that had
come to the board when its button was last asked is shown, as long as less than 2 ^ 31 bytes come
in all. -/
theorem transceivers_talk (ends : Ends) (ports : End → Port → UartPort)
    (calls : End → List Call) (wire : End → List Byte) (turns : End → ℕ) (maxLag room : ℕ)
    (slots : List (End × Slot)) :
    let world := fun i => (machine (ends.pf i)).after (World.init (ports i)) (calls i)
    (∀ i, (world i).live (ends.unit i) = true) →
    (∀ i, ((world i).backend (ends.unit i)).port = some (ends.port i)) →
    (∀ i, (ends.pf i).SwapsBytes) → (∀ s ∈ slots, s.2.moment.Fair maxLag) →
    4 * maxLag + 201 < 2 ^ 32 →
    let start := talkStart world wire turns
    let q := (talkMachine ends).after start slots
    let T := fun i : End =>
      { maxLag := maxLag
        heard := ∀ s ∈ slots, s.1 = i → s.2.moment.Tells
        taken := EnoughRoom maxLag room ∧ (talkMachine ends).Along (RoomAt ends i room) start slots
        room := room : Terms }
    ∀ i r, (q.2 i).outcome = some r →
      ∃ t presses clicks got, r = some t ∧ presses.length = turns i ∧
        presses.map Press.clicked =
          (requests (slotMachine ends) start slots).filterMap (pressedBy i) ∧
        Relays (T i) (Node.start (world i)) (ends.unit i) (ends.port i) presses clicks got t
          (q.1.node i) ∧
        acceptedBytes (q.1.node i).log = clicks.flatMap Click.bytes ∧
        readLog t.monitor.log ++ (q.1.node i).input (ends.unit i) ++ q.1.wire i ++
            ((q.1.node i.other).world.ports (ends.port i.other)).tx =
          (world i).input (ends.unit i) ++ wire i ++
            ((world i.other).ports (ends.port i.other)).tx ++
              acceptedBytes (q.1.node i.other).log := by
  intro world hlive hport hswap hfair hturn start q T i r hdone
  have hon : (Link.start world wire).On ends := fun i =>
    ⟨owned_after (ends.pf i) (ports i) (calls i), hlive i, hport i⟩
  have hstart : Wired ends world wire (Link.start world wire) :=
    ⟨hon, fun _ => List.append_nil _, fun _ => (List.append_nil _).symm⟩
  have hwired : Wired ends world wire q.1 :=
    together_invariant (fun l x hl => hl.step _) hstart
  have hserved : (talkMachine ends).Along (fun q x => Served ends T q.1 x.1 x.2) start slots :=
    served_along hfair (fun s hs hheard => hheard s hs rfl) fun _ => And.right
  have hwp := wp_talk hon turns hswap (fun _ => hturn) (fun _ => And.left) hserved i
  rw [show ((talkMachine ends).after start slots).2 i = .done r
    from eq_done_of_outcome hdone] at hwp
  obtain ⟨t, hresult, presses, clicks, got, hlength, hrelays⟩ := hwp
  have hbutton : (q.1.node i).button = presses := hrelays.button
  have hafter : q.1 = (slotMachine ends).after (Link.start world wire)
      (requests (slotMachine ends) start slots) := together_after
  have hpressed := pressed_after ends (Link.start world wire) i
    (requests (slotMachine ends) start slots)
  rw [← hafter, hbutton] at hpressed
  obtain ⟨arrived, hlog, hsplit⟩ := hrelays.streams.stream
  have hreceived : receivedBytes (q.1.node i).log = arrived := hlog
  have hinput : (world i).input (ends.unit i) ++ arrived =
      got ++ (q.1.node i).input (ends.unit i) := hsplit
  refine ⟨t, presses, clicks, got, hresult, hlength, hpressed, hrelays,
    hrelays.streams.accepted, ?_⟩
  rw [hrelays.received]
  calc got ++ (q.1.node i).input (ends.unit i) ++ q.1.wire i ++
        ((q.1.node i.other).world.ports (ends.port i.other)).tx
      = (world i).input (ends.unit i) ++ (receivedBytes (q.1.node i).log ++ q.1.wire i) ++
          ((q.1.node i.other).world.ports (ends.port i.other)).tx := by
        rw [← hinput, hreceived, List.append_assoc _ arrived]
    _ = (world i).input (ends.unit i) ++ wire i ++ (sentBytes (q.1.node i.other).log ++
          ((q.1.node i.other).world.ports (ends.port i.other)).tx) := by
        rw [← hwired.wires i]
        simp only [List.append_assoc]
    _ = _ := by
        rw [hwired.sent i.other]
        simp only [List.append_assoc]

/-- The driver delivers what it has. -/
def hearingMoment : Moment :=
  { Moment.calm with env := { Env.calm with delivered := some (2 ^ 31) } }

/-- The button of one board is clicked, and it does its turn.  Then the other does, to which six
bytes have come. -/
def sampleSlots : List (End × Slot) :=
  List.replicate 16 (.a, ⟨{ hearingMoment with clicked := true }, 0, 0⟩) ++
    (.b, ⟨hearingMoment, 6, 0⟩) :: List.replicate 3 (.b, ⟨hearingMoment, 0, 0⟩)

def sampleWire : End → List Byte
  | .a => []
  | .b => [0x4F, 0x4B]

def sampleWorld : End → World := fun i =>
  (machine (sampleEnds.pf i)).after (World.init samplePorts) (sampleCalls i)

def sampleTalk : Link × (End → Client Ask Answer (Option Transceiver)) :=
  (talkMachine sampleEnds).after (talkStart sampleWorld sampleWire fun _ => 1) sampleSlots

/-- The other board shows what was on its way to it, and then the beginning of the text. -/
theorem sample_talk :
    ∃ t t', (sampleTalk.2 .a).outcome = some (some t) ∧
      (sampleTalk.2 .b).outcome = some (some t') ∧
      (sampleTalk.1.node .a).button = [⟨true, 0⟩] ∧
      (sampleTalk.1.node .b).button = [⟨false, 6⟩] ∧
      acceptedBytes (sampleTalk.1.node .a).log = textBytes message0 ∧
      t.monitor.log.filterMap readSent = [message0.length] ∧ t.warnings = [] ∧
      readLog t'.monitor.log = [0x4F, 0x4B, 0x55, 0x6E, 0x69, 0x74] ∧
      readLog t'.monitor.log ++ sampleTalk.1.wire .b = [0x4F, 0x4B] ++ textBytes message0 := by
  have hrun : ((sampleTalk.2 .a).outcome.isSome ∧ (sampleTalk.2 .b).outcome.isSome) ∧
      ((sampleTalk.1.node .a).button = [⟨true, 0⟩] ∧
        (sampleTalk.1.node .b).button = [⟨false, 6⟩]) ∧
      ((sampleTalk.1.node .b).input (sampleEnds.unit .b) = [] ∧
        ((sampleTalk.1.node .a).world.ports (sampleEnds.port .a)).tx = []) ∧
      (sampleTalk.2 .b).outcome.map (Option.map fun t => readLog t.monitor.log) =
        some (some [0x4F, 0x4B, 0x55, 0x6E, 0x69, 0x74]) := by
    decide +kernel
  have hworld : sampleWorld = fun i =>
    (machine (sampleEnds.pf i)).after (World.init samplePorts) (sampleCalls i) := rfl
  rw [sampleTalk, hworld] at hrun ⊢
  obtain ⟨⟨hdone, hdone'⟩, ⟨hbutton, hbutton'⟩, ⟨hinput, htx⟩, hread⟩ := hrun
  obtain ⟨r, hr⟩ := Option.isSome_iff_exists.mp hdone
  obtain ⟨r', hr'⟩ := Option.isSome_iff_exists.mp hdone'
  have hfair : ∀ s ∈ sampleSlots, s.2.moment.Fair 0 := by
    intro s hs
    simp only [sampleSlots, List.mem_append, List.mem_cons, List.mem_replicate] at hs
    rcases hs with ⟨-, rfl⟩ | rfl | ⟨-, rfl⟩ <;> exact ⟨le_rfl, rfl⟩
  have htalk := transceivers_talk sampleEnds (fun _ => samplePorts) sampleCalls sampleWire
    (fun _ => 1) 0 128 sampleSlots (by rintro (_ | _) <;> rfl) (by rintro (_ | _) <;> rfl)
    (by rintro (_ | _) <;> exact Platform.esp32_swapsBytes) hfair (by decide)
  obtain ⟨t, presses, clicks, got, rfl, -, -, hrelays, -, -⟩ := htalk .a r hr
  obtain ⟨t', -, -, -, rfl, -, -, -, -, hstream⟩ := htalk .b r' hr'
  have hpresses : presses = [⟨true, 0⟩] := hrelays.button.symm.trans hbutton
  have hroom : EnoughRoom 0 128 := ⟨by decide, fun msg _ => by omega⟩
  have htaken : (talkMachine sampleEnds).Along (RoomAt sampleEnds .a 128)
      (talkStart sampleWorld sampleWire fun _ => 1) sampleSlots := by decide +kernel
  obtain ⟨haccepted, hsent, hwarnings⟩ := hrelays.sent_all ⟨hroom, htaken⟩
  rw [hpresses] at haccepted hsent
  have hlog : readLog t'.monitor.log = [0x4F, 0x4B, 0x55, 0x6E, 0x69, 0x74] :=
    Option.some.inj (Option.some.inj ((congrArg (Option.map _) hr').symm.trans hread))
  refine ⟨t, t', hr, hr', hbutton, hbutton', ?_, ?_, hwarnings, hlog, ?_⟩
  · exact haccepted.trans (List.append_nil _)
  · exact hsent.trans (congrArg (fun length => [length]) (List.length_map _))
  · -- of the stream there is nothing left but what is on the wire
    have hother : End.b.other = .a := rfl
    rw [hother, hinput, htx, haccepted, List.append_nil, List.append_nil] at hstream
    exact hstream.trans (congrArg ([0x4F, 0x4B] ++ ·) (List.append_nil _))

end RS485
