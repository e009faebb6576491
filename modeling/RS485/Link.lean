import RS485.Node

/-!
# Two nodes on a wire

Two nodes, each with a unit on a port, joined by a wire in either direction that delivers what
is sent over it, in order, some time later.  At each turn one of the two makes a request: what
leaves its port goes onto the wire, and what arrives at it comes off the wire.  A run is any
list of turns, so it is any interleaving of any two programs.

The bytes on their way from one end to the other are a stream with four parts: what the program
at the far end has been handed, what is pending for its unit, what is on the wire, and what is
pending in the transmitter.  A turn of the far end moves bytes forward in the stream, a turn of
the near end adds to its back what the driver accepts, and so `link_conserves` holds of every
run, whatever the drivers do.
-/

namespace RS485

open Function

/-- The two ends of the link. -/
inductive End
  | a
  | b
  deriving DecidableEq, Repr

/-- The far end. -/
def End.other : End → End
  | .a => .b
  | .b => .a

@[simp] theorem End.other_other (i : End) : i.other.other = i := by cases i <;> rfl

theorem End.other_ne (i : End) : i.other ≠ i := by cases i <;> decide

/-- The hosts of the two ends, their units, and the ports these are on. -/
structure Ends where
  pf : End → Platform
  unit : End → UnitId
  port : End → Port

/-- The nodes, what is on its way to each of them, and what their programs have been handed. -/
structure Link where
  node : End → Node
  wire : End → List Byte
  taken : End → List Byte

/-- A request of one end.  Of the bytes on the wire, `before` arrive before it and up to
`during` more while it waits. -/
structure Turn where
  who : End
  ask : Ask
  moment : Moment
  before : ℕ
  during : ℕ

namespace Turn

/-- The moment of the request: what arrives comes off the wire. -/
def momentOn (t : Turn) (wire : List Byte) : Moment :=
  { t.moment with
    arrived := wire.take t.before
    env := { t.moment.env with arrivals := (wire.drop t.before).take t.during } }

end Turn

namespace Link

variable (ends : Ends)

/-- Both ends before their programs start, with bytes on the wire. -/
def start (world : End → World) (wire : End → List Byte) : Link where
  node i := Node.start (world i)
  wire := wire
  taken _ := []

def step (l : Link) (t : Turn) : Link × Answer :=
  let i := t.who
  let r := (nodeMachine (ends.pf i) (ends.unit i) (ends.port i)).step (l.node i)
    (t.ask, t.momentOn (l.wire i))
  let events := r.1.log.drop (l.node i).log.length
  ({ node := update l.node i r.1
     wire := update (update l.wire i ((l.wire i).drop (receivedBytes events).length)) i.other
       (l.wire i.other ++ sentBytes events)
     taken := update l.taken i (l.taken i ++ t.ask.returned r.2) }, r.2)

end Link

/-- The link as a machine. -/
def linkMachine (ends : Ends) : OutputMachine Link Turn Answer := ⟨Link.step ends⟩

namespace Link

variable {ends : Ends} {l : Link}

/-- The stream from the end `i`, oldest byte first: what the program of the other end has been
handed, what is pending for its unit, what is on the wire, and what is pending in the
transmitter. -/
def stream (ends : Ends) (l : Link) (i : End) : List Byte :=
  l.taken i.other ++ (l.node i.other).input (ends.unit i.other) ++ l.wire i.other ++
    ((l.node i).world.ports (ends.port i)).tx

/-- What the driver of the end `i` has accepted. -/
def accepted (l : Link) (i : End) : List Byte := acceptedBytes (l.node i).log

/-- Both units are on their ports. -/
def On (ends : Ends) (l : Link) : Prop := ∀ i, (l.node i).On (ends.unit i) (ends.port i)

/-- **A turn and the wires.**  What arrives comes off the front of one wire, and what leaves the
port goes onto the other. -/
theorem On.step_wire (h : l.On ends) (t : Turn) :
    let l' := (l.step ends t).1
    ∃ events, (l'.node t.who).log = (l.node t.who).log ++ events ∧
      l'.node t.who.other = l.node t.who.other ∧
      receivedBytes events ++ l'.wire t.who = l.wire t.who ∧
      l'.wire t.who.other = l.wire t.who.other ++ sentBytes events ∧
      sentBytes events ++ ((l'.node t.who).world.ports (ends.port t.who)).tx =
        ((l.node t.who).world.ports (ends.port t.who)).tx ++ acceptedBytes events := by
  intro l'
  let i := t.who
  let x := t.momentOn (l.wire i)
  let r := (nodeMachine (ends.pf i) (ends.unit i) (ends.port i)).step (l.node i) (t.ask, x)
  obtain ⟨events, hlog, hsent, harrived⟩ :
      ∃ events, r.1.log = (l.node i).log ++ events ∧
        sentBytes events ++ (r.1.world.ports (ends.port i)).tx =
          ((l.node i).world.ports (ends.port i)).tx ++ acceptedBytes events ∧
        (receivedBytes events = x.arrived ++ x.env.arrivals ∨
          receivedBytes events = x.arrived) :=
    (h i).step_log t.ask x
  have hevents : r.1.log.drop (l.node i).log.length = events := by
    rw [hlog, List.drop_left]
  have hne : i ≠ i.other := i.other_ne.symm
  have hnode : l'.node i = r.1 := update_self ..
  have hto : l'.wire i = (l.wire i).drop (receivedBytes events).length := by
    simp only [l', Link.step]
    rw [update_of_ne hne, update_self]
    exact congrArg (fun es => (l.wire i).drop (receivedBytes es).length) hevents
  refine ⟨events, by rw [hnode]; exact hlog, update_of_ne hne.symm .., ?_, ?_, ?_⟩
  · -- what arrives is the front of the wire
    have hprefix : receivedBytes events <+: l.wire i := by
      rcases harrived with harrived | harrived
      · rw [harrived]
        refine ⟨((l.wire i).drop t.before).drop t.during, ?_⟩
        simp only [x, Turn.momentOn, List.append_assoc, List.take_append_drop]
      · rw [harrived]
        exact List.take_prefix ..
    obtain ⟨rest, hrest⟩ := hprefix
    rw [hto, ← hrest, List.drop_left]
  · simp only [l', Link.step]
    rw [update_self]
    exact congrArg (fun es => l.wire i.other ++ sentBytes es) hevents
  · rw [hnode]
    exact hsent

theorem On.step_on (h : l.On ends) (t : Turn) : (l.step ends t).1.On ends := by
  intro j
  by_cases hj : j = t.who
  · subst hj
    have hnode : (l.step ends t).1.node t.who =
        ((nodeMachine (ends.pf t.who) (ends.unit t.who) (ends.port t.who)).step (l.node t.who)
          (t.ask, t.momentOn (l.wire t.who))).1 := update_self ..
    rw [hnode]
    exact (h t.who).step t.ask _
  · have hother : (l.step ends t).1.node j = l.node j := update_of_ne hj ..
    rw [hother]
    exact h j

/-- **A turn** adds what the driver accepts to the stream from its end, and leaves the stream to
it as it is. -/
theorem On.step (h : l.On ends) {t : Turn} (hkeeps : t.ask.keepsStream = true) :
    let l' := (l.step ends t).1
    (∃ new, l'.accepted t.who = l.accepted t.who ++ new ∧
        l'.stream ends t.who = l.stream ends t.who ++ new) ∧
      l'.accepted t.who.other = l.accepted t.who.other ∧
      l'.stream ends t.who.other = l.stream ends t.who.other := by
  intro l'
  let i := t.who
  let r := (nodeMachine (ends.pf i) (ends.unit i) (ends.port i)).step (l.node i)
    (t.ask, t.momentOn (l.wire i))
  obtain ⟨events, hlog, hnode', hto, hfrom, hsent⟩ := h.step_wire t
  obtain ⟨events', hlog', hinput⟩ : ∃ events, r.1.log = (l.node i).log ++ events ∧
      (l.node i).input (ends.unit i) ++ receivedBytes events =
        t.ask.returned r.2 ++ r.1.input (ends.unit i) := (h i).step_input hkeeps _
  have hnode : l'.node i = r.1 := update_self ..
  obtain rfl : events' = events := by
    rw [← List.append_right_inj (l.node i).log, ← hlog', ← hnode]
    exact hlog
  have htaken : l'.taken i = l.taken i ++ t.ask.returned r.2 := update_self ..
  have htaken' : l'.taken i.other = l.taken i.other := update_of_ne i.other_ne ..
  have haccepted : ∀ j, l'.accepted j = acceptedBytes (l'.node j).log := fun _ => rfl
  refine ⟨⟨acceptedBytes events', ?_, ?_⟩, ?_, ?_⟩
  · rw [haccepted, hlog, acceptedBytes_append]
    rfl
  · have hstream : l'.stream ends i = l'.taken i.other ++
        (l'.node i.other).input (ends.unit i.other) ++ l'.wire i.other ++
          ((l'.node i).world.ports (ends.port i)).tx := rfl
    rw [hstream, hnode', hfrom, htaken', ← List.append_assoc, List.append_assoc _
      (sentBytes events'), hsent, ← List.append_assoc]
    rfl
  · rw [haccepted, hnode']
    rfl
  · have hstream : l'.stream ends i.other = l'.taken i ++ (l'.node i).input (ends.unit i) ++
        l'.wire i ++ ((l'.node i.other).world.ports (ends.port i.other)).tx := by
      simp only [stream, End.other_other]
    have hstream' : l.stream ends i.other = l.taken i ++ (l.node i).input (ends.unit i) ++
        l.wire i ++ ((l.node i.other).world.ports (ends.port i.other)).tx := by
      simp only [stream, End.other_other]
    rw [hstream, hstream', hnode, hnode', htaken]
    -- what is returned comes off the input, and what arrives comes off the wire
    rw [List.append_assoc (l.taken i), ← hinput, List.append_assoc (l.taken i),
      List.append_assoc ((l.node i).input _), hto, ← List.append_assoc]

end Link

/-- **A link conserves what goes over it.**  Two units of reachable worlds have backends on
ports, of any kind and on any host, and their programs ask for anything but `flush(false)` and
`readValue`, in any order.  Bytes are on the wire at first, and the drivers may fail, accept a
part of what is written and deliver a part of what is pending.  Then in either direction, what
the program of the far end has been handed, what is pending for its unit, what is on the wire
and what is pending in the transmitter is at all times, in this order, what was on the way at
first and then what the driver of the near end has accepted. -/
theorem link_conserves (ends : Ends) (ports : End → Port → UartPort) (calls : End → List Call)
    (wire : End → List Byte) (turns : List Turn) :
    let world := fun i => (machine (ends.pf i)).after (World.init (ports i)) (calls i)
    let l := Link.start world wire
    (∀ i, (world i).live (ends.unit i) = true) →
    (∀ i, ((world i).backend (ends.unit i)).port = some (ends.port i)) →
    (∀ t ∈ turns, t.ask.keepsStream = true) →
    let l' := (linkMachine ends).after l turns
    ∀ i, l'.taken i.other ++ (l'.node i.other).input (ends.unit i.other) ++ l'.wire i.other ++
        ((l'.node i).world.ports (ends.port i)).tx =
      (world i.other).input (ends.unit i.other) ++ wire i.other ++
        ((world i).ports (ends.port i)).tx ++ acceptedBytes (l'.node i).log := by
  intro world l hlive hport hkeeps l' i
  have hon : l.On ends := fun i =>
    ⟨owned_after (ends.pf i) (ports i) (calls i), hlive i, hport i⟩
  have hinvariant : l'.On ends ∧
      ∀ i, l'.stream ends i = l.stream ends i ++ l'.accepted i := by
    refine OutputMachine.after_invariant
      (I := fun l' : Link => l'.On ends ∧ ∀ i, l'.stream ends i = l.stream ends i ++ l'.accepted i)
      (P := fun _ t => t.ask.keepsStream = true) ?_ ⟨hon, fun i => ?_⟩
      ((linkMachine ends).along_of_forall hkeeps l)
    · rintro l' t ⟨hon', hstream⟩ ht
      obtain ⟨⟨new, haccepted, hnear⟩, haccepted', hfar⟩ := hon'.step ht
      refine ⟨hon'.step_on t, fun i => ?_⟩
      have hcases : i = t.who ∨ i = t.who.other := by
        cases i <;> cases t.who <;> simp [End.other]
      rcases hcases with rfl | rfl
      · rw [hstream, List.append_assoc, ← haccepted] at hnear
        exact hnear
      · rw [hstream, ← haccepted'] at hfar
        exact hfar
    · exact (List.append_nil _).symm
  have hstream := hinvariant.2 i
  have hl : l.stream ends i = (world i.other).input (ends.unit i.other) ++ wire i.other ++
      ((world i).ports (ends.port i)).tx := by
    simp only [Link.stream, l, Link.start, List.nil_append]
    rfl
  rw [hl] at hstream
  exact hstream

/-- A unit with a DIR pin on ESP-IDF, and a plain one on Arduino. -/
def sampleEnds : Ends where
  pf
    | .a => .esp32
    | .b => { Platform.esp32 with framework := .arduinoEsp32 }
  unit _ := 0
  port _ := 1

def sampleCalls : End → List Call
  | .a => sampleRun
  | .b => [⟨.construct 0 .sp485, .calm⟩, ⟨.setAdapter 0 (some ⟨some 1, 1⟩), .calm⟩,
      ⟨.begin 0, .calm⟩]

/-- One end sends three bytes, and the other waits for two while a third is on its way. -/
def sampleTurns : List Turn :=
  [⟨.a, .serial (.writeBuf (.mem [0x10, 0x11, 0x12])), .calm, 0, 0⟩, ⟨.b, .millis, .calm, 0, 0⟩,
    ⟨.b, .serial (.readBytes ⟨false, 2⟩), .calm, 1, 1⟩]

theorem sample_link :
    let l := (linkMachine sampleEnds).after (Link.start
      (fun i => (machine (sampleEnds.pf i)).after (World.init samplePorts) (sampleCalls i))
      fun _ => []) sampleTurns
    l.taken .b ++ (l.node .b).input 0 ++ l.wire .b ++ ((l.node .a).world.ports 1).tx =
        [0x10, 0x11, 0x12] ∧ l.taken .b = [0x10, 0x11] := by
  intro l
  have hconserved := link_conserves sampleEnds (fun _ => samplePorts) sampleCalls (fun _ => [])
    sampleTurns (by rintro (_ | _) <;> rfl) (by rintro (_ | _) <;> rfl) (by decide) .a
  exact ⟨hconserved, rfl⟩

end RS485
