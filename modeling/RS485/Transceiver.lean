import RS485.Chunked
import RS485.HexDump

/-!
# The transceiver example

The program of the example, on a node.  At every turn of `loop()` it sends something if the
button has been clicked, one of three texts or a struct in either byte order, and shows what has
arrived.

A turn is found with the rules of the requests, first its sending half (`wp_send`) and then its
receiving half (`wp_receive`).  What holds of all turns is `Records`: the two streams of the node
are the clicks and the dump, and both are in the log, from which they can be read.  `Relays` ties
the clicks to the answers of the button, and says what is sent if there is room and what is shown
if the driver delivers.  The result about runs is `transceiver_relays`.
-/

namespace RS485

open Client Text

/-! ## The program -/

/-- Adjacent string literals are one.  A long one is in two pieces. -/
def literals (pieces : List String) : List Char := pieces.flatMap String.toList

def message0 : List Char :=
  literals [
    "Unit RS485 is a TTL-RS485 converter, used to convert TTL level signals to RS485 level ",
    "signals.\n",
    "RS485 is a communication protocol standard that defines the electrical characteristics ",
    "of drivers and receivers ",
    "for serial communication systems.\n",
    " It supports multipoint systems and is used in industrial applications.\n",
    " When your project devices require communication control over RS485, using Unit RS485 ",
    "as an interface converter ",
    "is a good choice.\n"]

def message1 : List Char :=
  literals [
    "Hat RS485 is an RS485 converter compatible with M5StickC.\n",
    "It integrates SP485EEN internally, mainly consisting of a 485 automatic transceiver ",
    "circuit and a DC-DC buck ",
    "circuit (which can step down the input voltage to 5V).\n",
    "RS485 is a standard used to define the electrical characteristics of drivers and ",
    "receivers for serial ",
    "communication systems, widely used in industrial fields, supporting multi-point systems.\n",
    "This product is used to convert TTL standard to RS485 standard.\n",
    "If the external serial device is RS485 standard, communication between devices ",
    "implementing TTL to RS485 protocol ",
    "conversion can be achieved through this module.\n"]

def message2 : List Char :=
  literals [
    "Atomic RS485 Base is a TTL-RS485 converter based on the Atomic design, used for ",
    "converting TTL level to RS485 ",
    "level.\n",
    "RS485 is a widely used electrical standard in the industrial field, featuring stronger ",
    "anti-interference ",
    "capability and longer transmission distance.\n",
    "It has a built-in DC-DC step-down regulator chip, which can directly convert the 12V ",
    "voltage of RS485 to 5V to ",
    "power the ATOM, eliminating the trouble of separate power supply.\n",
    "When multiple devices require communication control, using the Atomic RS485 for ",
    "interface type conversion will be ",
    "a good choice.\n"]

def messageTable : List (List Char) := [message0, message1, message2]

/-- The bytes of a text. -/
def textBytes (text : List Char) : List Byte := text.map fun c => BitVec.ofNat 8 c.toNat

/-- `Sample0::a` -/
def sampleA : TypedValue := ⟨.scalar .integral16, (0xE1D2 : BitVec 16)⟩

/-- `Sample0::b`, the bits of `-12.75f` -/
def sampleB : TypedValue := ⟨.scalar .float32, (0xC14C0000 : BitVec 32)⟩

/-- The state of the program: the static `step`, what it has shown, and the warnings it has
logged. -/
structure Transceiver where
  step : ℕ
  warnings : List (List Char)
  monitor : Monitor

/-- What `loop()` prints about what it sends. -/
def announcement (step : ℕ) : List Char :=
  match messageTable[step]? with
  | some msg => msg ++ ['\n']
  | none =>
      if step = messageTable.length then "Sample0 (LE): a=0xE1D2 b=-12.750000\n".toList
      else "Sample0 (BE): a=0xE1D2 b=-12.750000\n".toList

/-- `<<<< %zu sent` -/
def sentLine (sent : ℕ) : List Char :=
  ['<', '<', '<', '<', ' '] ++ padded 1 sent ++ [' ', 's', 'e', 'n', 't', '\n']

/-- `TX timeout: %u/%u bytes` -/
def txTimeout (sent len : ℕ) : List Char :=
  "TX timeout: ".toList ++ padded 1 sent ++ ['/'] ++ padded 1 len ++ " bytes".toList

namespace Transceiver

/-- The state after `setup()`. -/
def setup : Transceiver where
  step := 0
  warnings := []
  monitor :=
    { receiveBytes := []
      receiveBatchTotal := 0
      log := ["READY\n".toList]
      view :=
        (((LogView.clear ⟨[], [], true⟩).render).appendLine (some "READY".toList)).render }

/-- Send the struct: how many bytes of it are written. -/
def sendSample (littleEndian : Bool) : Client Ask Answer ℕ :=
  (Ask.writeValue littleEndian sampleA).bind fun a =>
    (Ask.writeValue littleEndian sampleB).bind fun b =>
      .done ((if a then sampleA.type.size else 0) + if b then sampleB.type.size else 0)

/-- The state when all is sent. -/
def sending (t : Transceiver) (sent : ℕ) (warnings : List (List Char)) : Transceiver where
  step := (t.step + 1) % (messageTable.length + 2)
  warnings := t.warnings ++ warnings
  monitor :=
    { t.monitor with
      log := t.monitor.log ++
        ["Send:>>>>\n".toList, announcement t.step, sentLine sent] }

/-- The half of `loop()` that sends. -/
def send (t : Transceiver) : Client Ask Answer (Option Transceiver) :=
  match messageTable[t.step]? with
  | some msg =>
      (writeChunked (msg.length + 201) (.mem (textBytes msg)) 200).bindSome fun sent =>
        .done (some (t.sending sent
          (if sent = msg.length then [] else [txTimeout sent msg.length])))
  | none =>
      (sendSample (t.step == messageTable.length)).bind fun sent =>
        .done (some (t.sending sent []))

/-- The half of `loop()` that receives. -/
def receive (m : Monitor) : Client Ask Answer (Option Monitor) :=
  Ask.available.bind fun pending =>
    if pending = 0 then .done (some m)
    else
      Ask.available.bind fun available =>
        let size := (available % 2 ^ 32).toNat
        (readChunked (size + 1) ⟨false, size⟩ 200).bindSome fun got =>
          .done (flushReceived { m with receiveBytes := got, receiveBatchTotal := got.length })

/-- `loop()` -/
def loop (t : Transceiver) : Client Ask Answer (Option Transceiver) :=
  Ask.clicked.bind fun clicked =>
    (if clicked then t.send else .done (some t)).bindSome fun t' =>
      (receive t'.monitor).bindSome fun m =>
        .done (some { t' with monitor := { m with view := m.view.render } })

/-- So many turns of `loop()`. -/
def run : ℕ → Transceiver → Client Ask Answer (Option Transceiver)
  | 0, t => .done (some t)
  | k + 1, t => t.loop.bindSome (run k)

end Transceiver

/-! ## Reading the log -/

/-- Read a line that tells how much was sent. -/
def readSent : List Char → Option ℕ
  | '<' :: '<' :: '<' :: '<' :: ' ' :: text => some (readNumber text).1
  | _ => none

theorem readSent_sentLine (sent : ℕ) : readSent (sentLine sent) = some sent := by
  have hnumber := readNumber_padded 1 sent [' ', 's', 'e', 'n', 't', '\n'] rfl
  have hline : sentLine sent =
      '<' :: '<' :: '<' :: '<' :: ' ' :: (padded 1 sent ++ [' ', 's', 'e', 'n', 't', '\n']) := by
    simp [sentLine]
  rw [hline, readSent, hnumber]

theorem readSent_of_ne {c : Char} (hc : c ≠ '<') (text : List Char) :
    readSent (c :: text) = none := by
  unfold readSent
  split
  · next heq => exact absurd (List.cons.inj heq).1 hc
  · rfl

set_option maxRecDepth 2000 in
theorem cons_of_mem_messageTable {msg : List Char} (h : msg ∈ messageTable) :
    ∃ c text, msg = c :: text ∧ c ≠ '|' ∧ c ≠ '<' := by
  have h0 : message0.head? = some 'U' := rfl
  have h1 : message1.head? = some 'H' := rfl
  have h2 : message2.head? = some 'A' := rfl
  have hcons : ∀ (msg : List Char) (c : Char), msg.head? = some c → c ≠ '|' ∧ c ≠ '<' →
      ∃ c text, msg = c :: text ∧ c ≠ '|' ∧ c ≠ '<' := by
    intro msg c hhead hc
    obtain ⟨text, rfl⟩ := List.head?_eq_some_iff.mp hhead
    exact ⟨c, text, rfl, hc⟩
  simp only [messageTable, List.mem_cons, List.not_mem_nil, or_false] at h
  rcases h with h | h | h
  · rw [h]
    exact hcons _ _ h0 (by decide)
  · rw [h]
    exact hcons _ _ h1 (by decide)
  · rw [h]
    exact hcons _ _ h2 (by decide)

/-- What is announced is neither a line of the dump nor one that tells how much was sent. -/
theorem announcement_eq (step : ℕ) :
    ∃ c text, announcement step = c :: text ∧ c ≠ '|' ∧ c ≠ '<' := by
  unfold announcement
  split
  · next msg hmsg =>
    obtain ⟨c, text, rfl, hc⟩ := cons_of_mem_messageTable (List.mem_of_getElem? hmsg)
    exact ⟨c, text ++ ['\n'], rfl, hc⟩
  · split
    · exact ⟨'S', _, rfl, by decide⟩
    · exact ⟨'S', _, rfl, by decide⟩

/-- What sending adds to the log tells how much was sent, and is no line of a dump. -/
theorem read_sending (step sent : ℕ) :
    let lines := ["Send:>>>>\n".toList, announcement step, sentLine sent]
    readLog lines = [] ∧ lines.filterMap readSent = [sent] := by
  intro lines
  obtain ⟨c, text, htext, hbar, hless⟩ := announcement_eq step
  have hsend : "Send:>>>>\n".toList = 'S' :: "end:>>>>\n".toList := rfl
  have hsent : sentLine sent = '<' :: (sentLine sent).tail := rfl
  constructor
  · apply readLog_eq_nil
    intro line hline
    simp only [lines, List.mem_cons, List.not_mem_nil, or_false] at hline
    rcases hline with rfl | rfl | rfl
    · rw [hsend]
      exact readHexLine_of_ne (by decide) _
    · rw [htext]
      exact readHexLine_of_ne hbar _
    · rw [hsent]
      exact readHexLine_of_ne (by decide) _
  · have hfirst : readSent "Send:>>>>\n".toList = none := by
      rw [hsend]
      exact readSent_of_ne (by decide) _
    have hsecond : readSent (announcement step) = none := by
      rw [htext]
      exact readSent_of_ne hless _
    rw [List.filterMap_cons_none hfirst, List.filterMap_cons_none hsecond,
      List.filterMap_cons_some (readSent_sentLine sent), List.filterMap_nil]

/-- A dump does not tell how much was sent. -/
theorem filterMap_readSent_of_bars {lines : List (List Char)}
    (h : ∀ line ∈ lines, line.head? = some '|') : lines.filterMap readSent = [] := by
  apply List.filterMap_eq_nil_iff.mpr
  intro line hline
  obtain ⟨text, rfl⟩ := List.head?_eq_some_iff.mp (h line hline)
  exact readSent_of_ne (by decide) text

/-! ## Clicks -/

/-- What a click has done: the step it was made at, the bytes the driver has accepted, how many
the program says it has sent, and its warnings. -/
structure Click where
  step : ℕ
  bytes : List Byte
  sent : ℕ
  warnings : List (List Char)

/-- The wire images of the struct's two fields. -/
def sampleImage (littleEndian : Bool) (value : TypedValue) : List Byte :=
  wireImage littleEndian value.type value.val

/-- What there is to send at a step. -/
def stepImage (step : ℕ) : List Byte :=
  match messageTable[step]? with
  | some msg => textBytes msg
  | none =>
      sampleImage (step == messageTable.length) sampleA ++
        sampleImage (step == messageTable.length) sampleB

/-- **What clicks do.**  At the first steps the driver accepts the beginning of a text, the
program says how much, and it warns unless that is all.  At the last two it accepts the beginning
of either field of the struct, and the program counts the fields that are written whole. -/
inductive Click.Valid : Click → Prop
  | text {step : ℕ} {msg : List Char} (hmsg : messageTable[step]? = some msg) {total : ℕ}
      (hle : total ≤ msg.length) :
      Click.Valid ⟨step, (textBytes msg).take total, total,
        if total = msg.length then [] else [txTimeout total msg.length]⟩
  | sample {step : ℕ} (hmsg : messageTable[step]? = none) {a b : List Byte}
      (ha : a <+: sampleImage (step == messageTable.length) sampleA)
      (hb : b <+: sampleImage (step == messageTable.length) sampleB) :
      Click.Valid ⟨step, a ++ b,
        (if a = sampleImage (step == messageTable.length) sampleA then 2 else 0) +
          if b = sampleImage (step == messageTable.length) sampleB then 4 else 0, []⟩

/-- A click that sends all there is says so, and does not warn. -/
theorem Click.Valid.of_whole {c : Click} (h : c.Valid) (hwhole : c.bytes = stepImage c.step) :
    c.sent = (stepImage c.step).length ∧ c.warnings = [] := by
  cases h with
  | @text step msg hmsg total hle =>
      have himage : stepImage step = textBytes msg := by simp only [stepImage, hmsg]
      have hlength : (textBytes msg).length = msg.length := List.length_map _
      dsimp only at hwhole ⊢
      rw [himage, List.take_eq_self_iff, hlength] at hwhole
      have htotal : total = msg.length := le_antisymm hle hwhole
      rw [himage, hlength, if_pos htotal]
      exact ⟨htotal, rfl⟩
  | @sample step hmsg a b ha hb =>
      have himage : stepImage step = sampleImage (step == messageTable.length) sampleA ++
          sampleImage (step == messageTable.length) sampleB := by simp only [stepImage, hmsg]
      have hlengthA : (sampleImage (step == messageTable.length) sampleA).length = 2 :=
        length_wireImage _ _ _
      have hlengthB : (sampleImage (step == messageTable.length) sampleB).length = 4 :=
        length_wireImage _ _ _
      dsimp only at hwhole ⊢
      rw [himage] at hwhole ⊢
      have hcount := congrArg List.length hwhole
      rw [List.length_append, List.length_append] at hcount
      have hfirst := ha.length_le
      have hsecond := hb.length_le
      rw [if_pos (ha.eq_of_length (by omega)), if_pos (hb.eq_of_length (by omega)),
        List.length_append]
      exact ⟨by omega, rfl⟩

/-- Chunks of `room` bytes are large enough for the fields of the struct, and for the texts to be
sent within the timeout. -/
def EnoughRoom (maxLag room : ℕ) : Prop :=
  4 ≤ room ∧ ∀ msg ∈ messageTable, maxLag * (3 * msg.length + room) < room * 200

section Turn

variable {pf : Platform} {u : UnitId} {port : Port} {T : Terms} {n : Node}

theorem wp_sendSample (h : n.On u port) (hswap : pf.SwapsBytes) (littleEndian : Bool) :
    wp (nodeMachine pf u port) (T.Met pf u port) (Transceiver.sendSample littleEndian)
      (fun sent n' => ∃ a b, a <+: sampleImage littleEndian sampleA ∧
        b <+: sampleImage littleEndian sampleB ∧
        sent = (if a = sampleImage littleEndian sampleA then 2 else 0) +
          (if b = sampleImage littleEndian sampleB then 4 else 0) ∧
        (T.taken → 4 ≤ T.room →
          a ++ b = sampleImage littleEndian sampleA ++ sampleImage littleEndian sampleB) ∧
        n.Passes u port (a ++ b) [] n') n := by
  refine wp_bind.mpr (wp_writeValue h hswap littleEndian sampleA
    fun n₁ a ok₁ ha hok₁ htaken₁ hgoes₁ => ?_)
  refine wp_bind.mpr (wp_writeValue hgoes₁.on hswap littleEndian sampleB
    fun n₂ b ok₂ hb hok₂ htaken₂ hgoes₂ => ?_)
  refine ⟨a, b, ha, hb, ?_, fun htaken hroom => ?_, hgoes₁.toPasses.trans hgoes₂.toPasses⟩
  · have hfirst : (if ok₁ then sampleA.type.size else 0) =
        if a = sampleImage littleEndian sampleA then 2 else 0 := if_congr hok₁ rfl rfl
    have hsecond : (if ok₂ then sampleB.type.size else 0) =
        if b = sampleImage littleEndian sampleB then 4 else 0 := if_congr hok₂ rfl rfl
    rw [hfirst, hsecond]
  · have hsizeA : sampleA.type.size ≤ T.room := le_trans (show 2 ≤ 4 by omega) hroom
    have hfirst : a = sampleImage littleEndian sampleA := hok₁.mp (htaken₁ htaken hsizeA)
    have hsecond : b = sampleImage littleEndian sampleB := hok₂.mp (htaken₂ htaken hroom)
    rw [hfirst, hsecond]

/-- **Sending** is one click. -/
theorem wp_send (h : n.On u port) (hswap : pf.SwapsBytes) (hturn : 4 * T.maxLag + 201 < 2 ^ 32)
    (hroom : T.taken → EnoughRoom T.maxLag T.room) (t : Transceiver) :
    wp (nodeMachine pf u port) (T.Met pf u port) t.send
      (fun r n' => ∃ t', r = some t' ∧ ∃ c : Click, c.Valid ∧ c.step = t.step ∧
        (T.taken → c.bytes = stepImage c.step) ∧
        t' = t.sending c.sent c.warnings ∧ n.Passes u port c.bytes [] n') n := by
  unfold Transceiver.send
  split
  · next msg hmsg =>
    have hlength : (Buffer.mem (textBytes msg)).bytes.length = msg.length := List.length_map _
    have hlength' : (textBytes msg).length = msg.length := hlength
    have henough : T.taken → T.maxLag * (3 * (Buffer.mem (textBytes msg)).bytes.length + T.room) <
        T.room * (200 : BitVec 32).toNat := by
      intro htaken
      rw [hlength]
      exact (hroom htaken).2 msg (List.mem_of_getElem? hmsg)
    have hwrite : wp (nodeMachine pf u port) (T.Met pf u port)
        (writeChunked (msg.length + 201) (.mem (textBytes msg)) 200)
        (fun r n' => ∃ total, r = some total ∧ Wrote n u port (textBytes msg) 200 total n' ∧
          (T.taken → total = (textBytes msg).length)) n :=
      wp_writeChunked h (.mem (textBytes msg)) (show 200 + 4 * T.maxLag + 1 < 2 ^ 32 by omega)
        henough (show (Buffer.mem (textBytes msg)).bytes.length + 200 < msg.length + 201 by omega)
    refine wp_bindSome (wp_mono ?_ hwrite)
    rintro _ n' ⟨total, rfl, hwrote, hall⟩
    have hle : total ≤ msg.length := hlength ▸ hwrote.total_le
    refine ⟨total, rfl, _, rfl, _, .text hmsg hle, rfl, fun htaken => ?_, rfl, hwrote.passes⟩
    have himage : stepImage t.step = textBytes msg := by simp only [stepImage, hmsg]
    dsimp only
    rw [himage, hall htaken, List.take_length]
  · next hmsg =>
    refine wp_bind.mpr (wp_mono ?_ (wp_sendSample h hswap _))
    rintro sent n' ⟨a, b, ha, hb, rfl, hall, hpasses⟩
    refine ⟨_, rfl, _, .sample hmsg ha hb, rfl, fun htaken => ?_, rfl, hpasses⟩
    dsimp only
    rw [hall htaken (hroom htaken).1]
    simp only [stepImage, hmsg]

/-- **Receiving** shows what the program is handed, and if the driver delivers that is all that
was pending. -/
theorem wp_receive (h : n.On u port) (m : Monitor) :
    wp (nodeMachine pf u port) (T.Met pf u port) (Transceiver.receive m)
      (fun r n' => ∃ m', r = some m' ∧ ∃ got, m.Shows got m' ∧ n.Passes u port [] got n' ∧
        (T.heard → (n.input u).length + (receivedBytes n'.log).length <
            (receivedBytes n.log).length + 2 ^ 31 →
          (n.input u).length ≤ got.length)) n := by
  refine wp_bind.mpr (wp_available h fun n₁ pending hgoes₁ hpending => ?_)
  have hcount₁ := hgoes₁.count
  have hmore₁ := hgoes₁.arrived_le
  split
  · next hzero =>
    refine ⟨m, rfl, [], m.shows_nil, hgoes₁.toPasses, fun hheard _ => ?_⟩
    have hnone : ((n₁.input u).length : ℤ) = 0 := (hpending hheard).symm.trans hzero
    simp only [List.length_nil] at hcount₁ ⊢
    omega
  · refine wp_bind.mpr (wp_available hgoes₁.on fun n₂ available hgoes₂ havailable => ?_)
    have hpasses₂ : n.Passes u port [] [] n₂ := hgoes₁.toPasses.trans hgoes₂.toPasses
    let size := (available % 2 ^ 32).toNat
    have hread : wp (nodeMachine pf u port) (DeliveringMoments (T.heard ∧ size ≤ 2 ^ 31) size)
        (readChunked (size + 1) ⟨false, size⟩ 200)
        (fun r n' => ∃ got, r = some got ∧
          ReadBlock n₂ u port size (T.heard ∧ size ≤ 2 ^ 31) got n') n₂ :=
      wp_readChunked hgoes₂.on size (Nat.lt_succ_self size)
    have hdelivers : ∀ n ask x, T.Met pf u port n ask x →
        DeliveringMoments (T.heard ∧ size ≤ 2 ^ 31) size n ask x := by
      rintro n ask x hx ⟨hheard, hsize⟩
      obtain ⟨limit, hlimit, hle⟩ := (hx.tells hheard).delivers
      exact ⟨limit, hlimit, hsize.trans hle⟩
    refine wp_bindSome (wp_mono ?_ (wp_assume hdelivers hread))
    rintro _ n₃ ⟨got, rfl, hblock⟩
    obtain ⟨m', hflush, -, hshows⟩ := flushReceived_shows
      { m with receiveBytes := got, receiveBatchTotal := got.length }
    have hpasses₃ : n.Passes u port [] got n₃ := by simpa using hpasses₂.trans hblock.passes
    refine ⟨got, rfl, m', hflush, got, ⟨hshows.log, hshows.printed, hshows.fresh⟩, hpasses₃,
      fun hheard hsmall => ?_⟩
    have hcount₂ := hpasses₂.count
    have hcount₃ := hpasses₃.count
    have hmore₂ := hpasses₂.arrived_le
    have hmore₃ := hblock.passes.arrived_le
    have havailable' : available = (n₂.input u).length := havailable hheard
    simp only [List.length_nil] at hcount₂
    -- the buffer is as large as what is pending
    have hsize : size = (n₂.input u).length := by
      simp only [size, havailable']
      omega
    by_cases hshort : got.length < size
    · have hnone : n₃.input u = [] := hblock.short ⟨hheard, by omega⟩ hshort
      rw [hnone, List.length_nil] at hcount₃
      omega
    · omega

end Turn

/-! ## Turns -/

/-- **What the program records** of a node that was `n₀` at first: the two streams of the node
are what the clicks put out and what the log shows as received.  The steps go round, and the log,
the warnings and the view tell what there was. -/
structure Records (n₀ : Node) (u : UnitId) (port : Port) (clicks : List Click) (got : List Byte)
    (t : Transceiver) (n : Node) : Prop where
  streams : n₀.Streams u port (clicks.flatMap Click.bytes) got n
  valid : ∀ c ∈ clicks, c.Valid
  steps : clicks.map Click.step =
    (List.range clicks.length).map (· % (messageTable.length + 2))
  next : t.step = clicks.length % (messageTable.length + 2)
  received : readLog t.monitor.log = got
  sent : t.monitor.log.filterMap readSent = clicks.map Click.sent
  warned : t.warnings = clicks.flatMap Click.warnings
  printed : ∃ text, t.monitor.view.printed = Transceiver.setup.monitor.view.printed ++ text ∧
    shownDigits text = writeBytes [] got
  pushed : t.monitor.view.pushed = t.monitor.view.printed

/-- **What turns of `loop()` do.**  There is an answer of the button for each, and a click for each
time it answers that it was clicked. -/
structure Relays (T : Terms) (n₀ : Node) (u : UnitId) (port : Port) (presses : List Press)
    (clicks : List Click) (got : List Byte) (t : Transceiver) (n : Node) : Prop
    extends Records n₀ u port clicks got t n where
  button : n.button = n₀.button ++ presses
  clicked : clicks.length = presses.countP Press.clicked
  /-- if there is room, a click sends all there is -/
  whole : T.taken → ∀ c ∈ clicks, c.bytes = stepImage c.step
  /-- if the driver delivers, all that had come when the button was asked is shown -/
  shown : T.heard →
    (n₀.input u).length + (receivedBytes n.log).length <
      (receivedBytes n₀.log).length + 2 ^ 31 →
    ∀ p ∈ presses,
      (n₀.input u).length + p.arrived ≤ (receivedBytes n₀.log).length + got.length

section Relays

variable {pf : Platform} {u : UnitId} {port : Port} {T : Terms} {n₀ n n' : Node}
  {presses : List Press} {clicks : List Click} {got more : List Byte} {t : Transceiver}

theorem relays_setup (h : n₀.On u port) : Relays T n₀ u port [] [] [] Transceiver.setup n₀ where
  streams := .refl h
  valid := by simp
  steps := rfl
  next := rfl
  received := by
    apply readLog_eq_nil
    intro line hline
    obtain rfl : line = "READY\n".toList := List.mem_singleton.mp hline
    exact readHexLine_of_ne (show 'R' ≠ '|' by decide) "EADY\n".toList
  sent := by
    apply List.filterMap_eq_nil_iff.mpr
    intro line hline
    obtain rfl : line = "READY\n".toList := List.mem_singleton.mp hline
    exact readSent_of_ne (show 'R' ≠ '<' by decide) "EADY\n".toList
  warned := rfl
  printed := ⟨[], by simp, rfl⟩
  pushed := rfl
  button := (List.append_nil _).symm
  clicked := rfl
  whole := by simp
  shown := by simp

theorem Records.send (h : Records n₀ u port clicks got t n) {c : Click} (hc : c.Valid)
    (hstep : c.step = t.step) (hpasses : n.Passes u port c.bytes [] n') :
    Records n₀ u port (clicks ++ [c]) got (t.sending c.sent c.warnings) n' := by
  obtain ⟨hread, hsent⟩ := read_sending t.step c.sent
  refine ⟨?_, ?_, ?_, ?_, ?_, ?_, ?_, h.printed, h.pushed⟩
  · simpa using h.streams.trans hpasses.toStreams
  · intro c' hc'
    rcases List.mem_append.mp hc' with hc' | hc'
    · exact h.valid c' hc'
    · rw [List.mem_singleton.mp hc']
      exact hc
  · rw [List.map_append, h.steps, List.length_append, List.length_singleton, List.range_succ,
      List.map_append, List.map_singleton, List.map_singleton, hstep, h.next]
  · have hnext : (t.sending c.sent c.warnings).step =
        (t.step + 1) % (messageTable.length + 2) := rfl
    rw [hnext, h.next, Nat.mod_add_mod, List.length_append, List.length_singleton]
  · simp only [Transceiver.sending, readLog_append, h.received, hread, List.append_nil]
  · simp only [Transceiver.sending, List.filterMap_append, h.sent, hsent, List.map_append,
      List.map_singleton]
  · simp only [Transceiver.sending, h.warned, List.flatMap_append, List.flatMap_singleton]

theorem Records.receive (h : Records n₀ u port clicks got t n) {m : Monitor}
    (hshows : t.monitor.Shows more m) (hpasses : n.Passes u port [] more n') :
    Records n₀ u port clicks (got ++ more)
      { t with monitor := { m with view := m.view.render } } n' := by
  obtain ⟨lines, hlog, hread, hbars⟩ := hshows.log
  obtain ⟨text, htext, hdigits⟩ := h.printed
  obtain ⟨text', htext', hdigits'⟩ := hshows.printed
  have hfresh : t.monitor.view.Fresh := fun _ => h.pushed
  obtain ⟨-, hprinted, hpushed⟩ := (hshows.fresh hfresh).render
  refine ⟨?_, h.valid, h.steps, h.next, ?_, ?_, h.warned, ⟨text ++ text', ?_, ?_⟩, ?_⟩
  · simpa using h.streams.trans hpasses.toStreams
  · simp only [hlog, readLog_append, h.received, hread]
  · simp only [hlog, List.filterMap_append, h.sent, filterMap_readSent_of_bars hbars,
      List.append_nil]
  · simp only [hprinted, htext', htext, List.append_assoc]
  · have hsplit : shownDigits (text ++ text') = shownDigits text ++ shownDigits text' :=
      List.filter_append ..
    rw [hsplit, hdigits, hdigits', writeBytes_append]
  · exact hpushed.trans hprinted.symm

/-- **If there is room**, the number of clicks tells what is sent: one text or struct after the
other, all of it, without a warning. -/
theorem Relays.sent_all (h : Relays T n₀ u port presses clicks got t n) (htaken : T.taken) :
    let images := (List.range (presses.countP Press.clicked)).map
      fun k => stepImage (k % (messageTable.length + 2))
    acceptedBytes n.log = acceptedBytes n₀.log ++ images.flatten ∧
      t.monitor.log.filterMap readSent = images.map List.length ∧ t.warnings = [] := by
  intro images
  have himages : images = clicks.map fun c => stepImage c.step := by
    calc images
        = (List.range clicks.length).map fun k => stepImage (k % (messageTable.length + 2)) := by
          rw [h.clicked]
      _ = ((List.range clicks.length).map (· % (messageTable.length + 2))).map stepImage := by
          rw [List.map_map]
          rfl
      _ = (clicks.map Click.step).map stepImage := by rw [h.steps]
      _ = clicks.map fun c => stepImage c.step := by
          rw [List.map_map]
          rfl
  have hwhole : ∀ c ∈ clicks, c.bytes = stepImage c.step := h.whole htaken
  have hsaid : ∀ c ∈ clicks, c.sent = (stepImage c.step).length ∧ c.warnings = [] :=
    fun c hc => (h.valid c hc).of_whole (hwhole c hc)
  refine ⟨?_, ?_, ?_⟩
  · rw [h.streams.accepted, himages, List.flatMap_def, List.map_congr_left hwhole]
  · rw [h.sent, himages, List.map_map]
    exact List.map_congr_left fun c hc => (hsaid c hc).1
  · rw [h.warned]
    exact List.flatMap_eq_nil_iff.mpr fun c hc => (hsaid c hc).2

/-- The sending half of a turn, in which the button has answered. -/
theorem wp_answered (hswap : pf.SwapsBytes) (hturn : 4 * T.maxLag + 201 < 2 ^ 32)
    (hroom : T.taken → EnoughRoom T.maxLag T.room) (h : Records n₀ u port clicks got t n)
    (p : Press) :
    wp (nodeMachine pf u port) (T.Met pf u port) (if p.clicked then t.send else .done (some t))
      (fun r n' => ∃ t', r = some t' ∧ ∃ clicks', clicks'.length = [p].countP Press.clicked ∧
        (T.taken → ∀ c ∈ clicks', c.bytes = stepImage c.step) ∧
        Records n₀ u port (clicks ++ clicks') got t' n' ∧
        n.Passes u port (clicks'.flatMap Click.bytes) [] n') n := by
  split
  · next hclicked =>
    refine wp_mono ?_ (wp_send h.streams.on hswap hturn hroom t)
    rintro _ n' ⟨t', rfl, c, hc, hstep, hwhole, rfl, hpasses⟩
    refine ⟨_, rfl, [c], ?_, fun htaken c' hc' => ?_, h.send hc hstep hpasses, ?_⟩
    · rw [List.countP_singleton, if_pos hclicked, List.length_singleton]
    · rw [List.mem_singleton.mp hc']
      exact hwhole htaken
    · rwa [List.flatMap_singleton]
  · next hclicked =>
    refine ⟨t, rfl, [], ?_, fun _ c hc => absurd hc List.not_mem_nil, ?_, .refl h.streams.on⟩
    · rw [List.countP_singleton, if_neg hclicked, List.length_nil]
    · rwa [List.append_nil]

/-- **A turn** of `loop()` returns. -/
theorem wp_loop_transceiver (hswap : pf.SwapsBytes) (hturn : 4 * T.maxLag + 201 < 2 ^ 32)
    (hroom : T.taken → EnoughRoom T.maxLag T.room)
    (h : Relays T n₀ u port presses clicks got t n) :
    wp (nodeMachine pf u port) (T.Met pf u port) t.loop
      (fun r n' => ∃ t', r = some t' ∧ ∃ p clicks' more,
        Relays T n₀ u port (presses ++ [p]) (clicks ++ clicks') (got ++ more) t' n') n := by
  refine wp_bind.mpr (wp_clicked h.streams.on fun n₁ clicked hstreams hbutton => ?_)
  let p : Press := ⟨clicked, (receivedBytes n₁.log).length⟩
  -- the answer makes no difference to the streams
  have hanswered : Records n₀ u port clicks got t n₁ :=
    { h.toRecords with streams := by simpa using h.streams.trans hstreams }
  refine wp_bindSome (wp_mono ?_ (wp_answered hswap hturn hroom hanswered p))
  rintro _ n₂ ⟨t', rfl, clicks', hlength, hwhole, hsent, hpasses₂⟩
  refine ⟨t', rfl, wp_bindSome (wp_mono ?_ (wp_receive hsent.streams.on t'.monitor))⟩
  rintro _ n₃ ⟨m, rfl, more, hshows, hpasses₃, hall⟩
  refine ⟨m, rfl, _, rfl, p, clicks', more, hsent.receive hshows hpasses₃, ?_, ?_, ?_, ?_⟩
  · rw [hpasses₃.button, hpasses₂.button, hbutton, h.button, List.append_assoc]
  · rw [List.length_append, List.countP_append, h.clicked, hlength]
  · intro htaken c hc
    rcases List.mem_append.mp hc with hc | hc
    · exact h.whole htaken c hc
    · exact hwhole htaken c hc
  · intro hheard hsmall q hq
    have hcount := hsent.streams.count
    have hmore₁ := hstreams.arrived_le
    have hmore₂ := hpasses₂.arrived_le
    have hmore₃ := hpasses₃.arrived_le
    rw [List.length_append]
    rcases List.mem_append.mp hq with hq | hq
    · have hshown := h.shown hheard (by omega) q hq
      omega
    · -- what had come is shown or was pending, and what was pending is shown now
      have hpending : (n₂.input u).length ≤ more.length := hall hheard (by omega)
      have hq' : q.arrived = (receivedBytes n₁.log).length := by rw [List.mem_singleton.mp hq]
      omega

theorem wp_run_transceiver (hswap : pf.SwapsBytes) (hturn : 4 * T.maxLag + 201 < 2 ^ 32)
    (hroom : T.taken → EnoughRoom T.maxLag T.room) (k : ℕ)
    (h : Relays T n₀ u port presses clicks got t n) :
    wp (nodeMachine pf u port) (T.Met pf u port) (Transceiver.run k t)
      (fun r n' => ∃ t', r = some t' ∧ ∃ presses' clicks' more, presses'.length = k ∧
        Relays T n₀ u port (presses ++ presses') (clicks ++ clicks') (got ++ more) t' n') n := by
  induction k generalizing presses clicks got t n with
  | zero => exact ⟨t, rfl, [], [], [], rfl, by simpa using h⟩
  | succ k ih =>
      refine wp_bindSome (wp_mono ?_ (wp_loop_transceiver hswap hturn hroom h))
      rintro _ n₁ ⟨t₁, rfl, p, clicks₁, more₁, h₁⟩
      refine ⟨t₁, rfl, wp_mono ?_ (ih h₁)⟩
      rintro _ n₂ ⟨t₂, rfl, presses₂, clicks₂, more₂, hlength, h₂⟩
      refine ⟨t₂, rfl, p :: presses₂, clicks₁ ++ clicks₂, more₁ ++ more₂, ?_, ?_⟩
      · rw [List.length_cons, hlength]
      · rw [List.append_cons, ← List.append_assoc, ← List.append_assoc]
        exact h₂

end Relays

/-! ## Runs -/

/-- **The transceiver example.**  It runs on a unit of a reachable world with a backend on a
port, for any number of turns of `loop()`.  The button may be clicked at any turn or not, bytes
may arrive at any time, the driver has room or has not, accepts and delivers as much as it likes,
and lets each request wait up to `maxLag` milliseconds.  Then every turn returns, and asks the
button once.  Each time that has been clicked there is a click, the steps of the clicks go round,
and the driver has accepted what they say, in order.  What the program has been handed is the
front of the input, followed there by what is still pending, and all of it can be read from the
log, and from the text printed on the view, which has been pushed to the display.  The log also
tells what each click has sent.

If at every request the driver has room for `room` bytes and accepts them, and that is enough, a
click sends all there is.  If the driver tells how much it has and delivers it, all that had come
when the button was last asked is shown, as long as less than 2 ^ 31 bytes come in all. -/
theorem transceiver_relays (pf : Platform) (ports : Port → UartPort) (calls : List Call)
    (u : UnitId) (port : Port) (now : ℕ) (log : List Event) (button : List Press)
    (maxLag room k : ℕ) (e : ℕ → Moment) :
    let n : Node := ⟨(machine pf).after (World.init ports) calls, now, log, button⟩
    n.world.live u = true → (n.world.backend u).port = some port → pf.SwapsBytes →
    (∀ j, (e j).Fair maxLag) → 4 * maxLag + 201 < 2 ^ 32 →
    let c := Transceiver.run k Transceiver.setup
    let T : Terms :=
      { maxLag := maxLag
        heard := ∀ j, (e j).Tells
        taken := EnoughRoom maxLag room ∧
          c.AlongRun (nodeMachine pf u port) (fun n _ x => n.HasRoom pf u port room x) e n
        room := room }
    ∃ t presses clicks got,
      c.result (nodeMachine pf u port) e n = some t ∧ presses.length = k ∧
      presses.map Press.clicked = (c.inputs (nodeMachine pf u port) e n).filterMap pressed ∧
      Relays T n u port presses clicks got t (c.final (nodeMachine pf u port) e n) ∧
      ∃ text, t.monitor.view.pushed = Transceiver.setup.monitor.view.pushed ++ text ∧
        readView text = some got := by
  intro n hlive hport hswap hfair hturn c T
  have hon : n.On u port := ⟨owned_after pf ports calls, hlive, hport⟩
  have hterms : c.AlongRun (nodeMachine pf u port) (T.Met pf u port) e n :=
    Terms.along hfair id And.right
  obtain ⟨t, hresult, presses, clicks, got, hlength, hrelays⟩ := wp_run
    (wp_run_transceiver (T := T) hswap hturn And.left k (relays_setup hon)) hterms
  obtain ⟨text, hprinted, hdigits⟩ := hrelays.printed
  refine ⟨t, presses, clicks, got, hresult, hlength, ?_, hrelays, text, ?_,
    readView_of_shownDigits hdigits⟩
  · have hbutton := Node.button_after pf u port n (c.inputs (nodeMachine pf u port) e n)
    have hfinal : ((nodeMachine pf u port).after n
        (c.inputs (nodeMachine pf u port) e n)).button = n.button ++ presses := hrelays.button
    rw [hfinal, List.map_append] at hbutton
    exact List.append_cancel_left hbutton
  · rw [hrelays.pushed, hprinted]
    rfl

/-- Two bytes have come at the first request, and the button is clicked at the fifth. -/
def clickedMoments (j : ℕ) : Moment :=
  { Moment.calm with
    env := { Env.calm with delivered := some (2 ^ 31) }
    clicked := j == 4
    arrived := if j = 0 then [0x4F, 0x4B] else [] }

/-- The first turn shows the bytes, and the second sends the first text. -/
theorem sample_transceiver :
    let c := Transceiver.run 2 Transceiver.setup
    let n := c.final (nodeMachine .esp32 0 1) clickedMoments sampleNode
    ∃ t, c.result (nodeMachine .esp32 0 1) clickedMoments sampleNode = some t ∧
      n.button = [⟨false, 2⟩, ⟨true, 2⟩] ∧ readLog t.monitor.log = [0x4F, 0x4B] ∧
      t.monitor.log.filterMap readSent = [message0.length] ∧ t.warnings = [] ∧
      acceptedBytes n.log = textBytes message0 := by
  intro c n
  obtain ⟨t, presses, clicks, got, hresult, -, -, hrelays, -⟩ := transceiver_relays .esp32
    samplePorts sampleRun 0 1 5 [] [] 0 128 2 clickedMoments (by decide) (by decide)
    Platform.esp32_swapsBytes (fun _ => ⟨le_rfl, rfl⟩) (by decide)
  have hbutton : n.button = [⟨false, 2⟩, ⟨true, 2⟩] := by decide +kernel
  have hpresses : presses = [⟨false, 2⟩, ⟨true, 2⟩] := hrelays.button.symm.trans hbutton
  have hread : (c.result (nodeMachine .esp32 0 1) clickedMoments sampleNode).map
      (fun t => readLog t.monitor.log) = some [0x4F, 0x4B] := by decide +kernel
  have hlog : readLog t.monitor.log = [0x4F, 0x4B] :=
    Option.some.inj ((congrArg (Option.map _) hresult).symm.trans hread)
  have hroom : EnoughRoom 0 128 := ⟨by decide, fun msg _ => by omega⟩
  obtain ⟨haccepted, hsent, hwarnings⟩ := hrelays.sent_all ⟨hroom, by decide +kernel⟩
  rw [hpresses] at haccepted hsent
  refine ⟨t, hresult, hbutton, hlog, ?_, hwarnings, ?_⟩
  · exact hsent.trans (congrArg (fun length => [length]) (List.length_map _))
  · exact haccepted.trans (List.append_nil _)

example :
    ((Transceiver.run 1 Transceiver.setup).result (nodeMachine .esp32 0 1) clickedMoments
        sampleNode).map (fun t => t.monitor.log) =
      some ["READY\n".toList, "|000/002|0x4F 0x4B \n".toList, "|000/002|OK|\n".toList] := by
  decide +kernel

end RS485
