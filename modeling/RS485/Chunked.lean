import RS485.Requests

/-!
# Chunked transfers

`write_chunked` and `read_chunked` move a block of any length through a unit, in as many calls
as it takes.  The write asks how much may be written without blocking, waits a millisecond when
there is no room or nothing is accepted, and gives up after a time.  The read waits for each
chunk, and ends when nothing comes.

Both are loops around calls whose answers the driver chooses, so the proofs are by
`Client.wp_loop`.  An iteration of the write either gets a byte across or takes a millisecond
(`wp_writeBody`), and one of the read gets a byte or is the last (`wp_readBody`); so both end,
and the results say what they have done: `write_chunked_exact` and `read_chunked_exact`.  If there
is always room, an iteration of the write gets so many bytes across that the time is not up before
the last.
-/

namespace RS485

open Client

/-! ## The functions -/

/-- The body of the loop of `write_chunked`, of which `total` bytes are written. -/
def writeBody (bytes : List Byte) (start timeoutMs : BitVec 32) (total : ℕ) :
    Client Ask Answer (ℕ ⊕ ℕ) :=
  if total < bytes.length then
    (Ask.hasElapsed start timeoutMs).bind fun elapsed =>
      if elapsed then .done (.inr total)
      else
        Ask.availableForWrite.bind fun available =>
          if available ≤ 0 then (Ask.wait 1).bind fun _ => .done (.inl total)
          else
            (Ask.write ((bytes.drop total).take (min available.toNat (bytes.length - total)))).bind
              fun wrote =>
                if wrote = 0 then (Ask.wait 1).bind fun _ => .done (.inl total)
                else .done (.inl (total + wrote))
  else .done (.inr total)

/-- `write_chunked`, with at most `fuel` iterations. -/
def writeChunked (fuel : ℕ) (data : Buffer) (timeoutMs : BitVec 32) :
    Client Ask Answer (Option ℕ) :=
  if data.isNull ∨ data.size = 0 then .done (some 0)
  else
    Ask.now.bind fun start =>
      (loop (writeBody data.bytes start timeoutMs) fuel 0).bindSome fun total =>
        if 0 < total then Ask.flushTx.bind fun _ => .done (some total)
        else .done (some total)

/-- The body of the loop of `read_chunked`, which has filled the buffer with `got` so far. -/
def readBody (len : ℕ) (timeoutMs : BitVec 32) (got : List Byte) :
    Client Ask Answer (List Byte ⊕ List Byte) :=
  if got.length < len then
    (Ask.readBytes (len - got.length) timeoutMs).bind fun more =>
      if more.length = 0 then .done (.inr got) else .done (.inl (got ++ more))
  else .done (.inr got)

/-- `read_chunked`, with at most `fuel` iterations: the bytes it puts in the buffer. -/
def readChunked (fuel : ℕ) (buffer : Destination) (timeoutMs : BitVec 32) :
    Client Ask Answer (Option (List Byte)) :=
  if buffer.isNull ∨ buffer.size = 0 then .done (some [])
  else loop (readBody buffer.size timeoutMs) fuel []

/-! ## `write_chunked` -/

/-- What is true at the head of the loop, `total` bytes being written and the loop running since
`start`. -/
structure Writing (T : Terms) (n₀ : Node) (u : UnitId) (port : Port) (bytes : List Byte)
    (start limit : ℕ) (total : ℕ) (n : Node) : Prop where
  passes : n₀.Passes u port (bytes.take total) [] n
  total_le : total ≤ bytes.length
  started : start ≤ n.now
  soon : n.now ≤ start + limit
  /-- if there is always room, every `room` bytes have taken no more than three requests -/
  quick : T.taken → total < bytes.length → T.room * (n.now - start) ≤ 3 * T.maxLag * total

section Write

variable {pf : Platform} {u : UnitId} {port : Port} {T : Terms} {n₀ n n' : Node}
  {bytes : List Byte} {start limit limit' total time k : ℕ} {timeoutMs : BitVec 32}

/-- The driver accepts the next bytes. -/
theorem Writing.goes (h : Writing T n₀ u port bytes start limit total n)
    (hgoes : n.Goes u port time ((bytes.drop total).take k) n') (hk : total + k ≤ bytes.length)
    (hlimit : n'.now ≤ start + limit')
    (hquick : T.taken → total + k < bytes.length →
      T.room * (n'.now - start) ≤ 3 * T.maxLag * (total + k)) :
    Writing T n₀ u port bytes start limit' (total + k) n' where
  passes := by
    rw [List.take_add]
    exact h.passes.trans hgoes.toPasses
  total_le := hk
  started := le_trans h.started hgoes.later
  soon := hlimit
  quick := hquick

/-- Time passes, because there is no room. -/
theorem Writing.waits (h : Writing T n₀ u port bytes start limit total n)
    (hgoes : n.Goes u port time [] n') (hlimit : n'.now ≤ start + limit')
    (hfull : ¬ T.taken) : Writing T n₀ u port bytes start limit' total n' := by
  have hnone : n.Goes u port time ((bytes.drop total).take 0) n' := by simpa using hgoes
  exact h.goes hnone h.total_le hlimit fun htaken => absurd htaken hfull

/-- Every chunk of `room` bytes takes three requests at most. -/
theorem quick_add {room lag elapsed elapsed' k : ℕ} (hquick : room * elapsed ≤ 3 * lag * total)
    (hsoon : elapsed' ≤ elapsed + 3 * lag) (hk : room ≤ k) :
    room * elapsed' ≤ 3 * lag * (total + k) :=
  calc room * elapsed' ≤ room * (elapsed + 3 * lag) := Nat.mul_le_mul_left room hsoon
    _ = room * elapsed + 3 * lag * room := by rw [Nat.mul_add, Nat.mul_comm room (3 * lag)]
    _ ≤ 3 * lag * total + 3 * lag * k := by gcongr
    _ = 3 * lag * (total + k) := (Nat.mul_add ..).symm

/-- If chunks are accepted that fast, the time is not up before all is written. -/
theorem Writing.in_time (h : Writing T n₀ u port bytes start limit total n) (htaken : T.taken)
    (hless : total < bytes.length) {timeout now : ℕ} (hnow : now ≤ n.now + T.maxLag)
    (henough : T.maxLag * (3 * bytes.length + T.room) < T.room * timeout) :
    now - start < timeout := by
  have hstarted := h.started
  have hquick := h.quick htaken hless
  have htime : T.room * (now - start) < T.room * timeout := calc
    T.room * (now - start) ≤ T.room * (n.now - start + T.maxLag) := by gcongr; omega
    _ = T.room * (n.now - start) + T.maxLag * T.room := by
      rw [Nat.mul_add, Nat.mul_comm T.room T.maxLag]
    _ ≤ 3 * T.maxLag * bytes.length + T.maxLag * T.room :=
      Nat.add_le_add_right (hquick.trans (Nat.mul_le_mul_left _ hless.le)) _
    _ = T.maxLag * (3 * bytes.length + T.room) := by ring
    _ < T.room * timeout := henough
  exact Nat.lt_of_mul_lt_mul_left htime

/-- **One iteration** ends the loop, because all is written or the time is up, or gets a byte
across, or takes a millisecond. -/
theorem wp_writeBody (hturn : timeoutMs.toNat + 4 * T.maxLag + 1 < 2 ^ 32)
    (henough : T.taken →
      T.maxLag * (3 * bytes.length + T.room) < T.room * timeoutMs.toNat)
    (h : Writing T n₀ u port bytes start (timeoutMs.toNat + 3 * T.maxLag + 1) total n) :
    wp (nodeMachine pf u port) (T.Met pf u port)
      (writeBody bytes (BitVec.ofNat 32 start) timeoutMs total)
      (fun r n' => r.elim
        (fun total' =>
          Writing T n₀ u port bytes start (timeoutMs.toNat + 3 * T.maxLag + 1) total' n' ∧
            bytes.length - total' + (timeoutMs.toNat - (n'.now - start)) <
              bytes.length - total + (timeoutMs.toNat - (n.now - start)))
        (fun total' => n₀.Passes u port (bytes.take total') [] n' ∧ total' ≤ bytes.length ∧
          start ≤ n'.now ∧ (total' < bytes.length → start + timeoutMs.toNat ≤ n'.now) ∧
          (T.taken → total' = bytes.length))) n := by
  have hstarted := h.started
  have hsoon := h.soon
  -- where there is room, there is room for a byte
  have hpos : T.taken → 0 < T.room := fun htaken =>
    Nat.pos_of_mul_pos_right (Nat.zero_lt_of_lt (henough htaken))
  unfold writeBody
  split
  · next hless =>
    refine wp_bind.mpr (wp_hasElapsed h.passes.on hstarted (by omega)
      fun n₁ elapsed hgoes₁ helapsed => ?_)
    have hlater₁ := hgoes₁.later
    have hsoon₁ := hgoes₁.soon
    have hpasses₁ : n₀.Passes u port (bytes.take total) [] n₁ := by
      simpa using h.passes.trans hgoes₁.toPasses
    cases elapsed with
    | true =>
        have htime : timeoutMs.toNat ≤ n₁.now - start := helapsed.mp rfl
        refine ⟨hpasses₁, h.total_le, by omega, fun _ => by omega, fun htaken => ?_⟩
        have hearly := h.in_time htaken hless hsoon₁ (henough htaken)
        omega
    | false =>
        have htime : n₁.now - start < timeoutMs.toNat := by
          by_contra hge
          have htrue : false = true := helapsed.mpr (by omega)
          cases htrue
        refine wp_bind.mpr (wp_availableForWrite hgoes₁.on fun n₂ available hgoes₂ hroom => ?_)
        have hlater₂ := hgoes₂.later
        have hsoon₂ := hgoes₂.soon
        have hgoes : n.Goes u port (T.maxLag + T.maxLag) [] n₂ := hgoes₁.trans hgoes₂
        split
        · next hfull =>
          -- no room
          have hnot : ¬ T.taken := fun htaken => by
            have hpos' := hpos htaken
            have hroom' := hroom htaken
            omega
          refine wp_bind.mpr (wp_wait hgoes₂.on 1 fun n₃ hgoes₃ hms => ?_)
          have hsoon₃ := hgoes₃.soon
          exact ⟨h.waits (hgoes.trans hgoes₃) (by omega) hnot, by omega⟩
        · next hsome =>
          refine wp_bind.mpr (wp_write hgoes₂.on _ fun n₃ k hk hmin hgoes₃ => ?_)
          have hlater₃ := hgoes₃.later
          have hsoon₃ := hgoes₃.soon
          rw [List.length_take, List.length_drop] at hk hmin
          have hfits : k ≤ bytes.length - total := by omega
          have htake :
              ((bytes.drop total).take (min available.toNat (bytes.length - total))).take k =
                (bytes.drop total).take k := by
            rw [List.take_take, min_eq_left (by omega)]
          rw [htake] at hgoes₃
          split
          · -- nothing accepted
            next hzero =>
            have hnot : ¬ T.taken := fun htaken => by
              have hpos' := hpos htaken
              have hmin' := hmin htaken
              omega
            rw [hzero, List.take_zero] at hgoes₃
            refine wp_bind.mpr (wp_wait hgoes₃.on 1 fun n₄ hgoes₄ hms => ?_)
            have hsoon₄ := hgoes₄.soon
            exact ⟨h.waits ((hgoes.trans hgoes₃).trans hgoes₄) (by omega) hnot, by omega⟩
          · next hsome' =>
            have hgoes' : n.Goes u port (T.maxLag + T.maxLag + T.maxLag)
                ((bytes.drop total).take k) n₃ := hgoes.trans hgoes₃
            refine ⟨h.goes hgoes' (by omega) (by omega) fun htaken hless' => ?_, by omega⟩
            have hroom' := hroom htaken
            have hmin' := hmin htaken
            exact quick_add (h.quick htaken hless) (by omega) (by omega)
  · next hall =>
    refine ⟨h.passes, h.total_le, hstarted, fun hless => absurd hless hall, fun _ => ?_⟩
    exact le_antisymm h.total_le (not_lt.mp hall)

/-- What a call of `write_chunked` has done that returns `total`: the driver has accepted the
first `total` bytes, in order, and nothing else. -/
structure Wrote (n : Node) (u : UnitId) (port : Port) (bytes : List Byte) (timeout total : ℕ)
    (n' : Node) : Prop where
  passes : n.Passes u port (bytes.take total) [] n'
  total_le : total ≤ bytes.length
  /-- if that is any, they have left the port, behind what was pending there -/
  sent : 0 < total →
    (n'.world.ports port).tx = [] ∧ sentBytes n'.log = n.out port ++ bytes.take total
  /-- if it is not all, the time was up -/
  late : total < bytes.length → n.now + timeout ≤ n'.now

theorem wp_writeChunked {fuel : ℕ} (h : n.On u port) (data : Buffer)
    (hturn : timeoutMs.toNat + 4 * T.maxLag + 1 < 2 ^ 32)
    (henough : T.taken →
      T.maxLag * (3 * data.bytes.length + T.room) < T.room * timeoutMs.toNat)
    (hfuel : data.bytes.length + timeoutMs.toNat < fuel) :
    wp (nodeMachine pf u port) (T.Met pf u port) (writeChunked fuel data timeoutMs)
      (fun r n' => ∃ total, r = some total ∧ Wrote n u port data.bytes timeoutMs.toNat total n' ∧
        (T.taken → total = data.bytes.length)) n := by
  unfold writeChunked
  split
  · next hempty =>
    have hnil : data.bytes = [] := data.isEmpty_iff.mp hempty
    refine ⟨0, rfl, ⟨.refl h, Nat.zero_le _, fun hpos => ?_, fun hless => ?_⟩, fun _ => ?_⟩
    · exact absurd hpos (lt_irrefl 0)
    · simp [hnil] at hless
    · simp [hnil]
  · refine wp_bind.mpr (wp_now h fun n₁ hgoes₁ => ?_)
    have hlater₁ := hgoes₁.later
    have hstart : Writing T n u port data.bytes n₁.now (timeoutMs.toNat + 3 * T.maxLag + 1) 0 n₁ :=
      ⟨hgoes₁.toPasses, Nat.zero_le _, le_rfl, by omega, fun _ _ => by simp⟩
    -- an iteration gets a byte across or takes a millisecond
    let start : BitVec 32 := BitVec.ofNat 32 n₁.now
    have hloop : wp (nodeMachine pf u port) (T.Met pf u port)
        (loop (writeBody data.bytes start timeoutMs) fuel 0)
        (fun r n' => ∃ total, r = some total ∧
          n.Passes u port (data.bytes.take total) [] n' ∧ total ≤ data.bytes.length ∧
          n₁.now ≤ n'.now ∧ (total < data.bytes.length → n₁.now + timeoutMs.toNat ≤ n'.now) ∧
          (T.taken → total = data.bytes.length)) n₁ :=
      wp_loop (Writing T n u port data.bytes n₁.now (timeoutMs.toNat + 3 * T.maxLag + 1))
        (fun total n' => data.bytes.length - total + (timeoutMs.toNat - (n'.now - n₁.now)))
        (fun total n' hwriting => wp_writeBody hturn henough hwriting) hstart
        (show data.bytes.length - 0 + (timeoutMs.toNat - (n₁.now - n₁.now)) < fuel by omega)
    refine wp_bindSome (wp_mono ?_ hloop)
    rintro _ n₂ ⟨total, rfl, hpasses, hle, hlater, hlate, hall⟩
    refine ⟨total, rfl, ?_⟩
    have hlate' : total < data.bytes.length → n.now + timeoutMs.toNat ≤ n₂.now := by
      intro hless
      have htime := hlate hless
      omega
    split
    · refine wp_bind.mpr (wp_flushTx hpasses.on fun n₃ hgoes₃ hidle => ?_)
      have hlater₃ := hgoes₃.later
      have hpasses' : n.Passes u port (data.bytes.take total) [] n₃ := by
        simpa using hpasses.trans hgoes₃.toPasses
      refine ⟨total, rfl, ⟨hpasses', hle, fun _ => ⟨hidle, ?_⟩, ?_⟩, hall⟩
      · have hout : n₃.out port = n.out port ++ data.bytes.take total := hpasses'.out
        rwa [Node.out, hidle, List.append_nil] at hout
      · intro hless
        have htime := hlate' hless
        omega
    · next hnone =>
      exact ⟨total, rfl, ⟨hpasses, hle, fun hpos => absurd hpos hnone, hlate'⟩, hall⟩

end Write

/-! ## `read_chunked` -/

section Read

variable {pf : Platform} {u : UnitId} {port : Port} {n : Node} {got : List Byte}
  {reliable : Prop} {len : ℕ} {timeoutMs : BitVec 32}

/-- What is true at the head of the loop. -/
structure Reading (n₀ : Node) (u : UnitId) (port : Port) (len : ℕ) (got : List Byte) (n : Node) :
    Prop where
  passes : n₀.Passes u port [] got n
  fits : got.length ≤ len

/-- What a call of `read_chunked` has done that puts `got` in the buffer. -/
structure ReadBlock (n : Node) (u : UnitId) (port : Port) (len : ℕ) (reliable : Prop)
    (got : List Byte) (n' : Node) : Prop where
  passes : n.Passes u port [] got n'
  fits : got.length ≤ len
  /-- if the driver delivers, the call stops short only when nothing is left -/
  short : reliable → got.length < len → n'.input u = []

/-- **One iteration** ends the loop, because the buffer is full or nothing comes, or gets at
least a byte. -/
theorem wp_readBody {n₀ : Node} (h : Reading n₀ u port len got n) :
    wp (nodeMachine pf u port) (DeliveringMoments reliable len) (readBody len timeoutMs got)
      (fun r n' => r.elim
        (fun got' => Reading n₀ u port len got' n' ∧ len - got'.length < len - got.length)
        (fun got' => ReadBlock n₀ u port len reliable got' n')) n := by
  unfold readBody
  split
  · next hless =>
    refine wp_bind.mpr (wp_readBytes h.passes.on (Nat.sub_le ..)
      fun n' more hpasses hlength hshort => ?_)
    split
    · next hnone =>
      obtain rfl : more = [] := List.eq_nil_of_length_eq_zero hnone
      refine ⟨by simpa using h.passes.trans hpasses, h.fits, fun hreliable _ => ?_⟩
      exact hshort hreliable (by simp only [List.length_nil]; omega)
    · next hsome =>
      have hfits : (got ++ more).length ≤ len := by
        rw [List.length_append]
        omega
      refine ⟨⟨h.passes.trans hpasses, hfits⟩, ?_⟩
      rw [List.length_append]
      omega
  · next hfull => exact ⟨h.passes, h.fits, fun _ hless => absurd hless hfull⟩

theorem wp_readChunked {fuel : ℕ} (h : n.On u port) (size : ℕ) (hfuel : size < fuel) :
    wp (nodeMachine pf u port) (DeliveringMoments reliable size)
      (readChunked fuel ⟨false, size⟩ timeoutMs)
      (fun r n' => ∃ got, r = some got ∧ ReadBlock n u port size reliable got n') n := by
  unfold readChunked
  split
  · next hempty =>
    have hsize : size = 0 := by simpa using hempty
    exact ⟨[], rfl, .refl h, Nat.zero_le _, fun _ hless => by simp [hsize] at hless⟩
  · exact wp_loop (Reading n u port size) (fun got _ => size - got.length)
      (fun got n' hreading => wp_readBody hreading) ⟨.refl h, Nat.zero_le _⟩
      (show size - ([] : List Byte).length < fuel by simpa using hfuel)

end Read

/-! ## Runs -/

/-- **`write_chunked`.**  A unit of a reachable world has a backend on a port, and at any time,
with anything pending in its transmitter, a block is written through it.  The driver has room
or has not, accepts as much as it likes of each chunk, and lets each request wait up to `maxLag`
milliseconds.  Then the call returns.  The driver has accepted as many bytes as it says, from
the front of the block and in order; if that is any, they and what was pending before them have
left the port; and if it is not all, the time was up.  It is all if at every request the driver
has room for `room` bytes and accepts them, and that is fast enough for the timeout. -/
theorem write_chunked_exact (pf : Platform) (ports : Port → UartPort) (calls : List Call)
    (u : UnitId) (port : Port) (now : ℕ) (log : List Event) (button : List Press) (data : Buffer)
    (timeoutMs : BitVec 32) (maxLag fuel : ℕ) (e : ℕ → Moment) :
    let n : Node := ⟨(machine pf).after (World.init ports) calls, now, log, button⟩
    n.world.live u = true → (n.world.backend u).port = some port →
    (∀ k, (e k).Fair maxLag) → timeoutMs.toNat + 4 * maxLag + 1 < 2 ^ 32 →
    data.bytes.length + timeoutMs.toNat < fuel →
    let c := writeChunked fuel data timeoutMs
    ∃ total, c.result (nodeMachine pf u port) e n = some total ∧
      Wrote n u port data.bytes timeoutMs.toNat total (c.final (nodeMachine pf u port) e n) ∧
      ∀ room, c.AlongRun (nodeMachine pf u port) (fun n _ x => n.HasRoom pf u port room x) e n →
        maxLag * (3 * data.bytes.length + room) < room * timeoutMs.toNat →
        total = data.bytes.length := by
  intro n hlive hport hfair hturn hfuel c
  have hon : n.On u port := ⟨owned_after pf ports calls, hlive, hport⟩
  obtain ⟨total, hresult, hwrote, -⟩ := wp_run
    (wp_writeChunked (T := ⟨maxLag, False, False, 0⟩) hon data hturn False.elim hfuel)
    (Terms.along hfair False.elim False.elim)
  refine ⟨total, hresult, hwrote, fun room hroom henough => ?_⟩
  -- the same run, on better terms
  obtain ⟨total', hresult', -, hall⟩ := wp_run
    (wp_writeChunked (T := ⟨maxLag, False, True, room⟩) hon data hturn (fun _ => henough) hfuel)
    (Terms.along hfair False.elim fun _ => hroom)
  have hsame : total = total' := Option.some.inj (hresult.symm.trans hresult')
  rw [hsame, hall trivial]

/-- **`read_chunked`.**  On such a unit a block is read.  The call returns.  What it puts in the
buffer is the front of the input, followed there by what is still pending, and nothing is
written.  If the driver delivers what it has, the buffer is not full only if nothing is
pending. -/
theorem read_chunked_exact (pf : Platform) (ports : Port → UartPort) (calls : List Call)
    (u : UnitId) (port : Port) (now : ℕ) (log : List Event) (button : List Press) (size : ℕ)
    (timeoutMs : BitVec 32) (fuel : ℕ) (e : ℕ → Moment) :
    let n : Node := ⟨(machine pf).after (World.init ports) calls, now, log, button⟩
    n.world.live u = true → (n.world.backend u).port = some port → size < fuel →
    let c := readChunked fuel ⟨false, size⟩ timeoutMs
    ∃ got, c.result (nodeMachine pf u port) e n = some got ∧
      ReadBlock n u port size (∀ k, (e k).env.Delivers size) got
        (c.final (nodeMachine pf u port) e n) := by
  intro n hlive hport hfuel c
  have hon : n.On u port := ⟨owned_after pf ports calls, hlive, hport⟩
  exact wp_run (wp_readChunked hon size hfuel)
    (alongRun_of_forall _ (fun _ _ k hreliable => hreliable k) c n)

/-- A node that has sent two bytes. -/
def sampleNode : Node := ⟨(machine .esp32).after (World.init samplePorts) sampleRun, 5, [], []⟩

/-- The driver takes one byte at a time. -/
def slowMoments (_ : ℕ) : Moment := { Moment.calm with env := { Env.calm with accepted := some 1 } }

theorem sample_write_chunked :
    let c := writeChunked 204 (.mem [0x61, 0x62, 0x63]) 200
    c.result (nodeMachine .esp32 0 1) slowMoments sampleNode = some 3 ∧
      Wrote sampleNode 0 1 [0x61, 0x62, 0x63] 200 3
        (c.final (nodeMachine .esp32 0 1) slowMoments sampleNode) := by
  intro c
  obtain ⟨total, hresult, hwrote, hall⟩ := write_chunked_exact .esp32 samplePorts sampleRun 0 1 5
    [] [] (.mem [0x61, 0x62, 0x63]) 200 0 204 slowMoments (by decide) (by decide)
    (fun _ => ⟨le_rfl, rfl⟩) (by decide) (by decide)
  obtain rfl : total = 3 := hall 1 (by decide +kernel) (by decide)
  exact ⟨hresult, hwrote⟩

/-- Three bytes come before the first request, two before the second and one before the third. -/
def fadingMoments (k : ℕ) : Moment := { Moment.calm with arrived := List.replicate (3 - k) 0x55 }

theorem sample_read_chunked :
    let c := readChunked 9 ⟨false, 8⟩ 200
    c.result (nodeMachine .esp32 0 1) fadingMoments sampleNode =
        some [0x55, 0x55, 0x55, 0x55, 0x55, 0x55] ∧
      ReadBlock sampleNode 0 1 8 (∀ k, (fadingMoments k).env.Delivers 8)
        [0x55, 0x55, 0x55, 0x55, 0x55, 0x55]
        (c.final (nodeMachine .esp32 0 1) fadingMoments sampleNode) := by
  intro c
  obtain ⟨got, hresult, hread⟩ := read_chunked_exact .esp32 samplePorts sampleRun 0 1 5 [] [] 8 200
    9 fadingMoments (by decide) (by decide) (by decide)
  have hgot : c.result (nodeMachine .esp32 0 1) fadingMoments sampleNode =
      some [0x55, 0x55, 0x55, 0x55, 0x55, 0x55] := by decide +kernel
  obtain rfl : got = [0x55, 0x55, 0x55, 0x55, 0x55, 0x55] :=
    Option.some.inj (hresult.symm.trans hgot)
  exact ⟨hgot, hread⟩

end RS485
