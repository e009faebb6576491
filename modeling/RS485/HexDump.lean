import RS485.Driver
import RS485.Lib.Text

/-!
# The dump of what is received

`flush_received` of the transceiver example shows a batch of bytes twice, in lines of sixteen:
first as hexadecimal, in the log and on the view, and then in the log as text.  The second
loop takes the lines of text that the first has collected by a running index.

The two loops run over the same line starts, so the index is in range (`printAscii_lines`), and
the dump can be read: `dump_reads_back` recovers the bytes from the log and from the text printed
on the view.
-/

namespace RS485

open Text

/-! ## The program -/

/-- `LogView`: the text printed on its canvas since that was cleared, the text that was on it when
it was last pushed to the display, and whether there is something new on it.  The canvas is a
sprite of the size of the display, and scrolls: of a long text the display shows the end. -/
structure LogView where
  printed : List Char
  pushed : List Char
  dirty : Bool
  deriving DecidableEq, Repr

namespace LogView

/-- `clear()` -/
def clear (view : LogView) : LogView := { view with printed := [], dirty := true }

/-- `append(const char* s)`, which puts a carriage return before each line feed. -/
def append (view : LogView) : Option (List Char) → LogView
  | none => view
  | some s =>
      { view with
        printed := view.printed ++ s.flatMap fun c => if c = '\n' then ['\r', '\n'] else [c]
        dirty := true }

/-- `appendLine(const char* s)` -/
def appendLine (view : LogView) : Option (List Char) → LogView
  | none => view
  | some s => { view with printed := view.printed ++ s ++ ['\r', '\n'], dirty := true }

/-- `render()` -/
def render (view : LogView) : LogView :=
  if view.dirty then { view with pushed := view.printed, dirty := false } else view

/-- What is printed has been pushed, unless something is new. -/
def Fresh (view : LogView) : Prop := view.dirty = false → view.pushed = view.printed

theorem Fresh.append {view : LogView} (h : view.Fresh) (s : Option (List Char)) :
    (view.append s).Fresh := by
  cases s with
  | none => exact h
  | some s => intro hclean; cases hclean

theorem Fresh.render {view : LogView} (h : view.Fresh) :
    view.render.Fresh ∧ view.render.printed = view.printed ∧ view.render.pushed = view.printed := by
  unfold LogView.render
  split
  · exact ⟨fun _ => rfl, rfl, rfl⟩
  · next hclean => exact ⟨h, rfl, h (by simpa using hclean)⟩

end LogView

/-- What the example keeps of a batch, and where it shows it: the calls of `M5.Log.printf`, with
what each has printed, and the view. -/
structure Monitor where
  receiveBytes : List Byte
  receiveBatchTotal : ℕ
  log : List (List Char)
  view : LogView
  deriving DecidableEq, Repr

/-- The values that `line_start` takes. -/
def lineStarts (size : ℕ) : (fuel lineStart : ℕ) → List ℕ
  | 0, _ => []
  | fuel + 1, lineStart =>
      if lineStart < size then lineStart :: lineStarts size fuel (lineStart + 16) else []

/-- The bytes of the line. -/
def lineBytes (bytes : List Byte) (lineStart : ℕ) : List Byte :=
  let lineEnd := min (lineStart + 16) bytes.length
  (bytes.drop lineStart).take (lineEnd - lineStart)

/-- What is shown for a byte in a line of text. -/
def asciiChar (c : Byte) : Char :=
  if 0x20 ≤ c.toNat ∧ c.toNat ≤ 0x7E then Char.ofNat c.toNat else '.'

/-- `|%03u/%03u|`, of numbers cast to `unsigned int` -/
def lineHeader (offset total : ℕ) : List Char :=
  '|' :: padded 3 (offset % 2 ^ 32) ++ '/' :: padded 3 (total % 2 ^ 32) ++ ['|']

/-- What the first loop prints for a line, -/
def hexLine (total : ℕ) (bytes : List Byte) (lineStart : ℕ) : List Char :=
  lineHeader lineStart total ++ writeBytes ['0', 'x'] (lineBytes bytes lineStart) ++ ['\n']

/-- and the second. -/
def asciiLine (total lineStart : ℕ) (ascii : List Char) : List Char :=
  lineHeader lineStart total ++ ascii ++ ['|', '\n']

/-- An iteration of the first loop: the log, the view, and `ascii_lines`. -/
def showHex (total : ℕ) (bytes : List Byte) :
    List (List Char) × LogView × List (List Char) → ℕ →
      List (List Char) × LogView × List (List Char)
  | (log, view, asciiLines), lineStart =>
      let line := lineBytes bytes lineStart
      (log ++ [hexLine total bytes lineStart],
        (view.append (some (writeBytes [] line))).append (some ['\n']),
        asciiLines ++ [line.map asciiChar])

/-- An iteration of the second: the log and `idx`.  There is none past the end of
`ascii_lines`. -/
def printAscii (total : ℕ) (asciiLines : List (List Char)) :
    List (List Char) × ℕ → ℕ → Option (List (List Char) × ℕ)
  | (log, idx), lineStart =>
      (asciiLines[idx]?).map fun ascii => (log ++ [asciiLine total lineStart ascii], idx + 1)

/-- `flush_received` -/
def flushReceived (m : Monitor) : Option Monitor :=
  if m.receiveBytes.isEmpty then some m
  else
    let size := m.receiveBytes.length
    let starts := lineStarts size size 0
    let shown := starts.foldl (showHex m.receiveBatchTotal m.receiveBytes) (m.log, m.view, [])
    (starts.foldlM (printAscii m.receiveBatchTotal shown.2.2) (shown.1, 0)).map fun printed =>
      { m with receiveBytes := [], log := printed.1, view := shown.2.1 }

/-! ## The loops -/

section Loops

variable {total : ℕ} {bytes : List Byte}

/-- A line is the next sixteen bytes, or what is left. -/
theorem lineBytes_eq (bytes : List Byte) (lineStart : ℕ) :
    lineBytes bytes lineStart = (bytes.drop lineStart).take 16 := by
  have hcount : min (lineStart + 16) bytes.length - lineStart =
      min 16 (bytes.drop lineStart).length := by
    rw [List.length_drop]
    omega
  rw [lineBytes, hcount]
  exact (List.take_eq_take_min ..).symm

theorem lt_of_mem_lineStarts {size fuel lineStart k : ℕ} (h : k ∈ lineStarts size fuel lineStart) :
    k < size := by
  induction fuel generalizing lineStart with
  | zero => simp [lineStarts] at h
  | succ fuel ih =>
      unfold lineStarts at h
      split at h
      · rcases List.mem_cons.mp h with rfl | h
        · assumption
        · exact ih h
      · simp at h

theorem getElem?_lineStarts {size fuel lineStart i k : ℕ}
    (h : (lineStarts size fuel lineStart)[i]? = some k) : k = lineStart + 16 * i := by
  induction fuel generalizing lineStart i with
  | zero => simp [lineStarts] at h
  | succ fuel ih =>
      unfold lineStarts at h
      split at h
      · cases i with
        | zero => simpa [eq_comm] using h
        | succ i =>
            have hk : k = lineStart + 16 + 16 * i := ih (by simpa using h)
            omega
      · simp at h

/-- The lines are the bytes, cut. -/
theorem flatMap_lineBytes {fuel lineStart : ℕ} (h : bytes.length ≤ lineStart + fuel) :
    (lineStarts bytes.length fuel lineStart).flatMap (lineBytes bytes) =
      bytes.drop lineStart := by
  induction fuel generalizing lineStart with
  | zero => simpa [lineStarts] using h
  | succ fuel ih =>
      unfold lineStarts
      split
      · have hrest : (lineStarts bytes.length fuel (lineStart + 16)).flatMap (lineBytes bytes) =
            bytes.drop (lineStart + 16) := ih (by omega)
        rw [List.flatMap_cons, hrest, lineBytes_eq, ← List.drop_drop, List.take_append_drop]
      · next hend =>
        rw [List.flatMap_nil, List.drop_eq_nil_of_le (by omega)]

/-- Hexadecimal text has no line ends. -/
theorem not_lineEnd_of_mem {lead : List Char} (hlead : ∀ c ∈ lead, c ≠ '\n' ∧ c ≠ '\r')
    {line : List Byte} {c : Char} (hc : c ∈ writeBytes lead line) : c ≠ '\n' ∧ c ≠ '\r' := by
  have hdigit : ∀ n < 16, hexDigit n ≠ '\n' ∧ hexDigit n ≠ '\r' := by decide
  rcases mem_writeBytes hc with hc | rfl | ⟨n, hn, rfl⟩
  · exact hlead c hc
  · decide
  · exact hdigit n hn

/-- A line on the view. -/
theorem printed_showHex (view : LogView) (line : List Byte) :
    ((view.append (some (writeBytes [] line))).append (some ['\n'])).printed =
      view.printed ++ (writeBytes [] line ++ ['\r', '\n']) := by
  have hline : (writeBytes [] line).flatMap (fun c => if c = '\n' then ['\r', '\n'] else [c]) =
      writeBytes [] line := by
    have hsingle : ∀ c ∈ writeBytes [] line,
        (if c = '\n' then ['\r', '\n'] else [c]) = [c] := by
      intro c hc
      exact if_neg (not_lineEnd_of_mem (by simp) hc).1
    rw [List.flatMap_congr hsingle]
    exact List.flatMap_singleton' _
  simp [LogView.append, hline]

/-- The first loop shows every line. -/
theorem foldl_showHex (starts : List ℕ) (log : List (List Char)) (view : LogView)
    (asciiLines : List (List Char)) :
    let shown := starts.foldl (showHex total bytes) (log, view, asciiLines)
    shown.1 = log ++ starts.map (hexLine total bytes) ∧
      shown.2.1.printed = view.printed ++ starts.flatMap (fun lineStart =>
        writeBytes [] (lineBytes bytes lineStart) ++ ['\r', '\n']) ∧
      (view.Fresh → shown.2.1.Fresh) ∧
      shown.2.2 =
        asciiLines ++ starts.map fun lineStart => (lineBytes bytes lineStart).map asciiChar := by
  induction starts generalizing log view asciiLines with
  | nil => simp
  | cons lineStart starts ih =>
      obtain ⟨hlog, hprinted, hfresh, hascii⟩ := ih (log ++ [hexLine total bytes lineStart])
        ((view.append (some (writeBytes [] (lineBytes bytes lineStart)))).append (some ['\n']))
        (asciiLines ++ [(lineBytes bytes lineStart).map asciiChar])
      refine ⟨?_, ?_, fun h => hfresh ((h.append _).append _), ?_⟩
      · rw [List.foldl_cons, List.map_cons, List.append_cons]
        exact hlog
      · rw [List.foldl_cons, List.flatMap_cons, ← List.append_assoc, ← printed_showHex]
        exact hprinted
      · rw [List.foldl_cons, List.map_cons, List.append_cons]
        exact hascii

/-- **The second loop** finds a line of text at every index, the one of the same start. -/
theorem printAscii_lines (total : ℕ) (text : ℕ → List Char) (starts : List ℕ)
    (before : List (List Char)) (log : List (List Char)) :
    starts.foldlM (printAscii total (before ++ starts.map text)) (log, before.length) =
      some (log ++ starts.map fun lineStart => asciiLine total lineStart (text lineStart),
        before.length + starts.length) := by
  induction starts generalizing before log with
  | nil => simp
  | cons lineStart starts ih =>
      have hline : (before ++ (lineStart :: starts).map text)[before.length]? =
          some (text lineStart) := by simp
      have hrest := ih (before ++ [text lineStart])
        (log ++ [asciiLine total lineStart (text lineStart)])
      have hcount : before.length + 1 + starts.length =
          before.length + (starts.length + 1) := by omega
      rw [List.length_append, List.length_singleton, hcount] at hrest
      rw [List.foldlM_cons, printAscii, hline]
      simp only [Option.map_some, Option.bind_eq_bind, Option.bind_some]
      rw [List.map_cons, List.append_cons before, hrest, List.map_cons, List.append_assoc,
        List.singleton_append, List.length_cons]

end Loops

/-! ## Reading the dump -/

/-- A line of the dump. -/
structure DumpLine where
  offset : ℕ
  total : ℕ
  bytes : List Byte
  deriving DecidableEq, Repr

/-- Read the numbers of a header, and the rest of the line. -/
def readHeader : List Char → Option (ℕ × ℕ × List Char)
  | '|' :: text =>
      match (readNumber text).2 with
      | '/' :: text' =>
          match (readNumber text').2 with
          | '|' :: rest => some ((readNumber text).1, (readNumber text').1, rest)
          | _ => none
      | _ => none
  | _ => none

/-- Read a line of hexadecimal.  Lines that are none, of text or of anything else, are told
apart from it. -/
def readHexLine (text : List Char) : Option DumpLine :=
  match readHeader text with
  | some (offset, total, body) =>
      if body.getLast? = some '\n' then
        (readBytes ['0', 'x'] body.length body.dropLast).map fun bytes => ⟨offset, total, bytes⟩
      else none
  | none => none

/-- The bytes shown in a log. -/
def readLog (log : List (List Char)) : List Byte :=
  (log.filterMap readHexLine).flatMap DumpLine.bytes

/-- Text on the view, without its line ends. -/
def shownDigits (text : List Char) : List Char := text.filter fun c => c ≠ '\n' ∧ c ≠ '\r'

/-- Read what the view shows of a dump. -/
def readView (text : List Char) : Option (List Byte) :=
  readBytes [] (shownDigits text).length (shownDigits text)

theorem readHeader_lineHeader (offset total : ℕ) (rest : List Char) :
    readHeader (lineHeader offset total ++ rest) =
      some (offset % 2 ^ 32, total % 2 ^ 32, rest) := by
  have htext : lineHeader offset total ++ rest =
      '|' :: (padded 3 (offset % 2 ^ 32) ++ '/' :: (padded 3 (total % 2 ^ 32) ++ '|' :: rest)) := by
    simp [lineHeader]
  have hoffset := readNumber_padded 3 (offset % 2 ^ 32)
    ('/' :: (padded 3 (total % 2 ^ 32) ++ '|' :: rest)) rfl
  have htotal := readNumber_padded 3 (total % 2 ^ 32) ('|' :: rest) rfl
  rw [htext, readHeader, hoffset]
  simp only [htotal]

/-- A line of hexadecimal is read back. -/
theorem readHexLine_hexLine (total : ℕ) (bytes : List Byte) (lineStart : ℕ) :
    readHexLine (hexLine total bytes lineStart) =
      some ⟨lineStart % 2 ^ 32, total % 2 ^ 32, lineBytes bytes lineStart⟩ := by
  have hread : readBytes ['0', 'x']
      (writeBytes ['0', 'x'] (lineBytes bytes lineStart) ++ ['\n']).length
      (writeBytes ['0', 'x'] (lineBytes bytes lineStart)) = some (lineBytes bytes lineStart) := by
    apply readBytes_writeBytes
    rw [List.length_append, length_writeBytes]
    simp only [List.length_cons, List.length_nil]
    omega
  rw [readHexLine, hexLine, List.append_assoc, readHeader_lineHeader]
  simp only [List.getLast?_concat, if_true, List.dropLast_concat, hread, Option.map_some]

/-- A line of text is not taken for one of hexadecimal, whatever the text is. -/
theorem readHexLine_asciiLine (total lineStart : ℕ) (ascii : List Char) :
    readHexLine (asciiLine total lineStart ascii) = none := by
  have hbody : ascii ++ ['|', '\n'] = (ascii ++ ['|']) ++ ['\n'] := by simp
  have hread : ∀ fuel, readBytes ['0', 'x'] fuel (ascii ++ ['|']) = none := by
    intro fuel
    by_contra hsome
    obtain ⟨bytes, hbytes⟩ := Option.ne_none_iff_exists'.mp hsome
    rcases getLast?_of_readBytes hbytes with hnil | hlast
    · simp at hnil
    · simp at hlast
  rw [readHexLine, asciiLine, List.append_assoc, readHeader_lineHeader, hbody]
  simp only [List.getLast?_concat, if_true, List.dropLast_concat, hread, Option.map_none]

/-- Nor is a line that does not begin with a bar. -/
theorem readHexLine_of_ne {c : Char} (hc : c ≠ '|') (text : List Char) :
    readHexLine (c :: text) = none := by
  have hheader : readHeader (c :: text) = none := by
    unfold readHeader
    split
    · next heq => exact absurd (List.cons.inj heq).1 hc
    · rfl
  rw [readHexLine, hheader]

theorem readHexLine_of_mem_asciiLines {total : ℕ} {text : ℕ → List Char} {starts : List ℕ}
    {line : List Char}
    (h : line ∈ starts.map fun lineStart => asciiLine total lineStart (text lineStart)) :
    readHexLine line = none := by
  obtain ⟨lineStart, -, rfl⟩ := List.mem_map.mp h
  exact readHexLine_asciiLine total lineStart (text lineStart)

@[simp] theorem readLog_append (log log' : List (List Char)) :
    readLog (log ++ log') = readLog log ++ readLog log' := by
  simp [readLog]

theorem readLog_eq_nil {log : List (List Char)} (h : ∀ text ∈ log, readHexLine text = none) :
    readLog log = [] := by
  rw [readLog, List.filterMap_eq_nil_iff.mpr h, List.flatMap_nil]

/-- Reading lines of hexadecimal gives the bytes of the lines. -/
theorem readLog_hexLines (total : ℕ) (bytes : List Byte) (starts : List ℕ) :
    readLog (starts.map (hexLine total bytes)) = starts.flatMap (lineBytes bytes) := by
  induction starts with
  | nil => rfl
  | cons lineStart starts ih =>
      have hcons : readLog (hexLine total bytes lineStart :: starts.map (hexLine total bytes)) =
          lineBytes bytes lineStart ++ readLog (starts.map (hexLine total bytes)) := by
        simp [readLog, readHexLine_hexLine]
      rw [List.map_cons, hcons, ih, List.flatMap_cons]

/-! ## The dump -/

/-- The lines of a batch are its bytes. -/
theorem flatMap_lines (bytes : List Byte) :
    (lineStarts bytes.length bytes.length 0).flatMap (lineBytes bytes) = bytes :=
  flatMap_lineBytes (by omega)

theorem readLog_dump (total : ℕ) (bytes : List Byte) (text : ℕ → List Char) :
    let starts := lineStarts bytes.length bytes.length 0
    readLog (starts.map (hexLine total bytes) ++
      starts.map fun lineStart => asciiLine total lineStart (text lineStart)) = bytes := by
  intro starts
  have hascii : readLog (starts.map fun lineStart =>
      asciiLine total lineStart (text lineStart)) = [] := by
    apply readLog_eq_nil
    intro line hline
    exact readHexLine_of_mem_asciiLines hline
  rw [readLog_append, hascii, List.append_nil, readLog_hexLines, flatMap_lines]

/-- What `flush_received` shows of a batch that is not empty. -/
theorem flushReceived_eq (m : Monitor) (hne : m.receiveBytes ≠ []) :
    let starts := lineStarts m.receiveBytes.length m.receiveBytes.length 0
    ∃ view : LogView,
      flushReceived m = some
        { m with
          receiveBytes := []
          log := m.log ++ starts.map (hexLine m.receiveBatchTotal m.receiveBytes) ++
            starts.map fun lineStart => asciiLine m.receiveBatchTotal lineStart
              ((lineBytes m.receiveBytes lineStart).map asciiChar)
          view := view } ∧
      view.printed = m.view.printed ++ (starts.flatMap fun lineStart =>
        writeBytes [] (lineBytes m.receiveBytes lineStart) ++ ['\r', '\n']) ∧
      (m.view.Fresh → view.Fresh) := by
  intro starts
  let shown := starts.foldl (showHex m.receiveBatchTotal m.receiveBytes) (m.log, m.view, [])
  obtain ⟨hlog, hprinted, hfresh, hascii⟩ : shown.1 =
      m.log ++ starts.map (hexLine m.receiveBatchTotal m.receiveBytes) ∧ _ ∧ _ ∧
        shown.2.2 = [] ++ starts.map fun lineStart =>
          (lineBytes m.receiveBytes lineStart).map asciiChar :=
    foldl_showHex starts m.log m.view []
  have hprint := printAscii_lines m.receiveBatchTotal
    (fun lineStart => (lineBytes m.receiveBytes lineStart).map asciiChar) starts [] shown.1
  rw [← hascii, List.length_nil, Nat.zero_add, hlog] at hprint
  refine ⟨shown.2.1, ?_, hprinted, hfresh⟩
  have hsome : flushReceived m =
      (starts.foldlM (printAscii m.receiveBatchTotal shown.2.2) (shown.1, 0)).map fun printed =>
        { m with receiveBytes := [], log := printed.1, view := shown.2.1 } :=
    if_neg (by simpa using hne)
  rw [hsome, hlog, hprint]
  rfl

/-- The hexadecimal text of the lines is that of the bytes. -/
theorem flatMap_writeBytes {bytes : List Byte} {starts : List ℕ}
    (h : starts.flatMap (lineBytes bytes) = bytes) :
    shownDigits (starts.flatMap fun lineStart =>
      writeBytes [] (lineBytes bytes lineStart) ++ ['\r', '\n']) = writeBytes [] bytes := by
  have hline : ∀ lineStart, (writeBytes [] (lineBytes bytes lineStart) ++ ['\r', '\n']).filter
      (fun c => c ≠ '\n' ∧ c ≠ '\r') = writeBytes [] (lineBytes bytes lineStart) := by
    intro lineStart
    rw [List.filter_append, List.filter_eq_self.mpr]
    · simp
    · intro c hc
      simpa using not_lineEnd_of_mem (by simp) hc
  rw [shownDigits, List.filter_flatMap]
  simp only [hline]
  calc (starts.flatMap fun lineStart => writeBytes [] (lineBytes bytes lineStart))
      = writeBytes [] (starts.flatMap (lineBytes bytes)) := by
        simp only [writeBytes, List.flatMap_assoc]
    _ = writeBytes [] bytes := by rw [h]

/-- The hexadecimal text of bytes reads back. -/
theorem readView_of_shownDigits {text : List Char} {bytes : List Byte}
    (h : shownDigits text = writeBytes [] bytes) : readView text = some bytes := by
  have hlength : bytes.length ≤ (writeBytes [] bytes).length := by
    rw [length_writeBytes, List.length_nil]
    omega
  rw [readView, h]
  exact readBytes_writeBytes [] bytes hlength

/-- The monitor goes on and shows `bytes`, in the log and on the view.  The lines that join the
log begin with a bar. -/
structure Monitor.Shows (m : Monitor) (bytes : List Byte) (m' : Monitor) : Prop where
  log : ∃ lines, m'.log = m.log ++ lines ∧ readLog lines = bytes ∧
    ∀ line ∈ lines, line.head? = some '|'
  printed : ∃ text, m'.view.printed = m.view.printed ++ text ∧
    shownDigits text = writeBytes [] bytes
  fresh : m.view.Fresh → m'.view.Fresh

theorem Monitor.shows_nil (m : Monitor) : m.Shows [] m :=
  ⟨⟨[], by simp, rfl, by simp⟩, ⟨[], by simp, rfl⟩, id⟩

/-- `flush_received` shows the batch. -/
theorem flushReceived_shows (m : Monitor) :
    ∃ m', flushReceived m = some m' ∧ m'.receiveBytes = [] ∧ m.Shows m.receiveBytes m' := by
  by_cases hne : m.receiveBytes = []
  · refine ⟨m, by simp [flushReceived, hne], hne, ?_⟩
    rw [hne]
    exact m.shows_nil
  · obtain ⟨view, hflush, hprinted, hfresh⟩ := flushReceived_eq m hne
    refine ⟨_, hflush, rfl, ⟨_, List.append_assoc .., ?_, ?_⟩, ⟨_, hprinted, ?_⟩, hfresh⟩
    · exact readLog_dump m.receiveBatchTotal m.receiveBytes _
    · intro line hline
      rcases List.mem_append.mp hline with hline | hline
      · obtain ⟨lineStart, -, rfl⟩ := List.mem_map.mp hline
        rfl
      · obtain ⟨lineStart, -, rfl⟩ := List.mem_map.mp hline
        rfl
    · exact flatMap_writeBytes (flatMap_lines m.receiveBytes)

/-- **The dump reads back.**  `flush_received` never looks for a line of text that is not there,
and empties the batch.  It prints as many lines of hexadecimal as lines of text.  Reading the log
gives back the bytes of the batch, and so does reading what it prints on the view; the `i`-th line
of hexadecimal has the offset `16 * i` and between one and sixteen bytes, and the `i`-th line of
text has the same header and shows the same bytes.  No line of text reads as one of
hexadecimal. -/
theorem dump_reads_back (m : Monitor) :
    ∃ (m' : Monitor) (hex ascii : List (List Char)) (shown : List Char),
      flushReceived m = some m' ∧ m'.receiveBytes = [] ∧ m'.log = m.log ++ hex ++ ascii ∧
      m'.view.printed = m.view.printed ++ shown ∧ hex.length = ascii.length ∧
      readLog (hex ++ ascii) = m.receiveBytes ∧ readView shown = some m.receiveBytes ∧
      (∀ text ∈ ascii, readHexLine text = none) ∧
      ∀ (i : ℕ) (text : List Char), hex[i]? = some text →
        ∃ line, readHexLine text = some line ∧ line.offset = 16 * i % 2 ^ 32 ∧
          line.total = m.receiveBatchTotal % 2 ^ 32 ∧
          0 < line.bytes.length ∧ line.bytes.length ≤ 16 ∧
          ascii[i]? = some (lineHeader (16 * i) m.receiveBatchTotal ++
            line.bytes.map asciiChar ++ ['|', '\n']) := by
  by_cases hne : m.receiveBytes = []
  · refine ⟨m, [], [], [], ?_, hne, by simp, by simp, rfl, ?_, ?_, by simp, by simp⟩
    · simp [flushReceived, hne]
    · simp [readLog, hne]
    · simp [readView, shownDigits, readBytes, hne]
  · let starts := lineStarts m.receiveBytes.length m.receiveBytes.length 0
    obtain ⟨view, hflush, hprinted, -⟩ := flushReceived_eq m hne
    refine ⟨_, starts.map (hexLine m.receiveBatchTotal m.receiveBytes), _, _, hflush, rfl, rfl,
      hprinted, ?_, readLog_dump m.receiveBatchTotal m.receiveBytes _, ?_, ?_, ?_⟩
    · rw [List.length_map, List.length_map]
    · exact readView_of_shownDigits (flatMap_writeBytes (flatMap_lines m.receiveBytes))
    · intro text htext
      exact readHexLine_of_mem_asciiLines htext
    · intro i text htext
      rw [List.getElem?_map] at htext
      obtain ⟨lineStart, hstart, rfl⟩ := Option.map_eq_some_iff.mp htext
      have hoffset : lineStart = 0 + 16 * i := getElem?_lineStarts hstart
      rw [Nat.zero_add] at hoffset
      have hless : lineStart < m.receiveBytes.length :=
        lt_of_mem_lineStarts (List.mem_of_getElem? hstart)
      have hcount : (lineBytes m.receiveBytes lineStart).length =
          min 16 (m.receiveBytes.length - lineStart) := by
        rw [lineBytes_eq, List.length_take, List.length_drop]
      refine ⟨_, readHexLine_hexLine m.receiveBatchTotal m.receiveBytes lineStart,
        by rw [hoffset], rfl, ?_, ?_, ?_⟩
      · dsimp only
        omega
      · dsimp only
        omega
      · rw [List.getElem?_map, hstart, ← hoffset]
        rfl

example :
    let m : Monitor := ⟨[0x41, 0x7C, 0x0A], 3, [], ⟨[], [], false⟩⟩
    (flushReceived m).map Monitor.log =
      some ["|000/003|0x41 0x7C 0x0A \n".toList, "|000/003|A|.|\n".toList] := by
  decide

end RS485
