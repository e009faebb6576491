import Mathlib.Data.BitVec
import Mathlib.Data.List.Basic
import Mathlib.Tactic.Common

/-!
# Numbers in text

What `printf` writes for `%02X` and `%03u`, and a reader for each that gives the number back
and the rest of the text.  Bytes are written one after the other, each with a fixed text before
its two digits and a blank behind them, and `readBytes` reads them back up to the end of the
text.  A text it accepts is empty or ends in that blank (`getLast?_of_readBytes`), so one that
ends in anything else is not mistaken for bytes.
-/

namespace Text

/-! ## Hexadecimal -/

/-- The digit that `%X` writes. -/
def hexDigit (n : ℕ) : Char :=
  if n < 10 then Char.ofNat (0x30 + n) else Char.ofNat (0x37 + n)

def hexVal (c : Char) : Option ℕ :=
  if 0x30 ≤ c.toNat ∧ c.toNat ≤ 0x39 then some (c.toNat - 0x30)
  else if 0x41 ≤ c.toNat ∧ c.toNat ≤ 0x46 then some (c.toNat - 0x37)
  else none

theorem hexVal_hexDigit : ∀ n < 16, hexVal (hexDigit n) = some n := by
  decide

/-- `%02X` -/
def hexByte (b : BitVec 8) : List Char := [hexDigit (b.toNat / 16), hexDigit (b.toNat % 16)]

/-- Bytes, each as `lead`, its two digits and a blank. -/
def writeBytes (lead : List Char) (bytes : List (BitVec 8)) : List Char :=
  bytes.flatMap fun b => lead ++ hexByte b ++ [' ']

theorem writeBytes_append (lead : List Char) (bytes bytes' : List (BitVec 8)) :
    writeBytes lead (bytes ++ bytes') = writeBytes lead bytes ++ writeBytes lead bytes' :=
  List.flatMap_append ..

/-- What occurs in it. -/
theorem mem_writeBytes {lead : List Char} {bytes : List (BitVec 8)} {c : Char}
    (hc : c ∈ writeBytes lead bytes) : c ∈ lead ∨ c = ' ' ∨ ∃ n < 16, c = hexDigit n := by
  obtain ⟨b, -, hc⟩ := List.mem_flatMap.mp hc
  simp only [hexByte, List.mem_append, List.mem_cons, List.not_mem_nil, or_false] at hc
  rcases hc with (hlead | hhigh | hlow) | hblank
  · exact Or.inl hlead
  · exact Or.inr (Or.inr ⟨_, by omega, hhigh⟩)
  · exact Or.inr (Or.inr ⟨_, by omega, hlow⟩)
  · exact Or.inr (Or.inl hblank)

theorem length_writeBytes (lead : List Char) (bytes : List (BitVec 8)) :
    (writeBytes lead bytes).length = bytes.length * (lead.length + 3) := by
  induction bytes with
  | nil => simp [writeBytes]
  | cons b bytes ih =>
      have hcons : writeBytes lead (b :: bytes) =
          lead ++ hexByte b ++ [' '] ++ writeBytes lead bytes := by simp [writeBytes]
      rw [hcons, List.length_append, ih]
      simp only [hexByte, List.length_append, List.length_cons, List.length_nil, Nat.add_mul]
      omega

/-- Read one byte written so. -/
def readByte (lead text : List Char) : Option (BitVec 8 × List Char) :=
  match text.dropPrefix? lead with
  | some (high :: low :: ' ' :: rest) =>
      match hexVal high, hexVal low with
      | some h, some l => some (BitVec.ofNat 8 (16 * h + l), rest)
      | _, _ => none
  | _ => none

/-- Read bytes up to the end of the text, at most `fuel` of them. -/
def readBytes (lead : List Char) : (fuel : ℕ) → List Char → Option (List (BitVec 8))
  | _, [] => some []
  | 0, _ => none
  | fuel + 1, text =>
      match readByte lead text with
      | some (b, rest) => (readBytes lead fuel rest).map (b :: ·)
      | none => none

theorem readByte_append (lead : List Char) (b : BitVec 8) (rest : List Char) :
    readByte lead (lead ++ hexByte b ++ [' '] ++ rest) = some (b, rest) := by
  have hdrop : (lead ++ hexByte b ++ [' '] ++ rest).dropPrefix? lead =
      some (hexDigit (b.toNat / 16) :: hexDigit (b.toNat % 16) :: ' ' :: rest) :=
    List.dropPrefix?_eq_some_iff.mpr ⟨lead, by simp [hexByte], by simp⟩
  have hhigh : hexVal (hexDigit (b.toNat / 16)) = some (b.toNat / 16) :=
    hexVal_hexDigit _ (by omega)
  have hlow : hexVal (hexDigit (b.toNat % 16)) = some (b.toNat % 16) :=
    hexVal_hexDigit _ (by omega)
  have hb : BitVec.ofNat 8 (16 * (b.toNat / 16) + b.toNat % 16) = b := by
    rw [Nat.div_add_mod, BitVec.ofNat_toNat, BitVec.setWidth_eq]
  simp only [readByte, hdrop, hhigh, hlow, hb]

theorem readBytes_succ {lead text : List Char} (h : text ≠ []) (fuel : ℕ) :
    readBytes lead (fuel + 1) text =
      match readByte lead text with
      | some (b, rest) => (readBytes lead fuel rest).map (b :: ·)
      | none => none := by
  cases text with
  | nil => exact absurd rfl h
  | cons c text => rfl

/-- **Reading** gives back the bytes that were written. -/
theorem readBytes_writeBytes (lead : List Char) (bytes : List (BitVec 8)) {fuel : ℕ}
    (hfuel : bytes.length ≤ fuel) : readBytes lead fuel (writeBytes lead bytes) = some bytes := by
  induction bytes generalizing fuel with
  | nil => simp [writeBytes, readBytes]
  | cons b bytes ih =>
      cases fuel with
      | zero => simp at hfuel
      | succ fuel =>
          have hrest : readBytes lead fuel (writeBytes lead bytes) = some bytes :=
            ih (by simpa using hfuel)
          have hcons : writeBytes lead (b :: bytes) =
              lead ++ hexByte b ++ [' '] ++ writeBytes lead bytes := by
            simp [writeBytes]
          have hne : writeBytes lead (b :: bytes) ≠ [] := by simp [hcons]
          rw [readBytes_succ hne, hcons, readByte_append]
          simp only [hrest, Option.map_some]

theorem readByte_eq_some {lead text rest : List Char} {b : BitVec 8}
    (h : readByte lead text = some (b, rest)) :
    ∃ before, text = before ++ ' ' :: rest := by
  unfold readByte at h
  split at h
  · next high low rest' hdrop =>
    obtain ⟨lead', htext, -⟩ := List.dropPrefix?_eq_some_iff.mp hdrop
    have hrest : rest' = rest := by
      split at h
      · simp only [Option.some.injEq, Prod.mk.injEq] at h
        exact h.2
      · cases h
    exact ⟨lead' ++ [high, low], by simp [htext, hrest]⟩
  · cases h

/-- A text of bytes is empty or ends in a blank. -/
theorem getLast?_of_readBytes {lead : List Char} {fuel : ℕ} {text : List Char}
    {bytes : List (BitVec 8)} (h : readBytes lead fuel text = some bytes) :
    text = [] ∨ text.getLast? = some ' ' := by
  induction fuel generalizing text bytes with
  | zero =>
      cases text with
      | nil => exact Or.inl rfl
      | cons c text => cases h
  | succ fuel ih =>
      by_cases hne : text = []
      · exact Or.inl hne
      · rw [readBytes_succ hne] at h
        split at h
        · next b rest hbyte =>
          obtain ⟨before, rfl⟩ := readByte_eq_some hbyte
          obtain ⟨bytes', hbytes, -⟩ := Option.map_eq_some_iff.mp h
          right
          rcases ih hbytes with rfl | hlast
          · simp
          · simp [List.getLast?_append, List.getLast?_cons, hlast]
        · cases h

/-! ## Decimal -/

/-- `%0*u` with a width. -/
def padded (width n : ℕ) : List Char :=
  List.replicate (width - (Nat.toDigits 10 n).length) '0' ++ Nat.toDigits 10 n

/-- Read the digits the text begins with. -/
def readNumber (text : List Char) : ℕ × List Char :=
  (Nat.ofDigitChars 10 (text.takeWhile Char.isDigit) 0, text.dropWhile Char.isDigit)

theorem isDigit_of_mem_padded {width n : ℕ} {c : Char} (hc : c ∈ padded width n) :
    c.isDigit = true := by
  rcases List.mem_append.mp hc with hc | hc
  · rw [List.eq_of_mem_replicate hc]
    rfl
  · exact Nat.isDigit_of_mem_toDigits (by decide) le_rfl hc

/-- The number is read back, if no digit follows it. -/
theorem readNumber_padded (width n : ℕ) (rest : List Char)
    (hrest : rest.takeWhile Char.isDigit = []) :
    readNumber (padded width n ++ rest) = (n, rest) := by
  have hdigits : ∀ c ∈ padded width n, c.isDigit = true := fun c hc => isDigit_of_mem_padded hc
  have hvalue : Nat.ofDigitChars 10 (padded width n) 0 = n := by
    rw [padded, Nat.ofDigitChars_append, Nat.ofDigitChars_replicate_zero, Nat.mul_zero,
      Nat.ofDigitChars_ten_toDigits]
  have hdrop : rest.dropWhile Char.isDigit = rest := by
    have happend := List.takeWhile_append_dropWhile (p := Char.isDigit) (l := rest)
    rwa [hrest, List.nil_append] at happend
  simp only [readNumber, List.takeWhile_append_of_pos hdigits,
    List.dropWhile_append_of_pos hdigits, hrest, hdrop, List.append_nil, hvalue]

end Text
