import Mathlib.Data.BitVec

/-!
# Milliseconds to ticks

The conversion of `rs485_tick_math.hpp`, on the machine words the code computes with: two
32-bit arguments, a 64-bit product and quotient, and a tick type of `w` bits.

`exactTicks` is what it is for, over the natural numbers: the quotient rounded down, but at
least one tick for a timeout that is not zero, and always below "block forever".  The words
are wide enough for the code to compute just that (`toNat_ticksFromMs`), so its bounds and its
monotonicity are those of `exactTicks`.
-/

namespace RS485

/-- `rs485::detail::ticks_from_ms<Tick>`, for a tick type of `w` bits. -/
def ticksFromMs {w : ℕ} (timeoutMs tickRateHz : BitVec 32) (maxDelay : BitVec w) : BitVec w :=
  let ticks : BitVec 64 := timeoutMs.setWidth 64 * tickRateHz.setWidth 64 / 1000
  if ticks = 0 then
    if 0 < timeoutMs then 1 else 0
  else if maxDelay.setWidth 64 ≤ ticks then
    maxDelay - 1
  else
    ticks.setWidth w

example : ticksFromMs 5 100 (0xFFFF : BitVec 16) = 1 := by decide
example : ticksFromMs 700000 100 (0xFFFF : BitVec 16) = 0xFFFE := by decide

/-! ## The conversion over the natural numbers -/

/-- A timeout in ticks.  Only the timeout zero is no wait at all, and no timeout is the wait
`maxDelay` without end. -/
def exactTicks (timeoutMs tickRateHz maxDelay : ℕ) : ℕ :=
  if timeoutMs = 0 then 0 else max 1 (min (timeoutMs * tickRateHz / 1000) (maxDelay - 1))

section Exact

variable {timeoutMs tickRateHz maxDelay : ℕ}

theorem exactTicks_eq_zero_iff : exactTicks timeoutMs tickRateHz maxDelay = 0 ↔ timeoutMs = 0 := by
  unfold exactTicks
  split
  · simpa
  · omega

theorem exactTicks_lt (hmax : 2 ≤ maxDelay) :
    exactTicks timeoutMs tickRateHz maxDelay < maxDelay := by
  unfold exactTicks
  split
  · omega
  · omega

/-- A longer timeout or a faster clock never makes for a shorter wait. -/
theorem exactTicks_mono {timeoutMs' tickRateHz' : ℕ} (htimeout : timeoutMs ≤ timeoutMs')
    (hrate : tickRateHz ≤ tickRateHz') :
    exactTicks timeoutMs tickRateHz maxDelay ≤ exactTicks timeoutMs' tickRateHz' maxDelay := by
  unfold exactTicks
  by_cases hzero : timeoutMs = 0
  · rw [if_pos hzero]
    exact Nat.zero_le _
  · have hzero' : timeoutMs' ≠ 0 := by omega
    have hquotient : timeoutMs * tickRateHz / 1000 ≤ timeoutMs' * tickRateHz' / 1000 :=
      Nat.div_le_div_right (Nat.mul_le_mul htimeout hrate)
    rw [if_neg hzero, if_neg hzero']
    omega

/-- Below the saturation the wait falls short of the timeout by less than one tick. -/
theorem lt_succ_exactTicks (hmax : 2 ≤ maxDelay)
    (hsaturated : exactTicks timeoutMs tickRateHz maxDelay ≠ maxDelay - 1) :
    timeoutMs * tickRateHz < 1000 * (exactTicks timeoutMs tickRateHz maxDelay + 1) := by
  unfold exactTicks at hsaturated ⊢
  by_cases hzero : timeoutMs = 0
  · simp [hzero]
  · rw [if_neg hzero] at hsaturated ⊢
    omega

end Exact

/-! ## The words are wide enough -/

section Words

variable (timeoutMs tickRateHz : BitVec 32)

/-- The product of the two 32-bit arguments fits in 64 bits. -/
theorem toNat_mul_setWidth :
    (timeoutMs.setWidth 64 * tickRateHz.setWidth 64).toNat =
      timeoutMs.toNat * tickRateHz.toNat := by
  have hlt : timeoutMs.toNat * tickRateHz.toNat < 2 ^ 64 := calc
    timeoutMs.toNat * tickRateHz.toNat < 2 ^ 32 * 2 ^ 32 :=
      Nat.mul_lt_mul'' timeoutMs.isLt tickRateHz.isLt
    _ = 2 ^ 64 := rfl
  rw [BitVec.toNat_mul, BitVec.toNat_setWidth_of_le (by omega),
    BitVec.toNat_setWidth_of_le (by omega), Nat.mod_eq_of_lt hlt]

theorem toNat_quotient :
    (timeoutMs.setWidth 64 * tickRateHz.setWidth 64 / 1000 : BitVec 64).toNat =
      timeoutMs.toNat * tickRateHz.toNat / 1000 := by
  rw [BitVec.toNat_udiv, toNat_mul_setWidth]
  rfl

variable {w : ℕ} {maxDelay : BitVec w}

theorem toNat_one_of_two_le (hmax : 2 ≤ maxDelay.toNat) : (1 : BitVec w).toNat = 1 := by
  apply BitVec.toNat_one
  apply Nat.pos_of_ne_zero
  rintro rfl
  have hlt : maxDelay.toNat < 2 ^ 0 := maxDelay.isLt
  omega

theorem toNat_sub_one (hmax : 2 ≤ maxDelay.toNat) :
    (maxDelay - 1).toNat = maxDelay.toNat - 1 := by
  have hone : (1 : BitVec w).toNat = 1 := toNat_one_of_two_le hmax
  have hle : 1 ≤ maxDelay := by
    rw [BitVec.le_def, hone]
    omega
  rw [BitVec.toNat_sub_of_le hle, hone]

/-- A quotient below `maxDelay` fits in the tick type. -/
theorem toNat_setWidth_of_lt {ticks : BitVec 64} (hlt : ticks.toNat < maxDelay.toNat) :
    (ticks.setWidth w).toNat = ticks.toNat := by
  rw [BitVec.toNat_setWidth]
  exact Nat.mod_eq_of_lt (hlt.trans maxDelay.isLt)

/-- **The code computes the exact conversion**, for every tick type of at most 64 bits. -/
theorem toNat_ticksFromMs (hw : w ≤ 64) (hmax : 2 ≤ maxDelay.toNat) :
    (ticksFromMs timeoutMs tickRateHz maxDelay).toNat =
      exactTicks timeoutMs.toNat tickRateHz.toNat maxDelay.toNat := by
  have hquotient := toNat_quotient timeoutMs tickRateHz
  unfold ticksFromMs exactTicks
  dsimp only
  generalize timeoutMs.setWidth 64 * tickRateHz.setWidth 64 / 1000 = ticks at hquotient ⊢
  rw [← hquotient]
  by_cases hticks : ticks = 0
  · -- the floor: less than one tick is one tick, unless it is no time at all
    subst hticks
    rw [if_pos rfl]
    by_cases hzero : timeoutMs.toNat = 0
    · have hnot : ¬ 0 < timeoutMs := by simp [BitVec.lt_def, hzero]
      rw [if_neg hnot, if_pos hzero]
      rfl
    · have hpos : 0 < timeoutMs := by
        rw [BitVec.lt_def]
        exact Nat.pos_of_ne_zero hzero
      rw [if_pos hpos, if_neg hzero, toNat_one_of_two_le hmax]
      rfl
  · have hpos : 0 < ticks.toNat := by
      apply Nat.pos_of_ne_zero
      intro hzero
      exact hticks (BitVec.eq_of_toNat_eq hzero)
    have hzero : timeoutMs.toNat ≠ 0 := by
      intro hzero
      rw [hzero] at hquotient
      omega
    have hle : maxDelay.setWidth 64 ≤ ticks ↔ maxDelay.toNat ≤ ticks.toNat := by
      rw [BitVec.le_def, BitVec.toNat_setWidth_of_le hw]
    rw [if_neg hticks, if_neg hzero]
    by_cases hsaturated : maxDelay.toNat ≤ ticks.toNat
    · rw [if_pos (hle.mpr hsaturated), toNat_sub_one hmax]
      omega
    · have hlt : ticks.toNat < maxDelay.toNat := by omega
      rw [if_neg (fun h => hsaturated (hle.mp h)), toNat_setWidth_of_lt hlt]
      omega

end Words

end RS485
