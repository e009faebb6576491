import RS485.Driver
import RS485.Lib.ByteOrder

/-!
# Trivially copyable values

The values `writeValue` and `readValue` carry.  A value of a scalar type is its bits; an
aggregate is its object representation, the bytes `memcpy` copies.  How a value lies in
memory depends on the host for scalars and not for aggregates, whose layout and byte order
the two ends of a link have to share anyway.

`byteswapIfNeeded` is dispatched on the type as in the source: scalars go to
`m5::stl::byteswap_value`, aggregates come back as they are.
-/

namespace RS485

open ByteOrder

/-- The integral and enumeration types of one, two, four and eight bytes, and the two
floating-point types. -/
inductive ScalarType
  | integral8 | integral16 | integral32 | integral64
  | enum8 | enum16 | enum32 | enum64
  | float32 | float64
  deriving DecidableEq, Repr

/-- `sizeof` -/
def ScalarType.size : ScalarType → ℕ
  | .integral8 | .enum8 => 1
  | .integral16 | .enum16 => 2
  | .integral32 | .enum32 | .float32 => 4
  | .integral64 | .enum64 | .float64 => 8

/-- A type `readValue` and `writeValue` accept.  An aggregate is known by its size, which the
code asserts to be at most 256, and by the object representation of `T{}`. -/
inductive ValueType
  | scalar (type : ScalarType)
  | aggregate (size : ℕ) (fits : 0 < size ∧ size ≤ 256)
      (init : { image : List Byte // image.length = size })

namespace ValueType

/-- `sizeof(T)` -/
def size : ValueType → ℕ
  | .scalar t => t.size
  | .aggregate n _ _ => n

/-- The values of a type. -/
def Carrier : ValueType → Type
  | .scalar t => BitVec (8 * t.size)
  | .aggregate n _ _ => { image : List Byte // image.length = n }

/-- `T{}` -/
def init : (T : ValueType) → T.Carrier
  | .scalar _ => (0 : BitVec _)
  | .aggregate _ _ image => image

theorem size_pos (T : ValueType) : 0 < T.size := by
  cases T with
  | scalar t => cases t <;> decide
  | aggregate n fits image => exact fits.1

theorem size_le (T : ValueType) : T.size ≤ 256 := by
  cases T with
  | scalar t => cases t <;> decide
  | aggregate n fits image => exact fits.2

end ValueType

/-- A value together with its type. -/
structure TypedValue where
  type : ValueType
  val : type.Carrier

/-! ## Values in memory -/

/-- The bytes of an object in the memory of the host. -/
def objectBytes (pf : Platform) : (T : ValueType) → T.Carrier → List Byte
  | .scalar t, v => toBytes pf.littleEndian (n := t.size) v
  | .aggregate _ _ _, image => image.val

/-- The object whose bytes are copied from a buffer of `sizeof(T)` bytes. -/
def objectOfBytes (pf : Platform) : (T : ValueType) → List Byte → T.Carrier
  | .scalar t, bytes => ofBytes pf.littleEndian t.size bytes
  | .aggregate n _ init, bytes => if h : bytes.length = n then ⟨bytes, h⟩ else init

@[simp] theorem length_objectBytes (pf : Platform) (T : ValueType) (v : T.Carrier) :
    (objectBytes pf T v).length = T.size := by
  cases T with
  | scalar t => exact length_toBytes pf.littleEndian (n := t.size) v
  | aggregate n fits init => exact v.2

@[simp] theorem objectOfBytes_objectBytes (pf : Platform) (T : ValueType) (v : T.Carrier) :
    objectOfBytes pf T (objectBytes pf T v) = v := by
  cases T with
  | scalar t => exact ofBytes_toBytes pf.littleEndian (n := t.size) v
  | aggregate n fits init => exact dif_pos v.2

/-! ## Swapping -/

/-- `RS485Component::byteswap_if_needed`, both implementations behind its tag dispatch. -/
def byteswapIfNeeded (pf : Platform) : (T : ValueType) → T.Carrier → T.Carrier
  | .scalar t, v => pf.byteswapValue t.size v
  | .aggregate _ _ _, image => image

/-- What the library relies on `m5::stl::byteswap_value` for: it reverses the bytes of a
value. -/
def Platform.SwapsBytes (pf : Platform) : Prop :=
  ∀ (t : ScalarType) (v : BitVec (8 * t.size)),
    toBytesLE (pf.byteswapValue t.size v) = (toBytesLE v).reverse

/-- An ESP32 under ESP-IDF. -/
def Platform.esp32 : Platform where
  framework := .espIdf
  gpioNumMax := 40
  uartNumMax := 3
  uartFifoLen := 128
  uartFifoLen_pos := by decide
  tickBits := 32
  tickRateHz := 100
  portMaxDelay := 0xFFFFFFFF
  littleEndian := true
  byteswapValue n v := ofBytesLE n (toBytesLE v).reverse
  moveAdapter ad := (ad, none)

theorem Platform.esp32_swapsBytes : Platform.esp32.SwapsBytes :=
  fun _ _ => toBytesLE_ofBytesLE (by simp)

/-- The bytes a value has on the wire.  A scalar is sent in the declared byte order, whatever
the host; an aggregate is sent as it lies in memory. -/
def wireImage (littleEndian : Bool) : (T : ValueType) → T.Carrier → List Byte
  | .scalar t, v => toBytes littleEndian (n := t.size) v
  | .aggregate _ _ _, image => image.val

@[simp] theorem length_wireImage (littleEndian : Bool) (T : ValueType) (v : T.Carrier) :
    (wireImage littleEndian T v).length = T.size := by
  cases T with
  | scalar t => exact length_toBytes littleEndian (n := t.size) v
  | aggregate n fits init => exact v.2

/-- The wire image determines the value, and any bytes of the right number are one. -/
theorem existsUnique_wireImage (littleEndian : Bool) (T : ValueType) {bytes : List Byte}
    (h : bytes.length = T.size) : ∃! v, wireImage littleEndian T v = bytes := by
  cases T with
  | scalar t =>
      refine ⟨ofBytes littleEndian t.size bytes, toBytes_ofBytes littleEndian h, ?_⟩
      rintro v rfl
      exact (ofBytes_toBytes littleEndian (n := t.size) v).symm
  | aggregate n fits init =>
      refine ⟨⟨bytes, h⟩, rfl, ?_⟩
      intro v hv
      exact Subtype.ext hv

/-- The encoder's swap decision yields the wire image on every host. -/
theorem objectBytes_swap (pf : Platform) (hswap : pf.SwapsBytes) (littleEndian : Bool)
    (T : ValueType) (v : T.Carrier) :
    objectBytes pf T (if littleEndian ≠ pf.littleEndian then byteswapIfNeeded pf T v else v) =
      wireImage littleEndian T v := by
  cases T with
  | scalar t =>
      by_cases hflag : littleEndian = pf.littleEndian
      · rw [if_neg (not_not.mpr hflag), hflag]
        rfl
      · have hnot : (!pf.littleEndian) = littleEndian := by
          cases hhost : pf.littleEndian <;> cases littleEndian <;> simp_all
        rw [if_pos hflag]
        exact (toBytes_swap (hswap t) pf.littleEndian v).trans (by rw [hnot]; rfl)
  | aggregate n fits init =>
      split <;> rfl

/-- The decoder's swap decision undoes it, on every host. -/
theorem swap_objectOfBytes (pf : Platform) (hswap : pf.SwapsBytes) (littleEndian : Bool)
    (T : ValueType) (v : T.Carrier) :
    (if littleEndian ≠ pf.littleEndian then
      byteswapIfNeeded pf T (objectOfBytes pf T (wireImage littleEndian T v))
    else objectOfBytes pf T (wireImage littleEndian T v)) = v := by
  rw [← objectBytes_swap pf hswap, objectOfBytes_objectBytes]
  by_cases hflag : littleEndian = pf.littleEndian
  · rw [if_neg (not_not.mpr hflag), if_neg (not_not.mpr hflag)]
  · rw [if_pos hflag, if_pos hflag]
    cases T with
    | scalar t => exact swap_swap (hswap t) v
    | aggregate n fits init => rfl

end RS485
