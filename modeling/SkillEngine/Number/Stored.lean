/-!
# Floats at rest

Authored data keeps a float as its bit pattern, so that reading and writing lose nothing, a NaN's
payload included. `Single` and `Double` are the two widths. `narrow` and `widen` convert between
the widths: narrowing rounds to the nearest float with ties to even, widening is exact.
-/

namespace SkillEngine.Number

/-- A single-precision constant, kept bit for bit. -/
structure Single where
  /-- The bit pattern. -/
  bits : UInt32
  deriving DecidableEq, Inhabited

/-- A double-precision constant, kept bit for bit. -/
structure Double where
  /-- The bit pattern. -/
  bits : UInt64
  deriving DecidableEq, Inhabited

/-- The float that a stored constant stands for. -/
def Single.value (stored : Single) : Float32 := Float32.ofBits stored.bits

/-- The stored form of a float. -/
def Single.ofValue (value : Float32) : Single := ⟨value.toBits⟩

/-- The float that a stored constant stands for. -/
def Double.value (stored : Double) : Float := Float.ofBits stored.bits

/-- The stored form of a float. -/
def Double.ofValue (value : Float) : Double := ⟨value.toBits⟩

/-- The stored zero. -/
def Single.zero : Single := ⟨0⟩

/-- The stored one. -/
def Single.one : Single := ⟨0x3f800000⟩

/-- A finite stored constant is neither infinite nor a NaN. -/
def Single.isFinite (stored : Single) : Bool := (stored.bits >>> 23) &&& 0xff != 0xff

/-- A finite stored constant is neither infinite nor a NaN. -/
def Double.isFinite (stored : Double) : Bool := (stored.bits >>> 52) &&& 0x7ff != 0x7ff

/-- A float rounded from double to single precision. -/
def narrow (value : Float) : Float32 :=
  let format := Float.Model.Format.binary32
  match Float.Model.UnpackedFloat.unpack Float.Model.Format.binary64 value.toBits.toBitVec with
  | .finite sign mantissa exponent _ =>
    let rounded := Float.Model.UnpackedFloat.round format sign mantissa exponent
    Float32.ofBits ⟨Float.Model.UnpackedFloat.pack format rounded⟩
  | other => Float32.ofBits ⟨Float.Model.UnpackedFloat.pack format other⟩

/-- A float of single precision as the same float of double precision. -/
def widen (value : Float32) : Float :=
  let format := Float.Model.Format.binary64
  match Float.Model.UnpackedFloat.unpack Float.Model.Format.binary32 value.toBits.toBitVec with
  | .finite sign mantissa exponent _ =>
    let rounded := Float.Model.UnpackedFloat.round format sign mantissa exponent
    Float.ofBits ⟨Float.Model.UnpackedFloat.pack format rounded⟩
  | other => Float.ofBits ⟨Float.Model.UnpackedFloat.pack format other⟩

end SkillEngine.Number
