import Xlfn.Lib.PrefixCode

/-!
# Xlfn — input identities

`input_identity/backend.rs` and `value/identity.rs`: how the converted arguments of a UDF
call are written into one byte stream, whose digest identifies the inputs of the call.

An argument is encoded into a sink that keeps up to 128 bytes and turns to hashing
beyond them; `finish_into` frames what was written, inline or as a digest, and appends it
to the root stream behind the index and the name of the argument.

* The hasher is `blake3`; it is the parameter `digest` on the bytes it was fed.
* `usize as u64` is the number itself: lengths are below `2 ^ 64` in their own types.
* An `f64` is known by its bits, as `f64::to_bits` gives them.
-/

namespace Xlfn.Input

open Xlfn.Lib

-- ---- The encoder of one argument.

/-- An error of a conversion, or `Internal` with the diagnostic `INPUT_FINGERPRINT`. -/
inductive XllError where
  | conversion
  | inputFingerprint

/-- `INLINE_ARGUMENT_BYTES`. -/
def inlineArgumentBytes : Nat := 128

/-- `HASH_BUFFER_BYTES`. -/
def hashBufferBytes : Nat := 4096

/-- The 32 bytes of a hash. -/
abbrev Digest := { bytes : List UInt8 // bytes.length = 32 }

/-- `blake3::Hasher` with a write buffer before it: what the hasher was fed since its last
reset, and the filled part of the buffer. -/
structure HashedArgument where
  hasher : List UInt8
  buffer : List UInt8

inductive ArgumentSink where
  | inline (bytes : List UInt8)
  | hashed (state : HashedArgument)

structure InputIdentityEncoder where
  sink  : ArgumentSink
  spare : Option HashedArgument
  error : Option XllError

/-- `flush_hashed`. -/
def HashedArgument.flush (state : HashedArgument) : HashedArgument where
  hasher := state.hasher ++ state.buffer
  buffer := []

/-- `write_hashed`. -/
def HashedArgument.write (state : HashedArgument) (bytes : List UInt8) : HashedArgument :=
  if hashBufferBytes ≤ bytes.length then
    { state.flush with hasher := state.flush.hasher ++ bytes }
  else
    let state :=
      if hashBufferBytes < state.buffer.length + bytes.length then state.flush else state
    { state with buffer := state.buffer ++ bytes }

namespace InputIdentityEncoder

/-- `InputIdentityEncoder::new`, with the workspace of an earlier argument. -/
def new (spare : Option HashedArgument) : InputIdentityEncoder where
  sink  := .inline []
  spare := spare
  error := none

section

variable (encoder : InputIdentityEncoder)

/-- `promote_to_hashed`: a used workspace is reset, and its buffer starts with the bytes
held inline. It is only called in inline mode. -/
def promoteToHashed : InputIdentityEncoder :=
  match encoder.sink with
  | .inline bytes => { encoder with sink := .hashed ⟨[], bytes⟩, spare := none }
  | .hashed _ => encoder

def write (bytes : List UInt8) : InputIdentityEncoder :=
  if encoder.error.isSome then
    encoder
  else
    let encoder :=
      match encoder.sink with
      | .inline filled =>
        if inlineArgumentBytes < filled.length + bytes.length then encoder.promoteToHashed
        else encoder
      | .hashed _ => encoder
    match encoder.sink with
    | .inline filled => { encoder with sink := .inline (filled ++ bytes) }
    | .hashed state => { encoder with sink := .hashed (state.write bytes) }

def tag (encoder : InputIdentityEncoder) (tag : UInt8) : InputIdentityEncoder :=
  encoder.write [tag]

def u64 (value : Nat) : InputIdentityEncoder :=
  encoder.write (leBytes 8 value)

def bytes (encoder : InputIdentityEncoder) (bytes : List UInt8) : InputIdentityEncoder :=
  (encoder.u64 bytes.length).write bytes

def bool (value : Bool) : InputIdentityEncoder :=
  encoder.write [if value then 1 else 0]

end

variable (digest : List UInt8 → Digest)

/-- `finish_into`: the encoder afterwards and the root stream. -/
def finishInto (encoder : InputIdentityEncoder) (root : List UInt8) :
    InputIdentityEncoder × Except XllError (List UInt8) :=
  match encoder.error with
  | some error => (encoder, .error error)
  | none =>
    match encoder.sink with
    | .inline bytes => (encoder, .ok (root ++ [0] ++ leBytes 8 bytes.length ++ bytes))
    | .hashed state =>
      ({ encoder with sink := .hashed state.flush },
        .ok (root ++ [1] ++ (digest state.flush.hasher).val))

end InputIdentityEncoder

-- ---- Values.

/-- `f64`, by its bit pattern. -/
structure F64 where
  toBits : UInt64

/-- `String` and `&str`: the length in bytes is a `usize`. -/
structure Text where
  str  : String
  fits : str.toByteArray.size < 256 ^ 8

/-- `as_bytes`. -/
def Text.asBytes (text : Text) : List UInt8 := text.str.toByteArray.data.toList

/-- `Vec<T>`. -/
structure RustVec (α : Type) where
  data : List α
  fits : data.length < 256 ^ 8

/-- `EXCEL_MAX_ROWS`. -/
def excelMaxRows : Nat := 1048576

/-- `EXCEL_MAX_COLUMNS`. -/
def excelMaxColumns : Nat := 16384

/-- What `validate_matrix_dimensions` accepts, less the platform's limit on elements. -/
structure MatrixDimensions (rows columns actual : Nat) : Prop where
  rows_pos    : 0 < rows
  columns_pos : 0 < columns
  rows_le     : rows ≤ excelMaxRows
  columns_le  : columns ≤ excelMaxColumns
  count       : rows * columns = actual

structure Matrix (α : Type) where
  rows    : Nat
  columns : Nat
  data    : List α
  valid   : MatrixDimensions rows columns data.length

/-- `Row`, built as a matrix of one row. -/
structure Row (α : Type) where
  data  : List α
  valid : MatrixDimensions 1 data.length data.length

/-- `Column`, built as a matrix of one column. -/
structure Column (α : Type) where
  data  : List α
  valid : MatrixDimensions data.length 1 data.length

inductive OptionalExcelValue (α : Type) where
  | missing
  | blank
  | value (value : α)

-- ---- `ExcelInputIdentity`.

class ExcelInputIdentity (α : Type) where
  encodeInputIdentity : α → InputIdentityEncoder → InputIdentityEncoder

open ExcelInputIdentity

/-- `for value in values { value.encode_input_identity(encoder) }`. -/
def encodeAll {α : Type} [ExcelInputIdentity α] (values : List α)
    (encoder : InputIdentityEncoder) : InputIdentityEncoder :=
  values.foldl (fun encoder value => encodeInputIdentity value encoder) encoder

/-- A length and the elements: `Vec`, and `sequence_identity!` for `Row` and `Column`. -/
def encodeSequence {α : Type} [ExcelInputIdentity α] (values : List α)
    (encoder : InputIdentityEncoder) : InputIdentityEncoder :=
  encodeAll values (encoder.u64 values.length)

instance : ExcelInputIdentity F64 where
  encodeInputIdentity value encoder := encoder.u64 value.toBits.toNat

/-- `InputIdentityEncoder::string`. -/
instance : ExcelInputIdentity Text where
  encodeInputIdentity value encoder := encoder.bytes value.asBytes

section

variable {α : Type} [ExcelInputIdentity α]

instance : ExcelInputIdentity (Matrix α) where
  encodeInputIdentity value encoder :=
    encodeAll value.data ((encoder.u64 value.rows).u64 value.columns)

instance : ExcelInputIdentity (RustVec α) where
  encodeInputIdentity value := encodeSequence value.data

instance : ExcelInputIdentity (Row α) where
  encodeInputIdentity value := encodeSequence value.data

instance : ExcelInputIdentity (Column α) where
  encodeInputIdentity value := encodeSequence value.data

instance : ExcelInputIdentity (Option α) where
  encodeInputIdentity value encoder :=
    let encoder := encoder.bool value.isSome
    match value with
    | some value => encodeInputIdentity value encoder
    | none => encoder

instance : ExcelInputIdentity (OptionalExcelValue α) where
  encodeInputIdentity value encoder :=
    match value with
    | .missing => encoder.tag 0
    | .blank => encoder.tag 1
    | .value value => encodeInputIdentity value (encoder.tag 2)

end

/-- The argument types built from `f64` and `String`. -/
inductive ArgumentType where
  | f64
  | string
  | option (inner : ArgumentType)
  | optionalExcelValue (inner : ArgumentType)
  | vec (inner : ArgumentType)
  | row (inner : ArgumentType)
  | column (inner : ArgumentType)
  | matrix (inner : ArgumentType)

/-- The values of an argument type. -/
def ArgumentType.Value : ArgumentType → Type
  | .f64 => F64
  | .string => Text
  | .option inner => Option inner.Value
  | .optionalExcelValue inner => OptionalExcelValue inner.Value
  | .vec inner => RustVec inner.Value
  | .row inner => Row inner.Value
  | .column inner => Column inner.Value
  | .matrix inner => Matrix inner.Value

instance ArgumentType.identity : (type : ArgumentType) → ExcelInputIdentity type.Value
  | .f64 => inferInstanceAs (ExcelInputIdentity F64)
  | .string => inferInstanceAs (ExcelInputIdentity Text)
  | .option inner =>
    letI := inner.identity
    inferInstanceAs (ExcelInputIdentity (Option inner.Value))
  | .optionalExcelValue inner =>
    letI := inner.identity
    inferInstanceAs (ExcelInputIdentity (OptionalExcelValue inner.Value))
  | .vec inner =>
    letI := inner.identity
    inferInstanceAs (ExcelInputIdentity (RustVec inner.Value))
  | .row inner =>
    letI := inner.identity
    inferInstanceAs (ExcelInputIdentity (Row inner.Value))
  | .column inner =>
    letI := inner.identity
    inferInstanceAs (ExcelInputIdentity (Column inner.Value))
  | .matrix inner =>
    letI := inner.identity
    inferInstanceAs (ExcelInputIdentity (Matrix inner.Value))

-- ---- The fingerprint of an argument list.

/-- `INPUT_FINGERPRINT_DOMAIN`, `b"xlfn-input-v3\0"`. -/
def inputFingerprintDomain : List UInt8 :=
  [120, 108, 102, 110, 45, 105, 110, 112, 117, 116, 45, 118, 51, 0]

/-- `root` is what the root hasher was fed. -/
structure InputFingerprintBuilder where
  root              : List UInt8
  expectedArguments : Nat
  nextArgument      : Nat
  scratch           : Option HashedArgument

namespace InputFingerprintBuilder

def new (expectedArguments : Nat) : InputFingerprintBuilder where
  root              := inputFingerprintDomain ++ leBytes 8 expectedArguments
  expectedArguments := expectedArguments
  nextArgument      := 0
  scratch           := none

variable (digest : List UInt8 → Digest)

/-- `with_argument`: the closure may fail, and what it has written so far is then dropped,
while the head of the argument stays in the root stream. -/
def withArgument (builder : InputFingerprintBuilder) (index : Nat) (argument : Text)
    (encode : InputIdentityEncoder → InputIdentityEncoder × Except XllError Unit) :
    InputFingerprintBuilder × Except XllError Unit :=
  if index ≠ builder.nextArgument then
    (builder, .error .inputFingerprint)
  else
    let head := builder.root ++ [0xA0] ++ leBytes 8 index ++
      leBytes 8 argument.asBytes.length ++ argument.asBytes
    let (encoder, result) := encode (.new builder.scratch)
    let (encoder, result) :=
      match result with
      | .ok () => encoder.finishInto digest head
      | .error error => (encoder, .error error)
    let scratch :=
      match encoder.sink with
      | .hashed state => some state
      | .inline _ => encoder.spare
    match result with
    | .ok root =>
      ({ builder with root, scratch, nextArgument := builder.nextArgument + 1 }, .ok ())
    | .error error => ({ builder with root := head, scratch }, .error error)

/-- `finish_ref`. -/
def finishRef (builder : InputFingerprintBuilder) : Except XllError Digest :=
  if builder.nextArgument ≠ builder.expectedArguments then .error .inputFingerprint
  else .ok (digest builder.root)

end InputFingerprintBuilder

/-- A converted argument of a call. -/
structure Argument where
  name  : Text
  type  : ArgumentType
  value : type.Value

/-- The arguments of a call from the given index on, each through `with_argument`. -/
def recordArguments (digest : List UInt8 → Digest) :
    Nat → List Argument → InputFingerprintBuilder → Except XllError InputFingerprintBuilder
  | _, [], builder => .ok builder
  | index, argument :: rest, builder =>
    match builder.withArgument digest index argument.name
        fun encoder => (encodeInputIdentity argument.value encoder, .ok ()) with
    | (builder, .ok ()) => recordArguments digest (index + 1) rest builder
    | (_, .error error) => .error error

/-- The root byte stream of a call, where its fingerprint can be taken. -/
def rootStream (digest : List UInt8 → Digest) (arguments : List Argument) :
    Except XllError (List UInt8) := do
  let builder ← recordArguments digest 0 arguments (.new arguments.length)
  let _ ← builder.finishRef digest
  return builder.root

/-- The bytes a value writes into its argument. -/
def Argument.identityPayload (argument : Argument) : List UInt8 :=
  match (encodeInputIdentity argument.value (.new none)).sink with
  | .inline bytes => bytes
  | .hashed state => state.hasher ++ state.buffer

end Xlfn.Input
