import Xlfn.Input.IdentityInjective
import Xlfn.Text.Utf16Decoder

/-!
# Xlfn — input identities and the ways to write them

An argument is written in pieces: byte strings, numeric sequences, which select the sink once, and
UTF-16 text, which is decoded through a buffer of 256 bytes. What is identified are the bytes, not
the pieces, nor the workspace of an earlier argument.

* `f64Sequence`, `semanticUtf16` — the code.
-/

namespace Xlfn.Input

open Xlfn.Lib Xlfn.Lib.Utf16 List

-- ---- The code.

namespace InputIdentityEncoder

/-- The first error stays. -/
def fail (encoder : InputIdentityEncoder) (error : XllError) : InputIdentityEncoder :=
  if encoder.error.isNone then { encoder with error := some error } else encoder

def f64Bytes (value : F64) : List UInt8 := leBytes 8 value.toBits.toNat

/-- The part of `f64_sequence` in hashed mode. -/
def streamHashed : List (Except XllError F64) → HashedArgument →
    HashedArgument × Except XllError Unit
  | [], state => (state, .ok ())
  | .error error :: _, state => (state, .error error)
  | .ok value :: values, state => streamHashed values (state.write (f64Bytes value))

/-- The rest of `f64_sequence` once the sink is hashed. -/
def streamRest (encoder : InputIdentityEncoder) (values : List (Except XllError F64)) :
    InputIdentityEncoder × Except XllError Unit :=
  match encoder.sink with
  | .inline _ => (encoder, .ok ())
  | .hashed state =>
    let (state, result) := streamHashed values state
    let encoder := { encoder with sink := .hashed state }
    match result with
    | .ok () => (encoder, .ok ())
    | .error error => (encoder.fail error, .error error)

/-- The loop of `f64_sequence`. -/
def f64Loop : List (Except XllError F64) → InputIdentityEncoder →
    InputIdentityEncoder × Except XllError Unit
  | [], encoder => (encoder, .ok ())
  | .error error :: _, encoder => (encoder.fail error, .error error)
  | .ok value :: values, encoder =>
    match encoder.sink with
    | .inline filled =>
      if filled.length + (f64Bytes value).length ≤ inlineArgumentBytes then
        f64Loop values { encoder with sink := .inline (filled ++ f64Bytes value) }
      else encoder.promoteToHashed.streamRest (.ok value :: values)
    | .hashed _ => encoder.streamRest (.ok value :: values)

def f64Sequence (encoder : InputIdentityEncoder) (values : List (Except XllError F64)) :
    InputIdentityEncoder × Except XllError Unit :=
  match encoder.error with
  | some error => (encoder, .error error)
  | none => f64Loop values encoder

/-- Writing each `f64` in turn, up to the first error. -/
def writeEach : List (Except XllError F64) → InputIdentityEncoder →
    InputIdentityEncoder × Except XllError Unit
  | [], encoder => (encoder, .ok ())
  | .error error :: _, encoder => (encoder.fail error, .error error)
  | .ok value :: values, encoder => writeEach values (encoder.u64 value.toBits.toNat)

/-- The fast path of `semantic_utf16`: 256 units at a time, each a byte. -/
def writeAscii (units : List UInt16) (encoder : InputIdentityEncoder) : InputIdentityEncoder :=
  if _h : units = [] then encoder
  else writeAscii (units.drop 256) (encoder.write ((units.take 256).map UInt16.toUInt8))
termination_by units.length
decreasing_by simpa using length_pos_iff.2 _h

/-- The loop of `semantic_utf16` over what `char::decode_utf16` gives, with the filled part of its
buffer. -/
def writeDecoded : List (Except UInt16 Char) → List UInt8 → InputIdentityEncoder →
    InputIdentityEncoder × Except XllError Unit
  | [], buffer, encoder => (encoder.write buffer, .ok ())
  | .error _ :: _, _, encoder => (encoder.fail .conversion, .error .conversion)
  | .ok c :: chars, buffer, encoder =>
    if 256 - buffer.length < 4 then
      writeDecoded chars (String.utf8EncodeChar c) (encoder.write buffer)
    else writeDecoded chars (buffer ++ String.utf8EncodeChar c) encoder

def semanticUtf16 (encoder : InputIdentityEncoder) (units : List UInt16) :
    InputIdentityEncoder × Except XllError Unit :=
  let length := (Text.Utf16Decoder.new units).utf8Len
  let encoder := encoder.u64 length
  if length = units.length then (writeAscii units encoder, .ok ())
  else writeDecoded (decode units) [] encoder

end InputIdentityEncoder

open InputIdentityEncoder

/-- The ways to write into an argument. -/
inductive Piece where
  | bytes (chunk : List UInt8)
  | numbers (values : List (Except XllError F64))
  | text (units : List UInt16)

def Piece.encode (piece : Piece) (encoder : InputIdentityEncoder) :
    InputIdentityEncoder × Except XllError Unit :=
  match piece with
  | .bytes chunk => (encoder.write chunk, .ok ())
  | .numbers values => encoder.f64Sequence values
  | .text units => encoder.semanticUtf16 units

/-- A closure that writes pieces, up to the first error. -/
def encodePieces : List Piece → InputIdentityEncoder → InputIdentityEncoder × Except XllError Unit
  | [], encoder => (encoder, .ok ())
  | piece :: pieces, encoder =>
    match piece.encode encoder with
    | (encoder, .ok ()) => encodePieces pieces encoder
    | (encoder, .error error) => (encoder, .error error)

-- ---- The bytes.

/-- The bytes of numbers, up to the first error. -/
def numbersPayload : List (Except XllError F64) → Except XllError (List UInt8)
  | [] => .ok []
  | .error error :: _ => .error error
  | .ok value :: values => (numbersPayload values).map (f64Bytes value ++ ·)

/-- The text the units are of, or that they are of none. -/
def textPayload (units : List UInt16) : Except XllError (List UInt8) :=
  let bytes := utf8 (beforeError (decode units))
  if decode units = (beforeError (decode units)).map .ok then
    .ok (leBytes 8 bytes.length ++ bytes)
  else .error .conversion

def Piece.payload : Piece → Except XllError (List UInt8)
  | .bytes chunk => .ok chunk
  | .numbers values => numbersPayload values
  | .text units => textPayload units

def payload : List Piece → Except XllError (List UInt8)
  | [] => .ok []
  | piece :: pieces =>
    match piece.payload with
    | .ok bytes => (payload pieces).map (bytes ++ ·)
    | .error error => .error error

/-- However the encoder was used, the closure appends the payload, or leaves the error of it. -/
def Puts (encode : InputIdentityEncoder → InputIdentityEncoder × Except XllError Unit)
    (payload : Except XllError (List UInt8)) : Prop :=
  ∀ encoder : InputIdentityEncoder, encoder.Wf →
    match payload with
    | .ok bytes => (encode encoder).2 = .ok () ∧ (encode encoder).1.Wf ∧
        (encode encoder).1.stream = encoder.stream ++ bytes
    | .error error => (encode encoder).2 = .error error ∧ (encode encoder).1.error = some error

theorem Writes.puts {encode : InputIdentityEncoder → InputIdentityEncoder} {bytes : List UInt8}
    (h : Writes encode bytes) : Puts (fun encoder => (encode encoder, .ok ())) (.ok bytes) :=
  fun encoder hwf => ⟨rfl, h encoder hwf⟩

theorem fail_error {encoder : InputIdentityEncoder} (h : encoder.error = none) (error : XllError) :
    (encoder.fail error).error = some error := by
  simp [InputIdentityEncoder.fail, h]

-- ---- Numbers.

theorem streamRest_eq (values : List (Except XllError F64)) (state : HashedArgument)
    (spare : Option HashedArgument) :
    InputIdentityEncoder.streamRest ⟨.hashed state, spare, none⟩ values =
      writeEach values ⟨.hashed state, spare, none⟩ := by
  induction values generalizing state with
  | nil => rfl
  | cons value values ih =>
    cases value with
    | error error => rfl
    | ok value => exact ih (state.write (f64Bytes value))

/-- **A numeric sequence is its numbers in turn**: the sink is selected where they outgrow the
inline buffer. -/
theorem f64Sequence_eq {encoder : InputIdentityEncoder} (h : encoder.error = none)
    (values : List (Except XllError F64)) :
    encoder.f64Sequence values = writeEach values encoder := by
  rw [f64Sequence, h]
  dsimp only
  induction values generalizing encoder with
  | nil => rfl
  | cons value values ih =>
    cases value with
    | error error => rfl
    | ok value =>
      obtain ⟨sink, spare, error⟩ := encoder
      obtain rfl : error = none := h
      rw [f64Loop, writeEach]
      cases sink with
      | hashed state => exact streamRest_eq (.ok value :: values) state spare
      | inline filled =>
        dsimp only
        split
        · next hfits =>
          rw [ih rfl, InputIdentityEncoder.u64, InputIdentityEncoder.write]
          rw [f64Bytes] at hfits ⊢
          simp only [Option.isSome_none, Bool.false_eq_true, if_false, if_neg (Nat.not_lt.2 hfits)]
        · next hlarge =>
          rw [f64Bytes] at hlarge
          refine (streamRest_eq (.ok value :: values) ⟨[], filled⟩ none).trans ?_
          rw [writeEach, InputIdentityEncoder.u64, InputIdentityEncoder.u64,
            InputIdentityEncoder.write, InputIdentityEncoder.write]
          simp only [Option.isSome_none, Bool.false_eq_true, if_false, promoteToHashed,
            if_pos (Nat.lt_of_not_le hlarge)]

theorem puts_numbers (values : List (Except XllError F64)) :
    Puts (·.f64Sequence values) (numbersPayload values) := by
  intro encoder hwf
  dsimp only
  rw [f64Sequence_eq hwf.error]
  induction values generalizing encoder with
  | nil => exact ⟨rfl, hwf, (append_nil _).symm⟩
  | cons value values ih =>
    cases value with
    | error error => exact ⟨rfl, fail_error hwf.error error⟩
    | ok value =>
      obtain ⟨hnext, hstream⟩ := hwf.write (f64Bytes value)
      have hrest := ih _ hnext
      rw [numbersPayload]
      rw [writeEach]
      cases hpayload : numbersPayload values with
      | error error =>
        rw [hpayload] at hrest
        exact hrest
      | ok bytes =>
        rw [hpayload] at hrest
        refine ⟨hrest.1, hrest.2.1, hrest.2.2.trans ?_⟩
        rw [hstream, append_assoc]

-- ---- Text.

theorem writes_ascii (units : List UInt16) :
    Writes (writeAscii units) (units.map UInt16.toUInt8) := by
  intro encoder hwf
  fun_induction writeAscii units encoder with
  | case1 encoder => exact ⟨hwf, (append_nil _).symm⟩
  | case2 units encoder hne ih =>
    obtain ⟨hnext, hstream⟩ := hwf.write ((units.take 256).map UInt16.toUInt8)
    obtain ⟨hlast, hall⟩ := ih hnext
    refine ⟨hlast, hall.trans ?_⟩
    rw [hstream, append_assoc, ← map_append, take_append_drop]

theorem puts_decoded (chars : List Char) (buffer : List UInt8) :
    Puts (writeDecoded (chars.map .ok) buffer) (.ok (buffer ++ utf8 chars)) := by
  intro encoder hwf
  induction chars generalizing buffer encoder with
  | nil =>
    rw [show utf8 [] = [] from rfl, append_nil]
    exact ⟨rfl, hwf.write buffer⟩
  | cons c chars ih =>
    rw [map_cons, writeDecoded, utf8_cons]
    by_cases hfull : 256 - buffer.length < 4
    · rw [if_pos hfull]
      obtain ⟨hnext, hstream⟩ := hwf.write buffer
      obtain ⟨hok, hlast, hall⟩ := ih (String.utf8EncodeChar c) _ hnext
      exact ⟨hok, hlast, hall.trans (by rw [hstream, append_assoc])⟩
    · rw [if_neg hfull]
      obtain ⟨hok, hlast, hall⟩ := ih (buffer ++ String.utf8EncodeChar c) _ hwf
      exact ⟨hok, hlast, hall.trans (by rw [append_assoc])⟩

/-- A text that is none poisons every encoder. -/
theorem writeDecoded_error {chars : List (Except UInt16 Char)} (h : ∃ u, .error u ∈ chars)
    (buffer : List UInt8) (encoder : InputIdentityEncoder) :
    (writeDecoded chars buffer encoder).2 = .error .conversion ∧
      (writeDecoded chars buffer encoder).1.error.isSome ∧
      (encoder.Wf → (writeDecoded chars buffer encoder).1.error = some .conversion) := by
  induction chars generalizing buffer encoder with
  | nil =>
    obtain ⟨u, hu⟩ := h
    cases hu
  | cons c chars ih =>
    cases c with
    | error u =>
      refine ⟨rfl, ?_, fun hwf => fail_error hwf.error _⟩
      rw [writeDecoded, InputIdentityEncoder.fail]
      cases herror : encoder.error <;> simp [herror]
    | ok c =>
      obtain ⟨u, hu⟩ := h
      have hrest := ih ⟨u, (mem_cons.1 hu).resolve_left (by simp)⟩
      rw [writeDecoded]
      split
      · obtain ⟨herror, hpoisoned, hfirst⟩ := hrest (String.utf8EncodeChar c) (encoder.write buffer)
        exact ⟨herror, hpoisoned, fun hwf => hfirst (hwf.write buffer).1⟩
      · exact hrest (buffer ++ String.utf8EncodeChar c) encoder

variable {units : List UInt16}

theorem utf8_ascii (h : ∀ u ∈ units, u.toNat < 0x80) :
    utf8 (Text.plainChars units) = units.map UInt16.toUInt8 := by
  induction units with
  | nil => rfl
  | cons u units ih =>
    obtain ⟨hu, hunits⟩ := forall_mem_cons.1 h
    rw [Text.plainChars_cons, utf8_cons, Text.utf8EncodeChar_asciiUnit hu, ih hunits]
    rfl

/-- **Text is the string of its decoding**, on either path. -/
theorem puts_text {chars : List Char} (h : decode units = chars.map .ok) :
    Puts (·.semanticUtf16 units) (.ok (leBytes 8 (utf8 chars).length ++ utf8 chars)) := by
  intro encoder hwf
  obtain ⟨hnext, hstream⟩ := hwf.write (leBytes 8 (utf8 chars).length)
  unfold semanticUtf16
  dsimp only
  rw [Text.utf8Len_new, ← length_utf8_of_decode h]
  by_cases hlength : (utf8 chars).length = units.length
  · rw [if_pos hlength]
    have hascii := Text.ascii_of_planned ((length_utf8_of_decode h).symm.trans hlength)
    have hplain : units.map UInt16.toUInt8 = utf8 chars := by
      have hdecode := Text.decode_plain fun u hu => Text.not_surrogate_of_ascii (hascii u hu)
      have hchars := map_injective_iff.2 (fun a b hab => Except.ok.inj hab) (h.symm.trans hdecode)
      rw [hchars, utf8_ascii hascii]
    obtain ⟨hlast, hall⟩ := writes_ascii units _ hnext
    exact ⟨rfl, hlast, hall.trans (by rw [hstream, hplain, append_assoc])⟩
  · rw [if_neg hlength, h]
    obtain ⟨hok, hlast, hall⟩ := puts_decoded chars [] _ hnext
    exact ⟨hok, hlast, hall.trans (by rw [hstream, append_assoc, nil_append])⟩

theorem semanticUtf16_error (h : ∃ u, .error u ∈ decode units) (encoder : InputIdentityEncoder) :
    (encoder.semanticUtf16 units).2 = .error .conversion ∧
      (encoder.semanticUtf16 units).1.error.isSome ∧
      (encoder.Wf → (encoder.semanticUtf16 units).1.error = some .conversion) := by
  have hplanned : plannedBytes units ≠ units.length := by
    intro hplanned
    have hascii := Text.ascii_of_planned hplanned
    rw [Text.decode_plain fun u hu => Text.not_surrogate_of_ascii (hascii u hu)] at h
    obtain ⟨u, hu⟩ := h
    obtain ⟨c, -, hc⟩ := mem_map.1 hu
    cases hc
  unfold semanticUtf16
  dsimp only
  rw [Text.utf8Len_new, if_neg hplanned]
  obtain ⟨herror, hpoisoned, hfirst⟩ := writeDecoded_error h [] (encoder.u64 (plannedBytes units))
  exact ⟨herror, hpoisoned, fun hwf => hfirst (hwf.write _).1⟩

-- ---- Pieces.

theorem puts_piece (piece : Piece) : Puts piece.encode piece.payload := by
  cases piece with
  | bytes chunk => exact (writes_write chunk).puts
  | numbers values => exact puts_numbers values
  | text units =>
    rw [Piece.payload, textPayload]
    split
    · next h => exact puts_text h
    · next h =>
      intro encoder hwf
      have herror : ∃ u, .error u ∈ decode units := by
        by_contra hnone
        exact h (decode_eq_map_ok fun u hu => hnone ⟨u, hu⟩)
      obtain ⟨hresult, -, hfirst⟩ := semanticUtf16_error herror encoder
      exact ⟨hresult, hfirst hwf⟩

theorem puts_pieces (pieces : List Piece) : Puts (encodePieces pieces) (payload pieces) := by
  induction pieces with
  | nil => exact writes_id.puts
  | cons piece pieces ih =>
    intro encoder hwf
    have hpiece := puts_piece piece encoder hwf
    rw [payload]
    rw [encodePieces]
    generalize piece.encode encoder = out at hpiece ⊢
    obtain ⟨next, result⟩ := out
    cases hpayload : piece.payload with
    | error error =>
      rw [hpayload] at hpiece
      obtain ⟨rfl, herror⟩ := hpiece
      exact ⟨rfl, herror⟩
    | ok bytes =>
      rw [hpayload] at hpiece
      obtain ⟨rfl, hnext, hstream⟩ := hpiece
      have hrest := ih next hnext
      dsimp only
      cases hpayloads : payload pieces with
      | error error =>
        rw [hpayloads] at hrest
        exact hrest
      | ok rest =>
        rw [hpayloads] at hrest
        obtain ⟨hok, hlast, hall⟩ := hrest
        exact ⟨hok, hlast, hall.trans (by rw [hstream, append_assoc])⟩

-- ---- Arguments.

namespace InputFingerprintBuilder

/-- The builder without its workspace. -/
def clear (builder : InputFingerprintBuilder) : InputFingerprintBuilder :=
  { builder with scratch := none }

variable (digest : List UInt8 → Digest)

/-- What an argument is for: its bytes are framed behind its index and its name. -/
def withPayload (builder : InputFingerprintBuilder) (index : Nat) (argument : Text)
    (payload : Except XllError (List UInt8)) : InputFingerprintBuilder × Except XllError Unit :=
  if index ≠ builder.nextArgument then (builder, .error .inputFingerprint)
  else
    let head := builder.root ++ [0xA0] ++ leBytes 8 index ++
      leBytes 8 argument.asBytes.length ++ argument.asBytes
    match payload with
    | .ok bytes =>
      ({ builder with
        root := head ++ argumentFrame digest bytes
        nextArgument := builder.nextArgument + 1 }, .ok ())
    | .error error => ({ builder with root := head }, .error error)

end InputFingerprintBuilder

variable (digest : List UInt8 → Digest)

/-- **An argument is its bytes**: the pieces and the workspace leave no trace. -/
theorem withArgument_eq {encode : InputIdentityEncoder → InputIdentityEncoder × Except XllError Unit}
    {payload : Except XllError (List UInt8)} (h : Puts encode payload)
    (builder : InputFingerprintBuilder) (index : Nat) (argument : Text) :
    ((builder.withArgument digest index argument encode).1.clear,
      (builder.withArgument digest index argument encode).2) =
      builder.clear.withPayload digest index argument payload := by
  unfold InputFingerprintBuilder.withArgument InputFingerprintBuilder.withPayload
  by_cases hindex : index ≠ builder.nextArgument
  · rw [if_pos hindex, if_pos (show index ≠ builder.clear.nextArgument from hindex)]
  · rw [if_neg hindex, if_neg (show ¬index ≠ builder.clear.nextArgument from hindex)]
    have hencode := h _ (InputIdentityEncoder.wf_new builder.scratch)
    generalize encode (.new builder.scratch) = out at hencode ⊢
    obtain ⟨encoder, result⟩ := out
    cases payload with
    | error error =>
      obtain ⟨rfl, -⟩ := hencode
      rfl
    | ok bytes =>
      obtain ⟨rfl, hwf, hstream⟩ := hencode
      have hfinish := hwf.finishInto digest (builder.root ++ [0xA0] ++ leBytes 8 index ++
        leBytes 8 argument.asBytes.length ++ argument.asBytes)
      dsimp only at hstream hfinish ⊢
      rw [hfinish, hstream]
      rfl

/-- The arguments of a call from the given index on, each written in pieces. -/
def recordPieces : Nat → List (Text × List Piece) → InputFingerprintBuilder →
    Except XllError InputFingerprintBuilder
  | _, [], builder => .ok builder
  | index, (name, pieces) :: rest, builder =>
    match builder.withArgument digest index name (encodePieces pieces) with
    | (builder, .ok ()) => recordPieces (index + 1) rest builder
    | (_, .error error) => .error error

/-- The arguments of a call by their bytes. -/
def recordPayloads : Nat → List (Text × Except XllError (List UInt8)) → InputFingerprintBuilder →
    Except XllError InputFingerprintBuilder
  | _, [], builder => .ok builder
  | index, (name, payload) :: rest, builder =>
    match builder.withPayload digest index name payload with
    | (builder, .ok ()) => recordPayloads (index + 1) rest builder
    | (_, .error error) => .error error

theorem recordPieces_eq (arguments : List (Text × List Piece)) (index : Nat)
    (builder : InputFingerprintBuilder) :
    (recordPieces digest index arguments builder).map InputFingerprintBuilder.clear =
      recordPayloads digest index (arguments.map fun argument => (argument.1, payload argument.2))
        builder.clear := by
  induction arguments generalizing index builder with
  | nil => rfl
  | cons argument rest ih =>
    have hargument :=
      withArgument_eq digest (puts_pieces argument.2) builder index argument.1
    rw [recordPieces, map_cons, recordPayloads, ← hargument]
    obtain ⟨next, result⟩ :=
      builder.withArgument digest index argument.1 (encodePieces argument.2)
    cases result with
    | error error => rfl
    | ok _ => exact ih (index + 1) next

/-- **The encoder does not see the pieces.** The arguments of a call are identified by their bytes,
whatever the pieces and the workspaces; an argument is framed inline or by its digest, or fails
with its first error. Numbers are written one by one, and text as the string it decodes to. -/
theorem identity_encoder_exact : (∀ index arguments builder,
      (recordPieces digest index arguments builder).map InputFingerprintBuilder.clear =
        recordPayloads digest index (arguments.map fun argument => (argument.1, payload argument.2))
          builder.clear) ∧
    (∀ (chunks : List (List UInt8)) spare root,
      ((chunks.foldl InputIdentityEncoder.write (.new spare)).finishInto digest root).2 =
        (((InputIdentityEncoder.new none).write chunks.flatten).finishInto digest root).2 ∧
      (((InputIdentityEncoder.new none).write chunks.flatten).finishInto digest root).2 =
        .ok (root ++ argumentFrame digest chunks.flatten)) ∧
    (∀ (encoder : InputIdentityEncoder) values, encoder.error = none →
      encoder.f64Sequence values = writeEach values encoder) ∧
    (∀ (encoder : InputIdentityEncoder) units chars, encoder.Wf → decode units = chars.map .ok →
      (encoder.semanticUtf16 units).2 = .ok () ∧
      ∀ root, ((encoder.semanticUtf16 units).1.finishInto digest root).2 =
        ((encoder.bytes (utf8 chars)).finishInto digest root).2) ∧
    ∀ (encoder : InputIdentityEncoder) units, (∀ chars : List Char, decode units ≠ chars.map .ok) →
      (encoder.semanticUtf16 units).2 = .error .conversion ∧
      ∀ root, ∃ error, ((encoder.semanticUtf16 units).1.finishInto digest root).2 = .error error := by
  refine ⟨fun index arguments builder => recordPieces_eq digest arguments index builder,
    fun chunks spare root => ?_, fun encoder values h => f64Sequence_eq h values,
    fun encoder units chars hwf h => ?_, fun encoder units h => ?_⟩
  · have hchunks : Writes (fun encoder => chunks.foldl InputIdentityEncoder.write encoder)
        chunks.flatten := by
      induction chunks with
      | nil => exact writes_id
      | cons chunk chunks ih => exact (writes_write chunk).trans ih
    obtain ⟨hwf, hstream⟩ := hchunks _ (wf_new spare)
    obtain ⟨hone, hall⟩ := writes_write chunks.flatten _ (wf_new none)
    rw [hwf.finishInto, hstream, hone.finishInto, hall]
    exact ⟨rfl, rfl⟩
  · obtain ⟨hok, hlast, hstream⟩ := puts_text h encoder hwf
    obtain ⟨hnext, hhead⟩ := hwf.write (leBytes 8 (utf8 chars).length)
    obtain ⟨hstring, hbytes⟩ := hnext.write (utf8 chars)
    refine ⟨hok, fun root => ?_⟩
    rw [hlast.finishInto, InputIdentityEncoder.bytes, InputIdentityEncoder.u64, hstring.finishInto,
      hbytes, hhead, hstream, append_assoc]
  · have herror : ∃ u, .error u ∈ decode units := by
      by_contra hnone
      exact h _ (decode_eq_map_ok fun u hu => hnone ⟨u, hu⟩)
    obtain ⟨hresult, hpoisoned, -⟩ := semanticUtf16_error herror encoder
    refine ⟨hresult, fun root => ?_⟩
    obtain ⟨error, hsome⟩ := Option.isSome_iff_exists.1 hpoisoned
    exact ⟨error, by rw [finishInto, hsome]⟩

/-- Two numbers with an error behind them, a text with a pair of surrogates, and a lone
surrogate. -/
theorem identity_encoder_exact_text :
    (new none).f64Sequence [.ok ⟨1⟩, .ok ⟨2⟩, .error .conversion] =
      writeEach [.ok ⟨1⟩, .ok ⟨2⟩, .error .conversion] (new none) ∧
    ((new none).semanticUtf16 [0x61, 0xD83D, 0xDE00]).2 = .ok () ∧
    (((new none).semanticUtf16 [0x61, 0xD83D, 0xDE00]).1.finishInto
        (fun _ => ⟨.replicate 32 0, rfl⟩) []).2 =
      (((new none).bytes (utf8 ['a', '😀'])).finishInto (fun _ => ⟨.replicate 32 0, rfl⟩) []).2 ∧
    ((new none).semanticUtf16 [0x61, 0xD83D]).2 = .error .conversion := by
  obtain ⟨-, -, hnumbers, htext, herror⟩ := identity_encoder_exact fun _ => ⟨.replicate 32 0, rfl⟩
  have hpair := htext (new none) [0x61, 0xD83D, 0xDE00] ['a', '😀'] (wf_new none) rfl
  refine ⟨hnumbers (new none) _ rfl, hpair.1, hpair.2 [], (herror _ [0x61, 0xD83D] ?_).1⟩
  intro chars h
  have hmem : .error 0xD83D ∈ chars.map (.ok : Char → Except UInt16 Char) := by
    rw [← h]
    exact mem_of_elem_eq_true rfl
  obtain ⟨c, -, hc⟩ := mem_map.mp hmem
  cases hc

end Xlfn.Input
