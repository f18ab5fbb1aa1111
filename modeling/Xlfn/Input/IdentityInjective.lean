import Xlfn.Input.Identity

/-!
# Xlfn — the identity encoding is injective

Every encoder of `ExcelInputIdentity` only appends, and what it appends is a prefix-free
code of the value: `LawfulIdentity` packages the code with both facts, and has an instance
for each argument type. The framing of an argument is prefix-free as well, inline or hashed, so
the root stream is read back argument by argument.

* `LawfulIdentity.prefixFree` at `ArgumentType.lawful` — no payload of a type is a prefix
  of another one.
-/

namespace Xlfn.Input

open Xlfn.Lib ExcelInputIdentity List Argument

-- ---- What the encoder holds.

/-- The bytes written so far, wherever they are. -/
def InputIdentityEncoder.stream (encoder : InputIdentityEncoder) : List UInt8 :=
  match encoder.sink with
  | .inline bytes => bytes
  | .hashed state => state.hasher ++ state.buffer

/-- No error yet, and the sink is hashed exactly when the bytes do not fit inline. -/
structure InputIdentityEncoder.Wf (encoder : InputIdentityEncoder) : Prop where
  error  : encoder.error = none
  inline : ∀ bytes, encoder.sink = .inline bytes → bytes.length ≤ inlineArgumentBytes
  hashed : ∀ state, encoder.sink = .hashed state → inlineArgumentBytes < encoder.stream.length

theorem HashedArgument.write_stream (state : HashedArgument) (bytes : List UInt8) :
    (state.write bytes).hasher ++ (state.write bytes).buffer =
      state.hasher ++ state.buffer ++ bytes := by
  unfold HashedArgument.write
  split
  · simp [HashedArgument.flush]
  · dsimp only
    split <;> simp [HashedArgument.flush]

theorem InputIdentityEncoder.wf_new (spare : Option HashedArgument) : (new spare).Wf where
  error := rfl
  inline bytes h := by
    cases h
    exact Nat.zero_le _
  hashed state h := by cases h

/-- A write appends, and moves to the hasher when the bytes outgrow the inline buffer. -/
theorem InputIdentityEncoder.Wf.write {encoder : InputIdentityEncoder} (h : encoder.Wf)
    (bytes : List UInt8) :
    (encoder.write bytes).Wf ∧ (encoder.write bytes).stream = encoder.stream ++ bytes := by
  obtain ⟨sink, spare, error⟩ := encoder
  obtain rfl : error = none := h.error
  cases sink with
  | inline filled =>
    by_cases hfits : inlineArgumentBytes < filled.length + bytes.length
    · have hwrite : InputIdentityEncoder.write ⟨.inline filled, spare, none⟩ bytes =
          ⟨.hashed (HashedArgument.write ⟨[], filled⟩ bytes), none, none⟩ := by
        simp [InputIdentityEncoder.write, promoteToHashed, hfits]
      have hstream := HashedArgument.write_stream ⟨[], filled⟩ bytes
      rw [hwrite]
      refine ⟨⟨rfl, by rintro _ ⟨⟩, ?_⟩, hstream⟩
      rintro state ⟨⟩
      simp only [stream]
      rw [hstream]
      simpa using hfits
    · have hwrite : InputIdentityEncoder.write ⟨.inline filled, spare, none⟩ bytes =
          ⟨.inline (filled ++ bytes), spare, none⟩ := by
        simp [InputIdentityEncoder.write, hfits]
      rw [hwrite]
      refine ⟨⟨rfl, ?_, by rintro _ ⟨⟩⟩, rfl⟩
      rintro bytes' ⟨⟩
      rw [length_append]
      omega
  | hashed state =>
    have hwrite : InputIdentityEncoder.write ⟨.hashed state, spare, none⟩ bytes =
        ⟨.hashed (state.write bytes), spare, none⟩ := by
      simp [InputIdentityEncoder.write]
    have hstream := state.write_stream bytes
    have hlong : inlineArgumentBytes < (state.hasher ++ state.buffer).length := h.hashed state rfl
    rw [hwrite]
    refine ⟨⟨rfl, by rintro _ ⟨⟩, ?_⟩, hstream⟩
    rintro state' ⟨⟩
    simp only [stream]
    rw [hstream, length_append]
    omega

/-- The framing of an argument whose bytes are known. -/
def argumentFrame (digest : List UInt8 → Digest) (payload : List UInt8) : List UInt8 :=
  if payload.length ≤ inlineArgumentBytes then [0] ++ leBytes 8 payload.length ++ payload
  else [1] ++ (digest payload).val

theorem InputIdentityEncoder.Wf.finishInto {encoder : InputIdentityEncoder} (h : encoder.Wf)
    (digest : List UInt8 → Digest) (root : List UInt8) :
    (encoder.finishInto digest root).2 = .ok (root ++ argumentFrame digest encoder.stream) := by
  obtain ⟨sink, spare, error⟩ := encoder
  obtain rfl : error = none := h.error
  cases sink with
  | inline bytes =>
    have hshort := h.inline bytes rfl
    simp [InputIdentityEncoder.finishInto, argumentFrame, stream, hshort]
  | hashed state =>
    have hlong := h.hashed state rfl
    have hnot : ¬ (state.hasher ++ state.buffer).length ≤ inlineArgumentBytes := not_le.mpr hlong
    simp only [InputIdentityEncoder.finishInto, argumentFrame, stream, if_neg hnot,
      HashedArgument.flush, append_assoc]

-- ---- Lawful encoders.

/-- The encoder appends these bytes. -/
def Writes (encode : InputIdentityEncoder → InputIdentityEncoder) (payload : List UInt8) : Prop :=
  ∀ encoder : InputIdentityEncoder, encoder.Wf →
    (encode encoder).Wf ∧ (encode encoder).stream = encoder.stream ++ payload

theorem writes_write (bytes : List UInt8) : Writes (·.write bytes) bytes :=
  fun _ h => h.write bytes

theorem writes_id : Writes id [] := fun encoder h => ⟨h, (append_nil encoder.stream).symm⟩

theorem Writes.trans {first second : InputIdentityEncoder → InputIdentityEncoder}
    {p q : List UInt8} (h₁ : Writes first p) (h₂ : Writes second q) :
    Writes (fun encoder => second (first encoder)) (p ++ q) := by
  intro encoder h
  obtain ⟨hwf₁, hstream₁⟩ := h₁ encoder h
  obtain ⟨hwf₂, hstream₂⟩ := h₂ (first encoder) hwf₁
  refine ⟨hwf₂, ?_⟩
  rw [hstream₂, hstream₁, append_assoc]

/-- What an encoder appends is a function of the value alone, and a prefix-free one. -/
class LawfulIdentity (α : Type) [ExcelInputIdentity α] where
  payload    : α → List UInt8
  writes     : ∀ value, Writes (encodeInputIdentity value) (payload value)
  prefixFree : PrefixFree payload

open LawfulIdentity

theorem prefixFreeOn_u64 : PrefixFreeOn (· < 256 ^ 8) (leBytes 8) := prefixFreeOn_leBytes 8

instance : LawfulIdentity F64 where
  payload value := leBytes 8 value.toBits.toNat
  writes _ := writes_write _
  prefixFree := by
    intro a b s t htext
    obtain ⟨hbits, hrest⟩ := prefixFreeOn_u64 a.toBits.toNat_lt b.toBits.toNat_lt htext
    refine ⟨?_, hrest⟩
    cases a
    cases b
    exact congrArg F64.mk (UInt64.toNat.inj hbits)

theorem Text.length_asBytes (text : Text) : text.asBytes.length < 256 ^ 8 := text.fits

theorem Text.asBytes_injective : Function.Injective Text.asBytes := by
  intro a b h
  have harray : a.str.toByteArray.data = b.str.toByteArray.data := Array.toList_inj.mp h
  have hbytes : a.str.toByteArray = b.str.toByteArray := ByteArray.ext harray
  cases a
  cases b
  congr 1
  exact String.toByteArray_inj.mp hbytes

/-- A length in bytes and the bytes: `InputIdentityEncoder::bytes`, and the name of an
argument in the root stream. -/
theorem Text.prefixFree :
    PrefixFree fun text : Text => leBytes 8 text.asBytes.length ++ text.asBytes := by
  intro a b s t htext
  simp only [append_assoc] at htext
  obtain ⟨hlength, htail⟩ := prefixFreeOn_u64 a.length_asBytes b.length_asBytes htext
  obtain ⟨hbytes, hrest⟩ := append_inj htail hlength
  exact ⟨Text.asBytes_injective hbytes, hrest⟩

instance : LawfulIdentity Text where
  payload value := leBytes 8 value.asBytes.length ++ value.asBytes
  writes _ := (writes_write _).trans (writes_write _)
  prefixFree := Text.prefixFree

section

variable {α : Type} [ExcelInputIdentity α] [LawfulIdentity α]

theorem writes_encodeAll (values : List α) :
    Writes (encodeAll values) (values.flatMap payload) := by
  induction values with
  | nil => exact writes_id
  | cons value values ih => exact (writes value).trans ih

theorem writes_encodeSequence (values : List α) : Writes (encodeSequence values)
      (leBytes 8 values.length ++ values.flatMap payload) :=
  (writes_write _).trans (writes_encodeAll values)

theorem sequence_prefixFree {γ : Type} {data : γ → List α} (hinj : Function.Injective data)
    (hfits : ∀ value, (data value).length < 256 ^ 8) :
    PrefixFree fun value => leBytes 8 (data value).length ++ (data value).flatMap payload := by
  have hcounted := ((LawfulIdentity.prefixFree (α := α)).on fun _ => True).counted prefixFreeOn_u64
  intro a b s t htext
  obtain ⟨hdata, hrest⟩ :=
    hcounted ⟨hfits a, fun _ _ => trivial⟩ ⟨hfits b, fun _ _ => trivial⟩ htext
  exact ⟨hinj hdata, hrest⟩

theorem MatrixDimensions.fits {rows columns actual : Nat}
    (h : MatrixDimensions rows columns actual) :
    rows < 256 ^ 8 ∧ columns < 256 ^ 8 ∧ actual < 256 ^ 8 := by
  have hrows := h.rows_le
  have hcolumns := h.columns_le
  have hactual : actual ≤ excelMaxRows * excelMaxColumns :=
    h.count ▸ Nat.mul_le_mul hrows hcolumns
  unfold excelMaxRows at hrows hactual
  unfold excelMaxColumns at hcolumns hactual
  omega

instance : LawfulIdentity (RustVec α) where
  payload value := leBytes 8 value.data.length ++ value.data.flatMap payload
  writes value := writes_encodeSequence value.data
  prefixFree := sequence_prefixFree (fun a b h => by cases a; cases b; cases h; rfl)
    RustVec.fits

instance : LawfulIdentity (Row α) where
  payload value := leBytes 8 value.data.length ++ value.data.flatMap payload
  writes value := writes_encodeSequence value.data
  prefixFree := sequence_prefixFree (fun a b h => by cases a; cases b; cases h; rfl)
    fun value => value.valid.fits.2.2

instance : LawfulIdentity (Column α) where
  payload value := leBytes 8 value.data.length ++ value.data.flatMap payload
  writes value := writes_encodeSequence value.data
  prefixFree := sequence_prefixFree (fun a b h => by cases a; cases b; cases h; rfl)
    fun value => value.valid.fits.2.2

/-- The two dimensions say how many elements follow. -/
instance : LawfulIdentity (Matrix α) where
  payload value :=
    leBytes 8 value.rows ++ leBytes 8 value.columns ++ value.data.flatMap payload
  writes value :=
    ((writes_write _).trans (writes_write _)).trans (writes_encodeAll value.data)
  prefixFree := by
    intro a b s t htext
    simp only [append_assoc] at htext
    obtain ⟨hrows, htext⟩ := prefixFreeOn_u64 a.valid.fits.1 b.valid.fits.1 htext
    obtain ⟨hcolumns, htext⟩ := prefixFreeOn_u64 a.valid.fits.2.1 b.valid.fits.2.1 htext
    have hlength : a.data.length = b.data.length := by
      rw [← a.valid.count, ← b.valid.count, hrows, hcolumns]
    obtain ⟨hdata, hrest⟩ := ((LawfulIdentity.prefixFree (α := α)).on fun _ => True).flatMap
      hlength (fun _ _ => trivial) (fun _ _ => trivial) htext
    refine ⟨?_, hrest⟩
    cases a
    cases b
    cases hrows
    cases hcolumns
    cases hdata
    rfl

instance : LawfulIdentity (Option α) where
  payload
    | none => [0]
    | some value => [1] ++ payload value
  writes
    | none => writes_write _
    | some value => (writes_write _).trans (writes value)
  prefixFree := by
    intro a b s t htext
    cases a with
    | none =>
      cases b with
      | none => exact ⟨rfl, (cons.inj htext).2⟩
      | some y => cases (cons.inj htext).1
    | some x =>
      cases b with
      | none => cases (cons.inj htext).1
      | some y =>
        obtain ⟨rfl, hrest⟩ := LawfulIdentity.prefixFree (cons.inj htext).2
        exact ⟨rfl, hrest⟩

instance : LawfulIdentity (OptionalExcelValue α) where
  payload
    | .missing => [0]
    | .blank => [1]
    | .value value => [2] ++ payload value
  writes
    | .missing => writes_write _
    | .blank => writes_write _
    | .value value => (writes_write _).trans (writes value)
  prefixFree := by
    intro a b s t htext
    cases a with
    | missing =>
      cases b with
      | missing => exact ⟨rfl, (cons.inj htext).2⟩
      | blank | value y => cases (cons.inj htext).1
    | blank =>
      cases b with
      | missing | value y => cases (cons.inj htext).1
      | blank => exact ⟨rfl, (cons.inj htext).2⟩
    | value x =>
      cases b with
      | missing | blank => cases (cons.inj htext).1
      | value y =>
        obtain ⟨rfl, hrest⟩ := LawfulIdentity.prefixFree (cons.inj htext).2
        exact ⟨rfl, hrest⟩

end

/-- Every argument type is encoded lawfully. Induction on the type. -/
instance ArgumentType.lawful : (type : ArgumentType) → LawfulIdentity type.Value
  | .f64 => inferInstanceAs (LawfulIdentity F64)
  | .string => inferInstanceAs (LawfulIdentity Text)
  | .option inner =>
    letI := inner.lawful
    inferInstanceAs (LawfulIdentity (Option inner.Value))
  | .optionalExcelValue inner =>
    letI := inner.lawful
    inferInstanceAs (LawfulIdentity (OptionalExcelValue inner.Value))
  | .vec inner =>
    letI := inner.lawful
    inferInstanceAs (LawfulIdentity (RustVec inner.Value))
  | .row inner =>
    letI := inner.lawful
    inferInstanceAs (LawfulIdentity (Row inner.Value))
  | .column inner =>
    letI := inner.lawful
    inferInstanceAs (LawfulIdentity (Column inner.Value))
  | .matrix inner =>
    letI := inner.lawful
    inferInstanceAs (LawfulIdentity (Matrix inner.Value))

theorem Argument.identityPayload_eq (argument : Argument) :
    argument.identityPayload = payload argument.value := by
  have hwrites := (writes argument.value) _ (InputIdentityEncoder.wf_new none)
  exact hwrites.2

-- ---- The root stream.

section

variable {digest : List UInt8 → Digest}

/-- What one argument adds to the root stream. -/
def argumentRecord (digest : List UInt8 → Digest) (index : Nat) (argument : Argument) :
    List UInt8 :=
  [0xA0] ++ leBytes 8 index ++ (leBytes 8 argument.name.asBytes.length ++ argument.name.asBytes) ++
    argumentFrame digest argument.identityPayload

def argumentRecords (digest : List UInt8 → Digest) : Nat → List Argument → List UInt8
  | _, [] => []
  | index, argument :: rest =>
    argumentRecord digest index argument ++ argumentRecords digest (index + 1) rest

theorem withArgument_encode {builder : InputFingerprintBuilder} {index : Nat}
    (argument : Argument) (hindex : index = builder.nextArgument) :
    ∃ scratch, builder.withArgument digest index argument.name
        (fun encoder => (encodeInputIdentity argument.value encoder, .ok ())) =
      ({ root := builder.root ++ argumentRecord digest index argument
         expectedArguments := builder.expectedArguments
         nextArgument := builder.nextArgument + 1
         scratch }, .ok ()) := by
  have hwrites := writes argument.value _ (InputIdentityEncoder.wf_new builder.scratch)
  have hfinish := hwrites.1.finishInto digest (builder.root ++ [0xA0] ++ leBytes 8 index ++
    leBytes 8 argument.name.asBytes.length ++ argument.name.asBytes)
  rw [hwrites.2] at hfinish
  simp only [InputFingerprintBuilder.withArgument, hindex, ne_eq, not_true_eq_false, if_false]
  subst hindex
  rw [hfinish]
  have hrecord : builder.root ++ [0xA0] ++ leBytes 8 builder.nextArgument ++
      leBytes 8 argument.name.asBytes.length ++ argument.name.asBytes ++
        argumentFrame digest ((InputIdentityEncoder.new builder.scratch).stream ++
          payload argument.value) =
      builder.root ++ argumentRecord digest builder.nextArgument argument := by
    simp only [argumentRecord, argument.identityPayload_eq, append_assoc]
    rfl
  dsimp only
  rw [hrecord]
  exact ⟨_, rfl⟩

theorem recordArguments_eq : ∀ (arguments : List Argument) (index : Nat)
    (builder : InputFingerprintBuilder), index = builder.nextArgument →
    ∃ scratch, recordArguments digest index arguments builder =
      .ok { root := builder.root ++ argumentRecords digest index arguments
            expectedArguments := builder.expectedArguments
            nextArgument := index + arguments.length
            scratch } := by
  intro arguments
  induction arguments with
  | nil =>
    intro index builder hindex
    refine ⟨builder.scratch, ?_⟩
    subst hindex
    simp [recordArguments, argumentRecords]
  | cons argument rest ih =>
    intro index builder hindex
    obtain ⟨scratch, hstep⟩ := @withArgument_encode digest builder index argument hindex
    obtain ⟨scratch', hrest⟩ := ih (index + 1)
      ⟨builder.root ++ argumentRecord digest index argument, builder.expectedArguments,
        builder.nextArgument + 1, scratch⟩ (congrArg (· + 1) hindex)
    refine ⟨scratch', ?_⟩
    rw [recordArguments, hstep]
    dsimp only
    rw [hrest]
    simp only [argumentRecords, append_assoc, length_cons]
    congr 2
    omega

/-- **The root stream of a call is its head and the record of each argument.** No call
fails: the indices are those the builder expects. -/
theorem rootStream_eq (arguments : List Argument) :
    rootStream digest arguments = .ok (inputFingerprintDomain ++ leBytes 8 arguments.length ++
      argumentRecords digest 0 arguments) := by
  obtain ⟨scratch, hrecord⟩ := @recordArguments_eq digest arguments 0
    (.new arguments.length) rfl
  unfold rootStream
  rw [hrecord]
  have hcount : 0 + arguments.length = arguments.length := Nat.zero_add _
  simp only [InputFingerprintBuilder.finishRef, InputFingerprintBuilder.new, hcount, bind,
    Except.bind, pure, Except.pure, ne_eq, not_true_eq_false, if_false]

-- ---- Reading the stream back.

theorem argumentFrame_inj {p q s t : List UInt8} (hdigest : digest p = digest q → p = q)
    (h : argumentFrame digest p ++ s = argumentFrame digest q ++ t) : p = q ∧ s = t := by
  have hsmall : inlineArgumentBytes < 256 ^ 8 := by decide
  unfold argumentFrame at h
  by_cases hp : p.length ≤ inlineArgumentBytes <;> by_cases hq : q.length ≤ inlineArgumentBytes
  · rw [if_pos hp, if_pos hq] at h
    simp only [append_assoc] at h
    have htail := (cons.inj h).2
    obtain ⟨hlength, htail⟩ :=
      prefixFreeOn_u64 (lt_of_le_of_lt hp hsmall) (lt_of_le_of_lt hq hsmall) htail
    exact append_inj htail hlength
  · rw [if_pos hp, if_neg hq] at h
    cases (cons.inj h).1
  · rw [if_neg hp, if_pos hq] at h
    cases (cons.inj h).1
  · rw [if_neg hp, if_neg hq] at h
    obtain ⟨hhash, hrest⟩ := append_inj (cons.inj h).2
      ((digest p).property.trans (digest q).property.symm)
    exact ⟨hdigest (Subtype.ext hhash), hrest⟩

theorem argumentRecord_inj {index : Nat} {a b : Argument} {s t : List UInt8}
    (hdigest : digest a.identityPayload = digest b.identityPayload →
      a.identityPayload = b.identityPayload)
    (h : argumentRecord digest index a ++ s = argumentRecord digest index b ++ t) :
    a.name = b.name ∧ a.identityPayload = b.identityPayload ∧ s = t := by
  have hassoc : ∀ w x y z : List UInt8, w ++ x ++ y ++ z = w ++ (x ++ (y ++ z)) := by
    intro w x y z
    simp only [append_assoc]
  unfold argumentRecord at h
  rw [hassoc _ (leBytes 8 a.name.asBytes.length ++ a.name.asBytes),
    hassoc _ (leBytes 8 b.name.asBytes.length ++ b.name.asBytes)] at h
  obtain ⟨hname, htail⟩ := Text.prefixFree (append_cancel_left h)
  obtain ⟨hpayload, hrest⟩ := argumentFrame_inj hdigest htail
  exact ⟨hname, hpayload, hrest⟩

theorem argumentRecords_inj : ∀ (l₁ l₂ : List Argument) (index : Nat),
    (∀ a ∈ l₁, ∀ b ∈ l₂, digest a.identityPayload = digest b.identityPayload →
      a.identityPayload = b.identityPayload) →
    argumentRecords digest index l₁ = argumentRecords digest index l₂ →
      l₁.map name = l₂.map name ∧
        l₁.map identityPayload = l₂.map identityPayload := by
  intro l₁
  induction l₁ with
  | nil =>
    intro l₂ index _ h
    cases l₂ with
    | nil => exact ⟨rfl, rfl⟩
    | cons b l₂ => cases h
  | cons a l₁ ih =>
    intro l₂ index hdigest h
    cases l₂ with
    | nil => cases h
    | cons b l₂ =>
      obtain ⟨hname, hpayload, hrest⟩ :=
        argumentRecord_inj (hdigest a mem_cons_self b mem_cons_self) h
      obtain ⟨hnames, hpayloads⟩ := ih l₂ (index + 1)
        (fun a' ha' b' hb' =>
          hdigest a' (mem_cons_of_mem _ ha') b' (mem_cons_of_mem _ hb')) hrest
      exact ⟨by rw [map_cons, map_cons, hname, hnames],
        by rw [map_cons, map_cons, hpayload, hpayloads]⟩

/-- A payload is a prefix of another one of its type only where the values are the same. -/
theorem value_of_identityPayload {name name' : Text} {type : ArgumentType} {v w : type.Value}
    (h : (mk name type v).identityPayload <+: (mk name' type w).identityPayload) :
    v = w := by
  rw [identityPayload_eq, identityPayload_eq] at h
  exact LawfulIdentity.prefixFree.eq_of_isPrefix h

theorem arguments_ext : ∀ (l₁ l₂ : List Argument), l₁.map name = l₂.map name →
    l₁.map identityPayload = l₂.map identityPayload →
    l₁.map type = l₂.map type → l₁ = l₂ := by
  intro l₁
  induction l₁ with
  | nil =>
    intro l₂ hname _ _
    exact (map_eq_nil_iff.mp hname.symm).symm
  | cons a l₁ ih =>
    intro l₂ hname hpayload htype
    cases l₂ with
    | nil => cases hname
    | cons b l₂ =>
      obtain ⟨name, type, v⟩ := a
      obtain ⟨name', type', w⟩ := b
      obtain ⟨rfl, hnames⟩ := cons.inj hname
      obtain ⟨htype, htypes⟩ := cons.inj htype
      obtain ⟨hpayload, hpayloads⟩ := cons.inj hpayload
      cases htype
      obtain rfl : v = w :=
        value_of_identityPayload ⟨[], (append_nil _).trans hpayload⟩
      rw [ih l₂ hnames hpayloads htypes]

/-- **The input identity is injective.** Where the digest does not collide on the payloads
of two calls, equal root streams come from lists of one length with the same names and the
same payloads, in order, and with the same values where the types are the same. For each
argument type the payloads are prefix-free. -/
theorem input_identity_injective (digest : List UInt8 → Digest) (l₁ l₂ : List Argument)
    (hdigest : Set.InjOn digest {p | ∃ a ∈ l₁ ++ l₂, a.identityPayload = p}) :
    ((∃ root, rootStream digest l₁ = .ok root) ∧ (rootStream digest l₁ = rootStream digest l₂ →
        l₁.length = l₂.length ∧ l₁.map Argument.name = l₂.map Argument.name ∧
          l₁.map Argument.identityPayload = l₂.map Argument.identityPayload ∧
          (l₁.map Argument.type = l₂.map Argument.type → l₁ = l₂))) ∧
      ∀ (name name' : Text) (type : ArgumentType) (v w : type.Value),
        (Argument.mk name type v).identityPayload <+:
          (Argument.mk name' type w).identityPayload → v = w := by
  refine ⟨⟨⟨_, rootStream_eq l₁⟩, fun h => ?_⟩, fun name name' type v w =>
    value_of_identityPayload⟩
  rw [rootStream_eq, rootStream_eq] at h
  have hstream := Except.ok.inj h
  rw [append_assoc, append_assoc] at hstream
  have htail := append_cancel_left hstream
  obtain ⟨-, hrecords⟩ := append_inj htail (by simp)
  obtain ⟨hname, hpayload⟩ := argumentRecords_inj l₁ l₂ 0
    (fun a ha b hb => hdigest ⟨a, mem_append_left _ ha, rfl⟩
      ⟨b, mem_append_right _ hb, rfl⟩) hrecords
  have hlength : l₁.length = l₂.length := by
    simpa only [length_map] using congrArg length hname
  exact ⟨hlength, hname, hpayload, arguments_ext l₁ l₂ hname hpayload⟩

end

/-- A digest that keeps the first 32 bytes. -/
def leadingBytes (payload : List UInt8) : Digest :=
  ⟨(payload ++ replicate 32 0).take 32, by simp⟩

/-- One optional number, present or absent. -/
def optionalNumber (value : Option F64) : Argument where
  name  := ⟨"x", by decide⟩
  type  := .option .f64
  value := value

theorem input_identity_injective_optional : rootStream leadingBytes [optionalNumber (some ⟨0⟩)] ≠
      rootStream leadingBytes [optionalNumber none] := by
  intro h
  have hpayloads := ((input_identity_injective leadingBytes [optionalNumber (some ⟨0⟩)]
    [optionalNumber none] (by
      rintro p ⟨a, ha, rfl⟩ q ⟨b, hb, rfl⟩ hdigest
      simp only [cons_append, nil_append, mem_cons, not_mem_nil, or_false] at ha hb
      rcases ha with rfl | rfl <;> rcases hb with rfl | rfl
      · rfl
      · exact absurd (congrArg (fun d => d.val.head?) hdigest) (by decide)
      · exact absurd (congrArg (fun d => d.val.head?) hdigest) (by decide)
      · rfl)).1.2 h).2.2.1
  exact absurd hpayloads (by decide)

end Xlfn.Input
