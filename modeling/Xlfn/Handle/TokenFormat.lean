import Mathlib.Tactic.IntervalCases
import Xlfn.Handle.Token

/-!
# Xlfn — the format of handle tokens

The format of a token and its parser are two views of one layout (`layout_of_shaped`), and
every field of it is written in one way only.

* `CacheOk` — what the cache holds is what the parser says.
-/

namespace Xlfn.Handle.Token

open Lib TokenCodec Hex List Option VerifiedTokenCache

-- ---- Fields.

theorem hexTable_eq {d : Nat} (h : d < 16) : hexTable.getD d 0 = digit d := by
  interval_cases d <;> rfl

theorem writeHex_eq (value : UInt64) (n : Nat) : writeHex value n = encode n value.toNat := by
  induction n generalizing value with
  | zero => rfl
  | succ n ih =>
    have hshift : (value >>> 4).toNat = value.toNat / 16 := by
      simp [UInt64.toNat_shiftRight, Nat.shiftRight_eq_div_pow]
    have hmask : (value &&& 0xf).toNat = value.toNat % 16 := by
      rw [UInt64.toNat_and]
      exact Nat.and_two_pow_sub_one_eq_mod value.toNat 4
    rw [writeHex, encode, ih, hshift, hmask, hexTable_eq (Nat.mod_lt _ (by decide))]

theorem hexNibble_eq (byte : UInt8) : hexNibble byte = (value? byte).map UInt8.ofNat := by
  have hbound := byte.toNat_lt
  by_cases hdigit : 48 ≤ byte.toNat ∧ byte.toNat ≤ 57
  · have hbyte : 48 ≤ byte ∧ byte ≤ 57 := hdigit
    have hsub : (byte - 48).toNat = byte.toNat - 48 := UInt8.toNat_sub_of_le _ _ hbyte.1
    rw [hexNibble, value?, if_pos hbyte, if_pos hdigit, map_some, ← hsub, UInt8.ofNat_toNat]
  · have hbyte : ¬ (48 ≤ byte ∧ byte ≤ 57) := hdigit
    rw [hexNibble, value?, if_neg hbyte, if_neg hdigit]
    by_cases hletter : 97 ≤ byte.toNat ∧ byte.toNat ≤ 102
    · have hbyte : 97 ≤ byte ∧ byte ≤ 102 := hletter
      have hsub : (byte - 97 + 10).toNat = byte.toNat - 87 := by
        have hsub : (byte - 97).toNat = byte.toNat - 97 := UInt8.toNat_sub_of_le _ _ hbyte.1
        rw [UInt8.toNat_add, hsub]
        change (byte.toNat - 97 + 10) % 256 = _
        omega
      rw [if_pos hbyte, if_pos hletter, map_some, ← hsub, UInt8.ofNat_toNat]
    · have hbyte : ¬ (97 ≤ byte ∧ byte ≤ 102) := hletter
      rw [if_neg hbyte, if_neg hletter]
      rfl

theorem hexNibble_lt {byte nibble : UInt8} (h : hexNibble byte = some nibble) :
    nibble.toNat < 16 ∧ digit nibble.toNat = byte := by
  rw [hexNibble_eq, map_eq_some_iff] at h
  obtain ⟨d, hd, rfl⟩ := h
  obtain ⟨hlt, hdigit⟩ := digit_of_value? hd
  have hd256 : d < UInt8.size := Nat.lt_of_lt_of_le hlt (by decide)
  rw [UInt8.toNat_ofNat_of_lt' hd256]
  exact ⟨hlt, hdigit⟩

theorem hexNibble_digit {nibble : UInt8} (h : nibble.toNat < 16) :
    hexNibble (digit nibble.toNat) = some nibble := by
  rw [hexNibble_eq, value?_digit h, map_some, UInt8.ofNat_toNat]

variable {bytes encoded : List UInt8}

theorem decodeHex_eq (h : encoded.length ≤ 16) :
    decodeHex encoded = some ((decode encoded).map UInt64.ofNat) := by
  rw [decodeHex, if_pos h]
  congr 1
  induction encoded using reverseRecOn with
  | nil => rfl
  | append_singleton encoded byte ih =>
    rw [List.length_append, List.length_singleton] at h
    rw [List.foldlM_append, ih (by omega), decode_append_singleton]
    cases hv : decode encoded with
    | none => rfl
    | some v =>
      have hbound : v < 16 ^ 15 :=
        Nat.lt_of_lt_of_le (encode_decode hv).2 (Nat.pow_le_pow_right (by decide) (by omega))
      simp only [map_some, foldlM_cons, foldlM_nil, hexNibble_eq]
      cases hd : value? byte with
      | none => rfl
      | some d =>
        have hlt := (digit_of_value? hd).1
        simp only [map_some, bind_eq_bind, bind_some, Option.pure_def, some.injEq]
        have hv64 : v * 16 + d < UInt64.size := by
          rw [UInt64.size]
          omega
        have hshift : ((UInt64.ofNat v) <<< 4).toNat = v <<< 4 := by
          rw [UInt64.toNat_shiftLeft, UInt64.toNat_ofNat_of_lt' (by omega)]
          exact Nat.mod_eq_of_lt (by rw [Nat.shiftLeft_eq]; change v * 16 < 2 ^ 64; omega)
        have hnibble : (UInt8.ofNat d).toUInt64.toNat = d := by
          rw [UInt8.toNat_toUInt64]
          exact UInt8.toNat_ofNat_of_lt' (Nat.lt_of_lt_of_le hlt (by decide))
        rw [← UInt64.toNat_inj, UInt64.toNat_or, hshift, hnibble, UInt64.toNat_ofNat_of_lt' hv64,
          ← Nat.shiftLeft_add_eq_or_of_lt (show d < 2 ^ 4 from hlt), Nat.shiftLeft_eq]

/-- **A number field is read back.** -/
theorem decodeHex_writeHex {value : UInt64} {n : Nat} (hn : n ≤ 16) (hv : value.toNat < 16 ^ n) :
    decodeHex (writeHex value n) = some (some value) := by
  rw [writeHex_eq, decodeHex_eq (by rwa [length_encode]), decode_encode hv,
    map_some, UInt64.ofNat_toNat]

theorem decodeHex_total (h : encoded.length ≤ 16) : ∃ decoded, decodeHex encoded = some decoded :=
  ⟨_, decodeHex_eq h⟩

/-- **A number field has one spelling.** -/
theorem writeHex_decodeHex {value : UInt64} (hn : encoded.length ≤ 16)
    (h : decodeHex encoded = some (some value)) :
    writeHex value encoded.length = encoded ∧ value.toNat < 16 ^ encoded.length := by
  rw [decodeHex_eq hn, some.injEq, map_eq_some_iff] at h
  obtain ⟨v, hv, rfl⟩ := h
  obtain ⟨hbytes, hbound⟩ := encode_decode hv
  have h64 : v < UInt64.size :=
    Nat.lt_of_lt_of_le hbound (Nat.pow_le_pow_right (by decide) hn)
  rw [writeHex_eq, UInt64.toNat_ofNat_of_lt' h64]
  exact ⟨hbytes, hbound⟩

theorem toNat_pair {high low : UInt8} (hhigh : high.toNat < 16) (hlow : low.toNat < 16) :
    (high <<< 4 ||| low).toNat = high.toNat * 16 + low.toNat := by
  have hshift : (high <<< 4).toNat = high.toNat <<< 4 := by
    rw [UInt8.toNat_shiftLeft]
    exact Nat.mod_eq_of_lt (by rw [Nat.shiftLeft_eq]; change high.toNat * 16 < 256; omega)
  rw [UInt8.toNat_or, hshift, ← Nat.shiftLeft_add_eq_or_of_lt (show low.toNat < 2 ^ 4 from hlow),
    Nat.shiftLeft_eq]

theorem toNat_high (byte : UInt8) : (byte >>> 4).toNat = byte.toNat / 16 := by
  simp [UInt8.toNat_shiftRight, Nat.shiftRight_eq_div_pow]

theorem toNat_low (byte : UInt8) : (byte &&& 0xf).toNat = byte.toNat % 16 := by
  rw [UInt8.toNat_and]
  exact Nat.and_two_pow_sub_one_eq_mod byte.toNat 4

/-- **A tag is read back.** -/
theorem decodePairs_writePairs (tag : List UInt8) : decodePairs (writePairs tag) = some tag := by
  induction tag with
  | nil => rfl
  | cons byte tag ih =>
    have hbyte := byte.toNat_lt
    have hhigh : (byte >>> 4).toNat < 16 := by rw [toNat_high]; omega
    have hlow : (byte &&& 0xf).toNat < 16 := by rw [toNat_low]; omega
    have hpair : byte >>> 4 <<< 4 ||| (byte &&& 0xf) = byte := by
      rw [← UInt8.toNat_inj, toNat_pair hhigh hlow, toNat_high, toNat_low]
      omega
    rw [writePairs, flatMap_cons, hexTable_eq hhigh, hexTable_eq hlow]
    change decodePairs (_ :: _ :: writePairs tag) = _
    simp only [decodePairs, hexNibble_digit hhigh, hexNibble_digit hlow, ih,
      bind_eq_bind, bind_some, hpair]

/-- **A tag has one spelling.** -/
theorem writePairs_decodePairs : ∀ {encoded tag : List UInt8}, encoded.length % 2 = 0 →
    decodePairs encoded = some tag → writePairs tag = encoded
  | [], tag, _, h => by
    cases h
    rfl
  | [_], _, heven, _ => by
    simp at heven
  | high :: low :: rest, tag, heven, h => by
    simp only [decodePairs, bind_eq_bind, bind_eq_some_iff, some.injEq] at h
    obtain ⟨a, ha, b, hb, tail, htail, rfl⟩ := h
    obtain ⟨ha16, hhigh⟩ := hexNibble_lt ha
    obtain ⟨hb16, hlow⟩ := hexNibble_lt hb
    have hrest : writePairs tail = rest := by
      refine writePairs_decodePairs ?_ htail
      simp only [length_cons] at heven
      omega
    have hpair := toNat_pair ha16 hb16
    have hh : ((a <<< 4 ||| b) >>> 4).toNat = a.toNat := by rw [toNat_high, hpair]; omega
    have hl : ((a <<< 4 ||| b) &&& 0xf).toNat = b.toNat := by rw [toNat_low, hpair]; omega
    rw [writePairs, flatMap_cons, hh, hl, hexTable_eq ha16, hexTable_eq hb16, hhigh, hlow]
    change high :: low :: writePairs tail = _
    rw [hrest]

@[simp] theorem length_writeHex (value : UInt64) (n : Nat) : (writeHex value n).length = n := by
  rw [writeHex_eq, length_encode]

@[simp] theorem length_writePairs (tag : List UInt8) :
    (writePairs tag).length = 2 * tag.length := by
  induction tag with
  | nil => rfl
  | cons byte tag ih =>
    rw [writePairs, flatMap_cons, List.length_append]
    change 2 + (writePairs tag).length = _
    rw [ih, length_cons]
    omega

theorem writeHex_ascii (value : UInt64) (n : Nat) : ∀ b ∈ writeHex value n, b.toNat < 128 := by
  rw [writeHex_eq]
  exact encode_ascii n value.toNat

theorem writePairs_ascii (tag : List UInt8) : ∀ b ∈ writePairs tag, b.toNat < 128 := by
  intro b hb
  obtain ⟨byte, -, hb⟩ := List.mem_flatMap.mp hb
  have hbyte := byte.toNat_lt
  have hhigh : (byte >>> 4).toNat < 16 := by rw [toNat_high]; omega
  have hlow : (byte &&& 0xf).toNat < 16 := by rw [toNat_low]; omega
  rw [hexTable_eq hhigh, hexTable_eq hlow] at hb
  rcases mem_cons.mp hb with rfl | hb
  · exact digit_lt _ hhigh
  · rw [List.mem_singleton.mp hb]
    exact digit_lt _ hlow

-- ---- The layout.

/-- The bytes of a token with these fields. -/
def layout (session slot generation tag : List UInt8) : List UInt8 :=
  mark ++ session ++ [colon] ++ slot ++ [colon] ++ generation ++ [colon] ++ tag

/-- The widths of the fields. -/
structure Fields (session slot generation tag : List UInt8) : Prop where
  session    : session.length = 16
  slot       : slot.length = 8
  generation : generation.length = 16
  tag        : tag.length = 32

theorem slice_middle (before part after : List UInt8) (start stop : Nat)
    (hstart : start = before.length) (hstop : stop = before.length + part.length) :
    slice (before ++ part ++ after) start stop = some part := by
  subst hstart hstop
  rw [slice, if_pos (by simp), List.append_assoc, drop_left, Nat.add_sub_cancel_left,
    take_left]

section Layout

variable {session slot generation tag : List UInt8}

theorem length_layout (h : Fields session slot generation tag) :
    (layout session slot generation tag).length = handleTokenLength := by
  simp [layout, mark, h.session, h.slot, h.generation, h.tag, handleTokenLength]

theorem slices_layout (h : Fields session slot generation tag) :
    slice (layout session slot generation tag) 7 23 = some session ∧
    slice (layout session slot generation tag) 24 32 = some slot ∧
    slice (layout session slot generation tag) 33 49 = some generation ∧
    slice (layout session slot generation tag) 50
      (layout session slot generation tag).length = some tag := by
  obtain ⟨hs, hl, hg, ht⟩ := h
  refine ⟨?_, ?_, ?_, ?_⟩
  · have hslice := slice_middle mark session
      ([colon] ++ slot ++ [colon] ++ generation ++ [colon] ++ tag) 7 23 rfl (by simp [mark, hs])
    simpa [layout] using hslice
  · have hslice := slice_middle (mark ++ session ++ [colon]) slot
      ([colon] ++ generation ++ [colon] ++ tag) 24 32 (by simp [mark, hs]) (by simp [mark, hs, hl])
    simpa [layout] using hslice
  · have hslice := slice_middle (mark ++ session ++ [colon] ++ slot ++ [colon]) generation
      ([colon] ++ tag) 33 49 (by simp [mark, hs, hl]) (by simp [mark, hs, hl, hg])
    simpa [layout] using hslice
  · have hslice := slice_middle
      (mark ++ session ++ [colon] ++ slot ++ [colon] ++ generation ++ [colon]) tag [] 50
      (layout session slot generation tag).length (by simp [mark, hs, hl, hg])
      (by simp [layout]; omega)
    simpa [layout] using hslice

theorem wellShaped_layout (h : Fields session slot generation tag) :
    wellShaped (layout session slot generation tag) = some true := by
  have hlength := length_layout h
  have hmark : mark <+: layout session slot generation tag := by
    simp only [layout, List.append_assoc]
    exact prefix_append ..
  obtain ⟨hs, hl, hg, ht⟩ := h
  have hfirst : (layout session slot generation tag)[23]? = some colon := by
    simp [layout, mark, hs]
  have hsecond : (layout session slot generation tag)[32]? = some colon := by
    simp [layout, mark, List.getElem?_append, hs, hl]
  have hthird : (layout session slot generation tag)[49]? = some colon := by
    simp [layout, mark, List.getElem?_append, hs, hl, hg]
  rw [wellShaped, if_neg (not_not.mpr hlength), if_neg (not_not.mpr hmark), hfirst, hsecond, hthird]
  rfl

theorem drop_field {start stop : Nat} (hle : start ≤ stop) (hcolon : bytes[stop]? = some colon) :
    bytes.drop start = (bytes.drop start).take (stop - start) ++ [colon] ++ bytes.drop (stop + 1) := by
  obtain ⟨hlt, hget⟩ := List.getElem_of_getElem? hcolon
  have hdrop : bytes.drop stop = colon :: bytes.drop (stop + 1) := by
    rw [drop_eq_getElem_cons hlt, hget]
  have hsplit : (bytes.drop start).drop (stop - start) = bytes.drop stop := by
    rw [drop_drop, show start + (stop - start) = stop by omega]
  calc bytes.drop start
      = (bytes.drop start).take (stop - start) ++ (bytes.drop start).drop (stop - start) :=
        (take_append_drop ..).symm
    _ = _ := by rw [hsplit, hdrop, List.append_assoc, singleton_append]

/-- **Whatever the parser takes is a layout.** -/
theorem layout_of_shaped (h : wellShaped bytes = some true) :
    ∃ session slot generation tag, Fields session slot generation tag ∧
      bytes = layout session slot generation tag := by
  unfold wellShaped at h
  split at h
  · cases h
  rename_i hlength
  have hlength : bytes.length = 82 := not_not.mp hlength
  split at h
  · cases h
  rename_i hmark
  obtain ⟨rest, hrest⟩ := not_not.mp hmark
  have hdrop : bytes.drop 7 = rest := by
    rw [← hrest]
    rfl
  simp only [bind_eq_bind, bind_eq_some_iff] at h
  obtain ⟨first, hfirst, h⟩ := h
  split at h
  · cases h
  rename_i hc
  rw [not_not.mp hc] at hfirst
  simp only [bind_eq_some_iff] at h
  obtain ⟨second, hsecond, h⟩ := h
  split at h
  · cases h
  rename_i hc
  rw [not_not.mp hc] at hsecond
  simp only [bind_eq_some_iff] at h
  obtain ⟨third, hthird, h⟩ := h
  rw [of_decide_eq_true (some.inj h)] at hthird
  refine ⟨(bytes.drop 7).take 16, (bytes.drop 24).take 8, (bytes.drop 33).take 16, bytes.drop 50,
    ⟨by simp [hlength], by simp [hlength], by simp [hlength], by simp [hlength]⟩, ?_⟩
  have h7 := drop_field (show 7 ≤ 23 by decide) hfirst
  have h24 := drop_field (show 24 ≤ 32 by decide) hsecond
  have h33 := drop_field (show 33 ≤ 49 by decide) hthird
  calc bytes = mark ++ bytes.drop 7 := by rw [hdrop, hrest]
    _ = mark ++ ((bytes.drop 7).take 16 ++ [colon] ++ bytes.drop 24) := congrArg (mark ++ ·) h7
    _ = mark ++ ((bytes.drop 7).take 16 ++ [colon] ++
          ((bytes.drop 24).take 8 ++ [colon] ++ bytes.drop 33)) :=
        congrArg (fun x => mark ++ ((bytes.drop 7).take 16 ++ [colon] ++ x)) h24
    _ = mark ++ ((bytes.drop 7).take 16 ++ [colon] ++ ((bytes.drop 24).take 8 ++ [colon] ++
          ((bytes.drop 33).take 16 ++ [colon] ++ bytes.drop 50))) :=
        congrArg (fun x => mark ++ ((bytes.drop 7).take 16 ++ [colon] ++
          ((bytes.drop 24).take 8 ++ [colon] ++ x))) h33
    _ = layout _ _ _ _ := by simp only [layout, List.append_assoc]

theorem wellShaped_total (bytes : List UInt8) : ∃ shaped, wellShaped bytes = some shaped := by
  unfold wellShaped
  split
  · exact ⟨false, rfl⟩
  rename_i hlength
  have hlength : bytes.length = 82 := not_not.mp hlength
  rw [List.getElem?_eq_getElem (show 23 < bytes.length by omega),
    List.getElem?_eq_getElem (show 32 < bytes.length by omega),
    List.getElem?_eq_getElem (show 49 < bytes.length by omega)]
  simp only [bind_eq_bind, bind_some]
  repeat' split
  all_goals exact ⟨_, rfl⟩

end Layout

-- ---- Reading a token.

theorem generation_new {raw : UInt64} {generation : BindingGeneration} :
    BindingGeneration.new raw = some generation ↔ raw = generation.value := by
  unfold BindingGeneration.new
  split
  · rename_i hne
    constructor
    · intro h
      rw [← some.inj h]
    · rintro rfl
      rfl
  · rename_i hzero
    constructor
    · rintro ⟨⟩
    · rintro rfl
      exact absurd generation.pos hzero

/-- The fields of a text that the parser takes for a token. -/
structure Decodes (bytes : List UInt8) (parsed : ParsedHandleToken) : Prop where
  fields : ∃ session slot generation tag, Fields session slot generation tag ∧
    bytes = layout session slot generation tag ∧
    decodeHex session = some (some parsed.session) ∧
    (∃ raw : UInt64, decodeHex slot = some (some raw) ∧ parsed.id.slot = raw.toUInt32) ∧
    decodeHex generation = some (some parsed.id.generation.value) ∧
    decodeTag tag = some parsed.tag

/-- **`parse_uncached`, outcome by outcome.** -/
theorem parseBytes_cases (bytes : List UInt8) : parseBytes bytes = some (.error .invalidHandle) ∨
      ∃ parsed, parseBytes bytes = some (.ok parsed) ∧ Decodes bytes parsed := by
  obtain ⟨shaped, hshaped⟩ := wellShaped_total bytes
  unfold parseBytes
  rw [hshaped]
  cases shaped with
  | false => exact .inl rfl
  | true =>
    obtain ⟨session, slot, generation, tag, hfields, rfl⟩ := layout_of_shaped hshaped
    obtain ⟨hsession, hslot, hgeneration, htag⟩ := slices_layout hfields
    rw [hsession, hslot, hgeneration, htag]
    obtain ⟨first, hfirst⟩ := decodeHex_total (Nat.le_of_eq hfields.session)
    obtain ⟨second, hsecond⟩ := decodeHex_total (show slot.length ≤ 16 by rw [hfields.slot]; decide)
    obtain ⟨third, hthird⟩ := decodeHex_total (Nat.le_of_eq hfields.generation)
    simp only [bind_eq_bind, bind_some, not_true_eq_false, if_false, hfirst, hsecond,
      hthird, map_some]
    cases first with
    | none => exact .inl rfl
    | some first =>
      cases second with
      | none => exact .inl rfl
      | some raw =>
        cases hnew : third.bind BindingGeneration.new with
        | none => exact .inl rfl
        | some generation' =>
          cases hdecoded : decodeTag tag with
          | none => exact .inl rfl
          | some tag' =>
            obtain ⟨value, rfl, hvalue⟩ := bind_eq_some_iff.mp hnew
            refine .inr ⟨⟨first, ⟨raw.toUInt32, generation'⟩, tag'⟩, rfl, ⟨session, slot, generation,
              tag, hfields, rfl, hfirst, ⟨raw, hsecond, rfl⟩, ?_, hdecoded⟩⟩
            rw [hthird, generation_new.mp hvalue]

theorem Decodes.parseBytes {parsed : ParsedHandleToken} (h : Decodes bytes parsed) :
    parseBytes bytes = some (.ok parsed) := by
  obtain ⟨session, slot, generation, tag, hfields, rfl, hsession, ⟨raw, hslot, hraw⟩, hgeneration,
    htag⟩ := h.fields
  obtain ⟨s, l, g, t⟩ := slices_layout hfields
  obtain ⟨parsedSession, ⟨parsedSlot, parsedGeneration⟩, parsedTag⟩ := parsed
  change parsedSlot = raw.toUInt32 at hraw
  subst hraw
  have hnew : (some parsedGeneration.value).bind BindingGeneration.new = some parsedGeneration :=
    generation_new.mpr rfl
  simp only [TokenCodec.parseBytes, wellShaped_layout hfields, s, l, g, t, hsession, hslot,
    hgeneration, htag, bind_eq_bind, bind_some, not_true_eq_false, if_false,
    map_some, hnew]

-- ---- Format and parser.

theorem exists_text (h : bytes.toByteArray.IsValidUTF8) : ∃ text, asBytes text = bytes :=
  ⟨⟨bytes.toByteArray, h⟩, toList_data_toByteArray⟩

theorem fromUTF8_eq_some {text : String} (h : bytes.toByteArray.IsValidUTF8) :
    String.fromUTF8? bytes.toByteArray = some text ↔ asBytes text = bytes := by
  rw [String.fromUTF8?, dif_pos h, some.injEq, ← String.toByteArray_inj, asBytes]
  constructor
  · intro heq
    rw [← heq]
    exact toList_data_toByteArray
  · intro heq
    rw [ByteArray.ext_iff, ← Array.toList_inj]
    exact toList_data_toByteArray.trans heq.symm

section Codec

variable (keyedHash : KeyedHash) (codec : TokenCodec)

theorem length_authenticationTag (id : HandleId) :
    (codec.authenticationTag keyedHash id).length = 16 := by
  simp [authenticationTag]

theorem fields_format (id : HandleId) :
    Fields (writeHex codec.session 16) (writeHex id.slot.toUInt64 8)
      (writeHex id.generation.value 16) (writePairs (codec.authenticationTag keyedHash id)) :=
  ⟨length_writeHex .., length_writeHex .., length_writeHex .., by
    rw [length_writePairs, length_authenticationTag]⟩

theorem formatBytes_eq (id : HandleId) :
    codec.formatBytes keyedHash id = layout (writeHex codec.session 16)
      (writeHex id.slot.toUInt64 8) (writeHex id.generation.value 16)
      (writePairs (codec.authenticationTag keyedHash id)) := rfl

theorem isValidUTF8_formatBytes (id : HandleId) :
    (codec.formatBytes keyedHash id).toByteArray.IsValidUTF8 := by
  refine isValidUTF8_of_ascii fun b hb => ?_
  have hmark : ∀ b ∈ mark, b.toNat < 128 := by decide +kernel
  have hcolon : ∀ b ∈ [colon], b.toNat < 128 := by decide +kernel
  simp only [formatBytes, List.mem_append] at hb
  rcases hb with ((((((hb | hb) | hb) | hb) | hb) | hb) | hb) | hb
  · exact hmark b hb
  · exact writeHex_ascii _ _ b hb
  · exact hcolon b hb
  · exact writeHex_ascii _ _ b hb
  · exact hcolon b hb
  · exact writeHex_ascii _ _ b hb
  · exact hcolon b hb
  · exact writePairs_ascii _ b hb

theorem format_eq_some {id : HandleId} {token : String} :
    codec.format keyedHash id = some token ↔ asBytes token = codec.formatBytes keyedHash id :=
  fromUTF8_eq_some (isValidUTF8_formatBytes keyedHash codec id)

theorem decodes_formatBytes (id : HandleId) : Decodes (codec.formatBytes keyedHash id)
      ⟨codec.session, id, codec.authenticationTag keyedHash id⟩ := by
  have h64 (value : UInt64) : value.toNat < 16 ^ 16 := by
    have hvalue := value.toNat_lt
    calc value.toNat < 2 ^ 64 := hvalue
      _ = 16 ^ 16 := by norm_num
  have hslot : id.slot.toUInt64.toNat < 16 ^ 8 := by
    have hvalue := id.slot.toNat_lt
    calc id.slot.toUInt64.toNat = id.slot.toNat := UInt32.toNat_toUInt64 id.slot
      _ < 2 ^ 32 := hvalue
      _ = 16 ^ 8 := by norm_num
  have htag : decodeTag (writePairs (codec.authenticationTag keyedHash id)) =
      some (codec.authenticationTag keyedHash id) := by
    rw [decodeTag, if_neg (by rw [length_writePairs, length_authenticationTag]; decide),
      decodePairs_writePairs]
  exact ⟨_, _, _, _, fields_format keyedHash codec id, formatBytes_eq keyedHash codec id,
    decodeHex_writeHex (Nat.le_refl _) (h64 _),
    ⟨id.slot.toUInt64, decodeHex_writeHex (by decide) hslot, (UInt32.toUInt32_toUInt64 _).symm⟩,
    decodeHex_writeHex (Nat.le_refl _) (h64 _), htag⟩

theorem Decodes.unique {bytes' : List UInt8} {parsed : ParsedHandleToken} (h : Decodes bytes parsed)
    (h' : Decodes bytes' parsed) : bytes = bytes' := by
  obtain ⟨session, slot, generation, tag, hf, rfl, hsession, ⟨raw, hslot, hraw⟩, hgeneration,
    htag⟩ := h.fields
  obtain ⟨session', slot', generation', tag', hf', rfl, hsession', ⟨raw', hslot', hraw'⟩,
    hgeneration', htag'⟩ := h'.fields
  have hnumber {field field' : List UInt8} {n : Nat} {value : UInt64} (hn : n ≤ 16)
      (hlength : field.length = n) (hlength' : field'.length = n)
      (hfield : decodeHex field = some (some value))
      (hfield' : decodeHex field' = some (some value)) : field = field' := by
    rw [← (writeHex_decodeHex (hlength ▸ hn) hfield).1,
      ← (writeHex_decodeHex (hlength' ▸ hn) hfield').1, hlength, hlength']
  -- A slot has eight digits, so cutting it to 32 bits loses nothing.
  have hraw64 : raw = raw' := by
    have hlt := (writeHex_decodeHex (by rw [hf.slot]; decide) hslot).2
    have hlt' := (writeHex_decodeHex (by rw [hf'.slot]; decide) hslot').2
    rw [hf.slot] at hlt
    rw [hf'.slot] at hlt'
    have heq := congrArg UInt32.toNat (hraw.symm.trans hraw')
    rw [UInt64.toNat_toUInt32, UInt64.toNat_toUInt32] at heq
    rw [← UInt64.toNat_inj]
    omega
  have htags : tag = tag' := by
    have hpairs : ∀ {field : List UInt8}, decodeTag field = some parsed.tag →
        writePairs parsed.tag = field := by
      intro field hfield
      rw [decodeTag] at hfield
      split at hfield
      · cases hfield
      · rename_i hlength
        exact writePairs_decodePairs (by rw [not_not.mp hlength]) hfield
    rw [← hpairs htag, ← hpairs htag']
  subst hraw64
  rw [hnumber (Nat.le_refl _) hf.session hf'.session hsession hsession',
    hnumber (by decide) hf.slot hf'.slot hslot hslot',
    hnumber (Nat.le_refl _) hf.generation hf'.generation hgeneration hgeneration', htags]

/-- **`parse` past its cache.** -/
theorem parseVerified_eq_ok {token : String} {id : HandleId} :
    codec.parseVerified keyedHash token = some (.ok id) ↔
      asBytes token = codec.formatBytes keyedHash id := by
  constructor
  · intro h
    unfold parseVerified at h
    rcases parseBytes_cases (asBytes token) with herror | ⟨parsed, hok, hdecodes⟩
    · rw [parseUncached, herror] at h
      cases h
    · rw [parseUncached, hok] at h
      simp only [bind_eq_bind, bind_some, verify] at h
      split at h
      · cases h
      · rename_i hverified
        simp only [not_or, not_not] at hverified
        cases h
        have hparsed : parsed =
            ⟨codec.session, parsed.id, codec.authenticationTag keyedHash parsed.id⟩ := by
          rw [← hverified.1, ← hverified.2]
        rw [hparsed] at hdecodes
        exact hdecodes.unique (decodes_formatBytes keyedHash codec parsed.id)
  · intro h
    have hdecodes := decodes_formatBytes keyedHash codec id
    rw [← h] at hdecodes
    rw [parseVerified, parseUncached, hdecodes.parseBytes]
    simp [verify]

/-- No text makes the parser panic. -/
theorem parseVerified_total (token : String) :
    ∃ result, codec.parseVerified keyedHash token = some result := by
  unfold parseVerified
  rcases parseBytes_cases (asBytes token) with herror | ⟨parsed, hok, -⟩
  · rw [parseUncached, herror]
    exact ⟨_, rfl⟩
  · rw [parseUncached, hok]
    exact ⟨_, rfl⟩

end Codec

-- ---- The cache.

/-- What a thread's cache holds: tokens of handles, under the codec that verified them. -/
structure CacheOk (keyedHash : KeyedHash) (cache : VerifiedTokenCache) : Prop where
  sets    : cache.sets.length = cacheSets
  ways    : ∀ ways ∈ cache.sets, ways.length = cacheWays
  victims : cache.victims.length = cacheSets
  victim  : ∀ victim ∈ cache.victims, victim < cacheWays
  entries : ∀ ways ∈ cache.sets, ∀ entry, some entry ∈ ways →
    entry.token = TokenCodec.formatBytes keyedHash ⟨entry.session, entry.secret⟩
      ⟨entry.slot, entry.generation⟩

theorem CacheOk.new (keyedHash : KeyedHash) : CacheOk keyedHash .new where
  sets := rfl
  ways := fun ways hways => by
    rw [List.eq_of_mem_replicate hways]
    rfl
  victims := rfl
  victim := fun victim hvictim => by
    rw [List.eq_of_mem_replicate hvictim]
    decide
  entries := fun ways hways entry hentry => by
    rw [List.eq_of_mem_replicate hways] at hentry
    cases List.eq_of_mem_replicate hentry

theorem index_cases (bytes : List UInt8) : index bytes = some none ∨
      ∃ i, index bytes = some (some i) ∧ i < cacheSets ∧
        bytes.length = handleTokenLength := by
  unfold index
  split
  · exact .inl rfl
  · rename_i hlength
    have hlength : bytes.length = handleTokenLength := not_not.mp hlength
    have hlast : handleTokenLength - 1 < bytes.length := by
      rw [hlength]
      decide
    simp only [List.getElem?_eq_getElem hlast, bind_eq_bind, bind_some]
    cases hnibble : hexNibble bytes[handleTokenLength - 1] with
    | none => exact .inl rfl
    | some nibble => exact .inr ⟨nibble.toNat, rfl, (hexNibble_lt hnibble).1, hlength⟩

section Cache

variable {keyedHash : KeyedHash} {cache : VerifiedTokenCache} (codec : TokenCodec)
  (registryAddress : Nat) {token : String} {id : HandleId}

/-- **A hit is a token of the codec that asks.** -/
theorem CacheOk.lookup (h : CacheOk keyedHash cache) (token : String) :
    ∃ found, cache.lookup registryAddress codec token = some found ∧
      ∀ id, found = some id → asBytes token = codec.formatBytes keyedHash id := by
  unfold VerifiedTokenCache.lookup
  rcases index_cases (asBytes token) with hindex | ⟨i, hindex, hi, -⟩
  · simp only [hindex, bind_eq_bind, bind_some]
    exact ⟨none, rfl, nofun⟩
  · have hlt : i < cache.sets.length := by rwa [h.sets]
    simp only [hindex, bind_eq_bind, bind_some, List.getElem?_eq_getElem hlt]
    refine ⟨_, rfl, fun id hfound => ?_⟩
    obtain ⟨cell, hmem, hhit⟩ := List.exists_of_findSome?_eq_some hfound
    cases cell with
    | none => cases hhit
    | some entry =>
      rw [hit] at hhit
      split at hhit
      · rename_i hsame
        obtain ⟨-, hsession, htoken, hsecret⟩ := hsame
        cases hhit
        rw [← htoken, h.entries _ (List.getElem_mem hlt) entry hmem, hsession, hsecret]
      · cases hhit

theorem CacheOk.store (h : CacheOk keyedHash cache)
    (htoken : asBytes token = codec.formatBytes keyedHash id) :
    ∃ cache', cache.store registryAddress codec token id = some cache' ∧
      CacheOk keyedHash cache' := by
  unfold VerifiedTokenCache.store
  rcases index_cases (asBytes token) with hindex | ⟨i, hindex, hi, hlength⟩
  · simp only [hindex, bind_eq_bind, bind_some]
    exact ⟨cache, rfl, h⟩
  · have hlt : i < cache.sets.length := by rwa [h.sets]
    have hlt' : i < cache.victims.length := by rwa [h.victims]
    have hways := h.ways _ (List.getElem_mem hlt)
    have hvictim : cache.victims[i] < cache.sets[i].length := by
      rw [hways]
      exact h.victim _ (List.getElem_mem hlt')
    simp only [hindex, hlength, bind_eq_bind, bind_some, List.getElem?_eq_getElem hlt,
      List.getElem?_eq_getElem hlt', List.getElem?_eq_getElem hvictim]
    refine ⟨_, rfl, ?_⟩
    exact
      { sets := by rw [length_set, h.sets]
        ways := fun ways hmem => by
          rcases List.mem_or_eq_of_mem_set hmem with hmem | rfl
          · exact h.ways ways hmem
          · rw [length_set, hways]
        victims := by rw [length_set, h.victims]
        victim := fun victim hmem => by
          rcases List.mem_or_eq_of_mem_set hmem with hmem | rfl
          · exact h.victim victim hmem
          · exact Nat.mod_lt _ (by decide)
        entries := fun ways hmem entry hentry => by
          rcases List.mem_or_eq_of_mem_set hmem with hmem | rfl
          · exact h.entries ways hmem entry hentry
          · rcases List.mem_or_eq_of_mem_set hentry with hentry | heq
            · exact h.entries _ (List.getElem_mem hlt) entry hentry
            · cases heq
              exact htoken }

/-- **A call of `parse` returns what it returns without the cache.** -/
theorem CacheOk.parse (h : CacheOk keyedHash cache) (token : String) :
    ∃ result cache', codec.parse keyedHash cache registryAddress token = some (result, cache') ∧
      codec.parseVerified keyedHash token = some result ∧ CacheOk keyedHash cache' := by
  obtain ⟨found, hlookup, hfound⟩ := h.lookup codec registryAddress token
  unfold TokenCodec.parse
  rw [hlookup]
  cases found with
  | some id =>
    exact ⟨.ok id, cache, rfl, (parseVerified_eq_ok keyedHash codec).mpr (hfound id rfl), h⟩
  | none =>
    obtain ⟨result, hresult⟩ := parseVerified_total keyedHash codec token
    have hparse := hresult
    unfold parseVerified at hparse
    rcases parseBytes_cases (asBytes token) with herror | ⟨parsed, hok, -⟩
    · rw [parseUncached, herror] at hparse
      cases hparse
      rw [parseUncached, herror]
      exact ⟨_, cache, rfl, hresult, h⟩
    · rw [parseUncached, hok] at hparse
      cases hparse
      rw [parseUncached, hok]
      simp only [bind_eq_bind, bind_some]
      cases hverify : codec.verify keyedHash parsed with
      | error e => exact ⟨_, cache, rfl, hverify ▸ hresult, h⟩
      | ok id =>
        rw [hverify] at hresult
        obtain ⟨cache', hstore, hcache'⟩ := h.store codec registryAddress
          ((parseVerified_eq_ok keyedHash codec).mp hresult)
        simp only [hstore, bind_some]
        exact ⟨_, cache', rfl, hresult, hcache'⟩

/-- **The calls of a thread, from any cache that can be there.** -/
theorem CacheOk.parseAll (h : CacheOk keyedHash cache) (calls : List ParseCall) :
    ∃ results cache', parseAll keyedHash cache calls = some (results, cache') ∧
      calls.map (fun call => call.codec.parseVerified keyedHash call.token) =
        results.map some ∧ CacheOk keyedHash cache' := by
  induction calls generalizing cache with
  | nil => exact ⟨[], cache, rfl, rfl, h⟩
  | cons call calls ih =>
    obtain ⟨result, cache', hparse, hresult, hcache'⟩ := h.parse call.codec
      call.registryAddress call.token
    obtain ⟨results, cache'', hall, hresults, hcache''⟩ := ih hcache'
    refine ⟨result :: results, cache'', ?_, ?_, hcache''⟩
    · simp only [Token.parseAll, hparse, hall, bind_eq_bind, bind_some]
    · rw [map_cons, map_cons, hresult, hresults]

end Cache

-- ---- The guarantees.

/-- **The cache of verified tokens is transparent.** Every call of every history on a thread
returns what the parser and the verification return without it. -/
theorem cache_transparency (keyedHash : KeyedHash) (calls : List ParseCall) :
    ∃ results cache, parseAll keyedHash .new calls = some (results, cache) ∧
      calls.map (fun call => call.codec.parseVerified keyedHash call.token) =
        results.map some := by
  obtain ⟨results, cache, hall, hresults, -⟩ := (CacheOk.new keyedHash).parseAll calls
  exact ⟨results, cache, hall, hresults⟩

/-- **One spelling for each handle.** A token is read back, what is accepted is the token of
the handle it is read as, and nothing makes the parser panic; so it is with whatever the
calls before it have left in the cache. -/
theorem token_format (keyedHash : KeyedHash) (codec : TokenCodec) :
    (∀ id, ∃ token, codec.format keyedHash id = some token ∧
      codec.parseVerified keyedHash token = some (.ok id)) ∧
    (∀ token id, codec.parseVerified keyedHash token = some (.ok id) →
      codec.format keyedHash id = some token) ∧
    (∀ token, ∃ result, codec.parseVerified keyedHash token = some result) ∧
    ∀ calls results cache, parseAll keyedHash .new calls = some (results, cache) →
      ∀ registryAddress token, ∃ result cache',
        codec.parse keyedHash cache registryAddress token = some (result, cache') ∧
          codec.parseVerified keyedHash token = some result := by
  refine ⟨fun id => ?_, fun token id h => ?_, parseVerified_total keyedHash codec,
    fun calls results cache hcalls registryAddress token => ?_⟩
  · obtain ⟨token, htoken⟩ := exists_text (isValidUTF8_formatBytes keyedHash codec id)
    exact ⟨token, (format_eq_some keyedHash codec).mpr htoken,
      (parseVerified_eq_ok keyedHash codec).mpr htoken⟩
  · exact (format_eq_some keyedHash codec).mpr ((parseVerified_eq_ok keyedHash codec).mp h)
  · obtain ⟨results', cache', hall, -, hcache⟩ := (CacheOk.new keyedHash).parseAll calls
    rw [hcalls] at hall
    cases hall
    obtain ⟨result, cache', hparse, hresult, -⟩ := hcache.parse codec registryAddress token
    exact ⟨result, cache', hparse, hresult⟩

end Xlfn.Handle.Token
