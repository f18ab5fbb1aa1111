import Xlfn.Lib.Hex
import Xlfn.Lib.Radix

/-!
# Xlfn — the transport form of a subscription key

A key travels through a formula as text: a mark, the id of the runtime, a colon and the id of
the subscription, each id as sixteen hexadecimal digits. What comes back is any text. An index
out of range and a conversion that fails have no result.

* `SubscriptionKey.toTransport`, `parseTransport` — the code.
-/

namespace Xlfn.Subscription.Transport

open Xlfn.Lib Xlfn.Lib.Utf16 Xlfn.Lib.Radix Char List Option String

-- ---- The code.

inductive XllError where
  | invalidHandle
deriving DecidableEq

structure SubscriptionKey where
  runtimeId      : UInt64
  subscriptionId : UInt64
deriving DecidableEq

/-- `u64::MAX`. -/
def u64Max : Nat := 2 ^ 64 - 1

/-- `HEX`. -/
def hexTable : List UInt8 :=
  [48, 49, 50, 51, 52, 53, 54, 55, 56, 57, 97, 98, 99, 100, 101, 102]

/-- `PREFIX`. -/
def transportMark : List Char := ['s', 't', 'r', 'e', 'a', 'm', ':', 'v', '1', ':']

/-- `b"stream:v1:"`. -/
def markBytes : List UInt8 := [115, 116, 114, 101, 97, 109, 58, 118, 49, 58]

/-- The bytes of a key before its digits are written. -/
def template : List UInt8 :=
  markBytes ++ List.replicate 16 48 ++ [58] ++ List.replicate 16 48

/-- `encoded[index] = byte`. -/
def write (encoded : List UInt8) (index : Nat) (byte : UInt8) : Option (List UInt8) :=
  if index < encoded.length then some (encoded.set index byte) else none

/-- `HEX[((value >> shift) & 0xf) as usize]`. -/
def digitAt (value : UInt64) (shift : Nat) : Option UInt8 :=
  hexTable[((value >>> UInt64.ofNat shift) &&& 0xf).toNat]?

/-- The body of the loop. -/
def writeDigits (key : SubscriptionKey) (encoded : List UInt8) (offset : Nat) :
    Option (List UInt8) := do
  let shift := 4 * (15 - offset)
  let encoded ← write encoded (10 + offset) (← digitAt key.runtimeId shift)
  write encoded (27 + offset) (← digitAt key.subscriptionId shift)

/-- `to_transport`. -/
def SubscriptionKey.toTransport (key : SubscriptionKey) : Option (List UInt8) :=
  (List.range 16).foldlM (writeDigits key) template

/-- `as_str`. -/
def asStr (encoded : List UInt8) : Option (List Char) :=
  (String.fromUTF8? encoded.toByteArray).map String.toList

/-- `str::strip_prefix`. -/
def stripMark (mark value : List Char) : Option (List Char) :=
  if mark.isPrefixOf value then some (value.drop mark.length) else none

/-- `str::split_once`. -/
def splitOnce (separator : Char) : List Char → Option (List Char × List Char)
  | [] => none
  | c :: cs =>
    if c = separator then some ([], cs)
    else (splitOnce separator cs).map fun parts => (c :: parts.1, parts.2)

/-- `parse_fixed_hex`. -/
def parseFixedHex (value : List Char) : Option (Option UInt64) :=
  if (utf8 value).length = 16 ∧ (utf8 value).all isAsciiHexdigit then
    (fromAsciiRadix u64Max (utf8 value) 16).map fun parsed => parsed.toOption.map UInt64.ofNat
  else some none

/-- `parse_transport`. -/
def parseTransport (value : List Char) : Option (Except XllError SubscriptionKey) :=
  match stripMark transportMark value with
  | none => some (.error .invalidHandle)
  | some rest =>
    match splitOnce ':' rest with
    | none => some (.error .invalidHandle)
    | some (runtime, subscription) => do
      let some runtimeId ← parseFixedHex runtime | some (.error .invalidHandle)
      let some subscriptionId ← parseFixedHex subscription | some (.error .invalidHandle)
      some (.ok ⟨runtimeId, subscriptionId⟩)

-- ---- The format.

/-- The mark, sixteen hexadecimal digits, a colon and sixteen hexadecimal digits, which denote
the ids of the key. -/
def TransportForm (text : List Char) (key : SubscriptionKey) : Prop :=
  ∃ runtime subscription : List Char,
    text = transportMark ++ runtime ++ ':' :: subscription ∧
    HexNumber 16 runtime key.runtimeId.toNat ∧
    HexNumber 16 subscription key.subscriptionId.toNat

-- ---- Writing.

theorem digitAt_eq (value : UInt64) {places : Nat} (hplaces : places < 16) :
    digitAt value (4 * places) = some (Hex.digit (value.toNat / 16 ^ places % 16)) := by
  have hshift : (value >>> UInt64.ofNat (4 * places)).toNat = value.toNat / 16 ^ places := by
    rw [UInt64.toNat_shiftRight, UInt64.toNat_ofNat_of_lt' (by rw [UInt64.size]; omega),
      Nat.mod_eq_of_lt (by omega), Nat.shiftRight_eq_div_pow, pow_mul]
    rfl
  have hmask : ((value >>> UInt64.ofNat (4 * places)) &&& 0xf).toNat =
      value.toNat / 16 ^ places % 16 := by
    rw [UInt64.toNat_and, hshift]
    exact Nat.and_two_pow_sub_one_eq_mod _ 4
  have htable : ∀ digit < 16, hexTable[digit]? = some (Hex.digit digit) := by decide
  rw [digitAt, hmask, htable _ (Nat.mod_lt _ (by decide))]

/-- The bytes when the first `n` digits of both ids are written. -/
def written (key : SubscriptionKey) (n : Nat) : List UInt8 :=
  markBytes ++
    (Hex.encode n (key.runtimeId.toNat / 16 ^ (16 - n)) ++ List.replicate (16 - n) 48) ++ [58] ++
    (Hex.encode n (key.subscriptionId.toNat / 16 ^ (16 - n)) ++ List.replicate (16 - n) 48)

theorem write_open (before after : List UInt8) (value : Nat) {n index : Nat} (hn : n < 16)
    (hindex : index = before.length + n) :
    write (before ++ (Hex.encode n (value / 16 ^ (16 - n)) ++ List.replicate (16 - n) 48) ++ after)
        index (Hex.digit (value / 16 ^ (15 - n) % 16)) =
      some (before ++ (Hex.encode (n + 1) (value / 16 ^ (16 - (n + 1))) ++
        List.replicate (16 - (n + 1)) 48) ++ after) := by
  have hsucc : 16 - n = (15 - n) + 1 := by omega
  have hnext : 16 - (n + 1) = 15 - n := by omega
  have hdiv : value / 16 ^ (16 - n) = value / 16 ^ (15 - n) / 16 := by
    rw [hsucc, pow_succ, Nat.div_div_eq_div_mul]
  subst hindex
  rw [write, if_pos (by simp; omega), hdiv, hnext, Hex.encode, hsucc, replicate_succ]
  simp

theorem writeDigits_written (key : SubscriptionKey) {n : Nat} (hn : n < 16) :
    writeDigits key (written key n) n = some (written key (n + 1)) := by
  have hfirst := write_open markBytes
    ([58] ++ (Hex.encode n (key.subscriptionId.toNat / 16 ^ (16 - n)) ++
      List.replicate (16 - n) 48)) key.runtimeId.toNat hn (show 10 + n = _ from rfl)
  have hlength : 27 + n = (markBytes ++ (Hex.encode (n + 1)
      (key.runtimeId.toNat / 16 ^ (16 - (n + 1))) ++ List.replicate (16 - (n + 1)) 48) ++
        [58]).length + n := by
    simp [markBytes]
    omega
  have hsecond := write_open _ [] key.subscriptionId.toNat hn hlength
  rw [append_nil, append_nil] at hsecond
  rw [writeDigits]
  simp only [digitAt_eq _ (show 15 - n < 16 by omega), bind_eq_bind, bind_some]
  rw [written, List.append_assoc _ [58], hfirst, bind_some, ← List.append_assoc _ [58], hsecond]
  rfl

/-- **What a key is written as**. -/
theorem toTransport_eq (key : SubscriptionKey) :
    key.toTransport = some (markBytes ++ Hex.encode 16 key.runtimeId.toNat ++ [58] ++
      Hex.encode 16 key.subscriptionId.toNat) := by
  have hrun (n : Nat) (hn : n ≤ 16) :
      (range n).foldlM (writeDigits key) template = some (written key n) := by
    induction n with
    | zero => rfl
    | succ n ih =>
      rw [range_succ, foldlM_append, ih (by omega)]
      simp [writeDigits_written key (show n < 16 by omega)]
  rw [SubscriptionKey.toTransport, hrun 16 le_rfl]
  simp [written]

-- ---- Bytes and text.

theorem asStr_utf8 (text : List Char) : asStr (utf8 text) = some text := by
  have hbytes : (utf8 text).toByteArray = (ofList text).toByteArray := by
    rw [toByteArray_ofList]
    rfl
  have hvalid : (utf8 text).toByteArray.IsValidUTF8 := ⟨text, rfl⟩
  have hstring : ofByteArray (utf8 text).toByteArray hvalid = ofList text :=
    String.toByteArray_inj.mp hbytes
  rw [asStr, fromUTF8?, dif_pos hvalid]
  change some (ofByteArray (utf8 text).toByteArray hvalid).toList = _
  rw [hstring, toList_ofList]

theorem hexValue_digit {digit : Nat} (h : digit < 16) :
    hexValue (ofUInt8 (Hex.digit digit)) = some digit := by
  have hall : ∀ digit < 16, hexValue (ofUInt8 (Hex.digit digit)) = some digit := by decide
  exact hall digit h

theorem hexNumber_encode {n value : Nat} (h : value < 16 ^ n) :
    HexNumber n ((Hex.encode n value).map ofUInt8) value := by
  induction n generalizing value with
  | zero =>
    refine ⟨[], rfl, rfl, ?_⟩
    have hzero : value = 0 := by simpa using h
    rw [hzero]
    rfl
  | succ n ih =>
    have hdiv : value / 16 < 16 ^ n := by
      rw [Nat.div_lt_iff_lt_mul (by decide)]
      rwa [pow_succ] at h
    obtain ⟨digits, hlength, hdigits, hvalue⟩ := ih hdiv
    refine ⟨digits ++ [value % 16], by simp [hlength], ?_, ?_⟩
    · rw [Hex.encode, map_append, map_append, hdigits, map_append]
      simp [hexValue_digit (Nat.mod_lt value (show 0 < 16 by decide))]
    · rw [reverse_append, reverse_singleton, singleton_append, Nat.ofDigits_cons, hvalue]
      omega

theorem utf8_encode (n value : Nat) :
    utf8 ((Hex.encode n value).map ofUInt8) = Hex.encode n value := by
  have hchar : ∀ digit < 16, utf8 [ofUInt8 (Hex.digit digit)] = [Hex.digit digit] := by
    decide
  induction n generalizing value with
  | zero => rfl
  | succ n ih =>
    rw [Hex.encode, map_append, utf8_append, ih, map_singleton, hchar _ (Nat.mod_lt _ (by decide))]

-- ---- Reading.

theorem stripMark_eq_some {mark value rest : List Char} :
    stripMark mark value = some rest ↔ value = mark ++ rest := by
  unfold stripMark
  split
  · rename_i h
    obtain ⟨rest', rfl⟩ := isPrefixOf_iff_prefix.mp h
    simp
  · rename_i h
    refine ⟨nofun, ?_⟩
    rintro rfl
    exact absurd ( isPrefixOf_iff_prefix.mpr (prefix_append ..)) h

theorem splitOnce_eq_some {separator : Char} {text before after : List Char} :
    splitOnce separator text = some (before, after) ↔
      text = before ++ separator :: after ∧ separator ∉ before := by
  induction text generalizing before with
  | nil =>
    refine ⟨nofun, ?_⟩
    rintro ⟨h, -⟩
    cases before <;> cases h
  | cons c text ih =>
    unfold splitOnce
    by_cases hc : c = separator
    · rw [if_pos hc]
      subst hc
      constructor
      · intro h
        cases h
        exact ⟨rfl, by simp⟩
      · rintro ⟨h, hnot⟩
        cases before with
        | nil =>
          cases h
          rfl
        | cons d before =>
          cases h
          exact absurd mem_cons_self hnot
    · rw [if_neg hc, map_eq_some_iff]
      constructor
      · rintro ⟨⟨front, back⟩, hsplit, heq⟩
        cases heq
        obtain ⟨rfl, hnot⟩ := ih.mp hsplit
        refine ⟨rfl, ?_⟩
        rw [mem_cons, not_or]
        exact ⟨Ne.symm hc, hnot⟩
      · rintro ⟨h, hnot⟩
        cases before with
        | nil =>
          cases h
          exact absurd rfl hc
        | cons d before =>
          cases h
          rw [mem_cons, not_or] at hnot
          exact ⟨(before, after), ih.mpr ⟨rfl, hnot.2⟩, rfl⟩

theorem colon_not_mem {width value : Nat} {text : List Char} (h : HexNumber width text value) :
    ':' ∉ text := by
  obtain ⟨digits, -, hdigits, -⟩ := h
  intro hmem
  obtain ⟨digit, hdigit⟩ := hexDigit_of_mem hdigits hmem
  have hnone : hexValue ':' = none := by decide
  rw [hnone] at hdigit
  cases hdigit

theorem parseFixedHex_of_hexNumber {value : List Char} {number : Nat}
    (h : HexNumber 16 value number) :
    parseFixedHex value = some (some (UInt64.ofNat number)) := by
  have hlt := h.lt
  have hbytes := h.length_utf8
  have hne : value ≠ [] := by
    rintro rfl
    cases hbytes
  obtain ⟨digits, -, hdigits, rfl⟩ := h
  have hmax : Nat.ofDigits 16 digits.reverse ≤ u64Max := by
    rw [u64Max]
    omega
  rw [parseFixedHex, if_pos ⟨hbytes, (hexDigits_iff value).mpr ⟨digits, hdigits⟩⟩,
    fromAsciiRadix_hex hne hdigits hmax]
  rfl

/-- **One id**: sixteen digits, and no other text. -/
theorem parseFixedHex_iff (value : List Char) : ∃ parsed, parseFixedHex value = some parsed ∧
      ∀ id : UInt64, parsed = some id ↔ HexNumber 16 value id.toNat := by
  by_cases hvalue : ∃ number, HexNumber 16 value number
  · obtain ⟨number, hnumber⟩ := hvalue
    refine ⟨_, parseFixedHex_of_hexNumber hnumber, fun id => ?_⟩
    have hlt : number < UInt64.size := hnumber.lt
    rw [some.injEq]
    constructor
    · rintro rfl
      rwa [UInt64.toNat_ofNat_of_lt' hlt]
    · intro hid
      obtain ⟨digits, -, hdigits, rfl⟩ := hnumber
      obtain ⟨digits', -, hdigits', hid⟩ := hid
      have hsame : digits = digits' :=
        map_injective_iff.mpr (some_injective Nat) (hdigits.symm.trans hdigits')
      rw [hsame, hid, UInt64.ofNat_toNat]
  · have hrefused : ¬((utf8 value).length = 16 ∧ (utf8 value).all isAsciiHexdigit = true) := by
      rintro ⟨hlength, hall⟩
      obtain ⟨digits, hdigits⟩ := (hexDigits_iff value).mp hall
      have hnumber : HexNumber digits.length value _ := ⟨digits, rfl, hdigits, rfl⟩
      rw [← hnumber.length_utf8, hlength] at hnumber
      exact hvalue ⟨_, hnumber⟩
    refine ⟨none, if_neg hrefused, fun id => ?_⟩
    refine ⟨nofun, ?_⟩
    intro hid
    exact absurd ⟨_, hid⟩ hvalue

/-- **What is read has the format**, and everything that has it is read. -/
theorem parseTransport_iff (text : List Char) : ∃ result, parseTransport text = some result ∧
      ∀ key, result = .ok key ↔ TransportForm text key := by
  -- A text that is not cut as the format says is refused.
  have hrefuse (hnot : ∀ key, ¬TransportForm text key) :
      ∀ key, Except.error XllError.invalidHandle = .ok key ↔ TransportForm text key :=
    fun key => ⟨nofun, fun h => absurd h (hnot key)⟩
  unfold parseTransport
  cases hrest : stripMark transportMark text with
  | none =>
    refine ⟨_, rfl, hrefuse ?_⟩
    rintro key ⟨runtime, subscription, htext, -⟩
    rw [List.append_assoc] at htext
    rw [stripMark_eq_some.mpr htext] at hrest
    cases hrest
  | some rest =>
    have htext := stripMark_eq_some.mp hrest
    -- Digits have no colon, so the first one is the one of the format.
    have hparts {key : SubscriptionKey} (hform : TransportForm text key) :
        ∃ runtime subscription, splitOnce ':' rest = some (runtime, subscription) ∧
          HexNumber 16 runtime key.runtimeId.toNat ∧
          HexNumber 16 subscription key.subscriptionId.toNat := by
      obtain ⟨runtime, subscription, heq, hruntime, hsubscription⟩ := hform
      rw [htext, List.append_assoc] at heq
      exact ⟨runtime, subscription, splitOnce_eq_some.mpr
        ⟨append_cancel_left heq, colon_not_mem hruntime⟩, hruntime, hsubscription⟩
    dsimp only
    cases hsplit : splitOnce ':' rest with
    | none =>
      refine ⟨_, rfl, hrefuse ?_⟩
      intro key hform
      obtain ⟨runtime, subscription, hcut, -⟩ := hparts hform
      rw [hsplit] at hcut
      cases hcut
    | some parts =>
      obtain ⟨runtime, subscription⟩ := parts
      obtain ⟨parsedRuntime, hruntime, hruntimeIff⟩ := parseFixedHex_iff runtime
      obtain ⟨parsedSubscription, hsubscription, hsubscriptionIff⟩ :=
        parseFixedHex_iff subscription
      have hdigits {key : SubscriptionKey} (hform : TransportForm text key) :
          parsedRuntime = some key.runtimeId ∧ parsedSubscription = some key.subscriptionId := by
        obtain ⟨runtime', subscription', hcut, hr, hs⟩ := hparts hform
        rw [hsplit, some.injEq, Prod.mk.injEq] at hcut
        obtain ⟨rfl, rfl⟩ := hcut
        exact ⟨(hruntimeIff _).mpr hr, (hsubscriptionIff _).mpr hs⟩
      dsimp only
      simp only [hruntime, hsubscription, bind_eq_bind, bind_some]
      cases parsedRuntime with
      | none =>
        refine ⟨_, rfl, hrefuse fun key hform => ?_⟩
        cases (hdigits hform).1
      | some runtimeId =>
        cases parsedSubscription with
        | none =>
          refine ⟨_, rfl, hrefuse fun key hform => ?_⟩
          cases (hdigits hform).2
        | some subscriptionId =>
          refine ⟨_, rfl, fun key => ?_⟩
          constructor
          · intro hkey
            cases hkey
            have hcut := (splitOnce_eq_some.mp hsplit).1
            refine ⟨runtime, subscription, ?_, (hruntimeIff _).mp rfl, (hsubscriptionIff _).mp rfl⟩
            rw [htext, hcut, List.append_assoc]
          · intro hform
            obtain ⟨hr, hs⟩ := hdigits hform
            cases hr
            cases hs
            rfl

/-- **The transport of a key.** Every key is written and read back as itself. A text is read as a
key exactly if it is the mark, sixteen hexadecimal digits, a colon and sixteen hexadecimal digits
that denote the ids of the key; no text is without a result. -/
theorem key_transport_exact :
    (∀ key : SubscriptionKey, ∃ encoded text, key.toTransport = some encoded ∧
      asStr encoded = some text ∧ parseTransport text = some (.ok key)) ∧
    ∀ text, ∃ result, parseTransport text = some result ∧
      ∀ key, result = .ok key ↔ TransportForm text key := by
  refine ⟨fun key => ?_, parseTransport_iff⟩
  let text := transportMark ++ (Hex.encode 16 key.runtimeId.toNat).map ofUInt8 ++
    ':' :: (Hex.encode 16 key.subscriptionId.toNat).map ofUInt8
  have hform : TransportForm text key :=
    ⟨_, _, rfl, hexNumber_encode key.runtimeId.toNat_lt,
      hexNumber_encode key.subscriptionId.toNat_lt⟩
  have hmark : utf8 transportMark = markBytes := by decide
  have hcolon : utf8EncodeChar ':' = [58] := by decide
  have hbytes : utf8 text = markBytes ++ Hex.encode 16 key.runtimeId.toNat ++ [58] ++
      Hex.encode 16 key.subscriptionId.toNat := by
    rw [utf8_append, utf8_append, hmark, utf8_encode, utf8_cons, hcolon, utf8_encode,
      List.append_assoc _ [58]]
  obtain ⟨result, hparse, hresult⟩ := parseTransport_iff text
  rw [(hresult key).mpr hform] at hparse
  refine ⟨_, text, toTransport_eq key, ?_, hparse⟩
  rw [← hbytes]
  exact asStr_utf8 text

end Xlfn.Subscription.Transport
