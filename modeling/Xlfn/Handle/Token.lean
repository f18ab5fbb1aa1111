import Xlfn.Lib.Hex

/-!
# Xlfn — handle tokens

`handle/token.rs` writes the identity of a handle into a cell and reads it back from
whatever text a cell holds. A token is 82 bytes: a mark, the session, the slot and the
generation of the handle in hexadecimal, and a tag of the keyed hash over them. The last
tokens a thread verified are kept in a small cache.

* The keyed hash is a parameter.
* A function that indexes or slices its input returns `none` where that panics. The
  `debug_assert` of `decode_hex` is one such place.
* The cache is an argument and a result of `parse`. A registry is known by its address.
-/

namespace Xlfn.Handle.Token

-- ---- Hexadecimal.

/-- `HEX`. -/
def hexTable : List UInt8 :=
  [48, 49, 50, 51, 52, 53, 54, 55, 56, 57, 97, 98, 99, 100, 101, 102]

/-- `write_hex` into a field of `n` bytes, which it fills from its end. -/
def writeHex (value : UInt64) : Nat → List UInt8
  | 0 => []
  | n + 1 => writeHex (value >>> 4) n ++ [hexTable.getD (value &&& 0xf).toNat 0]

/-- `hex_nibble`. -/
def hexNibble (value : UInt8) : Option UInt8 :=
  if 48 ≤ value ∧ value ≤ 57 then some (value - 48)
  else if 97 ≤ value ∧ value ≤ 102 then some (value - 97 + 10)
  else none

/-- `decode_hex`. -/
def decodeHex (encoded : List UInt8) : Option (Option UInt64) :=
  if encoded.length ≤ 16 then
    some (encoded.foldlM (fun value byte => do
      let nibble ← hexNibble byte
      some ((value <<< 4) ||| nibble.toUInt64)) 0)
  else
    none

/-- The pairs of `decode_tag`. -/
def decodePairs : List UInt8 → Option (List UInt8)
  | high :: low :: rest => do
    let high ← hexNibble high
    let low ← hexNibble low
    let rest ← decodePairs rest
    some ((high <<< 4 ||| low) :: rest)
  | _ => some []

/-- `decode_tag`. -/
def decodeTag (encoded : List UInt8) : Option (List UInt8) :=
  if encoded.length ≠ 32 then none else decodePairs encoded

/-- The pairs that `format` writes for the tag. -/
def writePairs (tag : List UInt8) : List UInt8 :=
  tag.flatMap fun byte : UInt8 =>
    [hexTable.getD (byte >>> 4).toNat 0, hexTable.getD (byte &&& 0xf).toNat 0]

-- ---- Tokens.

/-- `BindingGeneration`. -/
structure BindingGeneration where
  value : UInt64
  pos   : value ≠ 0
deriving DecidableEq

/-- `BindingGeneration::new`. -/
def BindingGeneration.new (raw : UInt64) : Option BindingGeneration :=
  if h : raw ≠ 0 then some ⟨raw, h⟩ else none

structure HandleId where
  slot       : UInt32
  generation : BindingGeneration
deriving DecidableEq

structure ParsedHandleToken where
  session : UInt64
  id      : HandleId
  tag     : List UInt8
deriving DecidableEq

structure TokenCodec where
  session : UInt64
  secret  : Vector UInt8 32
deriving DecidableEq

inductive XllError where
  | invalidHandle
deriving DecidableEq

/-- `HANDLE_TOKEN_LENGTH`. -/
def handleTokenLength : Nat := 82

/-- `b"xllh:3:"`. -/
def mark : List UInt8 := [120, 108, 108, 104, 58, 51, 58]

/-- `b':'`. -/
def colon : UInt8 := 58

/-- `bytes[start..stop]`. -/
def slice (bytes : List UInt8) (start stop : Nat) : Option (List UInt8) :=
  if start ≤ stop ∧ stop ≤ bytes.length then some ((bytes.drop start).take (stop - start))
  else none

/-- `to_le_bytes` of a number of `n` bytes. -/
def leBytes (n value : Nat) : List UInt8 :=
  (List.range n).map fun i => UInt8.ofNat (value >>> (8 * i))

/-- The bytes of a string. -/
def asBytes (s : String) : List UInt8 := s.toByteArray.data.toList

/-- The keyed hash: secret, message and output. -/
abbrev KeyedHash := Vector UInt8 32 → List UInt8 → Vector UInt8 32

namespace TokenCodec

variable (keyedHash : KeyedHash) (codec : TokenCodec)

/-- `b"xlfn-handle-token-v1\0"`. -/
def domain : List UInt8 :=
  [120, 108, 102, 110, 45, 104, 97, 110, 100, 108, 101, 45, 116, 111, 107, 101, 110, 45, 118, 49, 0]

/-- `authentication_tag`. -/
def authenticationTag (id : HandleId) : List UInt8 :=
  (keyedHash codec.secret (domain ++ leBytes 8 codec.session.toNat ++ leBytes 4 id.slot.toNat ++
    leBytes 8 id.generation.value.toNat)).toList.take 16

/-- The bytes of `format`. -/
def formatBytes (id : HandleId) : List UInt8 :=
  mark ++ writeHex codec.session 16 ++ [colon] ++ writeHex id.slot.toUInt64 8 ++ [colon] ++
    writeHex id.generation.value 16 ++ [colon] ++ writePairs (codec.authenticationTag keyedHash id)

/-- `format`. -/
def format (id : HandleId) : Option String :=
  String.fromUTF8? (codec.formatBytes keyedHash id).toByteArray

/-- The shape of a token, tested from left to right. -/
def wellShaped (bytes : List UInt8) : Option Bool :=
  if bytes.length ≠ handleTokenLength then some false
  else if ¬ mark <+: bytes then some false
  else do
    let first ← bytes[23]?
    if first ≠ colon then some false
    else do
      let second ← bytes[32]?
      if second ≠ colon then some false
      else do
        let third ← bytes[49]?
        some (third = colon)

/-- `parse_uncached` on the bytes of a text. -/
def parseBytes (bytes : List UInt8) : Option (Except XllError ParsedHandleToken) := do
  if ¬ (← wellShaped bytes) then some (.error .invalidHandle)
  else do
    let some session ← decodeHex (← slice bytes 7 23) | some (.error .invalidHandle)
    let some slot ← decodeHex (← slice bytes 24 32) | some (.error .invalidHandle)
    let some generation ← (decodeHex (← slice bytes 33 49)).map (·.bind BindingGeneration.new)
      | some (.error .invalidHandle)
    let some tag := decodeTag (← slice bytes 50 bytes.length) | some (.error .invalidHandle)
    some (.ok ⟨session, ⟨slot.toUInt32, generation⟩, tag⟩)

/-- `parse_uncached`. -/
def parseUncached (token : String) : Option (Except XllError ParsedHandleToken) :=
  parseBytes (asBytes token)

/-- `verify`. -/
def verify (parsed : ParsedHandleToken) : Except XllError HandleId :=
  if parsed.session ≠ codec.session ∨ parsed.tag ≠ codec.authenticationTag keyedHash parsed.id then
    .error .invalidHandle
  else
    .ok parsed.id

/-- `parse` past its cache. -/
def parseVerified (token : String) : Option (Except XllError HandleId) := do
  match ← parseUncached token with
  | .error e => some (.error e)
  | .ok parsed => some (codec.verify keyedHash parsed)

end TokenCodec

-- ---- The cache of verified tokens.

/-- `VERIFIED_TOKEN_CACHE_SETS`. -/
def cacheSets : Nat := 16

/-- `VERIFIED_TOKEN_CACHE_WAYS`. -/
def cacheWays : Nat := 4

structure VerifiedTokenCacheEntry where
  registryAddress : Nat
  session         : UInt64
  secret          : Vector UInt8 32
  token           : List UInt8
  slot            : UInt32
  generation      : BindingGeneration
deriving DecidableEq

structure VerifiedTokenCache where
  sets    : List (List (Option VerifiedTokenCacheEntry))
  victims : List Nat

namespace VerifiedTokenCache

def new : VerifiedTokenCache where
  sets    := List.replicate cacheSets (List.replicate cacheWays none)
  victims := List.replicate cacheSets 0

/-- `verified_token_cache_index`. -/
def index (bytes : List UInt8) : Option (Option Nat) :=
  if bytes.length ≠ handleTokenLength then some none
  else do
    let last ← bytes[handleTokenLength - 1]?
    some ((hexNibble last).map UInt8.toNat)

/-- The comparison of a hit. -/
def hit (registryAddress : Nat) (codec : TokenCodec) (bytes : List UInt8) :
    Option VerifiedTokenCacheEntry → Option HandleId
  | none => none
  | some entry =>
    if entry.registryAddress = registryAddress ∧ entry.session = codec.session ∧
        entry.token = bytes ∧ entry.secret = codec.secret then
      some ⟨entry.slot, entry.generation⟩
    else
      none

/-- `verified_token_cache_lookup`. -/
def lookup (cache : VerifiedTokenCache) (registryAddress : Nat) (codec : TokenCodec)
    (token : String) : Option (Option HandleId) := do
  let bytes := asBytes token
  match ← index bytes with
  | none => some none
  | some index =>
    let ways ← cache.sets[index]?
    some (ways.findSome? (hit registryAddress codec bytes))

/-- `verified_token_cache_store`. -/
def store (cache : VerifiedTokenCache) (registryAddress : Nat) (codec : TokenCodec)
    (token : String) (id : HandleId) : Option VerifiedTokenCache := do
  let bytes := asBytes token
  match ← index bytes with
  | none => some cache
  | some index =>
    guard (bytes.length = handleTokenLength)
    let victim ← cache.victims[index]?
    let ways ← cache.sets[index]?
    let _ ← ways[victim]?
    some {
      sets := cache.sets.set index (ways.set victim (some
        ⟨registryAddress, codec.session, codec.secret, bytes, id.slot, id.generation⟩))
      victims := cache.victims.set index ((victim + 1) % cacheWays) }

end VerifiedTokenCache

/-- `parse`. -/
def TokenCodec.parse (keyedHash : KeyedHash) (codec : TokenCodec) (cache : VerifiedTokenCache)
    (registryAddress : Nat) (token : String) :
    Option (Except XllError HandleId × VerifiedTokenCache) := do
  match ← cache.lookup registryAddress codec token with
  | some id => some (.ok id, cache)
  | none =>
    match ← TokenCodec.parseUncached token with
    | .error e => some (.error e, cache)
    | .ok parsed =>
      match codec.verify keyedHash parsed with
      | .error e => some (.error e, cache)
      | .ok id =>
        let cache ← cache.store registryAddress codec token id
        some (.ok id, cache)

/-- One call of `parse` on a thread. -/
structure ParseCall where
  codec           : TokenCodec
  registryAddress : Nat
  token           : String

/-- The calls of a thread, one after the other, with what they return. -/
def parseAll (keyedHash : KeyedHash) (cache : VerifiedTokenCache) :
    List ParseCall → Option (List (Except XllError HandleId) × VerifiedTokenCache)
  | [] => some ([], cache)
  | call :: calls => do
    let (result, cache) ← call.codec.parse keyedHash cache call.registryAddress call.token
    let (results, cache) ← parseAll keyedHash cache calls
    some (result :: results, cache)

end Xlfn.Handle.Token
