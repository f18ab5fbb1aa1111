import Xlfn.Handle.Token
import Xlfn.Text.Utf16Decoder

/-!
# Xlfn — tokens from counted text

A token arrives as UTF-16. Units as many as a token has bytes are narrowed into a buffer on the
stack while they are ASCII; all other text goes through the strict decoder. The operation is an
action of any monad, so what is called, and how often, is part of the result.

* `withUtf16HandleToken` — the code.
-/

namespace Xlfn.Handle.TokenText

open Xlfn.Lib.Utf16 Xlfn.Text Token

/-- `XllError`, with the errors of the operation. -/
inductive XllError (E : Type) where
  | input (error : Text.XllError)
  | invalidHandle
  | operation (error : E)

variable {M : Type → Type} [Monad M] {E R : Type}

/-- `?` on a decoded text, and the call. -/
def callWith (operation : List UInt8 → M (Except (XllError E) R)) :
    Except Text.XllError (List UInt8) → M (Except (XllError E) R)
  | .ok token => operation token
  | .error error => pure (.error (.input error))

/-- The call behind `decode_owned`. -/
def decodeAndCall (usizeMax spare : Nat) (units : List UInt16) (argument : String)
    (operation : List UInt8 → M (Except (XllError E) R)) : Option (M (Except (XllError E) R)) :=
  (decodeOwned usizeMax spare units argument).map fun decoded => callWith operation decoded.result

/-- The loop over the buffer and the units, left at the first unit that is not ASCII. -/
def narrow : List UInt8 → List UInt16 → Option (List UInt8)
  | _ :: bytes, unit :: units =>
    if 0x7f < unit.toNat then none else (narrow bytes units).map (unit.toUInt8 :: ·)
  | bytes, _ => some bytes

/-- `with_utf16_handle_token`. -/
def withUtf16HandleToken (usizeMax spare : Nat) (units : List UInt16) (argument : String)
    (operation : List UInt8 → M (Except (XllError E) R)) : Option (M (Except (XllError E) R)) :=
  if units.length = handleTokenLength then
    match narrow (List.replicate handleTokenLength 0) units with
    | none => decodeAndCall usizeMax spare units argument operation
    | some bytes =>
      match String.fromUTF8? bytes.toByteArray with
      | none => some (pure (.error .invalidHandle))
      | some _ => some (operation bytes)
  else decodeAndCall usizeMax spare units argument operation

/-- **The narrowed units** are the UTF-8 form of their text. -/
theorem narrow_eq {bytes : List UInt8} {units : List UInt16}
    (hlength : bytes.length = units.length) :
    (narrow bytes units = none ∧ ∃ unit ∈ units, 0x80 ≤ unit.toNat) ∨
    (narrow bytes units = some (utf8 (plainChars units)) ∧ ∀ unit ∈ units, unit.toNat < 0x80) := by
  induction units generalizing bytes with
  | nil =>
    rw [List.length_eq_zero_iff.mp hlength]
    exact .inr ⟨rfl, by simp⟩
  | cons unit units ih =>
    cases bytes with
    | nil => cases hlength
    | cons byte bytes =>
      unfold narrow
      by_cases hlarge : 0x7f < unit.toNat
      · rw [if_pos hlarge]
        exact .inl ⟨rfl, unit, List.mem_cons_self, hlarge⟩
      · have hascii : unit.toNat < 0x80 := by omega
        rw [if_neg hlarge]
        rcases ih (Nat.succ.inj hlength) with ⟨hnone, other, hmem, hother⟩ | ⟨hsome, hrest⟩
        · rw [hnone]
          exact .inl ⟨rfl, other, List.mem_cons_of_mem _ hmem, hother⟩
        · rw [hsome, plainChars_cons, utf8_cons, utf8EncodeChar_asciiUnit hascii]
          refine .inr ⟨rfl, fun other hmem => ?_⟩
          rcases List.mem_cons.mp hmem with rfl | hmem
          · exact hascii
          · exact hrest other hmem

theorem withUtf16HandleToken_eq (usizeMax spare : Nat) (units : List UInt16) (argument : String)
    (operation : List UInt8 → M (Except (XllError E) R)) :
    withUtf16HandleToken usizeMax spare units argument operation =
      decodeAndCall usizeMax spare units argument operation := by
  unfold withUtf16HandleToken
  by_cases hlength : units.length = handleTokenLength
  · rw [if_pos hlength]
    have hbuffer : (List.replicate handleTokenLength (0 : UInt8)).length = units.length := by
      rw [List.length_replicate, hlength]
    rcases narrow_eq hbuffer with ⟨hnone, -⟩ | ⟨hsome, hascii⟩
    · rw [hnone]
    · obtain ⟨decoded, hdecoded, hdecodes⟩ := decodeOwned_decodes usizeMax spare units argument
      have hplain : encode (plainChars units) = units :=
        encode_of_decode (decode_plain fun unit hunit => not_surrogate_of_ascii (hascii unit hunit))
      have hvalid : (utf8 (plainChars units)).toByteArray.IsValidUTF8 := ⟨plainChars units, rfl⟩
      rw [hsome, decodeAndCall, hdecoded]
      dsimp only
      rw [String.fromUTF8?, dif_pos hvalid, Option.map_some, (hdecodes.strict _ hplain).1]
      rfl
  · rw [if_neg hlength]

/-- **The operation gets what the decoder gives.** For any units, on either path: no fault, one
call with exactly the text that `decode_owned` returns if they are valid UTF-16, and the error
that it returns without a call if they are not. -/
theorem with_utf16_handle_token_exact (usizeMax spare : Nat) (units : List UInt16)
    (argument : String) (operation : List UInt8 → M (Except (XllError E) R)) :
    ∃ decoded, decodeOwned usizeMax spare units argument = some decoded ∧
      withUtf16HandleToken usizeMax spare units argument operation =
        some (callWith operation decoded.result) ∧
      (∀ text, encode text = units → decoded.result = .ok (utf8 text)) ∧
      (Unpaired units → decoded.result = .error ⟨argument, .invalidUtf16⟩) ∧
      ((∃ text, encode text = units) ↔ ¬Unpaired units) := by
  obtain ⟨decoded, hdecoded, hdecodes⟩ := decodeOwned_decodes usizeMax spare units argument
  refine ⟨decoded, hdecoded, ?_, fun text htext => (hdecodes.strict text htext).1,
    hdecodes.unpaired, exists_encode_iff units⟩
  rw [withUtf16HandleToken_eq, decodeAndCall, hdecoded, Option.map_some]

end Xlfn.Handle.TokenText
