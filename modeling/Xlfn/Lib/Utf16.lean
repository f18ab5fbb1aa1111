import Mathlib.Algebra.GroupWithZero.Nat
import Mathlib.Data.List.Basic

/-!
# Xlfn — UTF-16

Units, surrogate pairs, and the strict codec between units and Unicode scalar values.

* `encode` / `decode` — the codec, `decode` with one answer per scalar or per bad unit.
* `unitBytes` — what a unit contributes to the UTF-8 form.
-/

namespace Xlfn.Lib.Utf16

open Bool List String

/-- A UTF-8 form. -/
def utf8 (cs : List Char) : List UInt8 := cs.flatMap String.utf8EncodeChar

def isLead (u : UInt16) : Bool := 0xD800 ≤ u.toNat && u.toNat < 0xDC00

def isTrail (u : UInt16) : Bool := 0xDC00 ≤ u.toNat && u.toNat < 0xE000

def isSurrogate (u : UInt16) : Bool := 0xD800 ≤ u.toNat && u.toNat < 0xE000

/-- The scalar of a surrogate pair. -/
def combine (lead trail : UInt16) : Nat :=
  0x10000 + (lead.toNat - 0xD800) * 0x400 + (trail.toNat - 0xDC00)

/-- The units of one scalar. -/
def encodeChar (c : Char) : List UInt16 :=
  if c.toNat < 0x10000 then [.ofNat c.toNat]
  else [.ofNat (0xD800 + (c.toNat - 0x10000) / 0x400), .ofNat (0xDC00 + (c.toNat - 0x10000) % 0x400)]

def encode (cs : List Char) : List UInt16 := cs.flatMap encodeChar

/-- A unit by itself. -/
def decodeUnit (u : UInt16) : Except UInt16 Char :=
  if isSurrogate u then .error u else .ok (.ofNat u.toNat)

/-- Strict decoding: a pair is one scalar, and a surrogate without its partner an error. -/
def decode : List UInt16 → List (Except UInt16 Char)
  | [] => []
  | [u] => [decodeUnit u]
  | u :: v :: rest =>
    if isLead u && isTrail v then .ok (.ofNat (combine u v)) :: decode rest
    else decodeUnit u :: decode (v :: rest)

/-- A lead without a trail after it, or a trail without a lead before it. -/
def Unpaired (units : List UInt16) : Prop :=
  ∃ before u after, units = before ++ u :: after ∧
    ((isLead u ∧ ∀ v, after.head? = some v → isTrail v = false) ∨
      (isTrail u ∧ ∀ v, before.getLast? = some v → isLead v = false))

-- ---- Units and scalars.

variable {u v : UInt16} {units : List UInt16}

theorem isLead_iff : isLead u = true ↔ 0xD800 ≤ u.toNat ∧ u.toNat < 0xDC00 := by
  simp only [isLead, and_eq_true, decide_eq_true_eq]

theorem isTrail_iff : isTrail u = true ↔ 0xDC00 ≤ u.toNat ∧ u.toNat < 0xE000 := by
  simp only [isTrail, and_eq_true, decide_eq_true_eq]

theorem isSurrogate_iff : isSurrogate u = true ↔ 0xD800 ≤ u.toNat ∧ u.toNat < 0xE000 := by
  simp only [isSurrogate, and_eq_true, decide_eq_true_eq]

theorem isSurrogate_eq (u : UInt16) : isSurrogate u = (isLead u || isTrail u) := by
  refine Bool.eq_iff_iff.mpr ?_
  rw [or_eq_true, isSurrogate_iff, isLead_iff, isTrail_iff]
  omega

theorem isTrail_eq_false_of_isLead (h : isLead u = true) : isTrail u = false := by
  rw [isLead_iff] at h
  rw [eq_false_iff, Ne, isTrail_iff]
  omega

theorem isLead_eq_false_of_isTrail (h : isTrail u = true) : isLead u = false := by
  rw [isTrail_iff] at h
  rw [eq_false_iff, Ne, isLead_iff]
  omega

theorem char_valid (c : Char) : c.toNat < 0xD800 ∨ 0xDFFF < c.toNat ∧ c.toNat < 0x110000 := by
  have hvalid := c.valid
  simp only [UInt32.isValidChar, Nat.isValidChar] at hvalid
  exact hvalid

theorem toNat_ofNat {n : Nat} (h : n < 0xD800 ∨ 0xDFFF < n ∧ n < 0x110000) :
    (Char.ofNat n).toNat = n := by
  have hvalid : n.isValidChar := h
  rw [Char.ofNat, dif_pos hvalid]
  rfl

theorem toNat_ofNat_of_not_surrogate (h : isSurrogate u = false) :
    (Char.ofNat u.toNat).toNat = u.toNat := by
  rw [eq_false_iff, Ne, isSurrogate_iff] at h
  have hlt := u.toNat_lt
  exact toNat_ofNat (by omega)

theorem combine_bounds (hu : isLead u = true) (hv : isTrail v = true) :
    0x10000 ≤ combine u v ∧ combine u v < 0x110000 := by
  rw [isLead_iff] at hu
  rw [isTrail_iff] at hv
  unfold combine
  omega

theorem toNat_ofNat_combine (hu : isLead u = true) (hv : isTrail v = true) :
    (Char.ofNat (combine u v)).toNat = combine u v := by
  have hbounds := combine_bounds hu hv
  exact toNat_ofNat (by omega)

theorem toNat_unit {n : Nat} (h : n < 0x10000) : (UInt16.ofNat n).toNat = n := by
  rw [UInt16.toNat_ofNat']
  exact Nat.mod_eq_of_lt h

theorem encodeChar_basic {c : Char} (h : c.toNat < 0x10000) :
    ∃ u, encodeChar c = [u] ∧ u.toNat = c.toNat ∧ isSurrogate u = false := by
  have hunit := toNat_unit h
  refine ⟨.ofNat c.toNat, if_pos h, hunit, ?_⟩
  have hvalid := char_valid c
  rw [eq_false_iff, Ne, isSurrogate_iff]
  omega

theorem encodeChar_pair {c : Char} (h : ¬c.toNat < 0x10000) :
    ∃ u v, encodeChar c = [u, v] ∧ isLead u = true ∧ isTrail v = true ∧
      combine u v = c.toNat := by
  have hvalid := char_valid c
  rw [encodeChar, if_neg h]
  generalize hn : c.toNat - 0x10000 = n
  have hlead : (UInt16.ofNat (0xD800 + n / 0x400)).toNat = 0xD800 + n / 0x400 :=
    toNat_unit (by omega)
  have htrail : (UInt16.ofNat (0xDC00 + n % 0x400)).toNat = 0xDC00 + n % 0x400 :=
    toNat_unit (by omega)
  refine ⟨_, _, rfl, isLead_iff.mpr ?_, isTrail_iff.mpr ?_, ?_⟩
  · omega
  · omega
  · unfold combine
    omega

theorem encode_nil : encode [] = [] := rfl

theorem encode_cons (c : Char) (cs : List Char) : encode (c :: cs) = encodeChar c ++ encode cs :=
  flatMap_cons

theorem utf8_cons (c : Char) (cs : List Char) :
    utf8 (c :: cs) = utf8EncodeChar c ++ utf8 cs := flatMap_cons

theorem utf8_append (cs ds : List Char) : utf8 (cs ++ ds) = utf8 cs ++ utf8 ds :=
  flatMap_append

-- ---- The codec.

theorem encodeChar_unit (h : isSurrogate u = false) : encodeChar (.ofNat u.toNat) = [u] := by
  have hnat := toNat_ofNat_of_not_surrogate h
  have hlt : u.toNat < 0x10000 := u.toNat_lt
  rw [encodeChar, hnat, if_pos hlt, UInt16.ofNat_toNat]

theorem encodeChar_combine (hu : isLead u = true) (hv : isTrail v = true) :
    encodeChar (.ofNat (combine u v)) = [u, v] := by
  have hbounds := combine_bounds hu hv
  have hnat := toNat_ofNat_combine hu hv
  rw [isLead_iff] at hu
  rw [isTrail_iff] at hv
  have hlead : 0xD800 + (combine u v - 0x10000) / 0x400 = u.toNat := by
    unfold combine
    omega
  have htrail : 0xDC00 + (combine u v - 0x10000) % 0x400 = v.toNat := by
    unfold combine
    omega
  rw [encodeChar, hnat, if_neg (by omega), hlead, htrail, UInt16.ofNat_toNat, UInt16.ofNat_toNat]

theorem decodeUnit_ok (h : isSurrogate u = false) : decodeUnit u = .ok (.ofNat u.toNat) := by
  rw [decodeUnit, h]
  rfl

theorem decodeUnit_error (h : isSurrogate u = true) : decodeUnit u = .error u := by
  rw [decodeUnit, h]
  rfl

theorem of_decodeUnit_ok {c : Char} (h : decodeUnit u = .ok c) :
    isSurrogate u = false ∧ c = .ofNat u.toNat := by
  cases hsurrogate : isSurrogate u with
  | true =>
    rw [decodeUnit_error hsurrogate] at h
    cases h
  | false =>
    rw [decodeUnit_ok hsurrogate] at h
    exact ⟨rfl, (Except.ok.inj h).symm⟩

theorem isLead_eq_false (h : isSurrogate u = false) : isLead u = false := by
  rw [isSurrogate_eq, or_eq_false_iff] at h
  exact h.1

theorem decode_cons (h : isLead u = false) :
    decode (u :: units) = decodeUnit u :: decode units := by
  cases units with
  | nil => rfl
  | cons v rest => rw [decode, h, Bool.false_and, if_neg Bool.false_ne_true]

theorem decode_pair (hu : isLead u = true) (hv : isTrail v = true) :
    decode (u :: v :: units) = .ok (.ofNat (combine u v)) :: decode units := by
  rw [decode, hu, hv, Bool.true_and, if_pos rfl]

/-- **Decoding what was encoded.** -/
theorem decode_encode (cs : List Char) : decode (encode cs) = cs.map .ok := by
  induction cs with
  | nil => rfl
  | cons c cs ih =>
    rw [encode_cons, map_cons]
    by_cases hbasic : c.toNat < 0x10000
    · obtain ⟨u, hunit, hnat, hsurrogate⟩ := encodeChar_basic hbasic
      rw [hunit, singleton_append, decode_cons (isLead_eq_false hsurrogate),
        decodeUnit_ok hsurrogate, hnat, Char.ofNat_toNat, ih]
    · obtain ⟨u, v, hunits, hu, hv, hcombine⟩ := encodeChar_pair hbasic
      rw [hunits, cons_append, singleton_append, decode_pair hu hv, hcombine, Char.ofNat_toNat, ih]

/-- **Encoding what was decoded.** -/
theorem encode_of_decode {cs : List Char} (h : decode units = cs.map .ok) : encode cs = units := by
  fun_induction decode units generalizing cs with
  | case1 =>
    rw [map_eq_nil_iff.mp h.symm, encode_nil]
  | case2 u =>
    obtain ⟨c, rest, rfl, hc, hrest⟩ := map_eq_cons_iff.mp h.symm
    rw [map_eq_nil_iff.mp hrest, encode_cons, encode_nil, append_nil]
    obtain ⟨hsurrogate, rfl⟩ := of_decodeUnit_ok hc.symm
    exact encodeChar_unit hsurrogate
  | case3 u v rest hpair ih =>
    rw [and_eq_true] at hpair
    obtain ⟨c, cs', rfl, hc, hrest⟩ := map_eq_cons_iff.mp h.symm
    have hc : c = .ofNat (combine u v) := Except.ok.inj hc
    rw [encode_cons, hc, encodeChar_combine hpair.1 hpair.2, ih hrest.symm]
    rfl
  | case4 u v rest hpair ih =>
    obtain ⟨c, cs', rfl, hc, hrest⟩ := map_eq_cons_iff.mp h.symm
    rw [encode_cons, ih hrest.symm]
    obtain ⟨hsurrogate, rfl⟩ := of_decodeUnit_ok hc.symm
    rw [encodeChar_unit hsurrogate]
    rfl

theorem encode_injective : Function.Injective encode := by
  intro cs ds h
  have hdecode : cs.map (Except.ok : Char → Except UInt16 Char) = ds.map .ok := by
    rw [← decode_encode, ← decode_encode, h]
  exact map_injective_iff.mpr (fun _ _ h => Except.ok.inj h) hdecode

-- ---- Bad units.

theorem unpaired_lead (hu : isLead u = true) (h : ∀ v, units.head? = some v → isTrail v = false) :
    Unpaired (u :: units) :=
  ⟨[], u, units, rfl, .inl ⟨hu, h⟩⟩

theorem unpaired_trail (hu : isTrail u = true) : Unpaired (u :: units) :=
  ⟨[], u, units, rfl, .inr ⟨hu, by rintro v ⟨⟩⟩⟩

theorem unpaired_cons (hu : isLead u = false) :
    Unpaired (u :: units) ↔ isTrail u = true ∨ Unpaired units := by
  constructor
  · rintro ⟨before, w, after, hsplit, hbad⟩
    cases before with
    | nil =>
      rw [nil_append, List.cons.injEq] at hsplit
      obtain ⟨rfl, -⟩ := hsplit
      rcases hbad with ⟨hlead, -⟩ | ⟨htrail, -⟩
      · rw [hu] at hlead
        cases hlead
      · exact .inl htrail
    | cons b before =>
      rw [cons_append, List.cons.injEq] at hsplit
      obtain ⟨rfl, rfl⟩ := hsplit
      refine .inr ⟨before, w, after, rfl, hbad.imp id fun ⟨htrail, hlast⟩ =>
        ⟨htrail, fun v hv => hlast v ?_⟩⟩
      rw [getLast?_cons, hv]
      rfl
  · rintro (htrail | ⟨before, w, after, rfl, hbad⟩)
    · exact unpaired_trail htrail
    · refine ⟨u :: before, w, after, rfl, hbad.imp id fun ⟨htrail, hlast⟩ =>
        ⟨htrail, fun v hv => ?_⟩⟩
      rw [getLast?_cons] at hv
      cases hbefore : before.getLast? with
      | none =>
        rw [hbefore] at hv
        cases hv
        exact hu
      | some x =>
        rw [hbefore] at hv
        cases hv
        exact hlast x hbefore

theorem unpaired_pair (hu : isLead u = true) (hv : isTrail v = true) :
    Unpaired (u :: v :: units) ↔ Unpaired units := by
  have hlead := isLead_eq_false_of_isTrail hv
  constructor
  · rintro ⟨before, w, after, hsplit, hbad⟩
    cases before with
    | nil =>
      rw [nil_append, List.cons.injEq] at hsplit
      obtain ⟨rfl, rfl⟩ := hsplit
      rcases hbad with ⟨-, hnext⟩ | ⟨htrail, -⟩
      · rw [hnext v rfl] at hv
        cases hv
      · rw [isTrail_eq_false_of_isLead hu] at htrail
        cases htrail
    | cons b before =>
      rw [cons_append, List.cons.injEq] at hsplit
      obtain ⟨rfl, hsplit⟩ := hsplit
      have hrest : Unpaired (v :: units) ↔ isTrail v = true ∨ Unpaired units := unpaired_cons hlead
      cases before with
      | nil =>
        rw [nil_append, List.cons.injEq] at hsplit
        obtain ⟨rfl, rfl⟩ := hsplit
        rcases hbad with ⟨hw, -⟩ | ⟨-, hlast⟩
        · rw [hlead] at hw
          cases hw
        · rw [hlast u rfl] at hu
          cases hu
      | cons c before =>
        rw [cons_append, List.cons.injEq] at hsplit
        obtain ⟨rfl, rfl⟩ := hsplit
        refine ⟨before, w, after, rfl, hbad.imp id fun ⟨htrail, hlast⟩ =>
          ⟨htrail, fun x hx => hlast x ?_⟩⟩
        rw [getLast?_cons, getLast?_cons, hx]
        rfl
  · rintro ⟨before, w, after, rfl, hbad⟩
    refine ⟨u :: v :: before, w, after, rfl, hbad.imp id fun ⟨htrail, hlast⟩ =>
      ⟨htrail, fun x hx => ?_⟩⟩
    rw [getLast?_cons, getLast?_cons] at hx
    cases hbefore : before.getLast? with
    | none =>
      rw [hbefore] at hx
      cases hx
      exact hlead
    | some y =>
      rw [hbefore] at hx
      cases hx
      exact hlast y hbefore

theorem not_unpaired_nil : ¬Unpaired [] := by
  rintro ⟨before, u, after, hsplit, -⟩
  cases before <;> cases hsplit

theorem bad_cons (hlone : isLead u = true → ∀ v, units.head? = some v → isTrail v = false)
    (ih : (∃ w, .error w ∈ decode units) ↔ Unpaired units) :
    (∃ w, .error w ∈ decodeUnit u :: decode units) ↔ Unpaired (u :: units) := by
  cases hsurrogate : isSurrogate u with
  | true =>
    rw [decodeUnit_error hsurrogate]
    refine ⟨fun _ => ?_, fun _ => ⟨u, mem_cons_self⟩⟩
    rw [isSurrogate_eq, or_eq_true] at hsurrogate
    rcases hsurrogate with hlead | htrail
    · exact unpaired_lead hlead (hlone hlead)
    · exact unpaired_trail htrail
  | false =>
    rw [decodeUnit_ok hsurrogate, unpaired_cons (isLead_eq_false hsurrogate), ← ih]
    rw [isSurrogate_eq, or_eq_false_iff] at hsurrogate
    constructor
    · rintro ⟨w, hw⟩
      exact .inr ⟨w, (mem_cons.mp hw).resolve_left nofun⟩
    · rintro (htrail | ⟨w, hw⟩)
      · rw [hsurrogate.2] at htrail
        cases htrail
      · exact ⟨w, mem_cons_of_mem _ hw⟩

/-- **A unit is bad exactly where a surrogate has no partner.** -/
theorem bad_iff_unpaired (units : List UInt16) :
    (∃ u, .error u ∈ decode units) ↔ Unpaired units := by
  fun_induction decode units with
  | case1 =>
    refine ⟨?_, fun h => absurd h not_unpaired_nil⟩
    rintro ⟨u, ⟨⟩⟩
  | case2 u =>
    refine bad_cons (by rintro _ v ⟨⟩) ⟨?_, fun h => absurd h not_unpaired_nil⟩
    rintro ⟨w, ⟨⟩⟩
  | case3 u v rest hpair ih =>
    rw [and_eq_true] at hpair
    rw [unpaired_pair hpair.1 hpair.2, ← ih]
    refine exists_congr fun w => ?_
    rw [mem_cons]
    exact ⟨fun h => h.resolve_left nofun, .inr⟩
  | case4 u v rest hpair ih =>
    refine bad_cons (fun hlead w hw => ?_) ih
    cases hw
    rw [hlead, Bool.true_and] at hpair
    exact eq_false_iff.mpr hpair

-- ---- Bytes.

/-- What a unit contributes to the UTF-8 form; each half of a pair two bytes. -/
def unitBytes (u : UInt16) : Nat :=
  1 + (if 0x80 ≤ u.toNat then 1 else 0) + (if 0x800 ≤ u.toNat then 1 else 0) -
    (if isSurrogate u then 1 else 0)

def plannedBytes (units : List UInt16) : Nat := (units.map unitBytes).sum

/-- The scalars before the first bad unit. -/
def beforeError : List (Except UInt16 Char) → List Char
  | .ok c :: rest => c :: beforeError rest
  | _ => []

theorem length_utf8EncodeChar (c : Char) : (utf8EncodeChar c).length =
      1 + (if 0x80 ≤ c.toNat then 1 else 0) + (if 0x800 ≤ c.toNat then 1 else 0) +
        (if 0x10000 ≤ c.toNat then 1 else 0) := by
  have hval : c.val.toNat = c.toNat := rfl
  unfold utf8EncodeChar
  rw [hval]
  dsimp only
  split
  · rw [if_neg (by omega), if_neg (by omega), if_neg (by omega)]
    rfl
  · split
    · rw [if_pos (by omega), if_neg (by omega), if_neg (by omega)]
      rfl
    · split
      · rw [if_pos (by omega), if_pos (by omega), if_neg (by omega)]
        rfl
      · rw [if_pos (by omega), if_pos (by omega), if_pos (by omega)]
        rfl

theorem unitBytes_surrogate (h : isSurrogate u = true) : unitBytes u = 2 := by
  have hrange := isSurrogate_iff.mp h
  rw [unitBytes, if_pos (by omega), if_pos (by omega), if_pos h]

theorem length_utf8_unit (h : isSurrogate u = false) :
    (utf8EncodeChar (.ofNat u.toNat)).length = unitBytes u := by
  have hlt : ¬0x10000 ≤ u.toNat := Nat.not_le_of_lt u.toNat_lt
  rw [length_utf8EncodeChar, toNat_ofNat_of_not_surrogate h, unitBytes, h, if_neg hlt,
    if_neg Bool.false_ne_true]
  rfl

theorem length_utf8_combine (hu : isLead u = true) (hv : isTrail v = true) :
    (utf8EncodeChar (.ofNat (combine u v))).length = unitBytes u + unitBytes v := by
  have hbounds := combine_bounds hu hv
  rw [unitBytes_surrogate (by rw [isSurrogate_eq, hu, Bool.true_or]),
    unitBytes_surrogate (by rw [isSurrogate_eq, hv, Bool.or_true]), length_utf8EncodeChar,
    toNat_ofNat_combine hu hv, if_pos (by omega), if_pos (by omega), if_pos (by omega)]

theorem unitBytes_bounds (u : UInt16) : 1 ≤ unitBytes u ∧ unitBytes u ≤ 3 := by
  unfold unitBytes
  cases h : isSurrogate u with
  | true =>
    have hrange := isSurrogate_iff.mp h
    rw [if_pos (by omega), if_pos (by omega), if_pos rfl]
    omega
  | false =>
    rw [if_neg Bool.false_ne_true]
    split <;> split <;> omega

theorem lt_of_unitBytes_eq_one (h : unitBytes u = 1) : u.toNat < 0x80 := by
  by_contra hnot
  cases hsurrogate : isSurrogate u with
  | true =>
    rw [unitBytes_surrogate hsurrogate] at h
    omega
  | false =>
    rw [unitBytes, hsurrogate, if_pos (by omega), if_neg Bool.false_ne_true] at h
    omega

theorem ge_of_unitBytes_eq_three (h : unitBytes u = 3) :
    0x800 ≤ u.toNat ∧ isSurrogate u = false := by
  cases hsurrogate : isSurrogate u with
  | true =>
    rw [unitBytes_surrogate hsurrogate] at h
    omega
  | false =>
    refine ⟨?_, rfl⟩
    by_contra hnot
    rw [unitBytes, hsurrogate, if_neg hnot, if_neg Bool.false_ne_true] at h
    split at h <;> omega

theorem plannedBytes_cons (u : UInt16) (units : List UInt16) :
    plannedBytes (u :: units) = unitBytes u + plannedBytes units := by
  rw [plannedBytes, map_cons, sum_cons, plannedBytes]

theorem plannedBytes_le (units : List UInt16) : plannedBytes units ≤ units.length * 3 := by
  induction units with
  | nil => exact Nat.le_refl _
  | cons unit units ih =>
    have hbytes := unitBytes_bounds unit
    rw [plannedBytes_cons, List.length_cons]
    omega

/-- **The plan is exact for strict input.** -/
theorem length_utf8_of_decode {cs : List Char} (h : decode units = cs.map .ok) :
    (utf8 cs).length = plannedBytes units := by
  fun_induction decode units generalizing cs with
  | case1 =>
    rw [map_eq_nil_iff.mp h.symm]
    rfl
  | case2 u =>
    obtain ⟨c, rest, rfl, hc, hrest⟩ := map_eq_cons_iff.mp h.symm
    obtain ⟨hsurrogate, rfl⟩ := of_decodeUnit_ok hc.symm
    rw [map_eq_nil_iff.mp hrest, utf8_cons, List.length_append, length_utf8_unit hsurrogate,
      plannedBytes_cons]
    rfl
  | case3 u v rest hpair ih =>
    rw [and_eq_true] at hpair
    obtain ⟨c, cs', rfl, hc, hrest⟩ := map_eq_cons_iff.mp h.symm
    have hc : c = .ofNat (combine u v) := Except.ok.inj hc
    rw [utf8_cons, List.length_append, hc, length_utf8_combine hpair.1 hpair.2, ih hrest.symm,
      plannedBytes_cons, plannedBytes_cons, Nat.add_assoc]
  | case4 u v rest hpair ih =>
    obtain ⟨c, cs', rfl, hc, hrest⟩ := map_eq_cons_iff.mp h.symm
    obtain ⟨hsurrogate, rfl⟩ := of_decodeUnit_ok hc.symm
    rw [utf8_cons, List.length_append, length_utf8_unit hsurrogate, ih hrest.symm,
      plannedBytes_cons u]

/-- **The plan bounds what comes before the first bad unit.** -/
theorem length_utf8_beforeError_le (units : List UInt16) :
    (utf8 (beforeError (decode units))).length ≤ plannedBytes units := by
  have hunit : ∀ (u : UInt16) (rest : List (Except UInt16 Char)) (n : Nat),
      (utf8 (beforeError rest)).length ≤ n →
      (utf8 (beforeError (decodeUnit u :: rest))).length ≤ unitBytes u + n := by
    intro u rest n hrest
    cases hsurrogate : isSurrogate u with
    | true =>
      rw [decodeUnit_error hsurrogate]
      exact Nat.zero_le _
    | false =>
      rw [decodeUnit_ok hsurrogate, beforeError, utf8_cons, List.length_append,
        length_utf8_unit hsurrogate]
      omega
  fun_induction decode units with
  | case1 => exact Nat.zero_le _
  | case2 u =>
    rw [plannedBytes_cons]
    exact hunit u [] _ (Nat.zero_le _)
  | case3 u v rest hpair ih =>
    rw [and_eq_true] at hpair
    rw [beforeError, utf8_cons, List.length_append, length_utf8_combine hpair.1 hpair.2,
      plannedBytes_cons, plannedBytes_cons]
    omega
  | case4 u v rest hpair ih =>
    rw [plannedBytes_cons u]
    exact hunit u _ _ ih

theorem decode_eq_map_ok {ds : List (Except UInt16 Char)} (h : ∀ u, .error u ∉ ds) :
    ds = (beforeError ds).map .ok := by
  induction ds with
  | nil => rfl
  | cons d ds ih =>
    cases d with
    | error u => exact absurd mem_cons_self (h u)
    | ok c =>
      rw [beforeError, map_cons, ← ih fun u hu => h u (mem_cons_of_mem _ hu)]

/-- **What strict decoding accepts**: the units of a text. -/
theorem exists_encode_iff (units : List UInt16) : (∃ cs, encode cs = units) ↔ ¬Unpaired units := by
  rw [← bad_iff_unpaired]
  constructor
  · rintro ⟨cs, rfl⟩ ⟨u, hu⟩
    rw [decode_encode] at hu
    obtain ⟨c, -, hc⟩ := mem_map.mp hu
    cases hc
  · intro hgood
    exact ⟨_, encode_of_decode (decode_eq_map_ok fun u hu => hgood ⟨u, hu⟩)⟩

/-- The number of units of a text. -/
def length (cs : List Char) : Nat := (encode cs).length

theorem length_encodeChar (c : Char) :
    (encodeChar c).length = 1 + if 0x10000 ≤ c.toNat then 1 else 0 := by
  unfold encodeChar
  split
  · rw [if_neg (by omega)]
    rfl
  · rw [if_pos (by omega)]
    rfl

theorem length_cons (c : Char) (cs : List Char) :
    length (c :: cs) = (encodeChar c).length + length cs := by
  rw [length, encode_cons, List.length_append, length]

/-- **No text has more units than bytes.** -/
theorem length_le_length_utf8 (cs : List Char) : length cs ≤ (utf8 cs).length := by
  induction cs with
  | nil => exact Nat.le_refl _
  | cons c cs ih =>
    rw [length_cons, utf8_cons, List.length_append, length_encodeChar, length_utf8EncodeChar]
    split <;> omega

end Xlfn.Lib.Utf16
