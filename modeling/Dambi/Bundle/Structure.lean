import Mathlib.Tactic.IntervalCases
import Dambi.Lib.Base64
import Dambi.Lib.Fallible

/-!
# Signature texts

`decode_signature` of `bundle/structure.rs`, and that it accepts exactly the
Base64 texts of 64 bytes.
-/

namespace Dambi

open Fallible Base64 List

inductive PolicyParseErrorKind where
  | invalidConfig
  | inputTooLarge
  | invalidUtf8
  | invalidJson
  | duplicateKey
  | invalidNumber
  | invalidStructure
  | invalidSignatureEncoding
  | depthLimit
deriving DecidableEq, Repr

structure PolicyParseError where
  kind : PolicyParseErrorKind
  path : String
  message : String
deriving DecidableEq, Repr

def signatureError : PolicyParseError :=
  ⟨.invalidSignatureEncoding, "$/signature",
    "signature must be canonical standard Base64 encoding of exactly 64 bytes"⟩

/-- The sextet of one byte of the text: the ranges `A-Z`, `a-z` and `0-9`, then `+` and `/`. -/
def sextet (byte : UInt8) : Except PolicyParseError UInt8 :=
  if 65 ≤ byte ∧ byte ≤ 90 then .ok (byte - 65)
  else if 97 ≤ byte ∧ byte ≤ 122 then .ok (byte - 97 + 26)
  else if 48 ≤ byte ∧ byte ≤ 57 then .ok (byte - 48 + 52)
  else if byte = 43 then .ok 62
  else if byte = 47 then .ok 63
  else .error signatureError

/-- The loop over `chunks_exact(4)`. -/
def decodeChunks : List UInt8 → List UInt8
  | s₀ :: s₁ :: s₂ :: s₃ :: rest =>
    (s₀ <<< 2 ||| s₁ >>> 4) :: ((s₁ &&& 0x0f) <<< 4 ||| s₂ >>> 2) ::
      ((s₂ &&& 0x03) <<< 6 ||| s₃) :: decodeChunks rest
  | _ => []

def decodeSignature (signature : String) : Except PolicyParseError (List UInt8) := do
  let encoded := signature.toByteArray.data.toList
  require (encoded.length = 88 ∧ encoded.drop 86 = [61, 61]) signatureError
  let sextets ← (encoded.take 86).mapM sextet
  -- the final sextet has only two data bits
  require (sextets.getD 85 0 &&& 0x0f = 0) signatureError
  .ok (decodeChunks (sextets.take 84) ++
    [sextets.getD 84 0 <<< 2 ||| sextets.getD 85 0 >>> 4])

/-! ## Characters -/

variable {v c : UInt8}

theorem sextet_ascii_digit (h : v < 64) : sextet (ascii (digit v)) = .ok v := by
  have ha : ∀ i : Fin 256, UInt8.ofFin i < 64 →
      sextet (ascii (digit (.ofFin i))) = .ok (.ofFin i) := by decide +kernel
  exact ha v.toFin h

theorem ascii_digit_of_sextet (h : sextet c = .ok v) : v < 64 ∧ ascii (digit v) = c := by
  have ha : ∀ i : Fin 256, (sextet (.ofFin i)).toOption.all fun v =>
      v < 64 ∧ ascii (digit v) = .ofFin i := by decide +kernel
  have hc := ha c.toFin
  rw [show UInt8.ofFin c.toFin = c from rfl, h] at hc
  exact of_decide_eq_true hc

theorem sextet_eq_ok : sextet c = .ok v ↔ v < 64 ∧ ascii (digit v) = c := by
  constructor
  · exact ascii_digit_of_sextet
  · rintro ⟨hl, rfl⟩
    exact sextet_ascii_digit hl

theorem mapM_sextet_eq_ok {cs vs : List UInt8} :
    cs.mapM sextet = .ok vs ↔ (∀ v ∈ vs, v < 64) ∧ cs = vs.map fun v => ascii (digit v) := by
  have hf : List.Forall₂ (fun c v => sextet c = .ok v) cs vs ↔
      List.Forall₂ (fun v c => v < 64 ∧ ascii (digit v) = c) vs cs := by
    simp only [sextet_eq_ok]
    exact ⟨List.Forall₂.flip, List.Forall₂.flip⟩
  rw [mapM_eq_ok, hf, forall₂_and_left, ← forall₂_map_left_iff,
    forall₂_eq_eq_eq, eq_comm (a := cs)]

/-! ## Groups -/

section Bits

variable (a b c : UInt8)

theorem octet_first : (a >>> 2) <<< 2 ||| ((a &&& 0x03) <<< 4 ||| b >>> 4) >>> 4 = a := by
  refine eq_of_bits fun i hi => ?_
  interval_cases i <;> simp

theorem octet_second : (((a &&& 0x03) <<< 4 ||| b >>> 4) &&& 0x0f) <<< 4 |||
    ((b &&& 0x0f) <<< 2 ||| c >>> 6) >>> 2 = b := by
  refine eq_of_bits fun i hi => ?_
  interval_cases i <;> simp

theorem octet_third : (((b &&& 0x0f) <<< 2 ||| c >>> 6) &&& 0x03) <<< 6 ||| (c &&& 0x3f) = c := by
  refine eq_of_bits fun i hi => ?_
  interval_cases i <;> simp

variable {s₀ s₁ s₂ s₃ : UInt8}

theorem sextet_first (h₀ : s₀ < 64) (h₁ : s₁ < 64) : (s₀ <<< 2 ||| s₁ >>> 4) >>> 2 = s₀ := by
  rw [lt_iff_bits] at h₀
  rw [lt_iff_bits] at h₁
  refine eq_of_bits fun i hi => ?_
  interval_cases i <;> simp_all

theorem sextet_second (s₀ : UInt8) (h₁ : s₁ < 64) (h₂ : s₂ < 64) :
    ((s₀ <<< 2 ||| s₁ >>> 4) &&& 0x03) <<< 4 |||
      ((s₁ &&& 0x0f) <<< 4 ||| s₂ >>> 2) >>> 4 = s₁ := by
  rw [lt_iff_bits] at h₁
  rw [lt_iff_bits] at h₂
  refine eq_of_bits fun i hi => ?_
  interval_cases i <;> simp_all

theorem sextet_third (h₂ : s₂ < 64) (h₃ : s₃ < 64) :
    (((s₁ &&& 0x0f) <<< 4 ||| s₂ >>> 2) &&& 0x0f) <<< 2 |||
      ((s₂ &&& 0x03) <<< 6 ||| s₃) >>> 6 = s₂ := by
  rw [lt_iff_bits] at h₂
  rw [lt_iff_bits] at h₃
  refine eq_of_bits fun i hi => ?_
  interval_cases i <;> simp_all

theorem sextet_fourth (h₃ : s₃ < 64) : ((s₂ &&& 0x03) <<< 6 ||| s₃) &&& 0x3f = s₃ := by
  rw [lt_iff_bits] at h₃
  refine eq_of_bits fun i hi => ?_
  interval_cases i <;> simp_all

theorem sextet_last (h₁ : s₁ < 64) (hl : s₁ &&& 0x0f = 0) :
    ((s₀ <<< 2 ||| s₁ >>> 4) &&& 0x03) <<< 4 = s₁ := by
  have h := sextet_second s₀ h₁ (show (0 : UInt8) < 64 by decide)
  rw [hl] at h
  exact UInt8.or_zero.symm.trans h

end Bits

variable {bytes vs : List UInt8} {s : String}

theorem decodeChunks_sextets (h : bytes.length % 3 = 0) : decodeChunks (sextets bytes) = bytes := by
  fun_induction sextets bytes with
  | case1 a b c bytes ih =>
    simp only [length_cons] at h
    rw [decodeChunks, ih (by omega), octet_first, octet_second, octet_third]
  | case2 bytes hs =>
    rcases bytes with _ | ⟨a, _ | ⟨b, _ | ⟨c, r⟩⟩⟩
    · rfl
    · simp at h
    · simp at h
    · exact absurd rfl (hs a b c r)

theorem eq_nil_of_no_group (h : vs.length % 4 = 0)
    (hs : ∀ s₀ s₁ s₂ s₃ r, vs = s₀ :: s₁ :: s₂ :: s₃ :: r → False) : vs = [] := by
  rcases vs with _ | ⟨s₀, _ | ⟨s₁, _ | ⟨s₂, _ | ⟨s₃, r⟩⟩⟩⟩
  · rfl
  · simp at h
  · simp at h
  · simp at h
  · exact absurd rfl (hs s₀ s₁ s₂ s₃ r)

theorem sextets_decodeChunks (h : vs.length % 4 = 0) (hv : ∀ v ∈ vs, v < 64) :
    sextets (decodeChunks vs) = vs := by
  fun_induction decodeChunks vs with
  | case1 s₀ s₁ s₂ s₃ vs ih =>
    simp only [length_cons] at h
    simp only [forall_mem_cons] at hv
    obtain ⟨h₀, h₁, h₂, h₃, hv⟩ := hv
    rw [sextets, ih (by omega) hv, sextet_first h₀ h₁, sextet_second s₀ h₁ h₂, sextet_third h₂ h₃,
      sextet_fourth h₃]
  | case2 vs hs =>
    rw [eq_nil_of_no_group h hs]
    rfl

theorem length_decodeChunks (h : vs.length % 4 = 0) :
    (decodeChunks vs).length = vs.length / 4 * 3 := by
  fun_induction decodeChunks vs with
  | case1 s₀ s₁ s₂ s₃ vs ih =>
    simp only [length_cons] at h ⊢
    rw [ih (by omega)]
    omega
  | case2 vs hs =>
    rw [eq_nil_of_no_group h hs]
    rfl

/-! ## Texts -/

theorem eq_text_of_bytes
    (h : s.toByteArray.data.toList = (encode bytes).map ascii) : s = text bytes := by
  rw [← toList_toByteArray_text] at h
  exact String.toByteArray_inj.1 (ByteArray.ext (Array.toList_inj.1 h))

theorem encode_single (h : bytes.length % 3 = 0) (l : UInt8) :
    encode (bytes ++ [l]) = (sextets bytes ++ [l >>> 2, (l &&& 0x03) <<< 4]).map digit ++
      ['=', '='] := by
  rw [encode_append h]
  simp [encode]

/-- The sextets of a text that is accepted: 21 groups and the two of the last octet. -/
structure SignatureSextets (encoded groups : List UInt8) (s₀ s₁ : UInt8) : Prop where
  length : groups.length = 84
  groups_lt : ∀ v ∈ groups, v < 64
  first_lt : s₀ < 64
  second_lt : s₁ < 64
  low : s₁ &&& 0x0f = 0
  encoded : encoded = (groups ++ [s₀, s₁]).map (fun v => ascii (digit v)) ++ [61, 61]

theorem decodeSignature_eq_ok :
    decodeSignature s = .ok bytes ↔ ∃ gs s₀ s₁,
      SignatureSextets s.toByteArray.data.toList gs s₀ s₁ ∧
        bytes = decodeChunks gs ++ [s₀ <<< 2 ||| s₁ >>> 4] := by
  simp only [decodeSignature, bind_eq_ok, require_eq_ok, mapM_sextet_eq_ok]
  generalize s.toByteArray.data.toList = encoded
  constructor
  · intro ⟨_, ⟨hle, hp⟩, vs, ⟨hlt, ht⟩, _, hlo, h⟩
    have hl : vs.length = 86 := by
      have := congrArg length ht
      simp only [length_take, length_map] at this
      omega
    obtain ⟨s₀, s₁, hla⟩ : ∃ s₀ s₁, vs.drop 84 = [s₀, s₁] :=
      length_eq_two.1 (by rw [length_drop, hl])
    obtain ⟨gs, hg, rfl⟩ : ∃ gs, gs.length = 84 ∧ vs = gs ++ [s₀, s₁] :=
      ⟨vs.take 84, by rw [length_take, hl]; rfl, by rw [← hla, take_append_drop]⟩
    simp only [forall_mem_append, forall_mem_cons] at hlt
    have hf : (gs ++ [s₀, s₁]).getD 84 0 = s₀ := by simp [hg]
    have hs : (gs ++ [s₀, s₁]).getD 85 0 = s₁ := by simp [hg]
    rw [hs] at hlo
    rw [hf, hs, take_left' hg] at h
    refine ⟨gs, s₀, s₁, ⟨hg, hlt.1, hlt.2.1, hlt.2.2.1, hlo, ?_⟩, (Except.ok.inj h).symm⟩
    rw [← ht, ← hp, take_append_drop]
  · intro ⟨gs, s₀, s₁, h, hb⟩
    have hl : ((gs ++ [s₀, s₁]).map fun v => ascii (digit v)).length = 86 := by
      simp [h.length]
    refine ⟨(), ⟨?_, ?_⟩, gs ++ [s₀, s₁], ⟨?_, ?_⟩, (), ?_, ?_⟩
    · rw [h.encoded, length_append, hl]
      rfl
    · rw [h.encoded, drop_left' hl]
    · simp only [forall_mem_append, forall_mem_cons]
      exact ⟨h.groups_lt, h.first_lt, h.second_lt, nofun⟩
    · rw [h.encoded, take_left' hl]
    · simpa [h.length] using h.low
    · simp [h.length, hb]

/-- The bytes such sextets stand for have them as their text. -/
theorem SignatureSextets.encode_eq {s₀ s₁ : UInt8}
    {encoded gs : List UInt8} (h : SignatureSextets encoded gs s₀ s₁)
    : (encode (decodeChunks gs ++ [s₀ <<< 2 ||| s₁ >>> 4])).map ascii = encoded := by
  have hg : gs.length % 4 = 0 := by rw [h.length]
  have hc : (decodeChunks gs).length % 3 = 0 := by
    rw [length_decodeChunks hg, Nat.mul_mod_left]
  rw [encode_single hc, sextets_decodeChunks hg h.groups_lt,
    sextet_first h.first_lt h.second_lt, sextet_last h.second_lt h.low, h.encoded,
    map_append, map_map]
  rfl

theorem text_of_decodeSignature
    (h : decodeSignature s = .ok bytes) : bytes.length = 64 ∧ s = text bytes := by
  obtain ⟨gs, s₀, s₁, hs, rfl⟩ := decodeSignature_eq_ok.1 h
  refine ⟨?_, eq_text_of_bytes hs.encode_eq.symm⟩
  rw [length_append, length_decodeChunks (by rw [hs.length]), hs.length]
  rfl

theorem decodeSignature_text (h : bytes.length = 64) :
    decodeSignature (text bytes) = .ok bytes := by
  obtain ⟨whole, l, rfl, hw⟩ : ∃ whole l, bytes = whole ++ [l] ∧
      whole.length = 63 := by
    refine ⟨bytes.take 63, bytes[63], ?_, by rw [length_take, h]; rfl⟩
    rw [← take_succ_eq_append_getElem, take_of_length_le h.le]
  have hg : whole.length % 3 = 0 := by rw [hw]
  refine decodeSignature_eq_ok.2 ⟨sextets whole, l >>> 2, (l &&& 0x03) <<< 4,
    ⟨?_, sextets_lt whole, ?_, ?_, ?_, ?_⟩, ?_⟩
  · rw [length_sextets, hw]
  · exact lt_iff_bits.2 (by simp)
  · exact lt_iff_bits.2 (by simp)
  · refine eq_of_bits fun i hi => ?_
    interval_cases i <;> simp
  · rw [toList_toByteArray_text, encode_single hg, map_append, map_map]
    rfl
  · have hl := octet_first l 0
    rw [show (0 : UInt8) >>> 4 = 0 from rfl, UInt8.or_zero] at hl
    rw [decodeChunks_sextets hg, hl]

/-- `decode_signature` accepts the Base64 texts of 64 bytes and no others, and inverts the
encoding; no bytes have two texts. -/
theorem signature_canonical :
    (∀ s bytes, decodeSignature s = .ok bytes ↔ bytes.length = 64 ∧ s = text bytes) ∧
    (∀ s s' bytes, decodeSignature s = .ok bytes → decodeSignature s' = .ok bytes → s = s') ∧
    ∀ bytes, bytes.length = 64 → decodeSignature (text bytes) = .ok bytes := by
  refine ⟨fun s bytes => ⟨text_of_decodeSignature, ?_⟩, fun s s' bytes h h' => ?_,
    fun bytes => decodeSignature_text⟩
  · rintro ⟨hl, rfl⟩
    exact decodeSignature_text hl
  · rw [(text_of_decodeSignature h).2, (text_of_decodeSignature h').2]

end Dambi
