import Mathlib.Data.List.Basic

/-!
# Base64

The standard Base64 text of a byte string, with padding,
and the regrouping of octets into sextets it is made of.
-/

namespace Base64

open List

def alphabet : List Char :=
  "ABCDEFGHIJKLMNOPQRSTUVWXYZabcdefghijklmnopqrstuvwxyz0123456789+/".toList

def digit (v : UInt8) : Char := alphabet.getD v.toNat 'A'

/-- The sextets of whole groups of three octets. -/
def sextets : List UInt8 → List UInt8
  | a :: b :: c :: rest =>
    (a >>> 2) :: ((a &&& 0x03) <<< 4 ||| b >>> 4) :: ((b &&& 0x0f) <<< 2 ||| c >>> 6) ::
      (c &&& 0x3f) :: sextets rest
  | _ => []

/-- The padded text of a byte string. -/
def encode : List UInt8 → List Char
  | [] => []
  | [a] => [digit (a >>> 2), digit ((a &&& 0x03) <<< 4), '=', '=']
  | [a, b] =>
    [digit (a >>> 2), digit ((a &&& 0x03) <<< 4 ||| b >>> 4), digit ((b &&& 0x0f) <<< 2), '=']
  | a :: b :: c :: rest => (sextets [a, b, c]).map digit ++ encode rest

def text (bytes : List UInt8) : String := String.ofList (encode bytes)

example : encode [77, 97, 110, 33] = "TWFuIQ==".toList := by decide

variable {bs : List UInt8} {c : Char}

theorem encode_append (h : bs.length % 3 = 0) (rest : List UInt8) :
    encode (bs ++ rest) = (sextets bs).map digit ++ encode rest := by
  fun_induction sextets bs with
  | case1 a b c bs ih =>
    simp only [length_cons] at h
    simp [encode, sextets, ih (by omega)]
  | case2 bs hs =>
    match bs, hs, h with
    | [], _, _ => rfl
    | _ :: _ :: _ :: _, hs, _ => exact absurd rfl (hs _ _ _ _)

theorem length_sextets (bs : List UInt8) : (sextets bs).length = bs.length / 3 * 4 := by
  fun_induction sextets bs with
  | case1 a b c bs ih =>
    simp only [length_cons, ih]
    omega
  | case2 bs hs =>
    match bs, hs with
    | [], _ => rfl
    | [_], _ => simp
    | [_, _], _ => simp
    | _ :: _ :: _ :: _, hs => exact absurd rfl (hs _ _ _ _)

/-! ## Bits -/

theorem eq_of_bits {x y : UInt8} (h : ∀ i < 8, x.toBitVec.getLsbD i = y.toBitVec.getLsbD i) :
    x = y :=
  UInt8.toBitVec_inj.1 (BitVec.eq_of_getLsbD_eq h)

/-- A sextet is an octet without high bits. -/
theorem lt_iff_bits {v : UInt8} :
    v < 64 ↔ v.toBitVec.getLsbD 6 = false ∧ v.toBitVec.getLsbD 7 = false := by
  have ha : ∀ i : Fin 256, UInt8.ofFin i < 64 ↔
      (UInt8.ofFin i).toBitVec.getLsbD 6 = false ∧ (UInt8.ofFin i).toBitVec.getLsbD 7 = false := by
    decide +kernel
  exact ha v.toFin

theorem sextets_lt (bs : List UInt8) : ∀ v ∈ sextets bs, v < 64 := by
  fun_induction sextets bs with
  | case1 a b c bs ih =>
    simp only [forall_mem_cons, lt_iff_bits]
    exact ⟨by simp, by simp, by simp, by simp, by simpa only [lt_iff_bits] using ih⟩
  | case2 => exact nofun

/-! ## The text as bytes -/

def ascii (c : Char) : UInt8 := c.val.toUInt8

theorem digit_mem (v : UInt8) : digit v ∈ alphabet := by
  unfold digit
  rw [getD_eq_getElem?_getD]
  cases h : alphabet[v.toNat]? with
  | none => decide
  | some c => exact mem_of_getElem? h

theorem mem_encode (h : c ∈ encode bs) : c ∈ alphabet ∨ c = '=' := by
  fun_induction encode bs with
  | case1 => cases h
  | case2 a =>
    simp only [mem_cons, not_mem_nil, or_false] at h
    rcases h with rfl | rfl | rfl | rfl
    · exact .inl (digit_mem _)
    · exact .inl (digit_mem _)
    · exact .inr rfl
    · exact .inr rfl
  | case3 a b =>
    simp only [mem_cons, not_mem_nil, or_false] at h
    rcases h with rfl | rfl | rfl | rfl
    · exact .inl (digit_mem _)
    · exact .inl (digit_mem _)
    · exact .inl (digit_mem _)
    · exact .inr rfl
  | case4 a b c r ih =>
    rcases mem_append.1 h with hg | hr
    · obtain ⟨v, -, rfl⟩ := mem_map.1 hg
      exact .inl (digit_mem v)
    · exact ih hr

theorem utf8Size_of_mem_encode (h : c ∈ encode bs) : c.utf8Size = 1 := by
  rcases mem_encode h with hal | rfl
  · have ha : alphabet.all (·.utf8Size == 1) = true := by decide
    exact eq_of_beq (all_eq_true.1 ha c hal)
  · rfl

theorem toList_toByteArray_text (bs : List UInt8) :
    (text bs).toByteArray.data.toList = (encode bs).map ascii := by
  rw [text, String.toByteArray_ofList, utf8Encode, toList_data_toByteArray]
  have ha : ∀ c ∈ encode bs, String.utf8EncodeChar c = [ascii c] :=
    fun c hc => String.utf8EncodeChar_eq_singleton (utf8Size_of_mem_encode hc)
  rw [flatMap_congr ha, map_eq_flatMap]

end Base64
