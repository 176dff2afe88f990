import Dambi.Lib.FixedWidth
import Dambi.Server.Multicall

/-!
# Packed transactions of a Safe

`safe_multisend.rs` reads the payload of `multiSend` with a cursor. The length of the
data of a transaction is any word; it is compared with the payload after the cursor has
been added.
-/

namespace Dambi.Multisend

open BigEndian FixedWidth Server.Multicall List Fallible

structure MultisendTx where
  operation : UInt8
  to_ : Unsigned 160
  value : Unsigned 256
  data : List UInt8
deriving DecidableEq

def headerSize : Nat := 1 + 20 + 32 + 32

variable (r : List UInt8)

/-- `&r[i..i + k]`. -/
def field (i k : Nat) : List UInt8 := (r.drop i).take k

def dataLength : Nat := value (field r 53 32)

/-- A transaction by the header at the beginning of the bytes. -/
def readTx (r data : List UInt8) : MultisendTx where
  operation := r.headD 0
  to_ := .ofNat (value (field r 1 20))
  value := .ofNat (value (field r 21 32))
  data

/-- The loop from a cursor on. The reads of a header end within the bytes. -/
def parseFrom (mode : Overflow) (bytes : List UInt8) :
    Nat → Nat → List MultisendTx → Except Stop (List MultisendTx)
  | 0, _, out => .ok out
  | fuel + 1, cursor, out => do
    if (← mode.add cursor headerSize) ≤ bytes.length then
      let n := dataLength (bytes.drop cursor)
      if n < 2 ^ 64 then
        let stop ← mode.add (cursor + headerSize) n
        if stop ≤ bytes.length then
          let data ← slice bytes (cursor + headerSize) stop
          parseFrom mode bytes fuel stop (out ++ [readTx (bytes.drop cursor) data])
        else .ok out
      else .ok out
    else .ok out

def parseMultisendTransactions (mode : Overflow) (bytes : List UInt8) :
    Except Stop (List MultisendTx) :=
  parseFrom mode bytes (bytes.length + 1) 0 []

/-! ## Packing -/

def pack (tx : MultisendTx) : List UInt8 :=
  tx.operation :: (BigEndian.bytes 20 tx.to_.val ++ BigEndian.bytes 32 tx.value.val ++
    BigEndian.bytes 32 tx.data.length ++ tx.data)

def packed (txs : List MultisendTx) : List UInt8 := txs.flatMap pack

/-- The bytes of the transaction that the header announces. -/
def extent : Nat := headerSize + dataLength r

def firstTx : MultisendTx := readTx r (field r headerSize (dataLength r))

variable {mode : Overflow} {bytes r : List UInt8} {cursor fuel : Nat} {txs : List MultisendTx}
  {tx : MultisendTx}

theorem length_pack (tx : MultisendTx) : (pack tx).length = 85 + tx.data.length := by
  simp [pack]
  omega

theorem packed_concat (txs : List MultisendTx) (tx : MultisendTx) :
    packed (txs ++ [tx]) = packed txs ++ pack tx := by
  simp [packed]

theorem first_of_pack (h : tx.data.length < 256 ^ 32) :
    extent (pack tx ++ r) = (pack tx).length ∧ firstTx (pack tx ++ r) = tx := by
  have hv {k w : Nat} (u : Unsigned w) (hw : 2 ^ w = 256 ^ k) :
      (.ofNat (value (BigEndian.bytes k u.val)) : Unsigned w) = u := by
    rw [value_bytes (hw ▸ u.isLt)]
    exact Unsigned.ext (Unsigned.val_ofNat u.isLt)
  have hd : dataLength (pack tx ++ r) = tx.data.length := by
    simp [dataLength, field, pack, drop_append, drop_eq_nil_of_le, value_bytes h]
  rw [extent, firstTx, length_pack, hd]
  refine ⟨rfl, ?_⟩
  simp [readTx, field, pack, headerSize, drop_append, drop_eq_nil_of_le, hv]

theorem length_field {i k : Nat} (h : i + k ≤ r.length) : (field r i k).length = k := by
  simp [field]
  omega

theorem bytes_field {i k w : Nat} (h : i + k ≤ r.length) (hw : 256 ^ k = 2 ^ w) :
    BigEndian.bytes k (.ofNat (value (field r i k)) : Unsigned w).val = field r i k := by
  have hl := value_lt (field r i k)
  have hb := bytes_value (field r i k)
  rw [length_field h] at hl hb
  rwa [Unsigned.val_ofNat (hw ▸ hl)]

theorem field_append (r : List UInt8) (i k : Nat) : field r i k ++ r.drop (i + k) = r.drop i := by
  rw [field, ← drop_drop, take_append_drop]

theorem pack_firstTx (h : extent r ≤ r.length) : pack (firstTx r) ++ r.drop (extent r) = r := by
  have hs : headerSize = 85 := rfl
  have hn := bytes_value (field r 53 32)
  unfold extent at h
  rw [length_field (by omega)] at hn
  simp only [pack, firstTx, readTx, length_field h]
  rw [bytes_field (by omega) (by decide), bytes_field (by omega) (by decide), extent, dataLength,
    hn]
  have h₃ : field r 53 32 ++ r.drop headerSize = r.drop 53 := field_append r 53 32
  have h₂ : field r 21 32 ++ r.drop 53 = r.drop 21 := field_append r 21 32
  have h₁ : field r 1 20 ++ r.drop 21 = r.drop 1 := field_append r 1 20
  simp only [cons_append, append_assoc, field_append, h₃, h₂, h₁]
  cases r with
  | nil => exact absurd h (by simp [hs])
  | cons x t => rfl

/-! ## The loop -/

/-- The transaction at the cursor ends past the last number of a word. -/
def Overflows (cursor : Nat) (r : List UInt8) : Prop :=
  headerSize ≤ r.length ∧ dataLength r < 2 ^ 64 ∧ 2 ^ 64 ≤ cursor + extent r

instance : Decidable (Overflows cursor r) := inferInstanceAs (Decidable (_ ∧ _))

theorem add_eq_ok {a b : Nat} (mode : Overflow) (h : a + b < 2 ^ 64) :
    mode.add a b = .ok (a + b) := by
  cases mode with
  | checked => exact if_pos h
  | wrapping => exact congrArg Except.ok (Nat.mod_eq_of_lt h)

/-- One turn of the loop, in either build. -/
theorem parseFrom_succ (out : List MultisendTx) (hb : bytes.length < 2 ^ 63)
    (hc : cursor ≤ bytes.length) (hr : bytes.drop cursor = r) :
    parseFrom mode bytes (fuel + 1) cursor out =
      if Overflows cursor r then .error .panicked
      else if extent r ≤ r.length then
        parseFrom mode bytes fuel (cursor + extent r) (out ++ [firstTx r])
      else .ok out := by
  have hs : headerSize = 85 := rfl
  have hl : r.length = bytes.length - cursor := hr ▸ length_drop
  simp only [parseFrom, add_eq_ok mode (by omega : cursor + headerSize < 2 ^ 64), hr, ok_bind]
  have he : extent r = headerSize + dataLength r := rfl
  by_cases hh : cursor + headerSize ≤ bytes.length
  · rw [if_pos hh]
    by_cases hn : dataLength r < 2 ^ 64
    · rw [if_pos hn]
      by_cases ho : cursor + headerSize + dataLength r < 2 ^ 64
      · have hno : ¬Overflows cursor r := fun h => absurd h.2.2 (by omega)
        simp only [add_eq_ok mode ho, ok_bind, if_neg hno]
        by_cases hw : extent r ≤ r.length
        · rw [if_pos (by omega), if_pos hw, slice, guarded, if_pos (by omega), ok_bind, firstTx]
          simp [field, ← hr, extent, ← Nat.add_assoc]
        · rw [if_neg (by omega), if_neg hw]
      · rw [if_pos ⟨by omega, hn, by omega⟩]
        -- The sum traps, or it wraps to a place before the data.
        cases mode with
        | checked =>
          rw [Overflow.add, Overflow.fit, guarded, if_neg ho]
          rfl
        | wrapping =>
          simp only [Overflow.add, Overflow.fit, ok_bind, slice, guarded]
          rw [if_pos (by omega), if_neg (by omega)]
          rfl
    · rw [if_neg hn, if_neg fun h => hn h.2.1, if_neg (by omega)]
  · rw [if_neg hh, if_neg fun h => absurd h.1 (by omega), if_neg (by omega)]

/-- The loop reads what has been packed. -/
theorem parseFrom_packed (mode : Overflow) (fuel : Nat) (out : List MultisendTx)
    (hb : bytes.length < 2 ^ 63) (hc : cursor ≤ bytes.length)
    (hr : bytes.drop cursor = packed txs ++ r) :
    parseFrom mode bytes (fuel + txs.length) cursor out =
      parseFrom mode bytes fuel (cursor + (packed txs).length) (out ++ txs) := by
  induction txs generalizing cursor out with
  | nil => simp [packed]
  | cons tx txs ih =>
    have hs : packed (tx :: txs) = pack tx ++ packed txs := flatMap_cons
    rw [hs, append_assoc] at hr
    have hlp := length_pack tx
    have hl : bytes.length - cursor = (pack tx).length + (packed txs ++ r).length := by
      rw [← length_drop, hr, length_append]
    obtain ⟨he, hf⟩ := first_of_pack (r := packed txs ++ r) (by omega : tx.data.length < 256 ^ 32)
    have hno : ¬Overflows cursor (pack tx ++ (packed txs ++ r)) := fun h => absurd h.2.2 (by omega)
    have hr' : bytes.drop (cursor + (pack tx).length) = packed txs ++ r := by
      rw [← drop_drop, hr, drop_left]
    rw [length_cons, ← Nat.add_assoc, parseFrom_succ out hb hc hr, if_neg hno, he, hf,
      if_pos (by simp), ih _ (by omega) hr', hs, length_append, append_assoc, Nat.add_assoc]
    rfl

def Exact (bytes : List UInt8) (txs : List MultisendTx) : Prop :=
  packed txs <+: bytes ∧ ∀ tx, ¬packed txs ++ pack tx <+: bytes

theorem parseFrom_exact (hb : bytes.length < 2 ^ 63) (hr : packed txs ++ r = bytes)
    (hf : r.length < fuel) :
    (∃ txs r, packed txs ++ r = bytes ∧ Overflows (packed txs).length r) ∨
    ∃ txs', parseFrom mode bytes fuel (packed txs).length txs = .ok txs' ∧ Exact bytes txs' := by
  induction fuel generalizing txs r with
  | zero => omega
  | succ fuel ih =>
    have hl : bytes.length = (packed txs).length + r.length := by rw [← hr, length_append]
    rw [parseFrom_succ txs hb (by omega) (by rw [← hr, drop_left])]
    by_cases ho : Overflows (packed txs).length r
    · exact .inl ⟨txs, r, hr, ho⟩
    rw [if_neg ho]
    by_cases hw : extent r ≤ r.length
    · have hp := pack_firstTx hw
      have hlp : (pack (firstTx r)).length + (r.length - extent r) = r.length := by
        rw [← length_drop, ← length_append, hp]
      have hr' : packed (txs ++ [firstTx r]) ++ r.drop (extent r) = bytes := by
        rw [packed_concat, append_assoc, hp, hr]
      have hl' := length_pack (firstTx r)
      rw [if_pos hw, (by omega : extent r = (pack (firstTx r)).length), ← length_append,
        ← packed_concat]
      exact ih hr' (by rw [length_drop]; omega)
    · rw [if_neg hw]
      refine .inr ⟨txs, rfl, ⟨r, hr⟩, fun tx ⟨t, ht⟩ => hw ?_⟩
      obtain rfl : pack tx ++ t = r := by simpa [← hr] using ht
      have hlp := length_pack tx
      rw [length_append] at hl ⊢
      rw [(first_of_pack (by omega)).1]
      omega

theorem length_le_packed (txs : List MultisendTx) : txs.length ≤ (packed txs).length := by
  induction txs with
  | nil => exact Nat.zero_le _
  | cons tx txs ih =>
    have hs : packed (tx :: txs) = pack tx ++ packed txs := flatMap_cons
    rw [hs, length_append, length_pack, length_cons]
    omega

/-- Parsing is exact for the bytes in which no transaction, after those that can be read,
ends past the last number of a word; and it is the inverse of packing. -/
theorem parse_exact_iff (bytes : Slice) :
    ((∀ mode, ∃ txs, parseMultisendTransactions mode bytes.1 = .ok txs ∧ Exact bytes.1 txs) ↔
      ∀ txs r, packed txs ++ r = bytes.1 → ¬Overflows (packed txs).length r) ∧
    ∀ txs, packed txs = bytes.1 → ∀ mode, parseMultisendTransactions mode bytes.1 = .ok txs := by
  obtain ⟨bytes, hb⟩ := bytes
  -- After the transactions at the beginning the loop is at the turn for the rest.
  have hrun (mode : Overflow) {txs : List MultisendTx} {r : List UInt8}
      (hr : packed txs ++ r = bytes) : ∃ fuel, parseMultisendTransactions mode bytes =
        if Overflows (packed txs).length r then .error .panicked
        else if extent r ≤ r.length then parseFrom mode bytes fuel
          ((packed txs).length + extent r) (txs ++ [firstTx r])
        else .ok txs := by
    have hl : (packed txs).length ≤ bytes.length := by simp [← hr]
    have ht := length_le_packed txs
    refine ⟨bytes.length - txs.length, ?_⟩
    rw [← parseFrom_succ txs hb hl (by rw [← hr, drop_left])]
    have hp := parseFrom_packed mode (bytes.length - txs.length + 1) [] hb (Nat.zero_le _) hr.symm
    rw [Nat.zero_add, nil_append, Nat.add_right_comm, Nat.sub_add_cancel (by omega)] at hp
    exact hp
  refine ⟨⟨fun h txs r hr ho => ?_, fun h mode => ?_⟩, fun txs hr mode => ?_⟩
  · obtain ⟨fuel, hp⟩ := hrun .checked hr
    obtain ⟨txs', ht, -⟩ := h .checked
    rw [hp, if_pos ho] at ht
    cases ht
  · have hr : packed [] ++ bytes = bytes := rfl
    rcases parseFrom_exact hb hr (Nat.lt_succ_self _) with ⟨txs, r, hr, ho⟩ | he
    · exact absurd ho (h txs r hr)
    · exact he
  · rw [← append_nil (packed txs)] at hr
    obtain ⟨fuel, hp⟩ := hrun mode hr
    rw [hp, if_neg fun h => absurd h.1 (by decide), if_neg (by decide)]

/-- A header alone whose length field is the largest number of a word, in both builds. -/
theorem header_panics :
    let bytes := replicate 77 0 ++ replicate 8 255
    parseMultisendTransactions .checked bytes = .error .panicked ∧
      parseMultisendTransactions .wrapping bytes = .error .panicked := by
  decide +kernel

end Dambi.Multisend
