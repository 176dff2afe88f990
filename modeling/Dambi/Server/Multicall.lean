import Dambi.Lib.BigEndian
import Dambi.Lib.Fallible

/-!
# Batched calls

`multicall.rs` packs the calls of a round into one `aggregate3` call and unpacks the
answer. The decoder adds and multiplies words of the answer before it compares them
with its length; `Overflow` says what the build does with a result that does not fit.
-/

namespace Dambi.Server.Multicall

open Fallible

structure Call3Result where
  success : Bool
  returnData : List UInt8
deriving DecidableEq

inductive Stop where
  | panicked
  | fetchFailed (reason : String)
deriving DecidableEq

/-- A slice has at most `isize::MAX` bytes. -/
abbrev Slice := { data : List UInt8 // data.length < 2 ^ 63 }

/-- A result that the program panics without. -/
def guarded {α : Type} (c : Prop) [Decidable c] (a : α) : Except Stop α :=
  if c then .ok a else .error .panicked

inductive Overflow where
  | checked
  | wrapping

def Overflow.fit : Overflow → Nat → Except Stop Nat
  | checked, n => guarded (n < 2 ^ 64) n
  | wrapping, n => .ok (n % 2 ^ 64)

def Overflow.add (mode : Overflow) (a b : Nat) : Except Stop Nat := mode.fit (a + b)

def Overflow.mul (mode : Overflow) (a b : Nat) : Except Stop Nat := mode.fit (a * b)

/-- `&data[lo..hi]`. -/
def slice (data : List UInt8) (lo hi : Nat) : Except Stop (List UInt8) :=
  guarded (lo ≤ hi ∧ hi ≤ data.length) ((data.drop lo).take (hi - lo))

/-- `data[i]`. -/
def index (data : List UInt8) (i : Nat) : Except Stop UInt8 :=
  guarded (i < data.length) (data.getD i 0)

def readU256Usize (bytes : List UInt8) : Except Stop Nat := do
  require (bytes.length = 32) (.fetchFailed s!"expected 32 bytes, got {bytes.length}")
  require ((bytes.take 24).all (· = 0)) (.fetchFailed "u256 too large for usize")
  .ok (BigEndian.value (bytes.drop 24))

section Decode

variable (mode : Overflow) (data : List UInt8)

/-- The decoder up to the reservation: the start of the offsets and their number. -/
def decodeTable : Except Stop (Nat × Nat) := do
  require (64 ≤ data.length) (.fetchFailed s!"returnData too short: {data.length}")
  let arrayBase ← readU256Usize (← slice data 0 32)
  require ((← mode.add arrayBase 32) ≤ data.length)
    (.fetchFailed "returnData truncated at array length")
  let n ← readU256Usize (← slice data arrayBase (← mode.add arrayBase 32))
  let tableBase ← mode.add arrayBase 32
  let tableSize ← mode.mul n 32
  require ((← mode.add tableBase tableSize) ≤ data.length)
    (.fetchFailed "returnData truncated at offsets table")
  .ok (tableBase, n)

def decodeElement (tableBase i : Nat) : Except Stop Call3Result := do
  let lo ← mode.add tableBase (← mode.mul i 32)
  let hi ← mode.add tableBase (← mode.mul (← mode.add i 1) 32)
  let elemOffInArray ← readU256Usize (← slice data lo hi)
  let elemStart ← mode.add tableBase elemOffInArray
  require ((← mode.add elemStart 96) ≤ data.length)
    (.fetchFailed s!"returnData truncated at element {i}")
  let flag ← index data (← mode.add elemStart 31)
  let bytesLen ← readU256Usize
    (← slice data (← mode.add elemStart 64) (← mode.add elemStart 96))
  let bodyStart ← mode.add elemStart 96
  let bodyEnd ← mode.add bodyStart bytesLen
  require (bodyEnd ≤ data.length) (.fetchFailed s!"returnData truncated at element {i} bytes")
  .ok ⟨flag ≠ 0, ← slice data bodyStart bodyEnd⟩

/-- The loop from `i`, with the given number of elements to go. -/
def decodeElements (tableBase i : Nat) : Nat → Except Stop (List Call3Result)
  | 0 => .ok []
  | k + 1 => do
    let result ← decodeElement mode data tableBase i
    .ok (result :: (← decodeElements tableBase (i + 1) k))

def decodeAggregate3Returndata : Except Stop (List Call3Result) := do
  let (tableBase, n) ← decodeTable mode data
  decodeElements mode data tableBase 0 n

end Decode

/-! ## Panics -/

/-- No build panics on the data or reserves more results than it has words. -/
structure Safe (data : List UInt8) : Prop where
  returns (mode : Overflow) : decodeAggregate3Returndata mode data ≠ .error .panicked
  reserved (mode : Overflow) (tableBase n : Nat) :
    decodeTable mode data = .ok (tableBase, n) → n ≤ data.length / 32

variable (data : List UInt8)

def wordAt (p : Nat) : Except Stop Nat :=
  readU256Usize ((data.drop p).take 32)

def ElementFits (tableBase i : Nat) : Prop :=
  ∀ e, wordAt data (tableBase + i * 32) = .ok e → tableBase + e + 96 < 2 ^ 64 ∧
    ∀ l, tableBase + e + 96 ≤ data.length → wordAt data (tableBase + e + 64) = .ok l →
      tableBase + e + 96 + l < 2 ^ 64

def ElementWhole (tableBase i : Nat) : Prop :=
  ∃ e l, wordAt data (tableBase + i * 32) = .ok e ∧
    wordAt data (tableBase + e + 64) = .ok l ∧ tableBase + e + 96 + l ≤ data.length

/-- The ends of the elements fit a word, up to the first element that is cut off. -/
def ElementsFit (data : List UInt8) (tableBase i : Nat) : Nat → Prop
  | 0 => True
  | k + 1 => ElementFits data tableBase i ∧
    (ElementWhole data tableBase i → ElementsFit data tableBase (i + 1) k)

/-- The ends of the array's length, of its offsets and of its elements fit a word. -/
def EndsFit : Prop :=
  64 ≤ data.length → ∀ o, wordAt data 0 = .ok o → o + 32 < 2 ^ 64 ∧
    ∀ n, o + 32 ≤ data.length → wordAt data o = .ok n → o + 32 + n * 32 < 2 ^ 64 ∧
      (o + 32 + n * 32 ≤ data.length → ElementsFit data (o + 32) 0 n)

section Steps

variable {α β : Type} {c : Prop} [Decidable c]

variable {f : α → Except Stop β} {a : α}

theorem bind_ne_panicked {x : Except Stop α} :
    x >>= f ≠ .error .panicked ↔
      x ≠ .error .panicked ∧ ∀ a, x = .ok a → f a ≠ .error .panicked := by
  cases x <;> simp

theorem guarded_bind : guarded c a >>= f ≠ .error .panicked ↔ c ∧ f a ≠ .error .panicked := by
  by_cases h : c <;> simp [guarded, h]

theorem require_bind {r : String} {f : Unit → Except Stop α} :
    require c (.fetchFailed r) >>= f ≠ .error .panicked ↔ (c → f () ≠ .error .panicked) := by
  by_cases h : c <;> simp [h]

theorem readU256Usize_bind {bytes : List UInt8} {f : Nat → Except Stop α} :
    readU256Usize bytes >>= f ≠ .error .panicked ↔
      ∀ n, readU256Usize bytes = .ok n → f n ≠ .error .panicked := by
  unfold readU256Usize
  by_cases hl : bytes.length = 32
  · by_cases hz : (bytes.take 24).all (· = 0) = true <;> simp [hl, hz]
  · simp [hl]

theorem guarded_bind_eq_ok {b : β} : guarded c a >>= f = .ok b ↔ c ∧ f a = .ok b := by
  by_cases h : c <;> simp [guarded, h]

theorem require_bind_eq_ok {e : Stop} {b : α} {f : Unit → Except Stop α} :
    require c e >>= f = .ok b ↔ c ∧ f () = .ok b := by
  by_cases h : c <;> simp [h]

end Steps

section Checked

variable {data : List UInt8} {t i k n : Nat} (hd : data.length < 2 ^ 63)
include hd

theorem decodeElement_ne_panicked (ht : t + (i + 1) * 32 ≤ data.length) :
    decodeElement .checked data t i ≠ .error .panicked ↔ ElementFits data t i := by
  simp only [decodeElement, Overflow.add, Overflow.mul, Overflow.fit, slice, index,
    guarded_bind, require_bind, readU256Usize_bind]
  have hw : t + (i + 1) * 32 - (t + i * 32) = 32 := by omega
  rw [hw]
  constructor
  · rintro ⟨-, -, -, -, -, -, h⟩ e he
    refine ⟨(h e he).2.1, fun l hl hw => ?_⟩
    obtain ⟨-, -, -, -, -, hb⟩ := (h e he).2.2 hl
    exact (hb l (by simpa [wordAt] using hw)).2.1
  · intro h
    refine ⟨by omega, by omega, by omega, by omega, by omega, by omega, fun e he => ?_⟩
    obtain ⟨hs, hb⟩ := h e he
    refine ⟨by omega, hs, fun hl => ⟨by omega, by omega, by omega, hs, by omega, ?_⟩⟩
    intro l hw
    refine ⟨hs, hb l hl (by simpa [wordAt] using hw), fun hl => ⟨by omega, by simp⟩⟩

theorem decodeElement_eq_ok {r : Call3Result} (ht : t + (i + 1) * 32 ≤ data.length) :
    decodeElement .checked data t i = .ok r ↔ ∃ e l, wordAt data (t + i * 32) = .ok e ∧
      wordAt data (t + e + 64) = .ok l ∧ t + e + 96 + l ≤ data.length ∧
      r = ⟨data.getD (t + e + 31) 0 ≠ 0, (data.drop (t + e + 96)).take l⟩ := by
  simp only [decodeElement, Overflow.add, Overflow.mul, Overflow.fit, slice, index,
    guarded_bind_eq_ok, require_bind_eq_ok, bind_eq_ok (x := readU256Usize _)]
  have hw : t + (i + 1) * 32 - (t + i * 32) = 32 := by omega
  rw [hw]
  constructor
  · rintro ⟨-, -, -, -, -, -, e, he, -, -, -, -, -, -, -, -, l, hl, -, -, hb, -, hr⟩
    exact ⟨e, l, he, by simpa [wordAt] using hl, hb, by simpa using hr.symm⟩
  · rintro ⟨e, l, he, hl, hb, rfl⟩
    refine ⟨by omega, by omega, by omega, by omega, by omega, by omega, e, he, by omega, by omega,
      by omega, by omega, by omega, by omega, by omega, by omega, l, ?_, by omega, by omega, hb,
      by omega, by simp⟩
    simpa [wordAt] using hl

theorem decodeElements_ne_panicked (ht : t + (i + k) * 32 ≤ data.length) :
    decodeElements .checked data t i k ≠ .error .panicked ↔ ElementsFit data t i k := by
  induction k generalizing i with
  | zero => simp [decodeElements, ElementsFit]
  | succ k ih =>
    have he : t + (i + 1) * 32 ≤ data.length := by omega
    have hr (r : Call3Result) (x : Except Stop (List Call3Result)) :
        (do .ok (r :: (← x))) ≠ .error Stop.panicked ↔ x ≠ .error .panicked := by
      cases x <;> simp
    simp only [decodeElements, ElementsFit, bind_ne_panicked (x := decodeElement ..), hr,
      decodeElement_ne_panicked hd he, decodeElement_eq_ok hd he, ih (i := i + 1) (by omega)]
    refine and_congr_right fun _ => ⟨?_, ?_⟩
    · rintro h ⟨e, l, he, hl, hb⟩
      exact h _ ⟨e, l, he, hl, hb, rfl⟩
    · rintro h r ⟨e, l, he, hl, hb, -⟩
      exact h ⟨e, l, he, hl, hb⟩

theorem decode_ne_panicked :
    decodeAggregate3Returndata .checked data ≠ .error .panicked ↔ EndsFit data := by
  simp only [decodeAggregate3Returndata, decodeTable, bind_assoc, Overflow.add, Overflow.mul,
    Overflow.fit, slice, guarded_bind, require_bind, readU256Usize_bind, ok_bind]
  constructor
  · intro h h64 o ho
    obtain ⟨hs, h⟩ := (h h64).2 o ho
    refine ⟨hs, fun n hl hn => ?_⟩
    obtain ⟨-, -, h⟩ := h hl
    obtain ⟨-, -, hs, h⟩ := h n (by simpa [wordAt] using hn)
    exact ⟨hs, fun ht => (decodeElements_ne_panicked hd (by omega)).1 (h ht)⟩
  · intro h h64
    refine ⟨by omega, fun o ho => ?_⟩
    obtain ⟨hs, h⟩ := h h64 o ho
    refine ⟨hs, fun hl => ⟨hs, by omega, fun n hn => ?_⟩⟩
    obtain ⟨hn, h⟩ := h n hl (by simpa [wordAt] using hn)
    exact ⟨hs, by omega, hn, fun ht => (decodeElements_ne_panicked hd (by omega)).2 (h ht)⟩

theorem decodeTable_eq_ok : decodeTable .checked data = .ok (t, n) ↔ 64 ≤ data.length ∧
    ∃ o, wordAt data 0 = .ok o ∧ wordAt data o = .ok n ∧ t = o + 32 ∧
      t + n * 32 ≤ data.length := by
  simp only [decodeTable, Overflow.add, Overflow.mul, Overflow.fit, slice,
    guarded_bind_eq_ok, require_bind_eq_ok, bind_eq_ok (x := readU256Usize _)]
  constructor
  · rintro ⟨h64, -, o, ho, -, hl, -, -, n', hn, -, -, -, ht, he⟩
    cases he
    exact ⟨h64, o, ho, by simpa [wordAt] using hn, rfl, ht⟩
  · rintro ⟨h64, o, ho, hn, rfl, ht⟩
    refine ⟨h64, by omega, o, ho, by omega, by omega, by omega, by omega, n, ?_, by omega, by omega,
      by omega, ht, rfl⟩
    simpa [wordAt] using hn

end Checked

/-! ## Builds -/

/-- The second result is the first one, unless that is a panic. -/
def Agrees {α : Type} (x y : Except Stop α) : Prop := x ≠ .error .panicked → y = x

namespace Agrees

variable {α β : Type}

theorem refl (x : Except Stop α) : Agrees x x := fun _ => rfl

theorem bind {x y : Except Stop α} {f g : α → Except Stop β}
    (hx : Agrees x y) (hf : ∀ a, Agrees (f a) (g a)) : Agrees (x >>= f) (y >>= g) := by
  intro h
  cases x with
  | error e =>
    rw [hx (by simpa using h)]
    rfl
  | ok a =>
    rw [hx (by simp)]
    exact hf a h

theorem fit (mode : Overflow) (n : Nat) : Agrees (Overflow.checked.fit n) (mode.fit n) := by
  intro h
  cases mode with
  | checked => rfl
  | wrapping =>
    by_cases hn : n < 2 ^ 64
    · simp only [Overflow.fit, guarded, if_pos hn, Nat.mod_eq_of_lt hn]
    · exact absurd (if_neg hn) h

section

variable (mode : Overflow) (data : List UInt8)

theorem decodeElement (t i : Nat) :
    Agrees (decodeElement .checked data t i) (decodeElement mode data t i) := by
  unfold Multicall.decodeElement
  repeat' first | exact refl _ | exact fit mode _ | refine bind ?_ fun _ => ?_

theorem decodeElements (t i k : Nat) :
    Agrees (decodeElements .checked data t i k) (decodeElements mode data t i k) := by
  induction k generalizing i with
  | zero => exact refl _
  | succ k ih => exact bind (decodeElement mode data t i) fun _ => bind (ih _) fun _ => refl _

theorem decodeTable : Agrees (decodeTable .checked data) (decodeTable mode data) := by
  unfold Multicall.decodeTable
  repeat' first | exact refl _ | exact fit mode _ | refine bind ?_ fun _ => ?_

theorem decodeAggregate3Returndata :
    Agrees (decodeAggregate3Returndata .checked data) (decodeAggregate3Returndata mode data) :=
  bind (decodeTable mode data) fun ta => decodeElements mode data ta.1 0 ta.2

end

end Agrees

/-- The decoder is safe exactly on the data whose ends fit a word. -/
theorem decode_safe_iff (data : Slice) : Safe data.1 ↔ EndsFit data.1 := by
  rw [← decode_ne_panicked data.2]
  constructor
  · intro h
    exact h.returns .checked
  · intro h
    have ht : decodeTable .checked data.1 ≠ .error .panicked := (bind_ne_panicked.1 h).1
    refine ⟨fun mode => ?_, fun mode t n hn => ?_⟩
    · rw [Agrees.decodeAggregate3Returndata mode data.1 h]
      exact h
    · rw [Agrees.decodeTable mode data.1 ht, decodeTable_eq_ok data.2] at hn
      obtain ⟨-, o, -, -, -, hl⟩ := hn
      omega

/-- Answers whose array offset, and whose number of results, wrap around. -/
def hostileData (offset n : Nat) : List UInt8 :=
  BigEndian.bytes 32 offset ++ BigEndian.bytes 32 n

/-- Both builds panic on one answer, and one reserves room for 2⁵⁹ results on the other. -/
theorem hostile_data_unsafe :
    (∀ mode, decodeAggregate3Returndata mode (hostileData (2 ^ 64 - 1) 0) = .error .panicked) ∧
      decodeTable .wrapping (hostileData 32 (2 ^ 59)) = .ok (64, 2 ^ 59) := by
  constructor
  · intro mode
    cases mode <;> decide +kernel
  · decide +kernel

end Dambi.Server.Multicall
