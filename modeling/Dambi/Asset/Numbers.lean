import Dambi.Asset.Delta

/-!
# Arithmetic of reducers

Checked operations on 256-bit amounts with the error of the reducer that makes
them, and the decimal arithmetic of `rust_decimal`, which reducers use through
its documented interface only.
-/

namespace Dambi.Asset

open FixedWidth Fallible Unsigned

/-! ## 256-bit amounts -/

/-- An integer of a smaller width as an amount. -/
def U256.from {w : Nat} (a : Unsigned w) : U256 := .ofNat a.val

def addOr (a b : U256) (message : String) : ReducerResult U256 := orBroken (a.checkedAdd b) message

def subOr (a b : U256) (message : String) : ReducerResult U256 := orBroken (a.checkedSub b) message

def mulOr (a b : U256) (message : String) : ReducerResult U256 := orBroken (a.checkedMul b) message

/-- The operator `/`, which panics on zero. -/
def divide (a b : U256) : ReducerResult U256 :=
  (a.checkedDiv b).elim (.error (.panic "attempt to divide by zero")) .ok

section Checked

variable {a b c : U256} {message : String}

theorem orBroken_ofNat? {n : Nat} :
    orBroken (Unsigned.ofNat? n : Option U256) message = .ok c ↔ c.val = n :=
  orFail_eq_ok.trans ofNat?_eq_some

theorem addOr_eq_ok : addOr a b message = .ok c ↔ c.val = a.val + b.val := orBroken_ofNat?

theorem mulOr_eq_ok : mulOr a b message = .ok c ↔ c.val = a.val * b.val := orBroken_ofNat?

theorem subOr_eq_ok : subOr a b message = .ok c ↔ b.val ≤ a.val ∧ c.val = a.val - b.val :=
  orFail_eq_ok.trans checkedSub_eq_some

theorem divide_eq_ok : divide a b = .ok c ↔ b.val ≠ 0 ∧ c.val = a.val / b.val := by
  unfold divide checkedDiv
  split
  · rename_i hz
    simp [hz]
  · rename_i hn
    simp only [Option.elim_some, Except.ok.injEq, Unsigned.ext_iff, hn, ne_eq, not_false_eq_true,
      true_and]
    exact eq_comm

theorem ensure_eq_ok {u : Unit} {p : Prop} [Decidable p] : ensure p message = .ok u ↔ p :=
  require_eq_ok

end Checked

@[simp] theorem U256.val_from {w : Nat}
    {a : Unsigned w} (hw : w ≤ 256) : (U256.from a).val = a.val :=
  val_ofNat (a.isLt.trans_le (Nat.pow_le_pow_right (by decide) hw))

/-! ## Messages -/

/-- A computation that does not stop with the message. -/
def Avoids (message : String) {α : Type} (result : ReducerResult α) : Prop :=
  result ≠ broken message

namespace Avoids

variable {α β : Type} {m message : String}

theorem bind {x : ReducerResult α} {f : α → ReducerResult β}
    (hx : Avoids message x) (hf : ∀ a, x = .ok a → Avoids message (f a)) :
    Avoids message (x >>= f) := by
  cases x with
  | ok a => exact hf a rfl
  | error e => exact fun heq => hx (congrArg Except.error (Except.error.inj heq))

theorem ok (a : α) : Avoids message (.ok a) := by
  intro heq
  cases heq

theorem orBroken (o : Option α) (h : m ≠ message) : Avoids message (orBroken o m) := by
  cases o with
  | none => exact fun heq => h (by simpa [Asset.orBroken, orFail, broken, fail] using heq)
  | some a => exact ok a

theorem ensure (p : Prop) [Decidable p] (h : m ≠ message) : Avoids message (ensure p m) := by
  unfold Asset.ensure require
  split
  · exact ok ()
  · exact fun heq => h (by simpa [broken, fail] using heq)

theorem divide (a b : U256) : Avoids message (divide a b) := by
  unfold Asset.divide
  cases a.checkedDiv b with
  | none =>
    intro heq
    cases heq
  | some q => exact ok q

theorem foldlM {σ : Type} {f : σ → α → ReducerResult σ} {xs : List α}
    (hf : ∀ s x, Avoids message (f s x)) (s : σ) : Avoids message (xs.foldlM f s) := by
  induction xs generalizing s with
  | nil => exact ok s
  | cons x xs ih => exact bind (hf s x) fun s' _ => ih s'

end Avoids

/-- `Err(ReducerError::UnsupportedProtocol { action, protocol })`. -/
def unsupported {α : Type} (action protocol : String) : ReducerResult α :=
  fail (.unsupportedProtocol action protocol)

/-- The `Debug` form of a string without characters that need an escape. -/
def quoted (s : String) : String := "\"" ++ s ++ "\""

/-! ## Decimals -/

/-- The operations of `rust_decimal` and of the number parsers that reducers call. The operators
panic when a result does not fit, with the message in the error. -/
structure DecimalKit (D : Type) where
  fromStr : String → Except String D
  /-- `Decimal::from_str_radix(s, 10)`. -/
  fromStrDec : String → Except String D
  ofU32 : Unsigned 32 → D
  /-- `Decimal::new(num, scale)`. -/
  scaled : Int → Nat → D
  zero : D
  add : D → D → Except String D
  sub : D → D → Except String D
  mul : D → D → Except String D
  div : D → D → Except String D
  lt : D → D → Bool
  isZero : D → Bool
  isSignNegative : D → Bool
  trunc : D → D
  round : D → D
  normalize : D → D
  toString : D → String
  toU32 : D → Option (Unsigned 32)
  /-- `U256::from_str`, which also reads other radices by their prefix. -/
  parseU256 : String → Except String U256
  /-- `U256::from_str_radix(s, 10)`. -/
  parseU256Dec : String → Except String U256
  /-- `SignedI256::from_dec_str`. -/
  parseI256Dec : String → Except String I256

/-- The interface on whole numbers, which have no fraction to round. -/
def DecimalKit.whole : DecimalKit Int where
  fromStr s := s.toInt?.elim (.error "no whole number") .ok
  fromStrDec s := s.toInt?.elim (.error "no whole number") .ok
  ofU32 n := n.val
  scaled n scale := n / 10 ^ scale
  zero := 0
  add a b := .ok (a + b)
  sub a b := .ok (a - b)
  mul a b := .ok (a * b)
  div a b := if b = 0 then .error "Division by zero" else .ok (a.tdiv b)
  lt a b := a < b
  isZero a := a = 0
  isSignNegative a := a < 0
  trunc a := a
  round a := a
  normalize a := a
  toString a := s!"{a}"
  toU32 a := if 0 ≤ a then Unsigned.ofNat? a.toNat else none
  parseU256 s := (s.toNat?.bind Unsigned.ofNat?).elim (.error "no amount") .ok
  parseU256Dec s := (s.toNat?.bind Unsigned.ofNat?).elim (.error "no amount") .ok
  parseI256Dec s := (s.toInt?.bind Signed.ofInt?).elim (.error "no signed amount") .ok

/-- An operator of `rust_decimal` that panics where it has no result. -/
def operator {α : Type} : Except String α → ReducerResult α
  | .ok a => .ok a
  | .error message => .error (.panic message)

section Decimals

variable {D : Type} (kit : DecimalKit D)

def parseDecimal (d : Decimal) : ReducerResult D :=
  described s!"invalid Decimal string {quoted d.text}" (kit.fromStr d.text)

def u256ToDecimal (amount : U256) : ReducerResult D :=
  described s!"U256 {amount} exceeds rust_decimal range" (kit.fromStr (toString amount))

def decimalToState (d : D) : Decimal := ⟨kit.toString (kit.normalize d)⟩

/-- `trunc().to_string()`, the integer part as text. -/
def truncText (d : D) : String := kit.toString (kit.trunc d)

/-- The amount of a signed change, through its decimal text. -/
def absoluteAmount (label : String) (d : I256) : ReducerResult U256 :=
  described label (kit.parseU256Dec (toString d.unsignedAbs))

end Decimals

end Dambi.Asset
