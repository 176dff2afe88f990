import Dambi.Bundle.Structure
import Dambi.Json
import Dambi.Lib.Binary64

/-!
# Strict JSON

`bundle/strict_json.rs`: a JSON text is read without repeated members, without
deep nesting and without numbers that a conversion would change.
-/

namespace Dambi

open Fallible Decimal List Option Exponent

namespace StrictJson

/-! ## Normal forms of numbers -/

/-- The checked results of `i64`. -/
def i64? (n : Int) : Option Int :=
  if -9223372036854775808 ≤ n ∧ n ≤ 9223372036854775807 then some n else none

def splitOnce (separates : Char → Bool) (text : List Char) : Option (List Char × List Char) :=
  match text.dropWhile (!separates ·) with
  | [] => none
  | _ :: after => some (text.takeWhile (!separates ·), after)

def digit? (c : Char) : Option (Fin 10) :=
  if '0' ≤ c ∧ c ≤ '9' then some (.ofNat 10 (c.toNat - 48)) else none

def parseDigits (text : List Char) : Option Nat :=
  if text = [] then none else (text.mapM digit?).map value

/-- `str::parse::<i64>`. -/
def parseI64 (text : List Char) : Option Int :=
  if text.head? = some '-' then (parseDigits text.tail).bind fun n => i64? (-n)
  else if text.head? = some '+' then (parseDigits text.tail).bind fun n => i64? n
  else (parseDigits text).bind fun n => i64? n

def decimal (token : List Char) : Option (Bool × List Char × Int) :=
  let negative := token.head? = some '-'
  let unsigned := if negative then token.tail else token
  let (mantissa, exponent) :=
    (splitOnce (fun c => c = 'e' ∨ c = 'E') unsigned).getD (unsigned, ['0'])
  let fractionLen : Nat :=
    (splitOnce (· = '.') mantissa).elim 0 fun (_, fraction) => fraction.length
  let digits := (mantissa.filter (· ≠ '.')).dropWhile (· = '0')
  if digits = [] then some (false, ['0'], 0)
  else do
    let coefficient := digits.rdropWhile (· = '0')
    let trailing := digits.length - coefficient.length
    let exponent ← parseI64 exponent
    let scale ← i64? (exponent - (← i64? fractionLen))
    let scale ← i64? (scale + (← i64? trailing))
    return (decide negative, coefficient, scale)

/-! ## The text of a literal -/

theorem digitChar_ne : ∀ d : Fin 10, digitChar d ≠ '-' ∧ digitChar d ≠ '+' ∧ digitChar d ≠ '.' ∧
    digitChar d ≠ 'e' ∧ digitChar d ≠ 'E' := by
  decide

theorem digitChar_eq_zero : ∀ d : Fin 10, (digitChar d = '0') = (d = 0) := by
  decide

theorem digit?_digitChar : ∀ d : Fin 10, digit? (digitChar d) = some d := by
  decide

theorem digitChar_injective : Function.Injective digitChar := by
  intro d d' h
  have hs := digit?_digitChar d
  rw [h, digit?_digitChar] at hs
  exact (some.inj hs).symm

section SplitOnce

variable {separates : Char → Bool} {before after : List Char} {c : Char}

theorem splitOnce_append (hb : ∀ c ∈ before, separates c = false) (hc : separates c = true) :
    splitOnce separates (before ++ c :: after) = some (before, after) := by
  have ha : ∀ c ∈ before, (!separates c) = true := by simpa using hb
  simp [splitOnce, dropWhile_append_of_pos ha, takeWhile_append_of_pos ha, hc]

theorem splitOnce_eq_none (h : ∀ c ∈ before, separates c = false) :
    splitOnce separates before = none := by
  have ha : ∀ c ∈ before, (!separates c) = true := by simpa using h
  simp [splitOnce, dropWhile_eq_nil_iff.2 ha]

end SplitOnce

theorem mapM_digit? (ds : List (Fin 10)) : (ds.map digitChar).mapM digit? = some ds := by
  induction ds with
  | nil => rfl
  | cons d ds ih => simp [ih, digit?_digitChar]

theorem parseDigits_map {ds : List (Fin 10)}
    (h : ds ≠ []) : parseDigits (ds.map digitChar) = some (value ds) := by
  rw [parseDigits, if_neg (by simpa using h), mapM_digit?]
  rfl

theorem head?_map_ne {c : Char} (ds : List (Fin 10)) (h : ∀ d, digitChar d ≠ c) :
    (ds.map digitChar).head? ≠ some c := by
  cases ds <;> simp [h]

theorem parseI64_text (e : Exponent) : parseI64 e.text = i64? e.toInt := by
  obtain ⟨u, s, digits, hn⟩ := e
  have hm := head?_map_ne digits fun d => (digitChar_ne d).1
  have hp := head?_map_ne digits fun d => (digitChar_ne d).2.1
  match s with
  | some true =>
    simp [Exponent.text, signText, parseI64, parseDigits_map hn, toInt]
  | some false =>
    simp [Exponent.text, signText, parseI64, parseDigits_map hn, toInt]
  | none =>
    rw [Exponent.text, signText, nil_append, parseI64, if_neg hm, if_neg hp,
      parseDigits_map hn]
    simp [toInt]

section Text

variable (l : Literal)

theorem head?_mantissa_ne : (l.mantissa ++ l.exponentText).head? ≠ some '-' := by
  obtain ⟨d, ds, hi⟩ := exists_cons_of_ne_nil l.int_ne
  simp [Literal.mantissa, hi, digitChar_ne]

theorem head?_text : (l.text.head? = some '-') = (l.negative = true) := by
  have hn := head?_mantissa_ne l
  cases hng : l.negative <;> simp_all [Literal.text]

theorem unsigned_text :
    (if l.negative then l.text.tail else l.text) = l.mantissa ++ l.exponentText := by
  cases hn : l.negative <;> simp [Literal.text, hn]

theorem mantissa_ne {c : Char} (h : c ∈ l.mantissa) : c ≠ 'e' ∧ c ≠ 'E' := by
  rw [Literal.mantissa, mem_append] at h
  rcases h with h | h
  · obtain ⟨d, -, rfl⟩ := List.mem_map.1 h
    exact (digitChar_ne d).2.2.2
  · cases hf : l.fraction with
    | none => simp [hf] at h
    | some f =>
      rw [hf, elim_some, mem_cons] at h
      rcases h with rfl | h
      · decide
      · obtain ⟨d, -, rfl⟩ := List.mem_map.1 h
        exact (digitChar_ne d).2.2.2

def exponentOf : List Char := l.exponent.elim ['0'] Exponent.text

theorem parseI64_exponentOf :
    parseI64 (exponentOf l) = i64? (l.exponent.elim 0 Exponent.toInt) := by
  cases he : l.exponent with
  | none => simp [exponentOf, he]; decide
  | some e => simp [exponentOf, he, parseI64_text]

theorem splitOnce_exponent :
    (splitOnce (fun c => c = 'e' ∨ c = 'E') (l.mantissa ++ l.exponentText)).getD
      (l.mantissa ++ l.exponentText, ['0']) = (l.mantissa, exponentOf l) := by
  have hm : ∀ c ∈ l.mantissa, decide (c = 'e' ∨ c = 'E') = false := by
    intro c hc
    simp [mantissa_ne l hc]
  cases he : l.exponent with
  | none =>
    have ht : l.exponentText = [] := by simp [Literal.exponentText, he]
    rw [ht, append_nil, splitOnce_eq_none hm]
    simp [exponentOf, he]
  | some e =>
    have ht : l.exponentText = (if e.upper then 'E' else 'e') :: e.text := by
      simp [Literal.exponentText, he]
    rw [ht, splitOnce_append hm (by cases e.upper <;> simp)]
    simp [exponentOf, he]

theorem splitOnce_fraction : ((splitOnce (· = '.') l.mantissa).elim 0 fun (_, f) => f.length) =
      (l.fraction.getD []).length := by
  have hi : ∀ c ∈ l.int.map digitChar, decide (c = '.') = false := by
    intro c hc
    obtain ⟨d, -, rfl⟩ := List.mem_map.1 hc
    simp [digitChar_ne]
  cases hf : l.fraction with
  | none => simp [Literal.mantissa, hf, splitOnce_eq_none hi]
  | some f =>
    simp [Literal.mantissa, hf, splitOnce_append hi (decide_eq_true rfl)]

theorem filter_mantissa : l.mantissa.filter (· ≠ '.') = l.digits.map digitChar := by
  have hk : ∀ ds : List (Fin 10), (ds.map digitChar).filter (· ≠ '.') = ds.map digitChar := by
    intro ds
    refine filter_eq_self.2 fun c hc => ?_
    obtain ⟨d, -, rfl⟩ := List.mem_map.1 hc
    simp [digitChar_ne]
  rw [Literal.mantissa, Literal.digits, filter_append, map_append, hk]
  cases l.fraction with
  | none => rfl
  | some f =>
    rw [elim_some, filter_cons_of_neg (by simp), hk]
    rfl

end Text

section Trim

variable (ds : List (Fin 10))

theorem dropWhile_map_digitChar :
    (ds.map digitChar).dropWhile (· = '0') = (ds.dropWhile (· = 0)).map digitChar := by
  simp [dropWhile_map, Function.comp_def, digitChar_eq_zero]

theorem rdropWhile_map_digitChar :
    (ds.map digitChar).rdropWhile (· = '0') = (ds.rdropWhile (· = 0)).map digitChar := by
  rw [rdropWhile, ← map_reverse, dropWhile_map_digitChar, ← map_reverse]
  rfl

end Trim

theorem decimal_text (l : Literal) : decimal l.text =
    if l.digits.dropWhile (· = 0) = [] then some (false, ['0'], 0)
    else do
      let digits := l.digits.dropWhile (· = 0)
      let co := digits.rdropWhile (· = 0)
      let e ← i64? (l.exponent.elim 0 toInt)
      let scale ← i64? (e - (← i64? (l.fraction.getD []).length))
      let scale ← i64? (scale + (← i64? (digits.length - co.length : Nat)))
      return (l.negative, co.map digitChar, scale) := by
  unfold decimal
  simp only [unsigned_text, splitOnce_exponent, splitOnce_fraction, filter_mantissa,
    dropWhile_map_digitChar, rdropWhile_map_digitChar, length_map, map_eq_nil_iff,
    parseI64_exponentOf, head?_text, Bool.decide_eq_true]

theorem i64?_eq_some {n m : Int} (h : i64? n = some m) : m = n := by
  unfold i64? at h
  split at h
  · exact (some.inj h).symm
  · cases h

variable {l l' : Literal} {f : Bool × List Char × Int}

theorem decimal_normal (h : decimal l.text = some f) : ∃ n : Scaled, n.Normal ∧ n.toRat = l.toRat ∧
      f = (n.negative, n.coefficient.map digitChar, n.scale) := by
  have hv := value_dropWhile l.digits
  rw [decimal_text] at h
  split at h
  · next hz =>
    rw [hz, value_nil] at hv
    refine ⟨⟨false, [0], 0⟩, .zero, ?_, (some.inj h).symm⟩
    rw [Literal.toRat, ← hv]
    simp [Scaled.toRat, signed, value]
  · next hn =>
    simp only [bind_eq_bind, bind_eq_some_iff] at h
    obtain ⟨e, he, ln, hl, scale, hs, t, ht, scale', hs', hf⟩ := h
    obtain rfl := i64?_eq_some he
    obtain rfl := i64?_eq_some hl
    obtain rfl := i64?_eq_some hs
    obtain rfl := i64?_eq_some ht
    obtain rfl := i64?_eq_some hs'
    refine ⟨⟨l.negative, _, _⟩, .trimmed (trimmed_of_ne_nil hn), ?_, (some.inj hf).symm⟩
    rw [value_rdropWhile] at hv
    simp only [Scaled.toRat, Literal.toRat, ← hv]
    rw [Nat.cast_mul, Nat.cast_pow, mul_assoc, Literal.scale, ← zpow_natCast,
      zpow_add₀ (by norm_num)]
    congr 2
    exact mul_comm _ _

/-- Literals with normal forms have equal ones exactly when they write the same number. -/
theorem decimal_eq_iff {f' : Bool × List Char × Int}
    (h : decimal l.text = some f) (h' : decimal l'.text = some f') :
    f = f' ↔ l.toRat = l'.toRat := by
  obtain ⟨n, hn, hr, rfl⟩ := decimal_normal h
  obtain ⟨n', hn', hr', rfl⟩ := decimal_normal h'
  rw [← hr, ← hr']
  constructor
  · intro heq
    obtain ⟨negative, co, scale⟩ := n
    obtain ⟨negative', co', scale'⟩ := n'
    simp only [Prod.mk.injEq] at heq
    obtain ⟨rfl, hc, rfl⟩ := heq
    rw [map_injective_iff.2 digitChar_injective hc]
  · intro heq
    rw [hn.eq_of_toRat_eq hn' heq]

/-! ## Reading a text -/

/-- A scanned JSON text. Number tokens are literals; the tokens of strings and member names
are not decoded yet. -/
inductive RawJson where
  | null
  | bool (b : Bool)
  | number (token : Literal)
  | string (token : String)
  | array (items : List RawJson)
  | object (members : List (String × RawJson))

/-- The functions of `serde_json` that are called, with the texts of their errors. -/
structure SerdeJson where
  /-- `from_str::<&RawValue>`. -/
  scan : String → Except String RawJson
  /-- `from_str::<String>` of a string token. -/
  decode : String → Except String String

def maxDepth : Nat := 128

def maxSafeInteger : Nat := 9007199254740991

def invalidJson (path error : String) : PolicyParseError := ⟨.invalidJson, path, error⟩

/-- `child_path`, and the path that `child_value` pushes. -/
def childPath (parent key : String) : String := s!"{parent}/{Text.escapePointer key}"

/-- Two number texts have normal forms, and they are equal. -/
def sameDecimal (before after : List Char) : Bool :=
  match decimal before, decimal after with
  | some before, some after => before = after
  | _, _ => false

def number (token : Literal) (path : String) : Except PolicyParseError Json := do
  let error : PolicyParseError := ⟨.invalidNumber, path,
    "number must be finite, preserve its decimal value and use safe integers"⟩
  let number := Binary64.ofLiteral token
  require number.isFinite error
  require (sameDecimal token.text number.display.text) error
  if number.toRat.isInt then
    require (|number.toRat| ≤ maxSafeInteger) error
    return .int number.toRat.num
  else return .float number.bits

section Value

variable (serde : SerdeJson)

/-- `string` on a string token. -/
def string (token path : String) : Except PolicyParseError String :=
  (serde.decode token).mapError (invalidJson path)

/-- `object_members`: the decoded names, which must be different. -/
def objectMembers (members : List (String × RawJson)) (path : String) :
    Except PolicyParseError (List String) := do
  let names ← members.mapM fun member => (serde.decode member.1).mapError (invalidJson path)
  insertAll [] names fun name => ⟨.duplicateKey, childPath path name, "duplicate JSON member"⟩

mutual

def value : RawJson → String → Nat → Except PolicyParseError Json
  | .null, _, _ => .ok .null
  | .bool b, _, _ => .ok (.bool b)
  | .number token, path, _ => number token path
  | .string token, path, _ => (string serde token path).map .str
  | .array items, path, depth => do
    require (depth < maxDepth) ⟨.depthLimit, path, "JSON nesting exceeds 128 containers"⟩
    return .arr (← itemValues path depth 0 items)
  | .object members, path, depth => do
    require (depth < maxDepth) ⟨.depthLimit, path, "JSON nesting exceeds 128 containers"⟩
    let names ← objectMembers serde members path
    return .obj (← memberValues path depth [] members names)

def itemValues (path : String) (depth : Nat) : Nat → List RawJson →
    Except PolicyParseError (List Json)
  | _, [] => .ok []
  | index, item :: rest => do
    let child ← value item (childPath path (toString index)) (depth + 1)
    return child :: (← itemValues path depth (index + 1) rest)

def memberValues (path : String) (depth : Nat) (object : List (String × Json)) :
    List (String × RawJson) → List String → Except PolicyParseError (List (String × Json))
  | (_, raw) :: rest, name :: names => do
    let child ← value raw (childPath path name) (depth + 1)
    memberValues path depth (Json.insertField name child object) rest names
  | _, _ => .ok object

end

def parse (input : String) : Except PolicyParseError Json := do
  let raw ← (serde.scan input).mapError (invalidJson "$")
  value serde raw "$" 0

end Value

/-! ## Numbers are exact -/

/-- A number of the result against the one that is written. A double is read through its
decimal text. -/
inductive ReadsNumber (token : Literal) : Json → Prop
  | int {n : Int} (h : (n : ℚ) = token.toRat) : ReadsNumber token (.int n)
  | float {x : Binary64} (hx : x = .ofLiteral token) (hfinite : x.isFinite)
      (h : x.display.toRat = token.toRat) : ReadsNumber token (.float x.bits)

theorem toRat_eq_of_sameDecimal (h : sameDecimal l.text l'.text) : l.toRat = l'.toRat := by
  unfold sameDecimal at h
  split at h
  · next hb ha => exact (decimal_eq_iff hb ha).1 (of_decide_eq_true h)
  · cases h

theorem number_ok {token : Literal} {path : String} {json : Json}
    (h : number token path = .ok json) : ReadsNumber token json := by
  obtain ⟨_, hf, h⟩ := bind_eq_ok.1 h
  obtain ⟨_, hs, h⟩ := bind_eq_ok.1 h
  have hf := require_eq_ok.1 hf
  have hd := (toRat_eq_of_sameDecimal (require_eq_ok.1 hs)).symm
  split at h
  · next hi =>
    obtain ⟨_, hsf, h⟩ := bind_eq_ok.1 h
    cases h
    generalize Binary64.ofLiteral token = x at *
    have hn : x.toRat = x.toRat.num := Rat.eq_num_of_isInt hi
    have ha : |x.toRat| = (x.toRat.num.natAbs : ℚ) := by
      rw [Nat.cast_natAbs, Int.cast_abs, ← hn]
    have hlt : x.toRat.num.natAbs < 2 ^ 53 := by
      have hl := require_eq_ok.1 hsf
      rw [ha, Nat.cast_le] at hl
      exact Nat.lt_of_le_of_lt hl (by decide)
    refine .int ?_
    rw [← hn, ← hd, Binary64.display_toRat hf hlt ha]
  · cases h
    exact .float rfl hf hd

/-! ## Accepted texts -/

namespace RawJson

mutual

/-- How many containers enclose one another. -/
def depth : RawJson → Nat
  | .array items => depthItems items + 1
  | .object members => depthMembers members + 1
  | _ => 0

def depthItems : List RawJson → Nat
  | [] => 0
  | item :: rest => max item.depth (depthItems rest)

def depthMembers : List (String × RawJson) → Nat
  | [] => 0
  | (_, raw) :: rest => max raw.depth (depthMembers rest)

end

/-- A part of a text, at any depth. -/
inductive Contains : RawJson → RawJson → Prop
  | refl {raw} : Contains raw raw
  | item {items item raw} (hitem : item ∈ items) (h : Contains item raw) :
      Contains (.array items) raw
  | member {members member raw} (hmember : member ∈ members) (h : Contains member.2 raw) :
      Contains (.object members) raw

end RawJson

section Accepted

variable (serde : SerdeJson)

def Names (members : List (String × RawJson)) (names : List String) : Prop :=
  List.Forall₂ (fun member name => serde.decode member.1 = .ok name) members names

/-- No object at any depth has two members with the same decoded name. -/
def UniqueNames (raw : RawJson) : Prop :=
  ∀ members, raw.Contains (.object members) → ∃ names, Names serde members names ∧ names.Nodup

/-- The result of reading a text, part by part. -/
inductive Reads : RawJson → Json → Prop
  | null : Reads .null .null
  | bool {b} : Reads (.bool b) (.bool b)
  | number {token json} (h : ReadsNumber token json) : Reads (.number token) json
  | string {token s} (h : serde.decode token = .ok s) : Reads (.string token) (.str s)
  | array {items values} (h : List.Forall₂ Reads items values) : Reads (.array items) (.arr values)
  | object {members names values fields} (hnames : Names serde members names)
      (h : List.Forall₂ Reads (members.map Prod.snd) values)
      (hfields : ∀ key value, fields.lookup key = some value ↔ (key, value) ∈ names.zip values) :
      Reads (.object members) (.obj fields)

/-- What is known of a part that was read below `depth` containers. -/
structure Sound (depth : Nat) (raw : RawJson) (json : Json) : Prop where
  depth_le : depth + raw.depth ≤ maxDepth
  unique : UniqueNames serde raw
  reads : Reads serde raw json

variable {serde} {path : String} {depth : Nat}

variable {ns : List String} {its : List RawJson} {values : List Json}

theorem objectMembers_ok {ms : List (String × StrictJson.RawJson)}
    (h : objectMembers serde ms path = .ok ns) :
    Names serde ms ns ∧ ns.Nodup := by
  obtain ⟨d, hd, h⟩ := bind_eq_ok.1 h
  obtain ⟨rfl, hn⟩ := (insertAll_eq_ok nodup_nil).1 h
  exact ⟨(mapM_eq_ok.1 hd).imp fun _ _ => mapError_eq_ok.1, hn⟩

theorem depthMembers_eq (ms : List (String × RawJson)) :
    RawJson.depthMembers ms = RawJson.depthItems (ms.map Prod.snd) := by
  induction ms with
  | nil => rfl
  | cons m r ih => rw [RawJson.depthMembers, ih, map_cons, RawJson.depthItems]

theorem depthItems_le (hd : depth < maxDepth)
    (h : List.Forall₂ (Sound serde (depth + 1)) its values) :
    depth + (RawJson.depthItems its + 1) ≤ maxDepth := by
  induction h with
  | nil =>
    rw [RawJson.depthItems]
    omega
  | cons hi _ ih =>
    have hl := hi.depth_le
    rw [RawJson.depthItems]
    omega

theorem uniqueNames_items (h : List.Forall₂ (Sound serde depth) its values) : ∀ item ∈ its,
    UniqueNames serde item :=
  ((forall₂_and_left ..).1 (h.imp fun _ _ hi => ⟨hi.unique, hi⟩)).1

namespace Sound

theorem array (hd : depth < maxDepth) (h : List.Forall₂ (Sound serde (depth + 1)) its values) :
    Sound serde depth (.array its) (.arr values) where
  depth_le := depthItems_le hd h
  unique members hmembers := by
    cases hmembers with
    | item hi hc => exact uniqueNames_items h _ hi members hc
  reads := .array (h.imp fun _ _ => Sound.reads)

theorem object {members : List (String × StrictJson.RawJson)} {fs : List (String × Json)}
    (hd : depth < maxDepth) (hn : Names serde members ns)
    (hno : ns.Nodup) (h : List.Forall₂ (Sound serde (depth + 1)) (members.map Prod.snd) values)
    (hf : ∀ key value, fs.lookup key = some value ↔ (key, value) ∈ ns.zip values) :
    Sound serde depth (.object members) (.obj fs) where
  depth_le := by
    rw [RawJson.depth, depthMembers_eq]
    exact depthItems_le hd h
  unique members' hmembers := by
    cases hmembers with
    | refl => exact ⟨ns, hn, hno⟩
    | member hm hc =>
      exact uniqueNames_items h _ (List.mem_map_of_mem hm) members' hc
  reads := .object hn (h.imp fun _ _ => Sound.reads) hf

end Sound

theorem lookup_insertMember {n : String} {child : Json}
    {object fs : List (String × Json)} (hn : n ∉ ns)
    (h : ∀ key value, fs.lookup key = some value ↔ (key, value) ∈ ns.zip values ∨
      key ∉ ns ∧ (Json.insertField n child object).lookup key = some value)
    (key : String) (value : Json) :
    fs.lookup key = some value ↔ (key, value) ∈ (n :: ns).zip (child :: values) ∨
      key ∉ n :: ns ∧ object.lookup key = some value := by
  rw [h, Json.lookup_insertField, zip_cons_cons, mem_cons, mem_cons]
  by_cases hk : key = n
  · subst hk
    have hz : (key, value) ∉ ns.zip values := fun hm => hn (of_mem_zip hm).1
    simp [hn, hz, eq_comm]
  · simp [hk]

mutual

theorem value_sound : ∀ {raw : RawJson} {path : String} {depth : Nat} {j : Json},
    depth ≤ maxDepth → value serde raw path depth = .ok j → Sound serde depth raw j
  | .null, _, _, _, hd, h => by
    cases h
    exact ⟨hd, fun _ hm => (nomatch hm), .null⟩
  | .bool b, _, _, _, hd, h => by
    cases h
    exact ⟨hd, fun _ hm => (nomatch hm), .bool⟩
  | .number t, _, _, _, hd, h =>
    ⟨hd, fun _ hm => (nomatch hm), .number (number_ok h)⟩
  | .string t, path, _, _, hd, h => by
    cases hs : string serde t path with
    | error error =>
      rw [value, hs] at h
      cases h
    | ok s =>
      rw [value, hs] at h
      cases h
      exact ⟨hd, fun _ hm => (nomatch hm), .string (mapError_eq_ok.1 hs)⟩
  | .array its, _, _, _, _, h => by
    obtain ⟨_, hd, h⟩ := bind_eq_ok.1 h
    obtain ⟨values, hv, h⟩ := bind_eq_ok.1 h
    cases h
    have hd := require_eq_ok.1 hd
    exact .array hd (itemValues_sound hd hv)
  | .object ms, _, _, _, _, h => by
    obtain ⟨_, hd, h⟩ := bind_eq_ok.1 h
    obtain ⟨ns, hn, h⟩ := bind_eq_ok.1 h
    obtain ⟨fs, hf, h⟩ := bind_eq_ok.1 h
    cases h
    have hd := require_eq_ok.1 hd
    obtain ⟨hn, hno⟩ := objectMembers_ok hn
    obtain ⟨values, hv, hl⟩ := memberValues_sound hd hno hn.length_eq hf
    exact .object hd hn hno hv (by simpa using hl)

theorem itemValues_sound : ∀ {its : List RawJson} {path : String} {depth index : Nat}
    {values : List Json}, depth < maxDepth → itemValues serde path depth index its = .ok values →
      List.Forall₂ (Sound serde (depth + 1)) its values
  | [], _, _, _, _, _, h => by
    cases h
    exact .nil
  | item :: r, _, _, _, _, hd, h => by
    obtain ⟨child, hc, h⟩ := bind_eq_ok.1 h
    obtain ⟨values, hv, h⟩ := bind_eq_ok.1 h
    cases h
    exact .cons (value_sound hd hc) (itemValues_sound hd hv)

theorem memberValues_sound : ∀ {ms : List (String × RawJson)} {ns : List String}
    {path : String} {depth : Nat} {object fs : List (String × Json)}, depth < maxDepth →
      ns.Nodup → ms.length = ns.length →
      memberValues serde path depth object ms ns = .ok fs →
      ∃ values, List.Forall₂ (Sound serde (depth + 1)) (ms.map Prod.snd) values ∧
        ∀ key value, fs.lookup key = some value ↔ (key, value) ∈ ns.zip values ∨
          key ∉ ns ∧ object.lookup key = some value
  | [], [], _, _, _, _, _, _, _, h => by
    cases h
    exact ⟨[], .nil, by simp⟩
  | (_, raw) :: r, n :: ns, _, _, _, _, hd, hn, hl, h => by
    obtain ⟨child, hc, h⟩ := bind_eq_ok.1 h
    obtain ⟨hnm, hn⟩ := nodup_cons.1 hn
    obtain ⟨values, hv, hlo⟩ := memberValues_sound hd hn (Nat.succ.inj hl) h
    exact ⟨child :: values, .cons (value_sound hd hc) hv, lookup_insertMember hnm hlo⟩

end

end Accepted

/-- An accepted text has unique member names at every depth and bounded nesting, and its
numbers are read exactly; the normal forms of literals are those of their numbers. -/
theorem strict_json_exact (serde : SerdeJson) :
    (∀ input json, parse serde input = .ok json → ∃ raw, serde.scan input = .ok raw ∧
      UniqueNames serde raw ∧ raw.depth ≤ maxDepth ∧ Reads serde raw json) ∧
    ∀ (l l' : Literal) (form form' : Bool × List Char × Int), decimal l.text = some form →
      decimal l'.text = some form' → (form = form' ↔ l.toRat = l'.toRat) := by
  refine ⟨fun input json h => ?_, fun l l' form form' h h' => decimal_eq_iff h h'⟩
  obtain ⟨raw, hr, h⟩ := bind_eq_ok.1 h
  have hs := value_sound (Nat.zero_le _) h
  exact ⟨raw, mapError_eq_ok.1 hr, hs.unique, by simpa using hs.depth_le, hs.reads⟩

/-! ## Samples -/

def plainLiteral (int : List (Fin 10)) (h : int ≠ []) (fraction : List (Fin 10)) : Literal where
  negative := false
  int := int
  int_ne := h
  fraction := if fraction = [] then none else some fraction
  fraction_ne := by split <;> simp_all
  exponent := none

/-- A scanner that knows one text, whose strings have no escapes. -/
def tableSerde (text : String) (raw : RawJson) : SerdeJson where
  scan input := if input = text then .ok raw else .error "expected value"
  decode token :=
    match token.toList with
    | '"' :: rest => if '\\' ∈ rest then .error "escape" else .ok (.ofList rest.dropLast)
    | _ => .error "expected string"

/-- `0.1` -/
def tenth : Literal := plainLiteral [0] (by decide) [1]

/-- `n e-k` -/
def smallLiteral (int : List (Fin 10)) (h : int ≠ []) (k : List (Fin 10)) (hk : k ≠ []) : Literal :=
  { plainLiteral int h [] with exponent := some ⟨false, some true, k, hk⟩ }

def sampleText : String := "\x7b\"a\":[0.1]\x7d"

def sampleSerde : SerdeJson :=
  tableSerde sampleText (.object [("\"a\"", .array [.number tenth])])

theorem strict_json_exact_sample : ∃ json raw,
    parse sampleSerde sampleText = .ok json ∧ Reads sampleSerde raw json ∧
    raw.depth ≤ maxDepth ∧
    decimal tenth.text = some (false, ['1'], -1) ∧
    (plainLiteral [0] (by decide) [1, 0]).toRat = tenth.toRat := by
  have hp : parse sampleSerde sampleText = .ok _ := eq_ok_result _ (by decide +kernel)
  have hd : decimal tenth.text = some (false, ['1'], -1) := by decide +kernel
  have hd' : decimal (plainLiteral [0] (by decide) [1, 0]).text =
      some (false, ['1'], -1) := by
    decide +kernel
  obtain ⟨raw, -, -, hde, hr⟩ := (strict_json_exact _).1 _ _ hp
  exact ⟨_, raw, hp, hr, hde, hd, ((strict_json_exact sampleSerde).2 _ _ _ _ hd' hd).1 rfl⟩

/-- `1e-9223372036854775808` -/
def leastExponent : Literal :=
  smallLiteral [1] (by decide) [9, 2, 2, 3, 3, 7, 2, 0, 3, 6, 8, 5, 4, 7, 7, 5, 8, 0, 8] (by decide)

/-- `10e-9223372036854775809` -/
def belowLeastExponent : Literal :=
  smallLiteral [1, 0] (by decide) [9, 2, 2, 3, 3, 7, 2, 0, 3, 6, 8, 5, 4, 7, 7, 5, 8, 0, 9]
    (by decide)

theorem leastExponent_toRat : leastExponent.toRat = belowLeastExponent.toRat := by
  have hsh : ∀ s : Int, ((1 : Nat) : ℚ) * 10 ^ s = (10 : Nat) * 10 ^ (s - 1) := by
    intro s
    rw [zpow_sub_one₀ (by norm_num)]
    field_simp
    norm_num
  have hs : belowLeastExponent.scale = leastExponent.scale - 1 := by decide +kernel
  have ho : Decimal.value leastExponent.digits = 1 := by decide +kernel
  have ht : Decimal.value belowLeastExponent.digits = 10 := by decide +kernel
  rw [Literal.toRat, Literal.toRat, hs, ho, ht, hsh]
  rfl

/-- `0.1` is accepted as a double that is not one tenth; and a literal at the end of the range
of exponents has a normal form, while an equal one has none. -/
theorem tenth_is_rounded :
    parse (tableSerde "0.1" (.number tenth)) "0.1" = .ok (.float 0x3FB999999999999A) ∧
    (Binary64.mk 0x3FB999999999999A).toRat ≠ tenth.toRat ∧
    decimal leastExponent.text = some (false, ['1'], -9223372036854775808) ∧
    decimal belowLeastExponent.text = none ∧
    leastExponent.toRat = belowLeastExponent.toRat := by
  refine ⟨?_, by decide +kernel, by decide +kernel, by decide +kernel, leastExponent_toRat⟩
  have hx : Binary64.ofLiteral tenth = ⟨0x3FB999999999999A⟩ := by decide +kernel
  have hf : (Binary64.mk 0x3FB999999999999A).isFinite = true := by decide +kernel
  have hi : (Binary64.mk 0x3FB999999999999A).toRat.isInt = false := by decide +kernel
  have hs : sameDecimal tenth.text (Binary64.mk 0x3FB999999999999A).display.text = true := by
    decide +kernel
  change number tenth "$" = _
  simp only [number, hx, hf, hs, hi, require_pos, ok_bind]
  rfl

end StrictJson

end Dambi
