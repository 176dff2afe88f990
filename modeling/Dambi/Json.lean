import Mathlib.Algebra.Group.Int.Defs
import Mathlib.Algebra.Group.Nat.Defs
import Mathlib.Data.String.Basic

/-!
# JSON values

`serde_json::Value` as the crates use it: objects are `BTreeMap`s, so an
object is an association list in key order and `insertField` keeps it so.
Text operations of the standard library that the crates apply to wire strings
are here too, on the list of characters.
-/

namespace Dambi

/-- `serde_json::Value`. An integral number is `int` (`PosInt` and `NegInt`
of `serde_json::Number`); any other number is `float`, by the bits of its `f64`. -/
inductive Json where
  | null
  | bool (b : Bool)
  | int (n : Int)
  | float (bits : UInt64)
  | str (s : String)
  | arr (items : List Json)
  | obj (fields : List (String × Json))
deriving Repr, Inhabited, BEq

namespace Json

def asStr : Json → Option String
  | .str s => some s
  | _ => none

def asBool : Json → Option Bool
  | .bool b => some b
  | _ => none

/-- `Value::as_u64`: a float never converts, even when it is integral. -/
def asU64 : Json → Option Nat
  | .int n => if 0 ≤ n ∧ n < 2 ^ 64 then some n.toNat else none
  | _ => none

def asI64 : Json → Option Int
  | .int n => if -2 ^ 63 ≤ n ∧ n < 2 ^ 63 then some n else none
  | _ => none

def asArray : Json → Option (List Json)
  | .arr items => some items
  | _ => none

def asObject : Json → Option (List (String × Json))
  | .obj fields => some fields
  | _ => none

def isNull : Json → Bool
  | .null => true
  | _ => false

section

variable {value : Json}

theorem asStr_eq_some {text : String} : value.asStr = some text ↔ value = .str text := by
  cases value <;> simp [asStr]

theorem asObject_eq_some {fields : List (String × Json)} :
    value.asObject = some fields ↔ value = .obj fields := by
  cases value <;> simp [asObject]

end

/-- `Value::get` at a string key: only an object has one. -/
def get? (j : Json) (key : String) : Option Json :=
  match j with
  | .obj fields => fields.lookup key
  | _ => none

/-- `value[key]`, which is `Null` where the key is absent. -/
def index (j : Json) (key : String) : Json := (j.get? key).getD .null

/-- Indexing agrees with `get?` for every reader that finds nothing in `Null`. -/
theorem bind_get? {α : Type} {f : Json → Option α} (hf : f .null = none) (j : Json)
    (key : String) : (j.get? key).bind f = f (j.index key) := by
  unfold index
  cases j.get? key with
  | none => exact hf.symm
  | some value => rfl

/-- `Map::insert`. -/
def insertField (key : String) (value : Json) : List (String × Json) → List (String × Json)
  | [] => [(key, value)]
  | (k, v) :: rest =>
    if key < k then (key, value) :: (k, v) :: rest
    else if key = k then (key, value) :: rest
    else (k, v) :: insertField key value rest

theorem lookup_cons_ite (key k : String) (v : Json) (r : List (String × Json)) :
    ((k, v) :: r).lookup key = if key = k then some v else r.lookup key := by
  by_cases h : key = k
  · simp [h]
  · have hb : (key == k) = false := beq_false_of_ne h
    rw [List.lookup_cons, hb, if_neg h]

theorem lookup_insertField (key key' : String) (value : Json) (fs : List (String × Json)) :
    (insertField key value fs).lookup key' =
      if key' = key then some value else fs.lookup key' := by
  induction fs with
  | nil => simp [insertField, lookup_cons_ite]
  | cons entry r ih =>
    obtain ⟨k, v⟩ := entry
    unfold insertField
    split
    · simp [lookup_cons_ite]
    · split
      · next hk =>
        subst hk
        by_cases h : key' = key <;> simp [lookup_cons_ite, h]
      · next hk =>
        simp only [lookup_cons_ite, ih]
        by_cases h : key' = key
        · subst h
          simp [hk]
        · simp [h]

theorem insertField_insertField (key : String) (v v' : Json) (fields : List (String × Json)) :
    insertField key v (insertField key v' fields) = insertField key v fields := by
  induction fields with
  | nil => simp [insertField]
  | cons entry r ih =>
    obtain ⟨k, w⟩ := entry
    by_cases hl : key < k
    · simp [insertField, hl]
    · by_cases heq : key = k
      · simp [insertField, heq]
      · simp [insertField, hl, heq, ih]

/-! ## Nesting -/

mutual

/-- How deeply a value nests: a scalar has depth zero. -/
def depth : Json → Nat
  | .arr items => depthItems items + 1
  | .obj fields => depthFields fields + 1
  | _ => 0

def depthItems : List Json → Nat
  | [] => 0
  | item :: rest => max item.depth (depthItems rest)

def depthFields : List (String × Json) → Nat
  | [] => 0
  | (_, value) :: rest => max value.depth (depthFields rest)

end

private theorem depth_le_depthFields {fields : List (String × Json)} {key : String} {value : Json}
    (h : fields.lookup key = some value) :
    value.depth ≤ depthFields fields := by
  induction fields with
  | nil => cases h
  | cons entry r ih =>
    obtain ⟨k, v⟩ := entry
    rw [lookup_cons_ite] at h
    rw [depthFields]
    split at h
    · cases h
      exact Nat.le_max_left _ _
    · exact Nat.le_trans (ih h) (Nat.le_max_right _ _)

theorem depth_lt_of_get? {key : String} {j value : Json} (h : j.get? key = some value) :
    value.depth < j.depth := by
  cases j with
  | obj fs =>
    rw [depth]
    exact Nat.lt_succ_of_le (depth_le_depthFields h)
  | null | bool _ | int _ | float _ | str _ | arr _ => cases h

theorem depth_index_le (j : Json) (key : String) : (j.index key).depth ≤ j.depth := by
  unfold index
  cases h : j.get? key with
  | none => simp [depth]
  | some value => exact Nat.le_of_lt (depth_lt_of_get? h)

/-- A value occurs in another one, at any depth. -/
inductive Contains : Json → Json → Prop
  | refl {j} : Contains j j
  | item {items item j} (hitem : item ∈ items) (h : Contains item j) : Contains (.arr items) j
  | field {fields key value j} (hfield : (key, value) ∈ fields) (h : Contains value j) :
      Contains (.obj fields) j

end Json

/-! ## Text -/

namespace Text

def startsWith (s pre : String) : Bool := pre.toList.isPrefixOf s.toList

/-- `str::strip_prefix`. -/
def stripStart (s pre : String) : Option String :=
  if startsWith s pre then some (String.ofList (s.toList.drop pre.length)) else none

/-- `str::contains` of a text. -/
def contains (s part : String) : Bool := s.toList.tails.any (part.toList.isPrefixOf ·)

variable (s : String)

/-- `str::split` at a character. -/
def split (sep : Char) : List String :=
  (s.toList.splitOn sep).map String.ofList

def toAsciiLowercase : String :=
  String.ofList (s.toList.map fun c => if 'A' ≤ c ∧ c ≤ 'Z' then Char.ofNat (c.toNat + 32) else c)

/-- The `White_Space` characters of Unicode. -/
def isWhiteSpace (c : Char) : Bool :=
  let n := c.toNat
  (9 ≤ n && n ≤ 13) || n == 32 || n == 0x85 || n == 0xA0 || n == 0x1680 ||
    (0x2000 ≤ n && n ≤ 0x200A) || n == 0x2028 || n == 0x2029 || n == 0x202F || n == 0x205F ||
    n == 0x3000

/-- `str::trim` leaves nothing. -/
def isBlank : Bool := s.toList.all isWhiteSpace

/-- A JSON pointer segment: `~` is escaped before `/`. -/
def escapePointer : String :=
  String.ofList (s.toList.flatMap fun c =>
    if c = '~' then ['~', '0'] else if c = '/' then ['~', '1'] else [c])

end Text

end Dambi
