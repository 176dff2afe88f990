import Dambi.Decode.TypedData
import Dambi.Lib.DepthFirst

/-!
# The type graph of typed data

`type_graph` of `typed_data_validation.rs` walks the struct types that a primary type reaches
through the types of its members, with a stack of its own. It is the search of
`Lib.DepthFirst` over the declarations of a `types` object.
-/

namespace Dambi.Decode

open Fallible DepthFirst

/-! ## Declarations -/

def invalid (path message : String) : TypedDataError := ⟨"invalid_typed_data", message, some path⟩

def requiredField (fields : List (String × Json)) (key path : String) :
    Except TypedDataError Json :=
  (fields.lookup key).elim (.error (invalid path "required field is missing")) .ok

def isAsciiDigit (c : Char) : Bool := '0' ≤ c && c ≤ '9'

def validRouteName (raw : List Char) : Bool :=
  raw ≠ [] && raw.length ≤ 128 && raw.all fun c =>
    isAsciiDigit c || ('a' ≤ c && c ≤ 'z') || ('A' ≤ c && c ≤ 'Z') || c = '_' || c = ':'

def checkArrays (path : String) : List Char → Except TypedDataError Unit
  | [] => .ok ()
  | '[' :: rest =>
    let size := rest.takeWhile (· ≠ ']')
    match _h : rest.dropWhile (· ≠ ']') with
    | [] => .error (invalid path "malformed array type")
    | _ :: suffix =>
      if size ≠ [] ∧ (¬ size.all isAsciiDigit ∨ size.head? = some '0' ∨ parseU64 size = none) then
        .error (invalid path "array length must be a positive integer")
      else checkArrays path suffix
  | _ => .error (invalid path "malformed array type")
termination_by suffix => suffix.length
decreasing_by
  have := (List.dropWhile_sublist (l := rest) (· ≠ ']')).length_le
  rw [_h, List.length_cons] at this
  exact Nat.lt_succ_of_lt this

/-- Whether a base that begins with the name of a sized type has a valid width. -/
def widthOf (base : List Char) (scalar : String × Nat × Nat) : Option Bool :=
  (base.dropPrefix? scalar.1.toList).bind fun width =>
    if width.all isAsciiDigit then
      some ((StrictJson.parseDigits width).any (fun n =>
        n < 65536 && 0 < n && n ≤ scalar.2.1 && n % scalar.2.2 = 0) && width.head? ≠ some '0')
    else none

def scalarWidth (base : List Char) : Option Bool :=
  [("uint", 256, 8), ("int", 256, 8), ("bytes", 32, 1)].findSome? (widthOf base)

def typeReference (raw path : String) : Except TypedDataError (Option String) := do
  let base := raw.toList.takeWhile (· ≠ '[')
  checkArrays path (raw.toList.dropWhile (· ≠ '['))
  if String.ofList base ∈ ["address", "bool", "string", "bytes"] then .ok none
  else match scalarWidth base with
    | some true => .ok none
    | some false => .error (invalid path "invalid EIP-712 scalar width")
    | none =>
      if validRouteName base then .ok (some (.ofList base))
      else .error (invalid path "invalid scalar or struct type")

structure TypeField where
  name : String
  fieldType : String
  reference : Option String

/-- One definition of a struct declaration, after those before it. -/
def typeField (path : String) (done : List TypeField) (definition : Json × Nat) :
    Except TypedDataError (List TypeField) := do
  let path := s!"{path}.{definition.2}"
  let string (key : String) (fields : List (String × Json)) : Except TypedDataError String := do
    let value ← requiredField fields key s!"{path}.{key}"
    value.asStr.elim (.error (invalid s!"{path}.{key}" "must be a string")) .ok
  let fields ← definition.1.asObject.elim (.error (invalid path "must be an object")) .ok
  let name ← string "name" fields
  if !validRouteName name.toList || done.any (·.name = name) then
    .error (invalid s!"{path}.name" "invalid or duplicate struct field name")
  else do
    let fieldType ← string "type" fields
    let reference ← typeReference fieldType s!"{path}.type"
    .ok (done ++ [⟨name, fieldType, reference⟩])

def typeFields (value : Json) (path : String) : Except TypedDataError (List TypeField) :=
  match value.asArray with
  | none => .error (invalid path "struct declaration must be an array")
  | some definitions => definitions.zipIdx.foldlM (typeField path) []

/-! ## What a declaration says

The grammar of EIP-712, stated without the functions above. -/

open Decimal (digitChar value)

/-- A positive number in decimal digits, without zeros in front. -/
def Numeral (text : List Char) (n : Nat) : Prop :=
  ∃ d ds, d ≠ 0 ∧ text = (d :: ds).map digitChar ∧ value (d :: ds) = n

def RouteName (text : List Char) : Prop :=
  text ≠ [] ∧ text.length ≤ 128 ∧ ∀ c ∈ text, c.isAlphanum = true ∨ c = '_' ∨ c = ':'

def plainTypes : List String := ["address", "bool", "string", "bytes"]

/-- The sized types by the largest size and the unit of sizes. -/
def sizedTypes : List (String × Nat × Nat) := [("uint", 256, 8), ("int", 256, 8), ("bytes", 32, 1)]

inductive Elementary : List Char → Prop
  | plain {name : String} (h : name ∈ plainTypes) : Elementary name.toList
  | sized {kind : String} {most unit n : Nat} {size : List Char}
      (h : (kind, most, unit) ∈ sizedTypes) (hn : Numeral size n) (hm : n ≤ most) (hu : unit ∣ n) :
      Elementary (kind.toList ++ size)

/-- A name that is no elementary type, nor one with a wrong size or without one. -/
structure StructName (text : List Char) : Prop where
  routeName : RouteName text
  not_plain : ∀ name ∈ plainTypes, text ≠ name.toList
  not_sized : ∀ sized ∈ sizedTypes, ∀ size, text = sized.1.toList ++ size →
    ∃ c ∈ size, c.isDigit = false

/-- The length of an array type, if it is fixed. -/
def ArraySize (size : List Char) : Prop := size = [] ∨ ∃ n < 2 ^ 64, Numeral size n

/-- The brackets of arrays of arrays. -/
inductive Arrays : List Char → Prop
  | nil : Arrays []
  | cons {size rest : List Char} (hs : ArraySize size) (h : Arrays rest) :
      Arrays ('[' :: (size ++ ']' :: rest))

/-- The text of a member type, and the struct that it is made of. -/
inductive MemberType : List Char → Option String → Prop
  | elementary {base arrays : List Char} (hb : Elementary base) (ha : Arrays arrays) :
      MemberType (base ++ arrays) none
  | struct {base arrays : List Char} (hb : StructName base) (ha : Arrays arrays) :
      MemberType (base ++ arrays) (some (.ofList base))

def IsMember (definition : Json) (field : TypeField) : Prop :=
  ∃ members, definition = .obj members ∧
    members.lookup "name" = some (.str field.name) ∧ RouteName field.name.toList ∧
    members.lookup "type" = some (.str field.fieldType) ∧
    MemberType field.fieldType.toList field.reference

/-- A struct declaration is an array of members with different names. -/
def IsDeclaration (declaration : Json) (fields : List TypeField) : Prop :=
  ∃ definitions, declaration = .arr definitions ∧ List.Forall₂ IsMember definitions fields ∧
    (fields.map (·.name)).Nodup

/-! ## Reading a declaration -/

theorem isDigit_eq (c : Char) : c.isDigit = isAsciiDigit c := by
  simp [Char.isDigit, isAsciiDigit, Char.le_def]

theorem isAsciiDigit_iff (c : Char) : isAsciiDigit c = true ↔ ∃ d, c = digitChar d := by
  constructor
  · intro h
    have hr : 48 ≤ c.toNat ∧ c.toNat ≤ 57 := Char.isDigit_iff_toNat.1 (isDigit_eq c ▸ h)
    refine ⟨.ofNat 10 (c.toNat - 48), ?_⟩
    have hv : 48 + (c.toNat - 48) % 10 = c.toNat := by omega
    simp [digitChar, hv]
  · rintro ⟨d, rfl⟩
    revert d
    decide

theorem all_isAsciiDigit (text : List Char) :
    text.all isAsciiDigit = true ↔ ∃ ds : List (Fin 10), text = ds.map digitChar := by
  induction text with
  | nil => exact ⟨fun _ => ⟨[], rfl⟩, fun _ => rfl⟩
  | cons c text ih =>
    rw [List.all_cons, Bool.and_eq_true, isAsciiDigit_iff, ih]
    constructor
    · rintro ⟨⟨d, rfl⟩, ds, rfl⟩
      exact ⟨d :: ds, rfl⟩
    · rintro ⟨_ | ⟨d, ds⟩, h⟩
      · cases h
      · cases h
        exact ⟨⟨d, rfl⟩, ds, rfl⟩

theorem validRouteName_iff (text : List Char) : validRouteName text = true ↔ RouteName text := by
  have hc : ∀ c : Char, (isAsciiDigit c || ('a' ≤ c && c ≤ 'z') || ('A' ≤ c && c ≤ 'Z')) =
      c.isAlphanum := by
    intro c
    delta Char.isAlphanum Char.isAlpha Char.isUpper Char.isLower
    simp [isDigit_eq, Char.le_def]
    grind
  simp [validRouteName, RouteName, hc, and_assoc, or_assoc]

theorem numeral_iff {text : List Char} {n : Nat} : Numeral text n ↔
    text.all isAsciiDigit = true ∧ text.head? ≠ some '0' ∧
      StrictJson.parseDigits text = some n := by
  rw [all_isAsciiDigit]
  constructor
  · rintro ⟨d, ds, hd, rfl, rfl⟩
    refine ⟨⟨_, rfl⟩, ?_, StrictJson.parseDigits_map (List.cons_ne_nil _ _)⟩
    simpa [StrictJson.digitChar_eq_zero] using hd
  · rintro ⟨⟨_ | ⟨d, ds⟩, rfl⟩, hh, hp⟩
    · cases hp
    · rw [StrictJson.parseDigits_map (List.cons_ne_nil _ _)] at hp
      exact ⟨d, ds, by simpa [StrictJson.digitChar_eq_zero] using hh, rfl, Option.some.inj hp⟩

theorem Numeral.pos {text : List Char} {n : Nat} (h : Numeral text n) : 0 < n := by
  obtain ⟨d, ds, hd, -, rfl⟩ := h
  have hv : 0 < value [d] := by simpa [value, Fin.pos_iff_ne_zero] using hd
  rw [← List.singleton_append, Decimal.value_append]
  have := Nat.mul_pos hv (Nat.pow_pos (n := ds.length) (by decide : 0 < 10))
  omega

theorem sizedTypes_le : ∀ scalar ∈ sizedTypes, scalar.2.1 < 65536 := by decide

theorem widthOf_eq_some {base : List Char} {scalar : String × Nat × Nat} {b : Bool}
    (hs : scalar ∈ sizedTypes) : widthOf base scalar = some b ↔
      ∃ size, base = scalar.1.toList ++ size ∧ size.all isAsciiDigit = true ∧
        (b = true ↔ ∃ n, Numeral size n ∧ n ≤ scalar.2.1 ∧ scalar.2.2 ∣ n) := by
  have hl := sizedTypes_le scalar hs
  simp only [widthOf, Option.bind_eq_some_iff, List.dropPrefix?_eq_some_iff, beq_iff_eq,
    Option.ite_none_right_eq_some, Option.some_inj]
  refine exists_congr fun size => and_congr (by simp) (and_congr_right fun ha => ?_)
  refine Bool.eq_iff_iff.trans (iff_comm.trans (iff_congr .rfl ?_))
  simp only [Bool.and_eq_true, Option.any_eq_true, decide_eq_true_eq]
  constructor
  · rintro ⟨⟨n, hp, ⟨-, hm⟩, hu⟩, hh⟩
    exact ⟨n, numeral_iff.2 ⟨ha, hh, hp⟩, hm, Nat.dvd_of_mod_eq_zero hu⟩
  · rintro ⟨n, hn, hm, hu⟩
    obtain ⟨-, hh, hp⟩ := numeral_iff.1 hn
    exact ⟨⟨n, hp, ⟨⟨by omega, hn.pos⟩, hm⟩, Nat.mod_eq_zero_of_dvd hu⟩, hh⟩

theorem eq_of_kind_append : ∀ a ∈ sizedTypes, ∀ b ∈ sizedTypes, ∀ s t : List Char,
    a.1.toList ++ s = b.1.toList ++ t → a = b := by
  simp [sizedTypes]

theorem scalarWidth_eq_some {base : List Char} {b : Bool} :
    scalarWidth base = some b ↔ ∃ scalar ∈ sizedTypes, widthOf base scalar = some b := by
  have hsome : ∀ {b}, scalarWidth base = some b → ∃ scalar ∈ sizedTypes,
      widthOf base scalar = some b := fun h => List.exists_of_findSome?_eq_some h
  refine ⟨hsome, fun ⟨a, ha, hw⟩ => ?_⟩
  cases hr : scalarWidth base with
  | none => cases hw.symm.trans (List.findSome?_eq_none_iff.1 hr a ha)
  | some b' =>
    -- no base begins with two of the names
    obtain ⟨a', ha', hw'⟩ := hsome hr
    obtain ⟨s, hs, -⟩ := (widthOf_eq_some ha).1 hw
    obtain ⟨t, ht, -⟩ := (widthOf_eq_some ha').1 hw'
    cases eq_of_kind_append a ha a' ha' s t (hs.symm.trans ht)
    exact hw'.symm.trans hw

theorem elementary_iff (base : List Char) :
    Elementary base ↔ String.ofList base ∈ plainTypes ∨ scalarWidth base = some true := by
  constructor
  · rintro (h | ⟨h, hn, hm, hu⟩)
    · exact .inl (by rwa [String.ofList_toList])
    · exact .inr (scalarWidth_eq_some.2 ⟨_, h, (widthOf_eq_some h).2
        ⟨_, rfl, (numeral_iff.1 hn).1, by simpa using ⟨_, hn, hm, hu⟩⟩⟩)
  · rintro (h | h)
    · simpa using Elementary.plain h
    · obtain ⟨_, ha, hw⟩ := scalarWidth_eq_some.1 h
      obtain ⟨size, rfl, -, hb⟩ := (widthOf_eq_some ha).1 hw
      obtain ⟨n, hn, hm, hu⟩ := hb.1 rfl
      exact .sized ha hn hm hu

theorem scalarWidth_eq_none {base : List Char} : scalarWidth base = none ↔
    ∀ scalar ∈ sizedTypes, ∀ size, base = scalar.1.toList ++ size →
      ∃ c ∈ size, c.isDigit = false := by
  refine List.findSome?_eq_none_iff.trans (forall₂_congr fun scalar hs => ?_)
  rw [Option.eq_none_iff_forall_ne_some]
  constructor
  · intro h size hb
    by_contra hc
    have ha : size.all isAsciiDigit = true := by simpa [isDigit_eq] using hc
    classical
    exact h _ ((widthOf_eq_some hs).2 ⟨size, hb, ha, decide_eq_true_iff⟩)
  · intro h b hw
    obtain ⟨size, hb, ha, -⟩ := (widthOf_eq_some hs).1 hw
    obtain ⟨c, hc, hd⟩ := h size hb
    rw [isDigit_eq, List.all_eq_true.1 ha c hc] at hd
    cases hd

theorem structName_iff (base : List Char) :
    StructName base ↔ String.ofList base ∉ plainTypes ∧ scalarWidth base = none ∧
      validRouteName base = true := by
  rw [validRouteName_iff, scalarWidth_eq_none]
  constructor
  · rintro ⟨hr, hp, hs⟩
    exact ⟨fun h => hp _ h (by simp), hs, hr⟩
  · rintro ⟨hp, hs, hr⟩
    exact ⟨hr, fun name hn h => hp (by simpa [h] using hn), hs⟩

theorem Numeral.mem {text : List Char} {n : Nat} {c : Char} (h : Numeral text n) (hc : c ∈ text) :
    ∃ d, c = digitChar d := by
  obtain ⟨d, ds, -, rfl, -⟩ := h
  obtain ⟨d, -, rfl⟩ := List.mem_map.1 hc
  exact ⟨d, rfl⟩

/-- What stands in front of the first character that is found. -/
theorem span_append {c : Char} {before after : List Char} (hb : c ∉ before)
    (ha : after = [] ∨ after.head? = some c) :
    (before ++ after).takeWhile (· ≠ c) = before ∧ (before ++ after).dropWhile (· ≠ c) = after := by
  have hn : ∀ x ∈ before, decide (x ≠ c) = true := fun x hx => by
    simpa using fun h : x = c => hb (h ▸ hx)
  rw [List.takeWhile_append_of_pos hn, List.dropWhile_append_of_pos hn]
  rcases ha with rfl | ha
  · simp
  · obtain ⟨rest, rfl⟩ := List.head?_eq_some_iff.1 ha
    simp

theorem arraySize_iff (size : List Char) : ArraySize size ↔ ¬ (size ≠ [] ∧
    (¬ size.all isAsciiDigit ∨ size.head? = some '0' ∨ parseU64 size = none)) := by
  by_cases hn : size = []
  · simp [ArraySize, hn]
  by_cases ha : size.all isAsciiDigit = true
  · have hp : size.head? ≠ some '+' := by
      obtain ⟨ds, rfl⟩ := (all_isAsciiDigit size).1 ha
      exact StrictJson.head?_map_ne ds fun d => (StrictJson.digitChar_ne d).2.1
    cases h : StrictJson.parseDigits size with
    | none => simp [ArraySize, hn, ha, parseU64, hp, numeral_iff, h]
    | some n => simp [ArraySize, hn, ha, parseU64, hp, numeral_iff, h, Option.filter, and_comm]
  · simp [ArraySize, hn, ha, numeral_iff]

theorem arrays_bracket {rest : List Char} : Arrays ('[' :: rest) ↔
    ∃ c suffix, rest.dropWhile (· ≠ ']') = c :: suffix ∧
      ArraySize (rest.takeWhile (· ≠ ']')) ∧ Arrays suffix := by
  constructor
  · intro h
    cases h with
    | @cons size suffix hs h =>
      have hb : ']' ∉ size := by
        intro hm
        obtain rfl | ⟨n, -, hn⟩ := hs
        · cases hm
        · obtain ⟨d, hd⟩ := hn.mem hm
          revert d
          decide
      obtain ⟨ht, hd⟩ := span_append hb (.inr (rfl : (']' :: suffix).head? = _))
      exact ⟨']', suffix, hd, ht.symm ▸ hs, h⟩
  · rintro ⟨c, suffix, hd, hs, h⟩
    have hc := List.head?_dropWhile_not (· ≠ ']') rest
    rw [hd] at hc
    obtain rfl : c = ']' := by simpa using hc
    rw [← List.takeWhile_append_dropWhile (p := (· ≠ ']')) (l := rest), hd]
    exact .cons hs h

theorem checkArrays_eq_ok (path : String) (text : List Char) :
    checkArrays path text = .ok () ↔ Arrays text := by
  fun_induction checkArrays path text with
  | case1 => exact ⟨fun _ => .nil, fun _ => rfl⟩
  | case2 rest hd =>
    simp only [arrays_bracket, hd]
    exact ⟨nofun, nofun⟩
  | case3 rest size c suffix hd hs =>
    simp only [arrays_bracket, hd]
    refine ⟨nofun, ?_⟩
    rintro ⟨_, _, -, h, -⟩
    exact absurd hs ((arraySize_iff size).1 h)
  | case4 rest size c suffix hd hs ih =>
    simp only [arrays_bracket, hd, ih]
    have hsize := (arraySize_iff size).2 hs
    constructor
    · intro h
      exact ⟨c, suffix, rfl, hsize, h⟩
    · rintro ⟨_, _, heq, -, h⟩
      cases heq
      exact h
  | case5 text hn hb =>
    refine ⟨nofun, fun h => ?_⟩
    cases h with
    | nil => exact absurd rfl hn
    | cons hs h => exact absurd rfl (hb _)

variable {base arrays : List Char}

theorem Elementary.bracket_notMem (h : Elementary base) : '[' ∉ base := by
  have hk : ∀ scalar ∈ sizedTypes, '[' ∉ scalar.1.toList := by decide
  have hp : ∀ name ∈ plainTypes, '[' ∉ name.toList := by decide
  cases h with
  | plain h => exact hp _ h
  | sized h hn hm hu =>
    rw [List.mem_append, not_or]
    refine ⟨hk _ h, fun hm => ?_⟩
    obtain ⟨d, hd⟩ := hn.mem hm
    revert d
    decide

theorem StructName.bracket_notMem (h : StructName base) : '[' ∉ base := by
  intro hm
  have hc := h.routeName.2.2 _ hm
  revert hc
  decide

theorem Arrays.head (h : Arrays arrays) : arrays = [] ∨ arrays.head? = some '[' := by
  cases h with
  | nil => exact .inl rfl
  | cons hs h => exact .inr rfl

/-- The base and the brackets are found again in the text of a member type. -/
theorem memberType_iff {text : List Char} {r : Option String} : MemberType text r ↔
    Arrays (text.dropWhile (· ≠ '[')) ∧
      (r = none ∧ Elementary (text.takeWhile (· ≠ '[')) ∨
        r = some (.ofList (text.takeWhile (· ≠ '['))) ∧ StructName (text.takeWhile (· ≠ '['))) := by
  constructor
  · rintro (⟨hb, ha⟩ | ⟨hb, ha⟩)
    · obtain ⟨ht, hd⟩ := span_append hb.bracket_notMem ha.head
      rw [ht, hd]
      exact ⟨ha, .inl ⟨rfl, hb⟩⟩
    · obtain ⟨ht, hd⟩ := span_append hb.bracket_notMem ha.head
      rw [ht, hd]
      exact ⟨ha, .inr ⟨rfl, hb⟩⟩
  · intro h
    rw [← List.takeWhile_append_dropWhile (p := (· ≠ '[')) (l := text)]
    obtain ⟨ha, ⟨rfl, hb⟩ | ⟨rfl, hb⟩⟩ := h
    · exact .elementary hb ha
    · exact .struct hb ha

theorem typeReference_eq_ok {raw path : String} {r : Option String} :
    typeReference raw path = .ok r ↔ MemberType raw.toList r := by
  rw [memberType_iff, elementary_iff, structName_iff, typeReference, bind_eq_ok]
  refine (Iff.intro (fun ⟨_, h⟩ => h) fun h => ⟨(), h⟩).trans
    (and_congr (checkArrays_eq_ok _ _) ?_)
  generalize raw.toList.takeWhile (· ≠ '[') = base
  change (if _ ∈ plainTypes then _ else _) = _ ↔ _
  by_cases hp : String.ofList base ∈ plainTypes
  · rw [if_pos hp]
    cases r <;> simp [hp]
  · rw [if_neg hp]
    match scalarWidth base with
    | some true => cases r <;> simp [hp]
    | some false => simp [hp]
    | none => cases r <;> by_cases hv : validRouteName base = true <;> simp [hp, hv, eq_comm]

theorem requiredField_eq_ok {fields : List (String × Json)} {key path : String} {value : Json} :
    requiredField fields key path = .ok value ↔ fields.lookup key = some value :=
  elim_error_eq_ok

variable {path : String} {done fields : List TypeField}

theorem typeField_eq_ok {definition : Json × Nat} :
    typeField path done definition = .ok fields ↔
      ∃ field, fields = done ++ [field] ∧ IsMember definition.1 field ∧
        field.name ∉ done.map (·.name) := by
  simp only [typeField, bind_eq_ok, requiredField_eq_ok, elim_error_eq_ok, Json.asStr_eq_some]
  constructor
  · rintro ⟨members, hm, name, ⟨_, hn, rfl⟩, h⟩
    by_cases hv : (!validRouteName name.toList || done.any (·.name = name)) = true
    · rw [if_pos hv] at h
      cases h
    · rw [if_neg hv] at h
      simp only [bind_eq_ok, requiredField_eq_ok, elim_error_eq_ok, Json.asStr_eq_some,
        typeReference_eq_ok] at h
      obtain ⟨fieldType, ⟨_, ht, rfl⟩, r, hr, h⟩ := h
      simp [validRouteName_iff] at hv
      refine ⟨⟨name, fieldType, r⟩, (Except.ok.inj h).symm,
        ⟨members, Json.asObject_eq_some.1 hm, hn, hv.1, ht, hr⟩, by simpa using hv.2⟩
  · rintro ⟨field, rfl, ⟨members, hm, hn, hr, ht, hty⟩, hf⟩
    refine ⟨members, Json.asObject_eq_some.2 hm, field.name, ⟨_, hn, rfl⟩, ?_⟩
    rw [if_neg]
    · simp only [bind_eq_ok, requiredField_eq_ok, elim_error_eq_ok, Json.asStr_eq_some,
        typeReference_eq_ok]
      exact ⟨field.fieldType, ⟨_, ht, rfl⟩, field.reference, hty, rfl⟩
    · simpa [(validRouteName_iff _).2 hr] using hf

theorem foldlM_typeField {definitions : List (Json × Nat)} (hd : (done.map (·.name)).Nodup) :
    definitions.foldlM (typeField path) done = .ok fields ↔
      ∃ added, fields = done ++ added ∧ List.Forall₂ IsMember (definitions.map Prod.fst) added ∧
        (fields.map (·.name)).Nodup := by
  induction definitions generalizing done with
  | nil =>
    constructor
    · intro h
      cases h
      exact ⟨[], (List.append_nil _).symm, .nil, hd⟩
    · rintro ⟨_, rfl, ⟨⟩, -⟩
      rw [List.append_nil]
      rfl
  | cons d ds ih =>
    rw [List.foldlM_cons, bind_eq_ok]
    simp only [typeField_eq_ok]
    constructor
    · rintro ⟨_, ⟨field, rfl, hm, hf⟩, h⟩
      have hd' : ((done ++ [field]).map (·.name)).Nodup := by
        rw [List.map_append, List.map_singleton, ← List.concat_eq_append]
        exact hd.concat hf
      obtain ⟨added, rfl, ha, hn⟩ := (ih hd').1 h
      exact ⟨field :: added, by simp, .cons hm ha, hn⟩
    · rintro ⟨_, rfl, ha, hn⟩
      obtain ⟨field, added, hm, ha', rfl⟩ := List.forall₂_cons_left_iff.1 ha
      have hf : field.name ∉ done.map (·.name) := by
        rw [List.map_append, List.map_cons, List.nodup_middle, List.nodup_cons,
          List.mem_append] at hn
        exact fun h => hn.1 (.inl h)
      have hn' := hn
      rw [List.append_cons, List.map_append] at hn'
      exact ⟨_, ⟨field, rfl, hm, hf⟩,
        (ih hn'.of_append_left).2 ⟨added, List.append_cons .., ha', hn⟩⟩

theorem typeFields_eq_ok {declaration : Json} :
    typeFields declaration path = .ok fields ↔ IsDeclaration declaration fields := by
  cases declaration with
  | arr definitions => simp [typeFields, Json.asArray, IsDeclaration, foldlM_typeField]
  | _ => simp [typeFields, Json.asArray, IsDeclaration]

/-! ## The graph -/

section

variable (types : List (String × Json)) (place : String)

/-- The fields of a declared struct, whose references have to be declared. -/
def expandType (name : String) : Except TypedDataError (List TypeField × List String) := do
  let path := s!"{place}.{name}"
  let declaration ← requiredField types name path
  let fields ← typeFields declaration path
  forM fields.zipIdx.reverse fun field =>
    match field.1.reference with
    | none => .ok ()
    | some reference =>
      if (types.lookup reference).isSome then .ok ()
      else .error (invalid s!"{path}.{field.2}.type" s!"missing referenced struct {reference}")
  .ok (fields, fields.filterMap (·.reference))

def typeDeclarations : Graph String (List TypeField) TypedDataError where
  nodes := (types.map Prod.fst).toFinset
  expand := expandType types place
  mem_nodes := by
    intro name r h
    obtain ⟨declaration, h, -⟩ := bind_eq_ok.1 h
    obtain ⟨before, after, heq, -⟩ := List.lookup_eq_some_iff.1 (requiredField_eq_ok.1 h)
    simp [heq]
  cyclic name := invalid s!"{place}.{name}" "cyclic type references are not supported"

/-- The reachable structs with their fields, the last one found first. -/
def typeGraph (primaryType : String) : Except TypedDataError (List (String × List TypeField)) :=
  (typeDeclarations types place).search primaryType

/-! ## Where it succeeds -/

/-- The struct is declared with these fields. -/
def DeclaredAs (name : String) (fields : List TypeField) : Prop :=
  ∃ declaration, types.lookup name = some declaration ∧ IsDeclaration declaration fields

/-- A member of the struct is of the other struct, or of arrays of it. -/
def References (name name' : String) : Prop :=
  ∃ fields, DeclaredAs types name fields ∧ ∃ field ∈ fields, field.reference = some name'

def ReachesType : String → String → Prop := Relation.ReflTransGen (References types)

variable {types place}

variable {name name' primaryType : String} {fields fields' : List TypeField}

theorem DeclaredAs.unique (h : DeclaredAs types name fields)
    (h' : DeclaredAs types name fields') : fields = fields' := by
  obtain ⟨d, hd, hf⟩ := h
  obtain ⟨d', hd', hf'⟩ := h'
  cases hd.symm.trans hd'
  have ht : typeFields d "" = .ok fields := typeFields_eq_ok.2 hf
  exact Except.ok.inj (ht.symm.trans (typeFields_eq_ok.2 hf'))

theorem expandType_eq_ok {r : List TypeField × List String} :
    expandType types place name = .ok r ↔ DeclaredAs types name r.1 ∧
      r.2 = r.1.filterMap (·.reference) ∧
      ∀ name', References types name name' → (types.lookup name').isSome = true := by
  simp only [expandType, bind_eq_ok, requiredField_eq_ok, typeFields_eq_ok, forM_eq_ok]
  constructor
  · rintro ⟨d, hd, fields, hf, _, hre, h⟩
    cases h
    refine ⟨⟨d, hd, hf⟩, rfl, ?_⟩
    rintro name' ⟨fields', hf', field, hm, hrf⟩
    cases hf'.unique ⟨d, hd, hf⟩
    obtain ⟨i, hi, hg⟩ := List.getElem_of_mem hm
    have hc := hre (field, i) (by simp [List.mk_mem_zipIdx_iff_getElem?, hi, hg])
    simp only [hrf] at hc
    split at hc
    · assumption
    · cases hc
  · rintro ⟨⟨d, hd, hf⟩, hr, ha⟩
    refine ⟨d, hd, r.1, hf, (), fun field hm => ?_, by rw [← hr]⟩
    cases hrf : field.1.reference with
    | none => rfl
    | some name' =>
      have hm' : field.1 ∈ r.1 := List.fst_mem_of_mem_zipIdx (List.mem_reverse.1 hm)
      simp only [ha name' ⟨r.1, ⟨d, hd, hf⟩, field.1, hm', hrf⟩, if_true]

theorem refers_iff : (typeDeclarations types place).Refers name name' ↔
    (typeDeclarations types place).Expands name ∧ References types name name' := by
  constructor
  · rintro ⟨fields, rs, h, hm⟩
    obtain ⟨hd, hre, -⟩ := expandType_eq_ok.1 h
    obtain rfl : rs = fields.filterMap (·.reference) := hre
    obtain ⟨field, hf, hr⟩ := List.mem_filterMap.1 hm
    exact ⟨⟨_, h⟩, fields, hd, field, hf, hr⟩
  · rintro ⟨⟨⟨fields, rs⟩, h⟩, fields', hd', field, hf, hr⟩
    obtain ⟨hd, hre, -⟩ := expandType_eq_ok.1 h
    obtain rfl : rs = fields.filterMap (·.reference) := hre
    cases hd.unique hd'
    exact ⟨fields, _, h, List.mem_filterMap.2 ⟨field, hf, hr⟩⟩

section

variable (h : (typeDeclarations types place).Accepts primaryType)
  (hn : ReachesType types primaryType name)
include h hn

/-- In a graph that is accepted, the references are those of the search. -/
theorem reaches_of_accepts : (typeDeclarations types place).Reaches primaryType name := by
  induction hn with
  | refl => exact .refl
  | tail _ hr ih => exact ih.tail (refers_iff.2 ⟨(h _ ih).1, hr⟩)

theorem transGen_of_accepts (hc : Relation.TransGen (References types) name name') :
    Relation.TransGen (typeDeclarations types place).Refers name name' := by
  have step : ∀ {a b}, ReachesType types primaryType a → References types a b →
      (typeDeclarations types place).Refers a b := fun ha hab =>
    refers_iff.2 ⟨(h _ (reaches_of_accepts h ha)).1, hab⟩
  induction hc with
  | single hr => exact .single (step hn hr)
  | tail hc hr ih => exact ih.tail (step (hn.trans hc.to_reflTransGen) hr)

end

/-- Over every `types` object and primary type: the search succeeds exactly if every reachable
struct is declared and well formed and none refers back to itself, and it returns the reachable
structs. -/
theorem typeGraph_iff (types : List (String × Json)) (place primaryType : String) :
    ((∃ graph, typeGraph types place primaryType = .ok graph) ↔
      ∀ name, ReachesType types primaryType name →
        (∃ fields, DeclaredAs types name fields) ∧
          ¬ Relation.TransGen (References types) name name) ∧
    ∀ graph, typeGraph types place primaryType = .ok graph → ∀ name,
      name ∈ graph.map Prod.fst ↔ ReachesType types primaryType name := by
  obtain ⟨ho, hk⟩ := (typeDeclarations types place).search_iff primaryType
  have hrf : ∀ a b, (typeDeclarations types place).Refers a b → References types a b :=
    fun a b ha => (refers_iff.1 ha).2
  refine ⟨ho.trans ⟨fun h name hn => ?_, fun h name hn => ?_⟩, fun graph hg name => ?_⟩
  · obtain ⟨⟨r, hr⟩, hc⟩ := h name (reaches_of_accepts h hn)
    exact ⟨⟨r.1, (expandType_eq_ok.1 hr).1⟩, fun hcy => hc (transGen_of_accepts h hn hcy)⟩
  · have hrc : ReachesType types primaryType name := Relation.ReflTransGen.mono hrf _ _ hn
    obtain ⟨⟨fields, hf⟩, hc⟩ := h name hrc
    refine ⟨⟨(fields, fields.filterMap (·.reference)), expandType_eq_ok.2 ⟨hf, rfl, ?_⟩⟩,
      fun hcy => hc (Relation.TransGen.mono hrf _ _ hcy)⟩
    intro name' hre
    obtain ⟨⟨_, decl, hd, -⟩, -⟩ := h name' (hrc.tail hre)
    exact Option.isSome_iff_exists.2 ⟨decl, hd⟩
  · rw [hk graph hg]
    exact ⟨fun h => Relation.ReflTransGen.mono hrf _ _ h, reaches_of_accepts (ho.1 ⟨graph, hg⟩)⟩

end

end Dambi.Decode
