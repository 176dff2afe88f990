import Dambi.Decode.TypedData

/-!
# Named and positional values

What `reshape_named_to_positional` makes of the named rendering of an ABI value. The
recursion takes the elements of every array type for tuples, so an inner array is read
as one tuple.
-/

namespace Dambi

inductive Elementary where
  | address | bool | string | bytes | function
  | uint (bits : Nat) | int (bits : Nat) | fixedBytes (size : Nat)

def Elementary.text : Elementary → String
  | .address => "address"
  | .bool => "bool"
  | .string => "string"
  | .bytes => "bytes"
  | .function => "function"
  | .uint bits => "uint" ++ toString bits
  | .int bits => "int" ++ toString bits
  | .fixedBytes size => "bytes" ++ toString size

/-- An array without a length is dynamic. -/
inductive AbiType where
  | elementary (type : Elementary)
  | tuple (members : List (String × AbiType))
  | array (element : AbiType) (length : Option Nat)

namespace AbiType

def text : AbiType → String
  | .elementary type => type.text
  | .tuple _ => "tuple"
  | .array element length => element.text ++ "[" ++ length.elim "" toString ++ "]"

/-- Tuples, and arrays of them at any depth. -/
def isTuple : AbiType → Bool
  | .elementary _ => false
  | .tuple _ => true
  | .array element _ => element.isTuple

mutual

/-- The node of a parameter in an ABI: the components of an array are those of its tuples. -/
def node : String × AbiType → Json
  | (name, type) => .obj (type.components ++ [("name", .str name), ("type", .str type.text)])

def components : AbiType → List (String × Json)
  | .elementary _ => []
  | .tuple members => [("components", .arr (nodes members))]
  | .array element _ => element.components

def nodes : List (String × AbiType) → List Json
  | [] => []
  | member :: members => node member :: nodes members

/-- A value of the type, by its named and its positional rendering. -/
def Renders : AbiType → Json → Json → Prop
  | .elementary _, named, positional => named = positional
  | .tuple members, .obj fields, .arr items => RendersAll members fields items
  | .array element length, .arr named, .arr items =>
    length.all (· = named.length) ∧ List.Forall₂ element.Renders named items
  | _, _, _ => False

def RendersAll : List (String × AbiType) → List (String × Json) → List Json → Prop
  | [], _, items => items = []
  | (name, type) :: members, fields, items => ∃ named item rest, items = item :: rest ∧
    fields.lookup name = some named ∧ type.Renders named item ∧ RendersAll members fields rest

/-- Every inner array of an array of arrays of tuples that is met is what becomes of it when it is
read as one tuple. -/
def Agrees : AbiType → Json → Json → Prop
  | .tuple members, .obj fields, .arr items => AgreesAll members fields items
  | .array (.tuple members) _, .arr named, .arr items =>
    List.Forall₂ (Agrees (.tuple members)) named items
  | .array (.array element _) _, .arr named, .arr items => element.isTuple = true →
    List.Forall₂ (fun inner item => reshapeTuple element.components inner = item) named items
  | _, _, _ => True

def AgreesAll : List (String × AbiType) → List (String × Json) → List Json → Prop
  | (name, type) :: members, fields, item :: items =>
    (∀ named, fields.lookup name = some named → type.Agrees named item) ∧
      AgreesAll members fields items
  | _, _, _ => True

/-- No part of the type is an array of arrays of tuples. -/
def Flat : AbiType → Prop
  | .elementary _ => True
  | .tuple members => FlatAll members
  | .array (.array element _) _ => element.isTuple = false
  | .array element _ => element.Flat

def FlatAll : List (String × AbiType) → Prop
  | [] => True
  | (_, type) :: members => type.Flat ∧ FlatAll members

end

theorem startsWith_tuple : ∀ (type : AbiType) (rest : String),
    Text.startsWith (type.text ++ rest) "tuple" = type.isTuple
  | .elementary type, rest => by
    cases type <;> simp [text, Elementary.text, Text.startsWith, List.isPrefixOf, isTuple]
  | .tuple _, rest => by simp [text, Text.startsWith, isTuple]
  | .array element length, rest => by
    simpa only [text, String.append_assoc, isTuple] using startsWith_tuple element _

theorem components_eq : ∀ type : AbiType,
    type.components = [] ∨ ∃ items, type.components = [("components", .arr items)]
  | .elementary _ => .inl rfl
  | .tuple _ => .inr ⟨_, rfl⟩
  | .array element _ => components_eq element

theorem node_eq (name : String) (type : AbiType) (value : Json) :
    abiName (node (name, type)) = name ∧ reshape (node (name, type)) value =
      if Text.startsWith type.text "tuple" ∧ type.text.toList.getLast? = some ']' then
        match value with
        | .arr items => .arr (items.map (reshapeTuple type.components))
        | value => value
      else if type.text = "tuple" then reshapeTuple type.components value
      else value := by
  obtain h | ⟨items, h⟩ := components_eq type <;> rw [node, h] <;> cases value <;>
    exact ⟨rfl, rfl⟩

theorem reshape_tuple (name : String) (members : List (String × AbiType)) (value : Json) :
    reshape (node (name, .tuple members)) value =
      reshapeTuple (components (.tuple members)) value := by
  simp [(node_eq name _ value).2, text]

section

variable {type : AbiType} (name : String) (value : Json)

theorem reshape_array (h : type.isTuple = true) (length : Option Nat) :
    reshape (node (name, .array type length)) value =
      match value with
      | .arr items => .arr (items.map (reshapeTuple type.components))
      | value => value := by
  have hs := startsWith_tuple (.array type length) ""
  have hl : (type.array length).text.toList.getLast? = some ']' := by
    rw [text, String.toList_append]
    exact List.getLast?_concat
  simp_all [(node_eq name _ _).2, isTuple, components]

theorem reshape_of_not_isTuple (h : type.isTuple = false) :
    reshape (node (name, type)) value = value := by
  have hs : Text.startsWith type.text "tuple" = false := by
    simpa [h] using startsWith_tuple type ""
  have ht : type.text ≠ "tuple" := fun he => by simp [he, Text.startsWith, List.isPrefixOf] at hs
  simp [(node_eq name type _).2, hs, ht]

end

theorem eq_of_renders : ∀ (type : AbiType) (named positional : Json), type.isTuple = false →
    type.Renders named positional → named = positional
  | .elementary _, _, _, _, h => h
  | .array element _, .arr _, .arr _, ht, h => by
    have he := h.2.imp fun _ _ => eq_of_renders element _ _ ht
    rw [List.forall₂_eq_eq_eq] at he
    rw [he]

theorem map_eq_iff {α β : Type} {R Q : α → β → Prop} {f : α → β} {xs : List α} {ys : List β}
    (hr : List.Forall₂ R xs ys) (h : ∀ x y, R x y → (f x = y ↔ Q x y)) :
    xs.map f = ys ↔ List.Forall₂ Q xs ys := by
  induction hr with
  | nil => simp
  | cons hx _ ih => simp [h _ _ hx, ih]

mutual

theorem reshape_eq_iff : ∀ (type : AbiType) (name : String) (named positional : Json),
    type.Renders named positional →
      (reshape (node (name, type)) named = positional ↔ type.Agrees named positional)
  | .elementary type, name, _, _, h => by
    have ht : (elementary type).isTuple = false := rfl
    simpa [reshape_of_not_isTuple name _ ht, Agrees] using eq_of_renders _ _ _ ht h
  | .tuple members, name, .obj fields, .arr items, h => by
    have hm := reshapeMembers_eq_iff members 0 fields items h
    simp [reshape_tuple, components, reshapeTuple, hm, Agrees]
  | .array (.tuple members) _, name, .arr named, .arr items, h => by
    rw [reshape_array name _ rfl, Json.arr.injEq, Agrees]
    refine map_eq_iff h.2 fun _ _ hr => ?_
    rw [← reshape_eq_iff (.tuple members) name _ _ hr, reshape_tuple]
  | .array (.elementary type) length, name, named, _, h => by
    have ht : (array (.elementary type) length).isTuple = false := rfl
    simpa [reshape_of_not_isTuple name named ht, Agrees] using eq_of_renders _ _ _ ht h
  | .array (.array element inner) outer, name, .arr named, .arr items, h => by
    rw [Agrees]
    by_cases ht : element.isTuple = true
    · rw [reshape_array name _ (by simpa [isTuple] using ht), Json.arr.injEq]
      simpa [ht, components] using map_eq_iff h.2 fun _ _ _ => .rfl
    · have hn : (array (.array element inner) outer).isTuple = false := by simpa [isTuple] using ht
      simpa [reshape_of_not_isTuple name _ hn, ht] using eq_of_renders _ _ _ hn h

theorem reshapeMembers_eq_iff : ∀ (members : List (String × AbiType)) (index : Nat)
    (fields : List (String × Json)) (items : List Json), RendersAll members fields items →
      (reshapeMembers (nodes members) index (.obj fields) = items ↔
        AgreesAll members fields items)
  | [], _, _, _, h => by simp [nodes, reshapeMembers, show _ = [] from h, AgreesAll]
  | (name, type) :: members, index, fields, _, h => by
    obtain ⟨named, item, rest, rfl, hl, h, hr⟩ := h
    have hm := reshapeMembers_eq_iff members (index + 1) fields rest hr
    have hv := reshape_eq_iff type name named item h
    simp [nodes, reshapeMembers, tupleMember, (node_eq name type .null).1, hl, hv, hm, AgreesAll]

end

/-! ## Reading a value twice -/

theorem reshapeTuple_null : ∀ node, reshapeTuple node .null = .null
  | [] => by simp [reshapeTuple]
  | (key, value) :: rest => by
    have hr := reshapeTuple_null rest
    cases value <;> simp [reshapeTuple, hr]

theorem reshape_null (node : Json) : reshape node .null = .null := by
  cases node <;> simp [reshape, reshapeTuple_null]

mutual

theorem reshape_reshape : ∀ node value, reshape node (reshape node value) = reshape node value
  | .obj node, value => by
    have hi := fun value => reshapeTuple_reshapeTuple node value
    simp only [reshape]
    split
    · cases value <;> simp [hi]
    · split
      · exact hi value
      · rfl
  | .null, _ | .bool _, _ | .int _, _ | .float _, _ | .str _, _ | .arr _, _ => by simp [reshape]

theorem reshapeTuple_reshapeTuple : ∀ node value,
    reshapeTuple node (reshapeTuple node value) = reshapeTuple node value
  | [], value => by simp [reshapeTuple]
  | (key, .arr components) :: rest, value => by
    have hr := reshapeTuple_reshapeTuple rest value
    have hm := fun value => reshapeMembers_reshapeMembers components [] value
    by_cases hk : key = "components"
    · cases value <;> simp [reshapeTuple, hk] <;> exact hm _
    · simpa [reshapeTuple, hk] using hr
  | (key, .null) :: rest, value | (key, .bool _) :: rest, value | (key, .int _) :: rest, value
  | (key, .float _) :: rest, value | (key, .str _) :: rest, value
  | (key, .obj _) :: rest, value => by
    have hr := reshapeTuple_reshapeTuple rest value
    by_cases hk : key = "components" <;> simp [reshapeTuple, hk, hr]

theorem reshapeMembers_reshapeMembers :
    ∀ (components : List Json) (before : List Json) (value : Json),
    reshapeMembers components before.length
      (.arr (before ++ reshapeMembers components before.length value)) =
      reshapeMembers components before.length value
  | [], _, _ => rfl
  | component :: rest, before, value => by
    have hr := reshape_reshape component
    let first := (tupleMember value component before.length).elim .null (reshape component)
    have hf : reshape component first = first := by
      cases h : tupleMember value component before.length with
      | none => simp [first, h, reshape_null]
      | some member => simp [first, h, hr]
    have ht := reshapeMembers_reshapeMembers rest (before ++ [first]) value
    simp only [List.append_assoc, List.length_append, List.length_singleton,
      List.singleton_append] at ht
    simp only [reshapeMembers, tupleMember, List.getElem?_append_right, Nat.le_refl, Nat.sub_self,
      List.getElem?_cons_zero, Option.elim_some]
    exact congrArg₂ _ hf ht

end

/-! ## Inner arrays that cannot agree -/

mutual

/-- No tuple of the type is without components. -/
def Proper : AbiType → Prop
  | .elementary _ => True
  | .tuple members => members ≠ [] ∧ ProperAll members
  | .array element _ => element.Proper

def ProperAll : List (String × AbiType) → Prop
  | [] => True
  | (_, type) :: members => type.Proper ∧ ProperAll members

end

def Scalar : Json → Prop
  | .null | .arr _ | .obj _ => False
  | _ => True

mutual

/-- A value of scalars, in which no array is empty and no object has other fields than the
members. -/
def Full : AbiType → Json → Prop
  | .elementary _, value => Scalar value
  | .tuple members, .obj fields => FullAll members fields ∧ ∀ field ∈ fields,
    field.1 ∈ members.map Prod.fst ∧ fields.lookup field.1 = some field.2
  | .array element _, .arr items => items ≠ [] ∧ ∀ item ∈ items, element.Full item
  | _, _ => False

def FullAll : List (String × AbiType) → List (String × Json) → Prop
  | [], _ => True
  | (name, type) :: members, fields =>
    (∃ value, fields.lookup name = some value ∧ type.Full value) ∧ FullAll members fields

end

/-- Neither `null` nor an object is in the value. -/
inductive Clean : Json → Prop
  | scalar {value : Json} (h : Scalar value) : Clean value
  | arr {items : List Json} (h : ∀ item ∈ items, Clean item) : Clean (.arr items)

/-- At least `n` objects stand above each leaf. -/
inductive Deep : Nat → Json → Prop
  | zero {value : Json} : Deep 0 value
  | obj {n : Nat} {fields : List (String × Json)} (h : ∀ field ∈ fields, Deep n field.2) :
      Deep (n + 1) (.obj fields)
  | arr {n : Nat} {items : List Json} (hn : items ≠ []) (h : ∀ item ∈ items, Deep n item) :
      Deep n (.arr items)

mutual

/-- At most `n` tuples stand above some leaf. -/
def Shallow : Nat → AbiType → Prop
  | _, .elementary _ => True
  | n, .array element _ => element.isTuple = true → Shallow n element
  | 0, .tuple _ => False
  | n + 1, .tuple members => ShallowSome n members

def ShallowSome : Nat → List (String × AbiType) → Prop
  | _, [] => False
  | n, (_, type) :: members => Shallow n type ∨ ShallowSome n members

end

variable {n : Nat} {value : Json}

theorem Deep.not_clean (h : Deep (n + 1) value) : ¬ Clean value := by
  generalize hm : n + 1 = m at h
  induction h with
  | zero => cases hm
  | obj => exact nofun
  | arr hn _ ih =>
    obtain ⟨item, rest, rfl⟩ := List.exists_cons_of_ne_nil hn
    rintro (hc | hc)
    · exact hc
    · exact ih item (by simp) hm (hc item (by simp))

theorem Deep.mono (h : Deep (n + 1) value) : Deep n value := by
  generalize hm : n + 1 = m at h
  induction h generalizing n with
  | zero => cases hm
  | obj h ih =>
    obtain rfl := Nat.succ.inj hm
    cases n with
    | zero => exact .zero
    | succ n => exact .obj fun field hf => ih field hf rfl
  | arr hn _ ih => exact .arr hn fun item hi => ih item hi hm

theorem not_shallow_zero : ∀ type : AbiType, type.isTuple = true → ¬ Shallow 0 type
  | .tuple _, _, h => h
  | .array element _, ht, h => not_shallow_zero element ht (h ht)

mutual

theorem exists_shallow : ∀ type : AbiType, type.Proper → ∃ n, Shallow n type
  | .elementary _, _ => ⟨0, trivial⟩
  | .array element _, h => by
    obtain ⟨n, hn⟩ := exists_shallow element h
    exact ⟨n, fun _ => hn⟩
  | .tuple members, ⟨hn, h⟩ => by
    obtain ⟨n, hn⟩ := exists_shallowSome members hn h
    exact ⟨n + 1, hn⟩

theorem exists_shallowSome : ∀ members : List (String × AbiType), members ≠ [] →
    ProperAll members → ∃ n, ShallowSome n members
  | (_, type) :: _, _, h => by
    obtain ⟨n, hn⟩ := exists_shallow type h.1
    exact ⟨n, .inl hn⟩

end

mutual

/-- Every leaf of a full value stands below as many objects as the type has tuples above it. -/
theorem Full.deep : ∀ (type : AbiType) (n : Nat) (value : Json), type.Full value →
    ¬ Shallow n type → Deep (n + 1) value
  | .elementary _, _, _, _, hs => absurd trivial hs
  | .array element _, n, .arr items, hf, hs => by
    rw [Shallow, Classical.not_imp] at hs
    exact .arr hf.1 fun item hi => Full.deep element n item (hf.2 item hi) hs.2
  | .tuple _, 0, .obj _, _, _ => .obj fun _ _ => .zero
  | .tuple members, n + 1, .obj fields, hf, hs => .obj fun field hm =>
    FullAll.deep members n fields field hf.1 hs (hf.2 field hm).1 (hf.2 field hm).2

theorem FullAll.deep : ∀ (members : List (String × AbiType)) (n : Nat)
    (fields : List (String × Json)) (field : String × Json), FullAll members fields →
    ¬ ShallowSome n members → field.1 ∈ members.map Prod.fst →
    fields.lookup field.1 = some field.2 → Deep (n + 1) field.2
  | (name, type) :: members, n, fields, field, hf, hs, hm, hl => by
    rw [ShallowSome, not_or] at hs
    rcases List.mem_cons.1 hm with heq | hm
    · obtain ⟨value, hv, hf⟩ := hf.1
      rw [heq, hv] at hl
      exact Option.some.inj hl ▸ Full.deep type n value hf hs.1
    · exact FullAll.deep members n fields field hf.2 hs.2 hm hl

end

theorem exists_left {α β : Type} {R : α → β → Prop} {xs : List α} {ys : List β} {y : β}
    (h : List.Forall₂ R xs ys) (hy : y ∈ ys) : ∃ x ∈ xs, R x y := by
  induction h with
  | nil => cases hy
  | cons hr _ ih =>
    rcases List.mem_cons.1 hy with rfl | hy
    · exact ⟨_, by simp, hr⟩
    · obtain ⟨x, hx, hr⟩ := ih hy
      exact ⟨x, List.mem_cons_of_mem _ hx, hr⟩

mutual

theorem Full.clean : ∀ (type : AbiType) (named positional : Json), type.Full named →
    type.Renders named positional → Clean positional
  | .elementary _, _, _, hf, h => .scalar (h ▸ hf)
  | .array element _, .arr named, .arr items, hf, h => by
    refine .arr fun item hi => ?_
    obtain ⟨value, hv, hr⟩ := exists_left h.2 hi
    exact Full.clean element value item (hf.2 value hv) hr
  | .tuple members, .obj fields, .arr items, hf, h =>
    .arr (FullAll.clean members fields items hf.1 h)

theorem FullAll.clean : ∀ (members : List (String × AbiType)) (fields : List (String × Json))
    (items : List Json), FullAll members fields → RendersAll members fields items →
    ∀ item ∈ items, Clean item
  | [], _, _, _, h => by simp [show _ = [] from h]
  | (name, type) :: members, fields, _, hf, h => by
    obtain ⟨named, item, rest, rfl, hl, h, hr⟩ := h
    obtain ⟨⟨value, hv, hfu⟩, hfa⟩ := hf
    cases hl.symm.trans hv
    rintro _ (_ | ⟨_, hi⟩)
    · exact Full.clean type named item hfu h
    · exact FullAll.clean members fields rest hfa hr _ hi

end

/-- What is read for the members of a tuple has objects left. -/
def DeepMembers (n : Nat) (value : Json) : Prop :=
  (∃ fields, value = .obj fields ∧ ∀ field ∈ fields, Deep n field.2) ∨
    ∃ items, value = .arr items ∧ ∀ item ∈ items, Deep n item

theorem Deep.members (h : Deep (n + 1) value) : DeepMembers n value := by
  generalize hm : n + 1 = m at h
  cases h with
  | zero => cases hm
  | obj h =>
    cases hm
    exact .inl ⟨_, rfl, h⟩
  | arr _ h =>
    subst hm
    exact .inr ⟨_, rfl, fun item hi => (h item hi).mono⟩

theorem DeepMembers.of_tupleMember {component member : Json} {index : Nat}
    (h : DeepMembers n value) (hm : tupleMember value component index = some member) :
    Deep n member := by
  obtain ⟨fields, rfl, h⟩ | ⟨items, rfl, h⟩ := h
  · obtain ⟨before, after, rfl, -⟩ := List.lookup_eq_some_iff.1 hm
    exact h (abiName component, member) (by simp)
  · exact h member (List.mem_of_getElem? hm)

mutual

/-- A type with fewer tuples than the value has objects leaves one of these standing. -/
theorem reshape_not_clean : ∀ (type : AbiType) (name : String) (n : Nat) (value : Json),
    Shallow n type → Deep (n + 1) value → ¬ Clean (reshape (node (name, type)) value)
  | .elementary type, name, n, value, _, hd => by
    rw [reshape_of_not_isTuple name value (rfl : (elementary type).isTuple = false)]
    exact hd.not_clean
  | .array element length, name, n, value, hs, hd => by
    by_cases ht : element.isTuple = true
    · cases n with
      | zero => exact absurd (hs ht) (not_shallow_zero element ht)
      | succ n =>
        rw [reshape_array name value ht]
        cases value with
        | arr items =>
          cases hd with
          | arr hn hd =>
            obtain ⟨item, rest, rfl⟩ := List.exists_cons_of_ne_nil hn
            have hi := reshapeTuple_not_clean element n item ht (hs ht) (hd item (by simp)).members
            rintro (hc | hc)
            · exact hc
            · exact hi (hc _ (by simp))
        | _ => exact hd.not_clean
    · rw [reshape_of_not_isTuple name value (by simpa [isTuple] using ht)]
      exact hd.not_clean
  | .tuple members, name, n + 1, value, hs, hd => by
    rw [reshape_tuple]
    exact reshapeTuple_not_clean (.tuple members) n value rfl hs hd.members

theorem reshapeTuple_not_clean : ∀ (type : AbiType) (n : Nat) (value : Json),
    type.isTuple = true → Shallow (n + 1) type → DeepMembers (n + 1) value →
      ¬ Clean (reshapeTuple type.components value)
  | .array element _, n, value, ht, hs, hd => reshapeTuple_not_clean element n value ht (hs ht) hd
  | .tuple members, n, value, _, hs, hd => by
    obtain ⟨item, hi, hc⟩ := reshapeMembers_not_clean members n 0 value hs hd
    have he : reshapeTuple (tuple members).components value =
        .arr (reshapeMembers (nodes members) 0 value) := by
      obtain ⟨_, rfl, -⟩ | ⟨_, rfl, -⟩ := hd <;> simp [components, reshapeTuple]
    rw [he]
    rintro (h | h)
    · exact h
    · exact hc (h item hi)

theorem reshapeMembers_not_clean : ∀ (members : List (String × AbiType)) (n index : Nat)
    (value : Json), ShallowSome n members → DeepMembers (n + 1) value →
      ∃ item ∈ reshapeMembers (nodes members) index value, ¬ Clean item
  | (name, type) :: members, n, index, value, hs, hd => by
    simp only [nodes, reshapeMembers, List.mem_cons]
    rcases hs with hs | hs
    · refine ⟨_, .inl rfl, ?_⟩
      cases hm : tupleMember value (node (name, type)) index with
      | none => exact nofun
      | some member => exact reshape_not_clean type name n member hs (hd.of_tupleMember hm)
    · obtain ⟨item, hi, hc⟩ := reshapeMembers_not_clean members n (index + 1) value hs hd
      exact ⟨item, .inr hi, hc⟩

end

/-- A full inner array, read as one tuple, is not its positional rendering. -/
theorem inner_not_clean {type : AbiType} {items : List Json} (ht : type.isTuple = true)
    (hp : type.Proper) (hf : ∀ item ∈ items, type.Full item) :
    ¬ Clean (reshapeTuple type.components (.arr items)) := by
  classical
  have hs := exists_shallow type hp
  obtain ⟨n, hn⟩ : ∃ n, Nat.find hs = n + 1 := by
    refine Nat.exists_eq_add_one.2 (Nat.pos_of_ne_zero fun h0 => not_shallow_zero type ht ?_)
    exact h0 ▸ Nat.find_spec hs
  have hd : ∀ item ∈ items, Deep (n + 1) item := fun item hi =>
    Full.deep type n item (hf item hi) (Nat.find_min hs (by omega))
  exact reshapeTuple_not_clean type n _ ht (hn ▸ Nat.find_spec hs) (.inr ⟨items, rfl, hd⟩)

mutual

theorem Agrees.flat : ∀ (type : AbiType) (named positional : Json), type.Proper →
    type.Full named → type.Renders named positional → type.Agrees named positional → type.Flat
  | .elementary _, _, _, _, _, _, _ => trivial
  | .tuple members, .obj fields, .arr items, hp, hf, hr, ha =>
    AgreesAll.flat members fields items hp.2 hf.1 hr ha
  | .array (.elementary _) _, _, _, _, _, _, _ => trivial
  | .array (.tuple members) _, .arr (named :: _), .arr (item :: _), hp, hf, hr, ha => by
    rw [Agrees, List.forall₂_cons] at ha
    exact Agrees.flat (.tuple members) named item hp (hf.2 named (by simp))
      (List.forall₂_cons.1 hr.2).1 ha.1
  | .array (.array element inner) _, .arr (value :: _), .arr (item :: _), hp, hf, hr, ha => by
    by_contra hn
    have ht : element.isTuple = true := by simpa [Flat] using hn
    have hi := (List.forall₂_cons.1 (ha ht)).1
    have hfi := hf.2 value (by simp)
    have hc := Full.clean (.array element inner) value item hfi (List.forall₂_cons.1 hr.2).1
    cases value with
    | arr items => exact inner_not_clean ht hp hfi.2 (hi ▸ hc)
    | _ => exact hfi
  | .array (.tuple _) _, .arr [], _, _, hf, _, _
  | .array (.array _ _) _, .arr [], _, _, hf, _, _ => absurd rfl hf.1

theorem AgreesAll.flat : ∀ (members : List (String × AbiType)) (fields : List (String × Json))
    (items : List Json), ProperAll members → FullAll members fields →
    RendersAll members fields items → AgreesAll members fields items → FlatAll members
  | [], _, _, _, _, _, _ => trivial
  | (name, type) :: members, fields, _, hp, hf, hr, ha => by
    obtain ⟨named, item, rest, rfl, hl, h, hr⟩ := hr
    obtain ⟨⟨value, hv, hfu⟩, hfa⟩ := hf
    cases hl.symm.trans hv
    exact ⟨Agrees.flat type named item hp.1 hfu h (ha.1 named hl),
      AgreesAll.flat members fields rest hp.2 hfa hr ha.2⟩

end

mutual

theorem Flat.agrees : ∀ (type : AbiType) (named positional : Json), type.Flat →
    type.Renders named positional → type.Agrees named positional
  | .elementary _, _, _, _, _ => by simp [Agrees]
  | .tuple members, .obj fields, .arr items, hf, h => FlatAll.agrees members fields items hf h
  | .array (.elementary _) _, _, _, _, _ => by simp [Agrees]
  | .array (.tuple members) _, .arr _, .arr _, hf, h =>
    h.2.imp fun _ _ => Flat.agrees (.tuple members) _ _ hf
  | .array (.array element _) _, .arr _, .arr _, hf, _ => fun ht => by cases ht.symm.trans hf

theorem FlatAll.agrees : ∀ (members : List (String × AbiType)) (fields : List (String × Json))
    (items : List Json), FlatAll members → RendersAll members fields items →
    AgreesAll members fields items
  | [], _, _, _, _ => trivial
  | (name, type) :: members, fields, _, hf, h => by
    obtain ⟨named, item, rest, rfl, hl, h, hr⟩ := h
    refine ⟨fun named' hl' => ?_, FlatAll.agrees members fields rest hf.2 hr⟩
    cases hl.symm.trans hl'
    exact Flat.agrees type named item hf.1 h

end

end AbiType

end Dambi
