import Dambi.Decode.TaggedDispatch

/-!
# Body templates that are no batch

A body template may take its domain from the context it is filled in with, so
that a template without the word `multicall` can still become a batch. One
that writes its domain out, and nothing over it, cannot.
-/

namespace Dambi

open Fallible Json Option

def ActionBody.IsLeaf (body : ActionBody) : Prop := ∀ actions, body ≠ .multicall actions

/-- Whatever the context fills in, the flat body of a template has another domain. -/
def NeverBatch (kit : TemplateKit) (template : Json) : Prop :=
  ∀ ctx flat, flattenTemplate kit ctx template = .ok flat → tagOf "domain" flat ≠ some "multicall"

section Leaf

variable {kit : TemplateKit} {ctx : MapContext}

theorem tagOf_coerceTimeLikeFields {flat : List (String × Json)} :
    tagOf "domain" (coerceTimeLikeFields flat) = tagOf "domain" flat := by
  have step (fields : List String) (hf : "domain" ∉ fields) (flat : List (String × Json)) :
      tagOf "domain" (fields.foldl (fun flat field => (flat.lookup field).elim flat fun value =>
        insertField field (coerceDecimal value) flat) flat) = tagOf "domain" flat := by
    induction fields generalizing flat with
    | nil => rfl
    | cons field r ih =>
      rw [List.mem_cons, not_or] at hf
      rw [List.foldl_cons, ih hf.2]
      cases flat.lookup field with
      | none => rfl
      | some value => rw [elim_some, tagOf_insertField, if_neg hf.1]
  exact step timeLikeFields (by decide) flat

theorem multicall_of_actionFromFields {f : List (String × Json)} {acs : List ActionBody}
    (h : actionFromFields kit f = .ok (.multicall acs)) :
    tagOf "domain" f = some "multicall" := by
  unfold actionFromFields at h
  split at h
  · next ht => exact ht
  · cases hu : kit.unknownFromFields f with
    | error error | ok fields => rw [hu] at h; cases h
  · split at h
    · next domain _ =>
      cases hd : kit.domainFromFields domain f with
      | error error | ok a => rw [hd] at h; cases h
    · cases h

variable {template : Json} {live : Option Json} {body : ActionBody}

theorem NeverBatch.isLeaf (h : NeverBatch kit template)
    (hb : buildActionBody kit ctx template live = .ok body) : body.IsLeaf := by
  rintro acs rfl
  simp only [buildActionBody, bind_eq_ok, mapError_eq_ok] at hb
  obtain ⟨f, hf, i, hi, a, ha, _, _, hbo⟩ := hb
  cases hbo
  have ht := multicall_of_actionFromFields ha
  rw [tagOf_coerceTimeLikeFields] at ht
  exact h ctx f hf (tagOf_injectLiveInputs hi ht)

theorem NeverBatch.buildArrayEmit {source : String} {p : Option Json} {m : Option Nat}
    (h : NeverBatch kit template)
    (hb : buildArrayEmit kit ctx source p template live m = .ok body) :
    ∃ acs, body = .multicall acs ∧ ∀ a ∈ acs, a.IsLeaf := by
  obtain ⟨array, _, hb⟩ := bind_eq_ok.1 hb
  split at hb
  · cases hb
  · simp only [bind_eq_ok] at hb
    obtain ⟨_, _, ps, _, acs, ha, hbo⟩ := hb
    cases hbo
    refine ⟨acs, rfl, fun a hac => ?_⟩
    obtain ⟨_, _, hi⟩ := exists_of_mem_mapM ha hac
    exact h.isLeaf hi

end Leaf

/-! ## Templates that write their domain out -/

def plainFields : Json → Option (List (String × Json))
  | .obj fields => if hasKey "$match" fields || hasKey "$fn" fields then none else some fields
  | _ => none

/-- The string that a template has at a key, whatever is filled in. -/
def literalTag (key : String) (fields : List (String × Json)) : Option String :=
  (tagOf key fields).filter (!Text.startsWith · "$")

/-- The part of a template whose fields are copied next to its domain. -/
def plainPayload (domain : String) (inner : List (String × Json)) : Option (List (String × Json)) :=
  if domain = "unknown" then some inner
  else (literalTag "action" inner).bind fun action => (inner.lookup action).bind plainFields

/-- The domain of a template that writes it out, and nothing over it. -/
def writtenDomain (template : Json) : Option String := do
  let fields ← plainFields template
  let domain ← literalTag "domain" fields
  let inner ← (fields.lookup domain).bind plainFields
  let payload ← plainPayload domain inner
  if hasKey "domain" payload then none else some domain

section Written

variable {kit : TemplateKit} {ctx : MapContext}

variable {fields : List (String × Json)} {key tag : String}

theorem plainFields_eq_some {template : Json} :
    plainFields template = some fields ↔ template = .obj fields ∧
      hasKey "$match" fields = false ∧ hasKey "$fn" fields = false := by
  cases template with
  | obj own =>
    rw [plainFields, ite_eq_iff]
    constructor
    · rintro (⟨_, h⟩ | ⟨hp, h⟩)
      · cases h
      · cases h
        simpa using hp
    · rintro ⟨h, hm, hf⟩
      cases h
      exact .inr ⟨by simp [hm, hf], rfl⟩
  | null | bool _ | int _ | float _ | str _ | arr _ => simp [plainFields]

theorem literalTag_eq_some :
    literalTag key fields = some tag ↔
      fields.lookup key = some (.str tag) ∧ Text.startsWith tag "$" = false := by
  unfold literalTag tagOf
  cases fields.lookup key with
  | none => simp
  | some value =>
    cases value with
    | str s =>
      simp [asStr]
    | null | bool _ | int _ | float _ | arr _ | obj _ => simp [asStr]

theorem tagOf_of_literalTag
    (h : literalTag key fields = some tag) : tagOf key fields = some tag := by
  rw [tagOf, (literalTag_eq_some.1 h).1]
  rfl

variable {i : List (String × Json)}

theorem ne_of_literalTag (h : literalTag key fields = some tag)
    (hi : fields.lookup tag = some (.obj i)) : key ≠ tag := by
  rintro rfl
  rw [(literalTag_eq_some.1 h).1] at hi
  cases hi

/-! ### Another field set -/

section Insert

variable {key key' : String} {value : Json} {fields : List (String × Json)}

theorem hasKey_insertField (hn : key ≠ key') :
    hasKey key (Json.insertField key' value fields) = hasKey key fields := by
  rw [hasKey, lookup_insertField, if_neg hn, hasKey]

theorem literalTag_insertField (hn : key ≠ key') :
    literalTag key (Json.insertField key' value fields) = literalTag key fields := by
  rw [literalTag, tagOf, lookup_insertField, if_neg hn, literalTag, tagOf]

theorem plainFields_insertField (h : plainFields (.obj fields) = some fields)
    (hm : "$match" ≠ key') (hf : "$fn" ≠ key') :
    plainFields (.obj (Json.insertField key' value fields)) =
      some (Json.insertField key' value fields) := by
  obtain ⟨-, hm', hf'⟩ := plainFields_eq_some.1 h
  rw [plainFields_eq_some, hasKey_insertField hm, hasKey_insertField hf]
  exact ⟨rfl, hm', hf'⟩

end Insert

variable {key key' domain : String} {fields out : List (String × Json)} {value template : Json}

theorem lookup_filter_ne :
    (fields.filter (·.1 ≠ key')).lookup key = if key = key' then none else fields.lookup key := by
  induction fields with
  | nil => simp
  | cons entry r ih =>
    obtain ⟨k, value⟩ := entry
    rw [lookup_cons_ite, List.filter_cons]
    by_cases hk : k = key'
    · rw [if_neg (by simpa using hk), ih]
      subst hk
      split <;> rfl
    · rw [if_pos (by simpa using hk), lookup_cons_ite, ih]
      by_cases h : key = k
      · subst h
        simp [hk]
      · simp [h]

/-! ### Substitution field by field -/

theorem substitute_plain (hm : hasKey "$match" fields = false) (hf : hasKey "$fn" fields = false)
    (h : substitute kit ctx (.obj fields) = .ok value) :
    ∃ out, substituteFields kit ctx fields = .ok out ∧ value = .obj out := by
  rw [substitute, hm, hf] at h
  cases ho : substituteFields kit ctx fields with
  | error error => rw [ho] at h; cases h
  | ok out =>
    rw [ho] at h
    cases h
    exact ⟨out, rfl, rfl⟩

theorem lookup_substituteFields (h : substituteFields kit ctx fields = .ok out) :
    (fields.lookup key).map (substitute kit ctx) = (out.lookup key).map .ok := by
  induction fields generalizing out with
  | nil =>
    cases h
    rfl
  | cons entry r ih =>
    obtain ⟨k, value⟩ := entry
    simp only [substituteFields, bind_eq_ok] at h
    obtain ⟨value', hv, r', hr, h⟩ := h
    cases h
    rw [lookup_cons_ite, lookup_cons_ite]
    split
    · simp [hv]
    · exact ih hr

/-! ### The written domain stays -/

theorem writtenDomain_eq_some :
    writtenDomain template = some domain ↔ ∃ fields i p,
      plainFields template = some fields ∧ literalTag "domain" fields = some domain ∧
      (fields.lookup domain).bind plainFields = some i ∧
      plainPayload domain i = some p ∧ hasKey "domain" p = false := by
  unfold writtenDomain
  simp only [bind_eq_bind, bind_eq_some_iff, ite_eq_iff, reduceCtorEq, and_false,
    false_or, some.injEq, Bool.not_eq_true]
  constructor
  · rintro ⟨fields, hf, d, hd, i, ⟨value, hv, hi⟩, p, hp, hk, rfl⟩
    exact ⟨fields, i, p, hf, hd, ⟨value, hv, hi⟩, hp, hk⟩
  · rintro ⟨fields, i, p, hf, hd, ⟨value, hv, hi⟩, hp, hk⟩
    exact ⟨fields, hf, domain, hd, i, ⟨value, hv, hi⟩, p, hp, hk, rfl⟩

theorem ne_of_hasKey
    (ha : hasKey key fields = false) (h : fields.lookup key' = some value) : key ≠ key' := by
  rintro rfl
  simp [hasKey, h] at ha

theorem ne_of_startsWith (hk : Text.startsWith key "$" = true)
    (ht : Text.startsWith tag "$" = false) : key ≠ tag := by
  rintro rfl
  rw [hk] at ht
  cases ht

theorem hasKey_filter_ne
    (h : hasKey key fields = false) : hasKey key (fields.filter (·.1 ≠ key')) = false := by
  unfold hasKey at h ⊢
  rw [lookup_filter_ne]
  split
  · rfl
  · exact h

theorem plainPayload_insertField {p : List (String × Json)} {action : String}
    {live : List (String × Json)} (hp : plainPayload domain i = some p)
    (hk : hasKey "domain" p = false) (ha : tagOf "action" i = some action)
    (hlv : i.lookup action = some (.obj live)) :
    ∃ p', plainPayload domain (Json.insertField action
        (.obj (live.filter (·.1 ≠ "live_inputs"))) i) = some p' ∧
      hasKey "domain" p' = false := by
  unfold plainPayload at hp ⊢
  split at hp
  · next hu =>
    cases hp
    rw [if_pos hu]
    exact ⟨_, rfl, (hasKey_insertField (ne_of_hasKey hk hlv)).trans hk⟩
  · next hd =>
    rw [if_neg hd]
    obtain ⟨action', hl, hpl⟩ := bind_eq_some_iff.1 hp
    have hs : action' = action := some.inj ((tagOf_of_literalTag hl).symm.trans ha)
    subst hs
    rw [hlv, bind_some, plainFields_eq_some] at hpl
    obtain ⟨ho, hm, hf⟩ := hpl
    injection ho with ho
    subst ho
    refine ⟨live.filter (·.1 ≠ "live_inputs"), ?_, hasKey_filter_ne hk⟩
    rw [literalTag_insertField (ne_of_literalTag hl hlv), hl, bind_some,
      lookup_insertField, if_pos rfl, bind_some, plainFields_eq_some]
    exact ⟨rfl, hasKey_filter_ne hm, hasKey_filter_ne hf⟩

theorem writtenDomain_strip (h : writtenDomain template = some domain) :
    writtenDomain (stripInlineLiveInputs template).1 = some domain := by
  unfold stripInlineLiveInputs
  cases hl : liftLiveInputs template with
  | none => exact h
  | some l =>
    obtain ⟨s, live⟩ := l
    obtain ⟨fields, i, p, hfi, hd, hi, hp, hk⟩ := writtenDomain_eq_some.1 h
    obtain ⟨rfl, -, -⟩ := plainFields_eq_some.1 hfi
    obtain ⟨value, hv, hpl⟩ := bind_eq_some_iff.1 hi
    obtain ⟨rfl, hm, hf⟩ := plainFields_eq_some.1 hpl
    simp only [liftLiveInputs, asObject, bind_eq_bind, bind_some,
      tagOf_of_literalTag hd, hv, bind_eq_some_iff, pure_def,
      some.injEq, Prod.mk.injEq] at hl
    obtain ⟨a, ha, own, ⟨entry, he, ho⟩, _, _, rfl, rfl⟩ := hl
    have hob : entry = .obj own := by
      cases entry with
      | obj fields => simpa using ho
      | null | bool _ | int _ | float _ | str _ | arr _ => cases ho
    subst hob
    obtain ⟨p', hp', hk'⟩ := plainPayload_insertField hp hk ha he
    have hs : Text.startsWith domain "$" = false := (literalTag_eq_some.1 hd).2
    have hm' : "$match" ≠ domain := ne_of_startsWith (by decide) hs
    have hf' : "$fn" ≠ domain := ne_of_startsWith (by decide) hs
    refine writtenDomain_eq_some.2 ⟨_, _, p', plainFields_insertField hfi hm' hf', ?_, ?_, hp', hk'⟩
    · exact (literalTag_insertField (ne_of_literalTag hd hv)).trans hd
    · rw [lookup_insertField, if_pos rfl]
      exact plainFields_insertField hpl (ne_of_hasKey hm he) (ne_of_hasKey hf he)

/-! ### A written domain is the one that counts -/

theorem lookup_insertFields
    (h : hasKey key fields = false) : (insertFields out fields).lookup key = out.lookup key := by
  unfold insertFields
  induction fields generalizing out with
  | nil => rfl
  | cons entry r ih =>
    obtain ⟨k, value⟩ := entry
    unfold hasKey at h ih
    rw [lookup_cons_ite] at h
    split at h
    · cases h
    · next hk => rw [List.foldl_cons, ih h, lookup_insertField, if_neg hk]

section

variable (h : substituteFields kit ctx fields = .ok out)
include h

theorem hasKey_substituteFields : hasKey key out = hasKey key fields := by
  have hl : (fields.lookup key).map (substitute kit ctx) = (out.lookup key).map .ok :=
    lookup_substituteFields h
  simpa [hasKey] using (congrArg isSome hl).symm

theorem lookup_literal (ht : literalTag key fields = some tag) :
    out.lookup key = some (.str tag) := by
  obtain ⟨hs, hst⟩ := literalTag_eq_some.1 ht
  have hl : (fields.lookup key).map (substitute kit ctx) = (out.lookup key).map .ok :=
    lookup_substituteFields h
  rw [hs, map_some, substitute, hst, if_neg Bool.false_ne_true, eq_comm,
    map_eq_some_iff] at hl
  obtain ⟨value, hv, ho⟩ := hl
  cases ho
  exact hv

theorem lookup_plain {i : List (String × Json)}
    (hi : (fields.lookup key).bind plainFields = some i) :
    ∃ i', substituteFields kit ctx i = .ok i' ∧ out.lookup key = some (.obj i') := by
  obtain ⟨value, hv, hp⟩ := bind_eq_some_iff.1 hi
  obtain ⟨rfl, hm, hf⟩ := plainFields_eq_some.1 hp
  have hl : (fields.lookup key).map (substitute kit ctx) = (out.lookup key).map .ok :=
    lookup_substituteFields h
  rw [hv, map_some, eq_comm, map_eq_some_iff] at hl
  obtain ⟨value, hv', ho⟩ := hl
  obtain ⟨i', hi', rfl⟩ := substitute_plain hm hf ho.symm
  exact ⟨i', hi', hv'⟩

end

theorem tagOf_flattenBody {f : List (String × Json)}
    (h : writtenDomain template = some domain) (hn : domain ≠ "multicall")
    (hv : substitute kit ctx template = .ok value) (hf : flattenBody value = .ok f) :
    tagOf "domain" f = some domain := by
  obtain ⟨fields, i, p, hfi, hd, hi, hp, hk⟩ := writtenDomain_eq_some.1 h
  obtain ⟨rfl, hm, hfn⟩ := plainFields_eq_some.1 hfi
  obtain ⟨out, ho, rfl⟩ := substitute_plain hm hfn hv
  obtain ⟨i', hi', hl⟩ := lookup_plain ho hi
  simp only [flattenBody, bodyField, asObject, lookup_literal ho hd, asStr,
    elim_some, ok_bind, hn, false_or] at hf
  unfold plainPayload at hp
  split at hf
  · next hu =>
    rw [if_pos hu] at hp
    cases hp
    cases hf
    rw [flattenVariant, hl, tagOf, bind_some, asObject, getD_some,
      lookup_insertFields ((hasKey_substituteFields hi').trans hk)]
    rfl
  · next hkn =>
    rw [if_neg hkn] at hp
    obtain ⟨a, ha, hp⟩ := bind_eq_some_iff.1 hp
    obtain ⟨p', hp', hl'⟩ := lookup_plain hi' hp
    simp only [flattenDomain, bodyField, hl, bind_some, asObject,
      elim_some, ok_bind, lookup_literal hi' ha, asStr, hl'] at hf
    cases hf
    rw [tagOf, lookup_insertFields ((hasKey_substituteFields hp').trans hk)]
    rfl

theorem neverBatch_of_writtenDomain
    (h : writtenDomain template = some domain) (hn : domain ≠ "multicall") :
    NeverBatch kit template := by
  intro ctx f hf ht
  obtain ⟨value, hv, hf⟩ := bind_eq_ok.1 hf
  rw [tagOf_flattenBody (writtenDomain_strip h) hn hv hf] at ht
  exact hn (some.inj ht)

theorem neverBatch_unknownTemplate : NeverBatch kit unknownTemplate := by
  have hw : writtenDomain unknownTemplate = some "unknown" := by decide +kernel
  exact neverBatch_of_writtenDomain hw (by decide)

end Written

end Dambi
