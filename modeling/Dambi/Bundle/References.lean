import Dambi.Bundle.PolicyContent
import Dambi.Policy.CedarExpr
import Dambi.Runtime.Boundary

/-!
# References to custom fields

What the walk of `bundle/policy_content.rs` over the JSON form of a policy rules
out: no expression of an accepted policy accesses a custom field that the
manifest of its entry does not declare, so its evaluation never reads one.
-/

namespace Dambi

open Fallible Json List

/-- A path of the context that enters `custom` names a declared field. -/
def Declared (m : ManifestV2) (p : List String) : Prop :=
  ∀ field rest, p = "custom" :: field :: rest → field ∈ m.customContext.fields

theorem Declared.of_append {m : ManifestV2} {p mo : List String}
    (h : Declared m (p ++ mo)) : Declared m p := by
  rintro field r rfl
  exact h field (r ++ mo) rfl

/-! ## The JSON form of an expression -/

namespace CedarExpr

variable {cond thenExpr elseExpr left value c : CedarExpr} {attr : String}

theorem estItems_eq (its : List CedarExpr) : estItems its = its.map est := by
  induction its with
  | nil => rfl
  | cons i r ih => rw [estItems, ih, map_cons]

theorem estFields_eq (fis : List (String × CedarExpr)) :
    estFields fis = fis.map fun field => (field.1, field.2.est) := by
  induction fis with
  | nil => rfl
  | cons field r ih => rw [estFields, ih, map_cons]

theorem lookup_estFields {fis : List (String × CedarExpr)} (h : fis.lookup attr = some value) :
    (estFields fis).lookup attr = some value.est := by
  induction fis with
  | nil => cases h
  | cons field r ih =>
    rw [estFields, lookup_cons]
    rw [lookup_cons] at h
    split at h
    · cases h
      rfl
    · exact ih h

variable {op : String} {os : List (String × Json)}

theorem contains_operand (h : c.est ∈ os.map Prod.snd) : Contains (.obj [(op, .obj os)]) c.est := by
  obtain ⟨⟨key, value⟩, ho, rfl⟩ := mem_map.1 h
  exact .field (mem_singleton.2 rfl) (.field ho .refl)

theorem contains_item {its : List CedarExpr}
    (h : c ∈ its) : Contains (.obj [(op, .arr (estItems its))]) c.est := by
  refine .field (mem_singleton.2 rfl) (.item ?_ .refl)
  rw [estItems_eq]
  exact mem_map_of_mem h

theorem contains_child {e : CedarExpr} (h : c ∈ e.children) : Contains e.est c.est := by
  cases e with
  | literal j => cases h
  | var v => cases h
  | set its | call fu ars => exact contains_item h
  | record fis =>
    obtain ⟨field, hf, rfl⟩ := mem_map.1 h
    refine contains_operand (mem_map_of_mem (f := Prod.snd) (a := (field.1, field.2.est)) ?_)
    rw [estFields_eq]
    exact mem_map_of_mem hf
  | getAttr left attr | hasAttr left attr | hasPath left attrs | unary op arg | like left pattern
  | is_ left et =>
    cases mem_singleton.1 h
    exact contains_operand (by simp)
  | and left right | or left right | binary op left right | isIn left et en =>
    rcases mem_pair.1 h with rfl | rfl
    all_goals exact contains_operand (by simp)
  | ite cond thenExpr elseExpr =>
    simp only [children, mem_cons, not_mem_nil, or_false] at h
    rcases h with rfl | rfl | rfl
    all_goals exact contains_operand (by simp)

theorem depth_operand_lt {o : Json} (key : String) (h : os.lookup key = some o) :
    o.depth < (Json.obj [(op, .obj os)]).depth := by
  have hop : (Json.obj [(op, .obj os)]).get? op = some (.obj os) := by simp [get?]
  calc o.depth
    _ < (Json.obj os).depth := depth_lt_of_get? h
    _ < (Json.obj [(op, .obj os)]).depth := depth_lt_of_get? hop

theorem depth_est_pos (e : CedarExpr) : 0 < e.est.depth := by
  cases e <;> simp [est, estBinary, depth]

end CedarExpr

/-! ## The origins of a receiver -/

section Receivers

variable {m : ManifestV2} {path : String} {fuel : Nat} {fs p : List String}

open CedarExpr PolicyContent

section Steps

variable (m path fuel fs) (left cond thenExpr elseExpr : CedarExpr) (attr : String)

theorem validateReceiverRefs_ite :
    validateReceiverRefs m path (fuel + 1) (ite cond thenExpr elseExpr).est fs = (do
      validateReceiverRefs m path fuel elseExpr.est fs
      validateReceiverRefs m path fuel thenExpr.est fs) := by
  simp [validateReceiverRefs, est, get?, index, lookup_cons_ite]

end Steps

theorem declared_of_context
    (h : validateReceiverRefs m path (fuel + 1) (var .context).est p = .ok ()) : Declared m p := by
  rintro field r rfl
  simpa [validateReceiverRefs, est, CedarVar.est, get?, lookup_cons_ite, asStr,
    require_eq_ok] using h

theorem declared_of_origin {e : CedarExpr} (h : e.Origin fs p) (hfu : e.est.depth ≤ fuel)
    (ho : validateReceiverRefs m path fuel e.est fs = .ok ()) : Declared m p := by
  induction fuel generalizing e fs with
  | zero => exact absurd hfu (Nat.not_le.2 e.depth_est_pos)
  | succ fuel ih =>
    cases h with
    | context => exact declared_of_context ho
    | @getAttr left attr _ _ h =>
      simp [validateReceiverRefs, est, get?, index, lookup_cons_ite, asStr] at ho
      have hl : left.est.depth < (getAttr left attr).est.depth :=
        depth_operand_lt "left" (by simp [lookup_cons_ite])
      exact ih h (by omega) ho
    | @thenExpr cond thenExpr elseExpr _ _ h =>
      rw [validateReceiverRefs_ite, bind_eq_ok] at ho
      obtain ⟨_, _, ho⟩ := ho
      have hl : thenExpr.est.depth < (ite cond thenExpr elseExpr).est.depth :=
        depth_operand_lt "then" (by simp [lookup_cons_ite])
      exact ih h (by omega) ho
    | @elseExpr cond thenExpr elseExpr _ _ h =>
      rw [validateReceiverRefs_ite, bind_eq_ok] at ho
      obtain ⟨_, ho, _⟩ := ho
      have hl : elseExpr.est.depth < (ite cond thenExpr elseExpr).est.depth :=
        depth_operand_lt "else" (by simp)
      exact ih h (by omega) ho
    | @record fis _ value _ _ hf h =>
      simp [validateReceiverRefs, est, get?, lookup_cons_ite, lookup_estFields hf] at ho
      have hl : value.est.depth < (record fis).est.depth := depth_operand_lt _ (lookup_estFields hf)
      exact ih h (by omega) ho

/-! ## The walk over a policy -/

theorem validateCustomItems_eq_ok {its : List Json} :
    validateCustomItems m path its = .ok () ↔ ∀ i ∈ its, validateCustomRefs m path i = .ok () := by
  induction its with
  | nil => simp [validateCustomItems]
  | cons i r ih => simp [validateCustomItems, bind_eq_ok, ih, and_comm]

theorem validateCustomFields_eq_ok {fis : List (String × Json)} :
    validateCustomFields m path fis = .ok () ↔
      ∀ field ∈ fis, validateCustomRefs m path field.2 = .ok () := by
  induction fis with
  | nil => simp [validateCustomFields]
  | cons field r ih => simp [validateCustomFields, bind_eq_ok, ih, and_comm]

/-- An accepted value contains only accepted values. -/
theorem validateCustomRefs_contains {j j' : Json}
    (ho : validateCustomRefs m path j = .ok ()) (h : Contains j j')
    : validateCustomRefs m path j' = .ok () := by
  induction h with
  | refl => exact ho
  | item hi _ ih =>
    rw [validateCustomRefs, validateCustomItems_eq_ok] at ho
    exact ih (ho _ hi)
  | field hf _ ih =>
    rw [validateCustomRefs, bind_eq_ok] at ho
    obtain ⟨_, -, hfl⟩ := ho
    exact ih (validateCustomFields_eq_ok.1 hfl _ hf)

/-- The walk has followed the receiver of an access or a `has`. -/
theorem receiver_checked {op : String} {o : Json} (hop : op ∈ [".", "has"])
    (hok : validateCustomRefs m path (.obj [(op, o)]) = .ok ()) :
    validateReceiverRefs m path (o.index "left").depth (o.index "left")
      (attributes o) = .ok () := by
  rw [validateCustomRefs, bind_eq_ok] at hok
  obtain ⟨_, ho, -⟩ := hok
  have hc := forM_eq_ok.1 ho op hop
  simpa [lookup_cons_ite] using hc

theorem declared_of_accesses {e : CedarExpr} (ho : validateCustomRefs m path e.est = .ok ())
    (h : e.Accesses p) : Declared m p := by
  induction h with
  | getAttr h | hasAttr h => exact declared_of_origin h (le_refl _) (receiver_checked (by simp) ho)
  | @hasPath left ats fs p hf h =>
    obtain ⟨mo, rfl⟩ := hf
    have hch := receiver_checked (by simp) ho
    simp only [attributes, index, get?, lookup_cons_ite] at hch
    exact (declared_of_origin (h.append mo) (le_refl _)
      (by simpa [asStr, Function.comp_def] using hch)).of_append
  | child hc _ ih => exact ih (validateCustomRefs_contains ho (contains_child hc))

end Receivers

/-! ## Accepted entries -/

section Entries

open CedarExpr PolicyContent

variable {engines : Engines} {fromValue : Json → Except String ManifestV2}

variable (engines fromValue) in
/-- The manifest of an entry and the JSON form of its only policy. -/
structure EntryPolicy (entry : Json) (manifest : ManifestV2) (est : Json) : Prop where
  manifest_eq : fromValue (entry.index "manifest") = .ok manifest
  policy_eq : ∃ source policy, (entry.index "policy").asStr = some source ∧
    engines.cedar.parsePolicySet source = .ok ⟨[policy], 0⟩ ∧
    engines.cedar.toJson policy = .ok est

variable {entry : Json} {id path : String}

theorem entryManifest_ok {manifest : ManifestV2}
    (h : entryManifest fromValue entry id path = .ok manifest) :
    fromValue (entry.index "manifest") = .ok manifest := by
  obtain ⟨_, -, h⟩ := bind_eq_ok.1 h
  obtain ⟨pa, hp, h⟩ := bind_eq_ok.1 h
  obtain ⟨_, -, h⟩ := bind_eq_ok.1 h
  obtain ⟨_, -, h⟩ := bind_eq_ok.1 h
  cases h
  exact mapError_eq_ok.1 hp

theorem singlePolicy_ok {po : CedarPolicy}
    {set : PolicySet} (h : singlePolicy set path = .ok po) : set = ⟨[po], 0⟩ :=
    by
  obtain ⟨_, ht, h⟩ := bind_eq_ok.1 h
  obtain ⟨ps, ts⟩ := set
  cases require_eq_ok.1 ht
  match ps with
  | [] => cases h
  | [_] =>
    cases h
    rfl
  | _ :: _ :: _ => cases h

theorem entrySource_ok {source : String}
    {ma : ManifestV2} (hm : fromValue (entry.index "manifest") = .ok ma)
    (h : entrySource engines entry id ma path = .ok source) :
    ∃ est, EntryPolicy engines fromValue entry ma est ∧
      validateCustomRefs ma path est = .ok () := by
  unfold entrySource at h
  split at h
  · cases h
  · next text ht =>
    obtain ⟨set, hs, h⟩ := bind_eq_ok.1 h
    obtain ⟨po, hp, h⟩ := bind_eq_ok.1 h
    obtain ⟨_, -, h⟩ := bind_eq_ok.1 h
    obtain ⟨est, he, h⟩ := bind_eq_ok.1 h
    obtain ⟨_, hr, -⟩ := bind_eq_ok.1 h
    cases singlePolicy_ok hp
    exact ⟨est, ⟨hm, text, po, ht, mapError_eq_ok.1 hs, mapError_eq_ok.1 he⟩, hr⟩

theorem validateEntry_ok {acc : Accepted} {i : Nat} {acc' : Accepted}
    (h : validateEntry engines fromValue acc entry i = .ok acc') :
    ∃ ma est, acc'.manifests = acc.manifests ++ [ma] ∧
      EntryPolicy engines fromValue entry ma est ∧
      ∃ path, validateCustomRefs ma path est = .ok () := by
  unfold validateEntry at h
  split at h
  · cases h
  · obtain ⟨ids, -, h⟩ := bind_eq_ok.1 h
    obtain ⟨ma, hm, h⟩ := bind_eq_ok.1 h
    obtain ⟨ci, -, h⟩ := bind_eq_ok.1 h
    obtain ⟨source, hs, h⟩ := bind_eq_ok.1 h
    obtain ⟨s, -, h⟩ := bind_eq_ok.1 h
    cases h
    obtain ⟨est, he, hr⟩ := entrySource_ok (entryManifest_ok hm) hs
    exact ⟨ma, est, rfl, he, _, hr⟩

theorem validatePolicies_entry {pa : Json} {ms : List ManifestV2}
    (h : validatePolicies engines fromValue pa = .ok ms) :
    ∃ entries, (pa.index "policies").asArray = some entries ∧
      ∀ entry ∈ entries, ∃ ma ∈ ms, ∃ est,
        EntryPolicy engines fromValue entry ma est ∧
        ∃ path, validateCustomRefs ma path est = .ok () := by
  obtain ⟨entries, hen, h⟩ := bind_eq_ok.1 h
  obtain ⟨_, -, h⟩ := bind_eq_ok.1 h
  obtain ⟨_, -, h⟩ := bind_eq_ok.1 h
  obtain ⟨acc, hl, h⟩ := bind_eq_ok.1 h
  obtain ⟨_, -, h⟩ := bind_eq_ok.1 h
  cases h
  have ha : (pa.index "policies").asArray = some entries := by
    unfold arrayAt at hen
    split at hen
    · cases hen
    · next ha => rwa [Except.ok.inj hen] at ha
  refine ⟨entries, ha, fun entry he => ?_⟩
  obtain ⟨i, hi⟩ : ∃ i, (entry, i) ∈ entries.zipIdx := by
    rw [← zipIdx_map_fst 0 entries] at he
    obtain ⟨⟨_, i⟩, hm, rfl⟩ := mem_map.1 he
    exact ⟨i, hm⟩
  obtain ⟨-, after, b, mid, -, -, hs, haf⟩ := foldlM_step_of_mem hl hi
  obtain ⟨ma, est, hmn, hp, hr⟩ := validateEntry_ok hs
  refine ⟨ma, ?_, est, hp, hr⟩
  -- the later iterations only append manifests
  refine foldlM_invariant (fun acc => ma ∈ acc.manifests) ?_ haf (by simp [hmn])
  intro acc pr acc' _ hm hpr
  obtain ⟨o, -, ho, -⟩ := validateEntry_ok hpr
  rw [ho]
  exact mem_append_left _ hm

/-- An expression of an accepted policy accesses no custom field that the manifest of its
entry does not declare, and no evaluation of it reads one. -/
theorem accepted_policy_declared {payload : Json} {manifests : List ManifestV2}
    (h : validatePolicies engines fromValue payload = .ok manifests) :
    ∃ entries, (payload.index "policies").asArray = some entries ∧
      ∀ entry ∈ entries, ∃ manifest ∈ manifests, ∃ est,
        EntryPolicy engines fromValue entry manifest est ∧
        ∀ e : CedarExpr, est.Contains e.est →
          (∀ p, e.Accesses p → Declared manifest p) ∧
          ∀ (V ε : Type) (alg : CedarAlgebra V ε), ∀ p ∈ e.reads alg, Declared manifest p := by
  obtain ⟨entries, hen, ha⟩ := validatePolicies_entry h
  refine ⟨entries, hen, fun entry het => ?_⟩
  obtain ⟨manifest, hm, est, hpo, path, hr⟩ := ha entry het
  refine ⟨manifest, hm, est, hpo, fun e he => ?_⟩
  have hac : ∀ p, e.Accesses p → Declared manifest p := fun p =>
    declared_of_accesses (validateCustomRefs_contains hr he)
  exact ⟨hac, fun V ε alg p hp => hac p (accesses_of_mem_reads hp)⟩

end Entries

/-! ## A policy that hides its reference -/

/-- `(if context has custom then {r: context.custom} else {r: {}}).r.label like "W*"`. -/
def labelExpr : CedarExpr :=
  .like (.getAttr (.getAttr (.ite (.hasAttr (.var .context) "custom")
    (.record [("r", .getAttr (.var .context) "custom")]) (.record [("r", .record [])])) "r")
    "label") (.str "W*")

/-- The JSON form of a policy with the expression as its only condition. -/
def labelEst : Json :=
  .obj [("conditions", .arr [.obj [("body", labelExpr.est), ("kind", .str "when")]]),
    ("effect", .str "forbid")]

def labelEngines : Engines := swapEngines { tableCedar [] with
  parsePolicySet := fun _ => .ok ⟨[⟨"policy0", [("id", "cap")], "forbid"⟩], 0⟩
  toJson := fun _ => .ok labelEst }

def labelPayload : Json :=
  .obj [("policies", .arr [.obj [("id", .str "cap"), ("policy", .str "forbid"),
    ("manifest", .obj [])]])]

theorem labelExpr_accesses : labelExpr.Accesses ["custom", "label"] :=
  .child (mem_singleton.2 rfl)
    (.getAttr (.getAttr (.thenExpr (.record rfl (.getAttr .context)))))

theorem contains_labelExpr : labelEst.Contains labelExpr.est :=
  .field (mem_cons_self ..) (.item (mem_cons_self ..)
    (.field (mem_cons_self ..) .refl))

theorem accepted_policy_declared_label : ∃ manifests,
    PolicyContent.validatePolicies labelEngines (fun _ => .ok (twoCallManifest "context"))
      labelPayload = .ok manifests ∧
    labelExpr.Accesses ["custom", "label"] ∧
    ∃ manifest ∈ manifests, Declared manifest ["custom", "label"] := by
  have hr : PolicyContent.validatePolicies labelEngines
      (fun _ => .ok (twoCallManifest "context")) labelPayload = .ok _ :=
    eq_ok_result _ (by decide +kernel)
  obtain ⟨entries, hen, ha⟩ := accepted_policy_declared hr
  cases hen
  obtain ⟨manifest, hm, est, hp, hd⟩ := ha _ (mem_singleton.2 rfl)
  obtain ⟨source, policy, -, -, he⟩ := hp.policy_eq
  cases he
  exact ⟨_, hr, labelExpr_accesses, manifest, hm,
    (hd labelExpr contains_labelExpr).1 _ labelExpr_accesses⟩

end Dambi
