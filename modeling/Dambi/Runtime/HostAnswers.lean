import Mathlib.Data.List.TakeWhile
import Dambi.Runtime.Boundary

/-!
# Malformed host answers

An output of a required call should either be written as a legal Cedar value of
its projection type or fail the bundle; an output of an optional call that has
no legal value should count as absent. Coercion checks every type but one: a
decimal is only known to be a string, and Cedar rejects a malformed one when it
builds the context, after the fail-closed class of errors has been left behind.
-/

namespace Dambi

open Fallible List PlannedCallV2 Option Json

/-! ## Legal values -/

/-- A legal Cedar value of a projection type, where `accepts` are the strings of
Cedar's decimal constructor. -/
def LegalValue (accepts : String → Bool) : ProjectionType → Json → Prop
  | .string, .str _ => True
  | .long, .int n => -2 ^ 63 ≤ n ∧ n < 2 ^ 63
  | .bool, .bool _ => True
  | .decimal, value => ∃ s, value = decimalJson s ∧ accepts s = true
  | .setString, .arr items => ∀ item ∈ items, ∃ s, item = .str s
  | _, _ => False

def ContextProjection.Projectable (accepts : String → Bool) (output : ContextProjection)
    (payload : Json) : Prop :=
  ∃ value, output.project payload = .ok value ∧ LegalValue accepts output.typeName value

section Legal

variable {accepts : String → Bool}

private theorem materializeEntries_legal {entries out : List Json}
    (h : materializeEntries entries = .ok out) :
    ∀ i ∈ out, ∃ s, i = .str s := by
  induction entries generalizing out with
  | nil =>
    obtain rfl : [] = out := by simpa [materializeEntries] using h
    simp
  | cons entry r ih =>
    unfold materializeEntries at h
    split at h
    · cases h
    · next s hs =>
      obtain ⟨tail, ht, h⟩ := bind_eq_ok.1 h
      obtain rfl : .str s :: tail = out := by simpa using h
      rw [forall_mem_cons]
      exact ⟨⟨s, rfl⟩, ih ht⟩

private theorem long_inRange {value : Json} {n : Int}
    (h : (value.asI64 <|> (value.asU64.bind fun v =>
      if v < 2 ^ 63 then some (v : Int) else none)) = some n) : -2 ^ 63 ≤ n ∧ n < 2 ^ 63 := by
  cases value with
  | int m =>
    simp only [asI64, asU64] at h
    split at h
    · next hm =>
      obtain rfl : m = n := by simpa using h
      exact hm
    · next hm =>
      split at h
      · next hu =>
        simp only [bind_some] at h
        split at h
        · next hl =>
          obtain rfl : (m.toNat : Int) = n := by simpa using h
          omega
        · simp at h
      · simp at h
  | _ => simp [asI64, asU64] at h

theorem materializeValue_legal {value out : Json}
    {t : ProjectionType} (h : materializeValue value t = .ok out) :
    LegalValue accepts t out ∨ (t = .decimal ∧ ∃ s, out = decimalJson s ∧ accepts s = false) := by
  cases t with
  | string | bool =>
    simp only [materializeValue] at h
    split at h
    · cases h
      exact .inl trivial
    · cases h
  | long =>
    simp only [materializeValue] at h
    split at h
    · next n hn =>
      cases h
      exact .inl (long_inRange hn)
    · cases h
  | decimal =>
    simp only [materializeValue] at h
    split at h
    · next s _ =>
      cases h
      cases hs : accepts s with
      | true => exact .inl ⟨s, rfl, hs⟩
      | false => exact .inr ⟨rfl, s, rfl, hs⟩
    · cases h
  | setString =>
    simp only [materializeValue] at h
    split at h
    · cases h
    · obtain ⟨-, -, h⟩ := bind_eq_ok.1 h
      obtain ⟨its, hi, h⟩ := bind_eq_ok.1 h
      cases h
      exact .inl (materializeEntries_legal hi)
  | usdValuation => cases h
  | windowStats => cases h

theorem decimalJson_injective {s t : String} (h : decimalJson s = decimalJson t) : s = t := by
  simpa [decimalJson] using h

end Legal

/-! ## Absent outputs -/

/-- The output with a selector that finds no value in any answer. -/
def ContextProjection.absent (output : ContextProjection) : ContextProjection :=
  { output with source := "" }

/-- The call as it is when the host's answer has nothing for the output of the
given field. -/
def PlannedCallV2.withAbsent (field : String) (call : PlannedCallV2) : PlannedCallV2 :=
  { call with outputs := call.outputs.map fun output =>
      if output.field = field then output.absent else output }

def Step.keeps (field : String) : Step → Bool
  | .write f _ _ _ => f ≠ field
  | .fail _ => true

@[simp] theorem Step.keeps_fail (field : String) (e : PolicyRpcError) :
    (Step.fail e).keeps field = true := rfl

@[simp] theorem Step.keeps_write (field f : String) (t : ProjectionType) (o : Bool)
    (value : Json) : (Step.write f t o value).keeps field = decide (f ≠ field) := rfl

section Absent

variable {call : PlannedCallV2} {results : BTreeMap String Json} {field : String}

theorem mem_steps_write {op : Bool} {t : ProjectionType} {value : Json} :
    .write field t op value ∈ call.steps results ↔
      call.optional = op ∧ ∃ p, results[call.callId]? = some p ∧
        ∃ o ∈ call.outputs, o.kind = "context" ∧ o.field = field ∧
          o.typeName = t ∧ o.project p = .ok value := by
  unfold PlannedCallV2.steps
  cases results[call.callId]? with
  | none => cases ho : call.optional <;> simp
  | some p =>
    simp only [mem_filterMap, some.injEq, exists_eq_left']
    constructor
    · rintro ⟨o, hou, hs⟩
      unfold outputStep at hs
      split at hs
      · next hk =>
        split at hs
        · next v hv =>
          simp only [some.injEq, Step.write.injEq] at hs
          obtain ⟨hf, ht, ho, rfl⟩ := hs
          exact ⟨ho, o, hou, hk, hf, ht, hv⟩
        · split at hs <;> simp at hs
      · simp at hs
    · rintro ⟨ho, o, hou, hk, rfl, rfl, hv⟩
      exact ⟨o, hou, by simp [outputStep, hk, hv, ho]⟩

@[simp] theorem ContextProjection.absent_kind (o : ContextProjection) :
    o.absent.kind = o.kind := rfl

theorem ContextProjection.project_absent (o : ContextProjection) (p : Json) :
    o.absent.project p = .error (.selector "selector must start with `$.`: ") := rfl

private theorem outputStep_withAbsent {o : ContextProjection} {p : Json}
    (ho : o.field = field → call.optional = true) :
    (call.withAbsent field).outputStep p
        (if o.field = field then o.absent else o) =
      (call.outputStep p o).filter (Step.keeps field) := by
  by_cases hk : o.kind = "context"
  · by_cases hf : o.field = field
    · cases hp : o.project p <;>
        simp [outputStep, withAbsent, hk, hf, hp,
          ho hf, o.project_absent, filter_some]
    · cases hp : o.project p with
      | ok value =>
        simp [outputStep, withAbsent, hk, hf, hp, filter_some]
      | error e =>
        cases hc : call.optional <;>
          simp [outputStep, withAbsent, hk, hf, hp,
            hc, filter_some]
  · by_cases hf : o.field = field <;>
      simp [outputStep, hk, hf, filter_some]

theorem steps_withAbsent
    (ho : ∀ output ∈ call.outputs, output.field = field → call.optional = true) :
    (call.withAbsent field).steps results = (call.steps results).filter (Step.keeps field) := by
  unfold PlannedCallV2.steps
  have hi : (call.withAbsent field).callId = call.callId := rfl
  rw [hi]
  cases results[call.callId]? with
  | none =>
    have hs : (call.withAbsent field).optional = call.optional := rfl
    cases hc : call.optional <;> simp [hs, hc, filter_cons]
  | some p =>
    have hot : (call.withAbsent field).outputs = call.outputs.map fun output =>
        if output.field = field then output.absent else output := rfl
    simp only [hot, filterMap_map, filter_filterMap]
    refine filterMap_congr fun output hou => ?_
    exact outputStep_withAbsent (ho output hou)

theorem firstFailure_filter_keeps (steps : List Step) :
    firstFailure (steps.filter (Step.keeps field)) = firstFailure steps := by
  induction steps with
  | nil => rfl
  | cons step r ih =>
    cases step with
    | fail e => simp [filter_cons]
    | write f t o value =>
      by_cases hf : f = field <;> simp [hf, ih]

theorem writes_filter_keeps (steps : List Step) :
    writes (steps.filter (Step.keeps field)) = (writes steps).filter (·.1 ≠ field) := by
  induction steps with
  | nil => rfl
  | cons step r ih =>
    cases step with
    | fail e => simp [filter_cons, ih]
    | write f t o value =>
      by_cases hf : f = field <;> simp [hf, ih]

theorem output_unique {call' : PlannedCallV2} {output output' : ContextProjection}
    {cs : List PlannedCallV2}
    (hn : (cs.flatMap fun call => call.outputs.map (·.field)).Nodup) (hc : call ∈ cs)
    (hc' : call' ∈ cs) (ho : output ∈ call.outputs) (ho' : output' ∈ call'.outputs)
    (hf : output.field = output'.field) : call = call' ∧ output = output' := by
  have hp : ((cs.flatMap fun call => call.outputs.map fun output =>
      (call, output)).map fun p => p.2.field).Nodup := by
    rw [map_flatMap]
    simp only [List.map_map]
    exact hn
  have hm : (call, output) ∈ cs.flatMap fun call =>
      call.outputs.map fun output => (call, output) :=
    mem_flatMap.2 ⟨call, hc, List.mem_map.2 ⟨output, ho, rfl⟩⟩
  have hm' : (call', output') ∈ cs.flatMap fun call =>
      call.outputs.map fun output => (call, output) :=
    mem_flatMap.2 ⟨call', hc', List.mem_map.2 ⟨output', ho', rfl⟩⟩
  simpa using inj_on_of_nodup_map hp hm hm' hf

end Absent

/-! ## Cedar on a rejected decimal -/

/-- `Context::from_json_value` builds no context out of a decimal under `custom`
that the decimal constructor rejects. -/
def Cedar.ChecksDecimals (cedar : Cedar) (accepts : String → Bool) : Prop :=
  ∀ fields custom field s, fields.lookup "custom" = some (.obj custom) →
    custom.lookup field = some (decimalJson s) → accepts s = false →
    ∃ message, cedar.contextFromJson (.obj fields) = .error message

section Rejected

variable {engines : Engines} {accepts : String → Bool} {bundle : BundleInput} {tx : TxInput}
  {lowered : LoweredAction}

theorem withCustom_lookup {fs ws : List (String × Json)} (h : ws ≠ []) :
    ∃ fs', withCustom fs ws = .obj fs' ∧
      fs'.lookup "custom" = some (.obj (customFields ws)) := by
  cases ws with
  | nil => exact absurd rfl h
  | cons w r => exact ⟨_, rfl, by rw [lookup_insertField, if_pos rfl]⟩

theorem evaluatePolicy_of_context_error {context : Json} {message : String}
    (h : engines.cedar.contextFromJson context = .error message) (verdict : Verdict) :
    evaluatePolicy engines bundle tx lowered context ≠ .ok verdict := by
  intro ho
  simp only [evaluatePolicy, bind_eq_ok, mapError_eq_ok, PolicyEngine.evaluate] at ho
  obtain ⟨s, -, engine, -, -, -, -, -, -, -, -, -, ⟨⟩, hc, -⟩ := ho
  rw [h] at hc
  cases hc

theorem policyVerdict_of_rejected (hc : engines.cedar.ChecksDecimals accepts)
    {ws : List (String × Json)} (hn : (ws.map Prod.fst).Nodup) {field s : String}
    (hm : (field, decimalJson s) ∈ ws) (hr : accepts s = false) :
    (policyVerdict engines bundle tx lowered (withCustom lowered.fields ws)).isFailure = false := by
  obtain ⟨fs, hco, hcu⟩ := @withCustom_lookup lowered.fields ws (ne_nil_of_mem hm)
  obtain ⟨message, he⟩ := hc fs _ field s hcu
    (lookup_customFields_of_mem hn hm) hr
  rw [← hco] at he
  unfold policyVerdict
  cases hp : evaluatePolicy engines bundle tx lowered (withCustom lowered.fields ws) with
  | ok verdict => exact absurd hp (evaluatePolicy_of_context_error he verdict)
  | error e => rfl

end Rejected

/-! ## The exact condition -/

/-- The steps that run: those before the first failure. -/
def performed (steps : List Step) : List Step := steps.takeWhile (·.failure?.isNone)

/-- What the runtime should make of the host's answers to a bundle's calls. -/
structure HostAnswersHandled (engines : Engines) (accepts : String → Bool) (action : ActionBody)
    (tx : TxInput) (lowered : LoweredAction) (planned : List PlannedCallV2)
    (results : BTreeMap String Json) (bundle : BundleInput) : Prop where
  /-- Required calls write legal values only, or the bundle fails. -/
  required :
    (∀ field type value,
      .write field type false value ∈ performed ((planned.filter
        (·.manifestId = bundle.manifest.id)).flatMap (·.steps results)) →
      LegalValue accepts type value) ∨
    ∃ matched, bundleVerdict engines action tx lowered planned results bundle =
      some (.fail matched)
  /-- An output of an optional call without a legal value counts as absent. -/
  optional : ∀ call ∈ planned.filter (·.manifestId = bundle.manifest.id), call.optional = true →
    ∀ payload, results[call.callId]? = some payload →
      ∀ output ∈ call.outputs, ¬ output.Projectable accepts payload →
        bundleVerdict engines action tx lowered planned results bundle =
          bundleVerdict engines action tx lowered
            (planned.map (PlannedCallV2.withAbsent output.field)) results bundle

/-- Every decimal the steps write is accepted. Steps that fail closed need not
care, and steps that end in another failure only about required calls. -/
def DecimalsAccepted (accepts : String → Bool) (steps : List Step) : Prop :=
  match firstFailure steps with
  | some (.systemFail _ _) => True
  | some _ => ∀ field s, .write field .decimal false (decimalJson s) ∈ performed steps →
      accepts s = true
  | none => ∀ field optional s, .write field .decimal optional (decimalJson s) ∈ steps →
      accepts s = true

/-- The steps of a bundle's calls. -/
abbrev BundleInput.steps (bundle : BundleInput) (roots : SelectorRoots)
    (results : BTreeMap String Json) : List Step :=
  (bundle.manifest.plannedCalls roots).flatMap (·.steps results)

theorem mem_of_mem_performed {step : Step}
    {steps : List Step} (h : step ∈ performed steps) : step ∈ steps :=
  (takeWhile_sublist _).subset h

theorem performed_of_firstFailure_none {steps : List Step} (h : firstFailure steps = none) :
    performed steps = steps := by
  rw [performed, takeWhile_eq_self_iff]
  intro step hs
  have hn := findSome?_eq_none_iff.1 h step hs
  simp [hn]

section Handled

variable {engines : Engines} {accepts : String → Bool} {action : ActionBody} {tx : TxInput}
  {lowered : LoweredAction} {planned : List PlannedCallV2} {results : BTreeMap String Json}
  {bundle : BundleInput} {roots : SelectorRoots}

variable {cs : List PlannedCallV2}

variable {call : PlannedCallV2} {field : String}

theorem steps_map_withAbsent (hf : (cs.flatMap fun call => call.outputs.map (·.field)).Nodup)
    (hc : call ∈ cs) (ho : call.optional = true) {o : ContextProjection} (hou : o ∈ call.outputs) :
    (cs.map (PlannedCallV2.withAbsent o.field)).flatMap (·.steps results) =
      (cs.flatMap (·.steps results)).filter (Step.keeps o.field) := by
  rw [flatMap_map, filter_flatMap]
  refine flatMap_congr fun call' hc' => steps_withAbsent fun o' hou' hfl => ?_
  obtain ⟨rfl, -⟩ := output_unique hf hc hc' hou hou' hfl.symm
  exact ho

theorem legal_of_accepted {t : ProjectionType} {value : Json} {o : Bool}
    (h : .write field t o value ∈ cs.flatMap (·.steps results))
    (ha : ∀ s, t = .decimal → value = decimalJson s → accepts s = true) :
    LegalValue accepts t value := by
  obtain ⟨call, -, hs⟩ := mem_flatMap.1 h
  obtain ⟨-, p, -, ou, -, -, -, rfl, hp⟩ := mem_steps_write.1 hs
  obtain ⟨selected, -, hp⟩ := bind_eq_ok.1 hp
  rcases materializeValue_legal hp with h | ⟨ht, s, hv, hr⟩
  · exact h
  · rw [ha s ht hv] at hr
    cases hr

/-- Where every write is legal, an output without a legal value is not written. -/
theorem field_ne_of_unprojectable {payload : Json} {o : ContextProjection} {t : ProjectionType}
    {op : Bool} (hf : (cs.flatMap fun call => call.outputs.map (·.field)).Nodup)
    (hc : call ∈ cs) (hp : results[call.callId]? = some payload) (ho : o ∈ call.outputs)
    (hb : ¬ o.Projectable accepts payload) {value : Json}
    (hs : .write field t op value ∈ cs.flatMap (·.steps results)) (hl : LegalValue accepts t value)
    : field ≠ o.field := by
  rintro rfl
  obtain ⟨call', hc', hs'⟩ := mem_flatMap.1 hs
  obtain ⟨-, payload', hp', o', ho', -, hfl, rfl, hpr⟩ := mem_steps_write.1 hs'
  obtain ⟨rfl, rfl⟩ := output_unique hf hc' hc ho' ho hfl
  obtain rfl : payload' = payload := by simpa [hp'] using hp
  exact hb ⟨value, hpr, hl⟩

variable (happ : bundle.manifest.applies action.view tx.view = true)
  (hwf : bundle.manifest.WellFormed)
  (hpl : planned.filter (·.manifestId = bundle.manifest.id) =
    bundle.manifest.plannedCalls roots)

include happ hwf hpl

theorem bundleVerdict_withAbsent (hc : call ∈ bundle.manifest.plannedCalls roots)
    (ho : call.optional = true) {o : ContextProjection} (hou : o ∈ call.outputs) :
    bundleVerdict engines action tx lowered (planned.map (PlannedCallV2.withAbsent o.field))
        results bundle =
      some (stepsVerdict engines bundle tx lowered
        ((bundle.steps roots results).filter
          (Step.keeps o.field))) := by
  have hs := @steps_map_withAbsent results _ _ (plannedCalls_fields_nodup hwf roots) hc
    ho o hou
  have hf : (planned.map (withAbsent o.field)).filter
      (·.manifestId = bundle.manifest.id) =
      (bundle.manifest.plannedCalls roots).map (withAbsent o.field) := by
    rw [List.filter_map, ← hpl]
    rfl
  have hw : ((writes (((bundle.manifest.plannedCalls roots).map
      (withAbsent o.field)).flatMap (·.steps results))).map Prod.fst).Nodup := by
    rw [hs, writes_filter_keeps]
    exact (plannedCalls_writes_nodup hwf roots results).sublist (filter_sublist.map _)
  rw [bundleVerdict_eq engines happ hwf hf hw, hs]

theorem required_of_accepted (ha : DecimalsAccepted accepts (bundle.steps roots results)) :
    (∀ field t value, .write field t false value ∈
        performed (bundle.steps roots results) →
      LegalValue accepts t value) ∨
    ∃ matched, bundleVerdict engines action tx lowered planned results bundle =
      some (.fail matched) := by
  unfold DecimalsAccepted at ha
  cases hf : firstFailure (bundle.steps roots results) with
  | none =>
    rw [hf] at ha
    refine .inl fun field t value hm => legal_of_accepted (mem_of_mem_performed hm) ?_
    rintro s rfl rfl
    exact ha field false s (mem_of_mem_performed hm)
  | some e =>
    cases e with
    | systemFail ci r =>
      rw [bundleVerdict_of_usable engines happ hwf hpl, stepsVerdict_of_failure engines hf]
      exact .inr ⟨_, rfl⟩
    | _ =>
      rw [hf] at ha
      refine .inl fun field t value hm => legal_of_accepted (mem_of_mem_performed hm) ?_
      rintro s rfl rfl
      exact ha field s hm

theorem handled_of_accepted (ha : DecimalsAccepted accepts (bundle.steps roots results)) :
    HostAnswersHandled engines accepts action tx lowered planned results bundle := by
  refine ⟨hpl ▸ required_of_accepted happ hwf hpl ha, ?_⟩
  rw [hpl]
  intro call hc ho p hp ou hou hb
  rw [bundleVerdict_of_usable engines happ hwf hpl, bundleVerdict_withAbsent happ hwf hpl hc ho hou]
  have hk := @firstFailure_filter_keeps ou.field (bundle.steps roots results)
  unfold DecimalsAccepted at ha
  cases hf : firstFailure (bundle.steps roots results) with
  | some er =>
    rw [stepsVerdict_of_failure engines hf, stepsVerdict_of_failure engines (hk.trans hf)]
  | none =>
    rw [hf] at ha
    rw [stepsVerdict_of_none engines hf, stepsVerdict_of_none engines (hk.trans hf),
      writes_filter_keeps, filter_eq_self.2]
    -- the output was not written in the first place
    rintro ⟨field, value⟩ hw
    obtain ⟨step, hs, hva⟩ := mem_filterMap.1 hw
    cases step with
    | fail e => cases hva
    | write f t o v =>
      obtain ⟨rfl, rfl⟩ : f = field ∧ v = value := by simpa [Step.write?] using hva
      have hl : LegalValue accepts t v := legal_of_accepted hs
        fun s ht hv => ha f o s (ht ▸ hv ▸ hs)
      have hn := field_ne_of_unprojectable (plannedCalls_fields_nodup hwf roots) hc hp
        hou hb hs hl
      simpa using hn

end Handled

/-! ## A Cedar that tells an absent field apart -/

variable (accepts : String → Bool)

def isRejected : Json → Bool
  | .obj [("__extn", .obj [("arg", .str s), ("fn", .str "decimal")])] => !accepts s
  | _ => false

/-- A Cedar with no policies that rejects a context exactly for a rejected
decimal, and says whether the field was there. -/
def probeCedar (field : String) : Cedar :=
  { tableCedar [] with
    parsePolicySet := fun _ => .ok { policies := [] }
    contextFromJson := fun context =>
      match (context.index "custom").asObject with
      | none => .ok ()
      | some custom =>
        if custom.any (isRejected accepts ·.2) then
          .error (if (custom.lookup field).isSome then "present" else "absent")
        else .ok () }

def probeEngines (field : String) : Engines :=
  swapEngines (probeCedar accepts field)

section Probe

variable {accepts : String → Bool} {field : String}

private theorem mem_of_lookup {custom : List (String × Json)} {value : Json}
    (h : custom.lookup field = some value) : (field, value) ∈ custom := by
  obtain ⟨b, after, rfl, -⟩ := lookup_eq_some_iff.1 h
  simp

theorem probeCedar_checksDecimals : (probeCedar accepts field).ChecksDecimals accepts := by
  intro fs c f s hc hf hr
  have ha : c.any (isRejected accepts ·.2) = true :=
    List.any_eq_true.2 ⟨_, mem_of_lookup hf, by simp [isRejected, decimalJson, hr]⟩
  exact ⟨_, by simp [probeCedar, Json.index, Json.get?, hc, asObject, ha]; rfl⟩

theorem policyVerdict_probe (bundle : BundleInput) (tx : TxInput) (lowered : LoweredAction)
    (context : Json) :
    policyVerdict (probeEngines accepts field) bundle tx lowered context =
      match (probeCedar accepts field).contextFromJson context with
      | .ok () => .pass
      | .error message => quarantineVerdict ⟨"policy", (PolicyError.context message).display⟩ := by
  unfold policyVerdict evaluatePolicy PolicyEngine.evaluate
  cases h : (probeCedar accepts field).contextFromJson context <;>
    simp [probeEngines, swapEngines, h] <;> rfl

theorem PolicyError.display_context_inj {message message' : String} :
    (PolicyError.context message).display = (PolicyError.context message').display ↔
      message = message' := by
  unfold PolicyError.display
  exact String.append_right_inj _

theorem PolicyError.display_context_ne_empty (message : String) :
    (PolicyError.context message).display ≠ "" := by
  intro h
  unfold PolicyError.display at h
  have hl := congrArg String.length h
  have ht : (toString "failed to build Cedar context: ").length = 31 := rfl
  rw [String.length_append, ht, String.length_empty] at hl
  omega

theorem quarantineVerdict_context_reason (message : String) :
    (quarantineVerdict ⟨"policy", (PolicyError.context message).display⟩).matched.map (·.reason) =
      [some (PolicyError.context message).display] := by
  simp [quarantineVerdict, Verdict.matched, if_neg (PolicyError.display_context_ne_empty message)]

theorem policyVerdict_probe_ne (bundle : BundleInput) (tx : TxInput) (lowered : LoweredAction)
    {ws : List (String × Json)} (hno : (ws.map Prod.fst).Nodup) {s : String}
    (hm : (field, decimalJson s) ∈ ws) (hre : accepts s = false) :
    policyVerdict (probeEngines accepts field) bundle tx lowered (withCustom lowered.fields ws) ≠
      policyVerdict (probeEngines accepts field) bundle tx lowered
        (withCustom lowered.fields (ws.filter (·.1 ≠ field))) := by
  have hl := lookup_customFields_of_mem hno hm
  obtain ⟨fs, hc, hcu⟩ := @withCustom_lookup lowered.fields ws (ne_nil_of_mem hm)
  have ha : (customFields ws).any (isRejected accepts ·.2) = true :=
    List.any_eq_true.2 ⟨_, mem_of_lookup hl, by simp [isRejected, decimalJson, hre]⟩
  have hp : (probeCedar accepts field).contextFromJson (withCustom lowered.fields ws) =
      .error "present" := by
    simp [hc, probeCedar, Json.index, Json.get?, hcu, asObject, ha, hl]
  have hab : (probeCedar accepts field).contextFromJson
      (withCustom lowered.fields (ws.filter (·.1 ≠ field))) ≠ .error "present" := by
    have hn : (customFields (ws.filter (·.1 ≠ field))).lookup field = none :=
      lookup_customFields_of_not_mem (by simp)
    cases hws : ws.filter (·.1 ≠ field) with
    | nil =>
      simp [withCustom, probeCedar, Json.index, Json.get?, lowered.noCustom, asObject]
    | cons w r =>
      rw [hws] at hn
      obtain ⟨fs', hc', hcu'⟩ := @withCustom_lookup lowered.fields (w :: r) (by simp)
      rw [hc']
      simp only [probeCedar, Json.index, Json.get?, hcu', getD_some, asObject, hn]
      split <;> simp
  rw [policyVerdict_probe, policyVerdict_probe, hp]
  intro heq
  cases h : (probeCedar accepts field).contextFromJson
      (withCustom lowered.fields (ws.filter (·.1 ≠ field))) with
  | ok u =>
    rw [h] at heq
    have hw := congrArg Verdict.isWarning heq
    change true = false at hw
    cases hw
  | error message =>
    rw [h] at heq
    have hr := congrArg (fun verdict => verdict.matched.map (·.reason)) heq
    simp only [quarantineVerdict_context_reason, List.cons.injEq, some.injEq, and_true,
      PolicyError.display_context_inj] at hr
    exact hab (hr ▸ h)

end Probe

section Exact

variable {accepts : String → Bool} {action : ActionBody} {tx : TxInput}
  {lowered : LoweredAction} {planned : List PlannedCallV2} {results : BTreeMap String Json}
  {bundle : BundleInput}

private theorem mem_writes {field : String} {t : ProjectionType} {o : Bool} {value : Json}
    {steps : List Step} (h : .write field t o value ∈ steps) :
    (field, value) ∈ writes steps :=
  mem_filterMap.2 ⟨_, h, rfl⟩

variable {s : String}

theorem not_projectable_of_rejected {payload : Json}
    {o : ContextProjection} (hty : o.typeName = .decimal)
    (hp : o.project payload = .ok (decimalJson s)) (hr : accepts s = false) :
    ¬ o.Projectable accepts payload := by
  rintro ⟨value, hv, hl⟩
  obtain rfl : decimalJson s = value := by simpa [hp] using hv
  rw [hty] at hl
  obtain ⟨t, ht, ha⟩ := hl
  rw [← decimalJson_injective ht, hr] at ha
  cases ha

theorem accepted_of_required {cs : List PlannedCallV2} {engines : Engines} {field : String}
    (hpl : planned.filter (·.manifestId = bundle.manifest.id) = cs)
    (hh : HostAnswersHandled engines accepts action tx lowered planned results bundle)
    (hn : ∀ matched, bundleVerdict engines action tx lowered planned results bundle ≠
      some (.fail matched)) (hm : .write field .decimal false (decimalJson s) ∈
      performed (cs.flatMap (·.steps results))) : accepts s = true := by
  have hr := hh.required
  rw [hpl] at hr
  rcases hr with hl | ⟨matched, hf⟩
  · obtain ⟨t, ht, ha⟩ := hl field .decimal _ hm
    rwa [decimalJson_injective ht]
  · exact absurd hf (hn matched)

theorem accepted_of_handled (happ : bundle.manifest.applies action.view tx.view = true)
    (hwf : bundle.manifest.WellFormed) {roots : SelectorRoots}
    (hpl : planned.filter (·.manifestId = bundle.manifest.id) = bundle.manifest.plannedCalls roots)
    (hh : ∀ engines : Engines, engines.cedar.ChecksDecimals accepts →
      HostAnswersHandled engines accepts action tx lowered planned results bundle) :
    DecimalsAccepted accepts (bundle.steps roots results) := by
  have hv engines := @bundleVerdict_of_usable engines action tx lowered planned results
    bundle happ hwf roots hpl
  have hp field := hh (probeEngines accepts field) probeCedar_checksDecimals
  have hno := plannedCalls_writes_nodup hwf roots results
  unfold DecimalsAccepted
  cases hfi : firstFailure (bundle.steps roots results) with
  | some e =>
    cases e with
    | systemFail ci r => trivial
    | _ =>
      intro field s hm
      refine accepted_of_required hpl (hp field) ?_ hm
      intro matched hf
      rw [hv, stepsVerdict_of_failure _ hfi] at hf
      cases hf
  | none =>
    intro field op s hm
    by_contra hs
    have hr : accepts s = false := by simpa using hs
    cases op with
    | false =>
      rw [← performed_of_firstFailure_none hfi] at hm
      refine hs (accepted_of_required hpl (hp field) ?_ hm)
      intro matched hf
      rw [hv, stepsVerdict_of_none _ hfi] at hf
      have hn := @policyVerdict_of_rejected (probeEngines accepts field) accepts bundle tx
        lowered probeCedar_checksDecimals _ hno field s
        (mem_writes (mem_of_mem_performed hm)) hr
      rw [some.inj hf] at hn
      cases hn
    | true =>
      obtain ⟨call, hc, hst⟩ := mem_flatMap.1 hm
      obtain ⟨ho, p, hpa, o, hou, -, rfl, ht, hpr⟩ := mem_steps_write.1 hst
      have hb := not_projectable_of_rejected ht hpr hr
      have heq := (hp o.field).optional call (hpl ▸ hc) ho p hpa
        o hou hb
      rw [hv, bundleVerdict_withAbsent happ hwf hpl hc ho hou,
        stepsVerdict_of_none _ hfi,
        stepsVerdict_of_none _ ((firstFailure_filter_keeps _).trans hfi),
        writes_filter_keeps] at heq
      exact policyVerdict_probe_ne bundle tx lowered hno (mem_writes hm) hr
        (some.inj heq)

/-- The runtime handles the host's answers to a usable bundle's calls, under every
Cedar that checks decimals, exactly when the decimals it writes are accepted. -/
theorem hostAnswers_handled_iff {bundles : List BundleInput} {manifests : List ManifestV2}
    (hmanifests : matchingValidManifests (bundles.map (·.manifest)) action tx = .ok manifests)
    (hplan : planPolicyRpcV2 manifests action.view lowered.context tx.view = .ok planned)
    (hbundle : bundle ∈ bundles) (happ : bundle.manifest.applies action.view tx.view = true)
    (hvalid : bundle.manifest.validate = .ok ()) :
    (∀ engines : Engines, engines.cedar.ChecksDecimals accepts →
        HostAnswersHandled engines accepts action tx lowered planned results bundle) ↔
      DecimalsAccepted accepts ((bundle.manifest.plannedCalls
        (planningRoots lowered.context tx.view)).flatMap (·.steps results)) := by
  have hwf : bundle.manifest.WellFormed := bundle.manifest.validate_eq_ok.1 hvalid
  have hpl := planned_filter_of_usable hmanifests hplan hbundle happ hwf
  exact ⟨accepted_of_handled happ hwf hpl, fun ha _ _ => handled_of_accepted happ hwf hpl ha⟩

end Exact

/-! ## A malformed decimal -/

/-- The strings of Cedar's decimal constructor: an optional sign, digits, and one
to four digits after the point, in the range of a scaled `i64`. -/
def decimalLiteral (s : String) : Bool :=
  match s.toList.splitOn '.' with
  | [whole, fraction] =>
    let negative := whole.head? = some '-'
    let digits := if negative then whole.tail else whole
    let scaled := (digits ++ fraction ++ List.replicate (4 - fraction.length) '0').foldl
      (fun n c => 10 * n + (c.toNat - '0'.toNat)) 0
    digits ≠ [] && digits.all Char.isDigit && fraction ≠ [] && fraction.length ≤ 4 &&
      fraction.all Char.isDigit && scaled < 2 ^ 63 + (if negative then 1 else 0)
  | _ => false

/-- The host answered both calls, the required one with the given amount. -/
def usdResults (usd : String) : BTreeMap String Json :=
  .ofList [("cap::label", Json.obj [("label", .str "WETH")]),
    ("cap::usd", Json.obj [("usd", .str usd)])]

def usdInput (usd : String) : EvaluateActionInput :=
  { labelOnlyInput "context" with results := usdResults usd }

def capBundle : BundleInput := ⟨"forbid(principal, action, resource);", twoCallManifest "context"⟩

def capCalls : List PlannedCallV2 :=
  (twoCallManifest "context").plannedCalls (planningRoots swapLowered.context swapTx.view)

/-- A well-formed amount is handled. -/
theorem wellFormed_decimal_handled :
    HostAnswersHandled (probeEngines decimalLiteral "inputUsd") decimalLiteral swapAction swapTx
      swapLowered capCalls (usdResults "12.5") capBundle := by
  refine (@hostAnswers_handled_iff decimalLiteral swapAction swapTx swapLowered capCalls
    (usdResults "12.5") capBundle [capBundle] [twoCallManifest "context"] rfl rfl
    mem_cons_self rfl rfl).2 ?_ _ probeCedar_checksDecimals
  intro field optional s hm
  have hs : .write field .decimal optional (decimalJson s) ∈
      [Step.write "label" .string true (.str "WETH"),
        .write "inputUsd" .decimal false (decimalJson "12.5")] := hm
  simp only [mem_cons, Step.write.injEq, reduceCtorEq, false_and, and_false, true_and,
    not_mem_nil, or_false, false_or] at hs
  rw [decimalJson_injective hs.2.2]
  decide

/-- The required amount `abc` is no Cedar decimal, yet the bundle only warns. -/
theorem malformed_decimal_warns :
    (twoCallManifest "context").validate = .ok () ∧
    (probeCedar decimalLiteral "inputUsd").ChecksDecimals decimalLiteral ∧
    (∃ verdict, evaluateAction (probeEngines decimalLiteral "inputUsd") (usdInput "abc") =
      .ok verdict ∧ verdict.isFailure = false) ∧
    ¬ HostAnswersHandled (probeEngines decimalLiteral "inputUsd") decimalLiteral swapAction swapTx
      swapLowered capCalls (usdResults "abc") capBundle := by
  refine ⟨rfl, probeCedar_checksDecimals, ⟨_, rfl, rfl⟩, ?_⟩
  intro h
  rcases h.required with hl | ⟨matched, hf⟩
  · obtain ⟨s, hs, ha⟩ := hl "inputUsd" .decimal (decimalJson "abc")
      (mem_cons_of_mem _ mem_cons_self)
    rw [← decimalJson_injective hs] at ha
    revert ha
    decide
  · have hw : (bundleVerdict (probeEngines decimalLiteral "inputUsd") swapAction swapTx
        swapLowered capCalls (usdResults "abc") capBundle).map Verdict.isFailure =
        some false := rfl
    rw [hf] at hw
    cases hw

end Dambi
