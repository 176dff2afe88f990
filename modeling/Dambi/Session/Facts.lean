import Dambi.Session.Basic

/-!
# Facts

`session/facts.rs`: the provenance checks of a fact batch. `FactsOk` is what a
batch has to satisfy to raise nothing; a batch that misses any of it fails the
report, and only validated results reach the runtime either way.
-/

namespace Dambi

open Fallible List Option Report

/-! ## One result -/

def provenanceString (fields : List (String × Json)) (key : String) :
    Except (String × String) String :=
  match (fields.lookup key).bind Json.asStr with
  | none => .error ("invalid_fact", "Fact provenance field must be a string")
  | some text => .ok text

/-- `validate_result`, by the code and the message of its error. -/
def validateResult (limits : SessionLimits) (now : Nat) (value : Json) :
    Except (String × String) Json :=
  match value.asObject with
  | none => .error ("invalid_fact", "FactResult must be an object")
  | some fields => do
    require (fields.all fun (key, _) => key ∈ ["value", "source", "observedAt", "blockNumber"])
      ("invalid_fact", "unknown FactResult field")
    match fields.lookup "value" with
    | none => .error ("invalid_fact", "missing FactResult.value")
    | some raw =>
      let source ← provenanceString fields "source"
      require (Text.isBlank source = false) ("invalid_fact", "source must be non-empty")
      match ((fields.lookup "observedAt").bind Json.asU64).filter (· ≤ maxSafeInteger) with
      | none => .error ("invalid_fact",
          "observedAt must be a nonnegative safe integer in milliseconds")
      | some observed =>
        require (observed ≤ now + limits.allowedClockSkewMs)
          ("invalid_fact", "Fact observation is in the future")
        require (now - observed ≤ limits.maxFactAgeMs)
          ("fact_stale", "Fact observation exceeds maxFactAgeMs")
        if (fields.lookup "blockNumber").isSome then do
          let block ← provenanceString fields "blockNumber"
          require (block ≠ "" ∧ block.toList.all Char.isDigit)
            ("invalid_fact", "blockNumber must be a decimal integer string")
          .ok raw
        else .ok raw

/-- A result with a source and an observation time in the accepted window. -/
def Provenance (limits : SessionLimits) (now : Nat) (value : Json) : Prop :=
  ∃ source observed, (value.index "source").asStr = some source ∧ Text.isBlank source = false ∧
    (value.index "observedAt").asU64 = some observed ∧
    now - limits.maxFactAgeMs ≤ observed ∧ observed ≤ now + limits.allowedClockSkewMs

private theorem provenanceString_eq_ok {fs : List (String × Json)} {key text : String} :
    provenanceString fs key = .ok text ↔ ((Json.obj fs).index key).asStr = some text := by
  rw [← Json.bind_get? (f := Json.asStr) rfl, provenanceString, Json.get?]
  cases (fs.lookup key).bind Json.asStr <;> simp

theorem provenance_of_validateResult {limits : SessionLimits} {now : Nat} {value raw : Json}
    (h : validateResult limits now value = .ok raw) :
    Provenance limits now value := by
  cases value with
  | obj fs =>
    simp only [validateResult, Json.asObject, bind_eq_ok, require_eq_ok] at h
    obtain ⟨_, _, h⟩ := h
    split at h
    · cases h
    · simp only [bind_eq_ok, require_eq_ok, provenanceString_eq_ok] at h
      obtain ⟨source, hs, _, hb, h⟩ := h
      split at h
      · cases h
      · next o ho =>
        simp only [bind_eq_ok, require_eq_ok] at h
        obtain ⟨_, hf, _, hst, _⟩ := h
        rw [filter_eq_some_iff] at ho
        refine ⟨source, o, hs, hb, ?_, by omega, hf⟩
        rw [← Json.bind_get? (f := Json.asU64) rfl]
        exact ho.1
  | null | bool _ | int _ | float _ | str _ | arr _ => cases h

/-! ## The batch -/

section Batch

variable (parseJson : String → Except StrictJsonError Json) (limits : SessionLimits) (now : Nat)

def nodeCalls (nodes : List Node) : List (Node × Call) :=
  nodes.flatMap fun node => node.calls.map (node, ·)

def recordResult (results : List (String × Json)) (state : BTreeMap String Json × Report)
    (entry : Node × Call) : BTreeMap String Json × Report :=
  match results.lookup entry.2.id with
  | none => state
  | some value =>
    match validateResult limits now value with
    | .ok raw =>
      (state.1.insert entry.2.id raw, { state.2 with facts := state.2.facts ++ [value] })
    | .error (code, message) =>
      (state.1, state.2.fail code message (some entry.2.id) (some entry.1.path))

def recordUnknownCall (known : List String) (r : Report) (entry : String × Json) : Report :=
  if entry.1 ∈ known then r
  else r.fail "unknown_fact_call" "Fact result has no call in this plan" (some entry.1) none

def validateResults (nodes : List Node) (results : List (String × Json)) (r : Report) :
    BTreeMap String Json × Report :=
  let known := (nodeCalls nodes).map (·.2.id)
  let r := results.foldl (recordUnknownCall known) r
  (nodeCalls nodes).foldl (recordResult limits now results) (∅, r)

def checkBatchFields (batch : List (String × Json)) (r : Report) : Report :=
  if ∀ entry ∈ batch, entry.1 ∈ ["planId", "results"] then r
  else r.fail "invalid_fact" "unknown FactBatch field" none none

def validateBatch (planId : String) (nodes : List Node) (batch : List (String × Json))
    (r : Report) : BTreeMap String Json × Report :=
  let r := checkBatchFields batch r
  if (batch.lookup "planId").bind Json.asStr = some planId then
    match (batch.lookup "results").bind Json.asObject with
    | none => (∅, r.fail "invalid_fact" "FactBatch.results must be an object" none none)
    | some results => validateResults limits now nodes results r
  else (∅, r.fail "fact_plan_mismatch" "FactBatch belongs to a different plan" none none)

/-- `facts::validate`: the accepted values by call id, and the report. -/
def validateFacts (input planId : String) (nodes : List Node) (r : Report) :
    BTreeMap String Json × Report :=
  if limits.maxFactBytes < input.utf8ByteSize then
    (∅, r.fail "limit_exceeded" "FactBatch exceeds maxFactBytes" none none)
  else match parseJson input with
  | .error error =>
    (∅, r.fail "invalid_fact" s!"{error.path}: {error.message}" none none)
  | .ok (.obj batch) => validateBatch limits now planId nodes batch r
  | .ok _ => (∅, r.fail "invalid_fact" "FactBatch must be an object" none none)

/-- A parsed batch that raises nothing: it names this plan and has only valid results of
calls of this plan. -/
structure BatchOk (planId : String) (nodes : List Node) (batch results : List (String × Json)) :
    Prop where
  fields : ∀ entry ∈ batch, entry.1 ∈ ["planId", "results"]
  plan : (batch.lookup "planId").bind Json.asStr = some planId
  object : (batch.lookup "results").bind Json.asObject = some results
  known : ∀ entry ∈ results, entry.1 ∈ (nodeCalls nodes).map (·.2.id)
  valid : ∀ entry ∈ nodeCalls nodes, ∀ value, results.lookup entry.2.id = some value →
    ∃ raw, validateResult limits now value = .ok raw

def FactsOk (input planId : String) (nodes : List Node) (results : List (String × Json)) : Prop :=
  input.utf8ByteSize ≤ limits.maxFactBytes ∧
  ∃ batch, parseJson input = .ok (.obj batch) ∧ BatchOk limits now planId nodes batch results

/-! ## What the checks establish -/

variable {limits now}

def acceptedValue (limits : SessionLimits) (now : Nat) (results : List (String × Json))
    (id : String) : Option Json :=
  (results.lookup id).bind fun value => (validateResult limits now value).toOption

/-- A call has a result that is not valid. -/
def rejectedResult (limits : SessionLimits) (now : Nat) (results : List (String × Json))
    (id : String) : Bool :=
  (results.lookup id).any fun value => !(validateResult limits now value).isOk

section

variable (rs : List (String × Json)) (s : BTreeMap String Json × Report) (entry : Node × Call)

private theorem recordResult_fst (id : String) :
    (recordResult limits now rs s entry).1[id]? =
      (if id = entry.2.id then acceptedValue limits now rs id else none).or s.1[id]? := by
  unfold recordResult acceptedValue
  by_cases hi : id = entry.2.id
  · subst hi
    cases rs.lookup entry.2.id with
    | none => simp
    | some value =>
      cases hv : validateResult limits now value with
      | ok raw | error e => simp [hv, Except.toOption]
  · rw [if_neg hi, none_or]
    split
    · rfl
    · split
      · rw [Std.TreeMap.getElem?_insert, if_neg]
        exact fun heq => hi (Std.LawfulEqCmp.eq_of_compare heq).symm
      · rfl

private theorem failsIf_recordResult :
    s.2.FailsIf (rejectedResult limits now rs entry.2.id)
      (recordResult limits now rs s entry).2 := by
  unfold recordResult rejectedResult
  cases rs.lookup entry.2.id with
  | none => exact .refl s.2
  | some value =>
    cases hv : validateResult limits now value with
    | ok raw =>
      simp only [any_some, hv, Except.isOk, Except.toBool]
      exact ⟨(Report.Raised.refl s.2).rank_eq, (Report.Raised.refl s.2).failed_eq⟩
    | error e =>
      simp only [any_some, hv, Except.isOk, Except.toBool]
      exact failsIf_fail ..

end

variable (limits now) in
private theorem foldl_recordResult (rs : List (String × Json)) (entries : List (Node × Call))
    (s : BTreeMap String Json × Report) :
    (∀ id, (entries.foldl (recordResult limits now rs) s).1[id]? =
      (if id ∈ entries.map (·.2.id) then acceptedValue limits now rs id else none).or
        s.1[id]?) ∧
    s.2.FailsIf (entries.any fun entry => rejectedResult limits now rs entry.2.id)
      (entries.foldl (recordResult limits now rs) s).2 := by
  induction entries generalizing s with
  | nil => exact ⟨by simp, .refl s.2⟩
  | cons entry r ih =>
    obtain ⟨i, ihs⟩ := ih (recordResult limits now rs s entry)
    refine ⟨fun id => ?_, (failsIf_recordResult rs s entry).trans ihs⟩
    rw [foldl_cons, i, recordResult_fst, map_cons]
    by_cases hr : id ∈ r.map (·.2.id)
    · rw [if_pos hr, if_pos (mem_cons_of_mem _ hr)]
      split
      · cases acceptedValue limits now rs id <;> rfl
      · rw [none_or]
    · rw [if_neg hr, none_or]
      by_cases hh : id = entry.2.id
      · rw [if_pos hh, if_pos (mem_cons.2 (.inl hh))]
      · have hn : id ∉ entry.2.id :: r.map (·.2.id) := fun hm =>
          (mem_cons.1 hm).elim hh hr
        rw [if_neg hh, if_neg hn]

private theorem failsIf_recordUnknownCalls (k : List String) (rs : List (String × Json))
    (r : Report) :
    r.FailsIf (rs.any fun entry => decide (entry.1 ∉ k)) (rs.foldl (recordUnknownCall k) r) := by
  refine Report.FailsIf.foldl _ (fun r entry _ => ?_) r
  unfold recordUnknownCall
  by_cases h : entry.1 ∈ k
  · simpa [h] using Report.FailsIf.refl r
  · simpa [h] using failsIf_fail r "unknown_fact_call" _ (some entry.1) none

/-- The results of a batch fail the report when one is of no call of the plan or is not
valid; the valid ones of the plan are accepted. -/
theorem validateResults_spec (ns : List Node) (rs : List (String × Json)) (r : Report) :
    (∀ id, (validateResults limits now ns rs r).1[id]? =
      if id ∈ (nodeCalls ns).map (·.2.id) then acceptedValue limits now rs id else none) ∧
    r.FailsIf ((rs.any fun entry => decide (entry.1 ∉ (nodeCalls ns).map (·.2.id))) ||
        (nodeCalls ns).any fun entry => rejectedResult limits now rs entry.2.id)
      (validateResults limits now ns rs r).2 := by
  unfold validateResults
  obtain ⟨ha, hf⟩ := foldl_recordResult limits now rs
    (nodeCalls ns) (∅, rs.foldl (recordUnknownCall ((nodeCalls ns).map (·.2.id))) r)
  refine ⟨fun id => ?_, (failsIf_recordUnknownCalls _ rs r).trans hf⟩
  rw [ha]
  simp

variable {rs : List (String × Json)}

theorem rejectedResult_eq_false {id : String} :
    rejectedResult limits now rs id = false ↔
      ∀ value, rs.lookup id = some value →
        ∃ raw, validateResult limits now value = .ok raw := by
  unfold rejectedResult
  cases rs.lookup id with
  | none => simp
  | some value =>
    cases hv : validateResult limits now value with
    | ok raw | error e => simp [hv, Except.toBool]

variable (limits now)

theorem validateBatch_failsIf (pi : String) (ns : List Node) (batch : List (String × Json))
    (r : Report) :
    ∃ bad, r.FailsIf bad (validateBatch limits now pi ns batch r).2 ∧
      (bad = false ↔ ∃ results, BatchOk limits now pi ns batch results) := by
  have hf : r.FailsIf (decide (¬ ∀ entry ∈ batch, entry.1 ∈ ["planId", "results"]))
      (checkBatchFields batch r) := by
    unfold checkBatchFields
    split
    · next h =>
      rw [decide_eq_false (not_not.2 h)]
      exact .refl r
    · next h =>
      rw [decide_eq_true h]
      exact failsIf_fail ..
  unfold validateBatch
  dsimp only
  by_cases hp : (batch.lookup "planId").bind Json.asStr = some pi
  · rw [if_pos hp]
    cases hr : (batch.lookup "results").bind Json.asObject with
    | none =>
      refine ⟨_, hf.trans (failsIf_fail ..), ?_⟩
      simp only [Bool.or_true, Bool.true_eq_false, false_iff]
      intro ⟨results, ho⟩
      have hob := ho.object
      rw [hr] at hob
      cases hob
    | some results =>
      refine ⟨_, hf.trans (validateResults_spec ns results _).2, ?_⟩
      simp only [Bool.or_eq_false_iff, decide_eq_false_iff_not, not_not, List.any_eq_false,
        decide_eq_true_eq, Bool.not_eq_true, rejectedResult_eq_false]
      constructor
      · intro ⟨hb, hk, hv⟩
        exact ⟨results, hb, hp, hr, hk, hv⟩
      · intro ⟨results', ho⟩
        obtain rfl : results = results' := some.inj (hr.symm.trans ho.object)
        exact ⟨ho.fields, ho.known, ho.valid⟩
  · rw [if_neg hp]
    refine ⟨_, hf.trans (failsIf_fail ..), ?_⟩
    simp only [Bool.or_true, Bool.true_eq_false, false_iff]
    intro ⟨results, ho⟩
    exact hp ho.plan

theorem validateFacts_failsIf (input pi : String) (ns : List Node) (r : Report) :
    ∃ bad, r.FailsIf bad (validateFacts parseJson limits now input pi ns r).2 ∧
      (bad = false ↔ ∃ rs, FactsOk parseJson limits now input pi ns rs) := by
  unfold validateFacts FactsOk
  by_cases hs : limits.maxFactBytes < input.utf8ByteSize
  · rw [if_pos hs]
    refine ⟨true, failsIf_fail .., ?_⟩
    simp [Nat.not_le.2 hs]
  · rw [if_neg hs]
    cases hp : parseJson input with
    | error error =>
      refine ⟨true, failsIf_fail .., ?_⟩
      simp
    | ok value =>
      cases value with
      | obj batch =>
        obtain ⟨bad, hf, hi⟩ := validateBatch_failsIf limits now pi ns batch r
        refine ⟨bad, hf, ?_⟩
        rw [hi]
        simp [Nat.not_lt.1 hs]
      | null | bool _ | int _ | float _ | str _ | arr _ =>
        refine ⟨true, failsIf_fail .., ?_⟩
        simp

theorem validateFacts_accepted {input : String} {ns : List Node}
    {pi : String} (h : FactsOk parseJson limits now input pi ns rs)
    (r : Report) (id : String) :
    (validateFacts parseJson limits now input pi ns r).1[id]? =
      if id ∈ (nodeCalls ns).map (·.2.id) then acceptedValue limits now rs id
      else none := by
  obtain ⟨hs, batch, hp, ho⟩ := h
  simp only [validateFacts, Nat.not_lt.2 hs, if_false, hp, validateBatch, ho.plan, if_true,
    ho.object]
  exact (validateResults_spec ns rs _).1 id

theorem validateFacts_fst (input pi : String) (ns : List Node) (r r' : Report) :
    (validateFacts parseJson limits now input pi ns r).1 =
      (validateFacts parseJson limits now input pi ns r').1 := by
  have hr : ∀ rs r r', (validateResults limits now ns rs r).1 =
      (validateResults limits now ns rs r').1 := by
    intro rs r r'
    let a (ac : BTreeMap String Json) (entry : Node × Call) :=
      (recordResult limits now rs (ac, {}) entry).1
    have hs : ∀ s entry, a s.1 entry =
        (recordResult limits now rs s entry).1 := by
      intro s entry
      simp only [a]
      unfold recordResult
      split
      · rfl
      · split <;> rfl
    unfold validateResults
    dsimp only
    rw [← foldl_hom Prod.fst hs, ← foldl_hom Prod.fst hs]
  unfold validateFacts validateBatch
  split
  · rfl
  · split
    · rfl
    · dsimp only
      split
      · split
        · rfl
        · exact hr _ _ _
      · rfl
    · rfl

end Batch

end Dambi
