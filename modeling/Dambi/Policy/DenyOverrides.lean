import Dambi.Policy.Engine

/-!
# Deny overrides

The verdict of an installed policy set as a function of the policies that Cedar
names for a denial. A policy without `@severity` is passed over, so it counts
only where nothing else fired: next to a warning its denial is lost.
-/

namespace Dambi

open Fallible

/-! ## Installed severities -/

def CedarPolicy.severityTag (p : CedarPolicy) : Option Severity :=
  match p.annotation "severity" with
  | some "deny" => some .deny
  | some "warn" => some .warn
  | _ => none

theorem CedarPolicy.severity_eq_ok {tag : Option Severity} {p : CedarPolicy} {userId : String}
    (h : p.severity userId = .ok tag) : tag = p.severityTag := by
  unfold severity at h
  unfold severityTag
  split at h
  · next hn => simp_all
  · next hd => simp_all
  · next hw => simp_all
  · cases h

def PolicyEngine.Installed (engine : PolicyEngine) : Prop :=
  ∀ id severity, engine.severities[id]? = some severity ↔
    ∃ p ∈ engine.policySet, p.id = id ∧ p.severityTag = some severity

theorem installed_empty : ({} : PolicyEngine).Installed := by
  intro id severity
  simp

variable {c : Cedar}

theorem installed_ingestPolicy {p : CedarPolicy}
    {engine engine' : PolicyEngine} (he : engine.Installed)
    (h : ingestPolicy c engine p = .ok engine') : engine'.Installed := by
  simp only [ingestPolicy, bind_eq_ok, require_eq_ok] at h
  obtain ⟨tag, ht, -, hf, he'⟩ := h
  cases he'
  obtain rfl := p.severity_eq_ok ht
  have hno : engine.severities[p.userId]? = none := by
    by_contra hsome
    obtain ⟨severity, hs⟩ := Option.ne_none_iff_exists'.1 hsome
    obtain ⟨q, hq, hi, -⟩ := (he _ _).1 hs
    exact hf (List.mem_map.2 ⟨q, hq, hi⟩)
  intro id severity
  have hl : (p.severityTag.elim engine.severities
      (engine.severities.insert p.userId ·))[id]? =
      if p.userId = id then p.severityTag else engine.severities[id]? := by
    cases p.severityTag with
    | none =>
      split
      · next heq => rw [← heq]; exact hno
      · rfl
    | some tag => simp [Std.TreeMap.getElem?_insert]
  simp only [hl, List.mem_append, List.mem_singleton, or_and_right, exists_or, exists_eq_left]
  split
  · next heq =>
    subst heq
    constructor
    · exact fun ht => .inr ⟨rfl, ht⟩
    · rintro (⟨q, hq, hi, -⟩ | ⟨-, ht⟩)
      · exact absurd (List.mem_map.2 ⟨q, hq, hi⟩) hf
      · exact ht
  · next hn =>
    rw [he]
    constructor
    · exact .inl
    · rintro (ho | ⟨heq, -⟩)
      · exact ho
      · exact absurd heq hn

theorem installed_of_ingest {engine : PolicyEngine}
    {ps : List CedarPolicy} (h : ps.foldlM (ingestPolicy c) {} = .ok engine)
    : engine.Installed :=
  foldlM_invariant PolicyEngine.Installed
    (fun _ _ _ _ hb hi => installed_ingestPolicy hb hi) h installed_empty

/-! ## Denials -/

/-- Cedar denied, and no policy failed to evaluate. -/
structure Response.Denies (response : Response) : Prop where
  decision : response.decision = .deny
  errors : response.errors = []

namespace PolicyEngine

/-- A policy of the given severity is among the determining ones. The baseline
permit never counts. -/
def Fires (engine : PolicyEngine) (response : Response) (severity : Severity) : Prop :=
  ∃ p ∈ engine.policySet, p.id ∈ response.reason ∧ p.id ≠ baselineAllowId ∧
    p.severityTag = some severity

variable {engine : PolicyEngine} {response : Response}

theorem exists_matched_iff (he : engine.Installed) (severity : Severity) :
    (∃ m ∈ engine.matchedPolicies response.reason, m.severity = severity) ↔
      engine.Fires response severity := by
  simp only [matchedPolicies, List.mem_filterMap]
  constructor
  · rintro ⟨m, ⟨pid, hpi, hm⟩, rfl⟩
    split at hm
    · cases hm
    · next hb =>
      obtain ⟨severity, hs, rfl⟩ := Option.map_eq_some_iff.1 hm
      obtain ⟨p, hp, rfl, ht⟩ := (he _ _).1 hs
      exact ⟨p, hp, hpi, hb, ht⟩
  · rintro ⟨p, hp, hr, hb, ht⟩
    have hs := (he p.id severity).2 ⟨p, hp, rfl, ht⟩
    refine ⟨⟨p.id, engine.reasons[p.id]?, severity, .action⟩, ⟨p.id, hr, ?_⟩, rfl⟩
    rw [if_neg hb, hs]
    rfl

/-- A denial is a warning exactly when a warning fired and no denial did: with
nothing that has a severity it fails closed. -/
theorem rank_verdict (he : engine.Installed) (hde : response.Denies) :
    (engine.verdict response).rank = 1 ∧ engine.Fires response .warn ∧
        ¬ engine.Fires response .deny ∨
      (engine.verdict response).rank = 2 ∧
        (engine.Fires response .warn → engine.Fires response .deny) := by
  rw [← exists_matched_iff he .warn, ← exists_matched_iff he .deny]
  simp only [verdict, hde.errors, hde.decision]
  split
  · next hd =>
    refine .inr ⟨rfl, fun _ => ?_⟩
    simpa using hd
  · next hd =>
    have hn : ∀ m ∈ engine.matchedPolicies response.reason, m.severity ≠ .deny := by
      simpa using hd
    split
    · next hma =>
      obtain ⟨m, hm⟩ := List.exists_mem_of_ne_nil _ hma
      have hw : m.severity = .warn := by
        cases hm' : m.severity with
        | warn => rfl
        | deny => exact absurd hm' (hn m hm)
      exact .inl ⟨rfl, ⟨m, hm, hw⟩, fun ⟨m', hm', hd'⟩ => hn m' hm' hd'⟩
    · next hma =>
      refine .inr ⟨rfl, ?_⟩
      rintro ⟨m, hm, -⟩
      rw [not_not.1 hma] at hm
      cases hm

end PolicyEngine

/-- With more determining policies the verdict of a denial is at least as severe, except
where the fewer had no severity at all and the more bring a warning and no denial. -/
theorem deny_monotone_iff {cedar : Cedar} {policies : List CedarPolicy} {engine : PolicyEngine}
    (hinstalled : policies.foldlM (ingestPolicy cedar) {} = .ok engine)
    {fewer more : Response} (hfewer : fewer.Denies) (hmore : more.Denies)
    (hsubset : fewer.reason ⊆ more.reason) :
    (engine.verdict fewer).rank ≤ (engine.verdict more).rank ↔
      (engine.Fires fewer .deny ∨ engine.Fires fewer .warn) ∨
        engine.Fires more .deny ∨ ¬ engine.Fires more .warn := by
  have he := installed_of_ingest hinstalled
  have hm severity : engine.Fires fewer severity → engine.Fires more severity :=
    fun ⟨p, hp, hre, hrs⟩ => ⟨p, hp, hsubset hre, hrs⟩
  rcases PolicyEngine.rank_verdict he hfewer with ⟨hr, hw, hd⟩ | ⟨hr, hi⟩
  · -- a warning is at most as severe as whatever a denial can be
    refine iff_of_true ?_ (.inl (.inr hw))
    rcases PolicyEngine.rank_verdict he hmore with ⟨hr', -, -⟩ | ⟨hr', -⟩
    · exact (hr.trans hr'.symm).le
    · rw [hr, hr']
      decide
  · rcases PolicyEngine.rank_verdict he hmore with ⟨hr', hw', hd'⟩ | ⟨hr', hi'⟩
    · refine iff_of_false (by rw [hr, hr']; decide) ?_
      rintro ((hd | hw) | hd | hw)
      · exact hd' (hm _ hd)
      · exact hd' (hm _ (hi hw))
      · exact hd' hd
      · exact hw hw'
    · refine iff_of_true (hr.trans hr'.symm).le (.inr ?_)
      by_cases hw : engine.Fires more .warn
      · exact .inl (hi' hw)
      · exact .inr hw

/-! A forbid without `@severity`, one that warns and one that denies. -/

section Sample

def swapCedar : Cedar where
  parsePolicySet _ := .error ""
  parseSchema _ := .ok ()
  validate _ _ := none
  toJson _ := .error ""
  duplicateId id := s!"duplicate policy id {id}"
  parseEntityUid _ := .ok ()
  entitiesFromJson _ := .ok ()
  contextFromJson _ := .ok ()
  newRequest _ _ _ _ := .ok ()
  isAuthorized _ _ _ _ _ _ := ⟨.allow, [], []⟩

def swapPolicies : List CedarPolicy := [
  ⟨"policy0", [("id", "engine/baseline-allow")], "permit(principal, action, resource);"⟩,
  ⟨"policy1", [("id", "user/no-bridge")], "forbid(principal, action, resource);"⟩,
  ⟨"policy2", [("id", "user/large-swap"), ("severity", "warn")],
    "forbid(principal, action, resource);"⟩,
  ⟨"policy3", [("id", "user/huge-swap"), ("severity", "deny")],
    "forbid(principal, action, resource);"⟩]

def swapEngine : PolicyEngine :=
  result (swapPolicies.foldlM (ingestPolicy swapCedar) {}) (by decide +kernel)

/-- A large swap that is also huge: the second policy makes the warning a failure. -/
theorem deny_monotone_swap :
    (swapEngine.verdict ⟨.deny, ["user/large-swap"], []⟩).rank ≤
      (swapEngine.verdict ⟨.deny, ["user/huge-swap", "user/large-swap"], []⟩).rank := by
  refine (deny_monotone_iff (eq_ok_result _ _) ⟨rfl, rfl⟩ ⟨rfl, rfl⟩ (by decide)).2
    (.inl (.inr ?_))
  exact ⟨⟨"user/large-swap", [("id", "user/large-swap"), ("severity", "warn")],
    "forbid(principal, action, resource);"⟩, by decide +kernel, by decide, by decide, by decide⟩

/-- The forbid without `@severity` fails closed alone; once the warning fires as well,
the verdict is only a warning. -/
theorem warning_weakens_denial :
    ∃ fewer more : Response, fewer.Denies ∧ more.Denies ∧ fewer.reason ≠ [] ∧
      fewer.reason ⊆ more.reason ∧
      swapEngine.verdict fewer = .fail [] ∧
      (swapEngine.verdict more).rank < (swapEngine.verdict fewer).rank :=
  ⟨⟨.deny, ["user/no-bridge"], []⟩, ⟨.deny, ["user/no-bridge", "user/large-swap"], []⟩,
    ⟨rfl, rfl⟩, ⟨rfl, rfl⟩, by decide, by decide, by decide +kernel, by decide +kernel⟩

end Sample

end Dambi
