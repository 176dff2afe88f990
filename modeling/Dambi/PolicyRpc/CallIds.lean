import Dambi.Lib.Separator
import Dambi.PolicyRpc.Planning

/-!
# Ambiguity of planned call ids

A planned call is identified by `"<manifest_id>::<spec_id>"`: the host returns
its answer under that key and the materialiser looks it up there. The encoding
is injective on the calls of one plan exactly when no two planned pairs read
the same text with the separator at different places.
-/

namespace Dambi

open Fallible List

/-- The answers of a host that dispatches every planned call and keys each
answer by the call id. -/
def hostResults (calls : List PlannedCallV2) (answer : PlannedCallV2 → Json) :
    BTreeMap String Json :=
  calls.foldl (fun results call => results.insert call.callId (answer call)) ∅

/-- The pairs of a manifest's planned calls, before they are joined. -/
def ManifestV2.callKeys (m : ManifestV2) (roots : SelectorRoots) : List (String × String) :=
  (m.policyRpc.filter fun spec => (resolveParams roots spec.params).isOk).map
    fun spec => (m.id, spec.id)

/-- Some planned call of `m'` has the id of a planned call of `m` while reading
its separator at a later position. -/
def CallIdClash (m m' : ManifestV2) (roots : SelectorRoots) : Prop :=
  ∃ spec ∈ m.policyRpc, ∃ spec' ∈ m'.policyRpc, spec.Resolves roots ∧ spec'.Resolves roots ∧
    Separator.Shifted ':' m.id.toList spec.id.toList m'.id.toList spec'.id.toList

theorem policyRpcCallIdV2_toList (mi si : String) :
    (policyRpcCallIdV2 mi si).toList = Separator.join ':' mi.toList si.toList := by
  simp [policyRpcCallIdV2, Separator.join, toString]

theorem policyRpcCallIdV2_eq_iff {id s id' s' : String} :
    policyRpcCallIdV2 id s = policyRpcCallIdV2 id' s' ↔
      (id = id' ∧ s = s') ∨
      Separator.Shifted ':' id.toList s.toList id'.toList s'.toList ∨
      Separator.Shifted ':' id'.toList s'.toList id.toList s.toList := by
  rw [← String.toList_inj, policyRpcCallIdV2_toList, policyRpcCallIdV2_toList,
    Separator.join_eq_join, String.toList_inj, String.toList_inj]

section Keys

variable {roots : SelectorRoots}

theorem PolicyRpcCallSpec.resolves_iff_isOk {s : PolicyRpcCallSpec} :
    s.Resolves roots ↔ (resolveParams roots s.params).isOk = true := by
  unfold PolicyRpcCallSpec.Resolves
  cases resolveParams roots s.params <;> simp [Except.toBool]

variable {m : ManifestV2} {key : String × String} {ms : List ManifestV2}

theorem mem_callKeys :
    key ∈ m.callKeys roots ↔ ∃ s ∈ m.policyRpc, s.Resolves roots ∧ key = (m.id, s.id) := by
  simp only [ManifestV2.callKeys, mem_map, mem_filter,
    PolicyRpcCallSpec.resolves_iff_isOk]
  constructor
  · rintro ⟨s, ⟨hs, hr⟩, rfl⟩
    exact ⟨s, hs, hr, rfl⟩
  · rintro ⟨s, hs, hr, rfl⟩
    exact ⟨s, ⟨hs, hr⟩, rfl⟩

theorem plannedCalls_callId (m : ManifestV2) :
    (m.plannedCalls roots).map (·.callId) =
      (m.callKeys roots).map fun key => policyRpcCallIdV2 key.1 key.2 := by
  unfold ManifestV2.plannedCalls specCalls ManifestV2.callKeys
  induction m.policyRpc with
  | nil => rfl
  | cons s r ih =>
    cases hp : resolveParams roots s.params with
    | error e => simpa [hp, Except.toOption, Except.isOk, Except.toBool] using ih
    | ok ps =>
      simpa [hp, Except.toOption, Except.isOk, Except.toBool,
        PolicyRpcCallSpec.plannedCall] using ih

theorem callKeys_nodup (h : m.WellFormed) : (m.callKeys roots).Nodup := by
  have hi : ((m.policyRpc.filter fun s =>
      (resolveParams roots s.params).isOk).map (·.id)).Nodup :=
    h.callIds.sublist (filter_sublist.map _)
  refine List.Nodup.of_map Prod.snd ?_
  rw [ManifestV2.callKeys, map_map]
  exact hi

theorem flatMap_callKeys_nodup (hi : (ms.map (·.id)).Nodup) (hw : ∀ m ∈ ms, m.WellFormed) :
    (ms.flatMap (·.callKeys roots)).Nodup := by
  rw [nodup_flatMap]
  refine ⟨fun m hm => callKeys_nodup (hw m hm), ?_⟩
  refine (pairwise_map.1 hi).imp ?_
  intro m m' hn key hk hk'
  obtain ⟨s, -, -, rfl⟩ := mem_callKeys.1 hk
  obtain ⟨s', -, -, heq⟩ := mem_callKeys.1 hk'
  exact hn (congrArg Prod.fst heq)

theorem mem_appliedKeys {view : ActionView} {tx : TxView} :
    key ∈ (ms.filter (·.applies view tx)).flatMap (·.callKeys roots) ↔
      ∃ m ∈ ms, m.applies view tx ∧
        ∃ s ∈ m.policyRpc, s.Resolves roots ∧ key = (m.id, s.id) := by
  simp [mem_callKeys, and_assoc]

end Keys

/-! ## The host's answers -/

variable {cs : List PlannedCallV2} {answer : PlannedCallV2 → Json}

private theorem foldl_insert_of_not_mem {key : String} {rs : BTreeMap String Json}
    (h : key ∉ cs.map (·.callId)) :
    (cs.foldl (fun rs c => rs.insert c.callId (answer c)) rs)[key]? = rs[key]? := by
  induction cs generalizing rs with
  | nil => rfl
  | cons c r ih =>
    simp only [map_cons, mem_cons, not_or] at h
    rw [foldl_cons, ih h.2, Std.TreeMap.getElem?_insert, if_neg]
    exact fun heq => h.1 (Std.LawfulEqCmp.eq_of_compare heq).symm

theorem hostResults_getElem? (hn : (cs.map (·.callId)).Nodup) {c : PlannedCallV2} (hc : c ∈ cs) :
    (hostResults cs answer)[c.callId]? = some (answer c) := by
  unfold hostResults
  generalize (∅ : BTreeMap String Json) = results
  induction cs generalizing results with
  | nil => cases hc
  | cons head r ih =>
    rw [map_cons, nodup_cons] at hn
    rw [foldl_cons]
    rcases mem_cons.1 hc with rfl | hr
    · rw [foldl_insert_of_not_mem hn.1, Std.TreeMap.getElem?_insert_self]
    · exact ih hn.2 hr _

/-! ## The exact condition -/

/-- For validated manifests with distinct ids, the planned call ids are distinct
and every bundle reads its own answers exactly when no two planned calls of the
applying manifests clash. -/
theorem callIds_unambiguous_iff {manifests : List ManifestV2} {view : ActionView}
    {loweredContext : Json} {tx : TxView} {calls : List PlannedCallV2}
    (hvalid : ∀ m ∈ manifests, m.validate = .ok ()) (hids : (manifests.map (·.id)).Nodup)
    (hplan : planPolicyRpcV2 manifests view loweredContext tx = .ok calls) :
    ((calls.map (·.callId)).Nodup ∧
      ∀ answer : PlannedCallV2 → Json, ∀ m ∈ manifests,
        ∀ call ∈ calls.filter (·.manifestId = m.id),
          (hostResults calls answer)[call.callId]? = some (answer call)) ↔
      ∀ m ∈ manifests, ∀ m' ∈ manifests, m.applies view tx → m'.applies view tx →
        ¬ CallIdClash m m' (planningRoots loweredContext tx) := by
  obtain ⟨-, -, hca, -⟩ := planPolicyRpcV2_eq_ok.1 hplan
  have hke : ((manifests.filter (·.applies view tx)).flatMap
      (·.callKeys (planningRoots loweredContext tx))).Nodup := by
    refine flatMap_callKeys_nodup (hids.sublist (filter_sublist.map _)) ?_
    exact fun m hm => m.validate_eq_ok.1 (hvalid m (mem_of_mem_filter hm))
  have hj : calls.map (·.callId) = ((manifests.filter (·.applies view tx)).flatMap
      (·.callKeys (planningRoots loweredContext tx))).map
        fun key => policyRpcCallIdV2 key.1 key.2 := by
    rw [hca, map_flatMap, map_flatMap]
    exact flatMap_congr fun m _ => plannedCalls_callId m
  constructor
  · rintro ⟨hn, -⟩ m hm m' hm' ha ha' ⟨spec, hs, spec', hs', hr, hr', hsh⟩
    rw [hj] at hn
    have hme := mem_appliedKeys.2 ⟨m, hm, ha, spec, hs, hr, rfl⟩
    have hme' := mem_appliedKeys.2 ⟨m', hm', ha', spec', hs', hr', rfl⟩
    have heq := inj_on_of_nodup_map hn hme hme'
      (policyRpcCallIdV2_eq_iff.2 (.inr (.inl hsh)))
    have hl : m.id.toList.length < m'.id.toList.length := hsh.length_lt
    have hi : m.id = m'.id := congrArg Prod.fst heq
    rw [hi] at hl
    exact lt_irrefl _ hl
  · intro hcl
    have hn : (calls.map (·.callId)).Nodup := by
      rw [hj]
      refine hke.map_on ?_
      intro key hk key' hk' heq
      obtain ⟨m, hm, ha, spec, hs, hr, rfl⟩ := mem_appliedKeys.1 hk
      obtain ⟨m', hm', ha', spec', hs', hr', rfl⟩ := mem_appliedKeys.1 hk'
      rcases policyRpcCallIdV2_eq_iff.1 heq with ⟨hi, hsi⟩ | hsh | hsh
      · exact Prod.ext hi hsi
      · exact absurd ⟨spec, hs, spec', hs', hr, hr', hsh⟩
          (hcl m hm m' hm' ha ha')
      · exact absurd ⟨spec', hs', spec, hs, hr', hr, hsh⟩
          (hcl m' hm' m hm ha' ha)
    exact ⟨hn, fun answer m _ call hc =>
      hostResults_getElem? hn (mem_of_mem_filter hc)⟩

/-! ## A clash that validation accepts -/

/-- A manifest with the given id and one required call without parameters. -/
def singleCallManifest (id specId : String) : ManifestV2 where
  id := id
  schemaVersion := 2
  policyRpc := [{ id := specId, method := "oracle.usd_value" }]

def swapView : ActionView := ⟨"amm", some "swap", some "uniswap_v3"⟩

def mainnetTx : TxView := ⟨"eip155:1", "0x1111", "0x2222"⟩

/-- Two ordinary manifests plan two calls, and each reads its own answer. -/
theorem callIds_unambiguous_of_two :
    ∃ calls, planPolicyRpcV2 [singleCallManifest "cap" "usd", singleCallManifest "limit" "usd"]
        swapView (.obj []) mainnetTx = .ok calls ∧
      (calls.map (·.callId)).Nodup ∧
      ∀ answer : PlannedCallV2 → Json,
        ∀ m ∈ [singleCallManifest "cap" "usd", singleCallManifest "limit" "usd"],
          ∀ call ∈ calls.filter (·.manifestId = m.id),
            (hostResults calls answer)[call.callId]? = some (answer call) := by
  refine ⟨_, rfl, (@callIds_unambiguous_iff _ swapView (.obj []) mainnetTx _ ?_ ?_ rfl).2 ?_⟩
  · simp only [forall_mem_cons, not_mem_nil, false_imp_iff, implies_true, and_true]
    exact ⟨rfl, rfl⟩
  · decide
  · rintro m hm m' hm' - - ⟨spec, hsp, spec', hsp', -, -, hs⟩
    -- every spec id is `usd`, which has no separator to move to
    have hu : spec.id = "usd" := by
      simp only [mem_cons, not_mem_nil, or_false] at hm
      rcases hm with rfl | rfl <;> simp_all [singleCallManifest]
    rw [hu] at hs
    rcases hs with ⟨-, h⟩ | ⟨u, -, h⟩
    · simp at h
    · have hme : ':' ∈ "usd".toList := h ▸ by simp
      revert hme
      decide

/-- `a` with the call `b::c` and `a::b` with the call `c` both validate, have
distinct ids, and plan two calls under the one id `a::b::c`. -/
theorem callIds_collide :
    (singleCallManifest "a" "b::c").validate = .ok () ∧
    (singleCallManifest "a::b" "c").validate = .ok () ∧
    (["a", "a::b"] : List String).Nodup ∧
    ∃ calls, planPolicyRpcV2 [singleCallManifest "a" "b::c", singleCallManifest "a::b" "c"]
        swapView (.obj []) mainnetTx = .ok calls ∧
      calls.map (·.callId) = ["a::b::c", "a::b::c"] ∧ ¬ (calls.map (·.callId)).Nodup :=
  ⟨rfl, rfl, by decide, _, rfl, rfl, by decide⟩

end Dambi
