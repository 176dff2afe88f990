import Dambi.Extension.PolicyOps

/-!
# What an addition does to the protection of a wallet

An unregistered address is protected by every default definition and a registered one by
its bindings alone, so an operation that registers an address takes the defaults away
unless it binds them itself.
-/

namespace Dambi.Extension.PolicyStore

open Fallible List Record Snapshot Draft Option

variable {σ : Type}

/-! ## Evaluated definitions -/

def Snapshot.evaluated (s : Snapshot σ) (r : Renderer σ) (address : String) : List String :=
  (s.resolveBundlesForWallet r address).map (·.id)

/-- The definition is complete and can be rendered. -/
def Renderer.Renders (r : Renderer σ) (policy : PolicyDef σ) (params : Option Params)
    (severity : Option Severity) : Prop :=
  policy.holesOk params = true ∧
    (r.renderDef policy.id policy.skeleton (policy.knownParams (policy.merged params))
      severity).isSome = true

def WalletPolicyState.Evaluates (w : WalletPolicyState) (r : Renderer σ) (policy : PolicyDef σ) :
    Prop :=
  ∃ b ∈ w.bindings.values, b.defId = policy.id ∧ w.isEffectiveOn b = true ∧
    r.Renders policy b.params b.severity

/-- What `evaluated` says, on a store that has been read. -/
structure Snapshot.Evaluates (s : Snapshot σ) (r : Renderer σ) (address : String)
    (policy : PolicyDef σ) : Prop where
  defined : s.library.defs.get? policy.id = some policy
  registered : ∀ w, s.walletOf address = some w → w.Evaluates r policy
  unregistered : s.walletOf address = none →
    policy.defaults.enabled = true ∧ r.Renders policy none none

def Snapshot.Keyed (s : Snapshot σ) : Prop :=
  ∀ key policy, s.library.defs.get? key = some policy → policy.id = key

section Evaluated

variable {s : Snapshot σ} {r : Renderer σ} {address : String} {policy : PolicyDef σ}

theorem keyed_of_validate (h : validate s = .ok ()) : s.Keyed := by
  intro key policy hk
  obtain ⟨_, _, h⟩ := bind_eq_ok.1 h
  obtain ⟨_, hd, _⟩ := bind_eq_ok.1 h
  have he := forM_eq_ok.1 hd (key, policy) (mem_entries.2 hk)
  obtain ⟨_, _, he⟩ := bind_eq_ok.1 he
  obtain ⟨_, hi, _⟩ := bind_eq_ok.1 he
  exact require_eq_ok.1 hi

variable {id : String} {w : WalletPolicyState}

theorem mem_bundles :
    id ∈ s.evaluated r address ↔
      ∃ wa ∈ s.read.wanted address, wa.defId = id ∧
        ∃ policy, s.read.library.defs.get? id = some policy ∧
          (r.renderDef policy.id policy.skeleton wa.params wa.severity).isSome = true := by
  simp only [Snapshot.evaluated, resolveBundlesForWallet,
    resolveBundlesForWalletWithFaults, List.mem_map, mem_filterMap]
  constructor
  · rintro ⟨b, ⟨outcome, ⟨wa, hw, ho⟩, hl⟩, rfl⟩
    obtain ⟨policy, hp, ho⟩ := bind_eq_some_iff.1 ho
    split at ho
    · next re hr =>
      cases ho
      cases hl
      exact ⟨wa, hw, rfl, policy, hp, by rw [hr]; rfl⟩
    · cases ho
      cases hl
  · rintro ⟨wa, hw, rfl, policy, hp, hr⟩
    obtain ⟨re, hr⟩ := isSome_iff_exists.1 hr
    let b : ResolvedBundle := ⟨wa.defId, re.text, re.manifest⟩
    refine ⟨b, ⟨.inl b, ⟨wa, hw, ?_⟩, rfl⟩, rfl⟩
    rw [render, hp, bind_eq_bind, bind_some, hr]

variable {wa : Wanted}

theorem mem_wanted_of_registered (hw : s.walletOf address = some w) :
    wa ∈ s.wanted address ↔ ∃ b ∈ w.bindings.values, w.isEffectiveOn b = true ∧
      ∃ policy, s.library.defs.get? b.defId = some policy ∧ policy.holesOk b.params = true ∧
        wa = ⟨b.defId, policy.knownParams (policy.merged b.params), b.severity⟩ := by
  simp only [wanted, hw, mem_filterMap, wantedBinding,
    bind_eq_bind, bind_eq_some_iff, guard_eq_some', exists_const,
    some_inj, eq_comm (a := wa)]

theorem mem_wanted_of_unregistered (hw : s.walletOf address = none) :
    wa ∈ s.wanted address ↔ ∃ policy ∈ s.library.defs.values,
      (policy.defaults.enabled = true ∧ policy.holesOk none = true) ∧
        wa = ⟨policy.id, policy.knownParams policy.defaults.params, none⟩ := by
  simp only [wanted, hw, mem_filterMap, wantedDefault,
    bind_eq_bind, bind_eq_some_iff, guard_eq_some', exists_const,
    some_inj, eq_comm (a := wa)]

private theorem mem_evaluated_read (hke : s.read.Keyed) :
    id ∈ s.evaluated r address ↔ ∃ policy, policy.id = id ∧ s.read.Evaluates r address policy := by
  rw [mem_bundles]
  cases hw : s.read.walletOf address with
  | some w =>
    constructor
    · rintro ⟨wa, hwn, rfl, policy, hp, hr⟩
      obtain ⟨b, hb, ho, policy', hp', hh, rfl⟩ := (mem_wanted_of_registered hw).1 hwn
      obtain rfl : policy' = policy := some_inj.1 (hp'.symm.trans hp)
      have hi : policy'.id = b.defId := hke _ _ hp
      refine ⟨policy', hi, hi.symm ▸ hp, ?_,
        fun hn => absurd (hw.symm.trans hn) (some_ne_none _)⟩
      intro w' hw'
      obtain rfl : w = w' := some_inj.1 (hw.symm.trans hw')
      exact ⟨b, hb, hi.symm, ho, hh, hr⟩
    · rintro ⟨policy, rfl, hp, hrg, -⟩
      obtain ⟨b, hb, hi, ho, hh, hr⟩ := hrg w hw
      exact ⟨_, (mem_wanted_of_registered hw).2
        ⟨b, hb, ho, policy, hi ▸ hp, hh, rfl⟩, hi, policy, hp, hr⟩
  | none =>
    constructor
    · rintro ⟨wa, hwn, rfl, policy, hp, hr⟩
      obtain ⟨policy', hm, hd, rfl⟩ := (mem_wanted_of_unregistered hw).1 hwn
      obtain ⟨key, hk⟩ := mem_values.1 hm
      obtain rfl : policy'.id = key := hke _ _ hk
      obtain rfl : policy' = policy := some_inj.1 (hk.symm.trans hp)
      exact ⟨policy', rfl, hp, fun w hw' => absurd (hw.symm.trans hw') (some_ne_none w).symm,
        fun _ => ⟨hd.1, hd.2, hr⟩⟩
    · rintro ⟨policy, rfl, hp, -, hu⟩
      obtain ⟨he, hh, hr⟩ := hu hw
      exact ⟨_, (mem_wanted_of_unregistered hw).2
        ⟨policy, mem_values.2 ⟨_, hp⟩, ⟨he, hh⟩, rfl⟩, rfl, policy, hp,
        hr⟩

/-! The normalisation at the read is not seen by the resolution. -/

@[simp] theorem anchor_id (policy : PolicyDef σ) : (s.anchor policy).id = policy.id := by
  unfold anchor
  split <;> rfl

@[simp] theorem anchor_hidden (policy : PolicyDef σ) :
    (s.anchor policy).hidden = policy.hidden := by
  unfold anchor
  split <;> rfl

@[simp] theorem anchor_defaults (policy : PolicyDef σ) :
    (s.anchor policy).defaults = policy.defaults := by
  unfold anchor
  split <;> rfl

theorem renders_anchor {ps : Option Params} {severity : Option Severity} :
    r.Renders (s.anchor policy) ps severity ↔ r.Renders policy ps severity := by
  unfold anchor
  split <;> rfl

theorem materialise_eq (library : Library σ) (w : WalletPolicyState) :
    ∃ packages, w.materialise library = { w with packages } := by
  unfold WalletPolicyState.materialise
  generalize w.bindings.values = bs
  induction bs generalizing w with
  | nil => exact ⟨w.packages, rfl⟩
  | cons b bs ih =>
    rw [foldl_cons]
    split
    · exact ih w
    · exact ih { w with packages := _ }

theorem evaluates_packages {packages : Record String WalletPackage} :
    { w with packages : WalletPolicyState }.Evaluates r policy ↔ w.Evaluates r policy := Iff.rfl

theorem evaluates_anchor : w.Evaluates r (s.anchor policy) ↔ w.Evaluates r policy := by
  simp [WalletPolicyState.Evaluates, renders_anchor]

theorem read_defs (key : String) :
    s.read.library.defs.get? key = (s.library.defs.get? key).map s.anchor := Record.get?_map _

theorem read_byAddress (key : String) :
    s.read.byAddress.get? key =
      (s.byAddress.get? key).map (·.materialise s.library) := Record.get?_map _

theorem walletOf_read :
    s.read.walletOf address = (s.walletOf address).map (·.materialise s.library) := by
  unfold walletOf
  cases (normalizeWalletAddress address "wallet address").toOption with
  | none => rfl
  | some key => exact read_byAddress key

theorem Snapshot.Keyed.read (h : s.Keyed) : s.read.Keyed := by
  intro key policy hk
  rw [read_defs, map_eq_some_iff] at hk
  obtain ⟨policy, hp, rfl⟩ := hk
  rw [anchor_id, h key policy hp]

theorem evaluates_read (hpo : s.library.defs.get? policy.id = some policy) :
    s.read.Evaluates r address (s.anchor policy) ↔ s.Evaluates r address policy := by
  have ha : s.read.library.defs.get? policy.id = some (s.anchor policy) := by
    rw [read_defs, hpo, map_some]
  constructor
  · rintro ⟨-, hr, hu⟩
    refine ⟨hpo, fun w hw => ?_, fun hw => ?_⟩
    · have he := hr (w.materialise s.library) (by rw [walletOf_read, hw]; rfl)
      obtain ⟨ps, hp⟩ := materialise_eq s.library w
      rw [hp, evaluates_packages, evaluates_anchor] at he
      exact he
    · have he := hu (by rw [walletOf_read, hw]; rfl)
      rwa [anchor_defaults, renders_anchor] at he
  · rintro ⟨-, hr, hu⟩
    refine ⟨by rwa [anchor_id], fun w hw => ?_, fun hw => ?_⟩
    · rw [walletOf_read, map_eq_some_iff] at hw
      obtain ⟨w, hw, rfl⟩ := hw
      obtain ⟨ps, hp⟩ := materialise_eq s.library w
      rw [hp, evaluates_packages, evaluates_anchor]
      exact hr w hw
    · rw [walletOf_read, map_eq_none_iff] at hw
      rw [anchor_defaults, renders_anchor]
      exact hu hw

theorem mem_evaluated (hk : s.Keyed) :
    id ∈ s.evaluated r address ↔ ∃ policy, policy.id = id ∧ s.Evaluates r address policy := by
  rw [mem_evaluated_read hk.read]
  constructor
  · rintro ⟨policy', rfl, he⟩
    have hp := he.defined
    rw [read_defs, map_eq_some_iff] at hp
    obtain ⟨policy, hp, ha⟩ := hp
    have hi : policy.id = policy'.id := hk _ _ hp
    refine ⟨policy, hi, (evaluates_read (hi ▸ hp)).1 ?_⟩
    rwa [ha]
  · rintro ⟨policy, rfl, he⟩
    exact ⟨s.anchor policy, anchor_id policy, (evaluates_read he.defined).2 he⟩

end Evaluated

/-! ## Additions -/

/-- What an addition does not take from a wallet: the bindings of the definitions that are
not replaced, and the packages that are on. -/
structure WalletPolicyState.Within (skip : String → Prop) (w w' : WalletPolicyState) : Prop where
  bindings : ∀ bid b, ¬ skip b.defId → w.bindings.get? bid = some b →
    w'.bindings.get? bid = some b
  packageOn : ∀ id, w.packageOn id = true → w'.packageOn id = true

structure Snapshot.Within (skip : String → Prop) (s t : Snapshot σ) : Prop where
  defs : ∀ id policy, ¬ skip id → s.library.defs.get? id = some policy →
    t.library.defs.get? id = some policy
  wallets : ∀ addr w, s.byAddress.get? addr = some w →
    ∃ w', t.byAddress.get? addr = some w' ∧ w.Within skip w'

section Additions

variable {s value label key address : String}

theorem normalizeWalletAddress_eq_ok :
    normalizeWalletAddress value label = .ok key ↔
      isEvmAddress value = true ∧ toLowerCase value = key := by
  simp [normalizeWalletAddress, bind_eq_ok, require_eq_ok]

theorem isEvmAddress_iff :
    isEvmAddress s = true ↔ ∃ digits, s.toList = '0' :: 'x' :: digits ∧ digits.length = 40 ∧
      ∀ c ∈ digits, c ∈ "0123456789abcdefABCDEF".toList := by
  unfold isEvmAddress
  split
  · next digits hd => simp [hd, isHexDigit]
  · next ho => simpa using fun digits heq => absurd heq (ho digits)

theorem normalizeWalletAddress_key (label' : String)
    (h : normalizeWalletAddress value label = .ok key) :
    normalizeWalletAddress key label' = .ok key := by
  have hd : "0123456789abcdefABCDEF".toList.all (fun c =>
      decide (c.toLower ∈ "0123456789abcdefABCDEF".toList ∧ c.toLower.toLower = c.toLower)) := by
    decide
  have hh c (hc : c ∈ "0123456789abcdefABCDEF".toList) :=
    of_decide_eq_true (List.all_eq_true.1 hd c hc)
  obtain ⟨had, rfl⟩ := normalizeWalletAddress_eq_ok.1 h
  obtain ⟨digits, hdg, hle, ha⟩ := isEvmAddress_iff.1 had
  have hl : (toLowerCase value).toList = '0' :: 'x' :: digits.map Char.toLower := by
    rw [toLowerCase, String.toList_ofList, hdg]
    rfl
  refine normalizeWalletAddress_eq_ok.2
    ⟨isEvmAddress_iff.2 ⟨_, hl, by simpa using hle, ?_⟩, ?_⟩
  · intro c hc
    obtain ⟨c, hme, rfl⟩ := List.mem_map.1 hc
    exact (hh c (ha c hme)).1
  · rw [← String.toList_inj, toLowerCase, String.toList_ofList, hl]
    have hm : digits.map (Char.toLower ∘ Char.toLower) = digits.map Char.toLower :=
      map_congr_left fun c hc => (hh c (ha c hc)).2
    rw [map_cons, map_cons, List.map_map, hm]
    rfl

theorem Snapshot.walletOf_eq {s : Snapshot σ} (h : normalizeWalletAddress address label = .ok key) :
    s.walletOf address = s.byAddress.get? key := by
  have hk : normalizeWalletAddress address "wallet address" = .ok key :=
    normalizeWalletAddress_eq_ok.2 (normalizeWalletAddress_eq_ok.1 h)
  rw [walletOf, hk]
  rfl

def Addition.addresses : Addition σ → List String
  | .bind o => o.addresses
  | .copyBindings o => [o.toAddress]
  | .installMarket o =>
    match o.scope with
    | .wallets addresses => addresses
    | .all | .libraryOnly => []
  | .provisionWallets addresses => addresses
  | .putWalletPackage address _ | .putWalletFolder address _ | .switchPackageOn address _ =>
    [address]
  | .duplicateDef _ _ => []

/-- The addition asks for the row with this key. -/
def Addition.Names (a : Addition σ) (key : String) : Prop :=
  ∃ address ∈ a.addresses, normalizeWalletAddress address "wallet address" = .ok key

/-- The definitions that an installation replaces. -/
def Addition.Replaces (id : String) : Addition σ → Prop
  | .installMarket o => id ∈ o.defs.map (·.id)
  | _ => False

end Additions

end Dambi.Extension.PolicyStore
