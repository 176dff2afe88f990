import Dambi.Extension.Writes

/-!
# Registering an address

The row that an addition writes for an address without one holds exactly the bindings
that the addition makes. `keepsProtection_iff` compares them with the default
definitions that protected the address before.
-/

namespace Dambi.Extension.PolicyStore

open Fallible List Record Draft Snapshot Option

variable {σ : Type} {uuid : Nat → String} {bound : Nat} {rows rows' skip : String → Prop}
  {adds content : Binding → Prop} {d d' : Draft σ} {key address : String}
  {w : WalletPolicyState} {a : Addition σ} {o : InstallOptions σ}

/-! ## What is kept -/

/-- What is there is kept, and no other address than those of `rows` is registered. -/
structure Extends (skip rows : String → Prop) (s t : Snapshot σ) : Prop where
  within : s.Within skip t
  outside : ∀ key, ¬ rows key → s.byAddress.get? key = none → t.byAddress.get? key = none

section Extends

variable {s t u : Snapshot σ}

theorem Extends.of_byAddress (h : t.byAddress = s.byAddress)
    (hd : ∀ id policy, ¬ skip id → s.library.defs.get? id = some policy →
      t.library.defs.get? id = some policy) : Extends skip rows s t := by
  refine ⟨⟨hd, fun addr w hw => ⟨w, h ▸ hw, fun _ _ _ h => h, fun _ h => h⟩⟩, fun key _ hn => ?_⟩
  rwa [h]

theorem Extends.trans (h : Extends skip rows s t) (h' : Extends skip rows t u) :
    Extends skip rows s u := by
  refine ⟨⟨fun id p hs hp => h'.within.defs id p hs (h.within.defs id p hs hp), ?_⟩,
    fun key hk hn => h'.outside key hk (h.outside key hk hn)⟩
  intro addr w hw
  obtain ⟨w', hw', hi⟩ := h.within.wallets addr w hw
  obtain ⟨w'', hw'', hi'⟩ := h'.within.wallets addr w' hw'
  exact ⟨w'', hw'', fun bid b hs hb => hi'.bindings bid b hs (hi.bindings bid b hs hb),
    fun id ho => hi'.packageOn id (hi.packageOn id ho)⟩

theorem Grows.extends (h : Grows uuid bound rows adds d d') (hb : d'.drawn ≤ bound)
    (hf : d.Fresh uuid bound) (hr : ∀ key, rows key → d.Registered key ∨ rows' key) :
    Extends skip rows' d.store d'.store := by
  refine ⟨⟨fun id policy _ hp => ?_, fun addr w hw => ?_⟩, fun key hk hn => ?_⟩
  · rwa [show d'.store.library = _ from h.library]
  · obtain ⟨w', hw'⟩ := h.registered addr ⟨w, hw⟩
    refine ⟨w', hw', fun bid b _ hc => ?_, fun id hid => ?_⟩
    · rw [← wallet_eq hw']
      exact (h.kept hb hf).2 addr bid b (wallet_eq hw ▸ hc)
    · rw [← wallet_eq hw] at hid
      rwa [WalletPolicyState.packageOn, ← wallet_eq hw', h.switches addr]
  · refine (h.frame key fun hrow => ?_).trans hn
    obtain ⟨w, hw⟩ | hrow := hr key hrow
    · cases hn.symm.trans hw
    · exact hk hrow

theorem extends_installDef {policy : PolicyDef σ} (hs : skip policy.id)
    (h : installDef o d policy = .ok d') : Extends skip rows d.store d'.store ∧
      (d.Fresh uuid bound → d'.Fresh uuid bound) := by
  have hd (id : String) (old : PolicyDef σ) (hi : ¬ skip id)
      (ho : d.library.defs.get? id = some old) :
      (d.library.defs.insert policy.id { policy with source := .market }).get? id = some old :=
    (get?_insert_of_ne (by rintro rfl; exact hi hs)).trans ho
  unfold installDef at h
  dsimp only at h
  split at h
  · obtain ⟨_, -, h⟩ := bind_eq_ok.1 h
    obtain rfl := Except.ok.inj h
    refine ⟨⟨⟨hd, fun addr w hw => ?_⟩, fun key _ hn => (get?_map _).trans (congrArg _ hn)⟩,
      fun hf n hn hlt addr => ?_⟩
    · refine ⟨_, (get?_map _).trans (congrArg _ hw), fun bid b hb hg => ?_, fun _ h => h⟩
      refine (get?_map _).trans ((congrArg _ hg).trans ?_)
      have hne : b.defId ≠ policy.id := fun heq => hb (heq ▸ hs)
      rw [map_some, if_neg hne]
    · have hn := hf n hn hlt addr
      unfold Draft.wallet at hn ⊢
      rw [get?_map]
      cases hr : d.store.byAddress.get? addr with
      | none => rfl
      | some w =>
        rw [hr] at hn
        exact (get?_map _).trans (congrArg _ hn)
  · cases h
    exact ⟨.of_byAddress rfl hd, id⟩

theorem extends_installLibrary
    (h : o.defs.foldlM (installDef o) (installPackage o d) = .ok d') :
    Extends (· ∈ o.defs.map (·.id)) rows d.store d'.store ∧
      (d.Fresh uuid bound → d'.Fresh uuid bound) := by
  refine foldlM_invariant (fun e => Extends (· ∈ o.defs.map (·.id)) rows d.store e.store ∧
    (d.Fresh uuid bound → e.Fresh uuid bound)) ?_ h ?_
  · rintro e policy e' hm ⟨he, hf⟩ hs
    obtain ⟨he', hf'⟩ := extends_installDef (List.mem_map_of_mem hm) hs
    exact ⟨he.trans he', hf' ∘ hf⟩
  · unfold installPackage
    split <;> exact ⟨.of_byAddress rfl fun _ _ _ h => h, id⟩

end Extends

/-! ## Operations -/

def Snapshot.Normalised (s : Snapshot σ) : Prop :=
  ∀ key w, s.byAddress.get? key = some w → normalizeWalletAddress key "wallet address" = .ok key

section Operations

theorem provisionWallet_eq_ok (h : provisionWallet uuid d address = .ok d') :
    ∃ addr, normalizeWalletAddress address "wallet address" = .ok addr ∧
      (d.Registered addr ∧ d' = d ∨
        d.store.byAddress.get? addr = none ∧ d.walletAt uuid addr true = .ok (addr, d')) := by
  obtain ⟨addr, ha, h⟩ := bind_eq_ok.1 h
  refine ⟨addr, ha, ?_⟩
  split at h
  · next hsm =>
    cases h
    exact .inl ⟨isSome_iff_exists.1 hsm, rfl⟩
  · next hn =>
    obtain ⟨row, hr, h⟩ := bind_eq_ok.1 h
    cases h
    obtain rfl : addr = row.1 := Except.ok.inj
      ((normalizeWalletAddress_key _ ha).symm.trans (walletAt_eq_ok hr).1)
    exact .inr ⟨not_isSome_iff_eq_none.1 hn, hr⟩

variable (hi : ∀ m < bound, ∀ n < bound, uuid m = uuid n → m = n)
include hi

theorem grows_bind {o : BindOptions} (h : PolicyStore.bind uuid o d = .ok d') :
    Grows uuid bound (Addition.bind o : Addition σ).Names (o.binding = ·) d d' ∧
      ∀ key, (Addition.bind o : Addition σ).Names key → d'.drawn ≤ bound →
        d.Fresh uuid bound → d'.Holds key (·.terms = o.binding) := by
  obtain ⟨_, -, h⟩ := bind_eq_ok.1 h
  obtain ⟨_, -, h⟩ := bind_eq_ok.1 h
  obtain ⟨_, -, h⟩ := bind_eq_ok.1 h
  obtain ⟨_, -, h⟩ := bind_eq_ok.1 h
  obtain ⟨hg, hq⟩ : Grows uuid bound (Addition.bind o : Addition σ).Names (o.binding = ·) d d' ∧
      _ :=
    Grows.foldlM_all (fun e address e' hm _ hs =>
      grows_bindAt hi rfl (fun key hk => ⟨address, hm, hk⟩) hs)
      (fun _ _ _ hg hb hf hq key hk => hg.holds hb hf (hq key hk)) h
  exact ⟨hg, fun key ⟨address, hm, hk⟩ hb hf => hq hb hf address hm key hk⟩

/-- The bindings of the source that are copied, if it is another wallet. -/
def CopyOptions.Copies (o : CopyOptions) (source target : String) (w : WalletPolicyState)
    (c : Binding) : Prop :=
  source = target ∨ ∃ bid ∈ o.bindingIds, ∃ src, w.bindings.get? bid = some src ∧ src.terms = c

theorem grows_copyBindings {o : CopyOptions} (h : copyBindings uuid o d = .ok d') :
    ∃ source w key, normalizeWalletAddress o.fromAddress "source wallet address" = .ok source ∧
      d.store.byAddress.get? source = some w ∧
      normalizeWalletAddress o.toAddress "wallet address" = .ok key ∧
      Grows uuid bound (· = key) (o.Copies source key w) d d' ∧ d'.Registered key ∧
      (source ≠ key → d'.drawn ≤ bound → d.Fresh uuid bound →
        ∀ c, o.Copies source key w c → d'.Holds key (·.terms = c)) := by
  obtain ⟨source, hso, h⟩ := bind_eq_ok.1 h
  obtain ⟨_, hrg, h⟩ := bind_eq_ok.1 h
  obtain ⟨row, hr, h⟩ := bind_eq_ok.1 h
  obtain ⟨w, hw⟩ := isSome_iff_exists.1 (require_eq_ok.1 hrg)
  refine ⟨source, w, row.1, hso, hw, (walletAt_eq_ok hr).1, ?_⟩
  obtain ⟨hg, hs, -⟩ : Grows uuid bound (· = row.1) (o.Copies source row.1 w) d row.2 ∧ _ :=
    grows_walletAt hi rfl (by nofun) hr
  obtain ⟨hc, hq⟩ : Grows uuid bound (· = row.1) (o.Copies source row.1 w) row.2 d' ∧ _ := by
    refine Grows.foldlM_all (Q := fun bid e => source ≠ row.1 → ∀ src,
      w.bindings.get? bid = some src → e.Holds row.1 (·.terms = src.terms))
      (fun e bid e' hm he hst => ?_)
      (fun _ _ _ hg hb hf hq hne src hsr => hg.holds hb hf (hq hne src hsr)) h
    -- another wallet is copied from as it was
    have hsrc (hne : source ≠ row.1) : e.wallet source = w :=
      wallet_eq ((he.frame source hne).trans ((hg.frame source hne).trans hw))
    have hcp (src : Binding) (hsr : (e.wallet source).bindings.get? bid = some src) :
        o.Copies source row.1 w src.terms := by
      by_cases hne : source = row.1
      · exact .inl hne
      · exact .inr ⟨bid, hm, src, hsrc hne ▸ hsr, rfl⟩
    obtain ⟨hge, hh⟩ : Grows uuid bound (· = row.1) (o.Copies source row.1 w) e e' ∧ _ :=
      grows_copyBinding hi rfl hcp hst
    exact ⟨hge, fun hne src hsr => hh src (by rwa [hsrc hne])⟩
  refine ⟨hg.trans hc, hc.registered _ hs, fun hne hb hf c hcp => ?_⟩
  obtain heq | ⟨bid, hm, src, hsr, rfl⟩ := hcp
  · exact absurd heq hne
  · exact hq hb (hg.kept (hc.drawn.trans hb) hf).1 bid hm hne src hsr

theorem grows_provisionWallet (hb : ∀ c, d.Provisions c → adds c)
    (hr : ∀ key, normalizeWalletAddress address "wallet address" = .ok key → rows key)
    (h : provisionWallet uuid d address = .ok d') :
    Grows uuid bound rows adds d d' ∧
      ∀ key, normalizeWalletAddress address "wallet address" = .ok key → d'.Registered key := by
  obtain ⟨addr, ha, ⟨hw, rfl⟩ | ⟨-, hw⟩⟩ := provisionWallet_eq_ok h
  · exact ⟨.refl, fun key hk => Except.ok.inj (ha.symm.trans hk) ▸ hw⟩
  · obtain ⟨hg, hs, -⟩ := grows_walletAt hi (hr addr ha) (fun _ => hb) hw
    exact ⟨hg, fun key hk => Except.ok.inj (ha.symm.trans hk) ▸ hs⟩

theorem grows_provisionWallets {addresses : List String}
    (h : provisionWallets uuid addresses d = .ok d') :
    Grows uuid bound (Addition.provisionWallets addresses : Addition σ).Names d.Provisions d d' ∧
      ∀ key, (Addition.provisionWallets addresses : Addition σ).Names key →
        d'.drawn ≤ bound → d.Fresh uuid bound → d'.Registered key := by
  obtain ⟨hg, hq⟩ : Grows uuid bound (Addition.provisionWallets addresses : Addition σ).Names
      d.Provisions d d' ∧ _ := by
    refine Grows.foldlM_all (Q := fun address e => ∀ key,
      normalizeWalletAddress address "wallet address" = .ok key → e.Registered key)
      (fun e address e' hm he hs => ?_)
      (fun _ _ _ hg _ _ hq key hk => hg.registered key (hq key hk)) h
    refine grows_provisionWallet hi (fun c hc => ?_) (fun key hk => ⟨address, hm, hk⟩) hs
    rwa [Draft.Provisions, he.library] at hc
  exact ⟨hg, fun key ⟨address, hm, hk⟩ hb hf => hq hb hf address hm key hk⟩

theorem grows_installMarket (ha : d.store.Normalised) (h : installMarket uuid o d = .ok d') :
    ∃ e, Extends (· ∈ o.defs.map (·.id)) (fun _ => False) d.store e.store ∧
      (d.Fresh uuid bound → e.Fresh uuid bound) ∧
      Grows uuid bound (fun key => e.Registered key ∨ (Addition.installMarket o).Names key)
        (fun c => c.defId ∈ o.defs.map (·.id)) e d' ∧
      ∀ key, (Addition.installMarket o).Names key → d'.drawn ≤ bound → d.Fresh uuid bound →
        d'.Registered key := by
  obtain ⟨_, -, h⟩ := bind_eq_ok.1 h
  obtain ⟨e, hl, h⟩ := bind_eq_ok.1 h
  obtain ⟨he, hf⟩ : Extends _ (fun _ => False) d.store e.store ∧
      (d.Fresh uuid bound → e.Fresh uuid bound) := extends_installLibrary hl
  refine ⟨e, he, hf, ?_⟩
  split at h
  · next hsc =>
    cases h
    exact ⟨.refl, fun key ⟨address, hm, _⟩ => by simp [Addition.addresses, hsc] at hm⟩
  · next hsc =>
    obtain ⟨_, -, h⟩ := bind_eq_ok.1 h
    refine ⟨.foldlM (fun e₁ address e₂ hm hs => ?_) h,
      fun key ⟨address, hm, _⟩ => by simp [Addition.addresses, hsc] at hm⟩
    refine (grows_installAt hi (fun _ h => h) (fun key hk => .inl ?_) hs).1
    -- the rows of all wallets are there
    obtain ⟨w, hw⟩ := mem_keys.1 hm
    cases ho : d.store.byAddress.get? address with
    | none => cases (he.outside address id ho).symm.trans hw
    | some old => exact Except.ok.inj ((ha address old ho).symm.trans hk) ▸ ⟨w, hw⟩
  · next addresses hsc =>
    obtain ⟨_, -, h⟩ := bind_eq_ok.1 h
    obtain ⟨keys, hke, h⟩ := bind_eq_ok.1 h
    have hnm : (Addition.installMarket o).addresses = addresses := by
      rw [Addition.addresses, hsc]
    obtain ⟨hg, hq⟩ : Grows uuid bound
        (fun key => e.Registered key ∨ (Addition.installMarket o).Names key)
        (fun c => c.defId ∈ o.defs.map (·.id)) e d' ∧ _ := by
      refine Grows.foldlM_all (Q := fun address e => ∀ key,
        normalizeWalletAddress address "wallet address" = .ok key → e.Registered key)
        (fun e₁ address e₂ hm _ hs => ?_)
        (fun _ _ _ hg _ _ hq key hk => hg.registered key (hq key hk)) h
      refine grows_installAt hi (fun _ h => h) (fun key hk => .inr ?_) hs
      obtain ⟨named, hna, hno⟩ := exists_of_mem_mapM hke hm
      obtain rfl : address = key := Except.ok.inj ((normalizeWalletAddress_key _ hno).symm.trans hk)
      exact ⟨named, hnm ▸ hna, hno⟩
    refine ⟨hg, fun key ⟨named, hna, hno⟩ hb hfr => ?_⟩
    obtain ⟨key', hm, hk'⟩ := exists_mem_of_mapM hke (hnm ▸ hna)
    obtain rfl : key' = key := Except.ok.inj (hk'.symm.trans hno)
    exact hq hb (hf hfr) key' hm key' (normalizeWalletAddress_key _ hno)

theorem extends_walletAt {row : String × Draft σ} (hb : d'.drawn ≤ bound)
    (hf : d.Fresh uuid bound) (h : d.walletAt uuid address true = .ok row)
    (hg : Grows uuid bound (row.1 = ·) (fun _ => True) row.2 d') :
    Extends skip (fun key => ∃ t ∈ [address], normalizeWalletAddress t "wallet address" = .ok key)
      d.store d'.store := by
  have he : Grows uuid bound (row.1 = ·) (fun _ => True) d row.2 :=
    (grows_walletAt hi rfl (fun _ _ _ => trivial) h).1
  refine (he.trans hg).extends hb hf ?_
  rintro _ rfl
  exact .inr ⟨address, mem_singleton_self _, (walletAt_eq_ok h).1⟩

/-- Every addition keeps what is there and registers no address but those it names. -/
theorem Addition.extends (hd : ∀ n < bound, d.library.defs.get? ("def::" ++ uuid n) = none)
    (ha : d.store.Normalised) (hb : d'.drawn ≤ bound) (hf : d.Fresh uuid bound)
    (h : a.apply uuid d = .ok d') : Extends (fun id => a.Replaces id) a.Names d.store d'.store := by
  cases a with
  | bind o => exact (grows_bind hi h).1.extends hb hf fun _ => .inr
  | copyBindings o =>
    obtain ⟨source, w, key, -, -, hk, hg, -⟩ := grows_copyBindings hi h
    refine hg.extends hb hf ?_
    rintro _ rfl
    exact .inr ⟨o.toAddress, mem_singleton_self _, hk⟩
  | installMarket o =>
    obtain ⟨e, he, hf', hg, -⟩ := grows_installMarket hi ha h
    have he' : Extends _ (Addition.installMarket o).Names d.store e.store :=
      ⟨he.within, fun key _ => he.outside key id⟩
    exact he'.trans (hg.extends hb (hf' hf) fun _ => id)
  | provisionWallets addresses =>
    exact (grows_provisionWallets hi h).1.extends hb hf fun _ => .inr
  | putWalletPackage address pkg =>
    obtain ⟨_, -, h⟩ := bind_eq_ok.1 h
    obtain ⟨_, -, h⟩ := bind_eq_ok.1 h
    obtain ⟨row, hr, h⟩ := bind_eq_ok.1 h
    obtain rfl := Except.ok.inj h
    exact extends_walletAt hi hb hf hr (.edit rfl rfl rfl)
  | putWalletFolder address f =>
    obtain ⟨_, -, h⟩ := bind_eq_ok.1 h
    obtain ⟨row, hr, h⟩ := bind_eq_ok.1 h
    obtain rfl := Except.ok.inj h
    exact extends_walletAt hi hb hf hr (.edit rfl rfl rfl)
  | duplicateDef di packageId =>
    obtain ⟨result, hrs, rfl⟩ := map_eq_ok.1 h
    obtain ⟨_, -, h⟩ := bind_eq_ok.1 hrs
    obtain ⟨_, -, h⟩ := bind_eq_ok.1 h
    obtain ⟨_, -, h⟩ := bind_eq_ok.1 h
    obtain ⟨src, -, h⟩ := bind_eq_ok.1 h
    obtain rfl := Except.ok.inj h
    refine .of_byAddress rfl fun id policy _ hp => (get?_insert_of_ne ?_).trans hp
    rintro rfl
    cases (hd d.drawn hb).symm.trans hp
  | switchPackageOn address packageId =>
    obtain ⟨_, -, h⟩ := bind_eq_ok.1 h
    obtain ⟨row, hr, h⟩ := bind_eq_ok.1 h
    obtain rfl := Except.ok.inj h
    have he : Extends (fun _ => False) (Addition.switchPackageOn address packageId :
        Addition σ).Names d.store row.2.store := extends_walletAt hi hb hf hr .refl
    refine he.trans ⟨⟨fun _ _ _ h => h, fun addr w hw => ?_⟩,
      fun key hn => (get?_insert_of_ne ?_).trans⟩
    · by_cases h : addr = row.1
      · subst h
        refine ⟨_, get?_insert_self, ?_⟩
        rw [wallet_eq hw]
        refine ⟨fun _ _ _ hb => hb, fun id hid => ?_⟩
        unfold WalletPolicyState.packageOn switchedOn at hid ⊢
        rw [get?_insert]
        split_ifs
        · rfl
        · exact hid
      · exact ⟨w, (get?_insert_of_ne h).trans hw, fun _ _ _ h => h, fun _ h => h⟩
    · rintro rfl
      exact hn ⟨address, mem_singleton_self _, (walletAt_eq_ok hr).1⟩

end Operations

/-! ## Rows -/

/-- The address has a row with these switches, and `content` are the terms of its
bindings. -/
def Row (d : Draft σ) (key : String) (switches : Record String Bool) (content : Binding → Prop) :
    Prop :=
  ∃ w, d.store.byAddress.get? key = some w ∧ w.packageEnabled = switches ∧
    ∀ c, content c ↔ ∃ b ∈ w.bindings.values, b.terms = c

section Rows

variable {switches switches' : Record String Bool} {row : String × Draft σ} {r : Renderer σ}
  {policy : PolicyDef σ}

theorem Grows.newRow (h : Grows uuid bound rows content d d')
    (hn : d.store.byAddress.get? key = none) (hr : d'.Registered key)
    (hc : ∀ c, content c → d'.Holds key (·.terms = c)) : Row d' key .empty content := by
  obtain ⟨w, hw⟩ := hr
  have hs := h.switches key
  rw [wallet_of_none hn, wallet_eq hw] at hs
  unfold Draft.Holds at hc
  rw [wallet_eq hw] at hc
  refine ⟨w, hw, hs, fun c => ⟨hc c, ?_⟩⟩
  rintro ⟨b, hb, rfl⟩
  refine (h.added key b (wallet_eq hw ▸ hb)).resolve_left ?_
  rw [wallet_of_none hn]
  exact not_mem_nil

theorem Row.setWallet (h : Row d key switches content) (hb : w.bindings = (d.wallet key).bindings)
    (hs : (d.wallet key).packageEnabled = switches → w.packageEnabled = switches') :
    Row (d.setWallet key w) key switches' content := by
  obtain ⟨old, ho, hsw, hc⟩ := h
  rw [wallet_eq ho] at hb hs
  exact ⟨w, get?_insert_self, hs hsw, hb ▸ hc⟩

theorem Row.evaluates (h : Row d key switches content) :
    ∃ w, d.store.byAddress.get? key = some w ∧ (w.Evaluates r policy ↔ ∃ c, content c ∧
      c.defId = policy.id ∧ (switchedOn switches c.packageId = true ∧ c.enabled = true) ∧
        r.Renders policy c.params c.severity) := by
  obtain ⟨w, hw, rfl, hco⟩ := h
  refine ⟨w, hw, ?_, ?_⟩
  · rintro ⟨b, hb, hi, ho, hr⟩
    exact ⟨b.terms, (hco _).2 ⟨b, hb, rfl⟩, hi, Bool.and_eq_true_iff.1 ho, hr⟩
  · rintro ⟨c, hc, hi, ho, hr⟩
    obtain ⟨b, hb, rfl⟩ := (hco c).1 hc
    exact ⟨b, hb, hi, Bool.and_eq_true_iff.2 ho, hr⟩

theorem Snapshot.Keyed.eq_of_id {s : Snapshot σ} {p q : PolicyDef σ} (h : s.Keyed)
    (hp : p ∈ s.library.defs.values)
    (hq : q ∈ s.library.defs.values) (hi : p.id = q.id) : p = q := by
  obtain ⟨k, hk⟩ := mem_values.1 hp
  obtain ⟨l, hl⟩ := mem_values.1 hq
  obtain rfl : k = l := (h k p hk).symm.trans (hi.trans (h l q hl))
  exact some_inj.1 (hk.symm.trans hl)

variable (hi : ∀ m < bound, ∀ n < bound, uuid m = uuid n → m = n) (hf : d.Fresh uuid bound)
  (hk : d.store.Keyed)
include hi hf hk

theorem row_walletAt (hn : d.store.byAddress.get? row.1 = none) (hle : row.2.drawn ≤ bound)
    (h : d.walletAt uuid address true = .ok row) : Row row.2 row.1 .empty d.Provisions := by
  obtain ⟨hg, hr, hc⟩ : Grows uuid bound (fun _ => True) d.Provisions d row.2 ∧ _ :=
    grows_walletAt hi trivial (fun _ _ h => h) h
  refine hg.newRow hn hr ?_
  rintro _ ⟨policy, hm, hp, rfl⟩
  obtain ⟨b, hb, hid⟩ := hc rfl hn hle hf policy hm hp
  obtain hb' | ⟨q, hq, -, hqe⟩ := hg.added _ b hb
  · rw [wallet_of_none hn] at hb'
    exact absurd hb' not_mem_nil
  · -- the binding is of a default definition, and no two have the same id
    obtain rfl : q = policy := hk.eq_of_id hq hm ((congrArg Binding.defId hqe).trans hid)
    exact ⟨b, hb, hqe.symm⟩

theorem row_provision {addresses : List String} (hn : d.store.byAddress.get? key = none)
    (hle : d'.drawn ≤ bound) (hnm : (Addition.provisionWallets addresses : Addition σ).Names key)
    (h : provisionWallets uuid addresses d = .ok d') : Row d' key .empty d.Provisions := by
  obtain ⟨hg, hr⟩ := grows_provisionWallets hi h
  refine hg.newRow hn (hr key hnm hle hf) ?_
  -- the first address with this key makes the row, and the others leave it
  refine (foldlM_invariant (fun e => Grows uuid bound (fun _ => True) d.Provisions d e ∧
    (e.Registered key → e.drawn ≤ bound → ∀ c, d.Provisions c → e.Holds key (·.terms = c)))
    ?_ h ⟨.refl, fun ⟨w, hw⟩ => nomatch hn.symm.trans hw⟩).2 (hr key hnm hle hf) hle
  rintro e address e' - ⟨he, hc⟩ hs
  have hl : e.Provisions = d.Provisions := by
    unfold Draft.Provisions
    rw [he.library]
  obtain ⟨addr, ha, ⟨-, rfl⟩ | ⟨hn', hw⟩⟩ := provisionWallet_eq_ok hs
  · exact ⟨he, hc⟩
  obtain ⟨hg', -⟩ : Grows uuid bound (addr = ·) e.Provisions e e' ∧ _ :=
    grows_walletAt hi rfl (fun _ _ h => h) hw
  have he' : Grows uuid bound (fun _ => True) d.Provisions e e' :=
    (grows_walletAt hi trivial (fun _ c h => hl ▸ h) hw).1
  refine ⟨he.trans he', fun hrg hb c hpc => ?_⟩
  by_cases h : addr = key
  · subst h
    obtain ⟨w, hw, -, hco⟩ := row_walletAt hi (he.kept (he'.drawn.trans hb) hf).1
      (by unfold Snapshot.Keyed; rwa [show e.store.library = _ from he.library]) hn' hb hw
    obtain ⟨b, hm, ht⟩ := (hco c).1 (hl ▸ hpc)
    exact ⟨b, wallet_eq hw ▸ hm, ht⟩
  · have hfr := hg'.frame key h
    refine he'.holds hb (he.kept (he'.drawn.trans hb) hf).1
      (hc (hrg.imp fun w => hfr.symm.trans) (he'.drawn.trans hb) c hpc)

end Rows

/-! ## Protection -/

/-- The addition itself binds the definition to an address that it registers, so that it is
evaluated there. -/
def Addition.Binds (r : Renderer σ) (s : Snapshot σ) (policy : PolicyDef σ) : Addition σ → Prop
  | .bind o =>
    o.defId = policy.id ∧ o.enabled.getD true = true ∧ o.packageId ∉ objectMembers ∧
      r.Renders policy o.params o.severity
  | .copyBindings o =>
    ∃ w, s.walletOf o.fromAddress = some w ∧ ∃ bid ∈ o.bindingIds, ∃ b,
      w.bindings.get? bid = some b ∧ b.defId = policy.id ∧ b.enabled = true ∧
        b.packageId ∉ objectMembers ∧ r.Renders policy b.params b.severity
  | .installMarket _ | .duplicateDef _ _ => False
  | .provisionWallets _ | .putWalletPackage _ _ | .putWalletFolder _ _ =>
    policy.hidden = false ∧ policy.packageId ∉ objectMembers
  | .switchPackageOn _ packageId =>
    policy.hidden = false ∧ (policy.packageId = packageId ∨ policy.packageId ∉ objectMembers)

section Protection

variable {r : Renderer σ} {policy : PolicyDef σ}
  {id packageId : String} {switches : Record String Bool} {row : String × Draft σ}

theorem switchedOn_empty : switchedOn .empty id = true ↔ id ∉ objectMembers := by
  simp [switchedOn]

theorem switchedOn_insert :
    switchedOn (Record.empty.insert packageId true) id = true ↔
      id = packageId ∨ id ∉ objectMembers := by
  unfold switchedOn
  rw [get?_insert]
  by_cases h : id = packageId
  · simp [h]
  · simp [h]

theorem renders_defaultBinding :
    r.Renders policy (nonEmpty policy.defaults.params) none ↔ r.Renders policy none none := by
  have hm : policy.merged (nonEmpty policy.defaults.params) = policy.merged none := by
    unfold PolicyDef.merged nonEmpty
    split
    · rfl
    · exact union_self _
  simp [Renderer.Renders, PolicyDef.holesOk, PolicyDef.missingRequiredHoles, hm]

section

variable (hk : d.store.Keyed) (hp : d.library.defs.get? policy.id = some policy)
  (hd : policy.defaults.enabled = true ∧ r.Renders policy none none)
include hk hp hd

theorem Row.evaluates_default (hr : Row d' key switches d.Provisions) :
    ∃ w, d'.store.byAddress.get? key = some w ∧
      (w.Evaluates r policy ↔
        policy.hidden = false ∧ switchedOn switches policy.packageId = true) := by
  have hm : policy ∈ d.library.defs.values := mem_values.2 ⟨_, hp⟩
  obtain ⟨w, hw, he⟩ := hr.evaluates
  refine ⟨w, hw, he.trans ⟨?_, ?_⟩⟩
  · rintro ⟨_, ⟨p, hp, hpr, rfl⟩, hi, ⟨ho, -⟩, -⟩
    obtain rfl : p = policy := hk.eq_of_id hp hm hi
    exact ⟨hpr.shown, ho⟩
  · rintro ⟨hsh, ho⟩
    exact ⟨policy.defaultBinding, ⟨policy, hm, ⟨hd.1, hsh, hd.2.1⟩, rfl⟩, rfl,
      ⟨ho, rfl⟩, renders_defaultBinding.2 hd.2⟩

variable (hi : ∀ m < bound, ∀ n < bound, uuid m = uuid n → m = n) (hf : d.Fresh uuid bound)
  (hb : d'.drawn ≤ bound) (hn : d.store.byAddress.get? key = none)
include hi hf hb hn

theorem evaluates_changed
    (hnm : ∃ t ∈ [address], normalizeWalletAddress t "wallet address" = .ok key)
    (hw : d.walletAt uuid address true = .ok row)
    (h : (.ok (row.2.setWallet row.1 w) : Except Fault (Draft σ)) = .ok d')
    (hbi : w.bindings = (row.2.wallet row.1).bindings)
    (hs : (row.2.wallet row.1).packageEnabled = .empty → w.packageEnabled = switches) :
    ∃ w', d'.store.byAddress.get? key = some w' ∧
      (w'.Evaluates r policy ↔
        policy.hidden = false ∧ switchedOn switches policy.packageId = true) := by
  obtain rfl := Except.ok.inj h
  obtain ⟨t, hm, hkey⟩ := hnm
  obtain rfl := mem_singleton.1 hm
  obtain rfl : row.1 = key := Except.ok.inj ((walletAt_eq_ok hw).1.symm.trans hkey)
  exact ((row_walletAt hi hf hk hn hb hw).setWallet hbi hs).evaluates_default hk hp hd

theorem Addition.evaluates_iff_binds (ha : d.store.Normalised) (hnm : a.Names key)
    (hkp : ¬ a.Replaces policy.id) (h : a.apply uuid d = .ok d') :
    ∃ w, d'.store.byAddress.get? key = some w ∧
      (w.Evaluates r policy ↔ a.Binds r d.store policy) := by
  cases a with
  | bind o =>
    obtain ⟨hg, hc⟩ := grows_bind hi h
    have hh := hc key hnm hb hf
    obtain ⟨w, hw, he⟩ := (hg.newRow hn hh.registered (by rintro _ rfl; exact hh)).evaluates
    refine ⟨w, hw, he.trans ?_⟩
    simp only [exists_eq_left', switchedOn_empty, Addition.Binds, BindOptions.binding]
    tauto
  | copyBindings o =>
    obtain ⟨source, w, target, hso, hw, ht, hg, hr, hc⟩ := grows_copyBindings hi h
    obtain ⟨t, hm, hkey⟩ := hnm
    obtain rfl := mem_singleton.1 hm
    obtain rfl : target = key := Except.ok.inj (ht.symm.trans hkey)
    have hne : source ≠ target := by
      rintro rfl
      cases hn.symm.trans hw
    obtain ⟨w', hw', he⟩ := (hg.newRow hn hr (hc hne hb hf)).evaluates
    refine ⟨w', hw', he.trans ?_⟩
    simp only [switchedOn_empty, Addition.Binds, CopyOptions.Copies, hne, false_or,
      walletOf_eq hso, hw, some_inj, exists_eq_left']
    constructor
    · rintro ⟨_, ⟨bid, hbi, b, hb, rfl⟩, hid, ⟨ho, hen⟩, hre⟩
      exact ⟨bid, hbi, b, hb, hid, hen, ho, hre⟩
    · rintro ⟨bid, hbi, b, hb, hid, hen, ho, hre⟩
      exact ⟨b.terms, ⟨bid, hbi, b, hb, rfl⟩, hid, ⟨ho, hen⟩, hre⟩
  | installMarket o =>
    obtain ⟨e, he, -, hg, hr⟩ := grows_installMarket hi ha h
    obtain ⟨w, hw⟩ := hr key hnm hb hf
    refine ⟨w, hw, iff_of_false ?_ id⟩
    rintro ⟨b, hm, hid, -⟩
    obtain hm | hm := hg.added key b (wallet_eq hw ▸ hm)
    · rw [wallet_of_none (he.outside key id hn)] at hm
      exact absurd hm not_mem_nil
    · exact hkp (hid ▸ hm)
  | provisionWallets addresses =>
    obtain ⟨w, hw, he⟩ := (row_provision hi hf hk hn hb hnm h).evaluates_default hk hp hd
    exact ⟨w, hw, he.trans (and_congr_right' switchedOn_empty)⟩
  | putWalletPackage address pkg =>
    obtain ⟨_, -, h⟩ := bind_eq_ok.1 h
    obtain ⟨_, -, h⟩ := bind_eq_ok.1 h
    obtain ⟨row, hwa, h⟩ := bind_eq_ok.1 h
    obtain ⟨w, hw, he⟩ := evaluates_changed hk hp hd hi hf hb hn hnm hwa h rfl id
    exact ⟨w, hw, he.trans (and_congr_right' switchedOn_empty)⟩
  | putWalletFolder address f =>
    obtain ⟨_, -, h⟩ := bind_eq_ok.1 h
    obtain ⟨row, hwa, h⟩ := bind_eq_ok.1 h
    obtain ⟨w, hw, he⟩ := evaluates_changed hk hp hd hi hf hb hn hnm hwa h rfl id
    exact ⟨w, hw, he.trans (and_congr_right' switchedOn_empty)⟩
  | duplicateDef di packageId =>
    obtain ⟨_, hm, -⟩ := hnm
    cases hm
  | switchPackageOn address packageId =>
    obtain ⟨_, -, h⟩ := bind_eq_ok.1 h
    obtain ⟨row, hwa, h⟩ := bind_eq_ok.1 h
    obtain ⟨w, hw, he⟩ := evaluates_changed hk hp hd hi hf hb hn hnm hwa h rfl
      (congrArg (Record.insert · packageId true))
    exact ⟨w, hw, he.trans (and_congr_right' switchedOn_insert)⟩

end

theorem Addition.binds_read {s : Snapshot σ} :
    a.Binds r s.read (s.anchor policy) ↔ a.Binds r s policy := by
  cases a with
  | copyBindings o =>
    simp only [Addition.Binds, walletOf_read, anchor_id, renders_anchor, map_eq_some_iff]
    constructor
    · rintro ⟨_, ⟨w, hw, rfl⟩, hb⟩
      obtain ⟨ps, hp⟩ := materialise_eq s.library w
      rw [hp] at hb
      exact ⟨w, hw, hb⟩
    · rintro ⟨w, hw, hb⟩
      obtain ⟨ps, hp⟩ := materialise_eq s.library w
      refine ⟨_, ⟨w, hw, rfl⟩, ?_⟩
      rw [hp]
      exact hb
  | _ => simp [Addition.Binds, PolicyDef.packageId, renders_anchor]

end Protection

/-! ## Reachable stores -/

section Reachable

variable {s s' t : Snapshot σ} {f : Draft σ → Except Fault (Draft σ)} {r : Renderer σ}
  {policy : PolicyDef σ}

theorem normalised_of_validate (h : validate s = .ok ()) : s.Normalised := by
  intro key w hk
  obtain ⟨_, _, h⟩ := bind_eq_ok.1 h
  obtain ⟨_, _, h⟩ := bind_eq_ok.1 h
  obtain ⟨_, _, h⟩ := bind_eq_ok.1 h
  have he := forM_eq_ok.1 h (key, w) (mem_entries.2 hk)
  obtain ⟨n, hn, he⟩ := bind_eq_ok.1 he
  obtain ⟨_, hl, _⟩ := bind_eq_ok.1 he
  exact hn.trans (congrArg _ (require_eq_ok.1 hl).symm)

theorem mutate_eq_ok :
    s.mutate f = .ok s' ↔
      ∃ d, f ⟨s.read, 0⟩ = .ok d ∧ validate d.store = .ok () ∧ d.store = s' := by
  unfold Snapshot.mutate
  simp only [bind_eq_ok, Except.ok.injEq]
  constructor
  · rintro ⟨d, hd, _, hvalid, rfl⟩
    exact ⟨d, hd, hvalid, rfl⟩
  · rintro ⟨d, hd, hvalid, rfl⟩
    exact ⟨d, hd, (), hvalid, rfl⟩

theorem commit_cases (f : Draft σ → Except Fault (Draft σ)) :
    s.commit f = s ∨ validate (s.commit f) = .ok () := by
  unfold Snapshot.commit
  cases h : s.mutate f with
  | error e => exact .inl rfl
  | ok s' =>
    obtain ⟨d, -, hvalid, rfl⟩ := mutate_eq_ok.1 h
    exact .inr hvalid

theorem Reachable.wellFormed (h : Reachable s) : s.Keyed ∧ s.Normalised := by
  induction h with
  | seeded b =>
    obtain heq | hvalid := commit_cases (s := Snapshot.empty σ)
      (fun d => .ok (seedBuiltins b d))
    · rw [heq]
      exact ⟨fun _ _ hn => absurd hn nofun, fun _ _ hn => absurd hn nofun⟩
    · exact ⟨keyed_of_validate hvalid, normalised_of_validate hvalid⟩
  | step uuid c _ ih =>
    obtain heq | hvalid := commit_cases fun d => c.apply uuid d
    · rw [heq]
      exact ih
    · exact ⟨keyed_of_validate hvalid, normalised_of_validate hvalid⟩

/-- An id of the store is made of the UUID. -/
def Snapshot.HasUuid (s : Snapshot σ) (text : String) : Prop :=
  "def::" ++ text ∈ s.library.defs.keys ∨
    ∃ w ∈ s.byAddress.values, "bind::" ++ text ∈ w.bindings.keys

/-- The UUIDs that are drawn differ, and no id of the store has one. -/
structure NewUuids (uuid : Nat → String) (drawn : Nat) (s : Snapshot σ) : Prop where
  injective : ∀ m < drawn, ∀ n < drawn, uuid m = uuid n → m = n
  new : ∀ n < drawn, ¬ s.HasUuid (uuid n)

theorem NewUuids.defs (h : NewUuids uuid bound s) {n : Nat} (hn : n < bound) :
    s.library.defs.get? ("def::" ++ uuid n) = none := by
  rw [Option.eq_none_iff_forall_ne_some]
  exact fun policy hp => h.new n hn (.inl (mem_keys.2 ⟨policy, hp⟩))

theorem NewUuids.bindings (h : NewUuids uuid bound s) {n : Nat} (hn : n < bound) {addr : String}
    (hw : s.byAddress.get? addr = some w) : w.bindings.get? ("bind::" ++ uuid n) = none := by
  rw [Option.eq_none_iff_forall_ne_some]
  exact fun b hb => h.new n hn (.inr ⟨w, mem_values.2 ⟨addr, hw⟩, mem_keys.2 ⟨b, hb⟩⟩)

theorem fresh_of_newUuids (h : NewUuids uuid bound s) :
    (⟨s.read, 0⟩ : Draft σ).Fresh uuid bound := by
  intro n _ hlt addr
  rw [Draft.wallet, show (⟨s.read, 0⟩ : Draft σ).store.byAddress.get? addr = _ from
    read_byAddress addr]
  cases ho : s.byAddress.get? addr with
  | none => rfl
  | some w =>
    obtain ⟨ps, hp⟩ := materialise_eq s.library w
    have hb := h.bindings hlt ho
    rwa [map_some, getD_some, hp]

theorem Snapshot.Normalised.read (h : s.Normalised) : s.read.Normalised := by
  intro key w hw
  obtain ⟨old, ho, -⟩ := map_eq_some_iff.1 ((read_byAddress key).symm.trans hw)
  exact h key old ho

theorem Snapshot.Within.evaluates {sk : String → Prop} (h : s.Within sk t) (hsk : ¬ sk policy.id)
    (hwa : (s.walletOf address).isSome = true ∨ t.walletOf address = none)
    (he : s.Evaluates r address policy) : t.Evaluates r address policy := by
  refine ⟨h.defs _ _ hsk he.defined, fun w' hw' => ?_, fun hnone => ?_⟩
  · obtain hsm | hnone := hwa
    · obtain ⟨w, hw⟩ := isSome_iff_exists.1 hsm
      obtain ⟨key, hk, hr⟩ := bind_eq_some_iff.1 hw
      obtain ⟨w'', hw'', hwi⟩ := h.wallets key w hr
      obtain rfl : w'' = w' := by
        rw [walletOf, hk] at hw'
        exact some_inj.1 (hw''.symm.trans hw')
      obtain ⟨b, hb, hi, ho, hre⟩ := he.registered w hw
      obtain ⟨bid, hbi⟩ := mem_values.1 hb
      have hke := hwi.bindings bid b (hi ▸ hsk) hbi
      refine ⟨b, mem_values.2 ⟨bid, hke⟩, hi, ?_, hre⟩
      rw [WalletPolicyState.isEffectiveOn, Bool.and_eq_true_iff] at ho ⊢
      exact ⟨hwi.packageOn _ ho.1, ho.2⟩
    · rw [hnone] at hw'
      cases hw'
  · refine he.unregistered ?_
    cases hw : s.walletOf address with
    | none => rfl
    | some w =>
      obtain ⟨key, hk, hr⟩ := bind_eq_some_iff.1 hw
      obtain ⟨w', hw', -⟩ := h.wallets key w hr
      rw [walletOf, hk] at hnone
      exact absurd (hw'.symm.trans hnone) (some_ne_none w')

/-- Every definition that was evaluated for the address is evaluated afterwards, those that
the addition replaces apart. -/
def Addition.KeepsProtection (a : Addition σ) (r : Renderer σ) (address : String)
    (s t : Snapshot σ) : Prop :=
  ∀ id ∈ s.evaluated r address, ¬ a.Replaces id → id ∈ t.evaluated r address

/-- The addition binds every default definition that it would otherwise take away. -/
def Addition.CoversDefaults (a : Addition σ) (r : Renderer σ) (address : String)
    (s : Snapshot σ) : Prop :=
  ∀ policy, s.library.defs.get? policy.id = some policy → policy.id ∈ s.evaluated r address →
    ¬ a.Replaces policy.id → a.Binds r s policy

def Snapshot.Accepts (s : Snapshot σ) (f : Draft σ → Except Fault (Draft σ)) : Prop :=
  ∃ s', s.mutate f = .ok s'

section Applied

variable (hs : Reachable s) (huuid : NewUuids uuid d'.drawn s)
  (happly : a.apply uuid ⟨s.read, 0⟩ = .ok d') (hvalid : validate d'.store = .ok ())

include hs huuid happly

theorem extends_of_apply : Extends (fun id => a.Replaces id) a.Names s.read d'.store := by
  refine Addition.extends huuid.injective (fun n hn => ?_) hs.wellFormed.2.read le_rfl
    (fresh_of_newUuids huuid) happly
  exact (read_defs _).trans (by rw [huuid.defs hn, map_none])

include hvalid

theorem evaluated_of_not_new (hke : ¬ a.Replaces policy.id) (ho : ¬ (s.walletOf address = none ∧
      ∃ key, normalizeWalletAddress address "wallet address" = .ok key ∧ a.Names key))
    (he : s.Evaluates r address policy) : policy.id ∈ d'.store.evaluated r address := by
  have hg := extends_of_apply hs huuid happly
  refine (mem_evaluated (keyed_of_validate hvalid)).2 ⟨s.anchor policy, anchor_id policy, ?_⟩
  refine hg.within.evaluates (by rwa [anchor_id]) ?_ ((evaluates_read he.defined).2 he)
  cases hw : s.walletOf address with
  | some w => exact .inl (by rw [walletOf_read, hw]; rfl)
  | none =>
    right
    cases hk : normalizeWalletAddress address "wallet address" with
    | error e => rw [walletOf, hk]; rfl
    | ok key =>
      have hn : ¬ a.Names key := fun hn => ho ⟨hw, key, hk, hn⟩
      rw [walletOf_eq hk]
      refine hg.outside key hn ?_
      rw [← walletOf_eq hk, walletOf_read, hw, map_none]

/-- At an address that is registered now, a default definition is kept if it is bound. -/
theorem evaluated_iff_binds (hk : ¬ a.Replaces policy.id) (hnn : s.walletOf address = none)
    (hky : normalizeWalletAddress address "wallet address" = .ok key) (hn : a.Names key)
    (he : s.Evaluates r address policy) :
    policy.id ∈ d'.store.evaluated r address ↔ a.Binds r s policy := by
  have hke' : d'.store.Keyed := keyed_of_validate hvalid
  have hr : s.read.Evaluates r address (s.anchor policy) := (evaluates_read he.defined).2 he
  have hrn : s.read.walletOf address = none := by rw [walletOf_read, hnn, map_none]
  have hk' : ¬ a.Replaces (s.anchor policy).id := by rwa [anchor_id]
  have hd := (extends_of_apply hs huuid happly).within.defs _ _ hk' hr.defined
  have hf := fresh_of_newUuids huuid
  obtain ⟨w, hw, hi⟩ := Addition.evaluates_iff_binds (d := ⟨s.read, 0⟩) hs.wellFormed.1.read
    hr.defined (hr.unregistered hrn) huuid.injective hf le_rfl ((walletOf_eq hky).symm.trans hrn)
    hs.wellFormed.2.read hn hk' happly
  have hwa : d'.store.walletOf address = some w := (walletOf_eq hky).trans hw
  rw [← Addition.binds_read, ← hi]
  constructor
  · intro hm
    obtain ⟨after, hid, ha⟩ := (mem_evaluated hke').1 hm
    have hsa : d'.store.library.defs.get? (s.anchor policy).id = some after := by
      rw [anchor_id, ← hid]
      exact ha.defined
    obtain rfl : after = s.anchor policy := some_inj.1 (hsa.symm.trans hd)
    exact ha.registered w hwa
  · intro hev
    refine (mem_evaluated hke').2 ⟨_, anchor_id policy, hd, fun w' hw' => ?_, fun h => ?_⟩
    · exact some_inj.1 (hwa.symm.trans hw') ▸ hev
    · exact absurd (hwa.symm.trans h) (some_ne_none _)

end Applied

/-- An addition keeps the protection of an address, unless it registers the address and does
not bind the defaults. -/
theorem keepsProtection_iff (hs : Reachable s) (a : Addition σ)
    (huuid : ∀ d, a.apply uuid ⟨s.read, 0⟩ = .ok d → NewUuids uuid d.drawn s)
    (r : Renderer σ) (address : String) :
    a.KeepsProtection r address s (s.commit fun d => a.apply uuid d) ↔
      ((s.Accepts fun d => a.apply uuid d) → s.walletOf address = none →
        ∀ key, normalizeWalletAddress address "wallet address" = .ok key → a.Names key →
          a.CoversDefaults r address s) := by
  have hke := hs.wellFormed.1
  unfold Snapshot.commit
  cases hm : s.mutate fun d => a.apply uuid d with
  | error e =>
    refine iff_of_true (fun _ hi _ => hi) ?_
    rintro ⟨s', hs'⟩
    rw [hm] at hs'
    cases hs'
  | ok s' =>
    have ha : s.Accepts fun d => a.apply uuid d := ⟨s', hm⟩
    obtain ⟨d', happly, hvalid, rfl⟩ := mutate_eq_ok.1 hm
    have huuid := huuid d' happly
    by_cases hn : s.walletOf address = none ∧
        ∃ key, normalizeWalletAddress address "wallet address" = .ok key ∧ a.Names key
    · obtain ⟨hnn, key, hky, hnm⟩ := hn
      constructor
      · intro hkp _ _ _ _ _ policy hp hi hk
        obtain ⟨policy', hi', he⟩ := (mem_evaluated hke).1 hi
        have hd := he.defined
        rw [hi'] at hd
        obtain rfl : policy' = policy := some_inj.1 (hd.symm.trans hp)
        exact (evaluated_iff_binds hs huuid happly hvalid hk hnn hky hnm he).1
          (hkp policy'.id hi hk)
      · intro hc id hi hk
        obtain ⟨policy, rfl, he⟩ := (mem_evaluated hke).1 hi
        exact (evaluated_iff_binds hs huuid happly hvalid hk hnn hky hnm he).2
          (hc ha hnn key hky hnm policy he.defined hi hk)
    · refine iff_of_true ?_ fun _ hnn key hky hnm => absurd ⟨hnn, key, hky, hnm⟩ hn
      intro id hi hk
      obtain ⟨policy, rfl, he⟩ := (mem_evaluated hke).1 hi
      exact evaluated_of_not_new hs huuid happly hvalid hk hn he

end Reachable

/-! ## A seeded store -/

section Seeded

/-- A store with one builtin definition and one of the user, which is off by default. -/
def seededStore : Snapshot Unit :=
  (((Snapshot.empty Unit).commit fun d => .ok (seedBuiltins [("x", ())] d)).commit fun d =>
    (Command.putDef ⟨"def::mine", false, none, none, "mine", (), [], ⟨false, .empty, none⟩,
      .mine⟩).apply (fun _ => "") d)

theorem reachable_seededStore : Reachable seededStore := .step _ _ (.seeded _)

def plainRenderer : Renderer Unit := ⟨fun id _ _ _ => some ⟨id, .null⟩, fun _ => none⟩

def oneUuid (_ : Nat) : String := "9b1deb4d-3b7d-4bad-9bdd-2b0d7b3dcb6d"

theorem newUuids_seededStore {a : Addition Unit} {d : Draft Unit}
    (h : ((a.apply oneUuid ⟨seededStore.read, 0⟩).map (·.drawn)).toOption = some 1)
    (hd : a.apply oneUuid ⟨seededStore.read, 0⟩ = .ok d) :
    NewUuids oneUuid d.drawn seededStore := by
  rw [hd] at h
  have h1 : d.drawn = 1 := Option.some.inj h
  refine ⟨fun m hm n hn _ => by omega, fun n _ => ?_⟩
  rintro (hd | ⟨w, hw, -⟩)
  · rw [oneUuid] at hd
    exact absurd hd (by decide +kernel)
  · have hv : seededStore.byAddress.values.length = 0 := by decide +kernel
    rw [length_eq_zero_iff.1 hv] at hw
    cases hw

def someWallet : String := "0xA100000000000000000000000000000000000001"

/-- Provisioning binds the builtin definition that protected the address. -/
theorem keepsProtection_iff_provision :
    seededStore.evaluated plainRenderer someWallet = ["def::builtin.x"] ∧
      (Addition.provisionWallets [someWallet]).KeepsProtection plainRenderer someWallet seededStore
        (seededStore.commit fun d =>
          (Addition.provisionWallets [someWallet]).apply oneUuid d) := by
  refine ⟨by decide +kernel, (keepsProtection_iff reachable_seededStore
    (.provisionWallets [someWallet]) (fun _ => newUuids_seededStore (by decide +kernel))
    plainRenderer someWallet).2 ?_⟩
  intro _ _ key _ _ policy hp _ _
  have hsh : seededStore.library.defs.values.all (fun p =>
      !p.hidden && !objectMembers.contains p.packageId) = true := by decide +kernel
  have hp := List.all_eq_true.1 hsh policy (mem_values.2 ⟨_, hp⟩)
  simpa [Addition.Binds] using hp

/-- Binding a definition to an address without a row takes its builtin protection away. -/
theorem bind_drops_builtin :
    ∃ (s : Snapshot Unit) (uuid : Nat → String) (a : Addition Unit) (r : Renderer Unit)
      (address : String), Reachable s ∧
        (∀ d, a.apply uuid ⟨s.read, 0⟩ = .ok d → NewUuids uuid d.drawn s) ∧
        ¬ a.KeepsProtection r address s (s.commit fun d => a.apply uuid d) := by
  refine ⟨seededStore, oneUuid,
    .bind ⟨"def::mine", uncategorizedPkg, [someWallet], none, none, none⟩, plainRenderer,
    someWallet, reachable_seededStore, fun _ => newUuids_seededStore (by decide +kernel),
    fun hk => ?_⟩
  have ha := hk "def::builtin.x" (by decide +kernel) id
  revert ha
  decide +kernel

end Seeded

end Dambi.Extension.PolicyStore
