import Dambi.Extension.Protection

/-!
# What additions write

An addition writes to the rows of a draft in two ways: a row gets other packages or folders, a
new and empty row among them, or it gets one more binding under a new UUID. `Grows` says what
such writes leave of a draft, and everything else about additions follows from it.
-/

namespace Dambi.Extension.PolicyStore

open Fallible List Record Draft Option

variable {σ : Type} {uuid : Nat → String} {bound : Nat} {rows : String → Prop}
  {adds : Binding → Prop} {d d' d'' : Draft σ} {addr key address : String}
  {w : WalletPolicyState} {b : Binding} {p : Binding → Prop}

/-- A binding without its id. -/
def Binding.terms (b : Binding) : Binding := { b with id := "" }

/-! ## Drafts -/

theorem Draft.wallet_eq (h : d.store.byAddress.get? addr = some w) : d.wallet addr = w := by
  rw [Draft.wallet, h, getD_some]

theorem Draft.wallet_of_none (h : d.store.byAddress.get? addr = none) : d.wallet addr = .empty := by
  rw [Draft.wallet, h, getD_none]

theorem Draft.wallet_setWallet :
    (d.setWallet addr w).wallet key = if key = addr then w else d.wallet key := by
  unfold Draft.wallet Draft.setWallet
  rw [get?_insert]
  split <;> rfl

def Draft.Registered (d : Draft σ) (addr : String) : Prop :=
  ∃ w, d.store.byAddress.get? addr = some w

/-- A binding of the row is as `p` says. -/
def Draft.Holds (d : Draft σ) (addr : String) (p : Binding → Prop) : Prop :=
  ∃ b ∈ (d.wallet addr).bindings.values, p b

theorem Draft.Holds.registered (h : d.Holds addr p) : d.Registered addr := by
  obtain ⟨b, hb, -⟩ := h
  cases hr : d.store.byAddress.get? addr with
  | none =>
    rw [wallet_of_none hr] at hb
    exact absurd hb not_mem_nil
  | some w => exact ⟨w, hr⟩

theorem holds_addBinding : (d.addBinding uuid addr b).Holds addr (·.terms = b.terms) := by
  have hw : (d.addBinding uuid addr b).wallet addr = _ := wallet_setWallet.trans (if_pos rfl)
  rw [Draft.Holds, hw]
  exact ⟨_, mem_values.2 ⟨_, get?_insert_self⟩, rfl⟩

/-- The UUIDs below the bound that are not drawn yet are in no row. -/
def Draft.Fresh (uuid : Nat → String) (bound : Nat) (d : Draft σ) : Prop :=
  ∀ n, d.drawn ≤ n → n < bound → ∀ addr,
    (d.wallet addr).bindings.get? ("bind::" ++ uuid n) = none

/-! ## Writes -/

/-- What is left by writes to `rows` that add the bindings `adds`. A binding is overwritten
only under a UUID that is not new. -/
structure Grows (uuid : Nat → String) (bound : Nat) (rows : String → Prop) (adds : Binding → Prop)
    (d d' : Draft σ) : Prop where
  drawn : d.drawn ≤ d'.drawn
  library : d'.library = d.library
  frame : ∀ addr, ¬ rows addr → d'.store.byAddress.get? addr = d.store.byAddress.get? addr
  registered : ∀ addr, d.Registered addr → d'.Registered addr
  switches : ∀ addr, (d'.wallet addr).packageEnabled = (d.wallet addr).packageEnabled
  added : ∀ addr, ∀ b ∈ (d'.wallet addr).bindings.values,
    b ∈ (d.wallet addr).bindings.values ∨ adds b.terms
  kept : d'.drawn ≤ bound → d.Fresh uuid bound → d'.Fresh uuid bound ∧
    ∀ addr bid b, (d.wallet addr).bindings.get? bid = some b →
      (d'.wallet addr).bindings.get? bid = some b

namespace Grows

theorem refl : Grows uuid bound rows adds d d :=
  ⟨le_rfl, rfl, fun _ _ => rfl, fun _ h => h, fun _ => rfl, fun _ _ => .inl,
    fun _ hf => ⟨hf, fun _ _ _ h => h⟩⟩

theorem trans (h : Grows uuid bound rows adds d d') (h' : Grows uuid bound rows adds d' d'') :
    Grows uuid bound rows adds d d'' where
  drawn := h.drawn.trans h'.drawn
  library := h'.library.trans h.library
  frame a hr := (h'.frame a hr).trans (h.frame a hr)
  registered a hr := h'.registered a (h.registered a hr)
  switches a := (h'.switches a).trans (h.switches a)
  added a b hb := (h'.added a b hb).elim (h.added a b) .inr
  kept hb hf := by
    obtain ⟨hf, hk⟩ := h.kept (h'.drawn.trans hb) hf
    obtain ⟨hf', hk'⟩ := h'.kept hb hf
    exact ⟨hf', fun a bid b hc => hk' a bid b (hk a bid b hc)⟩

theorem holds (h : Grows uuid bound rows adds d d') (hb : d'.drawn ≤ bound)
    (hf : d.Fresh uuid bound) (hh : d.Holds addr p) : d'.Holds addr p := by
  obtain ⟨c, hc, hp⟩ := hh
  obtain ⟨bid, hc⟩ := mem_values.1 hc
  exact ⟨c, mem_values.2 ⟨bid, (h.kept hb hf).2 addr bid c hc⟩, hp⟩

section Loops

variable {ι : Type} {f : Draft σ → ι → Except Fault (Draft σ)} {xs : List ι}

theorem foldlM (step : ∀ e x e', x ∈ xs → f e x = .ok e' → Grows uuid bound rows adds e e')
    (h : xs.foldlM f d = .ok d') : Grows uuid bound rows adds d d' :=
  foldlM_invariant (Grows uuid bound rows adds d)
    (fun e x e' hx hg hs => hg.trans (step e x e' hx hs)) h .refl

/-- What each iteration establishes, the loop leaves. -/
theorem foldlM_all {Q : ι → Draft σ → Prop}
    (step : ∀ e x e', x ∈ xs → Grows uuid bound rows adds d e → f e x = .ok e' →
      Grows uuid bound rows adds e e' ∧ Q x e')
    (mono : ∀ x e e', Grows uuid bound rows adds e e' → e'.drawn ≤ bound →
      e.Fresh uuid bound → Q x e → Q x e')
    (h : xs.foldlM f d = .ok d') : Grows uuid bound rows adds d d' ∧
      (d'.drawn ≤ bound → d.Fresh uuid bound → ∀ x ∈ xs, Q x d') := by
  refine foldlM_progress (fun done e => Grows uuid bound rows adds d e ∧
    (e.drawn ≤ bound → d.Fresh uuid bound → ∀ x ∈ done, Q x e)) ?_ h ⟨.refl, by simp⟩
  rintro done x e e' hx ⟨hg, hd⟩ hs
  obtain ⟨hg', hq⟩ := step e x e' hx hg hs
  refine ⟨hg.trans hg', fun hb hf y hy => ?_⟩
  have he := hg'.drawn.trans hb
  obtain hy | hy := mem_append.1 hy
  · exact mono y e e' hg' hb (hg.kept he hf).1 (hd he hf y hy)
  · exact mem_singleton.1 hy ▸ hq

end Loops

theorem write {k : Nat} (hk : d.drawn ≤ k) (ha : rows addr)
    (hs : w.packageEnabled = (d.wallet addr).packageEnabled)
    (hn : ∀ b ∈ w.bindings.values, b ∈ (d.wallet addr).bindings.values ∨ adds b.terms)
    (hw : k ≤ bound → d.Fresh uuid bound →
      (∀ bid b, (d.wallet addr).bindings.get? bid = some b → w.bindings.get? bid = some b) ∧
      ∀ n, k ≤ n → n < bound → w.bindings.get? ("bind::" ++ uuid n) = none) :
    Grows uuid bound rows adds d { d.setWallet addr w with drawn := k } := by
  have hwa : ∀ key, ({ d.setWallet addr w with drawn := k } : Draft σ).wallet key =
      if key = addr then w else d.wallet key := fun _ => wallet_setWallet (d := d)
  refine ⟨hk, rfl, fun key hr => ?_, fun key hr => ?_, fun key => ?_, fun key c hc => ?_,
    fun hle hf => ⟨fun n hkn hlt key => ?_, fun key bid c hc => ?_⟩⟩
  · exact get?_insert_of_ne fun heq => hr (heq ▸ ha)
  · by_cases h : key = addr
    · exact ⟨w, by rw [h]; exact get?_insert_self⟩
    · exact hr.imp fun _ => (get?_insert_of_ne h).trans
  · rw [hwa]
    split_ifs with h
    · exact h ▸ hs
    · rfl
  · rw [hwa] at hc
    split_ifs at hc with h
    · exact h ▸ hn c hc
    · exact .inl hc
  · rw [hwa]
    split_ifs
    · exact (hw hle hf).2 n hkn hlt
    · exact hf n (hk.trans hkn) hlt key
  · rw [hwa]
    split_ifs with h
    · exact (hw hle hf).1 bid c (h ▸ hc)
    · exact hc

theorem edit (ha : rows addr) (hb : w.bindings = (d.wallet addr).bindings)
    (hs : w.packageEnabled = (d.wallet addr).packageEnabled) :
    Grows uuid bound rows adds d (d.setWallet addr w) := by
  refine .write le_rfl ha hs ?_ fun _ hf => ?_ <;> rw [hb]
  · exact fun _ => .inl
  · exact ⟨fun _ _ h => h, fun n hn hlt => hf n hn hlt addr⟩

theorem addBinding (hi : ∀ m < bound, ∀ n < bound, uuid m = uuid n → m = n) (ha : rows addr)
    (hb : adds b.terms) : Grows uuid bound rows adds d (d.addBinding uuid addr b) := by
  refine .write (Nat.le_succ _) ha rfl (fun c hc => ?_)
    fun hle hf => ⟨fun bid c hc => ?_, fun n hkn hlt => ?_⟩
  · obtain ⟨bid, hc⟩ := mem_values.1 hc
    rw [get?_insert] at hc
    split_ifs at hc
    · obtain rfl := some_inj.1 hc
      exact .inr hb
    · exact .inl (mem_values.2 ⟨bid, hc⟩)
  · refine (get?_insert_of_ne ?_).trans hc
    rintro rfl
    cases (hf d.drawn le_rfl hle addr).symm.trans hc
  · refine (get?_insert_of_ne fun heq => ?_).trans (hf n (Nat.le_of_succ_le hkn) hlt addr)
    have := hi n hlt d.drawn hle ((String.append_right_inj _).1 heq)
    omega

end Grows

/-! ## Operations -/

/-- The definitions that a new row starts with. -/
structure PolicyDef.Provisioned (policy : PolicyDef σ) : Prop where
  enabled : policy.defaults.enabled = true
  shown : policy.hidden = false
  complete : policy.holesOk none = true

/-- The bindings of the default definitions that are not hidden. -/
def Draft.Provisions (d : Draft σ) (c : Binding) : Prop :=
  ∃ policy ∈ d.library.defs.values, policy.Provisioned ∧ policy.defaultBinding = c

section Operations

variable {packageId source bid : String} {policy : PolicyDef σ} {provisionDefaults : Bool}
  {row : String × Draft σ}

theorem Draft.walletAt_eq_ok (h : d.walletAt uuid address provisionDefaults = .ok row) :
    normalizeWalletAddress address "wallet address" = .ok row.1 ∧
      ((∃ w, d.store.byAddress.get? row.1 = some w) ∧ row.2 = d ∨
        d.store.byAddress.get? row.1 = none ∧
          (provisionDefaults = true ∧
              (d.setWallet row.1 .empty).bindDefaultDefs uuid row.1 = .ok row.2 ∨
            provisionDefaults = false ∧ row.2 = d.setWallet row.1 .empty)) := by
  obtain ⟨addr, ha, h⟩ := bind_eq_ok.1 h
  split at h
  · next hs =>
    cases h
    exact ⟨ha, .inl ⟨isSome_iff_exists.1 hs, rfl⟩⟩
  · next hn =>
    rw [not_isSome_iff_eq_none] at hn
    split at h
    · next hde =>
      obtain ⟨d', hd', h⟩ := bind_eq_ok.1 h
      cases h
      exact ⟨ha, .inr ⟨hn, .inl ⟨hde, hd'⟩⟩⟩
    · next hde =>
      cases h
      exact ⟨ha, .inr ⟨hn, .inr ⟨Bool.eq_false_of_not_eq_true hde, rfl⟩⟩⟩

variable (hi : ∀ m < bound, ∀ n < bound, uuid m = uuid n → m = n)
include hi

theorem grows_bindPackaged (ha : rows addr) (hb : adds b.terms)
    (h : (do
      let e ← d.ensureWalletPackage addr packageId
      .ok (e.addBinding uuid addr b)) = .ok d') :
    Grows uuid bound rows adds d d' ∧ d'.Holds addr (·.terms = b.terms) := by
  obtain ⟨e, he, h⟩ := bind_eq_ok.1 h
  obtain rfl := Except.ok.inj h
  obtain ⟨_, -, he⟩ := bind_eq_ok.1 he
  refine ⟨.trans ?_ (.addBinding hi ha hb), holds_addBinding⟩
  split at he <;> obtain rfl := Except.ok.inj he
  · exact .refl
  · exact .edit ha rfl rfl

theorem grows_bindDefaultDef (ha : rows addr)
    (hb : policy.Provisioned → adds policy.defaultBinding)
    (h : d.bindDefaultDef uuid addr policy = .ok d') : Grows uuid bound rows adds d d' ∧
      (policy.Provisioned → d'.Holds addr (·.defId = policy.id)) := by
  unfold bindDefaultDef at h
  split_ifs at h with hd hh hm hc
  · cases h
    exact ⟨.refl, fun hp => by simp [hp.enabled] at hd⟩
  · cases h
    exact ⟨.refl, fun hp => by simp [hp.shown] at hh⟩
  · cases h
    exact ⟨.refl, fun hp => by simp [List.isEmpty_iff.1 hp.complete] at hm⟩
  · cases h
    obtain ⟨c, hm, hc⟩ := List.any_eq_true.1 hc
    exact ⟨.refl, fun _ => ⟨c, hm, (by simpa using hc : _ ∧ _).1⟩⟩
  · have hp : policy.Provisioned :=
      ⟨by simpa using hd, by simpa using hh, by simpa [PolicyDef.holesOk] using hm⟩
    obtain ⟨hg, c, hm, hc⟩ := grows_bindPackaged hi ha (hb hp) h
    exact ⟨hg, fun _ => ⟨c, hm, congrArg Binding.defId hc⟩⟩

/-- The row is there, and if it is new and with the default definitions, it has all of them. -/
theorem grows_walletAt (ha : rows row.1)
    (hb : provisionDefaults = true → ∀ c, d.Provisions c → adds c)
    (h : d.walletAt uuid address provisionDefaults = .ok row) :
    Grows uuid bound rows adds d row.2 ∧ row.2.Registered row.1 ∧
      (provisionDefaults = true → d.store.byAddress.get? row.1 = none → row.2.drawn ≤ bound →
        d.Fresh uuid bound → ∀ policy ∈ d.library.defs.values, policy.Provisioned →
          row.2.Holds row.1 (·.defId = policy.id)) := by
  obtain ⟨-, ⟨⟨w, hw⟩, heq⟩ | ⟨hn, hr⟩⟩ := walletAt_eq_ok h
  · rw [heq]
    exact ⟨.refl, ⟨w, hw⟩, fun _ hn => absurd (hw.symm.trans hn) (some_ne_none w)⟩
  · have he : Grows uuid bound rows adds d (d.setWallet row.1 .empty) := by
      refine .edit ha ?_ ?_ <;> rw [wallet_of_none hn]
    have hs : (d.setWallet row.1 .empty).Registered row.1 := ⟨.empty, get?_insert_self⟩
    obtain ⟨hp, hd⟩ | ⟨hp, heq⟩ := hr
    · obtain ⟨hg, hq⟩ : Grows uuid bound rows adds _ row.2 ∧ _ :=
        Grows.foldlM_all (fun e policy e' hm _ hs => grows_bindDefaultDef hi ha
          (fun hpr => hb hp _ ⟨policy, hm, hpr, rfl⟩) hs)
          (fun _ _ _ hg hle hf hq hpr => hg.holds hle hf (hq hpr)) hd
      exact ⟨he.trans hg, hg.registered _ hs, fun _ _ hle hf =>
        hq hle (he.kept (hg.drawn.trans hle) hf).1⟩
    · rw [heq]
      exact ⟨he, hs, fun hp' => absurd (hp'.symm.trans hp) nofun⟩

theorem grows_bindAt {o : BindOptions} (hb : adds o.binding)
    (hr : ∀ key, normalizeWalletAddress address "wallet address" = .ok key → rows key)
    (h : bindAt uuid o d address = .ok d') : Grows uuid bound rows adds d d' ∧
      ∀ key, normalizeWalletAddress address "wallet address" = .ok key →
        d'.Holds key (·.terms = o.binding) := by
  obtain ⟨row, hw, h⟩ := bind_eq_ok.1 h
  have hk := (walletAt_eq_ok hw).1
  obtain ⟨hg, hh⟩ := grows_bindPackaged hi (hr _ hk) hb h
  refine ⟨(grows_walletAt hi (hr _ hk) nofun hw).1.trans hg, fun key hkey => ?_⟩
  obtain rfl : key = row.1 := Except.ok.inj (hkey.symm.trans hk)
  exact hh

theorem grows_copyBinding (hr : rows addr)
    (hb : ∀ src, (d.wallet source).bindings.get? bid = some src → adds src.terms)
    (h : copyBinding uuid source addr d bid = .ok d') : Grows uuid bound rows adds d d' ∧
      ∀ src, (d.wallet source).bindings.get? bid = some src →
        d'.Holds addr (·.terms = src.terms) := by
  obtain ⟨_, -, h⟩ := bind_eq_ok.1 h
  split at h
  · next hn =>
    split_ifs at h
    cases h
    refine ⟨.refl, fun src hs => ?_⟩
    cases hn.symm.trans hs
  · next src hs =>
    have hd : Grows uuid bound rows adds d d' ∧ d'.Holds addr (·.terms = src.terms) := by
      split_ifs at h <;> obtain rfl := Except.ok.inj h
      · exact ⟨.addBinding hi hr (hb src hs), holds_addBinding⟩
      · refine ⟨.trans ?_ (.addBinding hi hr (hb src hs)), holds_addBinding⟩
        exact .edit hr rfl rfl
    refine ⟨hd.1, fun src' hs' => ?_⟩
    obtain rfl := some_inj.1 (hs.symm.trans hs')
    exact hd.2

theorem grows_installAt {o : InstallOptions σ}
    (hb : ∀ c : Binding, c.defId ∈ o.defs.map (·.id) → adds c)
    (hr : ∀ key, normalizeWalletAddress address "wallet address" = .ok key → rows key)
    (h : installAt uuid o d address = .ok d') : Grows uuid bound rows adds d d' ∧
      ∀ key, normalizeWalletAddress address "wallet address" = .ok key → d'.Registered key := by
  obtain ⟨row, hw, h⟩ := bind_eq_ok.1 h
  have hk := (walletAt_eq_ok hw).1
  obtain ⟨hd, hs, -⟩ := grows_walletAt hi (hr _ hk) nofun hw
  have hg : Grows uuid bound rows adds row.2 d' := by
    refine .foldlM (fun e policy e' hm hs => ?_) h
    unfold installBinding at hs
    dsimp only at hs
    split_ifs at hs
    · cases hs
      exact .refl
    · exact (grows_bindPackaged hi (hr _ hk) (hb _ (List.mem_map_of_mem hm)) hs).1
  refine ⟨hd.trans hg, fun key hkey => ?_⟩
  obtain rfl : key = row.1 := Except.ok.inj (hkey.symm.trans hk)
  exact hg.registered _ hs

end Operations

end Dambi.Extension.PolicyStore
