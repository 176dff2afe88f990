import Dambi.Session.ScamChannel

/-!
# Installing scam bundles

The bundle and the settings of a scam channel are replaced by different
operations. Each of them checks the pair of presets that its half gives together
with the other half, so in every state that is reached the pair exists.
-/

namespace Dambi

open Fallible

/-- An operation on the state of the scam channel. -/
inductive ScamCall where
  | installSigned (input : String) (now : Nat)
  | setSettings (input : String)

namespace ScamState

def perform (kit : ScamKit) : ScamCall → MutResult ScamState SessionError Unit
  | .installSigned input now => installSigned kit input now
  | .setSettings input => setSettings kit input

def afterCalls (kit : ScamKit) (s : ScamState) (calls : List ScamCall) : ScamState :=
  calls.foldl (fun s call => ((perform kit call).run s).2) s

/-! ## One call -/

def Compatible (kit : ScamKit) (s : ScamState) : Prop :=
  ∀ installed, s.installed = some installed →
    ∃ pair, kit.effectivePair installed.bundle s.config.settings s.config.limits = .ok pair

def SequenceBelow (old new : Installed) : Prop :=
  ∃ previous incoming, decimal old.bundle.sequence = some previous ∧
    decimal new.bundle.sequence = some incoming ∧ previous < incoming

/-- The payload that an envelope yields under a configuration. -/
def payload (kit : ScamKit) (config : ScamConfig) (input : String) : Except SessionError String :=
  kit.openEnvelope config.keys config.limits.maxBundleBytes input

variable {kit : ScamKit} {s s' : ScamState} {i : Installed} {input : String} {now : Nat}
  {c : ScamCall} {cs : List ScamCall} {config : ScamConfig}

theorem isNewer_eq_ok {b : ScamBundle} {d : String} {n : Bool} (hi : s.installed = some i)
    (h : s.isNewer b d = .ok n) :
    ∃ inc p, decimal b.sequence = some inc ∧ decimal i.bundle.sequence = some p ∧
      (n = true ∧ p < inc ∨ n = false ∧ inc = p ∧ d = i.digest) := by
  unfold isNewer at h
  rw [hi] at h
  dsimp only at h
  split at h
  · cases h
  · next inc hic =>
    split at h
    · cases h
    · next p hp =>
      obtain ⟨_, hk, h⟩ := bind_eq_ok.1 h
      cases h
      rw [require_eq_ok, not_or, not_and, not_not] at hk
      refine ⟨inc, p, hic, hp, ?_⟩
      by_cases heq : inc = p
      · exact .inr ⟨by simp [heq], heq, hk.2 heq⟩
      · exact .inl ⟨by simp [heq], by omega⟩

theorem installSigned_eq_ok (h : (installSigned kit input now).run s = (.ok (), s')) :
    ∃ p b, payload kit s.config input = .ok p ∧ kit.readBundle s.config p now = .ok b ∧
      (∃ pair, kit.effectivePair b s.config.settings s.config.limits = .ok pair) ∧
      ∃ n, s.isNewer b ("0x" ++ kit.sha256 p) = .ok n ∧
        if n then ∃ bv module_,
          s' = { s with installed := some ⟨b, "0x" ++ kit.sha256 p, bv, module_⟩ }
        else s' = s := by
  simp only [installSigned, MutResult.bind_eq_ok, MutResult.update_eq_ok, MutResult.lift_eq_ok,
    mapError_eq_ok] at h
  obtain ⟨_, _, ⟨⟩, p, _, ⟨ho, rfl⟩, b, _, ⟨hb, rfl⟩, pair, _, ⟨hp, rfl⟩, n, s, ⟨hn, rfl⟩, h⟩ := h
  refine ⟨p, b, ho, hb, ⟨pair, hp⟩, n, hn, ?_⟩
  cases n with
  | true =>
    obtain ⟨module_, _, hm, hu⟩ := MutResult.bind_eq_ok.1 h
    obtain ⟨-, rfl⟩ := MutResult.lift_eq_ok.1 hm
    exact ⟨_, module_, (Prod.mk.inj (MutResult.update_eq_ok.1 hu)).2.symm⟩
  | false => exact (MutResult.pure_eq_ok.1 h).2

theorem setSettings_eq_ok (h : (setSettings kit input).run s = (.ok (), s')) :
    ∃ settings, s' = { s with config := { s.config with settings } } ∧ s'.Compatible kit := by
  simp only [setSettings, MutResult.bind_eq_ok, MutResult.update_eq_ok, MutResult.lift_eq_ok] at h
  obtain ⟨_, _, ⟨⟩, _, _, ⟨-, rfl⟩, settings, _, ⟨-, rfl⟩, _, s, ⟨-, rfl⟩, h⟩ := h
  refine ⟨settings, ?_⟩
  split at h
  · next hi =>
    cases h
    exact ⟨rfl, fun i' heq => by cases hi.symm.trans heq⟩
  · next i hi =>
    obtain ⟨pair, _, hl, hu⟩ := MutResult.bind_eq_ok.1 h
    obtain ⟨hp, rfl⟩ := MutResult.lift_eq_ok.1 hl
    cases hu
    refine ⟨rfl, fun i' heq => ?_⟩
    cases hi.symm.trans heq
    exact ⟨pair, hp⟩

/-- Each operation writes its field last. -/
theorem perform_atomic (kit : ScamKit) (c : ScamCall) : (perform kit c).Atomic := by
  have hr : (MutResult.update fun s => (s, s) : MutResult ScamState SessionError _).Moves Eq :=
    .update fun _ => rfl
  cases c with
  | installSigned input now =>
    refine .bind hr fun s => .bind (.lift _) fun p => .bind (.lift _) fun b =>
      .bind (.lift _) fun _ => .bind (.lift _) fun n => ?_
    cases n with
    | true => exact .bind (.lift _) fun _ => .update _
    | false => exact .pure ()
  | setSettings input =>
    refine .bind hr fun s => .bind (.lift _) fun _ => .bind (.lift _) fun _ =>
      .bind (.lift _) fun _ => ?_
    split
    · exact .update _
    · exact .bind (.lift _) fun _ => .update _

/-- What a call can do: nothing, install a bundle that fits the settings and is newer, or change
the settings to others that fit. -/
theorem perform_cases (kit : ScamKit) (s : ScamState) (c : ScamCall) :
    ((perform kit c).run s).2 = s ∨
      (∃ input now p b bv module_, c = .installSigned input now ∧
        payload kit s.config input = .ok p ∧ kit.readBundle s.config p now = .ok b ∧
        (∀ i, s.installed = some i → SequenceBelow i ⟨b, "0x" ++ kit.sha256 p, bv, module_⟩) ∧
        (∃ pair, kit.effectivePair b s.config.settings s.config.limits = .ok pair) ∧
        ((perform kit c).run s).2 =
          { s with installed := some ⟨b, "0x" ++ kit.sha256 p, bv, module_⟩ }) ∨
      ∃ settings, ((perform kit c).run s).2 = { s with config := { s.config with settings } } ∧
        ((perform kit c).run s).2.Compatible kit := by
  generalize h : (perform kit c).run s = r
  obtain ⟨(e | ⟨⟩), s'⟩ := r
  · exact .inl ((perform_atomic kit c).kept s e s' h)
  · cases c with
    | installSigned input now =>
      obtain ⟨p, b, hp, hb, hpa, n, hn, hs⟩ := installSigned_eq_ok h
      cases n with
      | true =>
        obtain ⟨bv, module_, rfl⟩ := hs
        refine .inr (.inl ⟨input, now, p, b, bv, module_, rfl, hp, hb, fun i hi => ?_, hpa, rfl⟩)
        obtain ⟨inc, q, hic, hq, ⟨-, hl⟩ | ⟨hf, -⟩⟩ := isNewer_eq_ok hi hn
        · exact ⟨q, inc, hq, hic, hl⟩
        · cases hf
      | false => exact .inl hs
    | setSettings input => exact .inr (.inr (setSettings_eq_ok h))

/-! ## Runs -/

/-- What a run that began under a configuration keeps: the settings are all that changes of it,
they fit the installed bundle, and this one was read from the payload of a call. -/
structure Reached (kit : ScamKit) (config : ScamConfig) (calls : List ScamCall) (s : ScamState) :
    Prop where
  config_eq : ∃ settings, s.config = { config with settings }
  compatible : s.Compatible kit
  installedBy : ∀ installed, s.installed = some installed → ∃ input now p settings,
    .installSigned input now ∈ calls ∧ payload kit config input = .ok p ∧
      kit.readBundle { config with settings } p now = .ok installed.bundle ∧
      installed.digest = "0x" ++ kit.sha256 p

theorem Reached.mono (h : Reached kit config cs s) : Reached kit config (cs ++ [c]) s where
  config_eq := h.config_eq
  compatible := h.compatible
  installedBy i hi := by
    obtain ⟨input, now, p, settings, hm, hr⟩ := h.installedBy i hi
    exact ⟨input, now, p, settings, List.mem_append_left _ hm, hr⟩

theorem Reached.perform (h : Reached kit config cs s) :
    Reached kit config (cs ++ [c]) ((perform kit c).run s).2 := by
  obtain ⟨settings, hc⟩ := h.config_eq
  obtain hs | ⟨input, now, p, b, bv, module_, rfl, hp, hb, -, hpa, hs⟩ | ⟨settings', hs, hco⟩ :=
    perform_cases kit s c
  · rw [hs]
    exact h.mono
  · rw [hs]
    refine ⟨⟨settings, hc⟩, ?_, ?_⟩
    · rintro _ ⟨⟩
      exact hpa
    · rintro _ ⟨⟩
      rw [hc] at hp hb
      exact ⟨input, now, p, settings, by simp, hp, hb, rfl⟩
  · refine ⟨⟨settings', by rw [hs, hc]⟩, hco, ?_⟩
    rw [hs]
    exact h.mono.installedBy

theorem afterCalls_reached (kit : ScamKit) (config : ScamConfig) (calls : List ScamCall) :
    Reached kit config calls (afterCalls kit ⟨config, none⟩ calls) := by
  induction calls using List.reverseRecOn with
  | nil => exact ⟨⟨_, rfl⟩, nofun, nofun⟩
  | append_singleton calls c ih =>
    rw [afterCalls, List.foldl_append, List.foldl_cons, List.foldl_nil, ← afterCalls]
    exact ih.perform

/-- In every state that is reached, the settings fit the installed bundle. The sequence of the
bundle does not decrease. An equal one is accepted only with the digest of the installed payload,
so with this payload where no payload of the calls collides with it. A call that fails changes
nothing. -/
theorem scam_state_compatible (kit : ScamKit) (config : ScamConfig) (calls : List ScamCall) :
    let s := afterCalls kit ⟨config, none⟩ calls
    s.Compatible kit ∧
      (∀ call installed, s.installed = some installed →
        ∃ installed', ((perform kit call).run s).2.installed = some installed' ∧
          (installed' = installed ∨ SequenceBelow installed installed')) ∧
      (∀ input now p bundle installed, s.installed = some installed →
        payload kit s.config input = .ok p → kit.readBundle s.config p now = .ok bundle →
        decimal bundle.sequence = decimal installed.bundle.sequence →
        ((installSigned kit input now).run s).1 = .ok () →
          ((installSigned kit input now).run s).2 = s ∧
          ∃ first firstNow q settings, .installSigned first firstNow ∈ calls ∧
            payload kit config first = .ok q ∧
            kit.readBundle { config with settings } q firstNow = .ok installed.bundle ∧
            kit.sha256 q = kit.sha256 p ∧ (Set.InjOn kit.sha256 {q, p} → q = p)) ∧
      ∀ call error, ((perform kit call).run s).1 = .error error →
        ((perform kit call).run s).2 = s := by
  intro s
  have hr : Reached kit config calls s := afterCalls_reached kit config calls
  refine ⟨hr.compatible, ?_, ?_, ?_⟩
  · intro call i hi
    obtain hs | ⟨_, _, p, b, bv, module_, -, -, -, hb, -, hs⟩ | ⟨_, hs, -⟩ :=
      perform_cases kit s call
    · exact ⟨i, by rw [hs, hi], .inl rfl⟩
    · exact ⟨_, by rw [hs], .inr (hb i hi)⟩
    · exact ⟨i, by rw [hs, hi], .inl rfl⟩
  · intro input now p bundle i hi hp hb hse hok
    obtain ⟨p', b', hp', hb', -, n, hn, hs⟩ := installSigned_eq_ok (Prod.ext hok rfl)
    cases hp.symm.trans hp'
    cases hb.symm.trans hb'
    obtain ⟨inc, q, hic, hq, ⟨-, hl⟩ | ⟨rfl, -, hd⟩⟩ := isNewer_eq_ok hi hn
    · rw [hic, hq] at hse
      exact absurd (Option.some_inj.1 hse) hl.ne'
    · obtain ⟨first, firstNow, q, settings, hm, hf, hfb, hfd⟩ := hr.installedBy i hi
      have hsha : kit.sha256 q = kit.sha256 p := by
        rw [hfd] at hd
        simpa using hd.symm
      exact ⟨hs, first, firstNow, q, settings, hm, hf, hfb, hsha,
        fun hin => hin (by simp) (by simp) hsha⟩
  · intro call e he
    exact (perform_atomic kit call).kept s e _ (Prod.ext he rfl)

/-- Payloads are the sequences of their bundles; the digests are those of `1` and of `2`. -/
def plainScamKit : ScamKit :=
  { watchKit with
    openEnvelope := fun _ _ input => .ok input
    readBundle := fun _ payload _ => .ok ⟨payload, 0, 10, none, [], []⟩
    sha256 := fun payload =>
      if payload = "1" then "6b86b273ff34fce19d6b804eff5a3f5747ada4eaa22f1d49c01e52ddb7875b4b"
      else "d4735e3a265e16eee03f59718b9b5d03019c07d8b6c51f90da3a666eec13ab35" }

/-- The second bundle is installed; it is accepted again, and the first one is refused. -/
theorem scam_state_compatible_plain :
    let s := afterCalls plainScamKit ⟨watchConfig, none⟩ [.installSigned "2" 5]
    s.installed.map (·.bundle.sequence) = some "2" ∧
      ((installSigned plainScamKit "2" 5).run s).2 = s ∧
      ((perform plainScamKit (.installSigned "1" 5)).run s).2 = s := by
  obtain ⟨-, -, hs, he⟩ := scam_state_compatible plainScamKit watchConfig [.installSigned "2" 5]
  refine ⟨by decide +kernel, ?_, he _ _ rfl⟩
  exact (hs "2" 5 "2" _ _ rfl rfl rfl rfl rfl).1

end ScamState

end Dambi
