import Dambi.Extension.PolicyStore

/-!
# The operations of the policy store

`policy-store/ops.ts` and the seeding of `seed.ts`. An address comes into the store by
`walletAt`; with `provisionDefaults` its row starts with the default definitions, and
without it starts empty.
-/

namespace Dambi.Extension.PolicyStore

open Fallible

variable {σ : Type}

/-- The draft of a mutation and the number of UUIDs it has drawn. -/
structure Draft (σ : Type) where
  store : Snapshot σ
  drawn : Nat

/-! ## Guards -/

variable (s : Snapshot σ)

def assertNotBuiltinDef (defId : String) : Except Fault Unit :=
  require ((s.library.defs.get? defId).map (·.source) ≠ some .builtin)
    (.error "기본 안전팩 정책은 삭제·수정할 수 없어요 (복제해서 내 정책으로 편집하세요)")

def assertNotBuiltinPackage (pkgId : String) : Except Fault Unit :=
  require ((s.library.packages.get? pkgId).map (·.source) ≠ some .builtin)
    (.error "기본 안전팩은 삭제·수정할 수 없어요")

def assertBuiltinPackageReadonly (pkgId : Option String) : Except Fault Unit :=
  require (pkgId.all (!Text.startsWith · "pkg::builtin.") = true)
    (.error "기본 안전팩은 읽기 전용이에요 — 정책을 추가할 수 없어요")

def assertNotBuiltinNamespace (value label : String) : Except Fault Unit :=
  require (Text.startsWith value "def::builtin." = false ∧
    Text.startsWith value "pkg::builtin." = false)
    (.error (label ++ " cannot use the builtin safety-pack namespace"))

def assertMarketDefCanWrite (defId : String) : Except Fault Unit := do
  assertNotBuiltinNamespace defId "market def id"
  assertNotBuiltinDef s defId

def assertMarketPackageCanWrite (pkgId : String) : Except Fault Unit := do
  assertNotBuiltinNamespace pkgId "market package id"
  assertNotBuiltinPackage s pkgId

def assertHolesFilled (policy : Option (PolicyDef σ)) (params : Option Params) :
    Except Fault Unit :=
  match policy with
  | none => .ok ()
  | some policy =>
    require ((policy.missingRequiredHoles params).length = 0)
      (.error ("정책 \"" ++ policy.displayName ++ "\"의 빈칸(" ++
        String.intercalate ", " (policy.missingRequiredHoles params) ++
        ")을 채워야 적용할 수 있어요"))

/-! ## Drafts -/

/-- Parameters that are stored only if there are some. -/
def nonEmpty (params : Params) : Option Params :=
  if params.entries.isEmpty then none else some params

def PolicyDef.defaultBinding (policy : PolicyDef σ) : Binding :=
  ⟨"", policy.id, policy.packageId, true, nonEmpty policy.defaults.params, none⟩

namespace Draft

variable (d : Draft σ)

def library : Library σ := d.store.library

def wallet (addr : String) : WalletPolicyState := (d.store.byAddress.get? addr).getD .empty

def setWallet (addr : String) (w : WalletPolicyState) : Draft σ :=
  { d with store.byAddress := d.store.byAddress.insert addr w }

def setDefs (defs : Record String (PolicyDef σ)) : Draft σ :=
  { d with store.library.defs := defs }

def setPackages (packages : Record String PackageDef) : Draft σ :=
  { d with store.library.packages := packages }

/-- `w.packages[pkg.id] = pkg`. -/
def putPackage (addr : String) (pkg : WalletPackage) : Draft σ :=
  d.setWallet addr
    { d.wallet addr with packages := (d.wallet addr).packages.insert pkg.id pkg }

def ensureWalletPackage (addr packageId : String) : Except Fault (Draft σ) := do
  assertSafeRecordKey packageId "package id"
  if packageId = uncategorizedPkg || (d.wallet addr).hasPackage packageId then .ok d
  else .ok (d.putPackage addr ⟨packageId, d.library.packageName packageId⟩)

variable (uuid : Nat → String) (addr : String)

/-- `w.bindings[b.id] = b` under a new id. -/
def addBinding (b : Binding) : Draft σ :=
  let id := "bind::" ++ uuid d.drawn
  let w := { d.wallet addr with bindings := (d.wallet addr).bindings.insert id { b with id } }
  { d.setWallet addr w with drawn := d.drawn + 1 }

def hasBinding (addr defId packageId : String) : Bool :=
  (d.wallet addr).bindings.values.any fun b => b.defId = defId && b.packageId = packageId

/-- The loop body of `bindDefaultDefs`. -/
def bindDefaultDef (policy : PolicyDef σ) : Except Fault (Draft σ) :=
  if !policy.defaults.enabled then .ok d
  else if policy.hidden then .ok d
  else if 0 < (policy.missingRequiredHoles none).length then .ok d
  else if d.hasBinding addr policy.id policy.packageId then .ok d
  else do
    let d' ← d.ensureWalletPackage addr policy.packageId
    .ok (d'.addBinding uuid addr policy.defaultBinding)

def bindDefaultDefs : Except Fault (Draft σ) :=
  d.library.defs.values.foldlM (fun d policy => d.bindDefaultDef uuid addr policy) d

/-- The row of an address, which is made if there is none. The address is returned as the
key of the row. -/
def walletAt (address : String) (provisionDefaults : Bool) : Except Fault (String × Draft σ) := do
  let addr ← normalizeWalletAddress address "wallet address"
  if (d.store.byAddress.get? addr).isSome then .ok (addr, d)
  else if provisionDefaults then
    let d' ← (d.setWallet addr .empty).bindDefaultDefs uuid addr
    .ok (addr, d')
  else .ok (addr, d.setWallet addr .empty)

end Draft

/-! ## Definitions and packages -/

section Operations

variable (uuid : Nat → String)

def putDef (policy : PolicyDef σ) (d : Draft σ) : Except Fault (Draft σ) := do
  assertSafeRecordKey policy.id "def id"
  assertNotBuiltinDef d.store policy.id
  if policy.source ≠ .builtin then assertBuiltinPackageReadonly policy.defaults.packageId
  .ok (d.setDefs (d.library.defs.insert policy.id policy))

def deleteDef (defId : String) (d : Draft σ) : Except Fault (Draft σ) := do
  assertSafeRecordKey defId "def id"
  assertNotBuiltinDef d.store defId
  let byAddress := d.store.byAddress.map fun _ w =>
    { w with bindings := w.bindings.filter fun _ b => b.defId ≠ defId }
  .ok { d.setDefs (d.library.defs.erase defId) with store.byAddress := byAddress }

/-- The copy that `duplicateDef` makes. -/
def cloneDef (src : PolicyDef σ) (newId : String) (packageId : Option String) : PolicyDef σ :=
  let clone := { src with id := newId, displayName := src.displayName ++ " (복제)", source := .mine }
  match packageId with
  | none => clone
  | some packageId =>
    { clone with
      defaults.packageId := if packageId = uncategorizedPkg then none else some packageId }

/-- `duplicateDef`, with the new id. -/
def duplicateDef (defId : String) (packageId : Option String) (d : Draft σ) :
    Except Fault (String × Draft σ) := do
  assertSafeRecordKey defId "def id"
  forM packageId.toList (assertSafeRecordKey · "package id")
  assertBuiltinPackageReadonly packageId
  let src ← (d.library.defs.get? defId).elim (.error (.error ("정의가 없습니다: " ++ defId))) .ok
  let newId := "def::" ++ uuid d.drawn
  let d' := d.setDefs (d.library.defs.insert newId (cloneDef src newId packageId))
  .ok (newId, { d' with drawn := d.drawn + 1 })

def putPackage (pkg : PackageDef) (d : Draft σ) : Except Fault (Draft σ) := do
  assertSafeRecordKey pkg.id "package id"
  assertNotBuiltinPackage d.store pkg.id
  .ok (d.setPackages (d.library.packages.insert pkg.id pkg))

def deletePackage (pkgId : String) (d : Draft σ) : Except Fault (Draft σ) := do
  assertSafeRecordKey pkgId "package id"
  require (pkgId ≠ uncategorizedPkg) (.error "미분류 패키지는 삭제할 수 없습니다")
  assertNotBuiltinPackage d.store pkgId
  let defs := d.library.defs.map fun _ policy =>
    if policy.defaults.packageId = some pkgId then { policy with defaults.packageId := none }
    else policy
  .ok ((d.setPackages (d.library.packages.erase pkgId)).setDefs defs)

/-! ## Wallets -/

def putWalletPackage (address : String) (pkg : WalletPackage) (d : Draft σ) :
    Except Fault (Draft σ) := do
  assertSafeRecordKey pkg.id "wallet package id"
  require (pkg.id ≠ uncategorizedPkg) (.error "미분류는 이름을 바꿀 수 없습니다")
  let row ← d.walletAt uuid address true
  .ok (row.2.putPackage row.1 pkg)

/-- `pruneHiddenDefs`: a hidden definition whose wallet is gone goes to the library. -/
def pruneHiddenDefs (d : Draft σ) : Draft σ :=
  d.setDefs <| d.library.defs.map fun _ policy =>
    if policy.hidden && !((truthy policy.homeWallet).any fun home =>
        (d.store.byAddress.get? home).isSome) then
      { policy with hidden := false, homeWallet := none, walletFolderId := none }
    else policy

def removePackageFromWallet (address packageId : String) (d : Draft σ) :
    Except Fault (Draft σ) := do
  assertSafeRecordKey packageId "package id"
  assertNotBuiltinPackage d.store packageId
  let addr ← normalizeWalletAddress address "wallet address"
  match d.store.byAddress.get? addr with
  | none => .ok d
  | some w =>
    let bindings := w.bindings.values.foldl (fun bindings b =>
      if b.packageId = packageId then bindings.erase b.id else bindings) w.bindings
    .ok <| pruneHiddenDefs <| d.setWallet addr
      { w with
        bindings
        packages := w.packages.erase packageId
        packageEnabled := w.packageEnabled.erase packageId }

def putWalletFolder (address : String) (folder : WalletFolder) (d : Draft σ) :
    Except Fault (Draft σ) := do
  assertSafeRecordKey folder.id "wallet folder id"
  let row ← d.walletAt uuid address true
  let w := row.2.wallet row.1
  .ok (row.2.setWallet row.1 { w with folders := w.folders.insert folder.id folder })

def removeWalletFolder (address folderId : String) (d : Draft σ) : Except Fault (Draft σ) := do
  assertSafeRecordKey folderId "wallet folder id"
  let addr ← normalizeWalletAddress address "wallet address"
  let byAddress := d.store.byAddress.map fun key w =>
    if key = addr then { w with folders := w.folders.erase folderId } else w
  let defs := d.library.defs.map fun _ policy =>
    if policy.hidden && policy.homeWallet = some addr && policy.walletFolderId = some folderId then
      { policy with walletFolderId := none }
    else policy
  .ok { d.setDefs defs with store.byAddress := byAddress }

structure BindOptions where
  defId : String
  packageId : String
  addresses : List String
  params : Option Params
  enabled : Option Bool
  severity : Option Severity

variable (o : BindOptions)

/-- The binding that `bind` makes, before it has an id. -/
def BindOptions.binding : Binding :=
  ⟨"", o.defId, o.packageId, o.enabled.getD true, o.params, o.severity⟩

def bindAt (d : Draft σ) (address : String) : Except Fault (Draft σ) := do
  let row ← d.walletAt uuid address false
  let d ← row.2.ensureWalletPackage row.1 o.packageId
  .ok (d.addBinding uuid row.1 o.binding)

def bind (d : Draft σ) : Except Fault (Draft σ) := do
  assertSafeRecordKey o.defId "def id"
  assertSafeRecordKey o.packageId "package id"
  assertBuiltinPackageReadonly (some o.packageId)
  assertHolesFilled (d.library.defs.get? o.defId) o.params
  o.addresses.foldlM (bindAt uuid o) d

/-- The fields that a patch of a binding may hold. -/
structure BindingPatch where
  enabled : Option Bool
  params : Option (Option Params)
  packageId : Option String
  severity : Option (Option Severity)

/-- `Object.assign(b, patch)`. -/
def BindingPatch.apply (p : BindingPatch) (b : Binding) : Binding :=
  { b with
    enabled := p.enabled.getD b.enabled
    params := p.params.getD b.params
    packageId := p.packageId.getD b.packageId
    severity := p.severity.getD b.severity }

def updateBinding (address bindingId : String) (patch : BindingPatch) (d : Draft σ) :
    Except Fault (Draft σ) := do
  assertSafeRecordKey bindingId "binding id"
  forM patch.packageId.toList (assertSafeRecordKey · "package id")
  assertBuiltinPackageReadonly patch.packageId
  let addr ← normalizeWalletAddress address "wallet address"
  let w := d.wallet addr
  let b ← (w.bindings.get? bindingId).elim
    (.error (.error ("바인딩이 없습니다: " ++ bindingId))) .ok
  forM patch.params.toList (assertHolesFilled (d.library.defs.get? b.defId))
  .ok (d.setWallet addr { w with bindings := w.bindings.insert bindingId (patch.apply b) })

def removeBinding (address bindingId : String) (d : Draft σ) : Except Fault (Draft σ) := do
  assertSafeRecordKey bindingId "binding id"
  let addr ← normalizeWalletAddress address "wallet address"
  let byAddress := d.store.byAddress.map fun key w =>
    if key = addr then { w with bindings := w.bindings.erase bindingId } else w
  .ok (pruneHiddenDefs { d with store.byAddress := byAddress })

structure CopyOptions where
  fromAddress : String
  toAddress : String
  bindingIds : List String

/-- The loop body of `copyBindings`. An inherited member is a function, which cannot be
cloned. -/
def copyBinding (source target : String) (d : Draft σ) (bid : String) : Except Fault (Draft σ) := do
  assertSafeRecordKey bid "binding id"
  match (d.wallet source).bindings.get? bid with
  | none => if objectMembers.contains bid then .error .dataClone else .ok d
  | some src =>
    if src.packageId = uncategorizedPkg || (d.wallet target).hasPackage src.packageId then
      .ok (d.addBinding uuid target src)
    else
      let pkg := ((d.wallet source).packages.get? src.packageId).getD ⟨src.packageId, src.packageId⟩
      let packages := (d.wallet target).packages.insert src.packageId pkg
      .ok ((d.setWallet target { d.wallet target with packages }).addBinding uuid target src)

def copyBindings (o : CopyOptions) (d : Draft σ) : Except Fault (Draft σ) := do
  let source ← normalizeWalletAddress o.fromAddress "source wallet address"
  require ((d.store.byAddress.get? source).isSome = true)
    (.error ("지갑이 없습니다: " ++ o.fromAddress))
  let row ← d.walletAt uuid o.toAddress false
  o.bindingIds.foldlM (copyBinding uuid source row.1) row.2

def setPackageEnabled (address packageId : String) (enabled : Bool) (d : Draft σ) :
    Except Fault (Draft σ) := do
  assertSafeRecordKey packageId "package id"
  let row ← d.walletAt uuid address true
  let w := row.2.wallet row.1
  .ok (row.2.setWallet row.1 { w with packageEnabled := w.packageEnabled.insert packageId enabled })

/-! ## Market -/

inductive MarketInstallScope where
  | wallets (addresses : List String)
  | all
  | libraryOnly

structure InstallOptions (σ : Type) where
  defs : List (PolicyDef σ)
  pkg : Option PackageDef
  scope : MarketInstallScope
  params : Record String Params

/-- `refreshBindingParamsForUpdatedDef`: what it leaves as the parameters of a binding. -/
def refreshedParams (policy : PolicyDef σ) (b : Binding) (provided : Option Params) :
    Option Params :=
  nonEmpty ((policy.knownParams (provided.getD .empty)).union
    (policy.knownParams (b.params.getD .empty)))

variable (o : InstallOptions σ) (d : Draft σ)

/-- One definition of an installation goes into the library. If it was there, its bindings
are refreshed; the checks of the loop come first, as a fault discards the draft. -/
def installDef (policy : PolicyDef σ) : Except Fault (Draft σ) := do
  let d' := d.setDefs (d.library.defs.insert policy.id { policy with source := .market })
  if (d.library.defs.get? policy.id).isSome then
    let refreshed := fun b => refreshedParams policy b (o.params.get? policy.id)
    forM d.store.byAddress.values fun w => forM w.bindings.values fun b =>
      if b.defId = policy.id then assertHolesFilled (some policy) (refreshed b) else .ok ()
    let byAddress := d.store.byAddress.map fun _ w =>
      { w with bindings := w.bindings.map fun _ b =>
          if b.defId = policy.id then { b with params := refreshed b } else b }
    .ok { d' with store.byAddress := byAddress }
  else .ok d'

/-- One definition of an installation is bound to a wallet, if it is not yet. -/
def installBinding (addr : String) (d : Draft σ) (policy : PolicyDef σ) : Except Fault (Draft σ) :=
  let packageId := policy.defaults.packageId.getD ((o.pkg.map (·.id)).getD uncategorizedPkg)
  if d.hasBinding addr policy.id packageId then .ok d
  else do
    let d' ← d.ensureWalletPackage addr packageId
    .ok (d'.addBinding uuid addr
      ⟨"", policy.id, packageId, true, (o.params.get? policy.id).bind nonEmpty, none⟩)

variable (address : String)

def installAt : Except Fault (Draft σ) := do
  let row ← d.walletAt uuid address false
  o.defs.foldlM (installBinding uuid o row.1) row.2

/-- What `installMarket` checks before it binds. -/
def installHoles : Except Fault Unit :=
  forM o.defs fun policy => assertHolesFilled (some policy) (o.params.get? policy.id)

/-- What `installMarket` checks before it writes. -/
def installChecks (s : Snapshot σ) : Except Fault Unit := do
  forM o.pkg.toList fun pkg => do
    assertSafeRecordKey pkg.id "package id"
    assertMarketPackageCanWrite s pkg.id
  let _ ← o.defs.foldlM (fun seen policy => do
    assertSafeRecordKey policy.id "def id"
    assertMarketDefCanWrite s policy.id
    insertFresh seen policy.id
      (.error ("market install contains duplicate def id: " ++ policy.id))) []
  .ok ()

def installPackage : Draft σ :=
  match o.pkg with
  | some pkg => d.setPackages (d.library.packages.insert pkg.id { pkg with source := .market })
  | none => d

def installMarket : Except Fault (Draft σ) := do
  installChecks o d.store
  let d ← o.defs.foldlM (installDef o) (installPackage o d)
  match o.scope with
  | .libraryOnly => .ok d
  | .all => do
    installHoles o
    d.store.byAddress.keys.foldlM (installAt uuid o) d
  | .wallets addresses => do
    installHoles o
    let keys ← addresses.mapM (normalizeWalletAddress · "wallet address")
    keys.foldlM (installAt uuid o) d

/-! ## Synchronisation -/

def provisionWallet : Except Fault (Draft σ) := do
  let addr ← normalizeWalletAddress address "wallet address"
  if (d.store.byAddress.get? addr).isSome then .ok d
  else
    let row ← d.walletAt uuid addr true
    .ok row.2

def provisionWallets (addresses : List String) (d : Draft σ) : Except Fault (Draft σ) :=
  addresses.foldlM (provisionWallet uuid) d

def removeWallet (d : Draft σ) : Except Fault (Draft σ) := do
  let addr ← normalizeWalletAddress address "wallet address"
  .ok { d with store.byAddress := d.store.byAddress.erase addr }

def reconcileWallets (addresses : List String) (d : Draft σ) : Except Fault (Draft σ) := do
  let keep ← addresses.mapM (normalizeWalletAddress · "wallet address")
  let kept := d.store.byAddress.filter fun addr _ => keep.contains addr
  keep.foldlM (provisionWallet uuid) { d with store.byAddress := kept }

end Operations

/-! ## Seeding -/

def builtinTitles : List (String × String) :=
  [("unlimited-approval-deny", "무제한 토큰 승인 경고"),
    ("send-first-time-or-burn-recipient-warn", "소각주소로 전송 차단"),
    ("unknown-blind-sign-warning", "정체불명 블라인드 서명 경고"),
    ("permit2-sign-allowance-confirm", "Permit2 허용량 서명 경고"),
    ("swap-recipient-not-self-deny", "스왑 수령처 본인 외 차단")]

def titleFor (id : String) : String := (builtinTitles.lookup id).getD id

def builtinIdOf (defId : String) : String :=
  if Text.startsWith defId "def::builtin." then .ofList (defId.toList.drop 13) else defId

/-- The letters of a baked id that its definition keeps. -/
def isSlugChar (c : Char) : Bool := c.isAlphanum || c = '_' || c = '.' || c = '-'

def builtinDef (baked : String × σ) : PolicyDef σ where
  id := "def::builtin." ++ .ofList (baked.1.toList.map fun c => if isSlugChar c then c else '-')
  hidden := false
  homeWallet := none
  walletFolderId := none
  displayName := titleFor baked.1
  skeleton := baked.2
  holes := []
  defaults := ⟨true, .empty, some builtinPkg⟩
  source := .builtin

/-- The mutation of `ensureSeeded`: the builtin definitions are replaced, and a binding of
one that is gone is removed. -/
def seedBuiltins (baked : List (String × σ)) (d : Draft σ) : Draft σ :=
  let defs := baked.map builtinDef
  let others := d.library.defs.filter fun _ policy => policy.source ≠ .builtin
  let packages := d.library.packages.insert builtinPkg
    ⟨builtinPkg, "기본 안전팩 템플릿", .builtin⟩
  let byAddress := d.store.byAddress.map fun _ w =>
    { w with bindings := w.bindings.filter fun _ b =>
        !(Text.startsWith b.defId "def::builtin." && !(defs.map (·.id)).contains b.defId) }
  let d' := (d.setPackages packages).setDefs
    (defs.foldl (fun library policy => library.insert policy.id policy) others)
  { d' with store.byAddress := byAddress }

/-- The other mutation of `ensureSeeded`: the titles of the builtin definitions. -/
def retitleBuiltins (d : Draft σ) : Draft σ :=
  d.setDefs <| d.library.defs.map fun _ policy =>
    if policy.source = .builtin then { policy with displayName := titleFor (builtinIdOf policy.id) }
    else policy

/-! ## Commands -/

/-- The operations that add something for a wallet, and the copy of a definition. -/
inductive Addition (σ : Type) where
  | bind (o : BindOptions)
  | copyBindings (o : CopyOptions)
  | installMarket (o : InstallOptions σ)
  | provisionWallets (addresses : List String)
  | putWalletPackage (address : String) (pkg : WalletPackage)
  | putWalletFolder (address : String) (folder : WalletFolder)
  | duplicateDef (defId : String) (packageId : Option String)
  | switchPackageOn (address packageId : String)

def Addition.apply (uuid : Nat → String) (d : Draft σ) : Addition σ → Except Fault (Draft σ)
  | .bind o => PolicyStore.bind uuid o d
  | .copyBindings o => PolicyStore.copyBindings uuid o d
  | .installMarket o => PolicyStore.installMarket uuid o d
  | .provisionWallets addresses => PolicyStore.provisionWallets uuid addresses d
  | .putWalletPackage address pkg => PolicyStore.putWalletPackage uuid address pkg d
  | .putWalletFolder address folder => PolicyStore.putWalletFolder uuid address folder d
  | .duplicateDef defId packageId => Prod.snd <$> PolicyStore.duplicateDef uuid defId packageId d
  | .switchPackageOn address packageId => setPackageEnabled uuid address packageId true d

inductive Command (σ : Type) where
  | add (a : Addition σ)
  | putDef (policy : PolicyDef σ)
  | deleteDef (defId : String)
  | putPackage (pkg : PackageDef)
  | deletePackage (pkgId : String)
  | removePackageFromWallet (address packageId : String)
  | removeWalletFolder (address folderId : String)
  | updateBinding (address bindingId : String) (patch : BindingPatch)
  | removeBinding (address bindingId : String)
  | switchPackageOff (address packageId : String)
  | removeWallet (address : String)
  | reconcileWallets (addresses : List String)
  | seedBuiltins (baked : List (String × σ))
  | retitleBuiltins

def Command.apply (uuid : Nat → String) (d : Draft σ) : Command σ → Except Fault (Draft σ)
  | .add a => a.apply uuid d
  | .putDef policy => PolicyStore.putDef policy d
  | .deleteDef defId => PolicyStore.deleteDef defId d
  | .putPackage pkg => PolicyStore.putPackage pkg d
  | .deletePackage pkgId => PolicyStore.deletePackage pkgId d
  | .removePackageFromWallet address packageId =>
    PolicyStore.removePackageFromWallet address packageId d
  | .removeWalletFolder address folderId => PolicyStore.removeWalletFolder address folderId d
  | .updateBinding address bindingId patch => PolicyStore.updateBinding address bindingId patch d
  | .removeBinding address bindingId => PolicyStore.removeBinding address bindingId d
  | .switchPackageOff address packageId => setPackageEnabled uuid address packageId false d
  | .removeWallet address => PolicyStore.removeWallet address d
  | .reconcileWallets addresses => PolicyStore.reconcileWallets uuid addresses d
  | .seedBuiltins baked => .ok (PolicyStore.seedBuiltins baked d)
  | .retitleBuiltins => .ok (PolicyStore.retitleBuiltins d)

/-- `mutate`: the operation works on what is read, and its draft has to be valid. -/
def Snapshot.mutate (s : Snapshot σ) (f : Draft σ → Except Fault (Draft σ)) :
    Except Fault (Snapshot σ) := do
  let d ← f ⟨s.read, 0⟩
  validate d.store
  .ok d.store

/-- The store after a mutation; one that throws leaves it as it was. -/
def Snapshot.commit (s : Snapshot σ) (f : Draft σ → Except Fault (Draft σ)) : Snapshot σ :=
  (s.mutate f).toOption.getD s

/-- The stores that any operations lead to from a seeded one. -/
inductive Reachable : Snapshot σ → Prop where
  | seeded (baked : List (String × σ)) :
    Reachable ((Snapshot.empty σ).commit fun d => .ok (seedBuiltins baked d))
  | step {s : Snapshot σ} (uuid : Nat → String) (c : Command σ) :
    Reachable s → Reachable (s.commit fun d => c.apply uuid d)

end Dambi.Extension.PolicyStore
