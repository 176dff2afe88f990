import Dambi.Extension.Prefilter
import Dambi.Lib.Binary64
import Dambi.Lib.Record

/-!
# The policy store

`policy-store/store.ts` and `ops.ts`: the definitions of an account, and for each
registered wallet the definitions that are bound to it. Every operation works on a draft
of the store as it was read, and the draft is committed only if it passes `validate`.
Time stamps and texts that no operation reads are left out.

A record of the store inherits the members of `Object.prototype`. Most reads cannot tell
an inherited member from an absent one; `hasPackage`, `isEffectiveOn` and `copyBindings`
can.
-/

namespace Dambi.Extension.PolicyStore

open Fallible

/-! ## Keys and addresses -/

inductive Fault where
  | error (message : String)
  | dataClone
deriving DecidableEq, Repr

/-- The members that every object has without owning them. -/
def objectMembers : List String :=
  ["constructor", "__proto__", "__defineGetter__", "__defineSetter__", "__lookupGetter__",
    "__lookupSetter__", "hasOwnProperty", "isPrototypeOf", "propertyIsEnumerable",
    "toLocaleString", "toString", "valueOf"]

def forbiddenRecordKeys : List String := ["__proto__", "prototype", "constructor"]

def utf16Length (s : String) : Nat := (s.toList.map fun c => if c.toNat < 0x10000 then 1 else 2).sum

def isControl (c : Char) : Bool := c.toNat < 0x20 || c.toNat = 0x7f

def assertSafeRecordKey (value label : String) : Except Fault Unit :=
  require (value ≠ "" ∧ utf16Length value ≤ 256 ∧ value.toList.all (!isControl ·) = true ∧
    value ∉ forbiddenRecordKeys) (.error (label ++ " is not a safe storage key"))

def isHexDigit (c : Char) : Bool := "0123456789abcdefABCDEF".toList.contains c

/-- `EVM_ADDRESS_RE`. -/
def isEvmAddress (s : String) : Bool :=
  match s.toList with
  | '0' :: 'x' :: digits => digits.length = 40 && digits.all isHexDigit
  | _ => false

/-- `value.toLowerCase()` of an ASCII text. -/
def toLowerCase (value : String) : String := .ofList (value.toList.map Char.toLower)

def normalizeWalletAddress (value label : String) : Except Fault String := do
  require (isEvmAddress value = true) (.error (label ++ " must be an EVM address"))
  .ok (toLowerCase value)

def uncategorizedPkg : String := "pkg::uncategorized"

def builtinPkg : String := "pkg::builtin.day1-safety"

/-! ## Definitions -/

inductive HoleType where
  | addressSet | address | long | decimal | string | bool | field
deriving DecidableEq, Repr

inductive HoleItem where
  | text (s : String)
  | number (x : Binary64)

inductive HoleValue where
  | text (s : String)
  | number (x : Binary64)
  | bool (b : Bool)
  | items (items : List HoleItem)
  | field (name : String)

structure HoleSpec where
  name : String
  type : HoleType
  label : String
  required : Bool

abbrev Params := Record String HoleValue

structure Defaults where
  enabled : Bool
  params : Params
  packageId : Option String

inductive Source where
  | builtin | mine | market
deriving DecidableEq, Repr

/-- `PolicyDef`; the skeleton is what the renderer reads. -/
structure PolicyDef (σ : Type) where
  id : String
  hidden : Bool
  homeWallet : Option String
  walletFolderId : Option String
  displayName : String
  skeleton : σ
  holes : List HoleSpec
  defaults : Defaults
  source : Source

structure PackageDef where
  id : String
  displayName : String
  source : Source

/-- White space that `trim` removes. -/
def isWhiteSpace (c : Char) : Bool :=
  c.toNat ∈ [0x9, 0xa, 0xb, 0xc, 0xd, 0x20, 0xa0, 0x1680, 0x2028, 0x2029, 0x202f, 0x205f, 0x3000,
    0xfeff] || (0x2000 ≤ c.toNat && c.toNat ≤ 0x200a)

/-- `s.trim().length > 0`. -/
def hasText (s : String) : Bool := s.toList.any (!isWhiteSpace ·)

/-- `CEDAR_DECIMAL_RE`. -/
def isCedarDecimal (s : String) : Bool :=
  let digits := match s.toList with
    | '-' :: rest => rest
    | cs => cs
  let whole := digits.takeWhile Char.isDigit
  match digits.dropWhile Char.isDigit with
  | '.' :: fraction =>
    whole ≠ [] && 1 ≤ fraction.length && fraction.length ≤ 4 && fraction.all Char.isDigit
  | _ => false

def isSafeInteger (x : Binary64) : Bool :=
  x.isFinite && x.toRat.den = 1 && x.toRat.num.natAbs ≤ 2 ^ 53 - 1

def isAddressItem : HoleItem → Bool
  | .text s => isEvmAddress s
  | .number _ => false

def isValidRequiredHoleValue : HoleType → Option HoleValue → Bool
  | .address, some (.text s) => isEvmAddress s
  | .addressSet, some (.items items) => !items.isEmpty && items.all isAddressItem
  | .long, some (.number x) => isSafeInteger x
  | .decimal, some (.text s) => isCedarDecimal s
  | .string, some (.text s) => hasText s
  | .bool, some (.bool _) => true
  | .field, some (.field name) => hasText name
  | _, _ => false

namespace PolicyDef

variable {σ : Type} (policy : PolicyDef σ) (params : Option Params)

/-- The defaults of a definition under the parameters of a binding. -/
def merged : Params :=
  policy.defaults.params.union (params.getD .empty)

def missingRequiredHoles : List String :=
  (policy.holes.filter fun h =>
    h.required && !isValidRequiredHoleValue h.type ((policy.merged params).get? h.name)).map
      fun h => if h.label = "" then h.name else h.label

/-- The folder that the defaults put a definition into. -/
def packageId : String := policy.defaults.packageId.getD uncategorizedPkg

/-- The parameters that the definition still has a hole for. -/
def knownParams (params : Params) : Params :=
  params.filter fun k _ => (policy.holes.map (·.name)).contains k

def holesOk : Bool := (policy.missingRequiredHoles params).isEmpty

end PolicyDef

/-! ## Wallets -/

structure Binding where
  id : String
  defId : String
  packageId : String
  enabled : Bool
  params : Option Params
  severity : Option Severity

structure WalletPackage where
  id : String
  displayName : String

structure WalletFolder where
  id : String
  displayName : String

/-- `(switches[id] ?? true) === true`: a package without an entry is on, and an inherited
member is no `true`. -/
def switchedOn (switches : Record String Bool) (id : String) : Bool :=
  match switches.get? id with
  | some on => on
  | none => !objectMembers.contains id

structure WalletPolicyState where
  bindings : Record String Binding
  packages : Record String WalletPackage
  packageEnabled : Record String Bool
  folders : Record String WalletFolder

namespace WalletPolicyState

def empty : WalletPolicyState := ⟨.empty, .empty, .empty, .empty⟩

variable (w : WalletPolicyState)

/-- Whether `w.packages[id]` is truthy: an inherited member is. -/
def hasPackage (id : String) : Bool := (w.packages.get? id).isSome || objectMembers.contains id

def packageOn (id : String) : Bool := switchedOn w.packageEnabled id

def isEffectiveOn (b : Binding) : Bool := w.packageOn b.packageId && b.enabled

end WalletPolicyState

structure Library (σ : Type) where
  defs : Record String (PolicyDef σ)
  packages : Record String PackageDef

structure Snapshot (σ : Type) where
  library : Library σ
  byAddress : Record String WalletPolicyState

def Library.empty (σ : Type) : Library σ :=
  ⟨.empty, Record.empty.insert uncategorizedPkg ⟨uncategorizedPkg, "미분류", .builtin⟩⟩

def Snapshot.empty (σ : Type) : Snapshot σ := ⟨.empty σ, .empty⟩

variable {σ : Type}

/-! ## Reading -/

variable (library : Library σ)

def Library.packageName (id : String) : String :=
  ((library.packages.get? id).map (·.displayName)).getD id

/-- `normalizeWallets` for one wallet: the packages of its bindings exist. -/
def WalletPolicyState.materialise (w : WalletPolicyState) : WalletPolicyState :=
  w.bindings.values.foldl (fun w b =>
    if b.packageId = uncategorizedPkg || w.hasPackage b.packageId then w
    else
      let pkg : WalletPackage := ⟨b.packageId, library.packageName b.packageId⟩
      { w with packages := w.packages.insert b.packageId pkg }) w

/-- An optional text that is neither absent nor empty. -/
def truthy (s : Option String) : Option String := s.filter (· ≠ "")

/-- The first wallet with a binding of a definition. -/
def Snapshot.firstBound (s : Snapshot σ) (defId : String) : Option String :=
  (s.byAddress.entries.find? fun e => e.2.bindings.values.any (·.defId = defId)).map Prod.fst

/-- `normalizeHiddenDefs` for one definition: a hidden one is anchored to the wallet that
uses it, and a folder that is gone is forgotten. -/
def Snapshot.anchor (s : Snapshot σ) (policy : PolicyDef σ) : PolicyDef σ :=
  if policy.hidden then
    let home := (truthy policy.homeWallet).or ((s.firstBound policy.id).or policy.homeWallet)
    let folderGone : Bool := match truthy home, truthy policy.walletFolderId with
      | some home, some folder =>
        !((s.byAddress.get? home).any fun w =>
          (w.folders.get? folder).isSome || objectMembers.contains folder)
      | _, _ => false
    { policy with
      homeWallet := home
      walletFolderId := if folderGone then none else policy.walletFolderId }
  else policy

/-- `readStore`. The fields are typed, so `normalizeRuntimeShape` has nothing to repair. -/
def Snapshot.read (s : Snapshot σ) : Snapshot σ :=
  { library := { s.library with defs := s.library.defs.map fun _ policy => s.anchor policy }
    byAddress := s.byAddress.map fun _ w => w.materialise s.library }

/-! ## Validation -/

def validateParamKeys (params : Option Params) (label : String) : Except Fault Unit :=
  forM (params.getD .empty).keys fun key => assertSafeRecordKey key label

def validatePolicyDef (policy : PolicyDef σ) : Except Fault Unit := do
  forM policy.defaults.packageId.toList (assertSafeRecordKey · "default package id")
  forM policy.walletFolderId.toList (assertSafeRecordKey · "wallet folder id")
  validateParamKeys (some policy.defaults.params) "default param key"
  let _ ← policy.holes.foldlM (fun seen hole => do
    assertSafeRecordKey hole.name "hole name"
    insertFresh seen hole.name (.error ("duplicate hole name: " ++ hole.name))) []
  .ok ()

def validateDefEntry (entry : String × PolicyDef σ) : Except Fault Unit := do
  assertSafeRecordKey entry.1 "def id"
  require (entry.2.id = entry.1) (.error ("정의 키와 id가 다릅니다: " ++ entry.1))
  validatePolicyDef entry.2
  forM (truthy entry.2.homeWallet).toList fun homeWallet => do
    let home ← normalizeWalletAddress homeWallet "home wallet"
    require (homeWallet = home) (.error ("homeWallet은 소문자여야 합니다: " ++ homeWallet))

def validateBinding (w : WalletPolicyState) (entry : String × Binding) : Except Fault Unit := do
  assertSafeRecordKey entry.1 "binding id"
  require (entry.2.id = entry.1) (.error ("바인딩 키와 id가 다릅니다: " ++ entry.1))
  assertSafeRecordKey entry.2.defId "binding def id"
  assertSafeRecordKey entry.2.packageId "binding package id"
  validateParamKeys entry.2.params "binding param key"
  require ((library.defs.get? entry.2.defId).isSome = true)
    (.error ("바인딩 " ++ entry.2.id ++ "의 defId가 라이브러리에 없습니다: " ++ entry.2.defId))
  require (entry.2.packageId = uncategorizedPkg ∨ w.hasPackage entry.2.packageId = true)
    (.error ("바인딩 " ++ entry.2.id ++ "의 packageId가 지갑에 없습니다: " ++ entry.2.packageId))

def validateWallet (entry : String × WalletPolicyState) : Except Fault Unit := do
  let normalized ← normalizeWalletAddress entry.1 "wallet address"
  require (entry.1 = normalized) (.error ("지갑 주소는 소문자여야 합니다: " ++ entry.1))
  forM entry.2.folders.entries fun folder => do
    assertSafeRecordKey folder.1 "wallet folder id"
    require (folder.2.id = folder.1) (.error ("지갑 폴더 키와 id가 다릅니다: " ++ folder.1))
  forM entry.2.packages.entries fun pkg => do
    assertSafeRecordKey pkg.1 "wallet package id"
    require (pkg.2.id = pkg.1) (.error ("지갑 패키지 키와 id가 다릅니다: " ++ pkg.1))
  forM entry.2.bindings.entries (validateBinding library entry.2)
  forM entry.2.packageEnabled.keys fun pkgId => assertSafeRecordKey pkgId "wallet package gate id"

def validate (s : Snapshot σ) : Except Fault Unit := do
  require ((s.library.packages.get? uncategorizedPkg).isSome = true)
    (.error "미분류 패키지(pkg::uncategorized)는 삭제할 수 없습니다")
  forM s.library.defs.entries validateDefEntry
  forM s.library.packages.entries fun pkg => do
    assertSafeRecordKey pkg.1 "package id"
    require (pkg.2.id = pkg.1) (.error ("패키지 키와 id가 다릅니다: " ++ pkg.1))
  forM s.byAddress.entries (validateWallet s.library)

/-! ## Resolution -/

structure RenderedPolicy where
  text : String
  manifest : Json

/-- What `renderDef` and `defSeverity` read of a definition is its id and its skeleton. A
definition that cannot be rendered gives `none`. -/
structure Renderer (σ : Type) where
  renderDef : String → σ → Params → Option Severity → Option RenderedPolicy
  defSeverity : σ → Option String

structure Wanted where
  defId : String
  params : Params
  severity : Option Severity

structure RenderFault where
  defId : String
  severity : Option String

structure ResolveResult where
  bundles : List ResolvedBundle
  renderFaults : List RenderFault

def severityText : Severity → String
  | .deny => "deny"
  | .warn => "warn"

namespace Snapshot

variable (s : Snapshot σ)

/-- The row of an address, which an address that is none does not have. -/
def walletOf (address : String) : Option WalletPolicyState :=
  (normalizeWalletAddress address "wallet address").toOption.bind s.byAddress.get?

def wantedBinding (w : WalletPolicyState) (b : Binding) : Option Wanted := do
  guard (w.isEffectiveOn b = true)
  let policy ← s.library.defs.get? b.defId
  guard (policy.holesOk b.params = true)
  some ⟨b.defId, policy.knownParams (policy.merged b.params), b.severity⟩

/-- What an unregistered address gets of a definition. -/
def wantedDefault (policy : PolicyDef σ) : Option Wanted := do
  guard (policy.defaults.enabled = true ∧ policy.holesOk none = true)
  some ⟨policy.id, policy.knownParams policy.defaults.params, none⟩

def wanted (address : String) : List Wanted :=
  match s.walletOf address with
  | some w => w.bindings.values.filterMap (s.wantedBinding w)
  | none => s.library.defs.values.filterMap wantedDefault

variable (r : Renderer σ)

/-- The bundle of a wanted definition, or its fault. The keys of the library are the ids,
so the definition is there. -/
def render (want : Wanted) : Option (ResolvedBundle ⊕ RenderFault) := do
  let policy ← s.library.defs.get? want.defId
  match r.renderDef policy.id policy.skeleton want.params want.severity with
  | some rendered => some (.inl ⟨want.defId, rendered.text, rendered.manifest⟩)
  | none =>
    some (.inr ⟨want.defId, (want.severity.map severityText).or (r.defSeverity policy.skeleton)⟩)

def resolveBundlesForWalletWithFaults (address : String) : ResolveResult :=
  let outcomes := (s.read.wanted address).filterMap (s.read.render r)
  ⟨outcomes.filterMap Sum.getLeft?, outcomes.filterMap Sum.getRight?⟩

def resolveBundlesForWallet (address : String) : List ResolvedBundle :=
  (s.resolveBundlesForWalletWithFaults r address).bundles

end Snapshot

end Dambi.Extension.PolicyStore
