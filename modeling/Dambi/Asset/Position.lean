import Dambi.Asset.Balance

/-!
# Positions

`helpers/position.rs`: opening, updating and closing positions through a delta.
The helpers look at the positions of the wallet and at the openings and
closings the delta has queued; an update is a snapshot of the whole position.
-/

namespace Dambi.Asset

open FixedWidth Fallible

/-- `delta.position_changes.push(pc)`. -/
def StateDelta.pushPosition (delta : StateDelta) (pc : PositionChange) : StateDelta :=
  { delta with positionChanges := delta.positionChanges ++ [pc] }

variable (state : WalletState) (delta : StateDelta)

def effectiveExists (id : PositionId) : Bool :=
  delta.positionChanges.foldl (fun exists_ change =>
    match change with
    | .opened position => if position.id = id then true else exists_
    | .close closedId => if closedId = id then false else exists_
    | .update _ _ => exists_) (state.positions.any (·.id = id))

/-- The latest opening or closing that the delta has queued for a position, looked up from the
end; without one the position of the wallet. -/
def effectivePosition (id : PositionId) :
    Option Position :=
  go delta.positionChanges.reverse
where
  go : List PositionChange → Option Position
    | [] => state.positions.find? (·.id = id)
    | .opened position :: changes => if position.id = id then some position else go changes
    | .close closedId :: changes => if closedId = id then none else go changes
    | .update _ _ :: changes => go changes

def snapshotPatch (codec : PositionCodec) (newPosition : Position) : PositionPatch :=
  ⟨.obj [("after", (codec.toValue newPosition).toOption.getD .null)]⟩

def openPosition (position : Position) :
    ReducerResult StateDelta := do
  ensure (effectiveExists state delta position.id = false)
    s!"position {position.id} already exists"
  return delta.pushPosition (.opened position)

/-- The helper behind the three `upsert` functions: `isKind` tells the kind of position it
handles. -/
def upsertPosition (codec : PositionCodec) (kind : String) (isKind : PositionKind → Bool)
    (state : WalletState) (delta : StateDelta) (positionId : PositionId)
    (mutate : Position → Position) : ReducerResult StateDelta := do
  let existing ← orFail (effectivePosition state delta positionId) (.positionNotFound positionId)
  ensure (isKind existing.kind = true) s!"position {positionId} exists but is not a {kind}"
  let newPosition := mutate existing
  ensure (isKind newPosition.kind = true)
    s!"position {positionId} mutate changed kind away from {kind}"
  return delta.pushPosition (.update positionId (snapshotPatch codec newPosition))

def PositionKind.isLendingAccount : PositionKind → Bool
  | .lendingAccount _ => true
  | _ => false

def PositionKind.isPerpPosition : PositionKind → Bool
  | .perpPosition _ => true
  | _ => false

def PositionKind.isHyperliquidAccount : PositionKind → Bool
  | .hyperliquidAccount _ => true
  | _ => false

section Upserts

variable (codec : PositionCodec) (state : WalletState) (delta : StateDelta)
  (positionId : PositionId) (mutate : Position → Position)

def upsertLendingAccount : ReducerResult StateDelta :=
  upsertPosition codec "LendingAccount" (·.isLendingAccount) state delta positionId mutate

def upsertPerpPosition : ReducerResult StateDelta :=
  upsertPosition codec "PerpPosition" (·.isPerpPosition) state delta positionId mutate

def upsertHlAccount : ReducerResult StateDelta :=
  upsertPosition codec "HyperliquidAccount" (·.isHyperliquidAccount) state delta positionId mutate

end Upserts

def closePosition (state : WalletState) (delta : StateDelta) (positionId : PositionId) :
    ReducerResult StateDelta := do
  if effectiveExists state delta positionId then
    return delta.pushPosition (.close positionId)
  else fail (.positionNotFound positionId)

end Dambi.Asset
