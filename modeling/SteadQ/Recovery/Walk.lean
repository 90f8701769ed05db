/-
  File:      SteadQ/Recovery/Walk.lean
  Subject:   THE RESUMABLE WALK OF A RECOVERY PHASE (`recovery/walk.rs`, the retry ledger of
             `recovery.rs`, `queue/cursors.rs`).

  Every phase walks a hierarchy of directories below its root, three or four levels deep, in
  sorted order. The cursor is the last entry classified; a pass skips what lies before it. A
  directory that could not be opened or read is remembered in a ledger and retried by itself.
-/
import SteadQ.Recovery.Base

namespace SteadQ

open Octet Interact

/-! ## 1. The cursor -/

def ThreeLevelCursor.components (c : ThreeLevelCursor) : List Name :=
  [c.first, c.second, c.resumeAfter]

def FourLevelCursor.components (c : FourLevelCursor) : List Name :=
  [c.first, c.second, c.third, c.resumeAfter]

def ThreeLevelCursor.ofComponents : List Name → Option ThreeLevelCursor
  | [first, second, resumeAfter] => some ⟨first, second, resumeAfter⟩
  | _ => none

def FourLevelCursor.ofComponents : List Name → Option FourLevelCursor
  | [first, second, third, resumeAfter] => some ⟨first, second, third, resumeAfter⟩
  | _ => none

namespace RecoveryCursor

/-- The position of a phase: the directories, root first, and the last entry classified. -/
def saved (c : RecoveryCursor) : RecoveryPhase → Option (List Name)
  | .reapLeases => c.reapLeases.map FourLevelCursor.components
  | .promoteDelayed => c.promoteDelayed.map ThreeLevelCursor.components
  | .cleanupTemp => c.cleanupTemp.map ThreeLevelCursor.components
  | .compactReceipts => c.compactReceipts.map ThreeLevelCursor.components
  | .deleteReceipts => c.deleteReceipts.map ThreeLevelCursor.components

def save (c : RecoveryCursor) (phase : RecoveryPhase) (position : Option (List Name)) :
    RecoveryCursor :=
  match phase with
  | .reapLeases => { c with reapLeases := position.bind FourLevelCursor.ofComponents }
  | .promoteDelayed => { c with promoteDelayed := position.bind ThreeLevelCursor.ofComponents }
  | .cleanupTemp => { c with cleanupTemp := position.bind ThreeLevelCursor.ofComponents }
  | .compactReceipts => { c with compactReceipts := position.bind ThreeLevelCursor.ofComponents }
  | .deleteReceipts => { c with deleteReceipts := position.bind ThreeLevelCursor.ofComponents }

def clearPhaseCursor (c : RecoveryCursor) (phase : RecoveryPhase) : RecoveryCursor :=
  c.save phase none

end RecoveryCursor

/-- Whether a directory sorts before the saved position under the saved parents. -/
def directoryBeforeCursor (position : Option (List Name)) (parents : List Name) (name : Name) :
    Bool :=
  match position with
  | none => false
  | some components =>
    match components[parents.length]? with
    | some saved => components.take parents.length = parents ∧ name < saved
    | none => false

/-- Whether an entry was classified before. -/
def shouldSkip (position : Option (List Name)) (parents : List Name) (entry : Name) : Bool :=
  match position with
  | none => false
  | some components => parents ++ [entry] ≤ components

def RecoveryPhase.index : RecoveryPhase → Nat
  | .reapLeases => 0
  | .promoteDelayed => 1
  | .cleanupTemp => 2
  | .compactReceipts => 3
  | .deleteReceipts => 4

def RecoveryHierarchyRetryKind.index : RecoveryHierarchyRetryKind → Nat
  | .open => 0
  | .enumerate => 1

/-- The derived order: by phase, kind, components. -/
def RecoveryHierarchyRetry.lt (a b : RecoveryHierarchyRetry) : Bool :=
  if a.phase ≠ b.phase then a.phase.index < b.phase.index
  else if a.kind ≠ b.kind then a.kind.index < b.kind.index
  else a.components < b.components

def cursorComponentIsValid (component : Name) : Bool :=
  component ≠ [] ∧ component.length ≤ 255 ∧ component ≠ ascii "." ∧ component ≠ ascii ".." ∧
    47 ∉ component ∧ 0 ∉ component

/-- What a directory of the hierarchy is named after. -/
inductive LevelKind where
  | boot
  | bucket
  | shard
  deriving DecidableEq, Repr

def LevelKind.canonical : LevelKind → Name → Bool
  | .boot, name => (bootIdBytes name).isSome
  | .bucket, name => (bucketFromHex name).isSome
  | .shard, name => (shardFromHex name).isSome

/-- The directories of a phase, root first. -/
def RecoveryPhase.kinds : RecoveryPhase → List LevelKind
  | .reapLeases => [.boot, .bucket, .shard]
  | .cleanupTemp => [.boot, .shard]
  | .promoteDelayed => [.bucket, .shard]
  | .compactReceipts => [.bucket, .shard]
  | .deleteReceipts => [.bucket, .shard]

def retryDepthIsValid (retry : RecoveryHierarchyRetry) : Bool :=
  1 ≤ retry.components.length ∧ retry.components.length ≤ retry.phase.kinds.length ∧
    (retry.phase.kinds.zip retry.components).all fun p => p.1.canonical p.2

/-- Neighbours of a list are related (`windows(2).all(..)`). -/
def pairwiseNext (r : α → α → Bool) : List α → Bool
  | a :: b :: rest => r a b && pairwiseNext r (b :: rest)
  | _ => true

def cursorIsValid (c : RecoveryCursor) : Bool :=
  ([RecoveryPhase.reapLeases, .promoteDelayed, .cleanupTemp, .compactReceipts,
      .deleteReceipts].all fun phase =>
    (c.saved phase).all fun components => components.all cursorComponentIsValid) ∧
  c.hierarchyRetries.length ≤ maxRecoveryHierarchyRetries ∧
  c.hierarchyRetries.all retryDepthIsValid ∧
  pairwiseNext RecoveryHierarchyRetry.lt c.hierarchyRetries ∧
  c.hierarchyRetryFrontiers.length ≤ 5 ∧
  c.hierarchyRetryFrontiers.all retryDepthIsValid ∧
  pairwiseNext (fun a b => a.phase.index < b.phase.index) c.hierarchyRetryFrontiers ∧
  pairwiseNext (fun a b : RecoveryPhase => a.index < b.index) c.hierarchyRetryOverflow

/-! ## 2. The ledger of directories to retry -/

/-- Insert into a sorted list that does not contain the value. -/
def insertSorted (lt : α → α → Bool) (a : α) : List α → List α
  | [] => [a]
  | b :: rest => if lt a b then a :: b :: rest else b :: insertSorted lt a rest

inductive RememberHierarchyRetry where
  | exact
  | overflow
  | invalid
  deriving DecidableEq

def rememberHierarchyRetry (c : RecoveryCursor) (phase : RecoveryPhase)
    (kind : RecoveryHierarchyRetryKind) (components : List Name) :
    RememberHierarchyRetry × RecoveryCursor :=
  if ¬ components.all isUtf8 then (.invalid, c)
  else
    let retry : RecoveryHierarchyRetry := ⟨phase, kind, components⟩
    if retry ∈ c.hierarchyRetries then (.exact, c)
    else if c.hierarchyRetries.length < maxRecoveryHierarchyRetries then
      (.exact, { c with
        hierarchyRetries := insertSorted RecoveryHierarchyRetry.lt retry c.hierarchyRetries })
    else if phase ∈ c.hierarchyRetryOverflow then (.overflow, c)
    else (.overflow, { c with
      hierarchyRetryOverflow :=
        insertSorted (fun a b => decide (a.index < b.index)) phase c.hierarchyRetryOverflow })

/-- `false` when the pass must stop. -/
def rememberHierarchyRetryOrBlock (phase : RecoveryPhase) (kind : RecoveryHierarchyRetryKind)
    (components : List Name) (path : Path) : PassM Bool := do
  let (outcome, cursor) := rememberHierarchyRetry (← thisHandle).recoveryCursor phase kind components
  onCursor fun _ => cursor
  match outcome with
  | .exact => return true
  | .overflow => do
    blockPhase "hierarchy_retry_overflow" path
      "recovery hierarchy retry ledger is full; phase will be fully rescanned"
    return true
  | .invalid => do
    blockPhase "hierarchy_retry_invalid" path
      "recovery hierarchy retry path is not canonical UTF-8"
    return false

def nextHierarchyRetry (c : RecoveryCursor) (phase : RecoveryPhase) :
    Option RecoveryHierarchyRetry :=
  let retries := c.hierarchyRetries.filter fun r => r.phase = phase
  match c.hierarchyRetryFrontiers.find? fun f => f.phase = phase with
  | none => retries.head?
  | some frontier => (retries.find? fun r => frontier.lt r).or retries.head?

/-- A phase whose ledger overflowed starts over. -/
def RecoveryCursor.withoutOverflow (c : RecoveryCursor) (phase : RecoveryPhase) : RecoveryCursor :=
  if phase ∈ c.hierarchyRetryOverflow then
    RecoveryCursor.clearPhaseCursor
      { c with hierarchyRetryOverflow := c.hierarchyRetryOverflow.erase phase } phase
  else c

def prepareHierarchyRetryPhase (phase : RecoveryPhase) : PassM (Option RecoveryHierarchyRetry) := do
  onCursor (·.withoutOverflow phase)
  return nextHierarchyRetry (← thisHandle).recoveryCursor phase

/-- One frontier for each phase, in the order of the phases. -/
def RecoveryCursor.advanceFrontier (c : RecoveryCursor) (retry : RecoveryHierarchyRetry) :
    RecoveryCursor :=
  let others := c.hierarchyRetryFrontiers.filter fun f => f.phase ≠ retry.phase
  { c with hierarchyRetryFrontiers :=
      insertSorted (fun a b => a.phase.index < b.phase.index) retry others }

def RecoveryCursor.dropFrontier (c : RecoveryCursor) (phase : RecoveryPhase) : RecoveryCursor :=
  { c with hierarchyRetryFrontiers := c.hierarchyRetryFrontiers.filter fun f => f.phase ≠ phase }

/-- A retry that succeeded leaves the ledger and its phase starts over. -/
def RecoveryCursor.resolveRetry (c : RecoveryCursor) (retry : RecoveryHierarchyRetry) :
    RecoveryCursor :=
  let c := { c with hierarchyRetries := c.hierarchyRetries.filter (· ≠ retry) }
  let c := c.clearPhaseCursor retry.phase
  if c.hierarchyRetries.any fun r => r.phase = retry.phase then c.advanceFrontier retry
  else c.dropFrontier retry.phase

def retryPath (retry : RecoveryHierarchyRetry) : Path := retry.components.map hexEncode

/-- Open the components of a retry one below the other, reading the clock before each.
    `none` in place of a directory: one of them is gone. -/
def openRetryPath (deadlineMono : UInt64) : Dir → List Name →
    LookM RecoveryDirectoryError (Option Dir)
  | dir, [] => return some dir
  | dir, component :: rest => do
    if ← Task.mapErr .clock (budgetTimeExceeded deadlineMono) then throw .budgetExhausted
    else
      match ← Task.attempt (openDirectory dir component) with
      | .ok child => openRetryPath deadlineMono child rest
      | .error .enoent => return none
      | .error e => throw (.io e)

def retryClockUnavailable (e : IoError) : PassM Unit := do
  blockPhase "clock_monotonic" [] ("recovery retry budget clock unavailable: " ++ e.text)
  exhaust

/-- Enumerate the directory of a retry when that is what failed; `none` when all is well. -/
def enumerateRetry (c : PassContext) (retry : RecoveryHierarchyRetry) (found : Option Dir) :
    PassM (Option RecoveryDirectoryError) :=
  match found, retry.kind with
  | some dir, .enumerate => do
    match ← readRecoveryDirectory c dir with
    | .ok _ => return none
    | .error e => return some e
  | _, _ => return none

/-- Retry one remembered directory; `true` when the pass must stop. -/
def retryOneHierarchyDirectory (c : PassContext) (phase : RecoveryPhase)
    (retry : Option RecoveryHierarchyRetry) (root : Dir) : PassM Bool := do
  match retry with
  | none => do
    onCursor (·.dropFrontier phase)
    return false
  | some retry =>
    match ← lookHandle (do
        if ← Task.mapErr .clock (budgetTimeExceeded c.deadlineMono) then throw .budgetExhausted
        else openRetryPath c.deadlineMono root retry.components) with
    | .error .budgetExhausted => do
      exhaust
      return true
    | .error (.clock e) => do
      retryClockUnavailable e
      return true
    | .error (.io e) => do
      skipScan
      blockPhase "hierarchy_retry_open" (retryPath retry) e.text
      onCursor (·.advanceFrontier retry)
      return false
    | .ok found =>
      match ← enumerateRetry c retry found with
      | none => do
        onCursor (·.resolveRetry retry)
        return false
      | some e =>
        if ← recordDirectoryError "hierarchy_retry_read" (retryPath retry) e then return true
        else do
          skipScan
          onCursor (·.advanceFrontier retry)
          return false

/-! ## 3. One level of a hierarchy -/

/-- A place in the hierarchy: the names from the phase root down, and what they say. -/
structure Place where
  names : List Name
  currentBoot : Bool
  bucket : UInt64
  shard : UInt32
  /-- Whether empty directories here may be removed. -/
  prune : Bool

/-- The name of the directory at a level. -/
def Place.name (place : Place) (level : Nat) : Name := place.names.getD level []

/-- What a phase decides about a directory with a canonical name. -/
inductive Admit where
  | enter (prune : Bool)
  | skip
  | stop

/-- What the phases differ in at one level. -/
structure Level where
  kind : LevelKind
  /-- Whether the work budget is checked before the directory is looked at. -/
  checksWork : Bool
  nameOperation : String
  openOperation : String
  readOperation : String
  removeOperation : String
  removed : RecoveryStats → RecoveryStats
  admits : Place → PassM Admit

/-- What becomes of one entry: it is gone, it stays, it is left for the next pass (which starts
    before it), or the pass stops behind it. -/
inductive EntryOutcome where
  | absent
  | kept
  | retry
  | stop
  deriving DecidableEq

structure Hierarchy where
  phase : RecoveryPhase
  root : Name
  visit : Place → Dir → Name → PassM EntryOutcome
  entryNameOperation : String

/-- `{name:?}` of a raw name. -/
def rawNameForError (name : Name) : Path :=
  let escaped := name.flatMap fun b =>
    if b = 9 then ascii "\\t" else if b = 10 then ascii "\\n" else if b = 13 then ascii "\\r"
    else if b = 39 ∨ b = 34 ∨ b = 92 then [92, b]
    else if 32 ≤ b ∧ b < 127 then [b]
    else ascii "\\x" ++ hexEncode [b]
  [ascii "b\"" ++ escaped ++ ascii "\""]

def isAscii (name : Name) : Bool := name.all (· < 128)

def LevelKind.text : LevelKind → String
  | .boot => "boot"
  | .bucket => "bucket"
  | .shard => "shard"

/-- The place of a directory below another, or none after recording why its name is not one. -/
def directoryName (kind : LevelKind) (operation : String) (place : Place) (raw : Name) :
    PassM (Option Place) := do
  let h ← thisHandle
  let here := { place with names := place.names ++ [raw] }
  if ¬ isAscii raw then do
    recordError operation (rawNameForError raw) (kind.text ++ " directory name is not ASCII")
    return none
  else if ¬ kind.canonical raw then do
    recordError operation [raw] (kind.text ++ " directory name is not canonical")
    return none
  else
    match kind with
    | .boot => return some { here with currentBoot := raw = h.bootId }
    | .bucket => return some { here with bucket := (bucketFromHex raw).getD 0 }
    | .shard => do
      let shard := (shardFromHex raw).getD 0
      if shard ≥ h.format.shardCount then do
        recordError operation [raw] "shard directory is outside the queue shard range"
        return none
      else return some { here with shard := shard }

inductive Descend where
  | entries (dir : Dir) (names : List Name)
  | skip
  | stop

def rememberLevelRetry (hy : Hierarchy) (kind : RecoveryHierarchyRetryKind) (place : Place) :
    PassM Descend := do
  if ← rememberHierarchyRetryOrBlock hy.phase kind place.names (hy.root :: place.names) then
    return .skip
  else return .stop

/-- Sorted bytewise. -/
def sortNames (names : List Name) : List Name := names.insertionSort (· ≤ ·)

/-- Open and enumerate the directory of a place. A failure counts a skip, blocks the phase and
    is remembered, so that later siblings still make progress. -/
def descendLevel (c : PassContext) (hy : Hierarchy) (level : Level) (parent : Dir) (name : Name)
    (place : Place) : PassM Descend := do
  let path := hy.root :: place.names
  match ← lookHandle (openDirectory parent name) with
  | .error e => do
    skipScan
    blockPhase level.openOperation path e.text
    rememberLevelRetry hy .open place
  | .ok dir =>
    match ← readRecoveryDirectory c dir with
    | .ok names => return .entries dir (sortNames names)
    | .error e => do
      skipScan
      if ← recordDirectoryError level.readOperation path e then return .stop
      else rememberLevelRetry hy .enumerate place

inductive Prune where
  | removed
  | missing
  | kept
  | stop
  deriving DecidableEq

/-- Remove an empty directory once the work budget allows it. -/
def pruneEmptyDirectory (c : PassContext) (parent : Dir) (name : Name) (operation : String)
    (path : Path) : PassM Prune := do
  if ← workBudgetExhausted c then do
    exhaust
    return .stop
  else do
    countOperation
    match ← onHandle (removeEmptyDirectoryVerified parent name) with
    | .ok () => return .removed
    | .error .sourceMissing => return .missing
    | .error .notEmpty => return .kept
    | .error failure => do
      recordRemoveDirectoryFailure operation path failure
      return .kept

def allObservedChildrenAbsent (absent observed : Nat) : Bool := absent = observed

/-! ## 4. The walk -/

/-- The entries of a directory at the bottom, with the number of those that are gone;
    `none` when the pass stops. -/
def walkEntries (c : PassContext) (hy : Hierarchy) (place : Place) (dir : Dir) :
    (entries : List Name) → (absent : Nat) → PassM (Option Nat)
  | [], absent => return some absent
  | raw :: rest, absent => do
    let position := (← thisHandle).recoveryCursor.saved hy.phase
    if shouldSkip position place.names raw then walkEntries c hy place dir rest absent
    else if ← workBudgetExhausted c then do
      exhaust
      return none
    else do
      onCursor (·.save hy.phase (some (place.names ++ [raw])))
      if ¬ isAscii raw then do
        recordError hy.entryNameOperation (rawNameForError raw) "entry name is not ASCII"
        walkEntries c hy place dir rest absent
      else
        match ← hy.visit place dir raw with
        | .absent => walkEntries c hy place dir rest (absent + 1)
        | .kept => walkEntries c hy place dir rest absent
        | .retry => do
          onCursor (·.save hy.phase position)
          return none
        | .stop => return none

/-- Remove a directory all of whose observed children are gone. The count of absent siblings
    after it; `none` when the pass stops. -/
def pruneLevel (c : PassContext) (hy : Hierarchy) (level : Level) (parent : Dir) (name : Name)
    (place : Place) (gone observed absent : Nat) : PassM (Option Nat) := do
  if ¬ place.prune ∨ ¬ allObservedChildrenAbsent gone observed then return some absent
  else
    match ← pruneEmptyDirectory c parent name level.removeOperation (hy.root :: place.names) with
    | .removed => do
      onStats level.removed
      return some (absent + 1)
    | .missing => return some (absent + 1)
    | .kept => return some absent
    | .stop => return none

/-- The directories of one level; `below` walks the children of one of them. -/
def walkLevel (c : PassContext) (hy : Hierarchy) (level : Level)
    (below : Place → Dir → List Name → PassM (Option Nat)) (place : Place) (dir : Dir) :
    (entries : List Name) → (absent : Nat) → PassM (Option Nat)
  | [], absent => return some absent
  | raw :: rest, absent => do
    let next := walkLevel c hy level below place dir rest
    let position := (← thisHandle).recoveryCursor.saved hy.phase
    if directoryBeforeCursor position place.names raw then next absent
    else if ← (if level.checksWork then workBudgetExhausted c else return false) then do
      exhaust
      return none
    else
      match ← directoryName level.kind level.nameOperation place raw with
      | none => next absent
      | some here =>
        match ← level.admits here with
        | .skip => next absent
        | .stop => return none
        | .enter prune =>
          let here := { here with prune := prune }
          match ← descendLevel c hy level dir raw here with
          | .skip => next absent
          | .stop => return none
          | .entries child names =>
            match ← below here child names with
            | none => return none
            | some gone =>
              match ← pruneLevel c hy level dir raw here gone names.length absent with
              | none => return none
              | some absent => next absent

/-- Walk the hierarchy below a directory. -/
def walk (c : PassContext) (hy : Hierarchy) : List Level → Place → Dir → List Name →
    PassM (Option Nat)
  | [], place, dir, names => walkEntries c hy place dir names 0
  | level :: levels, place, dir, names =>
    walkLevel c hy level (walk c hy levels) place dir names 0

/-- Open the root of a phase, retry one remembered directory, and read the root. `ready` runs
    between the retry and the reading; `false` from it ends the phase. -/
def openPhase (c : PassContext) (hy : Hierarchy) (openOperation readOperation : String)
    (ready : PassM Bool) : PassM (Option (Dir × List Name)) := do
  match ← lookHandle (openDirectory rootDir hy.root) with
  | .error e => do
    blockPhase openOperation [hy.root] e.text
    return none
  | .ok dir => do
    let retry ← prepareHierarchyRetryPhase hy.phase
    if ← retryOneHierarchyDirectory c hy.phase retry dir then return none
    else if ← ready then
      match ← readRecoveryDirectory c dir with
      | .error e => do
        let _ ← recordDirectoryError readOperation [hy.root] e
        return none
      | .ok names => return some (dir, sortNames names)
    else return none

/-- The whole walk of a phase; `true` when it reached the end, and the cursor is cleared. -/
def walkPhase (c : PassContext) (hy : Hierarchy) (levels : List Level) (dir : Dir)
    (names : List Name) : PassM Bool := do
  match ← walk c hy levels ⟨[], false, 0, 0, false⟩ dir names with
  | none => return false
  | some _ => do
    onCursor (·.clearPhaseCursor hy.phase)
    return true

end SteadQ
