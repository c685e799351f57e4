import Mathlib.Logic.Function.Basic

/-!
This module contains the refresh of the Kimi Code credentials.
-/

namespace Hel

structure KimiCredentials where
  accessToken : String
  refreshToken : String
  expiresAt : Int
  scope : String := ""
  tokenType : String := ""
  expiresIn : Int := 0
  deriving DecidableEq

namespace KimiCredentials

def differsFrom (pair other : KimiCredentials) : Bool :=
  pair.accessToken ≠ other.accessToken || pair.refreshToken ≠ other.refreshToken
    || pair.expiresAt ≠ other.expiresAt

def needsRefresh (pair : KimiCredentials) (now : Int) : Bool :=
  pair.expiresAt ≠ 0 && pair.expiresAt - now < max 300 (pair.expiresIn.tdiv 2)

end KimiCredentials

def readKimiCredentials (file : KimiCredentials) : Option KimiCredentials :=
  if file.accessToken = "" then none else some file

structure KimiTokenPayload where
  accessToken : Option String
  refreshToken : Option String
  expiresIn : Option Int
  scope : Option String := none
  tokenType : Option String := none
  deriving DecidableEq

def requiredString (value : Option String) (key context : String) : Except String String :=
  match value.filter (· ≠ "") with
  | some value => .ok value
  | none => .error s!"{context} is missing {key}"

def refreshedKimiCredentials (payload : KimiTokenPayload) (now : Int)
    : Except String KimiCredentials := do
  let accessToken ← requiredString payload.accessToken "access_token" "Kimi Code token refresh"
  let refreshToken ← requiredString payload.refreshToken "refresh_token" "Kimi Code token refresh"
  match payload.expiresIn.filter (0 < ·) with
  | none => .error "Kimi Code token refresh is missing expires_in"
  | some expiresIn =>
    return {
      accessToken := accessToken
      refreshToken := refreshToken
      expiresAt := now + expiresIn
      scope := payload.scope.getD ""
      tokenType := payload.tokenType.getD "Bearer"
      expiresIn := expiresIn }

-- Times are counted in milliseconds.
inductive KimiLockLoss where
  | stolen (published observed : Nat)
  | gone
  | unproven (error : String)
  deriving DecidableEq

inductive KimiLockOwnership where
  | held (published : Nat)
  | lost (loss : KimiLockLoss)
  deriving DecidableEq

def kimiLockMtimeTolerance : Nat := 1000

def kimiLockMtimeMatches (published observed : Nat) : Bool :=
  (observed - published) + (published - observed) < kimiLockMtimeTolerance

def confirmKimiLockOwnership (lock : Option Nat) (stat : Option String)
    : KimiLockOwnership → Except KimiLockLoss Nat × KimiLockOwnership
  | .lost loss => (.error loss, .lost loss)
  | .held published =>
    match stat, lock with
    | some error, _ => (.error (.unproven error), .held published)
    | none, some observed =>
      if kimiLockMtimeMatches published observed then (.ok published, .held published)
      else (.error (.stolen published observed), .lost (.stolen published observed))
    | none, none => (.error .gone, .lost .gone)

def beatKimiLock (lock : Option Nat) (stat touch : Option String) (now : Nat)
    (ownership : KimiLockOwnership) : Option Nat × KimiLockOwnership :=
  match confirmKimiLockOwnership lock stat ownership, touch with
  | (.ok _, _), none => (some now, .held now)
  | (_, ownership), _ => (lock, ownership)

inductive KimiRefreshPersist where
  | save
  | saveContested (loss : KimiLockLoss)
  | adopt (accessToken : String) (loss : KimiLockLoss)
  deriving DecidableEq

def contestKimiRefresh (onDisk : Option KimiCredentials) (active : KimiCredentials)
    (loss : KimiLockLoss) : KimiRefreshPersist :=
  match onDisk with
  | some pair =>
    if pair.differsFrom active then .adopt pair.accessToken loss else .saveContested loss
  | none => .saveContested loss

def decideKimiRefreshPersist (ownership : Except KimiLockLoss Nat)
    (onDisk : Option KimiCredentials) (active : KimiCredentials) : KimiRefreshPersist :=
  match ownership with
  | .ok _ => .save
  | .error (.unproven _) => .save
  | .error loss => contestKimiRefresh onDisk active loss

-- Only a proven loss makes the file the authority on which pair is live.
def consultKimiFile (ownership : Except KimiLockLoss Nat) (file : Option KimiCredentials)
    : Option KimiCredentials :=
  match ownership with
  | .error (.stolen _ _) => file
  | .error .gone => file
  | _ => none

/-- Where a refresh stands, between two of its reads, writes and requests. -/
inductive KimiStage where
  | acquiring (initial : KimiCredentials)
  | locked (initial : KimiCredentials)
  | requesting (active : KimiCredentials)
  | rejected (active : KimiCredentials)
  | fetched (active refreshed : KimiCredentials)
  | checked (active refreshed : KimiCredentials) (ownership : Except KimiLockLoss Nat)
  | decided (active refreshed : KimiCredentials) (persist : KimiRefreshPersist)
  | saved (accessToken : String)
  | releasing (accessToken : String)
  | returned (accessToken : String)
  | failed

-- `lastRead` and `own` remember what the refresh last read and what was issued to it.
structure KimiCall where
  cli : Bool
  force : Bool
  rejectedToken : Option String
  stage : KimiStage
  ownership : KimiLockOwnership := .lost .gone
  lastRead : Option KimiCredentials := none
  own : Option KimiCredentials := none

structure KimiWorld where
  file : KimiCredentials
  issued : List KimiCredentials
  spent : List String := []
  lock : Option Nat := none
  calls : Nat → Option KimiCall := fun _ => none

/-- A `disturb` is whatever anyone does to the lock directory, breaking a stale lock included. -/
inductive KimiStep where
  | start (id : Nat) (cli force : Bool) (rejectedToken : Option String) (now : Int)
  | acquire (id : Nat) (mtime : Nat)
  | giveUp (id : Nat)
  | disturb (lock : Option Nat)
  | beat (id : Nat) (stat touch : Option String) (now : Nat)
  | look (id : Nat) (now : Int)
  | respond (id : Nat) (payload : KimiTokenPayload) (now : Int)
  | refuse (id : Nat) (unauthorized : Bool)
  | recover (id : Nat)
  | confirm (id : Nat) (stat : Option String)
  | decide (id : Nat) (readable : Bool)
  | persist (id : Nat) (written : Bool)
  | release (id : Nat) (stat : Option String) (removed : Bool)

namespace KimiWorld

variable (w : KimiWorld)

def set (id : Nat) (call : KimiCall) : KimiWorld :=
  { w with calls := Function.update w.calls id (some call) }

def startStage (file : KimiCredentials) (force : Bool) (now : Int) : KimiStage :=
  match readKimiCredentials file with
  | none => .failed
  | some initial =>
    if !force && !initial.needsRefresh now then .returned initial.accessToken
    else .acquiring initial

def lookStage (file initial : KimiCredentials) (force : Bool) (rejectedToken : Option String)
    (now : Int) : KimiStage :=
  match readKimiCredentials file with
  | none => .failed
  | some active =>
    if (!force && !active.needsRefresh now)
        || (force && (active.differsFrom initial
          || rejectedToken.any (· ≠ active.accessToken))) then
      .releasing active.accessToken
    else if active.refreshToken = "" then .failed
    else .requesting active

def recoverStage (file active : KimiCredentials) : KimiStage :=
  match readKimiCredentials file with
  | none => .failed
  | some recovery =>
    if recovery.refreshToken ≠ active.refreshToken && recovery.accessToken ≠ "" then
      .releasing recovery.accessToken
    else .failed

-- The server: a token is spent by the first refresh that uses it, and the answer is well formed.
def respond (id : Nat) (call : KimiCall) (active : KimiCredentials)
    (payload : KimiTokenPayload) (now : Int) : Option KimiWorld :=
  if active.refreshToken ∈ w.spent then some (w.set id { call with stage := .rejected active })
  else
    match refreshedKimiCredentials payload now with
    | .error _ => none
    | .ok refreshed =>
      if ∀ pair ∈ w.issued, pair.refreshToken ≠ refreshed.refreshToken then
        some { w.set id { call with stage := .fetched active refreshed, own := some refreshed } with
          issued := refreshed :: w.issued
          spent := active.refreshToken :: w.spent }
      else none

def confirm (call : KimiCall) (stat : Option String)
    (active refreshed : KimiCredentials) : KimiCall :=
  if call.cli then { call with stage := .decided active refreshed .save }
  else
    let (result, ownership) := confirmKimiLockOwnership w.lock stat call.ownership
    { call with stage := .checked active refreshed result, ownership := ownership }

def decide (call : KimiCall) (readable : Bool) (active refreshed : KimiCredentials)
    (ownership : Except KimiLockLoss Nat) : KimiCall :=
  let onDisk := consultKimiFile ownership (if readable then readKimiCredentials w.file else none)
  { call with
    stage := .decided active refreshed (decideKimiRefreshPersist ownership onDisk active)
    lastRead := onDisk.or call.lastRead }

def persist (w : KimiWorld) (id : Nat) (call : KimiCall) (written : Bool)
    (refreshed : KimiCredentials) (persist : KimiRefreshPersist) : KimiWorld :=
  match persist, written with
  | .adopt accessToken _, _ => w.set id { call with stage := .returned accessToken }
  | .save, true =>
    { w.set id { call with stage := .saved refreshed.accessToken } with file := refreshed }
  | .saveContested _, true =>
    { w.set id { call with stage := .returned refreshed.accessToken } with file := refreshed }
  | _, false => w.set id { call with stage := .failed }

def release (id : Nat) (call : KimiCall) (stat : Option String) (removed : Bool)
    (released lost : KimiStage) : KimiWorld :=
  match confirmKimiLockOwnership w.lock stat call.ownership, removed with
  | (.ok _, _), true =>
    { w.set id { call with stage := released, ownership := .lost .gone } with lock := none }
  | (.ok _, ownership), false => w.set id { call with stage := released, ownership := ownership }
  | (.error _, ownership), _ => w.set id { call with stage := lost, ownership := ownership }

def advance (id : Nat) (call : KimiCall) (step : KimiStep) : Option KimiWorld :=
  match step, call.stage with
  | .acquire _ mtime, .acquiring initial =>
    if w.lock.isNone then
      some { w.set id { call with stage := .locked initial, ownership := .held mtime } with
        lock := some mtime }
    else none
  | .giveUp _, .acquiring _ | .giveUp _, .locked _ | .giveUp _, .rejected _ =>
    some (w.set id { call with stage := .failed })
  | .beat _ stat touch now, _ =>
    let (lock, ownership) := beatKimiLock w.lock stat touch now call.ownership
    some { w.set id { call with ownership := ownership } with lock := lock }
  | .look _ now, .locked initial =>
    some (w.set id
      { call with
        stage := lookStage w.file initial call.force call.rejectedToken now
        lastRead := some w.file })
  | .respond _ payload now, .requesting active => w.respond id call active payload now
  | .refuse _ unauthorized, .requesting active =>
    some (w.set id { call with stage := if unauthorized then .rejected active else .failed })
  | .recover _, .rejected active =>
    some (w.set id { call with stage := recoverStage w.file active, lastRead := some w.file })
  | .confirm _ stat, .fetched active refreshed =>
    some (w.set id (w.confirm call stat active refreshed))
  | .decide _ readable, .checked active refreshed ownership =>
    some (w.set id (w.decide call readable active refreshed ownership))
  | .persist _ written, .decided _ refreshed persist =>
    some (w.persist id call written refreshed persist)
  | .release _ stat removed, .saved token =>
    some (w.release id call stat removed (.returned token) (.returned token))
  | .release _ stat removed, .releasing token =>
    some (w.release id call stat removed (.returned token) .failed)
  | _, _ => none

def next (step : KimiStep) : Option KimiWorld :=
  match step with
  | .disturb lock => some { w with lock := lock }
  | .start id cli force rejectedToken now =>
    if (w.calls id).isNone then
      some (w.set id
        { cli := cli
          force := force
          rejectedToken := rejectedToken
          stage := startStage w.file force now
          lastRead := some w.file })
    else none
  | .acquire id _ | .giveUp id | .beat id _ _ _ | .look id _ | .respond id _ _ | .refuse id _
  | .recover id | .confirm id _ | .decide id _ | .persist id _ | .release id _ _ =>
    (w.calls id).bind fun call => w.advance id call step

end KimiWorld

end Hel
