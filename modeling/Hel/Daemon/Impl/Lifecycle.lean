import Mathlib.Logic.Function.Basic
import Hel.Lifecycle.Impl.Record

/-!
This module contains the operations the daemon runs on sessions.
-/

namespace Hel

inductive LifecycleKind where
  | create
  | close
  | resume
  | forceStop
  | destroyStopped
  deriving DecidableEq

structure LifecycleFeed where
  result : Option (Except String Unit) := none
  closed : Bool := false

structure ActiveLifecycle where
  kind : LifecycleKind
  feed : Nat

inductive DirectAction where
  | checkpoint
  | adoptRecovery
  | destroyRecovery
  deriving DecidableEq

inductive Operation where
  | lifecycle (feed : Nat)
  | direct (action : DirectAction)
  | phoneNew
  | interruptedClose
  deriving DecidableEq

structure Job where
  session : String
  operation : Operation
  cancelled : Bool := false
  deriving DecidableEq

/--
How far `run_daemon_runtime` is: `stopping` once its token is cancelled, `cancelled` once it has left
its loop. `joining` holds the feeds that are still waited for.
-/
inductive DaemonStage where
  | serving
  | stopping
  | cancelled
  | phoneJoined
  | clientsJoined
  | joining (pending : List Nat)
  | lifecyclesJoined
  | recoveriesJoined
  | recoveryDropped
  | writerShutdown
  deriving DecidableEq

def DaemonStage.rank : DaemonStage → Nat
  | .serving | .stopping => 0
  | .cancelled => 1
  | .phoneJoined => 2
  | .clientsJoined => 3
  | .joining _ => 4
  | .lifecyclesJoined => 5
  | .recoveriesJoined => 6
  | .recoveryDropped => 7
  | .writerShutdown => 8

structure Request where
  session : String
  kind : LifecycleKind
  phone : Bool := false
  loaded : Bool := false
  deriving DecidableEq

/--
`asked` are the requests that have not started their operation, `phoneSessions` the sessions of phone
actions in flight, `observed` that of the observation the recovery loop handles, and `copies` those
of the recovery copies with their cancel flags.
-/
structure Daemon where
  lifecycle : BTreeMap String ActiveLifecycle := .empty
  feeds : Nat → LifecycleFeed := fun _ => {}
  nextFeed : Nat := 0
  waiters : List Nat := []
  jobs : List Job := []
  stored : String → Option SessionState := fun _ => none
  asked : List Request := []
  phoneSessions : List String := []
  observed : Option String := none
  copies : List (String × Bool) := []
  known : List String := []
  stage : DaemonStage := .serving

namespace Job

def feed? (job : Job) : Option Nat :=
  match job.operation with
  | .lifecycle feed => some feed
  | _ => none

def tell (told : Job → Bool) (job : Job) : Job :=
  if told job then { job with cancelled := true } else job

end Job

namespace Daemon

def MAX_CONCURRENT_PHONE_ACTIONS : Nat := 4

def result (d : Daemon) (active : ActiveLifecycle) : Option (Except String Unit) :=
  (d.feeds active.feed).result

variable (d : Daemon)

def startOrJoinLifecycle (session : String) (kind : LifecycleKind) : Except String (Nat × Daemon) :=
  let lifecycle :=
    match d.lifecycle.get? session with
    | some active =>
      if active.kind ≠ kind ∧ (d.result active).isSome then d.lifecycle.remove session
      else d.lifecycle
    | none => d.lifecycle
  match lifecycle.get? session with
  | some active =>
    if active.kind = kind then .ok (active.feed, { d with lifecycle := lifecycle })
    else .error ("another lifecycle operation is already running for session " ++ session)
  | none =>
    .ok (d.nextFeed, { d with
        lifecycle := lifecycle.insert session { kind := kind, feed := d.nextFeed }
        feeds := Function.update d.feeds d.nextFeed {}
        nextFeed := d.nextFeed + 1
        jobs := { session := session, operation := .lifecycle d.nextFeed } :: d.jobs })

def waitLifecycleResult (feed : LifecycleFeed) : Option (Except String Unit) :=
  match feed.result with
  | some result => some result
  | none =>
    if feed.closed then some (.error "daemon lifecycle operation stopped without a result") else none

def removeCompletedLifecycle (feed : Nat) : Daemon :=
  { d with
    lifecycle := d.lifecycle.sweep
      (fun _ active => active.feed = feed && (d.result active).isSome) }

def ensureNoActiveLifecycle : Except String Unit :=
  if d.lifecycle.values.any (fun active => (d.result active).isNone) then
    .error "cannot rename configuration while a session lifecycle operation is active"
  else .ok ()

def admitPhoneAction (session : String) : Option Daemon :=
  if d.phoneSessions.length < MAX_CONCURRENT_PHONE_ACTIONS ∧ session ∉ d.phoneSessions then
    some { d with phoneSessions := session :: d.phoneSessions }
  else none

def finish (job : Job) (result : Option (Except String Unit)) : Daemon :=
  { d with
    jobs := d.jobs.erase job
    feeds :=
      match job.feed? with
      | some feed =>
        Function.update d.feeds feed { result := result, closed := true }
      | none => d.feeds }

def pendingLifecycles : List Nat :=
  (d.lifecycle.values.filter (fun active => (d.result active).isNone)).map ActiveLifecycle.feed

def cancelLifecycles : Daemon :=
  { d with
    jobs := d.jobs.map (Job.tell fun job => job.feed?.any (d.pendingLifecycles.contains ·))
    stage := .joining d.pendingLifecycles }

def servesClients : Bool :=
  d.stage.rank ≤ 2

def servesPhone : Bool :=
  d.stage.rank ≤ 1

def refusal : Option String :=
  if d.stage = .serving then none
  else some "daemon is shutting down; retry to reach a fresh daemon"

def attends (request : Request) : Bool :=
  if request.phone then request.session ∈ d.phoneSessions else d.servesClients

/-- What a request finds in the controller that it loads before it starts its operation. -/
def nothingToDo (stored : Option SessionState) : LifecycleKind → Bool
  | .close => stored = some .stopped
  | .resume => stored = some .running
  | .destroyStopped => stored = none
  | .create | .forceStop => false

end Daemon

inductive DaemonStep where
  | save (session : String) (state : Option SessionState)
  | ask (request : Request)
  | load (request : Request)
  | loadFails (request : Request)
  | request (request : Request)
  | create (session : String)
  | waitCreate (session : String)
  | direct (session : String) (action : DirectAction)
  | answer (feed : Nat)
  | phone (session : String)
  | phoneNew (session : String)
  | phoneDone (session : String)
  | observe (session : String)
  | passOver
  | copy (session : String)
  | copyDone (session : String) (cancelled : Bool)
  | finish (job : Job) (result : Option (Except String Unit))
  | stop
  | exit
  | joinPhone (told : Bool)
  | joinClients (blocking : List Job)
  | cancelLifecycles
  | awaitLifecycle
  | joinRecoveries
  | dropRecovery
  | shutDownManager

namespace Daemon

def startAndWait (d : Daemon) (session : String) (kind : LifecycleKind) : Daemon :=
  match d.startOrJoinLifecycle session kind with
  | .ok (feed, d) => { d with waiters := feed :: d.waiters, known := session :: d.known }
  | .error _ => d

def next (d : Daemon) : DaemonStep → Option Daemon
  | .save session state => some { d with stored := Function.update d.stored session state }
  | .ask request =>
    if request.loaded = false ∧ d.attends request
        ∧ (request.phone → request.kind = .close ∨ request.kind = .resume) then
      some { d with
        asked := if !request.phone && d.refusal.isSome then d.asked else request :: d.asked }
    else none
  | .load request =>
    if request ∈ d.asked ∧ request.loaded = false then
      let asked := d.asked.erase request
      some { d with
        asked :=
          if nothingToDo (d.stored request.session) request.kind then asked
          else { request with loaded := true } :: asked }
    else none
  | .loadFails request =>
    if request ∈ d.asked ∧ request.kind ≠ .forceStop then
      some { d with asked := d.asked.erase request }
    else none
  | .request request =>
    if request ∈ d.asked ∧ request.loaded ∧ d.attends request ∧ request.kind ≠ .create then
      some (startAndWait { d with asked := d.asked.erase request } request.session request.kind)
    else none
  | .create session =>
    -- The session was registered under a new id just before.
    let request := { session, kind := .create, loaded := true }
    if request ∈ d.asked ∧ d.attends request ∧ session ∉ d.known then
      match d.startOrJoinLifecycle session .create with
      | .ok (_, d) =>
        some { d with known := session :: d.known, asked := d.asked.erase request }
      | .error _ => none
    else none
  | .waitCreate session =>
    match d.lifecycle.get? session with
    | some active =>
      if d.servesClients ∧ d.refusal = none ∧ active.kind = .create then
        some { d with waiters := active.feed :: d.waiters }
      else none
    | none => none
  | .direct session action =>
    if d.servesClients ∧ d.refusal = none then
      match d.ensureNoActiveLifecycle with
      | .ok () =>
        some { d with
          jobs := { session := session, operation := .direct action } :: d.jobs
          known := session :: d.known }
      | .error _ => some d
    else none
  | .answer feed =>
    if feed ∈ d.waiters ∧ (waitLifecycleResult (d.feeds feed)).isSome then
      some { d.removeCompletedLifecycle feed with waiters := d.waiters.erase feed }
    else none
  | .phone session =>
    if d.servesPhone then d.admitPhoneAction session else none
  | .phoneNew session =>
    if d.servesPhone ∧ session ∉ d.known then
      (d.admitPhoneAction session).map fun d =>
        { d with
          jobs := { session := session, operation := .phoneNew } :: d.jobs
          known := session :: d.known }
    else none
  | .phoneDone session =>
    if session ∈ d.phoneSessions ∧ ∀ job ∈ d.jobs, job.session = session → job.operation ≠ .phoneNew
    then
      some { d with
        phoneSessions := d.phoneSessions.erase session
        asked := d.asked.filter (fun request => !(request.phone && request.session = session)) }
    else none
  | .observe session =>
    -- The loop looks at the cancel flag before it handles an observation, and not again.
    if d.observed = none ∧ d.stage.rank ≤ 6 then some { d with observed := some session } else none
  | .passOver => some { d with observed := none }
  | .copy session =>
    if d.observed = some session then
      some { d with observed := none, copies := (session, false) :: d.copies }
    else none
  | .copyDone session cancelled =>
    if (session, cancelled) ∈ d.copies then
      some { d with copies := d.copies.erase (session, cancelled) }
    else none
  | .finish job result => if job ∈ d.jobs then some (d.finish job result) else none
  | .stop => if d.stage = .serving then some { d with stage := .stopping } else none
  | .exit =>
    if d.stage = .serving ∨ d.stage = .stopping then
      some { d with
        jobs := d.jobs.map (Job.tell (·.operation = .interruptedClose))
        stage := .cancelled }
    else none
  | .joinPhone told =>
    -- `told` says which of the two futures of `run_server` ended first.
    if d.stage = .cancelled then
      some { d with
        jobs := d.jobs.map (Job.tell (fun job => told && job.operation = .phoneNew))
        stage := .phoneJoined }
    else none
  | .joinClients blocking =>
    -- An aborted client task drops what it awaits; a blocking closure, such as a database write of a
    -- checkpoint or the whole destruction of a recovery, goes on.
    if d.stage = .phoneJoined then
      some { d with
        jobs := d.jobs.filter (fun job =>
          job.operation ≠ .direct .checkpoint ∧ job.operation ≠ .direct .adoptRecovery
            ∨ job ∈ blocking)
        asked := d.asked.filter (·.phone)
        stage := .clientsJoined }
    else none
  | .cancelLifecycles => if d.stage = .clientsJoined then some d.cancelLifecycles else none
  | .awaitLifecycle =>
    match d.stage with
    | .joining [] => some { d with stage := .lifecyclesJoined }
    | .joining (feed :: rest) =>
      if (d.feeds feed).result.isSome then some { d with stage := .joining rest }
      else if (d.feeds feed).closed then some { d with stage := .lifecyclesJoined }
      else none
    | _ => none
  | .joinRecoveries =>
    if d.stage = .lifecyclesJoined ∧ ∀ job ∈ d.jobs, job.operation ≠ .interruptedClose then
      some { d with stage := .recoveriesJoined }
    else none
  | .dropRecovery =>
    if d.stage = .recoveriesJoined then
      some { d with
        copies := d.copies.map (fun copy => (copy.1, true))
        stage := .recoveryDropped }
    else none
  | .shutDownManager =>
    if d.stage = .recoveryDropped then some { d with stage := .writerShutdown } else none

def start (recoveries : List String) : Daemon where
  jobs := recoveries.map (fun session => { session := session, operation := .interruptedClose })
  known := recoveries

end Daemon

end Hel
