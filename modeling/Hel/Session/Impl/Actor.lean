import Hel.Review.Impl.Driver
import Hel.Worker.Impl.Event

/-!
This module contains the actor of a session.
-/

namespace Hel

structure ReviewerLaunchConfig where
  profileId : String
  harness : HarnessKind
  generation : Nat
  deriving DecidableEq

def ReviewerLaunchConfig.reusableFor (config other : ReviewerLaunchConfig) : Bool :=
  config.profileId = other.profileId && config.harness = other.harness
    && config.generation = other.generation

inductive ReviewerAction where
  | start (config : ReviewerLaunchConfig)
  | submit (commandId : String) (command : RelayCommand)
  | attach (afterOrdinal : Nat) (afterDigest : String)
  | acknowledge (throughOrdinal : Nat) (throughDigest : String)
  | status
  | respondElicitation (elicitationId : String)
  | pause
  | captureDelta (baselines : BTreeMap String String)
  | advanceBaseline (trees : BTreeMap String String)
  | analyzeDelta (repositories : List AnalyzeDeltaRepository)
  | takeLaneDispatches
  deriving DecidableEq

inductive ActorCommand where
  | submit (commandId : String) (command : RelayCommand)
  | sync
  | respondElicitation (elicitationId : String)
  | reviewer (role : Option String) (action : ReviewerAction)
  | lease (call : Nat)
  deriving DecidableEq

structure ReturnedConnection where
  leaseId : Nat
  connection : Bool
  deriving DecidableEq

structure DeferredSubmit where
  commandId : String
  command : RelayCommand
  deriving DecidableEq

structure ActorLifecycle where
  activeLease : Option Nat := none
  retirementRequested : Bool := false
  deriving DecidableEq

namespace ActorLifecycle

variable (lifecycle : ActorLifecycle)

def setRetirementRequested (requested : Bool) : ActorLifecycle :=
  { lifecycle with retirementRequested := requested }

def isLeased : Bool :=
  lifecycle.activeLease.isSome

def shouldStop : Bool :=
  lifecycle.retirementRequested && !lifecycle.isLeased

def acceptsNewWork : Bool :=
  !lifecycle.retirementRequested

def activateLease (leaseId : Nat) : ActorLifecycle :=
  { lifecycle with activeLease := some leaseId }

def returnLease (leaseId : Nat) : Bool × ActorLifecycle :=
  if lifecycle.activeLease ≠ some leaseId then
    (false, lifecycle)
  else
    (true, { lifecycle with activeLease := none })

end ActorLifecycle

/--
What the actor waits for while it takes up nothing else; `drains` says that deferred submissions may
follow a submission.
-/
inductive ActorTask where
  | tick
  | submitting (submit : DeferredSubmit) (drains : Bool)
  | catchingUp (drains : Bool)
  | serving (command : ActorCommand)
  | leasing (call : Nat)
  deriving DecidableEq

structure SessionActor where
  lifecycle : ActorLifecycle := {}
  connection : Bool := false
  deferredSubmits : List DeferredSubmit := []
  nextLeaseId : Nat := 1
  task : Option ActorTask := none
  deriving DecidableEq

abbrev SubmitAnswer := Except String Nat

def targetChanging : String := "session target is changing"

def reservedForLifecycle : String := "session is reserved for a lifecycle operation"

def leaseTaken : String := "session already has a lifecycle operation"

def managerStopped : String := "session manager stopped"

def promptHeldMessage : String :=
  "a review of the last turn is open; forward, dismiss or cancel it first"

namespace SessionActor

variable (actor : SessionActor)

/--
Take a command up: it is rejected, deferred, or becomes the task of the actor. Whether prompts are
held is looked up here and nowhere else.
-/
def receive (retiring held : Bool) (command : ActorCommand) : SessionActor × Option String :=
  let actor := { actor with lifecycle := actor.lifecycle.setRetirementRequested retiring }
  if !actor.lifecycle.acceptsNewWork then
    (actor, some targetChanging)
  else
    match command with
    | .submit commandId command =>
      if command.isPrompt && held then
        (actor, some promptHeldMessage)
      else if actor.lifecycle.isLeased then
        ({ actor with deferredSubmits := actor.deferredSubmits ++ [⟨commandId, command⟩] }, none)
      else
        ({ actor with task := some (.submitting ⟨commandId, command⟩ false) }, none)
    | .lease call =>
      if actor.lifecycle.isLeased then
        (actor, some leaseTaken)
      else
        ({ actor with task := some (.leasing call) }, none)
    | command =>
      if actor.lifecycle.isLeased then
        (actor, some reservedForLifecycle)
      else
        ({ actor with task := some (.serving command) }, none)

-- Rust's `wrapping_add(1).max(1)` on 64 bits.
def advanceLeaseId (leaseId : Nat) : Nat :=
  max ((leaseId + 1) % 2 ^ 64) 1

/--
The sync for a lease has ended. The connection goes out with the answer if the caller still listens,
and stays with the actor otherwise.
-/
def grantLease (synced : Except String Unit) (listening : Bool)
    : SessionActor × Except String Nat :=
  match synced with
  | .error message => ({ actor with task := none, connection := false }, .error message)
  | .ok () =>
    let leaseId := actor.nextLeaseId
    let actor := { actor with task := none, nextLeaseId := advanceLeaseId leaseId }
    if listening then
      ({ actor with connection := false, lifecycle := actor.lifecycle.activateLease leaseId },
       .ok leaseId)
    else
      ({ actor with connection := true }, .ok leaseId)

def drain : SessionActor :=
  match actor.deferredSubmits with
  | [] => { actor with task := none }
  | deferred :: rest =>
    { actor with task := some (.submitting deferred true), deferredSubmits := rest }

def refuseDeferred (message : String) : SessionActor × List (DeferredSubmit × SubmitAnswer) :=
  ({ actor with deferredSubmits := [] },
   actor.deferredSubmits.map (fun deferred => (deferred, .error message)))

def takeReturn (retiring : Bool) (returned : ReturnedConnection)
    : SessionActor × List (DeferredSubmit × SubmitAnswer) :=
  let (matched, lifecycle) := actor.lifecycle.returnLease returned.leaseId
  if matched then
    let actor := { actor with lifecycle := lifecycle, connection := returned.connection }
    if retiring then
      actor.refuseDeferred targetChanging
    else
      (actor.drain, [])
  else
    (actor, [])

def leave (drains : Bool) : SessionActor :=
  if drains then
    actor.drain
  else
    { actor with task := none }

def deliver (drains connection : Bool) (answer : SubmitAnswer) : SessionActor :=
  let actor := { actor with connection := connection }
  match answer with
  | .error _ => actor.leave drains
  | .ok _ =>
    if connection then
      { actor with task := some (.catchingUp drains) }
    else
      actor.leave drains

end SessionActor

end Hel
