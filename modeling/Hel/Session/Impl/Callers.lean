import Mathlib.Logic.Function.Basic
import Hel.Data.Machine
import Hel.Session.Impl.Actor

/-!
This module contains a session actor together with its callers.
-/

namespace Hel

inductive LeaseCall where
  | sending
  | waiting
  | replied (result : Except String Nat)

/-- `deferred` and `answered` only record which submissions were put off, and what came of them. -/
structure ActorSystem where
  actor : SessionActor := {}
  stopped : Bool := false
  retirement : Bool := false
  commands : List ActorCommand := []
  releases : List ReturnedConnection := []
  calls : Nat → Option LeaseCall := fun _ => none
  nextCall : Nat := 0
  leases : List Nat := []
  deferred : List DeferredSubmit := []
  answered : List (DeferredSubmit × SubmitAnswer) := []

inductive ActorEvent where
  | call
  | sendLease (call : Nat)
  | resume (call : Nat)
  | dropCall (call : Nat)
  | release (leaseId : Nat)
  | dropLease (leaseId : Nat)
  | send (command : ActorCommand)
  | retire (requested : Bool)
  | receive (held : Bool)
  | takeReturn
  | tick
  | ended (connection : Bool)
  | delivered (connection : Bool) (answer : SubmitAnswer)
  | leaseSynced (result : Except String Unit)
  | stop
  | abort

namespace ActorSystem

variable (s : ActorSystem)

def setCall (call : Nat) (state : Option LeaseCall) : ActorSystem :=
  { s with calls := Function.update s.calls call state }

def reply (call : Nat) (result : Except String Nat) : ActorSystem :=
  match s.calls call with
  | some .waiting => s.setCall call (some (.replied result))
  | _ => s

def isWaiting (call : Nat) : Bool :=
  match s.calls call with
  | some .waiting => true
  | _ => false

def giveBack (leaseId : Nat) (connection : Bool) : ActorSystem :=
  { s with
    leases := s.leases.erase leaseId
    releases := if s.stopped then s.releases else s.releases ++ [⟨leaseId, connection⟩] }

def receive (s : ActorSystem) (held : Bool) (command : ActorCommand) : ActorSystem :=
  let (actor, rejection) := s.actor.receive s.retirement held command
  let s := { s with
    actor := actor
    deferred := s.deferred ++ actor.deferredSubmits.drop s.actor.deferredSubmits.length }
  match command, rejection with
  | .lease call, some message => s.reply call (.error message)
  | _, _ => s

def inFlight : List DeferredSubmit :=
  match s.actor.task with
  | some (.submitting submit true) => [submit]
  | _ => []

def stop : ActorSystem :=
  let refused := (s.inFlight ++ s.actor.deferredSubmits).map
    (fun submit => (submit, Except.error managerStopped))
  { s with
    stopped := true
    actor := { s.actor with deferredSubmits := [], task := none }
    commands := []
    releases := []
    answered := s.answered ++ refused
    calls := fun call =>
      match s.calls call with
      | some .waiting => some (.replied (.error managerStopped))
      | state => state }

def callerNext : ActorEvent → Option ActorSystem
  | .call => some { s.setCall s.nextCall (some .sending) with nextCall := s.nextCall + 1 }
  | .sendLease call =>
    match s.calls call with
    | some .sending =>
      if s.stopped then
        some (s.setCall call none)
      else
        some { s.setCall call (some .waiting) with commands := s.commands ++ [.lease call] }
    | _ => none
  | .resume call =>
    match s.calls call with
    | some (.replied (.ok leaseId)) =>
      some { s.setCall call none with leases := s.leases ++ [leaseId] }
    | some (.replied (.error _)) => some (s.setCall call none)
    | _ => none
  | .dropCall call => some (s.setCall call none)
  | .release leaseId => if leaseId ∈ s.leases then some (s.giveBack leaseId true) else none
  | .dropLease leaseId => if leaseId ∈ s.leases then some (s.giveBack leaseId false) else none
  | .send command =>
    match command with
    | .lease _ => none
    | command => if s.stopped then none else some { s with commands := s.commands ++ [command] }
  | .retire requested => some { s with retirement := requested }
  | _ => none

def idleNext : ActorEvent → Option ActorSystem
  | .receive held =>
    match s.commands with
    | [] => none
    | command :: rest => some (receive { s with commands := rest } held command)
  | .takeReturn =>
    match s.releases with
    | [] => none
    | returned :: rest =>
      let (actor, refused) := s.actor.takeReturn s.retirement returned
      some { s with actor := actor, releases := rest, answered := s.answered ++ refused }
  | .tick =>
    let lifecycle := s.actor.lifecycle.setRetirementRequested s.retirement
    if lifecycle.shouldStop then
      none
    else if lifecycle.isLeased then
      some { s with actor := { s.actor with lifecycle := lifecycle } }
    else
      some { s with actor := { s.actor with lifecycle := lifecycle, task := some .tick } }
  | .stop =>
    if (s.actor.lifecycle.setRetirementRequested s.retirement).shouldStop then
      some s.stop
    else
      none
  | _ => none

def taskNext (task : ActorTask) : ActorEvent → Option ActorSystem
  | .ended connection =>
    match task with
    | .tick | .serving _ =>
      some { s with actor := { s.actor with connection := connection, task := none } }
    | .catchingUp drains =>
      some { s with actor := { s.actor with connection := connection }.leave drains }
    | _ => none
  | .delivered connection answer =>
    match task with
    | .submitting submit drains =>
      some { s with
        actor := s.actor.deliver drains connection answer
        answered := if drains then s.answered ++ [(submit, answer)] else s.answered }
    | _ => none
  | .leaseSynced result =>
    match task with
    | .leasing call =>
      let (actor, answer) := s.actor.grantLease result (s.isWaiting call)
      some (reply { s with actor := actor } call answer)
    | _ => none
  | _ => none

def actorNext (event : ActorEvent) : Option ActorSystem :=
  match event with
  -- The channels of the actor close, or its task is aborted: this is possible at every await.
  | .abort => some s.stop
  | event =>
    match s.actor.task with
    | none => s.idleNext event
    | some task => s.taskNext task event

def isCallerEvent : ActorEvent → Bool
  | .call | .sendLease _ | .resume _ | .dropCall _ | .release _ | .dropLease _ | .send _
  | .retire _ => true
  | _ => false

def next (event : ActorEvent) : Option ActorSystem :=
  if isCallerEvent event then
    s.callerNext event
  else if s.stopped then
    none
  else
    s.actorNext event

def Step (event : ActorEvent) (t : ActorSystem) : Prop :=
  s.next event = some t

end ActorSystem

end Hel
