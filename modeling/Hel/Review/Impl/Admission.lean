import Mathlib.Data.Finset.Card
import Mathlib.Algebra.BigOperators.Group.Finset.Basic
import Hel.Review.Impl.Sidecar
import Hel.Session.Impl.Callers

/-!
This module contains how the worker admits reviewing roles.
-/

namespace Hel

def maxParallelLanes : Nat := 3

def isLane (role : String) : Bool :=
  (laneById role).isSome

structure RunningReviewer where
  config : ReviewerLaunchConfig
  laneSlot : Bool
  deriving DecidableEq

-- How far a start has come. A slot that is in hand already belongs to the stage.
inductive StartStage where
  | preparing
  | acquiring
  | launching (laneSlot : Bool)
  | opening
  | configuring
  deriving DecidableEq

inductive RoleTask where
  | dispatching (action : ReviewerAction)
  | starting (config : ReviewerLaunchConfig) (stage : StartStage)
  deriving DecidableEq

structure RoleDispatch where
  request : Nat
  task : RoleTask
  deriving DecidableEq

structure ReviewerRole where
  running : Option RunningReviewer := none
  dispatch : Option RoleDispatch := none
  deriving DecidableEq

structure ReviewerRequest where
  request : Nat
  role : String
  action : ReviewerAction
  deriving DecidableEq

/-- `waiting` are the requests that wait for the lock of their role. -/
structure ReviewerSidecar where
  roles : String → ReviewerRole := fun _ => {}
  laneSlots : Nat := maxParallelLanes
  waiting : List ReviewerRequest := []
  answered : List Nat := []

inductive SidecarEvent where
  | lock (request : Nat)
  | proceed (role : String)
  | fail (role : String)
  deriving DecidableEq

namespace ReviewerSidecar

variable (s : ReviewerSidecar)

def setRole (role : String) (state : ReviewerRole) : ReviewerSidecar :=
  { s with roles := Function.update s.roles role state }

def setTask (role : String) (request : Nat) (task : RoleTask) : ReviewerSidecar :=
  s.setRole role { s.roles role with dispatch := some ⟨request, task⟩ }

def answer (role : String) (request : Nat) : ReviewerSidecar :=
  { s.setRole role { s.roles role with dispatch := none } with answered := s.answered ++ [request] }

def releaseSlot (laneSlot : Bool) : ReviewerSidecar :=
  { s with laneSlots := s.laneSlots + laneSlot.toNat }

def pause (role : String) : ReviewerSidecar :=
  match (s.roles role).running with
  | none => s
  | some running =>
    (s.setRole role { s.roles role with running := none }).releaseSlot running.laneSlot

def start (role : String) (request : Nat) (config : ReviewerLaunchConfig) : ReviewerSidecar :=
  match (s.roles role).running with
  | some running =>
    if running.config.reusableFor config then
      s.setTask role request (.starting config .configuring)
    else
      (s.pause role).setTask role request (.starting config .preparing)
  | none => s.setTask role request (.starting config .preparing)

def proceedStart (role : String) (request : Nat)
    (config : ReviewerLaunchConfig) : StartStage → Option ReviewerSidecar
  | .preparing =>
    if isLane role then
      some (s.setTask role request (.starting config .acquiring))
    else
      some (s.setTask role request (.starting config (.launching false)))
  | .acquiring =>
    if s.laneSlots = 0 then
      none
    else
      some ({ s with laneSlots := s.laneSlots - 1 }.setTask role request
        (.starting config (.launching true)))
  | .launching laneSlot =>
    some (s.setRole role
      { running := some ⟨config, laneSlot⟩
        dispatch := some ⟨request, .starting config .opening⟩ })
  | .opening => some (s.setTask role request (.starting config .configuring))
  | .configuring => some (s.answer role request)

def proceed (role : String) : Option ReviewerSidecar :=
  match (s.roles role).dispatch with
  | none => none
  | some ⟨request, .dispatching (.start config)⟩ => some (s.start role request config)
  | some ⟨request, .dispatching .pause⟩ => some ((s.pause role).answer role request)
  | some ⟨request, .dispatching _⟩ => some (s.answer role request)
  | some ⟨request, .starting config stage⟩ => s.proceedStart role request config stage

def fail (role : String) : Option ReviewerSidecar :=
  match (s.roles role).dispatch with
  | none => none
  | some ⟨_, .dispatching .pause⟩ => none
  | some ⟨request, .dispatching _⟩ => some (s.answer role request)
  | some ⟨_, .starting _ .acquiring⟩ => none
  | some ⟨request, .starting _ .preparing⟩ => some (s.answer role request)
  | some ⟨request, .starting _ (.launching laneSlot)⟩ =>
    some ((s.releaseSlot laneSlot).answer role request)
  | some ⟨request, .starting _ .opening⟩ => some ((s.pause role).answer role request)
  | some ⟨request, .starting _ .configuring⟩ => some (s.answer role request)

def lock (request : Nat) : Option ReviewerSidecar :=
  match s.waiting.find? (fun waiting => waiting.request = request) with
  | none => none
  | some waiting =>
    let rest := { s with waiting := s.waiting.erase waiting }
    match waiting.action with
    | .takeLaneDispatches => some { rest with answered := s.answered ++ [request] }
    | action =>
      match (s.roles waiting.role).dispatch with
      | some _ => none
      | none => some (rest.setTask waiting.role request (.dispatching action))

def next : SidecarEvent → Option ReviewerSidecar
  | .lock request => s.lock request
  | .proceed role => s.proceed role
  | .fail role => s.fail role

end ReviewerSidecar

/-- A session actor and its worker. `exchange` is the request whose answer the actor waits for. -/
structure LaneSystem where
  desk : ActorSystem := {}
  sidecar : ReviewerSidecar := {}
  exchange : Option Nat := none
  nextRequest : Nat := 0

inductive LaneEvent where
  | actor (event : ActorEvent)
  | request
  | worker (event : SidecarEvent)
  | answer

namespace LaneSystem

-- An actor that ends its task without the answer has given its connection up. The worker does not
-- learn of it, and goes on with the request.
def actorNext (s : LaneSystem) (event : ActorEvent) : Option LaneSystem :=
  match s.exchange, event with
  | some _, .ended true => none
  | _, event =>
    (s.desk.next event).map (fun desk =>
      { s with
        desk := desk
        exchange := if desk.actor.task = s.desk.actor.task then s.exchange else none })

def requestNext (s : LaneSystem) : Option LaneSystem :=
  match s.exchange, s.desk.actor.task with
  | none, some (.serving (.reviewer role action)) =>
    let request := ReviewerRequest.mk s.nextRequest (role.getD reviewerRole) action
    some { s with
      sidecar := { s.sidecar with waiting := s.sidecar.waiting ++ [request] }
      exchange := some s.nextRequest
      nextRequest := s.nextRequest + 1 }
  | _, _ => none

def answerNext (s : LaneSystem) : Option LaneSystem :=
  match s.exchange with
  | some request =>
    if request ∈ s.sidecar.answered then
      (s.desk.next (.ended true)).map (fun desk => { s with desk := desk, exchange := none })
    else
      none
  | none => none

def next (s : LaneSystem) : LaneEvent → Option LaneSystem
  | .actor event => s.actorNext event
  | .request => s.requestNext
  | .worker event => (s.sidecar.next event).map (fun sidecar => { s with sidecar := sidecar })
  | .answer => s.answerNext

def Step (s : LaneSystem) (event : LaneEvent) (t : LaneSystem) : Prop :=
  s.next event = some t

end LaneSystem

end Hel
