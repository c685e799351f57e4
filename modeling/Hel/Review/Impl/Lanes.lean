import Hel.Data.BTreeMap
import Hel.Review.Impl.Verdict
import Mathlib.Data.String.Basic

/-!
This module contains the lane roster, the job a review works on and the prompts its roles receive.
-/

namespace Hel

structure ReviewLane where
  id : String
  label : String
  deriving DecidableEq

def reviewLanes : List ReviewLane :=
  [ { id := "control_flow", label := "Control flow" },
    { id := "duplication", label := "Duplication" },
    { id := "error_handling", label := "Error handling" },
    { id := "dead_code", label := "Dead code" },
    { id := "tests", label := "Tests" },
    { id := "contracts", label := "Contracts" } ]

def quickLane : ReviewLane where
  id := "quick"
  label := "General"

def laneById (id : String) : Option ReviewLane :=
  reviewLanes.find? (fun lane => lane.id = id)

inductive ReviewTier where
  | quick
  | extended
  deriving DecidableEq

structure PriorReviewContext where
  synthesis : String
  evidence : ReviewPassEvidence
  deriving DecidableEq

structure ReviewJob where
  tier : ReviewTier
  task : String
  userMessages : List String
  initialResult : String
  trajectory : String
  diff : String
  diffstat : String
  changedLines : Nat
  repositoryRoots : List String
  priorReview : Option PriorReviewContext
  deriving DecidableEq

structure SupplementalContext where
  body : String
  unavailable : Bool
  deriving DecidableEq

def SupplementalContext.available (body : String) : SupplementalContext where
  body := body
  unavailable := false

def SupplementalContext.missing (reason : String) : SupplementalContext where
  body := "Unavailable: " ++ reason
  unavailable := true

def directIntentContext : String :=
  "Intent extraction was not invoked: this turn has one self-contained governing user prompt. Treat the attached original task and primary user message as the authoritative intent."

def shouldExtractIntent (job : ReviewJob) : Bool :=
  ((job.userMessages.map Text.trimmed).filter (fun message => message ≠ ""))
    ≠ [Text.trimmed job.task]

structure LaneReport where
  id : String
  label : String
  outcome : LaneOutcome
  finalMessage : String
  deriving DecidableEq

inductive ReviewPrompt where
  | quickReview (job : ReviewJob)
  | quickValidation (job : ReviewJob) (findings : String) (changedFunctions : SupplementalContext)
  | intent (userMessages : List String) (task : String)
  | supervisor (job : ReviewJob) (intent changedFunctions : SupplementalContext)
  | lane (lane : ReviewLane) (job : ReviewJob)
  | reportInjection (reports : List LaneReport) (outstanding : Nat)
  deriving DecidableEq

structure ReviewSubagentRequest where
  agentType : String
  hypothesis : String
  deriving DecidableEq

def validateRequests (seen : List String) : List ReviewSubagentRequest → Except String Unit
  | [] => .ok ()
  | request :: rest =>
    if (laneById request.agentType).isNone then
      .error ("`" ++ request.agentType ++ "` is not a reviewer id on the advertised roster")
    else if Text.isBlank request.hypothesis then
      .error ("reviewer `" ++ request.agentType ++ "` must have a nonempty concrete hypothesis")
    else if request.agentType ∈ seen then
      .error ("reviewers contains duplicate reviewer id `" ++ request.agentType ++ "`")
    else
      validateRequests (request.agentType :: seen) rest

def validateDispatch (requests : List ReviewSubagentRequest) : Except String Unit :=
  if requests.isEmpty then
    .error "reviewers must contain at least one reviewer request"
  else
    validateRequests [] requests

end Hel
