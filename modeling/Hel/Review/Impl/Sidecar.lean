import Hel.Review.Impl.Lanes

/-!
This module contains the worker's side of a review.
-/

namespace Hel

structure LaneDispatchReply where
  started : List String
  error : Option String
  deriving DecidableEq

namespace ReviewerSidecar

def acceptDispatches (pending : List ReviewSubagentRequest)
    : List ReviewSubagentRequest → List ReviewSubagentRequest
  | [] => []
  | request :: rest =>
    if pending.any (fun queued => queued.agentType = request.agentType) then
      acceptDispatches pending rest
    else
      request :: acceptDispatches (pending ++ [request]) rest

def recordDispatch (pending reviewers : List ReviewSubagentRequest)
    : List ReviewSubagentRequest × LaneDispatchReply :=
  match validateDispatch reviewers with
  | .error message => (pending, { started := [], error := some message })
  | .ok () =>
    let accepted := acceptDispatches pending reviewers
    (pending ++ accepted, { started := accepted.map (·.agentType), error := none })

def takeDispatches {α : Type} (pending : List α) : List α × List α :=
  (pending, [])

end ReviewerSidecar

end Hel
