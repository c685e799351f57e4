import Hel.Review.Impl.Driver

/-!
This module contains the host of the turn reviews.
-/

namespace Hel

structure TurnReviewState where
  baselines : BTreeMap String String := BTreeMap.empty
  reviewedThroughOrdinal : Nat := 0
  priorReview : Option PriorReviewContext := none
  active : Option String := none
  deriving DecidableEq

namespace TurnReviewState

def record (state : TurnReviewState) : ReviewRequest → TurnReviewState
  | .advanceBaseline trees reviewedThroughOrdinal =>
    { state with baselines := trees, reviewedThroughOrdinal := reviewedThroughOrdinal }
  | .recordPriorReview prior => { state with priorReview := some prior }
  | .clearPriorReview => { state with priorReview := none }
  | .close => { state with active := none }
  | _ => state

def recordAll (state : TurnReviewState) (requests : List ReviewRequest) : TurnReviewState :=
  requests.foldl record state

end TurnReviewState

end Hel
