import Hel.Data.Text

/-!
This module contains what a turn review concludes and how the reply of a reviewing agent is
classified.
-/

namespace Hel

def synthesisLimit : Nat := 32 * 1024

def boundReviewSection (text : String) (limit : Nat) (label : String) : String :=
  let chars := text.toList
  if Text.byteLength chars ≤ limit then
    text
  else
    let marker := "\n…[" ++ label ++ " omitted]…\n"
    let available := limit - Text.byteLength marker.toList
    let head := available * 3 / 4
    let tail := available - head
    String.ofList (Text.takeBytes head chars) ++ marker
      ++ String.ofList (Text.dropBytes (Text.byteLength chars - tail) chars)

def boundTail (text : String) (limit : Nat) (label : String) : String :=
  let chars := text.toList
  if Text.byteLength chars ≤ limit then
    text
  else
    let marker := "\n…[" ++ label ++ " truncated]…"
    String.ofList (Text.takeBytes (limit - Text.byteLength marker.toList) chars) ++ marker

def cleanSentinel : String := "No material findings."

def laneCleanSentinel : String := "No findings."

inductive LaneOutcome where
  | completed
  | cancelled
  | failed (reason : String)
  deriving DecidableEq

structure ReviewLaneEvidence where
  id : String
  outcome : LaneOutcome
  deriving DecidableEq

structure ReviewPassEvidence where
  intentBrief : String := ""
  intentAvailable : Bool := false
  lanes : List ReviewLaneEvidence := []
  deriving DecidableEq

inductive ReviewVerdict where
  | findings (synthesis : String) (evidence : ReviewPassEvidence)
  | clean
  | failed (reason : String)
  deriving DecidableEq

def ReviewVerdict.isClean : ReviewVerdict → Bool
  | .clean => true
  | _ => false

def ReviewVerdict.isFailed : ReviewVerdict → Bool
  | .failed _ => true
  | _ => false

def replyLines (text : String) : List (List Char) :=
  ((Text.lines (Text.trim text.toList)).map Text.trim).filter (fun line => !line.isEmpty)

def hasPriorityMarker (lines : List (List Char)) : Bool :=
  lines.any (fun line =>
    ["[p0]", "[p1]", "[p2]", "[p3]"].any (fun marker =>
      Text.contains marker.toList (line.map Char.toLower)))

def endsWithSentinel (sentinel : String) (lines : List (List Char)) : Bool :=
  lines.getLast?.any (fun line =>
    Text.equalsIgnoringAsciiCase (Text.trim (Text.trimMatches '*' line)) sentinel.toList)

def synthesisVerdict (text : String) : ReviewVerdict :=
  if (Text.trim text.toList).isEmpty then
    .failed "the review supervisor returned an empty synthesis"
  else if endsWithSentinel cleanSentinel (replyLines text)
      && !hasPriorityMarker (replyLines text) then
    .clean
  else
    .findings (boundTail (Text.trimmed text) synthesisLimit "synthesis") {}

def laneReportIsClean (text : String) : Bool :=
  endsWithSentinel laneCleanSentinel (replyLines text) && !hasPriorityMarker (replyLines text)

end Hel
