import Hel.Data.BTreeMap
import Hel.Review.Impl.Verdict
import Mathlib.Data.String.Basic

/-!
This module contains the capture of what a turn changed.
-/

namespace Hel

def laneDiffLimit : Nat := 96 * 1024

def usizeMax : Nat := 2 ^ 64 - 1

def saturatingAdd (a b : Nat) : Nat :=
  min (a + b) usizeMax

structure RawDiffSummary where
  files : Nat := 0
  insertions : Nat := 0
  deletions : Nat := 0
  deriving DecidableEq

namespace RawDiffSummary

def changedLineCount (summary : RawDiffSummary) : Nat :=
  saturatingAdd summary.insertions summary.deletions

def readLine : RawDiffSummary × Bool → List Char → RawDiffSummary × Bool
  | (summary, inHunk), line =>
    if "diff --git ".toList.isPrefixOf line then
      ({ summary with files := saturatingAdd summary.files 1 }, false)
    else if "@@".toList.isPrefixOf line then
      (summary, true)
    else if inHunk && "+".toList.isPrefixOf line then
      ({ summary with insertions := saturatingAdd summary.insertions 1 }, inHunk)
    else if inHunk && "-".toList.isPrefixOf line then
      ({ summary with deletions := saturatingAdd summary.deletions 1 }, inHunk)
    else
      (summary, inHunk)

def fromPatch (patch : String) : RawDiffSummary :=
  let summary := ((Text.lines patch.toList).foldl readLine ({}, false)).1
  if summary.files = 0 ∧ 0 < summary.changedLineCount then
    { summary with files := 1 }
  else
    summary

def diffstat (summary : RawDiffSummary) : String :=
  toString summary.files ++ (if summary.files = 1 then " file" else " files") ++ " changed"
    ++ (if 0 < summary.insertions then
        ", " ++ toString summary.insertions
          ++ (if summary.insertions = 1 then " insertion" else " insertions") ++ "(+)"
      else "")
    ++ (if 0 < summary.deletions then
        ", " ++ toString summary.deletions
          ++ (if summary.deletions = 1 then " deletion" else " deletions") ++ "(-)"
      else "")

end RawDiffSummary

structure RepoDelta where
  root : String
  baselineTree : Option String
  currentTree : String
  patch : String
  diffstat : String
  changedLines : Nat
  deriving DecidableEq

/--
The Git commands a capture runs: reading the working tree of a repository, testing whether it holds
a tree and comparing two trees.
-/
structure GitRunner where
  captureWorktreeTree (root : String) : Except String String
  treeExists (root tree : String) : Bool
  diffBetweenTrees (root baseline current : String) : Except String String

def withContext {α : Type} (context : String) (result : Except String α) : Except String α :=
  result.mapError (fun error => context ++ ": " ++ error)

def captureRepositoryDelta (git : GitRunner) (baselines : BTreeMap String String) (root : String)
    : Except String RepoDelta := do
  let current ← withContext ("capture the working tree of " ++ root) (git.captureWorktreeTree root)
  let baseline := (baselines.get? root).filter (git.treeExists root)
  let patch ←
    match baseline with
    | some baseline =>
      withContext ("diff the captured trees of " ++ root)
        (git.diffBetweenTrees root baseline current)
    | none => .ok ""
  let summary := RawDiffSummary.fromPatch patch
  .ok
    { root := root
      baselineTree := baseline
      currentTree := current
      patch := boundReviewSection patch laneDiffLimit "workspace diff"
      diffstat := summary.diffstat
      changedLines := summary.changedLineCount }

def captureRepositoryDeltas (git : GitRunner) (baselines : BTreeMap String String)
    : List String → Except String (List RepoDelta)
  | [] => .ok []
  | root :: rest => do
    let delta ← captureRepositoryDelta git baselines root
    let deltas ← captureRepositoryDeltas git baselines rest
    .ok (delta :: deltas)

def RepoDelta.changed (delta : RepoDelta) : Bool :=
  !(Text.trim delta.patch.toList).isEmpty

def hasChanges (deltas : List RepoDelta) : Bool :=
  deltas.any RepoDelta.changed

def workspaceDiff (deltas : List RepoDelta) : String :=
  "\n".intercalate
    ((deltas.filter RepoDelta.changed).map
      (fun delta => "Repository: " ++ delta.root ++ "\n" ++ delta.patch))

def combinedDiffstat (deltas : List RepoDelta) : String :=
  let lines := (deltas.filter RepoDelta.changed).map
    (fun delta => delta.root ++ ": " ++ delta.diffstat)
  if lines.isEmpty then "No files changed." else "\n".intercalate lines

def changedLineCount (deltas : List RepoDelta) : Nat :=
  deltas.foldl (fun total delta => saturatingAdd total delta.changedLines) 0

def capturedTrees (deltas : List RepoDelta) : BTreeMap String String :=
  BTreeMap.ofList (deltas.map (fun delta => (delta.root, delta.currentTree)))

end Hel
