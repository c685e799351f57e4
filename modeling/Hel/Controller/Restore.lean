import Hel.Controller.Projection

/-!
This module contains what a resume writes to the durable projection of its session, and when a
resume that fails puts the archived projection back.
-/

namespace Hel

def projectionRebuildRequired (stored : Option (Nat × String)) (archiveFrontier : Nat)
    (archiveFrontierDigest : String) : Bool :=
  stored != some (archiveFrontier, archiveFrontierDigest)

def replaceMaterializedQueuedPrompts (row : Option MaterializedSession)
    (queuedPrompts : List MaterializedQueuedPrompt) : Option MaterializedSession :=
  row.map fun current => { current with queuedPrompts }

/-- What the relay of the started worker commits: an event, or the archive to repair a row with. -/
inductive ProjectionCommit where
  | event (event : RelayEvent)
  | repaired

structure FailedResume where
  -- `materialized_session_from_canonical` of the archive that the rolled back record names.
  archived : MaterializedSession
  stored : Option MaterializedSession
  frontierRead : Bool
  discardQueuedPrompts : Bool
  -- Whether it came as far as the projection write, and what the relay committed then, newest first.
  written : Bool
  commits : List ProjectionCommit

namespace FailedResume

def rebuildProjection (resume : FailedResume) : Bool :=
  projectionRebuildRequired
    ((if resume.frontierRead then resume.stored else none).map fun stored =>
      (stored.appliedEventOrdinal, stored.appliedEventDigest))
    resume.archived.appliedEventOrdinal resume.archived.appliedEventDigest

def writeProjection (resume : FailedResume) : Option MaterializedSession :=
  if resume.rebuildProjection then
    some (if resume.discardQueuedPrompts then { resume.archived with queuedPrompts := [] }
      else resume.archived)
  else if resume.discardQueuedPrompts then
    replaceMaterializedQueuedPrompts resume.stored []
  else
    resume.stored

def synchronized (codec : RelayCodec) (contentText : List ContentBlock → String)
    (resume : FailedResume) : List ProjectionCommit → Except String (Option MaterializedSession)
  | [] => .ok (if resume.written then resume.writeProjection else resume.stored)
  | .repaired :: earlier => do
    let _ ← resume.synchronized codec contentText earlier
    return some resume.archived
  | .event event :: earlier => do
    let row ← resume.synchronized codec contentText earlier
    let current := row.getD (.empty resume.archived.sessionId)
    return some (← projectNext codec contentText current event)

def restoreProjection (resume : FailedResume) (row : Option MaterializedSession)
    : Option MaterializedSession :=
  if resume.rebuildProjection then
    some resume.archived
  else if resume.discardQueuedPrompts then
    replaceMaterializedQueuedPrompts row resume.archived.queuedPrompts
  else
    row

-- Where the row is reused it is taken for the archived one because it stands at the same event.
def StoredAsArchived (resume : FailedResume) : Prop :=
  resume.restoreProjection resume.stored = some resume.archived

variable {codec : RelayCodec} {contentText : List ContentBlock → String} {resume : FailedResume}
  {row : Option MaterializedSession}

theorem stored_of_reused (h : resume.rebuildProjection = false)
    : ∃ stored, resume.stored = some stored
        ∧ stored.appliedEventOrdinal = resume.archived.appliedEventOrdinal := by
  unfold rebuildProjection projectionRebuildRequired at h
  cases hstored : resume.stored with
  | none => simp [hstored] at h
  | some stored =>
  cases hread : resume.frontierRead with
  | false => simp [hread] at h
  | true =>
  simp only [hstored, hread, if_true, Option.map_some, bne_eq_false_iff_eq, Option.some.injEq,
    Prod.mk.injEq] at h
  exact ⟨stored, rfl, h.1⟩

theorem synchronized_repaired {earlier : List ProjectionCommit}
    (h : resume.synchronized codec contentText (.repaired :: earlier) = .ok row)
    : row = some resume.archived := by
  cases hearlier : resume.synchronized codec contentText earlier with
  | error message => simp [synchronized, hearlier, bind, Except.bind] at h
  | ok before =>
  simp only [synchronized, hearlier] at h
  cases h
  rfl

theorem ordinal_of_synchronized (hreused : resume.rebuildProjection = false)
    {commits : List ProjectionCommit} (h : resume.synchronized codec contentText commits = .ok row)
    : ∃ current, row = some current
        ∧ resume.archived.appliedEventOrdinal ≤ current.appliedEventOrdinal
        ∧ ∀ event earlier, commits = .event event :: earlier →
            resume.archived.appliedEventOrdinal < current.appliedEventOrdinal := by
  induction commits generalizing row with
  | nil =>
    obtain ⟨stored, hstored, hordinal⟩ := stored_of_reused hreused
    cases h
    cases hwritten : resume.written <;> cases hdiscard : resume.discardQueuedPrompts <;>
      simp [writeProjection, replaceMaterializedQueuedPrompts, hreused, hdiscard, hstored, hordinal]
  | cons commit earlier ih =>
    cases hearlier : resume.synchronized codec contentText earlier with
    | error message => cases commit <;> simp [synchronized, hearlier, bind, Except.bind] at h
    | ok before =>
    cases commit with
    | repaired => exact ⟨resume.archived, synchronized_repaired h, Nat.le_refl _, by simp⟩
    | event event =>
    obtain ⟨current, hrow, hle, -⟩ := ih hearlier
    subst hrow
    cases hnext : projectNext codec contentText current event with
    | error message =>
      simp [synchronized, hearlier, hnext, bind, Except.bind] at h
    | ok next =>
    simp only [synchronized, hearlier, bind, Except.bind, Option.getD_some, hnext] at h
    cases h
    have hordinal := ordinal_of_valid (valid_of_projectNext hnext)
    have hcursor := (cursor_of_projectNext hnext).1
    refine ⟨next, rfl, ?_, fun _ _ _ => ?_⟩ <;> omega

theorem ordinal_of_restoreProjection (hreused : resume.rebuildProjection = false)
    {current : MaterializedSession}
    (h : resume.restoreProjection (some current) = some resume.archived)
    : current.appliedEventOrdinal = resume.archived.appliedEventOrdinal := by
  simp only [restoreProjection, hreused, replaceMaterializedQueuedPrompts] at h
  cases hdiscard : resume.discardQueuedPrompts with
  | false => simp_all
  | true =>
  simp only [hdiscard, Bool.false_eq_true, if_false, if_true, Option.map_some,
    Option.some.injEq] at h
  rw [← h]

theorem restoreProjection_written (resume : FailedResume)
    : resume.restoreProjection (if resume.written then resume.writeProjection else resume.stored)
        = resume.restoreProjection resume.stored := by
  cases hwritten : resume.written <;> cases hreused : resume.rebuildProjection <;>
    cases hdiscard : resume.discardQueuedPrompts <;> cases hstored : resume.stored <;>
    simp [restoreProjection, writeProjection, replaceMaterializedQueuedPrompts, hreused, hdiscard,
      hstored]

theorem restoreProjection_archived (resume : FailedResume)
    : resume.restoreProjection (some resume.archived) = some resume.archived := by
  cases hdiscard : resume.discardQueuedPrompts <;>
    simp [restoreProjection, replaceMaterializedQueuedPrompts, hdiscard]

end FailedResume

/--
A failed resume leaves the archived projection exactly if it rebuilt it, or the relay's last commit
repaired it, or the relay committed nothing and the reused row was the archived one.
-/
theorem failed_resume_restores_projection (codec : RelayCodec)
    (contentText : List ContentBlock → String) (resume : FailedResume)
    (row : Option MaterializedSession)
    (h : resume.synchronized codec contentText resume.commits = .ok row)
    : resume.restoreProjection row = some resume.archived
        ↔ resume.rebuildProjection = true
            ∨ resume.commits.head? = some .repaired
            ∨ resume.commits = [] ∧ resume.StoredAsArchived := by
  cases hrebuild : resume.rebuildProjection with
  | true => simp [FailedResume.restoreProjection, hrebuild]
  | false =>
  cases hcommits : resume.commits with
  | nil =>
    rw [hcommits] at h
    rw [← Except.ok.inj h]
    simp [FailedResume.restoreProjection_written, FailedResume.StoredAsArchived]
  | cons commit earlier =>
  cases commit with
  | repaired =>
    rw [hcommits] at h
    rw [FailedResume.synchronized_repaired h]
    simp [resume.restoreProjection_archived]
  | event event =>
  obtain ⟨current, rfl, -, hpast⟩ := FailedResume.ordinal_of_synchronized hrebuild h
  have hlt := hpast event earlier hcommits
  have hne : resume.restoreProjection (some current) ≠ some resume.archived := by
    intro hrestored
    have := FailedResume.ordinal_of_restoreProjection hrebuild hrestored
    omega
  simp [hne]

def archivedRow : MaterializedSession :=
  (projectNext plainCodec noText (.empty "session-1") (plainEvent 1 (plainChunk none))).toOption.getD
    (.empty "session-1")

def resumedOneEvent : FailedResume where
  archived := archivedRow
  stored := some archivedRow
  frontierRead := true
  discardQueuedPrompts := false
  written := true
  commits := [.event (plainEvent 2 (.warning "late"))]

theorem failed_resume_restores_repaired_row
    : archivedRow.appliedEventOrdinal = 1 ∧ ∃ row,
        { resumedOneEvent with
            commits := .repaired :: resumedOneEvent.commits }.synchronized plainCodec noText
              (.repaired :: resumedOneEvent.commits) = .ok row
          ∧ resumedOneEvent.restoreProjection row = some resumedOneEvent.archived := by
  have hok : (resumedOneEvent.synchronized plainCodec noText
      (.repaired :: resumedOneEvent.commits)).isOk := by decide +kernel
  cases h : resumedOneEvent.synchronized plainCodec noText
    (.repaired :: resumedOneEvent.commits) with
  | error message => simp [h, Except.isOk, Except.toBool] at hok
  | ok row =>
    refine ⟨by decide +kernel, row, h, ?_⟩
    exact (failed_resume_restores_projection plainCodec noText
      { resumedOneEvent with commits := .repaired :: resumedOneEvent.commits } row h).mpr
        (.inr (.inl rfl))

theorem failed_resume_keeps_later_event
    : ∃ row, resumedOneEvent.synchronized plainCodec noText resumedOneEvent.commits = .ok row
        ∧ resumedOneEvent.restoreProjection row ≠ some resumedOneEvent.archived := by
  have hok : (resumedOneEvent.synchronized plainCodec noText resumedOneEvent.commits).toOption.map
      (fun row => decide (resumedOneEvent.restoreProjection row = some resumedOneEvent.archived))
        = some false := by decide +kernel
  cases h : resumedOneEvent.synchronized plainCodec noText resumedOneEvent.commits with
  | error message => simp [h, Except.toOption] at hok
  | ok row =>
    rw [h] at hok
    exact ⟨row, rfl, of_decide_eq_false (Option.some.inj hok)⟩

end Hel
