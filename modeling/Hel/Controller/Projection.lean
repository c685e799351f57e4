import Hel.Controller.Lemmas.Observe
import Hel.Worker.Plain

/-!
This module contains when a controller can project the events of a relay, and that it never moves an
item, sets one back or gives its id to an item of another kind.
-/

namespace Hel

variable {codec : RelayCodec} {contentText : List ContentBlock → String} {old new : TranscriptItem}
  {events : List RelayEvent}

section Step

variable {current next : MaterializedSession} {event : RelayEvent}

-- The condition under which one event can be projected: the id of an item that it creates is free,
-- and a prompt that it steers is queued.
def Projectable (current : MaterializedSession) (event : RelayEvent) : Prop :=
  steers current event
    ∧ ∀ stableId, contestedId current event = some stableId →
        current.transcript.get? stableId = none

theorem ordinal_of_valid {previousOrdinal : Nat} {previousDigest : String}
    (h : validateRelayEvent codec previousOrdinal previousDigest event = .ok ())
    : event.ordinal = previousOrdinal + 1 := by
  unfold validateRelayEvent at h
  split at h
  . cases h
  split at h
  . cases h
  split at h
  . cases h
  next hordinal => simpa using hordinal

theorem valid_of_projectNext (h : projectNext codec contentText current event = .ok next)
    : validateRelayEvent codec current.appliedEventOrdinal current.appliedEventDigest event
        = .ok () := by
  unfold projectNext at h
  split at h
  . cases h
  rename_i mutation hproject
  unfold projectRelayEvent at hproject
  split at hproject
  . cases hproject
  next hvalid => exact hvalid

structure Projects (codec : RelayCodec) (contentText : List ContentBlock → String)
    (current : MaterializedSession) (event : RelayEvent) (created : Option TranscriptItem)
    (mutation : MaterializedSessionMutation) (next : MaterializedSession) : Prop where
  observed : projectObservation codec contentText current event
    { lastActivityAtMs := some event.recordedAtMs } event.observation = .ok mutation
  footprint : Footprint current event created mutation.transcript
  creation : Creation current event created
  applied : applyTranscriptMutations event.ordinal current.transcript mutation.transcript
    = .ok next.transcript
  ordinal : next.appliedEventOrdinal = event.ordinal
  digest : next.appliedEventDigest = event.digest
  execution : next.execution = mutation.execution.getD current.execution
  queuedPrompts : next.queuedPrompts = mutation.queuedPrompts.getD current.queuedPrompts

theorem projects_of_ok (hcurrent : current.WellFormed)
    (h : projectNext codec contentText current event = .ok next)
    : ∃ created mutation, Projects codec contentText current event created mutation next := by
  have hvalid := valid_of_projectNext h
  have hordinal := ordinal_of_valid hvalid
  unfold projectNext projectRelayEvent at h
  rw [hvalid] at h
  dsimp only at h
  split at h
  . cases h
  rename_i mutation hobserved
  obtain ⟨mutation', hobserved', created, hfootprint, hcreation⟩ :=
    @projectObservation_creating { lastActivityAtMs := some event.recordedAtMs } current event
      hcurrent hordinal rfl codec contentText (steers_of_ok hobserved)
  cases hobserved.symm.trans hobserved'
  unfold applyCommittedProjectionEvent at h
  rw [hvalid] at h
  dsimp only at h
  split at h
  . cases h
  rename_i transcript happlied
  cases h
  exact ⟨created, mutation, hobserved, hfootprint, hcreation, happlied, rfl, rfl, rfl, rfl⟩

theorem projectNext_ok_iff (hcurrent : current.WellFormed)
    (hvalid : validateRelayEvent codec current.appliedEventOrdinal current.appliedEventDigest event
      = .ok ())
    : (∃ next, projectNext codec contentText current event = .ok next)
        ↔ Projectable current event := by
  have hordinal := ordinal_of_valid hvalid
  constructor
  . intro ⟨next, h⟩
    obtain ⟨created, mutation, hprojects⟩ := projects_of_ok hcurrent h
    refine ⟨steers_of_ok hprojects.observed, ?_⟩
    intro stableId hcontested
    obtain ⟨item, hcreated, heq⟩ := hprojects.creation.contested stableId hcontested
    rw [← heq]
    apply KeyedList.get?_eq_none.mpr
    apply (hprojects.footprint.applies_iff hcurrent hordinal).mp ⟨_, hprojects.applied⟩
    exact hcreated
  intro ⟨hsteers, hfree⟩
  obtain ⟨mutation, hobserved, created, hfootprint, hcreation⟩ :=
    @projectObservation_creating { lastActivityAtMs := some event.recordedAtMs } current event
      hcurrent hordinal rfl codec contentText hsteers
  have happlies := (hfootprint.applies_iff hcurrent hordinal).mpr (by
    intro item hitem
    cases hcreation.fresh item hitem with
    | inl hcontested => exact KeyedList.get?_eq_none.mp (hfree _ hcontested)
    | inr hfresh => exact hfresh.1)
  obtain ⟨transcript, happlied⟩ := happlies
  unfold projectNext projectRelayEvent applyCommittedProjectionEvent
  rw [hvalid]
  dsimp only
  rw [hobserved]
  dsimp only
  rw [happlied]
  exact ⟨_, rfl⟩

theorem wellFormed_projectNext (hcurrent : current.WellFormed)
    (h : projectNext codec contentText current event = .ok next) : next.WellFormed := by
  obtain ⟨created, mutation, hprojects⟩ := projects_of_ok hcurrent h
  unfold MaterializedSession.WellFormed
  rw [hprojects.ordinal]
  apply hprojects.footprint.proper_applied hcurrent _ hprojects.applied
  exact ordinal_of_valid (valid_of_projectNext h)

structure TranscriptItem.Continues (old new : TranscriptItem) : Prop where
  position : new.position = old.position
  createdAtMs : new.createdAtMs = old.createdAtMs
  changed : old.lastChangedAtMs ≤ new.lastChangedAtMs
  latest : ∀ ordinal ∈ old.latestContentEventOrdinal,
    ∃ ordinal' ∈ new.latestContentEventOrdinal, ordinal ≤ ordinal'
  kind : new.body.kind = old.body.kind

theorem TranscriptItem.Continues.refl (item : TranscriptItem) : item.Continues item where
  position := rfl
  createdAtMs := rfl
  changed := Int.le_refl _
  latest := fun ordinal hordinal => ⟨ordinal, hordinal, Nat.le_refl _⟩
  kind := rfl

theorem Revises.continues (h : Revises event old new)
    (hold : old.Proper current.appliedEventOrdinal)
    (hordinal : event.ordinal = current.appliedEventOrdinal + 1) : old.Continues new where
  position := h.position
  createdAtMs := h.createdAtMs
  changed := h.changed
  latest := by
    intro ordinal hlatest
    cases h.latest with
    | inl heq =>
      rw [heq]
      exact ⟨ordinal, hlatest, Nat.le_refl _⟩
    | inr hnew =>
    rw [hnew.2]
    have := (hold.latest ordinal hlatest).2
    exact ⟨event.ordinal, rfl, by omega⟩
  kind := h.kind

theorem continues_projectNext (hcurrent : current.WellFormed)
    (h : projectNext codec contentText current event = .ok next)
    (hold : old ∈ current.transcript.items) (hnew : new ∈ next.transcript.items)
    (hid : new.stableId = old.stableId) : old.Continues new := by
  obtain ⟨created, mutation, hprojects⟩ := projects_of_ok hcurrent h
  have hordinal := ordinal_of_valid (valid_of_projectNext h)
  rcases hprojects.footprint.mem_applied hprojects.applied hnew with hcreated | hrevised | hkept
  . have hfree := (hprojects.footprint.applies_iff hcurrent hordinal).mp ⟨_, hprojects.applied⟩
    apply absurd _ (hfree new hcreated)
    rw [hid]
    exact List.mem_map_of_mem hold
  . obtain ⟨old', hold', hrevises⟩ := hrevised
    have heq : old' = old :=
      KeyedList.eq_of_key_eq hold' hold (hrevises.stableId.symm.trans hid)
    rw [← heq]
    exact hrevises.continues (hcurrent old' hold') hordinal
  . rw [KeyedList.eq_of_key_eq hkept hold hid]
    exact .refl old

end Step

section Run

def Chained (codec : RelayCodec) : (ordinal : Nat) → (digest : String) → List RelayEvent → Prop
  | _, _, [] => True
  | ordinal, digest, event :: rest =>
    validateRelayEvent codec ordinal digest event = .ok ()
      ∧ Chained codec event.ordinal event.digest rest

theorem wellFormed_empty (sessionId : String) : (MaterializedSession.empty sessionId).WellFormed :=
  nofun

theorem wellFormed_projectAll {current final : MaterializedSession} (hcurrent : current.WellFormed)
    (h : projectAll codec contentText current events = .ok final) : final.WellFormed := by
  induction events generalizing current with
  | nil =>
    cases h
    exact hcurrent
  | cons event rest ih =>
    unfold projectAll at h
    split at h
    . cases h
    next next hnext => exact ih (wellFormed_projectNext hcurrent hnext) h

theorem cursor_of_projectNext {current next : MaterializedSession} {event : RelayEvent}
    (h : projectNext codec contentText current event = .ok next)
    : next.appliedEventOrdinal = event.ordinal ∧ next.appliedEventDigest = event.digest := by
  unfold projectNext at h
  split at h
  . cases h
  unfold applyCommittedProjectionEvent at h
  split at h
  . cases h
  split at h <;> cases h
  exact ⟨rfl, rfl⟩

theorem projectAll_ok_iff {current : MaterializedSession} (hcurrent : current.WellFormed)
    (hevents : Chained codec current.appliedEventOrdinal current.appliedEventDigest events)
    : (∃ final, projectAll codec contentText current events = .ok final)
        ↔
      ∀ before event after middle, events = before ++ event :: after →
        projectAll codec contentText current before = .ok middle → Projectable middle event := by
  induction events generalizing current with
  | nil =>
    constructor
    . intro _ before event after middle heq
      cases before <;> cases heq
    . intro _
      exact ⟨current, rfl⟩
  | cons head rest ih =>
    obtain ⟨hvalid, hrest⟩ := hevents
    have hstep := @projectNext_ok_iff codec contentText current head hcurrent hvalid
    constructor
    . intro ⟨final, h⟩ before event after middle heq hbefore
      unfold projectAll at h
      split at h
      . cases h
      rename_i next hnext
      cases before with
      | nil =>
        cases heq
        cases hbefore
        exact hstep.mp ⟨next, hnext⟩
      | cons first before =>
      cases heq
      unfold projectAll at hbefore
      rw [hnext] at hbefore
      have hcursor := cursor_of_projectNext hnext
      rw [← hcursor.1, ← hcursor.2] at hrest
      apply (ih (wellFormed_projectNext hcurrent hnext) hrest).mp ⟨final, h⟩
      . rfl
      . exact hbefore
    . intro hall
      obtain ⟨next, hnext⟩ := hstep.mpr (hall [] head rest current rfl rfl)
      have hcursor := cursor_of_projectNext hnext
      rw [← hcursor.1, ← hcursor.2] at hrest
      unfold projectAll
      rw [hnext]
      apply (ih (wellFormed_projectNext hcurrent hnext) hrest).mpr
      intro before event after middle heq hbefore
      apply hall (head :: before) event after middle
      . rw [heq]
        rfl
      unfold projectAll
      rw [hnext]
      exact hbefore

theorem projection_succeeds_iff (codec : RelayCodec) (contentText : List ContentBlock → String)
    (sessionId : String) (events : List RelayEvent)
    (hevents : Chained codec 0 RELAY_EVENT_GENESIS_DIGEST events)
    : ((∃ final, projectAll codec contentText (.empty sessionId) events = .ok final) ↔
      ∀ before event after current, events = before ++ event :: after →
        projectAll codec contentText (.empty sessionId) before = .ok current →
          Projectable current event)
      ∧ ∀ before event after current next, events = before ++ event :: after →
          projectAll codec contentText (.empty sessionId) before = .ok current →
          projectNext codec contentText current event = .ok next →
            (∀ item ∈ next.transcript.items, item.validate event.ordinal = .ok ())
              ∧ ∀ old ∈ current.transcript.items, ∀ new ∈ next.transcript.items,
                  new.stableId = old.stableId → old.Continues new := by
  have hempty := wellFormed_empty sessionId
  refine ⟨projectAll_ok_iff hempty hevents, ?_⟩
  intro before event after current next _ hcurrent hnext
  have hwell := wellFormed_projectAll hempty hcurrent
  constructor
  . intro item hitem
    have hproper := wellFormed_projectNext hwell hnext item hitem
    rw [(cursor_of_projectNext hnext).1] at hproper
    exact hproper.validate
  . intro old hold new hnew hid
    exact continues_projectNext hwell hnext hold hnew hid

def plainEvent (ordinal : Nat) (observation : RelayObservation) : RelayEvent where
  format := RELAY_EVENT_FORMAT_V2
  ordinal := ordinal
  previousDigest := ""
  digest := plainDigest ordinal
  recordedAtMs := 1000 - ordinal
  commandId := none
  observation := observation

def plainChunk (messageId : Option String) : RelayObservation :=
  .sessionUpdate (.agentMessageChunk { content := textBlock "hello", messageId := messageId })

def noText (_ : List ContentBlock) : String := ""

def decidableChained (codec : RelayCodec) : (ordinal : Nat) → (digest : String) →
    (events : List RelayEvent) → Decidable (Chained codec ordinal digest events)
  | _, _, [] => isTrue trivial
  | ordinal, digest, event :: rest =>
    have := decidableChained codec event.ordinal event.digest rest
    inferInstanceAs (Decidable (validateRelayEvent codec ordinal digest event = .ok () ∧ _))

instance (codec : RelayCodec) (ordinal : Nat) (digest : String) (events : List RelayEvent) :
    Decidable (Chained codec ordinal digest events) :=
  decidableChained codec ordinal digest events

def continuedMessage : List RelayEvent :=
  [plainEvent 1 (plainChunk (some "3")), plainEvent 2 (.warning "late"),
    plainEvent 3 (plainChunk (some "3"))]

theorem projection_succeeds_iff_of_continued_message
    : Chained plainCodec 0 RELAY_EVENT_GENESIS_DIGEST continuedMessage
        ∧ ∀ before event after current, continuedMessage = before ++ event :: after →
            projectAll plainCodec noText (.empty "session-1") before = .ok current →
              Projectable current event := by
  have hchained : Chained plainCodec 0 RELAY_EVENT_GENESIS_DIGEST continuedMessage := by
    decide +kernel
  have hok : (projectAll plainCodec noText (.empty "session-1") continuedMessage).isOk := by
    decide +kernel
  refine ⟨hchained, (projection_succeeds_iff plainCodec noText "session-1" _ hchained).1.mp ?_⟩
  cases h : projectAll plainCodec noText (.empty "session-1") continuedMessage with
  | error e =>
    rw [h] at hok
    cases hok
  | ok final => exact ⟨final, rfl⟩

def numberedMessage : List RelayEvent :=
  [plainEvent 1 (plainChunk (some "3")), plainEvent 2 (.warning "late"),
    plainEvent 3 (plainChunk none)]

theorem projection_stops_at_numbered_message
    : Chained plainCodec 0 RELAY_EVENT_GENESIS_DIGEST numberedMessage
        ∧ projectAll plainCodec noText (.empty "session-1") numberedMessage
            = .error "transcript item \"agent:3\" changed immutable identity fields" := by
  decide +kernel

end Run

end Hel
