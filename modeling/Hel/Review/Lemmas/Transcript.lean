import Hel.Controller.Lemmas.Order
import Hel.Review.Impl.Transcript

/-!
This module contains what the transcript that the host keeps of a role is made of.
-/

namespace Hel

open List

variable {codec : RelayCodec} {contentText : List ContentBlock → String}
  {chunksText : List ContentChunk → String} {item : TranscriptItem} {journal' : List RelayEvent}
  {events : List RelayEvent}

theorem isAgent_of_isNonemptyAgentMessage
    (h : item.isNonemptyAgentMessage) : item.body.kind = .agent := by
  unfold TranscriptItem.isNonemptyAgentMessage at h
  split at h
  next hbody =>
    rw [hbody]
    rfl
  next => cases h

section Begun

variable {journal : List RelayEvent} {current next : MaterializedSession} {event : RelayEvent}

structure MaterializedSession.ReadFrom (session : MaterializedSession) (journal : List RelayEvent) :
    Prop where
  wellFormed : session.WellFormed
  inOrder : session.MessagesInOrder
  begun : ∀ item ∈ session.transcript.items, item.body.kind = .agent →
    ∃ event ∈ journal, event.ordinal = item.position

theorem MaterializedSession.ReadFrom.grow (h : current.ReadFrom journal)
    (hjournal : journal ⊆ journal') : current.ReadFrom journal' where
  wellFormed := h.wellFormed
  inOrder := h.inOrder
  begun := by
    intro item hitem hagent
    obtain ⟨event, hevent, hordinal⟩ := h.begun item hitem hagent
    exact ⟨event, hjournal hevent, hordinal⟩

theorem MaterializedSession.ReadFrom.projectNext (h : current.ReadFrom journal)
    (hevent : event ∈ journal) (hnext : projectNext codec contentText current event = .ok next)
    : next.ReadFrom journal where
  wellFormed := wellFormed_projectNext h.wellFormed hnext
  inOrder := messagesInOrder_projectNext h.wellFormed h.inOrder hnext
  begun := by
    intro item hitem hagent
    obtain ⟨created, mutation, hprojects⟩ := projects_of_ok h.wellFormed hnext
    rcases hprojects.footprint.mem_applied hprojects.applied hitem with hcreated | hrevised | hkept
    . cases hprojects.creation.position item hcreated with
      | inl hposition => exact ⟨event, hevent, hposition.symm⟩
      | inr htool =>
        rw [htool] at hagent
        cases hagent
    . obtain ⟨old, hold, hrevises⟩ := hrevised
      rw [hrevises.position]
      rw [hrevises.kind] at hagent
      exact h.begun old hold hagent
    . exact h.begun item hkept hagent

end Begun

namespace RoleTranscript

variable {journal : List RelayEvent} {transcript : RoleTranscript}

def ReadFrom (transcript : RoleTranscript) (journal : List RelayEvent) : Prop :=
  ∀ session, transcript.session = some session → session.ReadFrom journal

theorem ReadFrom.grow (h : transcript.ReadFrom journal)
    (hjournal : journal ⊆ journal') : transcript.ReadFrom journal' :=
  fun session hsession => (h session hsession).grow hjournal

theorem readFrom_applyEvents {session : MaterializedSession} (h : session.ReadFrom journal)
    (hevents : events ⊆ journal)
    : (applyEvents codec contentText session transcript events).ReadFrom journal := by
  induction events generalizing session transcript with
  | nil =>
    intro session' heq
    unfold applyEvents at heq
    cases heq
    exact h
  | cons event rest ih =>
    rw [cons_subset] at hevents
    unfold applyEvents
    split
    . exact ih h hevents.2
    next next hnext => exact ih (h.projectNext hevents.1 hnext) hevents.2

theorem ReadFrom.apply (h : transcript.ReadFrom journal) (sessionId : String)
    (hevents : events ⊆ journal)
    : (transcript.apply codec contentText sessionId events).ReadFrom journal := by
  apply readFrom_applyEvents _ hevents
  cases hsession : transcript.session with
  | none => exact ⟨wellFormed_empty sessionId, .nil, nofun⟩
  | some session => exact h session hsession

def messages (transcript : RoleTranscript) : List TranscriptItem :=
  match transcript.session with
  | none => []
  | some session => session.transcript.items.filter TranscriptItem.isNonemptyAgentMessage

theorem mem_messages_of_latest (h : transcript.latestMessage = some item)
    : item ∈ transcript.messages := by
  unfold latestMessage at h
  split at h
  . cases h
  rename_i session hsession
  unfold messages
  rw [hsession]
  dsimp only
  rw [mem_filter]
  exact ⟨mem_reverse.mp (mem_of_find?_eq_some h), find?_some h⟩

theorem ReadFrom.latest (h : transcript.ReadFrom journal)
    (hitem : transcript.latestMessage = some item)
    : (∃ event ∈ journal, event.ordinal = item.position)
        ∧ ∀ other ∈ transcript.messages, other.position ≤ item.position := by
  unfold latestMessage at hitem
  split at hitem
  . cases hitem
  rename_i session hsession
  have hread := h session hsession
  have hagent := isAgent_of_isNonemptyAgentMessage (find?_some hitem)
  have hmem := mem_reverse.mp (mem_of_find?_eq_some hitem)
  refine ⟨hread.begun item hmem hagent, ?_⟩
  intro other hother
  unfold messages at hother
  rw [hsession] at hother
  dsimp only at hother
  rw [mem_filter] at hother
  obtain ⟨_, after, before, hsplit, hnone⟩ := find?_eq_some_iff_append.mp hitem
  rw [reverse_eq_iff, reverse_append, reverse_cons, append_assoc,
    singleton_append] at hsplit
  have horder := hread.inOrder
  unfold MaterializedSession.MessagesInOrder at horder
  rw [hsplit, pairwise_append] at horder
  rw [hsplit, mem_append, mem_cons, mem_reverse, mem_reverse] at hother
  rcases hother with ⟨hbefore | heq | hafter, hmessage⟩
  . have hlt := horder.2.2 other (mem_reverse.mpr hbefore) item mem_cons_self
      (isAgent_of_isNonemptyAgentMessage hmessage) hagent
    omega
  . rw [heq]
  . have hnot := hnone other hafter
    rw [hmessage] at hnot
    cases hnot

theorem latestAnswer_eq_some {answer : String} (h : transcript.latestAnswer chunksText = some answer)
    : ∃ item chunks streaming, transcript.latestMessage = some item
        ∧ item.body = .agent chunks streaming ∧ answer = chunksText chunks := by
  unfold latestAnswer at h
  split at h
  . cases h
  rename_i item hitem
  split at h
  next chunks streaming hbody =>
    dsimp only at h
    split at h <;> cases h
    exact ⟨item, chunks, streaming, hitem, hbody, rfl⟩
  next => cases h

end RoleTranscript

end Hel
