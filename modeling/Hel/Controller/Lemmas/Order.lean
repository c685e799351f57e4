import Hel.Controller.Projection

/-!
This module contains the order of the messages in a transcript.
-/

namespace Hel

variable {codec : RelayCodec} {contentText : List ContentBlock → String}
  {current next : MaterializedSession} {event : RelayEvent}

def MessageOrder (a b : TranscriptItem) : Prop :=
  a.body.kind = .agent → b.body.kind = .agent → a.position < b.position

def MaterializedSession.MessagesInOrder (session : MaterializedSession) : Prop :=
  session.transcript.items.Pairwise MessageOrder

theorem Footprint.revised {created : Option TranscriptItem} {changes : List TranscriptMutation}
    (h : Footprint current event created changes)
    (hfree : ∀ item, created = some item → item.stableId ∉ current.transcript.keys)
    {item : TranscriptItem} (hitem : item ∈ current.transcript.items)
    : (KeyedList.revised TranscriptItem.stableId (upserts changes) item).position = item.position
        ∧ (KeyedList.revised TranscriptItem.stableId (upserts changes) item).body.kind
            = item.body.kind := by
  by_cases hmem : item.stableId ∈ upsertIds changes
  . have hput := KeyedList.revised_mem hmem
    have hkey : (KeyedList.revised TranscriptItem.stableId (upserts changes) item).stableId
        = item.stableId := KeyedList.key_revised (upserts changes) item
    cases h.upserted _ hput with
    | inl hcreated =>
      apply absurd _ (hfree _ hcreated)
      rw [hkey]
      exact List.mem_map_of_mem hitem
    | inr hrevised =>
    obtain ⟨old, hold, hrevises⟩ := hrevised
    have heq : old = item :=
      KeyedList.eq_of_key_eq hold hitem (hrevises.stableId.symm.trans hkey)
    rw [hrevises.position, hrevises.kind, heq]
    exact ⟨rfl, rfl⟩
  . rw [KeyedList.revised_of_not_mem hmem]
    exact ⟨rfl, rfl⟩

theorem messagesInOrder_projectNext (hcurrent : current.WellFormed)
    (horder : current.MessagesInOrder)
    (h : projectNext codec contentText current event = .ok next) : next.MessagesInOrder := by
  obtain ⟨created, mutation, hprojects⟩ := projects_of_ok hcurrent h
  have hordinal := ordinal_of_valid (valid_of_projectNext h)
  have hfree := (hprojects.footprint.applies_iff hcurrent hordinal).mp ⟨_, hprojects.applied⟩
  have hnew : ∀ item ∈ (upserts mutation.transcript).filter
      (fun a => a.stableId ∉ current.transcript.keys), created = some item := by
    intro item hitem
    rw [List.mem_filter, decide_eq_true_eq] at hitem
    cases hprojects.footprint.upserted item hitem.1 with
    | inl hcreated => exact hcreated
    | inr hrevised =>
    obtain ⟨old, hold, hrevises⟩ := hrevised
    apply absurd _ hitem.2
    rw [hrevises.stableId]
    exact List.mem_map_of_mem hold
  unfold MaterializedSession.MessagesInOrder
  rw [applyTranscriptMutations_eq hprojects.applied,
    KeyedList.items_changeAll hprojects.footprint.changesApart, List.pairwise_append]
  refine ⟨?_, ?_, ?_⟩
  . rw [List.pairwise_map]
    apply (horder.filter _).imp_of_mem
    intro a b ha hb hab
    have hra := hprojects.footprint.revised hfree (List.mem_of_mem_filter ha)
    have hrb := hprojects.footprint.revised hfree (List.mem_of_mem_filter hb)
    unfold upserts at hra hrb
    unfold MessageOrder
    rw [hra.1, hra.2, hrb.1, hrb.2]
    exact hab
  . apply List.Nodup.pairwise_of_forall_ne
    . exact (List.Nodup.of_map _ hprojects.footprint.nodup).filter _
    intro a ha b hb hne
    have := (hnew a ha).symm.trans (hnew b hb)
    exact absurd (Option.some.inj this) hne
  . intro a ha b hb hagent hagent'
    obtain ⟨old, hold, rfl⟩ := List.mem_map.mp ha
    have hmem := List.mem_of_mem_filter hold
    have hr := hprojects.footprint.revised hfree hmem
    unfold upserts at hr
    rw [hr.1]
    have hle := (hcurrent old hmem).le_through
    cases hprojects.creation.position b (hnew b hb) with
    | inl hposition => omega
    | inr htool =>
      rw [htool] at hagent'
      cases hagent'

end Hel
