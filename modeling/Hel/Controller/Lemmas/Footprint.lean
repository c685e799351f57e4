import Hel.Controller.Lemmas.Transcript

/-!
This module contains what the mutation of one event may do to a transcript, and that such a mutation
can be applied exactly if the item it creates is new.
-/

namespace Hel

open KeyedList MaterializedSessionMutation List

variable {changes : List TranscriptMutation} {current : MaterializedSession} {event : RelayEvent}
  {created : Option TranscriptItem} {item : TranscriptItem} {old new : TranscriptItem}
  {ordinal : Nat} {transcript : Transcript}

section Changes

def TranscriptMutation.change : TranscriptMutation → KeyedList.Change String TranscriptItem
  | .upsert item => .put item
  | .remove stableId => .erase stableId

def upserts (changes : List TranscriptMutation) : List TranscriptItem :=
  KeyedList.Change.puts (changes.map TranscriptMutation.change)

def removals (changes : List TranscriptMutation) : List String :=
  KeyedList.Change.erasures (changes.map TranscriptMutation.change)

def upsertIds (changes : List TranscriptMutation) : List String :=
  (upserts changes).map TranscriptItem.stableId

def Touched (changes : List TranscriptMutation) (stableId : String) : Prop :=
  stableId ∈ upsertIds changes ∨ stableId ∈ removals changes

@[simp]
theorem upserts_upsert (item : TranscriptItem) (rest : List TranscriptMutation)
    : upserts (.upsert item :: rest) = item :: upserts rest := rfl

@[simp]
theorem upserts_remove (stableId : String) (rest : List TranscriptMutation)
    : upserts (.remove stableId :: rest) = upserts rest := rfl

@[simp]
theorem removals_upsert (item : TranscriptItem) (rest : List TranscriptMutation)
    : removals (.upsert item :: rest) = removals rest := rfl

@[simp]
theorem removals_remove (stableId : String) (rest : List TranscriptMutation)
    : removals (.remove stableId :: rest) = stableId :: removals rest := rfl

theorem upserts_concat_remove (changes : List TranscriptMutation) (stableId : String)
    : upserts (changes ++ [.remove stableId]) = upserts changes := by
  simp [upserts, Change.puts, TranscriptMutation.change]

theorem removals_concat_remove (changes : List TranscriptMutation) (stableId : String)
    : removals (changes ++ [.remove stableId]) = removals changes ++ [stableId] := by
  simp [removals, Change.erasures, TranscriptMutation.change]

theorem removals_upsertInto (item : TranscriptItem) (changes : List TranscriptMutation)
    : removals (upsertInto item changes) = removals changes := by
  induction changes with
  | nil => rfl
  | cons change rest ih =>
    cases change with unfold upsertInto
    | upsert current =>
      split
      . rfl
      . rw [removals_upsert, ih, removals_upsert]
    | remove stableId => rw [removals_remove, ih, removals_remove]

theorem upserts_upsertInto (h : item.stableId ∉ upsertIds changes)
    : upserts (upsertInto item changes) = upserts changes ++ [item] := by
  unfold upsertIds at h
  induction changes with
  | nil => rfl
  | cons change rest ih =>
    unfold upsertInto
    cases change with
    | upsert current =>
      rw [upserts_upsert, map_cons, mem_cons, not_or] at h
      dsimp only
      rw [if_neg (fun heq => h.1 heq.symm), upserts_upsert, ih h.2, upserts_upsert,
        cons_append]
    | remove stableId =>
      rw [upserts_remove] at h ⊢
      exact ih h

theorem upsertIds_upsertInto (h : item.stableId ∉ upsertIds changes)
    : upsertIds (upsertInto item changes) = upsertIds changes ++ [item.stableId] := by
  unfold upsertIds
  rw [upserts_upsertInto h, map_append]
  rfl

theorem touched_upsertInto {stableId : String} (hfresh : ¬Touched changes item.stableId)
    (h : Touched (upsertInto item changes) stableId)
    : stableId = item.stableId ∨ Touched changes stableId := by
  unfold Touched at h ⊢
  rw [removals_upsertInto, upsertIds_upsertInto (mt Or.inl hfresh), mem_append,
    mem_singleton] at h
  tauto

theorem touched_remove {removed stableId : String}
    (h : Touched (changes ++ [.remove removed]) stableId)
    : stableId = removed ∨ Touched changes stableId := by
  unfold Touched upsertIds at h ⊢
  rw [upserts_concat_remove, removals_concat_remove, mem_append, mem_singleton] at h
  tauto

end Changes

section Footprint

structure Revises (event : RelayEvent) (old new : TranscriptItem) : Prop where
  stableId : new.stableId = old.stableId
  position : new.position = old.position
  createdAtMs : new.createdAtMs = old.createdAtMs
  changed : old.lastChangedAtMs ≤ new.lastChangedAtMs
  latest : new.latestContentEventOrdinal = old.latestContentEventOrdinal
    ∨ new.body.kind = .agent ∧ new.latestContentEventOrdinal = some event.ordinal
  kind : new.body.kind = old.body.kind

-- How an event may create an item. An item that takes over the place of another is new.
structure Creates (current : MaterializedSession) (event : RelayEvent) (item : TranscriptItem) :
    Prop where
  proper : item.Proper event.ordinal
  place : item.position = event.ordinal ∨ item.stableId ∉ current.transcript.keys

-- What may be removed: output that waits for a tool, and tools that the worker made up.
def TranscriptItem.Disposable (item : TranscriptItem) : Prop :=
  item.body.kind = .terminalOutput ∨ item.isFallbackTool

structure Footprint (current : MaterializedSession) (event : RelayEvent)
    (created : Option TranscriptItem) (changes : List TranscriptMutation) : Prop where
  nodup : (upsertIds changes).Nodup
  apart : ∀ stableId ∈ removals changes, stableId ∉ upsertIds changes
  upserted : ∀ item ∈ upserts changes,
    created = some item ∨ ∃ old ∈ current.transcript.items, Revises event old item
  created : ∀ item, created = some item → item ∈ upserts changes ∧ Creates current event item
  removed : ∀ stableId ∈ removals changes,
    ∃ item ∈ current.transcript.items, item.stableId = stableId ∧ item.Disposable

namespace Footprint

theorem nil : Footprint current event none [] where
  nodup := nodup_nil
  apart := nofun
  upserted := nofun
  created := nofun
  removed := nofun

theorem upsert {created' : Option TranscriptItem} (h : Footprint current event created changes)
    (hfresh : ¬Touched changes item.stableId) (hitem : created' = some item
      ∨ ∃ old ∈ current.transcript.items, Revises event old item)
    (hkept : ∀ other, created = some other → created' = some other)
    (hcreated : ∀ other, created' = some other →
      (other ∈ upserts changes ∨ other = item) ∧ Creates current event other)
    : Footprint current event created' (upsertInto item changes) where
  nodup := by
    have hnew : item.stableId ∉ upsertIds changes := mt Or.inl hfresh
    rw [upsertIds_upsertInto hnew, ← concat_eq_append]
    apply h.nodup.concat hnew
  apart := by
    intro stableId hmem
    rw [removals_upsertInto] at hmem
    rw [upsertIds_upsertInto (mt Or.inl hfresh), mem_append, mem_singleton]
    rintro (hids | rfl)
    . exact h.apart stableId hmem hids
    . exact hfresh (Or.inr hmem)
  upserted := by
    rw [upserts_upsertInto (mt Or.inl hfresh), forall_mem_append, forall_mem_singleton]
    refine ⟨?_, hitem⟩
    intro other hother
    exact (h.upserted other hother).imp_left (hkept other)
  created := by
    rw [upserts_upsertInto (mt Or.inl hfresh)]
    simp only [mem_append, mem_singleton]
    exact hcreated
  removed := by
    rw [removals_upsertInto]
    exact h.removed

theorem revise (h : Footprint current event created changes) (hold : old ∈ current.transcript.items)
    (hrevises : Revises event old new) (hfresh : ¬Touched changes new.stableId)
    : Footprint current event created (upsertInto new changes) := by
  apply h.upsert hfresh (Or.inr ⟨old, hold, hrevises⟩) (fun _ => id)
  intro other hother
  exact (h.created other hother).imp_left Or.inl

theorem create (h : Footprint current event none changes) (hcreates : Creates current event item)
    (hfresh : ¬Touched changes item.stableId)
    : Footprint current event (some item) (upsertInto item changes) := by
  apply h.upsert hfresh (Or.inl rfl) nofun
  intro other hother
  cases hother
  exact ⟨Or.inr rfl, hcreates⟩

theorem discard (h : Footprint current event created changes)
    (hitem : item ∈ current.transcript.items) (hdisposable : item.Disposable)
    (hfresh : item.stableId ∉ upsertIds changes)
    : Footprint current event created (changes ++ [.remove item.stableId]) where
  nodup := by
    unfold upsertIds
    rw [upserts_concat_remove]
    exact h.nodup
  apart := by
    intro stableId hmem
    unfold upsertIds
    rw [upserts_concat_remove]
    rw [removals_concat_remove, mem_append, mem_singleton] at hmem
    rcases hmem with hmem | rfl
    . exact h.apart stableId hmem
    . exact hfresh
  upserted := by
    rw [upserts_concat_remove]
    exact h.upserted
  created := by
    rw [upserts_concat_remove]
    exact h.created
  removed := by
    rw [removals_concat_remove, forall_mem_append, forall_mem_singleton]
    exact ⟨h.removed, item, hitem, rfl, hdisposable⟩

end Footprint

inductive Touches (event : RelayEvent) (item : TranscriptItem) :
    List TranscriptMutation → List TranscriptMutation → Prop where
  | keep (changes : List TranscriptMutation) : Touches event item changes changes
  | revise (changes : List TranscriptMutation) (new : TranscriptItem) :
      Revises event item new →
        Touches event item changes (upsertInto new changes)
  | discard (changes : List TranscriptMutation) :
      item.Disposable → Touches event item changes (changes ++ [.remove item.stableId])

variable {created : Option TranscriptItem}

theorem Footprint.touches
    {changes changes' : List TranscriptMutation} (h : Footprint current event created changes)
    (hitem : item ∈ current.transcript.items) (hfresh : ¬Touched changes item.stableId)
    (htouches : Touches event item changes changes')
    : Footprint current event created changes'
        ∧ ∀ stableId, Touched changes' stableId →
            stableId = item.stableId ∨ Touched changes stableId := by
  cases htouches with
  | keep => exact ⟨h, fun _ => Or.inr⟩
  | revise new hrevises =>
    rw [← hrevises.stableId] at hfresh ⊢
    exact ⟨h.revise hitem hrevises hfresh, fun _ => touched_upsertInto hfresh⟩
  | discard hdisposable =>
    exact ⟨h.discard hitem hdisposable (mt Or.inl hfresh), fun _ => touched_remove⟩

theorem Footprint.foldl
    {step : MaterializedSessionMutation → TranscriptItem → MaterializedSessionMutation}
    {items : List TranscriptItem} {mutation : MaterializedSessionMutation}
    (h : Footprint current event created mutation.transcript)
    (hnodup : (items.map TranscriptItem.stableId).Nodup)
    (hitems : ∀ item ∈ items, item ∈ current.transcript.items)
    (hfresh : ∀ item ∈ items, ¬Touched mutation.transcript item.stableId)
    (hstep : ∀ mutation, ∀ item ∈ items,
      Touches event item mutation.transcript (step mutation item).transcript)
    : Footprint current event created (items.foldl step mutation).transcript
        ∧ ∀ stableId, Touched (items.foldl step mutation).transcript stableId →
            stableId ∈ items.map TranscriptItem.stableId
              ∨ Touched mutation.transcript stableId := by
  induction items generalizing mutation with
  | nil => exact ⟨h, fun _ => Or.inr⟩
  | cons item rest ih =>
    rw [map_cons, nodup_cons] at hnodup
    have hhead := h.touches (hitems item mem_cons_self) (hfresh item mem_cons_self)
      (hstep mutation item mem_cons_self)
    have hrest := @ih (step mutation item) hhead.1 hnodup.2
      (fun other hother => hitems other (mem_cons_of_mem _ hother))
      (by
        intro other hother htouched
        cases hhead.2 _ htouched with
        | inl heq =>
          apply hnodup.1
          rw [← heq]
          exact mem_map_of_mem hother
        | inr htouched => exact hfresh other (mem_cons_of_mem _ hother) htouched)
      (fun mutation other hother => hstep mutation other (mem_cons_of_mem _ hother))
    rw [foldl_cons]
    refine ⟨hrest.1, ?_⟩
    intro stableId htouched
    rw [map_cons, mem_cons]
    rcases hrest.2 stableId htouched with hmem | htouched
    . exact Or.inl (Or.inr hmem)
    . exact (hhead.2 stableId htouched).imp_left Or.inl

end Footprint

section Apply

def Accepts (ordinal : Nat) (transcript : Transcript) (item : TranscriptItem) : Prop :=
  item.validate ordinal = .ok ()
    ∧ ∀ old, transcript.get? item.stableId = some old → ensureRevision old item = .ok ()

theorem applyTranscriptMutation_upsert (h : Accepts ordinal transcript item)
    : applyTranscriptMutation ordinal transcript (.upsert item) = .ok (transcript.put item) := by
  unfold applyTranscriptMutation
  dsimp only
  rw [h.1]
  dsimp only
  cases hget : transcript.get? item.stableId with
  | none => rfl
  | some old =>
    dsimp only
    rw [h.2 old hget]

theorem accepts_of_apply {transcript transcript' : Transcript}
    (h : applyTranscriptMutation ordinal transcript (.upsert item) = .ok transcript')
    : Accepts ordinal transcript item := by
  unfold applyTranscriptMutation at h
  dsimp only at h
  split at h
  . cases h
  rename_i hvalidate
  refine ⟨hvalidate, ?_⟩
  intro old hget
  rw [hget] at h
  dsimp only at h
  split at h
  . cases h
  next hrevision => exact hrevision

theorem applyTranscriptMutation_eq {transcript transcript' : Transcript}
    {change : TranscriptMutation}
    (h : applyTranscriptMutation ordinal transcript change = .ok transcript')
    : transcript' = transcript.change change.change := by
  cases change with
  | upsert item =>
    rw [applyTranscriptMutation_upsert (accepts_of_apply h), Except.ok.injEq] at h
    exact h.symm
  | remove stableId =>
  unfold applyTranscriptMutation at h
  rw [Except.ok.injEq] at h
  exact h.symm

theorem applyTranscriptMutations_eq {transcript transcript' : Transcript}
    (h : applyTranscriptMutations ordinal transcript changes = .ok transcript')
    : transcript' = transcript.changeAll (changes.map TranscriptMutation.change) := by
  induction changes generalizing transcript with
  | nil =>
    unfold applyTranscriptMutations at h
    rw [Except.ok.injEq] at h
    exact h.symm
  | cons change rest ih =>
    unfold applyTranscriptMutations at h
    split at h
    . cases h
    rename_i middle hmiddle
    rw [ih h, applyTranscriptMutation_eq hmiddle]
    rfl

theorem applyTranscriptMutations_ok_iff
    (h : Change.Apart TranscriptItem.stableId (changes.map TranscriptMutation.change))
    : (∃ transcript', applyTranscriptMutations ordinal transcript changes = .ok transcript')
        ↔
      ∀ item ∈ upserts changes, Accepts ordinal transcript item := by
  induction changes generalizing transcript with
  | nil => exact ⟨fun _ => nofun, fun _ => ⟨transcript, rfl⟩⟩
  | cons change rest ih =>
    rw [map_cons] at h
    cases change with
    | upsert item =>
      obtain ⟨hputs, _⟩ := h.head_put
      have hsame : ∀ other ∈ upserts rest,
          (Accepts ordinal (transcript.put item) other ↔ Accepts ordinal transcript other) := by
        intro other hother
        have hne : other.stableId ≠ item.stableId :=
          ne_of_mem_of_not_mem (mem_map_of_mem hother) hputs
        unfold Accepts
        rw [get?_put, if_neg hne]
      have hrest := @ih (transcript.put item) h.of_cons
      rw [forall₂_congr hsame] at hrest
      rw [upserts_upsert, forall_mem_cons]
      constructor
      . intro ⟨transcript', hall⟩
        unfold applyTranscriptMutations at hall
        split at hall
        . cases hall
        rename_i middle hmiddle
        rw [applyTranscriptMutation_eq hmiddle] at hall
        exact ⟨accepts_of_apply hmiddle, hrest.mp ⟨transcript', hall⟩⟩
      . intro ⟨hitem, hothers⟩
        obtain ⟨transcript', hall⟩ := hrest.mpr hothers
        refine ⟨transcript', ?_⟩
        unfold applyTranscriptMutations
        rw [applyTranscriptMutation_upsert hitem]
        exact hall
    | remove stableId =>
      have hputs := h.head_erase
      have hsame : ∀ other ∈ upserts rest,
          (Accepts ordinal (transcript.erase stableId) other
            ↔ Accepts ordinal transcript other) := by
        intro other hother
        have hne : other.stableId ≠ stableId :=
          ne_of_mem_of_not_mem (mem_map_of_mem hother) hputs
        unfold Accepts
        rw [get?_erase, if_neg hne]
      rw [upserts_remove]
      show (∃ transcript', applyTranscriptMutations ordinal (transcript.erase stableId) rest
        = .ok transcript') ↔ _
      rw [@ih (transcript.erase stableId) h.of_cons]
      exact forall₂_congr hsame

end Apply

section WellFormed

def MaterializedSession.WellFormed (session : MaterializedSession) : Prop :=
  ∀ item ∈ session.transcript.items, item.Proper session.appliedEventOrdinal

theorem Revises.proper (h : Revises event old new) (hold : old.Proper current.appliedEventOrdinal)
    (hnext : event.ordinal = current.appliedEventOrdinal + 1) : new.Proper event.ordinal := by
  have hmono : old.Proper event.ordinal := hold.mono (by omega)
  have hagent : new.body.isAgent = old.body.isAgent := by
    rw [isAgent_eq, isAgent_eq, h.kind]
  constructor
  case named =>
    rw [h.stableId, h.kind]
    exact hmono.named
  case numbered =>
    rw [h.stableId]
    exact hmono.numbered
  case positive =>
    rw [h.position]
    exact hmono.positive
  case le_through =>
    rw [h.position]
    exact hmono.le_through
  case content =>
    cases h.latest with
    | inl heq =>
      rw [heq, hagent]
      exact hmono.content
    | inr hlatest =>
      rw [hlatest.2, isAgent_eq, hlatest.1]
      rfl
  case latest =>
    rw [h.position]
    cases h.latest with
    | inl heq =>
      rw [heq]
      exact hmono.latest
    | inr hlatest =>
    rw [hlatest.2]
    intro ordinal hordinal
    cases hordinal
    exact ⟨hmono.le_through, Nat.le_refl _⟩
  case changed =>
    rw [h.createdAtMs]
    exact le_trans hmono.changed h.changed

theorem Revises.ensureRevision (h : Revises event old new)
    (hold : old.Proper current.appliedEventOrdinal)
    (hnext : event.ordinal = current.appliedEventOrdinal + 1)
    : ensureRevision old new = .ok () := by
  unfold Hel.ensureRevision
  have hidentity : ¬(old.position ≠ new.position ∨ old.createdAtMs ≠ new.createdAtMs) := by
    rw [h.position, h.createdAtMs]
    simp
  have hchanged : ¬new.lastChangedAtMs < old.lastChangedAtMs := not_lt.mpr h.changed
  simp only [hidentity, hchanged, if_false]
  cases hlatest : old.latestContentEventOrdinal with
  | none => rfl
  | some ordinal =>
  have hle := (hold.latest ordinal hlatest).2
  cases h.latest with
  | inl heq =>
    rw [heq, hlatest]
    simp
  | inr hnew =>
  rw [hnew.2]
  have : ¬event.ordinal < ordinal := by omega
  simp only [this, if_false]

namespace Footprint

variable (h : Footprint current event created changes)

include h

theorem changesApart
    : Change.Apart TranscriptItem.stableId (changes.map TranscriptMutation.change) where
  nodup := h.nodup
  disjoint := h.apart

theorem applies_iff (hcurrent : current.WellFormed)
    (hnext : event.ordinal = current.appliedEventOrdinal + 1)
    : (∃ transcript,
        applyTranscriptMutations event.ordinal current.transcript changes = .ok transcript)
        ↔
      ∀ item, created = some item → item.stableId ∉ current.transcript.keys := by
  rw [applyTranscriptMutations_ok_iff h.changesApart]
  constructor
  . intro haccepts item hitem hmem
    obtain ⟨hupsert, hcreates⟩ := h.created item hitem
    cases hcreates.place with
    | inr hfresh => exact hfresh hmem
    | inl hposition =>
    obtain ⟨old, hget⟩ := mem_keys_iff.mp hmem
    have hold := (hcurrent old (get?_eq_some.mp hget).1).le_through
    have hrevision := (haccepts item hupsert).2 old hget
    unfold Hel.ensureRevision at hrevision
    rw [if_pos (Or.inl (by omega))] at hrevision
    cases hrevision
  intro hfresh item hitem
  cases h.upserted item hitem with
  | inl hcreated =>
    refine ⟨(h.created item hcreated).2.proper.validate, ?_⟩
    intro old hget
    exact absurd (mem_keys_iff.mpr ⟨old, hget⟩) (hfresh item hcreated)
  | inr hrevised =>
  obtain ⟨old, hold, hrevises⟩ := hrevised
  refine ⟨(hrevises.proper (hcurrent old hold) hnext).validate, ?_⟩
  intro old' hget
  obtain ⟨hmem, hkey⟩ := get?_eq_some.mp hget
  have heq : old' = old := eq_of_key_eq hmem hold (hkey.trans hrevises.stableId)
  rw [heq]
  exact hrevises.ensureRevision (hcurrent old hold) hnext

theorem mem_applied
    (happly : applyTranscriptMutations event.ordinal current.transcript changes = .ok transcript)
    (hitem : item ∈ transcript.items)
    : created = some item
        ∨ (∃ old ∈ current.transcript.items, Revises event old item)
        ∨ item ∈ current.transcript.items := by
  rw [applyTranscriptMutations_eq happly, mem_changeAll h.changesApart] at hitem
  rcases hitem with hput | hold
  . exact (h.upserted item hput).imp_right Or.inl
  . exact Or.inr (Or.inr hold.1)

theorem proper_applied (hcurrent : current.WellFormed)
    (hnext : event.ordinal = current.appliedEventOrdinal + 1)
    (happly : applyTranscriptMutations event.ordinal current.transcript changes = .ok transcript)
    : ∀ item ∈ transcript.items, item.Proper event.ordinal := by
  intro item hitem
  rcases h.mem_applied happly hitem with hcreated | ⟨old, hold, hrevises⟩ | hold
  . exact (h.created item hcreated).2.proper
  . exact hrevises.proper (hcurrent old hold) hnext
  . exact (hcurrent item hold).mono (by omega)

end Footprint

end WellFormed

end Hel
