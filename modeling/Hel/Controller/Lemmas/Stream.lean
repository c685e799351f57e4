import Hel.Controller.Lemmas.Footprint

/-!
This module contains the footprint of the simple changes of a transcript.
-/

namespace Hel

variable {current : MaterializedSession} {event : RelayEvent}
variable {stableId : String} {body : TranscriptBody} {agent : Bool} {item : TranscriptItem}
  {mutation : MaterializedSessionMutation} {chunk : ContentChunk} {streaming : Option Bool}
  {old : TranscriptItem} {kind : ItemKind} {atMs : Int}

section Items

theorem creates_newItemAt (hpositive : 0 < event.ordinal)
    (hnamed : ItemKind.ofId stableId = some body.kind)
    (hnumbered : ∀ n, event.ordinal < n → stableId ∉ numberedIds n) (hagent : body.isAgent = false)
    : Creates current event (event.newItemAt stableId atMs body) where
  proper :=
    { named := hnamed
      numbered := hnumbered
      positive := hpositive
      le_through := Nat.le_refl _
      content := hagent.symm
      latest := nofun
      changed := Int.le_refl _ }
  place := Or.inl rfl

theorem numbered_self (h : stableId ∈ numberedIds event.ordinal)
    : ∀ n, event.ordinal < n → stableId ∉ numberedIds n := by
  intro n hlt hmem
  have := number_unique h hmem
  omega

theorem numbered_of_ofId (h : ItemKind.ofId stableId = some kind) (hplan : kind ≠ .plan)
    (hproposal : kind ≠ .planProposal) (hsystem : kind ≠ .system)
    : ∀ n, event.ordinal < n → stableId ∉ numberedIds n := by
  intro n _ hmem
  have hkinds := ofId_of_mem_numberedIds hmem
  rw [h, Option.some.injEq, Option.some.injEq, Option.some.injEq] at hkinds
  rcases hkinds with hkind | hkind | hkind
  . exact hplan hkind
  . exact hproposal hkind
  . exact hsystem hkind

theorem fresh_of_numbered (hcurrent : current.WellFormed)
    (hnext : event.ordinal = current.appliedEventOrdinal + 1)
    (h : stableId ∈ numberedIds event.ordinal) : stableId ∉ current.transcript.keys := by
  intro hmem
  obtain ⟨item, hitem, heq⟩ := List.mem_map.mp hmem
  apply (hcurrent item hitem).numbered event.ordinal (by omega)
  rw [heq]
  exact h

theorem revises_revised (hkind : body.kind = old.body.kind)
    : Revises event old (old.revised atMs body) where
  stableId := rfl
  position := rfl
  createdAtMs := rfl
  changed := Int.le_max_left _ _
  latest := Or.inl rfl
  kind := hkind

end Items

section Streams

def streamKind (agent : Bool) : ItemKind :=
  if agent then .agent else .thought

theorem mem_openStreams {transcript : Transcript}
    : item ∈ transcript.openStreams agent
        ↔ item ∈ transcript.items ∧ item.body.streaming ∧ item.body.isAgent = agent := by
  unfold Transcript.openStreams
  rw [List.mem_insertionSort, List.mem_filter, Bool.and_eq_true, decide_eq_true_eq]

theorem nodup_openStreams (transcript : Transcript) (agent : Bool)
    : ((transcript.openStreams agent).map TranscriptItem.stableId).Nodup := by
  unfold Transcript.openStreams
  rw [((List.perm_insertionSort _ _).map _).nodup_iff]
  exact transcript.nodup.sublist (List.filter_sublist.map _)

theorem kind_of_streaming (h : body.streaming)
    (hagent : body.isAgent = agent) : body.kind = streamKind agent := by
  subst hagent
  cases body with
  | agent | thought => rfl
  | _ => cases h

theorem kind_closed (body : TranscriptBody) : body.closed.kind = body.kind := by
  cases body <;> rfl

theorem closeStreamKind_footprint {created : Option TranscriptItem}
    (h : Footprint current event created mutation.transcript)
    (hfresh : ∀ item ∈ current.transcript.openStreams agent,
      ¬Touched mutation.transcript item.stableId)
    : Footprint current event created
          (mutation.closeStreamKind current.transcript agent event.recordedAtMs).transcript
        ∧ ∀ stableId,
            Touched (mutation.closeStreamKind current.transcript agent event.recordedAtMs).transcript
                stableId →
              stableId ∈ (current.transcript.openStreams agent).map TranscriptItem.stableId
                ∨ Touched mutation.transcript stableId := by
  unfold MaterializedSessionMutation.closeStreamKind
  apply h.foldl (nodup_openStreams _ _) (fun item hitem => (mem_openStreams.mp hitem).1) hfresh
  intro mutation item hitem
  apply Touches.revise
  apply revises_revised (kind_closed _)

structure Closing (current : MaterializedSession) (event : RelayEvent) (kinds : List ItemKind)
    (changes : List TranscriptMutation) : Prop where
  footprint : Footprint current event none changes
  kinds : ∀ stableId, Touched changes stableId → ∃ kind ∈ kinds, ItemKind.ofId stableId = some kind

namespace Closing

variable {kinds : List ItemKind} {changes : List TranscriptMutation}

theorem nil : Closing current event [] [] where
  footprint := .nil
  kinds := by
    intro stableId h
    cases h with
    | inl h | inr h => cases h

theorem fresh (h : Closing current event kinds changes) (hkind : ItemKind.ofId stableId = some kind)
    (hnot : kind ∉ kinds) : ¬Touched changes stableId := by
  intro htouched
  obtain ⟨kind', hmem, hkind'⟩ := h.kinds stableId htouched
  cases hkind.symm.trans hkind'
  exact hnot hmem

theorem closeStreamKind (h : Closing current event kinds mutation.transcript)
    (hcurrent : current.WellFormed) (agent : Bool) (hnot : streamKind agent ∉ kinds)
    : Closing current event (streamKind agent :: kinds)
        (mutation.closeStreamKind current.transcript agent event.recordedAtMs).transcript := by
  have hkind : ∀ item ∈ current.transcript.openStreams agent,
      ItemKind.ofId item.stableId = some (streamKind agent) := by
    intro item hitem
    obtain ⟨hmem, hstreaming, hagent⟩ := mem_openStreams.mp hitem
    rw [(hcurrent item hmem).named, kind_of_streaming hstreaming hagent]
  have hclose := closeStreamKind_footprint h.footprint
    (fun item hitem => h.fresh (hkind item hitem) hnot)
  refine ⟨hclose.1, ?_⟩
  intro stableId htouched
  cases hclose.2 stableId htouched with
  | inl hmem =>
    obtain ⟨item, hitem, heq⟩ := List.mem_map.mp hmem
    rw [← heq]
    exact ⟨_, List.mem_cons_self, hkind item hitem⟩
  | inr htouched =>
    obtain ⟨kind, hmem, heq⟩ := h.kinds stableId htouched
    exact ⟨kind, List.mem_cons_of_mem _ hmem, heq⟩

theorem closeStreams (hempty : mutation.transcript = []) (hcurrent : current.WellFormed)
    : Closing current event [.thought, .agent]
        (mutation.closeStreams current.transcript event.recordedAtMs).transcript := by
  unfold MaterializedSessionMutation.closeStreams
  have hstart : Closing current event [] mutation.transcript := by
    rw [hempty]
    exact .nil
  have hagent := hstart.closeStreamKind hcurrent true (by simp)
  exact hagent.closeStreamKind hcurrent false (by decide)

theorem of_empty (hempty : mutation.transcript = [])
    : Closing current event kinds mutation.transcript := by
  rw [hempty]
  refine ⟨.nil, ?_⟩
  intro stableId h
  cases h with
  | inl h | inr h => cases h

end Closing

end Streams

section Chunks

theorem pushChunk_some {body body' : TranscriptBody}
    (h : body.pushChunk agent streaming chunk = some body')
    : body.kind = streamKind agent ∧ body'.kind = streamKind agent := by
  cases body with
  | agent chunks old =>
    cases agent with
    | true =>
      cases h
      exact ⟨rfl, rfl⟩
    | false => cases h
  | thought chunks old =>
    cases agent with
    | true => cases h
    | false =>
      cases h
      exact ⟨rfl, rfl⟩
  | _ => cases h

theorem pushChunk_of_kind (streaming : Option Bool) (chunk : ContentChunk)
    (h : body.kind = streamKind agent)
    : ∃ body', body.pushChunk agent streaming chunk = some body' := by
  cases agent with
  | true =>
    cases body with
    | agent chunks old => exact ⟨_, rfl⟩
    | _ => cases h
  | false =>
    cases body with
    | thought chunks old => exact ⟨_, rfl⟩
    | _ => cases h

theorem streamTarget_some (hcurrent : current.WellFormed)
    (h : streamTarget current.transcript agent chunk = some item)
    : item ∈ current.transcript.items ∧ item.body.kind = streamKind agent := by
  unfold streamTarget at h
  split at h
  next id _ =>
    obtain ⟨hmem, heq⟩ := KeyedList.get?_eq_some.mp h
    refine ⟨hmem, ?_⟩
    have hnamed := (hcurrent item hmem).named
    rw [heq, ofId_stream, Option.some.injEq] at hnamed
    exact hnamed.symm
  next =>
    have hopen := List.mem_of_getLast? h
    obtain ⟨hmem, hstreaming, hagent⟩ := mem_openStreams.mp hopen
    exact ⟨hmem, kind_of_streaming hstreaming hagent⟩

theorem trailingTarget_some {agent running : Bool}
    (h : trailingTarget current.transcript agent running chunk = some item)
    : item ∈ current.transcript.items
        ∧ ∃ body, item.body.pushChunk agent none chunk = some body := by
  unfold trailingTarget at h
  split at h
  . split at h
    next last hlast =>
      split at h <;> cases h
      rename_i hsome
      exact ⟨List.mem_of_getLast? hlast, Option.isSome_iff_exists.mp hsome⟩
    next => cases h
  . cases h

theorem revises_continued (hpush : old.body.pushChunk agent streaming chunk = some body)
    : Revises event old (old.continued event agent body) := by
  obtain ⟨hold, hkind⟩ := pushChunk_some hpush
  constructor
  case stableId => rfl
  case position => rfl
  case createdAtMs => rfl
  case changed => exact Int.le_max_left _ _
  case latest =>
    cases agent with
    | true => exact Or.inr ⟨hkind, rfl⟩
    | false => exact Or.inl rfl
  case kind => exact hkind.trans hold.symm

theorem creates_newStreamItem (hpositive : 0 < event.ordinal)
    : Creates current event (newStreamItem event agent current.execution.isRunning chunk) where
  proper :=
    { named := by
        unfold newStreamItem
        cases agent <;> exact ofId_stream _ _
      numbered := by
        cases agent with
        | true => exact numbered_of_ofId (ofId_stream true _) (by decide) (by decide) (by decide)
        | false => exact numbered_of_ofId (ofId_stream false _) (by decide) (by decide) (by decide)
      positive := hpositive
      le_through := Nat.le_refl _
      content := by cases agent <;> rfl
      latest := by
        cases agent with
        | true =>
          intro ordinal hordinal
          cases hordinal
          exact ⟨Nat.le_refl _, Nat.le_refl _⟩
        | false => nofun
      changed := Int.le_refl _ }
  place := Or.inl rfl

def streamCreation (current : MaterializedSession) (event : RelayEvent) (agent : Bool)
    (chunk : ContentChunk) : Option TranscriptItem :=
  match streamTarget current.transcript agent chunk,
    trailingTarget current.transcript agent current.execution.isRunning chunk with
  | none, none => some (newStreamItem event agent current.execution.isRunning chunk)
  | _, _ => none

theorem pushStreamChunk_footprint (hcurrent : current.WellFormed) (hpositive : 0 < event.ordinal)
    (agent : Bool) (chunk : ContentChunk)
    (h : Closing current event [streamKind !agent] mutation.transcript)
    : ∃ mutation',
        pushStreamChunk current event agent current.execution.isRunning chunk mutation
            = .ok mutation'
          ∧ Footprint current event (streamCreation current event agent chunk)
              mutation'.transcript := by
  have hother : streamKind agent ∉ [streamKind !agent] := by cases agent <;> decide
  unfold pushStreamChunk streamCreation
  cases htarget : streamTarget current.transcript agent chunk with
  | some item =>
    obtain ⟨hmem, hkind⟩ := streamTarget_some hcurrent htarget
    obtain ⟨body, hbody⟩ :=
      pushChunk_of_kind (some current.execution.isRunning) chunk hkind
    dsimp only
    rw [hbody]
    refine ⟨_, rfl, ?_⟩
    apply h.footprint.revise hmem (revises_continued hbody)
    apply h.fresh _ hother
    rw [← hkind]
    exact (hcurrent item hmem).named
  | none =>
  dsimp only
  cases htrailing : trailingTarget current.transcript agent current.execution.isRunning chunk with
  | some item =>
    obtain ⟨hmem, body, hbody⟩ := trailingTarget_some htrailing
    dsimp only
    rw [hbody, Option.getD_some]
    refine ⟨_, rfl, ?_⟩
    apply h.footprint.revise hmem (revises_continued hbody)
    apply h.fresh _ hother
    rw [← (pushChunk_some hbody).1]
    exact (hcurrent item hmem).named
  | none =>
    refine ⟨_, rfl, ?_⟩
    apply h.footprint.create (creates_newStreamItem hpositive)
    exact h.fresh (ofId_stream agent _) hother

end Chunks

end Hel
