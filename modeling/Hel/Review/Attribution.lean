import Hel.Data.Machine
import Hel.Review.Finality
import Hel.Review.Lemmas.Command
import Hel.Review.Lemmas.Transcript
import Hel.Worker.Lemmas.Mention
import Hel.Worker.Recovery

/-!
This module contains the reviews of a session over the relays that outlive them, and when a review is
decided by what was journaled for it and not by what an earlier review has left.
-/

namespace Hel

open TurnReviewDriver List

open Machine (Reaches)

variable {Accepts : RelaySnapshot → RelayCommand → Prop} {driver : TurnReviewDriver}
  {event : RelayEvent} {c c' : Chronicle} {after : Chronicle}

def promptCommand (prompt : String) : RelayCommand :=
  .prompt [textBlock prompt]

structure ReviewSubmission where
  review : Nat
  relay : Option String
  commandId : String
  command : RelayCommand
  deriving DecidableEq

def ReviewRequest.submission (wording : ReviewPrompt → String) (review : Nat)
    : ReviewRequest → Option ReviewSubmission
  | .promptRole role commandId prompt =>
    some
      { review := review
        relay := some role
        commandId := commandId
        command := promptCommand (wording prompt) }
  | .promptPrimary commandId prompt =>
    some
      { review := review
        relay := none
        commandId := commandId
        command := promptCommand prompt }
  | _ => none

/--
A session with its relays and its open review. `sending` are the submissions on their way, each a
task of its own, and `delivered` those of the open review with the end of the journal they met.
-/
structure ReviewBench where
  relays : Option String → Chronicle
  review : Nat
  driver : Option TurnReviewDriver
  transcripts : String → RoleTranscript
  sending : List ReviewSubmission
  delivered : List (ReviewSubmission × Nat)

inductive BenchEvent where
  | begin (seed : TurnReviewSeed)
  | call (call : ReviewCall)
  | roleEvents (role : String) (events : List RelayEvent)
  | deliver (submission : ReviewSubmission)
      (response : Except RelayProtocolError RelayResponsePayload) (after : Chronicle)
  | interrupt (submission : ReviewSubmission)
  | relay (name : Option String) (after : Chronicle)

namespace ReviewBench

section Step

variable (codec : RelayCodec) (origin : Option String → Origin) (sessionId : String)
  (wording : ReviewPrompt → String) (contentText : List ContentBlock → String)
  (chunksText : List ContentChunk → String)

variable (bench : ReviewBench)

def react (reaction : Reaction) : ReviewBench :=
  { bench with
    driver := some reaction.1
    sending := bench.sending ++ reaction.2.filterMap (ReviewRequest.submission wording bench.review) }

def register (submission : ReviewSubmission) : ReviewBench :=
  { bench with
    sending := bench.sending.erase submission
    delivered :=
      if submission.review = bench.review then
        bench.delivered ++ [(submission, (bench.relays submission.relay).held.latestOrdinal)]
      else
        bench.delivered }

def evolve (name : Option String) (after : Chronicle) : ReviewBench :=
  { bench with relays := Function.update bench.relays name after }

def readRole (role : String) (events : List RelayEvent) : RoleTranscript :=
  (bench.transcripts role).apply codec contentText (roleSessionId sessionId role) events

def handed (role : String) (events : List RelayEvent) : Option (String × String) :=
  bench.driver.bind fun driver =>
    driver.turnEnd chunksText (bench.readRole codec sessionId contentText role events) role events

inductive Step : ReviewBench → BenchEvent → ReviewBench → Prop where
  | begin (bench : ReviewBench) (seed : TurnReviewSeed)
    : Step bench (.begin seed)
        ({ bench with
            review := bench.review + 1
            transcripts := fun _ => {}
            delivered := [] }.react wording (start seed))
  | call {bench : ReviewBench} {driver : TurnReviewDriver} {call : ReviewCall} :
      bench.driver = some driver →
      -- The end of a turn is only ever read from the journal of the role.
      (∀ commandId answer, call ≠ .roleTurnCompleted commandId answer) →
      Step bench (.call call) (bench.react wording (driver.call call))
  | roleEvents {bench : ReviewBench} {driver : TurnReviewDriver} {role : String}
      {events : List RelayEvent} :
      bench.driver = some driver → events <:+: (bench.relays (some role)).history →
      Step bench (.roleEvents role events)
        ({ bench with
            transcripts := Function.update bench.transcripts role
              (bench.readRole codec sessionId contentText role events) }.react wording
          (driver.roleEvents chunksText
            (bench.readRole codec sessionId contentText role events) role events))
  | deliver {bench : ReviewBench} {submission : ReviewSubmission}
      {response : Except RelayProtocolError RelayResponsePayload} {after : Chronicle} :
      submission ∈ bench.sending →
      Submitted codec (origin submission.relay) (fun _ _ => True) (bench.relays submission.relay)
        submission.commandId submission.command response after →
      Step bench (.deliver submission response after)
        ((bench.register submission).evolve submission.relay after)
  | interrupt {bench : ReviewBench} {submission : ReviewSubmission} :
      submission ∈ bench.sending →
      Step bench (.interrupt submission) (bench.register submission)
  | relay {bench : ReviewBench} {name : Option String} {after : Chronicle} :
      Evolves codec (origin name) (fun _ _ => True) (bench.relays name) after →
      Step bench (.relay name after) (bench.evolve name after)

-- The open review has submitted to the relay before, or the relay knows of no review.
def Clean (name : Option String) : Prop :=
  (∃ own ∈ bench.delivered, own.1.relay = name) ∨
    ∀ id, isReviewCommand id → ¬ (bench.relays name).Mentions id

def Spoken (role commandId : String) (events : List RelayEvent) : Prop :=
  ∀ own ∈ bench.delivered, own.1.relay = some role → own.1.commandId = commandId →
    (bench.readRole codec sessionId contentText role events).messages = [] ∨
      ∃ item ∈ (bench.readRole codec sessionId contentText role events).messages,
        own.2 < item.position

def Apart : BenchEvent → Prop
  | .roleEvents role events =>
    ∀ commandId answer,
      bench.handed codec sessionId contentText chunksText role events = some (commandId, answer) →
      bench.Clean (some role) ∧ bench.Spoken codec sessionId contentText role commandId events
  | .deliver submission _ _ => submission.review = bench.review ∧ bench.Clean submission.relay
  | .interrupt submission => submission.review = bench.review → bench.Clean submission.relay
  | .relay name after =>
    ∀ event ∈ (bench.relays name).journaled after, ∀ id, event.enqueues id → isReviewCommand id →
      ∃ own ∈ bench.delivered, own.1.relay = name ∧ own.1.commandId = id
  | _ => True

def Taken (submission : ReviewSubmission)
    (response : Except RelayProtocolError RelayResponsePayload) (after : Chronicle) : Prop :=
  (∃ event ∈ (bench.relays submission.relay).journaled after, (∃ createdAtMs, event.observation
      = .commandQueued submission.commandId submission.command createdAtMs) ∧
      response = .ok (.accepted submission.commandId event.ordinal)) ∨
  (bench.relays submission.relay).held.handledCommands.get? submission.commandId = none ∧
    after = bench.relays submission.relay ∧ ∃ error, response = .error error

/--
A command the open review submits is new to its relay, and a completion and an answer it is handed
were journaled after it submitted their command.
-/
def Owned : BenchEvent → Prop
  | .deliver submission response after =>
    ¬ (bench.relays submission.relay).Mentions submission.commandId ∧
      bench.Taken submission response after
  | .roleEvents role events =>
    ∀ commandId answer,
      bench.handed codec sessionId contentText chunksText role events = some (commandId, answer) →
      ∃ own ∈ bench.delivered, own.1.relay = some role ∧ own.1.commandId = commandId ∧
        (∀ event ∈ events, event.completesPrompt commandId → own.2 < event.ordinal) ∧
        (answer = "" ∨ ∃ item chunks streaming,
            item ∈ (bench.readRole codec sessionId contentText role events).messages ∧
            item.body = .agent chunks streaming ∧ answer = chunksText chunks ∧
            ∃ event ∈ (bench.relays (some role)).history,
              event.ordinal = item.position ∧ own.2 < event.ordinal)
  | _ => True

end Step

section Invariant

variable {codec : RelayCodec} {origin : Option String → Origin} {sessionId : String}
  {wording : ReviewPrompt → String} {contentText : List ContentBlock → String}
  {chunksText : List ContentChunk → String} {bench bench' : ReviewBench}

def own (bench : ReviewBench) : List ReviewSubmission :=
  bench.sending.filter (fun submission => submission.review = bench.review)
    ++ bench.delivered.map Prod.fst

variable (codec origin) in
structure Kept (bench : ReviewBench) : Prop where
  valid : ∀ name, (bench.relays name).Valid codec (origin name)
  numbered : ∀ submission ∈ bench.own, ∃ driver purpose number, bench.driver = some driver ∧
    number ≤ driver.sequence ∧ submission.commandId = reviewCommandId purpose number
  nodup : (bench.own.map ReviewSubmission.commandId).Nodup
  past : ∀ submission ∈ bench.sending, submission.review ≤ bench.review
  known : ∀ own ∈ bench.delivered, ∀ id, isReviewCommand id →
    (bench.relays own.1.relay).Mentions id →
    ∃ other ∈ bench.delivered, other.1.relay = own.1.relay ∧ other.1.commandId = id
  reached : ∀ own ∈ bench.delivered, own.2 ≤ (bench.relays own.1.relay).held.latestOrdinal
  late : ∀ own ∈ bench.delivered, ∀ event ∈ (bench.relays own.1.relay).history,
    event.observation.mentions own.1.commandId → own.2 < event.ordinal
  awaited : ∀ driver role id, bench.driver = some driver → driver.awaited.get? role = some id →
    isReviewCommand id
  read : ∀ role, (bench.transcripts role).ReadFrom (bench.relays (some role)).history

theorem ordinal_of_journaled {origin : Origin}
    (h : Evolves codec origin Accepts c c') (hv : c.Valid codec origin)
    (hevent : event ∈ c.journaled c') : c.held.latestOrdinal < event.ordinal := by
  obtain ⟨events, hevents⟩ := h.history_eq
  have hnumbered := (Evolves.valid h hv).recorded.numbered
  rw [journaled_eq hevents] at hevent
  rw [hevents, numbered_append] at hnumbered
  have hlt := (hnumbered.2.bounds hevent).1
  have hlatest := hv.latest_eq
  omega

theorem mem_history_of_evolves {origin : Origin} (h : Evolves codec origin Accepts c c')
    : event ∈ c'.history ↔ event ∈ c.history ∨ event ∈ c.journaled c' := by
  obtain ⟨events, hevents⟩ := h.history_eq
  rw [journaled_eq hevents, hevents, mem_append]

theorem latest_le_of_evolves {origin : Origin} (h : Evolves codec origin Accepts c c')
    (hv : c.Valid codec origin) : c.held.latestOrdinal ≤ c'.held.latestOrdinal := by
  obtain ⟨events, hevents⟩ := h.history_eq
  have hlatest := hv.latest_eq
  have hlatest' := (Evolves.valid h hv).latest_eq
  rw [hevents, length_append] at hlatest'
  omega

theorem relays_evolve_self (name : Option String) (after : Chronicle)
    : (bench.evolve name after).relays name = after :=
  Function.update_self ..

variable {name : Option String}

theorem relays_evolve_of_ne {name' : Option String} (h : name' ≠ name) (after : Chronicle)
    : (bench.evolve name after).relays name' = bench.relays name' :=
  Function.update_of_ne h ..

theorem evolves_evolve
    (h : Evolves codec (origin name) (fun _ _ => True) (bench.relays name) after)
    (name' : Option String)
    : Evolves codec (origin name') (fun _ _ => True) (bench.relays name')
        ((bench.evolve name after).relays name') := by
  by_cases heq : name' = name
  . rw [heq, relays_evolve_self]
    exact h
  . rw [relays_evolve_of_ne heq]
    exact .refl

theorem kept_evolve (h : bench.Kept codec origin)
    (hevolves : Evolves codec (origin name) (fun _ _ => True) (bench.relays name) after)
    (hlearns : ∀ id, isReviewCommand id → after.Mentions id → (bench.relays name).Mentions id ∨
        ∃ own ∈ bench.delivered, own.1.relay = name ∧ own.1.commandId = id)
    : (bench.evolve name after).Kept codec origin := by
  refine { h with valid := ?_, known := ?_, reached := ?_, late := ?_, read := ?_ }
  . intro name'
    exact Evolves.valid (evolves_evolve hevolves name') (h.valid name')
  . intro own hown id hreview hmentions
    by_cases heq : own.1.relay = name
    . rw [heq, relays_evolve_self] at hmentions
      rw [heq]
      cases hlearns id hreview hmentions with
      | inl hold =>
        rw [← heq] at hold ⊢
        exact h.known own hown id hreview hold
      | inr hnew => exact hnew
    . rw [relays_evolve_of_ne heq] at hmentions
      exact h.known own hown id hreview hmentions
  . intro own hown
    apply Nat.le_trans (h.reached own hown)
    exact latest_le_of_evolves (evolves_evolve hevolves _) (h.valid _)
  . intro own hown event hevent hmentions
    rw [mem_history_of_evolves (evolves_evolve hevolves _)] at hevent
    cases hevent with
    | inl hold => exact h.late own hown event hold hmentions
    | inr hnew =>
      apply Nat.lt_of_le_of_lt (h.reached own hown)
      exact ordinal_of_journaled (evolves_evolve hevolves _) (h.valid _) hnew
  . intro role
    apply (h.read role).grow
    intro event hevent
    rw [mem_history_of_evolves (evolves_evolve hevolves _)]
    exact Or.inl hevent

variable {submission : ReviewSubmission}

theorem Kept.isReviewCommand_own (h : bench.Kept codec origin) (hmem : submission ∈ bench.own)
    : isReviewCommand submission.commandId := by
  obtain ⟨_, purpose, number, _, _, hid⟩ := h.numbered submission hmem
  rw [hid]
  apply isReviewCommand_reviewCommandId

theorem mem_own_of_sending (hmem : submission ∈ bench.sending)
    (hreview : submission.review = bench.review) : submission ∈ bench.own := by
  apply mem_append_left
  rw [mem_filter]
  exact ⟨hmem, by simpa using hreview⟩

variable {own : ReviewSubmission × Nat}

theorem Kept.not_delivered (h : bench.Kept codec origin) (hmem : submission ∈ bench.sending)
    (hreview : submission.review = bench.review) (hown : own ∈ bench.delivered)
    : own.1.commandId ≠ submission.commandId := by
  intro heq
  have hnodup := h.nodup
  unfold ReviewBench.own at hnodup
  rw [map_append, nodup_append] at hnodup
  apply hnodup.2.2 submission.commandId _ own.1.commandId _ heq.symm
  . apply mem_map_of_mem
    simpa [mem_filter] using ⟨hmem, hreview⟩
  . exact mem_map_of_mem (mem_map_of_mem hown)

theorem Kept.fresh (h : bench.Kept codec origin) (hmem : submission ∈ bench.sending)
    (hreview : submission.review = bench.review) (hclean : bench.Clean submission.relay)
    : ¬ (bench.relays submission.relay).Mentions submission.commandId := by
  intro hmentions
  have hid := h.isReviewCommand_own (mem_own_of_sending hmem hreview)
  cases hclean with
  | inl hown =>
    obtain ⟨own, hown, hrelay⟩ := hown
    rw [← hrelay] at hmentions
    obtain ⟨other, hother, _, heq⟩ := h.known own hown _ hid hmentions
    exact h.not_delivered hmem hreview hother heq
  | inr hnone => exact hnone _ hid hmentions

theorem own_register_perm (hmem : submission ∈ bench.sending)
    : (bench.register submission).own.Perm bench.own := by
  have hsending := (perm_cons_erase hmem).filter
    (fun submission => decide (submission.review = bench.review))
  unfold own register
  dsimp only
  by_cases hreview : submission.review = bench.review
  . rw [if_pos hreview, map_append, ← append_assoc]
    rw [filter_cons_of_pos (by simpa using hreview)] at hsending
    apply List.Perm.trans (perm_append_singleton ..)
    exact (hsending.append_right (bench.delivered.map Prod.fst)).symm
  . rw [if_neg hreview]
    rw [filter_cons_of_neg (by simpa using hreview)] at hsending
    exact (hsending.append_right (bench.delivered.map Prod.fst)).symm

theorem mem_delivered_register
    (h : own ∈ (bench.register submission).delivered)
    : own ∈ bench.delivered ∨ submission.review = bench.review ∧
        own = (submission, (bench.relays submission.relay).held.latestOrdinal) := by
  unfold register at h
  dsimp only at h
  split at h
  next hreview =>
    rw [mem_append, mem_singleton] at h
    exact h.imp_right (fun heq => ⟨hreview, heq⟩)
  next => exact Or.inl h

theorem mem_register_of_delivered (h : own ∈ bench.delivered)
    : own ∈ (bench.register submission).delivered := by
  unfold register
  dsimp only
  split
  . exact mem_append_left _ h
  . exact h

theorem kept_register (h : bench.Kept codec origin) (hmem : submission ∈ bench.sending)
    (hclean : submission.review = bench.review → bench.Clean submission.relay)
    : (bench.register submission).Kept codec origin := by
  refine { h with
    numbered := fun other hother => h.numbered other ((own_register_perm hmem).mem_iff.mp hother)
    nodup := ((own_register_perm hmem).map _).nodup_iff.mpr h.nodup
    past := fun other hother => h.past other (mem_of_mem_erase hother)
    known := ?_, reached := ?_, late := ?_ }
  . intro own hown id hreview hmentions
    have hother : ∃ other ∈ bench.delivered, other.1.relay = own.1.relay ∧
        other.1.commandId = id := by
      cases mem_delivered_register hown with
      | inl hold => exact h.known own hold id hreview hmentions
      | inr hnew =>
      rw [hnew.2] at hmentions ⊢
      cases hclean hnew.1 with
      | inl hbefore =>
        obtain ⟨before, hbefore, hrelay⟩ := hbefore
        dsimp only at hmentions ⊢
        rw [← hrelay] at hmentions ⊢
        exact h.known before hbefore id hreview hmentions
      | inr hnone => exact absurd hmentions (hnone id hreview)
    obtain ⟨other, hmem', hrest⟩ := hother
    exact ⟨other, mem_register_of_delivered hmem', hrest⟩
  . intro own hown
    cases mem_delivered_register hown with
    | inl hold => exact h.reached own hold
    | inr hnew =>
      rw [hnew.2]
      exact Nat.le_refl _
  . intro own hown event hevent hmentions
    cases mem_delivered_register hown with
    | inl hold => exact h.late own hold event hevent hmentions
    | inr hnew =>
    rw [hnew.2] at hevent hmentions
    exact absurd (Or.inl ⟨event, hevent, hmentions⟩)
      (h.fresh hmem hnew.1 (hclean hnew.1))

theorem submissions_commandId (requests : List ReviewRequest) (review : Nat)
    : (requests.filterMap (ReviewRequest.submission wording review)).map
        ReviewSubmission.commandId = issued requests := by
  unfold issued
  rw [map_filterMap]
  apply filterMap_congr
  intro request _
  cases request <;> rfl

theorem submissions_review {requests : List ReviewRequest} {review : Nat}
    (h : submission ∈ requests.filterMap (ReviewRequest.submission wording review))
    : submission.review = review := by
  obtain ⟨request, _, hrequest⟩ := mem_filterMap.mp h
  unfold ReviewRequest.submission at hrequest
  split at hrequest <;> cases hrequest
  . rfl
  . rfl

theorem own_react (reaction : Reaction)
    : ((bench.react wording reaction).own.map ReviewSubmission.commandId).Perm
        (issued reaction.2 ++ bench.own.map ReviewSubmission.commandId) := by
  have hnew : (reaction.2.filterMap (ReviewRequest.submission wording bench.review)).filter
      (fun submission => submission.review = bench.review)
        = reaction.2.filterMap (ReviewRequest.submission wording bench.review) := by
    rw [filter_eq_self]
    intro submission hsubmission
    simpa using submissions_review hsubmission
  unfold own react
  dsimp only
  rw [filter_append, hnew, append_assoc, map_append, map_append,
    submissions_commandId, map_append]
  apply perm_append_comm_assoc

theorem kept_react (h : bench.Kept codec origin)
    (hdriver : bench.driver = some driver) {reaction : Reaction}
    (hissues : driver.Issues reaction) : (bench.react wording reaction).Kept codec origin := by
  have hnumbered : ∀ id ∈ bench.own.map ReviewSubmission.commandId, ∃ purpose number,
      number ≤ driver.sequence ∧ id = reviewCommandId purpose number := by
    intro id hid
    obtain ⟨submission, hmem, rfl⟩ := mem_map.mp hid
    obtain ⟨driver', purpose, number, hdriver', hle, hid⟩ := h.numbered submission hmem
    cases hdriver.symm.trans hdriver'
    exact ⟨purpose, number, hle, hid⟩
  have hown := @own_react wording bench reaction
  refine { h with numbered := ?_, nodup := ?_, past := ?_, awaited := ?_ }
  . intro submission hmem
    refine ⟨reaction.1, ?_⟩
    have hid := hown.mem_iff.mp (mem_map_of_mem hmem)
    cases hissues.ids with
    | inl hnone =>
      rw [hnone.2, nil_append] at hid
      obtain ⟨purpose, number, hle, hid⟩ := hnumbered _ hid
      exact ⟨purpose, number, rfl, by omega, hid⟩
    | inr hnext =>
    obtain ⟨purpose, hsequence, hissued⟩ := hnext
    rw [hissued, singleton_append, mem_cons] at hid
    cases hid with
    | inl hnew => exact ⟨purpose, driver.sequence + 1, rfl, by omega, hnew⟩
    | inr hold =>
      obtain ⟨purpose, number, hle, hid⟩ := hnumbered _ hold
      exact ⟨purpose, number, rfl, by omega, hid⟩
  . rw [hown.nodup_iff]
    cases hissues.ids with
    | inl hnone =>
      rw [hnone.2]
      exact h.nodup
    | inr hnext =>
    obtain ⟨purpose, _, hissued⟩ := hnext
    rw [hissued, singleton_append, nodup_cons]
    refine ⟨?_, h.nodup⟩
    intro hmem
    obtain ⟨purpose', number, hle, hid⟩ := hnumbered _ hmem
    have := number_injective hid
    omega
  . rw [react, forall_mem_append]
    exact ⟨h.past, fun submission hnew => Nat.le_of_eq (submissions_review hnew)⟩
  . intro driver' role id hdriver' hget
    cases hdriver'
    cases hissues.awaited role id hget with
    | inl hold => exact h.awaited driver role id hdriver hold
    | inr hreview => exact hreview

theorem Kept.of_unused (hvalid : ∀ name, (bench.relays name).Valid codec (origin name))
    (hown : bench.own = []) (hpast : ∀ submission ∈ bench.sending, submission.review ≤ bench.review)
    (hawaited : ∀ driver role, bench.driver = some driver → driver.awaited.get? role = none)
    (hread : bench.transcripts = fun _ => {}) : bench.Kept codec origin := by
  have hdelivered : bench.delivered = [] := by simpa using (append_eq_nil_iff.mp hown).2
  constructor
  case valid => exact hvalid
  case numbered => simp [hown]
  case nodup => simp [hown]
  case past => exact hpast
  case known | reached | late => simp [hdelivered]
  case awaited =>
    intro driver role id hdriver hget
    rw [hawaited driver role hdriver] at hget
    cases hget
  case read =>
    rw [hread]
    nofun

theorem kept_begin (h : bench.Kept codec origin) (seed : TurnReviewSeed)
    : ({ bench with
          review := bench.review + 1
          transcripts := fun _ => {}
          delivered := [] }.react wording (start seed)).Kept codec origin := by
  have hpast : ∀ submission ∈ bench.sending, submission.review ≤ bench.review := h.past
  apply Kept.of_unused
  case hvalid => exact h.valid
  case hown =>
    simp only [own, react, start, ReviewRequest.submission, filterMap_cons, filterMap_nil,
      append_nil, map_nil, filter_eq_nil_iff, decide_eq_true_eq]
    intro submission hmem
    have hle := hpast submission hmem
    omega
  case hpast =>
    intro submission hmem
    have hmem' : submission ∈ bench.sending := by
      simpa [react, start, ReviewRequest.submission] using hmem
    exact Nat.le_succ_of_le (hpast submission hmem')
  case hawaited =>
    intro driver role hdriver
    cases hdriver
    rfl
  case hread => rfl

theorem issues_roleEvents (driver : TurnReviewDriver) (transcript : RoleTranscript) (role : String)
    (events : List RelayEvent)
    : driver.Issues (driver.roleEvents chunksText transcript role events) := by
  unfold roleEvents
  split
  . exact issues_call driver (.roleTurnCompleted _ _)
  . apply issues_self

theorem kept_step (h : bench.Kept codec origin) {event : BenchEvent}
    (hapart : bench.Apart codec sessionId contentText chunksText event)
    (hstep : Step codec origin sessionId wording contentText chunksText bench event bench')
    : bench'.Kept codec origin := by
  cases hstep with
  | begin seed => apply kept_begin h
  | call hdriver => exact kept_react h hdriver (issues_call _ _)
  | @roleEvents driver role events hdriver hevents =>
    have hread : ({ bench with
        transcripts := Function.update bench.transcripts role
          (bench.readRole codec sessionId contentText role events) } : ReviewBench).Kept
            codec origin := by
      refine { h with read := ?_ }
      intro role'
      dsimp only
      by_cases heq : role' = role
      . rw [heq, Function.update_self]
        exact (h.read role).apply _ hevents.subset
      . rw [Function.update_of_ne heq]
        exact h.read role'
    exact kept_react hread hdriver (issues_roleEvents _ _ _ _)
  | @deliver submission response after hmem hsubmitted =>
    apply kept_evolve (kept_register h hmem (fun _ => hapart.2)) hsubmitted.evolves
    intro id _ hmentions
    apply (hsubmitted.mentions (h.valid _) hmentions).imp_right
    intro heq
    refine ⟨(submission, (bench.relays submission.relay).held.latestOrdinal), ?_, rfl, heq.symm⟩
    unfold register
    dsimp only
    rw [if_pos hapart.1]
    simp
  | interrupt hmem => exact kept_register h hmem hapart
  | @relay name after hevolves =>
    apply kept_evolve h hevolves
    intro id hreview hmentions
    apply (Evolves.mentions hevolves (h.valid name) hmentions).imp_right
    intro ⟨event, hevent, henqueues⟩
    exact hapart event hevent id henqueues hreview

theorem taken_of_fresh {response : Except RelayProtocolError RelayResponsePayload}
    (hsubmitted : Submitted codec (origin submission.relay) (fun _ _ => True)
      (bench.relays submission.relay) submission.commandId submission.command response after)
    (hfresh : ¬ (bench.relays submission.relay).Mentions submission.commandId)
    : bench.Taken submission response after := by
  have hnone : (bench.relays submission.relay).held.handledCommands.get? submission.commandId
      = none := by
    cases hget : (bench.relays submission.relay).held.handledCommands.get?
        submission.commandId with
    | none => rfl
    | some handled => exact absurd (Or.inr (by rw [hget]; rfl)) hfresh
  cases hsubmitted with
  | repeated hh | conflicting hh =>
    rw [hnone] at hh
    cases hh
  | @refused error _ => exact Or.inr ⟨hnone, rfl, error, rfl⟩
  | @accepted event createdAtMs c₁ _ _ htransition hhistory hobservation hevolves =>
  obtain ⟨events, hevents⟩ := hevolves.history_eq
  left
  refine ⟨event, ?_, ⟨createdAtMs, hobservation⟩, rfl⟩
  rw [hhistory, append_assoc] at hevents
  rw [journaled_eq hevents]
  simp

theorem mentions_of_completesPrompt {id : String}
    (h : event.completesPrompt id) : event.observation.mentions id := by
  unfold RelayEvent.completesPrompt at h
  split at h
  next ho =>
    rw [ho]
    exact h
  next => cases h

theorem Kept.owned (h : bench.Kept codec origin) {event : BenchEvent}
    (hapart : bench.Apart codec sessionId contentText chunksText event)
    (hstep : Step codec origin sessionId wording contentText chunksText bench event bench')
    : bench.Owned codec sessionId contentText chunksText event := by
  cases hstep with
  | begin | call => trivial
  | @roleEvents driver role events hdriver hevents =>
    intro commandId answer hhanded
    obtain ⟨hclean, hspoken⟩ := hapart commandId answer hhanded
    simp only [handed, hdriver, Option.bind_some, turnEnd] at hhanded
    split at hhanded
    . cases hhanded
    rename_i hawaited
    split at hhanded <;> cases hhanded
    rename_i hany
    obtain ⟨completion, hcompletion, hcompletes⟩ := any_eq_true.mp hany
    have hreview := h.awaited driver role commandId hdriver hawaited
    have hmentions : (bench.relays (some role)).Mentions commandId :=
      Or.inl ⟨completion, hevents.subset hcompletion, mentions_of_completesPrompt hcompletes⟩
    obtain ⟨own, hown, hrelay, hid⟩ : ∃ own ∈ bench.delivered, own.1.relay = some role ∧
        own.1.commandId = commandId := by
      cases hclean with
      | inl hbefore =>
        obtain ⟨before, hbefore, hrelay⟩ := hbefore
        rw [← hrelay] at hmentions ⊢
        exact h.known before hbefore commandId hreview hmentions
      | inr hnone => exact absurd hmentions (hnone commandId hreview)
    refine ⟨own, hown, hrelay, hid, ?_, ?_⟩
    . intro event hevent hcompletes'
      apply h.late own hown event
      . rw [hrelay]
        exact hevents.subset hevent
      . rw [hid]
        exact mentions_of_completesPrompt hcompletes'
    have hread : (bench.readRole codec sessionId contentText role events).ReadFrom
        (bench.relays (some role)).history := (h.read role).apply _ hevents.subset
    cases hlatest : (bench.readRole codec sessionId contentText role events).latestAnswer
        chunksText with
    | none =>
      left
      rfl
    | some text =>
      right
      obtain ⟨item, chunks, streaming, hitem, hbody, htext⟩ :=
        RoleTranscript.latestAnswer_eq_some hlatest
      obtain ⟨⟨event, hevent, hposition⟩, hnewest⟩ := hread.latest hitem
      have hmessage := RoleTranscript.mem_messages_of_latest hitem
      refine ⟨item, chunks, streaming, hmessage, hbody, ?_, event, hevent, hposition, ?_⟩
      . exact htext
      cases hspoken own hown hrelay hid with
      | inl hempty =>
        rw [hempty] at hmessage
        cases hmessage
      | inr hsaid =>
      obtain ⟨other, hother, hlt⟩ := hsaid
      have hle := hnewest other hother
      omega
  | @deliver submission response after hmem hsubmitted =>
    have hfresh := h.fresh hmem hapart.1 hapart.2
    exact ⟨hfresh, taken_of_fresh hsubmitted hfresh⟩
  | interrupt | relay => trivial

end Invariant

section Run

variable (codec : RelayCodec) (origin : Option String → Origin) (sessionId : String)
  (wording : ReviewPrompt → String) (contentText : List ContentBlock → String)
  (chunksText : List ContentChunk → String)

structure Fresh (bench : ReviewBench) : Prop where
  valid : ∀ name, (bench.relays name).Valid codec (origin name)
  driver : bench.driver = none
  transcripts : bench.transcripts = fun _ => {}
  sending : bench.sending = []
  delivered : bench.delivered = []

theorem Fresh.kept {bench : ReviewBench} (h : bench.Fresh codec origin)
    : bench.Kept codec origin := by
  apply Kept.of_unused h.valid
  case hown => simp [own, h.sending, h.delivered]
  case hpast => simp [h.sending]
  case hawaited => simp [h.driver]
  case hread => exact h.transcripts

theorem review_decided_by_own_run {start bench bench' : ReviewBench} {event : BenchEvent}
    (hstart : start.Fresh codec origin)
    (hreaches : Reaches (Step codec origin sessionId wording contentText chunksText)
      (Apart codec sessionId contentText chunksText) start bench)
    (hapart : bench.Apart codec sessionId contentText chunksText event)
    (hstep : Step codec origin sessionId wording contentText chunksText bench event bench')
    : bench.Owned codec sessionId contentText chunksText event := by
  have hkept : bench.Kept codec origin := by
    apply hreaches.invariant _ hstart.kept
    intro bench event bench' hkept hapart hstep
    exact kept_step hkept hapart hstep
  exact hkept.owned hapart hstep

end Run

section Plain

def firstChunk (chunks : List ContentChunk) : String :=
  (((chunks.head?.map (·.content)).bind (·.get? "text")).bind Json.asString?).getD ""

def plainWording (_ : ReviewPrompt) : String := "review the change"

def reviewerCommand : RelayCommand := promptCommand "review the change"

def reviewerTurn : List Action :=
  [perform (.claim true 1), perform (.observe (.sessionUpdate (.agentMessageChunk
     { content := textBlock "No material findings.", messageId := none })) rfl),
   perform (.completed "turn-review-reviewer-1" (.prompt "end_turn"))]

def promptReviewer : Action := perform (.submit "turn-review-reviewer-1" reviewerCommand)

def relayOpened : Chronicle := (plainSystem [openNow]).world.chronicle

def relayPrompted : Chronicle := (plainSystem ([openNow] ++ [promptReviewer])).world.chronicle

def relayAnswered : Chronicle :=
  (plainSystem (([openNow] ++ [promptReviewer]) ++ reviewerTurn)).world.chronicle

def plainBench : ReviewBench where
  relays := fun _ => relayOpened
  review := 0
  driver := none
  transcripts := fun _ => {}
  sending := []
  delivered := []

def plainDriver : TurnReviewDriver :=
  (start (plainSeed .quick)).1

def launchingDriver : TurnReviewDriver :=
  (plainDriver.call (.deltaCaptured [plainDelta])).1

variable (bench : ReviewBench)

def begun : ReviewBench :=
  { bench with
    review := bench.review + 1
    transcripts := fun _ => {}
    delivered := [] }.react plainWording (start (plainSeed .quick))

def launching : ReviewBench :=
  bench.begun.react plainWording (plainDriver.call (.deltaCaptured [plainDelta]))

def opening : ReviewBench :=
  bench.launching.react plainWording (launchingDriver.call (.roleStarted reviewerRole))

def reviewerSubmission (review : Nat) : ReviewSubmission where
  review := review
  relay := some reviewerRole
  commandId := "turn-review-reviewer-1"
  command := reviewerCommand

def promptedBench : ReviewBench :=
  (plainBench.opening.register (reviewerSubmission 1)).evolve (some reviewerRole) relayPrompted

def answeredBench : ReviewBench :=
  promptedBench.evolve (some reviewerRole) relayAnswered

section Reaches

abbrev PlainStep (origin : Option String → Origin) : ReviewBench → BenchEvent → ReviewBench → Prop :=
  Step plainCodec origin "session-1" plainWording noText firstChunk

variable {origin : Option String → Origin} {Allowed : ReviewBench → BenchEvent → Prop}

theorem reaches_opening (bench : ReviewBench) (hbegin : ∀ bench seed, Allowed bench (.begin seed))
    (hcall : ∀ bench call, Allowed bench (.call call))
    : Reaches (PlainStep origin) Allowed bench bench.opening := by
  have hbegun : PlainStep origin bench (.begin (plainSeed .quick)) bench.begun := .begin bench _
  have hlaunching : PlainStep origin bench.begun (.call (.deltaCaptured [plainDelta]))
      bench.launching := .call rfl nofun
  have hopening : PlainStep origin bench.launching (.call (.roleStarted reviewerRole))
      bench.opening := .call rfl nofun
  exact .step (.step (.single (hbegin _ _) hbegun) (hcall _ _) hlaunching) (hcall _ _) hopening

theorem submission_mem_opening (bench : ReviewBench)
    : reviewerSubmission (bench.review + 1) ∈ bench.opening.sending := by
  apply mem_append_right
  have hsent : (launchingDriver.call (.roleStarted reviewerRole)).2.filterMap
      (ReviewRequest.submission plainWording (bench.review + 1))
        = [reviewerSubmission (bench.review + 1)] := rfl
  show _ ∈ (launchingDriver.call (.roleStarted reviewerRole)).2.filterMap
    (ReviewRequest.submission plainWording (bench.review + 1))
  rw [hsent]
  exact mem_singleton_self _

end Reaches

theorem relayOpened_mentions (id : String) : ¬ relayOpened.Mentions id := by
  have hhistory : relayOpened.history = [] := rfl
  have hhandled : relayOpened.held.handledCommands = BTreeMap.empty := rfl
  intro h
  unfold Chronicle.Mentions at h
  rw [hhistory, hhandled] at h
  cases h with
  | inl h =>
    obtain ⟨event, hevent, _⟩ := h
    cases hevent
  | inr h => cases h

theorem relayAnswered_journaled
    : ∀ event ∈ relayPrompted.journaled relayAnswered, ∀ id, event.enqueues id = false := by
  have hobservations : (relayPrompted.journaled relayAnswered).map (·.observation)
      = [.sessionUpdate (.agentMessageChunk
          { content := textBlock "No material findings.", messageId := none }),
        .commandCompleted "turn-review-reviewer-1" (.prompt "end_turn")] := rfl
  intro event hevent id
  have hmem := mem_map_of_mem (f := RelayEvent.observation) hevent
  rw [hobservations] at hmem
  unfold RelayEvent.enqueues
  rcases mem_pair.mp hmem with heq | heq
  . rw [heq]
  . rw [heq]

theorem exists_plain_origin
    : ∃ origin : Origin, (Sane plainCodec origin Anything "session-1" (plainSystem [openNow])) ∧
        Submitted plainCodec origin (fun _ _ => True) relayOpened "turn-review-reviewer-1"
          reviewerCommand (.ok (.accepted "turn-review-reviewer-1" 1)) relayPrompted ∧
        Evolves plainCodec origin (fun _ _ => True) relayPrompted relayAnswered := by
  have hinitial : System.initial "session-1" none plainMemory calm = .ok plainStart := rfl
  obtain ⟨origin, hguarded, hstart, _⟩ :=
    @initial_sane plainCodec Anything "session-1" plainStart False none plainMemory calm hinitial
  have hopened := @plainSystem_evolves origin hguarded hstart [openNow] [promptReviewer]
    rfl
  have hprompted := @plainSystem_evolves origin hguarded hstart ([openNow] ++ [promptReviewer])
    reviewerTurn rfl
  refine ⟨origin, hopened.1, ?_, hprompted.2⟩
  have hlive := (hopened.1.live running_openNow).schedule calm
  have hresponse : (submitCommand plainCodec "turn-review-reviewer-1" reviewerCommand
      ((plainSystem [openNow]).world.under calm)).1
        = .ok (.ok (.accepted "turn-review-reviewer-1" 1)) := by
    rfl
  exact submitted_of_ok hlive (fun _ => ⟨trivial, by rw [hguarded]; exact False.elim⟩) hresponse

theorem reaches_answered {origin : Origin} {Allowed : ReviewBench → BenchEvent → Prop}
    (hsubmitted : Submitted plainCodec origin (fun _ _ => True) relayOpened
      "turn-review-reviewer-1" reviewerCommand (.ok (.accepted "turn-review-reviewer-1" 1))
      relayPrompted)
    (hevolves : Evolves plainCodec origin (fun _ _ => True) relayPrompted relayAnswered)
    (hbegin : ∀ bench seed, Allowed bench (.begin seed))
    (hcall : ∀ bench call, Allowed bench (.call call)) (hdeliver : Allowed plainBench.opening
      (.deliver (reviewerSubmission 1) (.ok (.accepted "turn-review-reviewer-1" 1)) relayPrompted))
    (hrelay : Allowed promptedBench (.relay (some reviewerRole) relayAnswered))
    : Reaches (PlainStep (fun _ => origin)) Allowed plainBench answeredBench := by
  have hprompt : PlainStep (fun _ => origin) plainBench.opening
      (.deliver (reviewerSubmission 1) (.ok (.accepted "turn-review-reviewer-1" 1)) relayPrompted)
      promptedBench :=
    .deliver (submission_mem_opening plainBench) hsubmitted
  have hanswer : PlainStep (fun _ => origin) promptedBench
      (.relay (some reviewerRole) relayAnswered) answeredBench := by
    apply Step.relay
    have hrelay : promptedBench.relays (some reviewerRole) = relayPrompted := by
      apply relays_evolve_self
    rw [hrelay]
    exact hevolves
  exact .step (.step (reaches_opening plainBench hbegin hcall) hdeliver hprompt) hrelay hanswer

theorem fresh_plainBench {origin : Origin}
    (hsane : Sane plainCodec origin Anything "session-1" (plainSystem [openNow]))
    : plainBench.Fresh plainCodec (fun _ => origin) :=
  ⟨fun _ => hsane.recoverable.valid, rfl, rfl, rfl, rfl⟩

theorem review_decided_by_own_run_of_first_review
    : answeredBench.handed plainCodec "session-1" noText firstChunk reviewerRole
          relayAnswered.history = some ("turn-review-reviewer-1", "No material findings.")
      ∧ answeredBench.Owned plainCodec "session-1" noText firstChunk
          (.roleEvents reviewerRole relayAnswered.history) := by
  obtain ⟨origin, hsane, hsubmitted, hevolves⟩ := exists_plain_origin
  have hdelivered : answeredBench.delivered = [(reviewerSubmission 1, 0)] := by decide +kernel
  have hspoken : ((answeredBench.readRole plainCodec "session-1" noText reviewerRole
      relayAnswered.history).messages.map (·.position)) = [3] := by
    decide +kernel
  have hrelays : answeredBench.relays (some reviewerRole) = relayAnswered := by
    apply relays_evolve_self
  have hapart : answeredBench.Apart plainCodec "session-1" noText firstChunk
      (.roleEvents reviewerRole relayAnswered.history) := by
    intro commandId answer _
    refine ⟨Or.inl ⟨(reviewerSubmission 1, 0), by rw [hdelivered]; simp, rfl⟩, ?_⟩
    intro own hown _ _
    rw [hdelivered, mem_singleton] at hown
    right
    have hposition : 3 ∈ (answeredBench.readRole plainCodec "session-1" noText reviewerRole
        relayAnswered.history).messages.map (·.position) := by
      rw [hspoken]
      simp
    obtain ⟨item, hitem, heq⟩ := mem_map.mp hposition
    refine ⟨item, hitem, ?_⟩
    rw [hown, heq]
    decide
  have hreaches := @reaches_answered origin
    (Apart plainCodec "session-1" noText firstChunk) hsubmitted hevolves
    (fun _ _ => trivial) (fun _ _ => trivial)
    ⟨rfl, Or.inr (fun id _ => relayOpened_mentions id)⟩ (by
      intro event hevent id henqueues
      have hrelay : promptedBench.relays (some reviewerRole) = relayPrompted := by
        apply relays_evolve_self
      rw [hrelay] at hevent
      rw [relayAnswered_journaled event hevent id] at henqueues
      cases henqueues)
  refine ⟨by decide +kernel, ?_⟩
  apply review_decided_by_own_run plainCodec (fun _ => origin) "session-1" plainWording noText
    firstChunk (fresh_plainBench hsane) hreaches hapart
  apply Step.roleEvents
  . rfl
  . exact hrelays.symm ▸ infix_refl _

def endedBench : ReviewBench :=
  answeredBench.react plainWording
    ((launchingDriver.call (.roleStarted reviewerRole)).1.call .cancel)

-- The first review is cancelled. The second one prompts the reviewer under the same id, which is a
-- repetition to the relay, and takes the answer that the first one got.
theorem review_decided_by_earlier_run
    : ∃ origin : Origin,
        plainBench.Fresh plainCodec (fun _ => origin) ∧
        Reaches (Step plainCodec (fun _ => origin) "session-1" plainWording noText firstChunk)
          (fun _ _ => True) plainBench endedBench ∧
        endedBench.driver.map (·.finished) = some true ∧
        Reaches (Step plainCodec (fun _ => origin) "session-1" plainWording noText firstChunk)
          (fun _ _ => True) endedBench endedBench.opening ∧
        endedBench.opening.delivered = [] ∧
        reviewerSubmission 2 ∈ endedBench.opening.sending ∧
        (endedBench.opening.relays (some reviewerRole)).Mentions "turn-review-reviewer-1" ∧
        endedBench.opening.handed plainCodec "session-1" noText firstChunk reviewerRole
          relayAnswered.history = some ("turn-review-reviewer-1", "No material findings.") ∧
        ¬ endedBench.opening.Owned plainCodec "session-1" noText firstChunk
          (.roleEvents reviewerRole relayAnswered.history) := by
  obtain ⟨origin, hsane, hsubmitted, hevolves⟩ := exists_plain_origin
  have hreaches := @reaches_answered origin (fun _ _ => True) hsubmitted hevolves
    (fun _ _ => trivial) (fun _ _ => trivial) trivial trivial
  have hended : PlainStep (fun _ => origin) answeredBench (.call .cancel) endedBench :=
    .call rfl nofun
  have hhanded : endedBench.opening.handed plainCodec "session-1" noText firstChunk reviewerRole
      relayAnswered.history = some ("turn-review-reviewer-1", "No material findings.") := by
    decide +kernel
  refine ⟨origin, fresh_plainBench hsane, .step hreaches trivial hended, by decide +kernel,
    reaches_opening _ (fun _ _ => trivial) (fun _ _ => trivial), rfl,
    submission_mem_opening endedBench, ?_, hhanded, ?_⟩
  . right
    decide +kernel
  . intro howned
    obtain ⟨own, hown, _⟩ := howned _ _ hhanded
    cases hown

end Plain

end ReviewBench

end Hel
