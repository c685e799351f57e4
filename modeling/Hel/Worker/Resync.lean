import Hel.Worker.Attach

/-!
This module contains what an attach answers when sealed segments of the journal are damaged.
-/

namespace Hel

open RelayReplayPlan

variable {rest : List JournalLine} {line : JournalLine}

section Lines

variable (codec : RelayCodec)

def JournalLine.Spoilt : JournalLine → Prop
  | .garbage bytes => bytes ≠ 0
  | .record event => validateRelayEventSelf codec event ≠ .ok ()

inductive FirstAfter (through : Nat) : List JournalLine → RelayEvent → Prop where
  | here {event : RelayEvent} {rest : List JournalLine} :
      codec.eventLen event ≤ RELAY_EVENT_BYTE_BUDGET → validateRelayEventSelf codec event = .ok () →
      through < event.ordinal → FirstAfter through (.record event :: rest) event
  | skip {line : JournalLine} {rest : List JournalLine} {event : RelayEvent} :
      line.len codec ≤ RELAY_EVENT_BYTE_BUDGET →
      (∀ other, line = .record other → validateRelayEventSelf codec other = .ok () →
        other.ordinal ≤ through) →
      FirstAfter through rest event → FirstAfter through (line :: rest) event

variable {codec} {through ordinal torn : Nat} {path : JournalFile} {lines : List JournalLine}
  {event : RelayEvent}

theorem toBool_validateRelayEventSelf
    : (validateRelayEventSelf codec event).toBool = true
        ↔ validateRelayEventSelf codec event = .ok () := by
  cases validateRelayEventSelf codec event with
  | error e | ok u => simp [Except.toBool]

theorem recoveryVisitor_of_sound (hself : validateRelayEventSelf codec event = .ok ())
    (state : Option (Nat × String)) (len : Nat)
    : recoveryVisitor codec through state event len
        = if through < event.ordinal then .ok (.break (some (event.ordinal, event.digest)))
          else .ok (.continue state) := by
  unfold recoveryVisitor
  simp only [toBool_validateRelayEventSelf.mpr hself, and_true, gt_iff_lt]

theorem FirstAfter.visit (h : FirstAfter codec through lines event)
    : visitRelayJournalLines codec path .recover (recoveryVisitor codec through) torn
        lines none = .ok (some (event.ordinal, event.digest)) := by
  induction h with
  | @here event rest hlen hself hnew =>
    have hshort : ¬ JournalLine.len codec (.record event) > RELAY_EVENT_BYTE_BUDGET :=
      Nat.not_lt.mpr hlen
    rw [visitRelayJournalLines]
    simp only [hshort, ↓reduceIte, toBool_validateRelayEventSelf.mpr hself, Bool.true_eq_false,
      and_false, recoveryVisitor_of_sound hself, hnew]
  | @skip line rest event hlen hold _ ih =>
    have hshort : ¬ line.len codec > RELAY_EVENT_BYTE_BUDGET := Nat.not_lt.mpr hlen
    cases line with rw [visitRelayJournalLines, if_neg hshort]
    | garbage n => simpa using ih
    | record other =>
      split
      . exact ih
      rename_i hsound
      simp only [true_and, Bool.not_eq_false] at hsound
      have hself := toBool_validateRelayEventSelf.mp hsound
      have hle := hold other rfl hself
      rw [recoveryVisitor_of_sound hself, if_neg (by omega)]
      exact ih

variable {cursor : Nat × String}

theorem firstAfter_of_visit
    (h : visitRelayJournalLines codec path .recover (recoveryVisitor codec through)
      torn lines none = .ok (some cursor))
    : ∃ event, FirstAfter codec through lines event ∧ cursor = (event.ordinal, event.digest) := by
  induction lines with
  | nil =>
    unfold visitRelayJournalLines at h
    split at h <;> cases h
  | cons line rest ih =>
    unfold visitRelayJournalLines at h
    split at h
    . cases h
    rename_i hshort
    have hlen : line.len codec ≤ RELAY_EVENT_BYTE_BUDGET := Nat.not_lt.mp hshort
    split at h
    next n =>
      obtain ⟨event, hfirst, heq⟩ := ih (by simpa using h)
      refine ⟨event, .skip hlen ?_ hfirst, heq⟩
      intro other hother
      cases hother
    rename_i other
    split at h
    next hunsound =>
      obtain ⟨event, hfirst, heq⟩ := ih h
      refine ⟨event, .skip hlen ?_ hfirst, heq⟩
      intro other' hother hself
      rw [JournalLine.record.injEq] at hother
      rw [← hother] at hself
      rw [toBool_validateRelayEventSelf.mpr hself] at hunsound
      cases hunsound.2
    rename_i hsound
    simp only [true_and, Bool.not_eq_false] at hsound
    have hself := toBool_validateRelayEventSelf.mp hsound
    rw [recoveryVisitor_of_sound hself] at h
    by_cases hnew : through < other.ordinal
    . rw [if_pos hnew] at h
      simp only [Except.ok.injEq, Option.some.injEq] at h
      exact ⟨other, .here hlen hself hnew, h.symm⟩
    rw [if_neg hnew] at h
    obtain ⟨event, hfirst, heq⟩ := ih h
    refine ⟨event, .skip hlen ?_ hfirst, heq⟩
    intro other' hother _
    rw [JournalLine.record.injEq] at hother
    rw [← hother]
    omega

theorem FirstAfter.mem (h : FirstAfter codec through lines event)
    : .record event ∈ lines ∧ validateRelayEventSelf codec event = .ok () ∧
        through < event.ordinal := by
  induction h with
  | here _ hself hnew => exact ⟨by simp, hself, hnew⟩
  | skip _ _ _ ih => exact ⟨List.mem_cons_of_mem _ ih.1, ih.2⟩

end Lines

section Spans

variable (codec : RelayCodec)

inductive NextReadable (files : JournalFiles) (through : Nat) :
    List RelayJournalSpan → RelayEvent → Prop where
  | here {span : RelayJournalSpan} {rest : List RelayJournalSpan} {content : JournalContent}
      {event : RelayEvent} :
      through < span.fileLastOrdinal → files.get? span.path = some content →
      FirstAfter codec through content.lines event →
      NextReadable files through (span :: rest) event
  | skip {span : RelayJournalSpan} {rest : List RelayJournalSpan} {event : RelayEvent} :
      (through < span.fileLastOrdinal → ∀ content other, files.get? span.path = some content →
        ¬ FirstAfter codec through content.lines other) →
      NextReadable files through rest event → NextReadable files through (span :: rest) event

variable {codec} {files : JournalFiles} {through : Nat} {spans : List RelayJournalSpan}
  {event : RelayEvent} {cursor : Nat × String}

theorem visitSighting_recovery {path : JournalFile}
    : visitSighting codec path .recover (recoveryVisitor codec through)
          (.of (files.get? path)) none = .ok (some cursor)
        ↔ ∃ content event, files.get? path = some content ∧
            FirstAfter codec through content.lines event ∧
            cursor = (event.ordinal, event.digest) := by
  constructor
  . intro h
    unfold visitSighting at h
    cases hget : files.get? path with rw [hget] at h
    | none => cases h
    | some content =>
      obtain ⟨event, hfirst, heq⟩ := firstAfter_of_visit h
      exact ⟨content, event, rfl, hfirst, heq⟩
  . intro ⟨content, event, hget, hfirst, heq⟩
    rw [hget, heq]
    exact hfirst.visit

theorem NextReadable.recoveryCursorIn (h : NextReadable codec files through spans event)
    (index : Nat)
    : recoveryCursorIn codec (.of files) through index spans
        = some (event.ordinal, event.digest) := by
  induction h generalizing index with
  | @here span rest content event hlt hget hfirst =>
    have hvisit := visitSighting_recovery.mpr ⟨content, event, hget, hfirst, rfl⟩
    unfold RelayReplayPlan.recoveryCursorIn JournalView.of
    rw [if_neg (by omega), hvisit]
  | @skip span rest event hnone _ ih =>
    unfold RelayReplayPlan.recoveryCursorIn
    split
    . exact ih (index + 1)
    rename_i hlt
    split
    next cursor hvisit =>
      obtain ⟨content, other, hget, hfirst, _⟩ := visitSighting_recovery.mp hvisit
      exact absurd hfirst (hnone (by omega) content other hget)
    . exact ih (index + 1)

theorem nextReadable_of_recoveryCursorIn {index : Nat}
    (h : recoveryCursorIn codec (.of files) through index spans = some cursor)
    : ∃ event, NextReadable codec files through spans event ∧
        cursor = (event.ordinal, event.digest) := by
  induction spans generalizing index with
  | nil => cases h
  | cons span rest ih =>
    unfold recoveryCursorIn at h
    split at h
    next hle =>
      obtain ⟨event, hnext, heq⟩ := ih h
      exact ⟨event, .skip (fun hlt => by omega) hnext, heq⟩
    rename_i hlt
    split at h
    next found hvisit =>
      rw [Option.some.injEq] at h
      obtain ⟨content, event, hget, hfirst, heq⟩ := visitSighting_recovery.mp hvisit
      exact ⟨event, .here (by omega) hget hfirst, h ▸ heq⟩
    rename_i hnone
    obtain ⟨event, hnext, heq⟩ := ih h
    refine ⟨event, .skip ?_ hnext, heq⟩
    intro _ content other hget hfirst
    exact hnone _ (visitSighting_recovery.mpr ⟨content, other, hget, hfirst, rfl⟩)

theorem NextReadable.mem (h : NextReadable codec files through spans event)
    : ∃ span ∈ spans, ∃ content, files.get? span.path = some content ∧
        FirstAfter codec through content.lines event := by
  induction h with
  | here _ hget hfirst => exact ⟨_, by simp, _, hget, hfirst⟩
  | skip _ _ ih =>
    obtain ⟨span, hmem, h⟩ := ih
    exact ⟨span, List.mem_cons_of_mem _ hmem, h⟩

end Spans

section Owner

variable {origin : Origin} {history : List RelayEvent} {files : JournalFiles}
  {after through ordinal : Nat} {spans : List RelayJournalSpan} {span span' : RelayJournalSpan}

theorem SpanChain.apart (h : SpanChain origin history files after through spans)
    (hmem : span ∈ spans) (hmem' : span' ∈ spans)
    : span = span' ∨ span.fileLastOrdinal ≤ span'.afterOrdinal ∨
        span'.fileLastOrdinal ≤ span.afterOrdinal := by
  induction spans generalizing after with
  | nil => cases hmem
  | cons head rest ih =>
    rw [List.mem_cons] at hmem hmem'
    rcases hmem with rfl | hin
    . rcases hmem' with rfl | hin'
      . exact Or.inl rfl
      . exact Or.inr (Or.inl (h.2.2.2.2.owns hin').2.1)
    rcases hmem' with rfl | hin'
    . exact Or.inr (Or.inr (h.2.2.2.2.owns hin).2.1)
    . exact ih h.2.2.2.2 hin hin'

end Owner

section Damage

variable (codec : RelayCodec)

-- Every line of a sealed segment is as it was written, or does not parse or not check out.
structure Damaged (files files' : JournalFiles) : Prop where
  segments : ∀ first last content, files.get? (.segment first last) = some content →
    ∃ content', files'.get? (.segment first last) = some content' ∧ content'.torn = content.torn ∧
      List.Forall₂ (fun line line' => line' = line ∨ line'.Spoilt codec) content.lines content'.lines
  active : files'.get? .active = files.get? .active

variable {codec} {origin : Origin} {history : List RelayEvent} {files files' : JournalFiles}
  {plan : RelayReplayPlan} {span : RelayJournalSpan} {ordinal torn : Nat} {path : JournalFile}
  {events : List RelayEvent} {lines : List JournalLine}

abbrev Survive (codec : RelayCodec) (events : List RelayEvent) (lines : List JournalLine) : Prop :=
  List.Forall₂ (fun event line => line = .record event ∨ line.Spoilt codec) events lines

theorem survive_map_record (events : List RelayEvent) : Survive codec events (events.map .record) := by
  induction events with
  | nil => exact .nil
  | cons event rest ih => exact .cons (Or.inl rfl) ih

theorem Damaged.survive (h : Damaged codec files files') (hrep : SpanRep origin history files span)
    : ∃ content, files'.get? span.path = some content ∧
        Survive codec (between history (span.fileFirstOrdinal - 1) span.fileLastOrdinal)
          content.lines := by
  obtain ⟨original, hget, hlines, _⟩ := hrep.content
  cases hrep.path with
  | inl hactive =>
    rw [hactive.1] at hget ⊢
    refine ⟨original, h.active.trans hget, ?_⟩
    rw [hlines]
    exact survive_map_record _
  | inr hsegment =>
  rw [hsegment] at hget ⊢
  obtain ⟨content, hget', _, hdamage⟩ := h.segments _ _ original hget
  refine ⟨content, hget', ?_⟩
  rw [hlines, List.forall₂_map_left_iff] at hdamage
  exact hdamage

theorem Survive.mem (h : Survive codec events lines)
    (hmem : .record event ∈ lines) (hself : validateRelayEventSelf codec event = .ok ())
    : event ∈ events := by
  induction h with
  | nil => cases hmem
  | @cons head line rest lines hline _ ih =>
    rw [List.mem_cons] at hmem
    cases hmem with
    | inl heq =>
      rw [← heq] at hline
      cases hline with
      | inl hsame =>
        rw [JournalLine.record.injEq] at hsame
        rw [hsame]
        exact List.mem_cons_self
      | inr hspoilt => exact absurd hself hspoilt
    | inr hin => exact List.mem_cons_of_mem _ (ih hin)

end Damage

section Resync

variable {codec : RelayCodec} {origin : Origin} {sessionId : String} {history : List RelayEvent}
  {files files' : JournalFiles} {plan : RelayReplayPlan} {view : JournalView}
  {after start through : Nat} {digest : String} {sys : System} {w : World} {event : RelayEvent}

theorem readSpans_unreadable (hr : Recorded codec origin history)
    (hv : ViewSound codec history plan view) {budget index : Nat} {spans : List RelayJournalSpan}
    (hspans : ∀ span ∈ spans, span ∈ plan.spans) {state : PageState}
    (hstate : PageSound codec origin history plan after budget state)
    (h : plan.readSpans codec view budget index spans state = .error (.unreadable through))
    : after < through ∧ through < plan.latestOrdinal ∧
        ∃ span ∈ plan.spans, span.fileLastOrdinal = through := by
  induction spans generalizing index state with
  | nil => cases h
  | cons span rest ih =>
    have hrest : ∀ span ∈ rest, span ∈ plan.spans :=
      fun span hmem => hspans span (List.mem_cons_of_mem _ hmem)
    have hspan := hspans span (by simp)
    unfold readSpans at h
    split at h
    . exact ih hrest hstate h
    rename_i hopen
    rw [not_or] at hopen
    split at h
    . split at h
      next hlt =>
        rw [Except.error.injEq, ReplayError.unreadable.injEq] at h
        have hafter := hstate.after_le
        exact ⟨by omega, by omega, span, hspan, h⟩
      . cases h
    next next hnext =>
      have hsound := hstate.visitSpan hr hv hspan (by simpa using hopen.1) hnext
      split at h
      . cases h
      exact ih hrest hsound h

theorem readEventsAfter_unreadable (hr : Recorded codec origin history)
    (hv : ViewSound codec history plan view) {budget : Nat}
    (hcursor : OnChain origin history after digest) (hle : after ≤ plan.latestOrdinal)
    (h : plan.readEventsAfter codec view after digest budget = .error (.unreadable through))
    : after < through ∧ through < plan.latestOrdinal ∧
        ∃ span ∈ plan.spans, span.fileLastOrdinal = through := by
  exact readSpans_unreadable hr hv (fun _ hmem => hmem) (pageSound_start hcursor hle)
    (readSpans_of_unreadable h)

-- The cursor that an attach names although its own cursor is valid.
def Names (codec : RelayCodec) (plan : RelayReplayPlan) (view : JournalView)
    (cursor cursor' : Nat × String) : Prop :=
  plan.validateCursor codec view cursor.1 cursor.2 = .ok () ∧
    ∃ state error detail, plan.attach codec view cursor.1 cursor.2 state = .ok (.error error) ∧
      error.detail = some detail ∧ cursor' = (detail.earliestAvailable, detail.earliestDigest)

theorem Names.unreadable {cursor' : Nat × String} (h : Names codec plan view cursor cursor')
    : ∃ through,
        plan.readEventsAfter codec view cursor.1 cursor.2 RELAY_REPLAY_BYTE_BUDGET
          = .error (.unreadable through) ∧
        cursor' = plan.recoveryCursorAfter codec view through := by
  obtain ⟨hcursor, state, error, detail, hattach, hdetail, heq⟩ := h
  unfold attach at hattach
  rw [hcursor] at hattach
  dsimp only at hattach
  split at hattach
  next through hunreadable =>
    simp only [Except.ok.injEq, Except.error.injEq] at hattach
    rw [← hattach] at hdetail
    simp only [Option.some.injEq] at hdetail
    rw [← hdetail] at heq
    exact ⟨through, hunreadable, heq⟩
  . cases hattach
  . split at hattach
    . cases hattach
    simp at hattach

/-- Where a controller goes on after an attach: behind the page it got, or where it was told to. -/
inductive Hops (codec : RelayCodec) (plan : RelayReplayPlan) (view : JournalView) :
    Nat × String → Nat × String → Prop where
  | page {cursor : Nat × String} {state state' : RelayOperationalState} {events : List RelayEvent}
      {through : Nat} {digest : String} :
      plan.attach codec view cursor.1 cursor.2 state
        = .ok (.ok (.attached state' events through digest)) →
      Hops codec plan view cursor (through, digest)
  | named {cursor cursor' : Nat × String} :
      Names codec plan view cursor cursor' → Hops codec plan view cursor cursor'

section

variable (hr : Recorded codec origin history) (hp : PlanCovers origin history files plan start)
  (hd : Damaged codec files files')

include hp hd

theorem Damaged.mem_history {span : RelayJournalSpan} (hspan : span ∈ plan.spans)
    {content : JournalContent} (hget : files'.get? span.path = some content)
    (hmem : .record event ∈ content.lines) (hself : validateRelayEventSelf codec event = .ok ())
    : event ∈ history := by
  obtain ⟨content', hget', hsurvive⟩ := hd.survive (hp.chain.rep hspan)
  rw [hget, Option.some.injEq] at hget'
  exact (mem_slice.mp (hsurvive.mem (hget' ▸ hmem) hself)).1

include hr

theorem Damaged.viewSound : ViewSound codec history plan (.of files') := by
  intro visit content event span hspan hpresent hmem hself
  have hget : files'.get? span.path = some content := by
    unfold JournalView.of Sighting.of at hpresent
    split at hpresent
    . cases hpresent
    rename_i content' hsome
    rw [Sighting.present.injEq] at hpresent
    rw [hsome, hpresent]
  have hin := hd.mem_history hp hspan hget hmem hself
  exact ⟨hr.genuine event hin, fun _ => hin⟩

theorem recoveryCursorAfter_bounds (hlt : through < plan.latestOrdinal)
    : through < (plan.recoveryCursorAfter codec (.of files') through).1 ∧
        (plan.recoveryCursorAfter codec (.of files') through).1 ≤ plan.latestOrdinal := by
  unfold recoveryCursorAfter
  cases hfound : recoveryCursorIn codec (.of files') through 0 plan.spans with
  | none => exact ⟨hlt, Nat.le_refl _⟩
  | some cursor =>
  obtain ⟨event, hnext, heq⟩ := nextReadable_of_recoveryCursorIn hfound
  obtain ⟨span, hspan, content, hget, hfirst⟩ := hnext.mem
  obtain ⟨hmem, hself, hnew⟩ := hfirst.mem
  have hin := hd.mem_history hp hspan hget hmem hself
  have hbounds := hr.numbered.bounds hin
  have hlatest := hp.latest_eq
  unfold frontierOf at hlatest
  rw [Option.getD_some, heq]
  exact ⟨hnew, by omega⟩

variable (hs : PlanSound origin history plan)

include hs

theorem Names.advances (horigin : origin.ordinal ≤ plan.retainedThrough) {cursor' : Nat × String}
    (h : Names codec plan (.of files') cursor cursor')
    : cursor.1 < cursor'.1 ∧ cursor'.1 ≤ plan.latestOrdinal := by
  have hv := hd.viewSound hr hp
  obtain ⟨through, hunreadable, heq⟩ := h.unreadable
  obtain ⟨_, hle, hcursor⟩ := validateCursor_sound hv hs horigin h.1
  obtain ⟨hafter, hlt, _⟩ := readEventsAfter_unreadable hr hv hcursor hle hunreadable
  have hbounds := recoveryCursorAfter_bounds hr hp hd hlt
  rw [← heq] at hbounds
  omega

theorem Hops.advances (horigin : origin.ordinal ≤ plan.retainedThrough) {cursor' : Nat × String}
    (h : Hops codec plan (.of files') cursor cursor')
    : min (cursor.1 + 1) plan.latestOrdinal ≤ cursor'.1 ∧ cursor'.1 ≤ plan.latestOrdinal := by
  cases h with
  | page hattach =>
    obtain ⟨-, -, hexact⟩ := attach_exact hr (hd.viewSound hr hp) hs horigin hattach
    refine ⟨?_, hexact.through_le⟩
    rcases hexact.complete with heq | ⟨_, _, _, hne, _⟩
    . dsimp only at heq ⊢
      omega
    obtain ⟨event, hmem⟩ := List.exists_mem_of_ne_nil _ hne
    rw [hexact.events] at hmem
    have hbounds := (mem_slice.mp hmem).2
    dsimp only at hbounds ⊢
    omega
  | named hnames =>
    have hadvances := hnames.advances hr hp hd hs horigin
    omega

end

end Resync

section Damaging

variable {codec : RelayCodec} {files files' files'' : JournalFiles}

theorem Damaged.refl (files : JournalFiles) : Damaged codec files files := by
  constructor
  . intro first last content hget
    refine ⟨content, hget, rfl, ?_⟩
    rw [List.forall₂_same]
    exact fun _ _ => Or.inl rfl
  . rfl

theorem Damaged.trans (h : Damaged codec files files') (h' : Damaged codec files' files'')
    : Damaged codec files files'' := by
  constructor
  . intro first last content hget
    obtain ⟨content', hget', htorn', hlines'⟩ := h.segments first last content hget
    obtain ⟨content'', hget'', htorn'', hlines''⟩ := h'.segments first last content' hget'
    refine ⟨content'', hget'', htorn''.trans htorn', ?_⟩
    generalize content.lines = lines, content'.lines = lines', content''.lines = lines''
      at hlines' hlines'' ⊢
    induction hlines' generalizing lines'' with
    | nil =>
      cases hlines''
      exact .nil
    | cons hline _ ih =>
      cases hlines'' with
      | cons hline' hrest' =>
        refine .cons ?_ (ih _ hrest')
        cases hline' with
        | inl heq => exact heq ▸ hline
        | inr hspoilt => exact Or.inr hspoilt
  . exact h'.active.trans h.active

end Damaging

end Hel
