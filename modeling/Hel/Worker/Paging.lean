import Hel.Worker.Attach

/-!
This module contains the replay of a journal page after page.
-/

namespace Hel

section Page

variable {codec : RelayCodec} {origin : Origin} {history : List RelayEvent} {files : JournalFiles}
  {plan : RelayReplayPlan} {view : JournalView} {after start budget : Nat} {digest : String}
  {page : RelayEventPage}

theorem readSpans_eq_ok (hr : Recorded codec origin history) {index : Nat}
    {spans : List RelayJournalSpan}
    (hchain : SpanChain origin history files start plan.latestOrdinal spans) {state : PageState}
    (hstart : state.pageFull = false → start ≤ state.throughOrdinal)
    (hdigest : isRelayDigest state.throughDigest)
    : ∃ state', plan.readSpans codec (.of files) budget index spans state = .ok state' ∧
        (state'.pageFull = false → plan.latestOrdinal ≤ state'.throughOrdinal) := by
  induction spans generalizing index start state with
  | nil =>
    have heq : start = plan.latestOrdinal := hchain
    exact ⟨state, rfl, heq ▸ hstart⟩
  | cons span rest ih =>
    obtain ⟨hrep, hafter, hle, hfirst, hrest⟩ := hchain
    unfold RelayReplayPlan.readSpans
    split
    next hskip =>
      refine ih hrest ?_ hdigest
      intro hopen
      simpa [hopen] using hskip
    rename_i hread
    rw [not_or, Bool.not_eq_true] at hread
    have hstart' := hstart hread.1
    obtain ⟨next, hnext, hdigest', hend⟩ :=
      hrep.readPage hr (by omega) (by omega) hrest.le hdigest
    have hvisit : visitSighting codec span.path .strict (plan.pageVisitor codec span budget)
        (JournalView.of files (.page index) span.path) state = .ok next :=
      (hrep.visit hr .strict _ state).trans hnext
    have hcovered : ¬ (!next.pageFull
        ∧ next.throughOrdinal < min span.fileLastOrdinal plan.latestOrdinal) := by
      rintro ⟨hopen, hlt⟩
      have := hend (by simpa using hopen)
      omega
    rw [hvisit]
    dsimp only
    rw [if_neg hcovered]
    exact ih hrest hend hdigest'

theorem readEventsAfter_eq_ok (hr : Recorded codec origin history)
    (hs : PlanSound origin history plan) (hp : PlanCovers origin history files plan start)
    (hv : ViewSound codec history plan (.of files)) (hcursor : OnChain origin history after digest)
    (hstart : start ≤ after) (hle : after ≤ plan.latestOrdinal) (budget : Nat)
    : ∃ page, plan.readEventsAfter codec (.of files) after digest budget = .ok page := by
  have hbegin := @pageSound_start codec origin history plan digest after budget hcursor hle
  obtain ⟨state, hread, hend⟩ := @readSpans_eq_ok codec origin history files plan start budget hr 0
    plan.spans hp.chain _ (fun _ => hstart) (hbegin.through.isRelayDigest hr)
  have hsound := readSpans_sound hr hv hread hbegin
  have hfrontier : ¬ (!state.pageFull ∧ (state.throughOrdinal ≠ plan.latestOrdinal ∨
      state.throughDigest ≠ plan.latestDigest)) := by
    rintro ⟨hopen, hne⟩
    have hthrough := hsound.through_le.antisymm (hend (by simpa using hopen))
    have hchain := hsound.through
    rw [hthrough] at hchain
    exact hne.elim (absurd hthrough) (absurd (hchain.unique hr hs.latest))
  unfold RelayReplayPlan.readEventsAfter
  dsimp only
  rw [hread]
  dsimp only
  rw [if_neg hfrontier]
  exact ⟨_, rfl⟩

theorem PageExact.next_mem (h : PageExact codec origin history plan after budget page)
    (hr : Recorded codec origin history) (hlatest : plan.latestOrdinal = frontierOf origin history)
    (horigin : origin.ordinal ≤ after) (hlt : after < plan.latestOrdinal)
    : ∃ event ∈ page.events, event.ordinal = after + 1 := by
  have hthrough : after < page.throughOrdinal := by
    cases h.complete with
    | inl heq => omega
    | inr hfull =>
    obtain ⟨_, _, _, hne, _⟩ := hfull
    obtain ⟨event, hmem⟩ := List.exists_mem_of_ne_nil _ hne
    rw [h.events] at hmem
    have := (mem_slice.mp hmem).2
    omega
  have hle := h.through_le
  unfold frontierOf at hlatest
  obtain ⟨event, hmem, hordinal⟩ := hr.numbered.exists (a := after + 1) (by omega) (by omega)
  refine ⟨event, ?_, hordinal⟩
  rw [h.events]
  exact mem_slice.mpr ⟨hmem, by omega, by omega⟩

theorem SpanChain.after_le {spans : List RelayJournalSpan} {through : Nat}
    (h : SpanChain origin history files start through spans)
    : ∀ span ∈ spans, start ≤ span.afterOrdinal := by
  induction spans generalizing start with
  | nil => exact List.forall_mem_nil _
  | cons head rest ih =>
    obtain ⟨_, hafter, hle, _, hrest⟩ := h
    rw [List.forall_mem_cons]
    refine ⟨hafter.ge, ?_⟩
    intro span hmem
    exact hle.trans (ih hrest span hmem)

theorem readEventsAfter_owned (hp : PlanCovers origin history files plan start)
    (h : plan.readEventsAfter codec view after digest budget = .ok page)
    : ∀ event ∈ page.events, start < event.ordinal := by
  unfold RelayReplayPlan.readEventsAfter at h
  dsimp only at h
  split at h
  . cases h
  rename_i state hread
  have howned : ∀ event ∈ state.events, start < event.ordinal := by
    refine readSpans_induction (P := fun state => ∀ event ∈ state.events, start < event.ordinal)
      hread (by simp) ?_
    intro visit state next span hspan hstate _ hnext
    have hstart := hp.chain.after_le span hspan
    refine visitSighting_induction (P := fun state => ∀ event ∈ state.events, start < event.ordinal)
      hnext hstate (fun _ hstate => hstate) ?_
    intro _ state event flow _ hstate _ hvisit
    unfold RelayReplayPlan.pageVisitor at hvisit
    split at hvisit
    . cases hvisit
      exact hstate
    split at hvisit
    . cases hvisit
      exact hstate
    split at hvisit
    . cases hvisit
    split at hvisit
    . cases hvisit
    split at hvisit
    . cases hvisit
    split at hvisit <;> cases hvisit
    . exact hstate
    intro event' hmem
    simp only [List.mem_append, List.mem_singleton] at hmem
    rcases hmem with hmem | rfl
    . exact hstate event' hmem
    . omega
  split at h <;> cases h
  exact howned

/-- The pages of a reader that goes on from where the last page ended until it is at the frontier,
with whatever budget it has at each cursor. -/
def RelayReplayPlan.replayPages (codec : RelayCodec) (view : JournalView) (plan : RelayReplayPlan)
    (budgets : Nat → Nat) :
    (fuel afterOrdinal : Nat) → (afterDigest : String) → Except ReplayError (List RelayEventPage)
  | 0, _, _ => .ok []
  | fuel + 1, afterOrdinal, afterDigest =>
    if afterOrdinal = plan.latestOrdinal then
      .ok []
    else
      match plan.readEventsAfter codec view afterOrdinal afterDigest (budgets afterOrdinal) with
      | .error e => .error e
      | .ok page =>
        match replayPages codec view plan budgets fuel page.throughOrdinal page.throughDigest with
        | .error e => .error e
        | .ok pages => .ok (page :: pages)

structure PagesExact (history : List RelayEvent) (after latest : Nat)
    (pages : List RelayEventPage) : Prop where
  nonempty : ∀ page ∈ pages, page.events ≠ []
  events : pages.flatMap (·.events) = between history after latest

theorem pagesExact_nil {latest : Nat} (hle : latest ≤ after) : PagesExact history after latest [] := by
  refine ⟨by simp, (slice_eq_nil ?_).symm⟩
  intro event _
  omega

theorem replayPages_exact (hr : Recorded codec origin history) (hs : PlanSound origin history plan)
    (hp : PlanCovers origin history files plan start)
    (hv : ViewSound codec history plan (.of files)) (budgets : Nat → Nat) {fuel : Nat}
    (hcursor : OnChain origin history after digest) (hstart : start ≤ after)
    (hle : after ≤ plan.latestOrdinal) (hfuel : plan.latestOrdinal ≤ after + fuel)
    : ∃ pages, plan.replayPages codec (.of files) budgets fuel after digest = .ok pages ∧
        PagesExact history after plan.latestOrdinal pages := by
  induction fuel generalizing after digest with
  | zero => exact ⟨[], rfl, pagesExact_nil (by omega)⟩
  | succ fuel ih =>
    by_cases heq : after = plan.latestOrdinal
    . exact ⟨[], if_pos heq, pagesExact_nil heq.ge⟩
    obtain ⟨page, hpage⟩ := readEventsAfter_eq_ok hr hs hp hv hcursor hstart hle (budgets after)
    have hexact := readEventsAfter_exact hr hv hcursor hle hpage
    obtain ⟨event, hmem, hordinal⟩ :=
      hexact.next_mem hr hp.latest_eq (hcursor.bounds hr).1 (by omega)
    have hthrough : after < page.throughOrdinal := by
      rw [hexact.events] at hmem
      have := (mem_slice.mp hmem).2
      omega
    obtain ⟨pages, hpages, hrest⟩ := ih hexact.through (by omega) hexact.through_le (by omega)
    refine ⟨page :: pages, ?_, ?_, ?_⟩
    . unfold RelayReplayPlan.replayPages
      rw [if_neg heq, hpage]
      dsimp only
      rw [hpages]
    . rw [List.forall_mem_cons]
      exact ⟨List.ne_nil_of_mem hmem, hrest.nonempty⟩
    . rw [List.flatMap_cons, hrest.events, hexact.events]
      exact slice_append_slice hr.numbered hexact.after_le hexact.through_le

end Page

section Replay

variable {codec : RelayCodec} {sessionId : String} {sys : System} {after : Nat} {digest : String}

def journalView (sys : System) : JournalView :=
  .of sys.world.disk.journal.files

def replayed (codec : RelayCodec) (sys : System) (budgets : Nat → Nat) (after : Nat)
    (digest : String) : Except ReplayError (List RelayEventPage) :=
  (replayPlan sys.world.relay).replayPages codec (journalView sys) budgets
    (sys.world.relay.snapshot.latestOrdinal - after) after digest

structure ReplaysAll (sys : System) (after : Nat) (pages : List RelayEventPage) : Prop
    extends PagesExact sys.world.history after sys.world.relay.snapshot.latestOrdinal pages where
  numbered : Numbered RelayEvent.ordinal after (pages.flatMap (·.events))
  length : after + (pages.flatMap (·.events)).length = sys.world.relay.snapshot.latestOrdinal

theorem paged_replay_is_complete_iff (h : Reachable codec sessionId (fun _ _ => True) sys)
    (hrunning : sys.running = true)
    (hcursor : (replayPlan sys.world.relay).validateCursor codec (journalView sys) after digest
      = .ok ())
    (budgets : Nat → Nat)
    : (∃ pages, replayed codec sys budgets after digest = .ok pages ∧ ReplaysAll sys after pages)
        ↔ journalFloor sys.world.relay ≤ after := by
  obtain ⟨origin, _, hsane⟩ := h.sane
  have hlive := hsane.live hrunning
  have hr := hlive.valid.recorded
  have hp := hlive.planCovers
  obtain ⟨_, hle, hchain⟩ :=
    validateCursor_sound hlive.viewSound hlive.planSound hlive.origin_le_retainedThrough hcursor
  have horigin := (hchain.bounds hr).1
  have hlatest := hp.latest_eq
  constructor
  . rintro ⟨pages, hpages, hall⟩
    by_contra hbelow
    have hfloor := hp.chain.le
    unfold replayed at hpages
    cases hfuel : sys.world.relay.snapshot.latestOrdinal - after with
    | zero =>
      have : (replayPlan sys.world.relay).latestOrdinal = sys.world.relay.snapshot.latestOrdinal := rfl
      omega
    | succ fuel =>
    have hlt : after < (replayPlan sys.world.relay).latestOrdinal := by omega
    rw [hfuel, RelayReplayPlan.replayPages, if_neg hlt.ne] at hpages
    split at hpages
    . cases hpages
    rename_i page hpage
    obtain ⟨event, hmem, hordinal⟩ :=
      (readEventsAfter_exact hr hlive.viewSound hchain hle hpage).next_mem hr hlatest horigin hlt
    have := readEventsAfter_owned hp hpage event hmem
    omega
  . intro hfloor
    obtain ⟨pages, hpages, hexact⟩ := replayPages_exact hr hlive.planSound hp hlive.viewSound budgets
      hchain hfloor hle (Nat.sub_le_iff_le_add'.mp (Nat.le_refl _))
    refine ⟨pages, hpages, hexact, ?_, ?_⟩
    . rw [hexact.events]
      exact numbered_slice hr.numbered horigin
    rw [hexact.events]
    have hlength := hr.numbered.length_slice horigin hlatest.le
    unfold between
    rw [hlength]
    exact Nat.add_sub_cancel' hle

def noticed : System :=
  plainSystem [openNow, perform (.submit "notice-1" (.recordNotice "text"))]

theorem paged_replay_is_complete_of_notice
    : ∃ pages, replayed plainCodec noticed (fun _ => 1) 0 RELAY_EVENT_GENESIS_DIGEST = .ok pages ∧
        ReplaysAll noticed 0 pages := by
  have hreachable : Reachable plainCodec "session-1" (fun _ _ => True) noticed :=
    reachable_plainSystem (fun _ _ _ => trivial)
  have hrunning : noticed.running = true := by decide +kernel
  have hcursor : (replayPlan noticed.world.relay).validateCursor plainCodec (journalView noticed) 0
      RELAY_EVENT_GENESIS_DIGEST = .ok () := by
    decide +kernel
  have hfloor : journalFloor noticed.world.relay ≤ 0 := by
    decide +kernel
  exact (paged_replay_is_complete_iff hreachable hrunning hcursor (fun _ => 1)).mpr hfloor

-- The cursor is the floor that a completed checkpoint moved back to.
theorem paged_replay_has_gap
    : Reachable plainCodec "session-1" (fun _ _ => True) (plainSystem floorRun) ∧
      (plainSystem floorRun).running = true ∧
      (replayPlan (plainSystem floorRun).world.relay).validateCursor plainCodec
        (journalView (plainSystem floorRun)) 3 (plainDigest 3) = .ok () ∧
      replayed plainCodec (plainSystem floorRun) (fun _ => 1) 3 (plainDigest 3)
        = .error (.other "relay journal page has a gap after event 3: found 5") := by
  refine ⟨reachable_plainSystem (fun _ _ _ => trivial), ?_⟩
  decide +kernel

end Replay

end Hel
