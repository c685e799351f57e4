import Hel.Worker.Plain

/-!
This module contains what a restart finds of a relay that crashed.
-/

namespace Hel

variable {codec : RelayCodec} {origin : Origin} {Accepts : RelaySnapshot → RelayCommand → Prop}
  {sessionId : String} {sys : System} {w : World}
  {kept : List (DirectoryOp JournalFile JournalContent)} {event : RelayEvent}

section Tail

variable {history : List RelayEvent} {files : JournalFiles} {floor after : Nat}

def Holds (files : JournalFiles) (event : RelayEvent) : Prop :=
  ∃ path content, (path = .active ∨ path.isSegment) ∧ files.get? path = some content ∧
    .record event ∈ content.lines

structure JournalTail (files : JournalFiles) (after : Nat) (tail : List RelayEvent) : Prop where
  numbered : Numbered RelayEvent.ordinal after tail
  mem_iff : ∀ event, event ∈ tail ↔ Holds files event ∧ after < event.ordinal

theorem JournalRep.mem_of_holds (h : JournalRep origin history floor files)
    (hholds : Holds files event) : event ∈ history := by
  obtain ⟨path, content, hpath, hget, hmem⟩ := hholds
  obtain ⟨a, b, hlines⟩ : ∃ a b, content.lines = (between history a b).map .record := by
    cases path with
    | active =>
      obtain ⟨active, hrep⟩ := h.active content hget
      exact ⟨_, _, hrep.lines_eq⟩
    | segment first last =>
      rw [(h.segments first last content hget).content_eq]
      exact ⟨_, _, rfl⟩
    | _ => simp [JournalFile.isSegment] at hpath
  rw [hlines, List.mem_map] at hmem
  obtain ⟨event', hmem', heq'⟩ := hmem
  rw [JournalLine.record.injEq] at heq'
  exact heq' ▸ (mem_slice.mp hmem').1

theorem JournalRep.holds (h : JournalRep origin history floor files)
    (hr : Recorded codec origin history) (hmem : event ∈ history) (hlow : floor < event.ordinal)
    : Holds files event := by
  have hbounds := hr.numbered.bounds hmem
  rcases h.covers event.ordinal hlow hbounds.2 with
    ⟨first, last, hsome, hfirst, hlast⟩ | ⟨content, event', hget, hmem', hordinal⟩
  . obtain ⟨content, hget⟩ := Option.isSome_iff_exists.mp hsome
    refine ⟨.segment first last, content, Or.inr rfl, hget, ?_⟩
    rw [(h.segments first last content hget).content_eq]
    exact List.mem_map.mpr ⟨event, mem_slice.mpr ⟨hmem, by omega, hlast⟩, rfl⟩
  . have hin : event' ∈ history :=
      h.mem_of_holds ⟨.active, content, Or.inl rfl, hget, hmem'⟩
    rw [hr.numbered.unique hmem hin hordinal.symm]
    exact ⟨.active, content, Or.inl rfl, hget, hmem'⟩

theorem JournalRep.tail (h : JournalRep origin history floor files)
    (hr : Recorded codec origin history) (hfloor : floor ≤ after) (horigin : origin.ordinal ≤ after)
    : JournalTail files after (between history after (frontierOf origin history)) := by
  constructor
  . exact numbered_slice hr.numbered horigin
  intro event
  rw [mem_slice]
  constructor
  . intro ⟨hmem, hlow, _⟩
    exact ⟨h.holds hr hmem (by omega), hlow⟩
  intro ⟨hholds, hlow⟩
  have hmem := h.mem_of_holds hholds
  exact ⟨hmem, hlow, (hr.numbered.bounds hmem).2⟩

end Tail

section Crash

theorem execute_crash (h : Sane codec origin Accepts sessionId sys) (hrunning : sys.running)
    (op : RelayOp) (schedule : Schedule)
    (hallows : Allows Accepts origin.guarded sys.world.relay.snapshot op)
    (hw : (execute codec op (sys.world.under schedule)).2 = w)
    : Recoverable codec origin Accepts sessionId w ∧ w.relay.snapshot = w.held ∧
        Evolves codec origin Accepts sys.world.chronicle w.chronicle ∧ Shifts sys.world w := by
  have hlive := h.live hrunning
  have hallows' : Allows Accepts origin.guarded sys.world.held op := by
    rw [← hlive.snapshot]
    exact hallows
  have hdoes := execute_does (hlive.schedule schedule) op hallows'
  unfold Does at hdoes
  unfold World.under at hw
  generalize execute codec op { sys.world with schedule := schedule } = result at hdoes hw
  subst hw
  match result with
  | (.ok _, w') =>
    obtain ⟨hadvanced, _⟩ := hdoes
    exact ⟨hadvanced.live.toConsistent.recoverable, hadvanced.live.snapshot, hadvanced.evolves,
      hadvanced.shifts.of_schedule⟩
  | (.error _, w') =>
    exact ⟨hdoes.live.toConsistent.recoverable, hdoes.live.snapshot, hdoes.evolves,
      hdoes.shifts.of_schedule⟩
  | (.crash, w') =>
    exact ⟨hdoes.recoverable, hdoes.snapshot, hdoes.evolves, hdoes.shifts.of_schedule⟩

theorem Recoverable.replays (h : Recoverable codec origin Accepts sessionId w)
    (hkept : kept.Sublist w.disk.journal.pending)
    : ∃ base tail, storedSnapshot codec sessionId w.disk = .ok base ∧
        JournalTail (w.crashed kept).disk.journal.files base.latestOrdinal tail ∧
        (replayEvents codec base tail = .ok w.held ∨
          ∃ synced event, tail = synced ++ [event] ∧ event ∉ w.history ∧
            replayEvents codec base synced = .ok w.held) := by
  obtain ⟨base, hdurable⟩ := h.durable
  have hr : Recorded codec origin w.history := hdurable.valid.recorded
  have hbounds := hdurable.frontiers.latest.bounds hr
  refine ⟨base, ?_⟩
  rcases h.journal kept hkept with hrep | ⟨event, next, content, htransition, hrep, _, _⟩
  . exact ⟨_, hdurable.stored, hrep.tail hr hdurable.collected_le hbounds.1, Or.inl hdurable.replay⟩
  have happly := unsynced_apply htransition
  obtain ⟨hordinal, _, _⟩ := ordinal_of_applyRelayEvent happly
  have hlatest : w.held.latestOrdinal = frontierOf origin w.history := hdurable.valid.latest_eq
  have hordinal' : event.ordinal = frontierOf origin w.history + 1 := by
    rw [← hlatest]
    exact hordinal
  have hr' : Recorded codec origin (w.history ++ [event]) :=
    (htransition.valid hdurable.valid).recorded
  refine ⟨_, hdurable.stored, hrep.tail hr' hdurable.collected_le hbounds.1, Or.inr ?_⟩
  refine ⟨between w.history base.latestOrdinal (frontierOf origin w.history), event, ?_, ?_,
    hdurable.replay⟩
  . exact between_snoc hordinal' hr hbounds.2
  intro hmem
  have := (hr.numbered.bounds hmem).2
  unfold frontierOf at hordinal'
  omega

theorem applyRelayEvent_of_not_changesState {s next : RelaySnapshot}
    (hsame : observationChangesState event.observation = false)
    (happly : applyRelayEvent codec s event = .ok next)
    : next = { s with latestOrdinal := event.ordinal, latestDigest := event.digest } := by
  obtain ⟨_, s', hs', heq⟩ := applyRelayEvent_eq_ok happly
  rw [applyObservation_of_not_changesState hsame, Except.ok.injEq] at hs'
  rw [heq, hs']

variable {Allowed : System → Action → Prop}

theorem reachable_sane (guarded : Prop) (h : Reachable codec sessionId Allowed sys)
    (hallowed : ∀ sys action, Allowed sys action → Permits Accepts guarded sys action)
    : ∃ origin, origin.guarded = guarded ∧ Sane codec origin Accepts sessionId sys := by
  obtain ⟨seed, memory, schedule, start, hstart, hrun⟩ := h
  obtain ⟨origin, hguarded, hsane, _⟩ := initial_sane guarded hstart
  refine ⟨origin, hguarded, (hrun.sane ?_ hsane).1⟩
  rw [hguarded]
  exact hallowed

def Anything (_ : RelaySnapshot) (_ : RelayCommand) : Prop := True

-- A new floor is not beyond what a checkpoint that is ready would set it to.
def FloorSafeStep (sys : System) : Action → Prop
  | .operate (.submit _ command) _ => FloorSafe sys.world.relay.snapshot command
  | _ => True

theorem permits_of_floorSafe {guarded : Prop} (sys : System) (action : Action)
    (h : guarded → FloorSafeStep sys action) : Permits Anything guarded sys action := by
  unfold Permits Allows
  split
  . split
    . exact fun _ => ⟨trivial, h⟩
    . trivial
  . trivial

theorem permits_floorSafe (sys : System) (action : Action) (h : FloorSafeStep sys action)
    : Permits Anything True sys action :=
  permits_of_floorSafe sys action fun _ => h

theorem permits_anything {guarded : Prop} (hguarded : guarded = False) (sys : System) (action : Action)
    : Permits Anything guarded sys action := by
  apply permits_of_floorSafe
  rw [hguarded]
  exact False.elim

theorem Reachable.sane (h : Reachable codec sessionId Allowed sys)
    : ∃ origin, origin.guarded = False ∧ Sane codec origin Anything sessionId sys :=
  reachable_sane False h fun sys action _ => permits_anything rfl sys action

theorem plainSystem_evolves {origin : Origin} (hguarded : origin.guarded = False)
    (hsane : Sane plainCodec origin Anything "session-1" plainStart) {first second : List Action}
    (hfollow : (plainStart.follow plainCodec "session-1" (first ++ second)).isSome)
    : Sane plainCodec origin Anything "session-1" (plainSystem first) ∧
        Evolves plainCodec origin Anything (plainSystem first).world.chronicle
          (plainSystem (first ++ second)).world.chronicle := by
  have hpermits (sys action) (_ : True) := permits_anything hguarded sys action
  obtain ⟨sys', hsys'⟩ := Option.isSome_iff_exists.mp hfollow
  have hsplit := hsys'
  rw [follow_append, Option.bind_eq_some_iff] at hsplit
  obtain ⟨sys, hsys, hrest⟩ := hsplit
  unfold plainSystem systemUnder
  rw [hsys, hsys']
  dsimp only [Option.getD_some]
  have hfirst := (run_of_follow hsys (fun _ _ _ => trivial)).sane hpermits hsane
  exact ⟨hfirst.1, ((run_of_follow hrest (fun _ _ _ => trivial)).sane hpermits hfirst.1).2⟩

theorem stored_snapshot_and_journal_restore_memory
    (h : Reachable codec sessionId (fun _ _ => True) sys) (hrunning : sys.running)
    (op : RelayOp) (schedule : Schedule) (hw : (execute codec op (sys.world.under schedule)).2 = w)
    (hkept : kept.Sublist w.disk.journal.pending)
    : (∃ base tail, storedSnapshot codec sessionId w.disk = .ok base ∧
        JournalTail (w.crashed kept).disk.journal.files base.latestOrdinal tail ∧
        (replayEvents codec base tail = .ok w.relay.snapshot ∨
          ∃ synced event, tail = synced ++ [event] ∧ event ∉ w.history ∧
            replayEvents codec base synced = .ok w.relay.snapshot)) ∧
      ∀ s event next, observationChangesState event.observation = false →
        applyRelayEvent codec s event = .ok next →
        next = { s with latestOrdinal := event.ordinal, latestDigest := event.digest } := by
  obtain ⟨origin, hguarded, hsane⟩ := h.sane
  have hpermits := permits_anything hguarded sys (.operate op schedule)
  obtain ⟨hrecoverable, hsnapshot, _, _⟩ := execute_crash hsane hrunning op schedule hpermits hw
  rw [hsnapshot]
  exact ⟨hrecoverable.replays hkept, fun _ _ _ => applyRelayEvent_of_not_changesState⟩

def cutNotice : Outcome (List ClaimedRelayCommand) × World :=
  execute plainCodec (.submit "notice-1" (.recordNotice "text"))
    ((plainSystem [openNow]).world.under { calm with crashAfter := some 3 })

theorem stored_snapshot_and_journal_restore_memory_of_cut_notice
    : cutNotice.1 = .crash ∧
      ∃ base tail, storedSnapshot plainCodec "session-1" cutNotice.2.disk = .ok base ∧
        JournalTail (cutNotice.2.crashed []).disk.journal.files base.latestOrdinal tail ∧
        (replayEvents plainCodec base tail = .ok cutNotice.2.relay.snapshot ∨
          ∃ synced event, tail = synced ++ [event] ∧ event ∉ cutNotice.2.history ∧
            replayEvents plainCodec base synced = .ok cutNotice.2.relay.snapshot) := by
  refine ⟨rfl, ?_⟩
  exact (stored_snapshot_and_journal_restore_memory (reachable_plainSystem (fun _ _ _ => trivial))
    running_openNow (.submit "notice-1" (.recordNotice "text")) { calm with crashAfter := some 3 } rfl
    (List.nil_sublist _)).1

end Crash

section Journal

variable {base : RelaySnapshot}

def JournalContent.events (content : JournalContent) : List RelayEvent :=
  content.lines.filterMap (fun line =>
    match line with
    | .record event => some event
    | .garbage _ => none)

def ownedEvents (files : JournalFiles) (span : RelayJournalSpan) : List RelayEvent :=
  slice RelayEvent.ordinal ((files.get? span.path).elim [] JournalContent.events) span.afterOrdinal
    span.fileLastOrdinal

theorem events_of_lines {content : JournalContent} {events : List RelayEvent}
    (h : content.lines = events.map .record) : content.events = events := by
  unfold JournalContent.events
  rw [h, List.filterMap_map]
  exact List.filterMap_some

theorem SpanChain.ownedEvents {history : List RelayEvent} {files : JournalFiles}
    {after through : Nat} {spans : List RelayJournalSpan}
    (h : SpanChain origin history files after through spans) (hr : Recorded codec origin history)
    : spans.flatMap (ownedEvents files) = between history after through := by
  induction spans generalizing after with
  | nil =>
    have heq : after = through := h
    exact (slice_of_le heq.ge).symm
  | cons span rest ih =>
    obtain ⟨hrep, hafter, hle, hfirst, hrest⟩ := h
    obtain ⟨content, hget, hlines, _⟩ := hrep.content
    have howned : Hel.ownedEvents files span = between history after span.fileLastOrdinal := by
      unfold Hel.ownedEvents
      rw [hget, Option.elim_some, events_of_lines hlines, hafter, slice_slice (Nat.le_refl _)]
      congr 1
      omega
    rw [List.flatMap_cons, howned, ih hrest]
    exact slice_append_slice hr.numbered hle hrest.le

theorem Restartable.covered (h : Restartable codec origin sessionId base w)
    (hguarded : origin.guarded) : Covered origin base w := by
  intro ordinal hlow hhigh
  have hkept := h.durable.kept hguarded
  exact h.rep.covers ordinal (by omega) hhigh

theorem openRelayJournal_owns (h : Restartable codec origin sessionId base w)
    (hguarded : origin.guarded) (hcalm : w.Calm)
    : ∃ opened w', openRelayJournal codec base w = (.ok opened, w') ∧ w'.history = w.history ∧
        opened.snapshot = w.held ∧ base.retainedThrough ≤ w.held.retainedThrough ∧
        opened.spans.flatMap (ownedEvents w'.disk.journal.files)
          = between w.history base.retainedThrough w.held.latestOrdinal := by
  have hlands := openRelayJournal_lands h
  generalize openRelayJournal codec base w = result at hlands
  match result with
  | (.ok opened, w') =>
    obtain ⟨hw', hrepaired, _, hreopened⟩ := hlands
    have hhistory : w'.history = w.history := hrepaired.untouched.history
    have hheld : w'.held = w.held := hrepaired.untouched.held
    have hlatest : w.held.latestOrdinal = frontierOf origin w.history := h.durable.valid.latest_eq
    refine ⟨opened, w', rfl, hhistory, by rw [hreopened.snapshot, hheld],
      h.durable.retained_le hguarded, ?_⟩
    rw [hreopened.chain.ownedEvents hw'.durable.valid.recorded, hhistory, hlatest]
  | (.error _, _) => exact (hlands.2.2 (h.covered hguarded)).elim
  | (.crash, _) => exact (hlands.2 hcalm).elim

theorem storedSnapshot_recovered (codec : RelayCodec) (sessionId : String) (w : World)
    (kept : List (DirectoryOp JournalFile JournalContent)) (schedule : Schedule)
    : storedSnapshot codec sessionId (w.recovered codec kept schedule).disk
        = storedSnapshot codec sessionId w.disk := by
  unfold World.recovered World.under World.adoptSurvivor
  dsimp only
  repeat' split
  all_goals rfl

/-- An opening finds each event that it has to keep, in the order of their ordinals. -/
def Reopens (codec : RelayCodec) (sessionId : String) (w : World)
    (kept : List (DirectoryOp JournalFile JournalContent)) (schedule : Schedule) : Prop :=
  ∃ base opened w' after, storedSnapshot codec sessionId w.disk = .ok base ∧
    openRelayJournal codec base (w.recovered codec kept schedule) = (.ok opened, w') ∧
    w.history <+: w'.history ∧ after ≤ opened.snapshot.retainedThrough ∧
    opened.spans.flatMap (ownedEvents w'.disk.journal.files)
      = between w'.history after opened.snapshot.latestOrdinal ∧
    Numbered RelayEvent.ordinal after (opened.spans.flatMap (ownedEvents w'.disk.journal.files)) ∧
    opened.snapshot.latestOrdinal
      = after + (opened.spans.flatMap (ownedEvents w'.disk.journal.files)).length

theorem Recoverable.reopens (h : Recoverable codec origin Anything sessionId w)
    (hguarded : origin.guarded) (hkept : kept.Sublist w.disk.journal.pending) {schedule : Schedule}
    (hcrash : schedule.crashAfter = none) (hwrites : schedule.persistFails = [])
    : Reopens codec sessionId w kept schedule := by
  obtain ⟨base, hrestartable, hevolves⟩ := h.recovered hkept schedule
  have hcalm : (w.recovered codec kept schedule).Calm := ⟨hcrash, hwrites⟩
  have hr : Recorded codec origin (w.recovered codec kept schedule).history :=
    hrestartable.durable.valid.recorded
  obtain ⟨opened, w', hopen, hhistory, hsnapshot, hle, howned⟩ :=
    openRelayJournal_owns hrestartable hguarded hcalm
  obtain ⟨events, hevents⟩ := hevolves.history_eq
  have hevents' : (w.recovered codec kept schedule).history = w.history ++ events := hevents
  have hlatest : (w.recovered codec kept schedule).held.latestOrdinal
      = origin.ordinal + (w.recovered codec kept schedule).history.length :=
    hrestartable.durable.valid.latest_eq
  obtain ⟨hretained, hretained_le⟩ := hrestartable.durable.frontiers.retained
  have hbounds := hretained.bounds hr
  refine ⟨base, opened, w', base.retainedThrough, ?_, hopen, ?_, ?_, ?_, ?_, ?_⟩
  . rw [← hrestartable.durable.stored]
    exact (storedSnapshot_recovered codec sessionId w kept schedule).symm
  . rw [hhistory, hevents']
    exact List.prefix_append _ _
  . rw [hsnapshot]
    exact hle
  . rw [howned, hhistory, hsnapshot]
  . rw [howned]
    exact numbered_slice hr.numbered hbounds.1
  . rw [howned, hsnapshot, hr.numbered.length_slice hbounds.1 (by omega)]
    omega

theorem journal_keeps_retained_events
    (h : Reachable codec sessionId FloorSafeStep sys)
    (hkept : kept.Sublist sys.world.disk.journal.pending) (schedule : Schedule)
    (hcrash : schedule.crashAfter = none) (hwrites : schedule.persistFails = [])
    : ∃ base opened w' after, storedSnapshot codec sessionId sys.world.disk = .ok base ∧
        openRelayJournal codec base (sys.world.recovered codec kept schedule) = (.ok opened, w') ∧
        sys.world.history <+: w'.history ∧ after ≤ opened.snapshot.retainedThrough ∧
        opened.spans.flatMap (ownedEvents w'.disk.journal.files)
          = between w'.history after opened.snapshot.latestOrdinal ∧
        Numbered RelayEvent.ordinal after (opened.spans.flatMap (ownedEvents w'.disk.journal.files)) ∧
        opened.snapshot.latestOrdinal
          = after + (opened.spans.flatMap (ownedEvents w'.disk.journal.files)).length := by
  obtain ⟨origin, hguarded, hsane⟩ := reachable_sane True h permits_floorSafe
  exact hsane.recoverable.reopens (hguarded ▸ trivial) hkept hcrash hwrites

def readyRun : List Action :=
  [openNow, perform (.submit "barrier-1" (.beginCheckpoint none)), perform (.claim true 1),
   perform (.checkpointReady "barrier-1"), perform (.acknowledge 2 (plainDigest 2))]

def floorMoved : System :=
  (plainSystem readyRun).next plainCodec "session-1"
    (perform (.submit "advance-1" (.advanceRecoveryFloor ⟨2, plainDigest 2⟩)))

theorem reachable_readyRun : Reachable plainCodec "session-1" FloorSafeStep (plainSystem readyRun) := by
  apply reachable_plainSystem
  simp [readyRun, openNow, perform, FloorSafeStep, FloorSafe]

theorem run_floorMoved : Run plainCodec "session-1" FloorSafeStep (plainSystem readyRun) floorMoved := by
  refine .step .refl (show (plainSystem readyRun).running = true by decide +kernel) ?_
  intro through cut hcommand hcut
  have hready : (plainSystem readyRun).world.relay.snapshot.checkpointReadyThrough = some 3 := by
    decide +kernel
  cases hcommand
  cases hready.symm.trans hcut
  decide

theorem journal_keeps_retained_events_of_moved_floor
    : ∃ base opened w' after, storedSnapshot plainCodec "session-1" floorMoved.world.disk = .ok base ∧
        openRelayJournal plainCodec base (floorMoved.world.recovered plainCodec [] calm)
          = (.ok opened, w') ∧
        opened.spans.flatMap (ownedEvents w'.disk.journal.files)
          = between w'.history after opened.snapshot.latestOrdinal := by
  obtain ⟨seed, memory, schedule, start, hstart, hpath⟩ := reachable_readyRun
  obtain ⟨base, opened, w', after, hstored, hopen, -, -, howned, -⟩ := journal_keeps_retained_events
    ⟨seed, memory, schedule, start, hstart, hpath.trans run_floorMoved⟩ (List.nil_sublist _) calm rfl rfl
  exact ⟨base, opened, w', after, hstored, hopen, howned⟩

-- The floor moves past the cut of a checkpoint that is ready, and back to it when it completes.
def floorRun : List Action :=
  readyRun.take 4 ++ [perform warn,
   perform (.acknowledge 4 (plainDigest 4)),
   perform (.submit "advance-1" (.advanceRecoveryFloor ⟨4, plainDigest 4⟩)),
   perform (.submit "complete-1" (.completeCheckpoint "barrier-1"))]

theorem journal_loses_events_below_ready_checkpoint
    : Reachable plainCodec "session-1" (fun _ _ => True) (plainSystem floorRun) ∧
      (storedSnapshot plainCodec "session-1" (plainSystem floorRun).world.disk).toOption.map
          (fun base => (base.retainedThrough, (openRelayJournal plainCodec base
            ((plainSystem floorRun).world.recovered plainCodec [] calm)).1.message?))
        = some (3, some "relay journal has a gap after event 3") := by
  refine ⟨reachable_plainSystem (fun _ _ _ => trivial), ?_⟩
  decide +kernel

end Journal

section Reopen

theorem openRelay_ok_iff (hid : isIdentifier sessionId)
    (h : Reachable codec sessionId (fun _ _ => True) sys)
    (hkept : kept.Sublist sys.world.disk.journal.pending) (schedule : Schedule)
    (hcrash : schedule.crashAfter = none) (hwrites : schedule.persistFails = [])
    (hw : sys.world.recovered codec kept schedule = w) (hroom : OpenRoom codec w.held)
    : ∃ base, storedSnapshot codec sessionId w.disk = .ok base ∧
        ((openRelay codec sessionId w).1 = .ok () ↔
          (∀ ordinal, base.retainedThrough < ordinal → ordinal ≤ w.held.latestOrdinal →
            Kept w.disk.journal.files ordinal) ∧ w.held.resumable) := by
  obtain ⟨origin, _, hsane⟩ := h.sane
  obtain ⟨base, hrestartable, _⟩ := hsane.recoverable.recovered hkept schedule
  rw [hw] at hrestartable
  refine ⟨base, hrestartable.durable.stored, ?_⟩
  have hcalm : w.Calm := by
    rw [← hw]
    exact ⟨hcrash, hwrites⟩
  have hlatest : w.held.latestOrdinal = frontierOf origin w.history :=
    hrestartable.durable.valid.latest_eq
  have hopens := openRelay_opens hrestartable hid
  unfold Covered at hopens
  rw [← hlatest] at hopens
  unfold Opens at hopens
  generalize openRelay codec sessionId w = result at hopens
  match result with
  | (.ok (), _) => exact ⟨fun _ => ⟨hopens.2.1, hopens.2.2 hroom⟩, fun _ => rfl⟩
  | (.error _, _) =>
    constructor
    . nofun
    . intro ⟨hcovered, hresumable⟩
      exact (hopens.2 ⟨hcalm, hcovered, hroom, hresumable⟩).elim
  | (.crash, _) => exact (hopens.2 hcalm).elim

def removeRun : List Action :=
  [openNow, perform (.submit "prompt-1" (.prompt [.null])),
   perform (.submit "prompt-2" (.prompt [.null])),
   .operate (.submit "remove-1" (.removeQueuedPrompt "prompt-2")) { calm with persistFails := [true] },
   perform (.claim true 1),
   perform (.completed "prompt-1" (.prompt "end_turn"))]

def queuedRemoval : World :=
  (plainSystem (removeRun.take 4)).world.recovered plainCodec [] calm

theorem openRelay_ok_iff_of_queued_removal
    : ∃ base, storedSnapshot plainCodec "session-1" queuedRemoval.disk = .ok base ∧
        (∀ ordinal, base.retainedThrough < ordinal → ordinal ≤ queuedRemoval.held.latestOrdinal →
          Kept queuedRemoval.disk.journal.files ordinal) ∧ queuedRemoval.held.resumable := by
  obtain ⟨base, hstored, hopens⟩ := openRelay_ok_iff rfl
    (reachable_plainSystem (fun _ _ _ => trivial)) (List.nil_sublist _) calm rfl rfl
    (show _ = queuedRemoval from rfl) (room_plainCodec (by decide +kernel))
  exact ⟨base, hstored, hopens.mp (by decide +kernel)⟩

-- A snapshot that is small enough for an append, and too large once it is indented.
def wideCodec : RelayCodec :=
  { plainCodec with
    snapshotLen := fun s => if s.latestOrdinal < 2 then 1 else RELAY_SNAPSHOT_BYTE_BUDGET
    snapshotPrettyLen := fun s => if s.latestOrdinal < 2 then 1 else RELAY_SNAPSHOT_BYTE_BUDGET + 1 }

def noticeRun : List Action :=
  [openNow, perform (.submit "prompt-1" (.prompt [.null])),
   perform (.submit "notice-1" (.recordNotice "text"))]

theorem openRelay_fails_on_started_removal
    : (openRelay plainCodec "session-1"
          ((plainSystem removeRun).world.recovered plainCodec [] calm)).1
        = .error "removed queue outcome does not match the durable queue" ∧
      (openRelay wideCodec "session-1"
          ((systemUnder wideCodec noticeRun).world.recovered wideCodec [] calm)).1
        = .error "relay snapshot is too large (16777217 bytes; maximum 16777216)" ∧
      Reachable plainCodec "session-1" (fun _ _ => True) (plainSystem removeRun) ∧
      Reachable wideCodec "session-1" (fun _ _ => True) (systemUnder wideCodec noticeRun) := by
  refine ⟨?_, ?_, reachable_plainSystem (fun _ _ _ => trivial),
    reachable_systemUnder (fun _ _ _ => trivial)⟩
  . decide +kernel
  . decide +kernel

end Reopen

end Hel
