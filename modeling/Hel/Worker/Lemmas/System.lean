import Hel.Worker.Impl.System
import Hel.Worker.Lemmas.Resume
import Hel.Worker.Lemmas.Seed

/-!
This module contains what holds of a relay over whole runs, across crashes and restarts.
-/

namespace Hel

open List

variable {codec : RelayCodec} {origin : Origin} {Accepts : RelaySnapshot → RelayCommand → Prop}
  {sessionId : String} {w : World} {claimed : List ClaimedRelayCommand}
  {Allowed : System → Action → Prop} {c c' : Chronicle} {accepted : Nat} {id : String}

section Execute

def Allows (Accepts : RelaySnapshot → RelayCommand → Prop) (guarded : Prop) (s : RelaySnapshot) :
    RelayOp → Prop
  | .submit id command =>
    s.handledCommands.get? id = none → Accepts s command ∧ (guarded → FloorSafe s command)
  | _ => True

theorem Does.silent {α : Type} {P : Prop} {Q : α → World → Prop} {x : RelayM α}
    (h : Does codec origin Accepts sessionId P Q w x)
    : Does codec origin Accepts sessionId P
        (fun claimed w' => HandsOut codec origin Accepts w.chronicle w'.chronicle claimed) w
        (x >>= fun _ => pure []) := by
  refine does_bind h ?_
  intro _ w' hadvanced _
  exact does_pure hadvanced.live (handsOut_nil hadvanced.evolves)

theorem reportClosed_does (h : Live codec origin sessionId w)
    : Sustains codec origin Accepts sessionId w (reportClosed codec) := by
  unfold reportClosed
  apply does_get_bind
  rw [h.snapshot]
  split
  next hclosed =>
    refine does_bind (recordObservation_closed_does h hclosed) ?_
    intro _ w' hadvanced _
    exact does_pure hadvanced.live trivial
  next => exact does_pure h trivial

theorem execute_does (h : Live codec origin sessionId w) (op : RelayOp)
    (hallows : Allows Accepts origin.guarded w.held op)
    : Does codec origin Accepts sessionId False
        (fun claimed w' => HandsOut codec origin Accepts w.chronicle w'.chronicle claimed) w
        (execute codec op) := by
  cases op with
  | submit id command =>
    exact (submitCommand_does h hallows).unpromised.silent
  | claim acpSessionConfigured maximum =>
    exact claimPendingCommandsUpTo_does h acpSessionConfigured maximum
  | claimUserShells maximumRuns =>
    exact (claimPendingUserShellCommandsUpTo_does h maximumRuns).mono (fun _ hfalse => hfalse)
      (fun _ _ _ hq => hq.1)
  | completed id outcome => exact (recordCommandCompleted_does h outcome).silent
  | rejected id message => exact (recordCommandEnded_does h message).1.silent
  | interrupted id message => exact (recordCommandEnded_does h message).2.silent
  | checkpointReady id => exact (recordCheckpointReady_does h).silent
  | cancelBarrier id => exact (cancelCheckpointBarrierOnDisconnect_does h).silent
  | observe observation fromAgent => exact (recordObservation_does h fromAgent).silent
  | reportClosed => exact (reportClosed_does h).silent
  | acknowledge ordinal digest => exact (acknowledge_does h ordinal digest).silent
  | installContext text => exact (installPromptContext_does h text).silent
  | attach ordinal digest => exact (attachRelay_does h ordinal digest).silent

end Execute

section Crash

variable {base : RelaySnapshot} {kept : List (DirectoryOp JournalFile JournalContent)}

theorem unsynced_apply {c : Chronicle} {event : RelayEvent} {next : RelaySnapshot}
    (h : Transition codec origin Accepts c { c with history := c.history ++ [event], held := next })
    : applyRelayEvent codec c.held event = .ok next := by
  generalize hc' : ({ c with history := c.history ++ [event], held := next } : Chronicle) = c' at h
  have hhistory : c'.history = c.history ++ [event] := by rw [← hc']
  have hheld : c'.held = next := by rw [← hc']
  cases h with
  | journal hgenuine hadm hpermitted happly =>
    simp only [append_cancel_left_eq, List.cons.injEq, and_true] at hhistory
    rw [← hhistory, ← hheld]
    exact happly
  | _ => simp at hhistory

theorem adoptSurvivor_eq_self (hr : Recorded codec origin w.history)
    (hlatest : w.held.latestOrdinal = frontierOf origin w.history) {floor : Nat}
    (hrep : JournalRep origin w.history floor w.disk.journal.files)
    : w.adoptSurvivor codec = w := by
  unfold World.adoptSurvivor
  split
  next event hlast =>
    rw [Option.bind_eq_some_iff] at hlast
    obtain ⟨content, hread, hlast⟩ := hlast
    obtain ⟨after, hactive⟩ := hrep.active content hread
    have hmem := mem_of_getLast? hlast
    rw [hactive.lines_eq, mem_map] at hmem
    obtain ⟨event', hevent', heq⟩ := hmem
    cases heq
    have hbounds := hr.numbered.bounds (mem_slice.mp hevent').1
    have hne : ¬ event.ordinal = w.held.latestOrdinal + 1 := by
      rw [hlatest]
      unfold frontierOf
      omega
    rw [if_neg hne]
  next => rfl

theorem Restartable.under (h : Restartable codec origin sessionId base w) (schedule : Schedule)
    : Restartable codec origin sessionId base (w.under schedule) :=
  ⟨h.durable.schedule schedule, h.settled, h.rep⟩

theorem Recoverable.recovered (h : Recoverable codec origin Accepts sessionId w)
    (hkept : kept.Sublist w.disk.journal.pending) (schedule : Schedule)
    : ∃ base, Restartable codec origin sessionId base (w.recovered codec kept schedule) ∧
        Evolves codec origin Accepts w.chronicle (w.recovered codec kept schedule).chronicle := by
  obtain ⟨base, hdurable⟩ := h.durable
  have hcrashed : Durable codec origin sessionId base (w.crashed kept) :=
    hdurable.congr rfl rfl rfl
  have hr : Recorded codec origin w.history := hdurable.valid.recorded
  have hlatest : w.held.latestOrdinal = frontierOf origin w.history := hdurable.valid.latest_eq
  refine ⟨base, ?_⟩
  rcases h.journal kept hkept with hrep | ⟨event, next, content, htransition, hrep, hactive, hlast⟩
  . have hself : (w.crashed kept).adoptSurvivor codec = w.crashed kept :=
      adoptSurvivor_eq_self hr hlatest hrep
    unfold World.recovered
    rw [hself]
    exact ⟨Restartable.under ⟨hcrashed, rfl, hrep⟩ schedule, .refl⟩
  have happly := unsynced_apply htransition
  obtain ⟨hordinal, _, _⟩ := ordinal_of_applyRelayEvent happly
  have hself : (w.crashed kept).adoptSurvivor codec
      = { w.crashed kept with history := w.history ++ [event], held := next } := by
    unfold World.adoptSurvivor
    have hread : ((w.crashed kept).disk.journal.read? .active).bind (·.lines.getLast?)
        = some (.record event) := by
      have hread' : (w.crashed kept).disk.journal.read? .active = some content := hactive
      rw [hread']
      exact hlast
    rw [hread]
    dsimp only
    have hpos : event.ordinal = (w.crashed kept).held.latestOrdinal + 1 := hordinal
    have happly' : applyRelayEvent codec (w.crashed kept).held event = .ok next := happly
    rw [if_pos hpos, happly']
    rfl
  unfold World.recovered
  rw [hself]
  refine ⟨Restartable.under ⟨?_, rfl, hrep⟩ schedule, .single htransition⟩
  have hordinal' : event.ordinal = frontierOf origin w.history + 1 := by
    rw [← hlatest]
    exact hordinal
  exact hcrashed.appended htransition hordinal' happly rfl rfl rfl

theorem Recoverable.weaken
    (h : Recoverable codec origin (fun _ _ => False) sessionId w)
    : Recoverable codec origin Accepts sessionId w := by
  refine ⟨h.durable, h.journal.mono ?_⟩
  rintro files (hrep | ⟨event, next, content, htransition, hrest⟩)
  . exact Or.inl hrep
  . exact Or.inr ⟨event, next, content, htransition.weaken, hrest⟩

end Crash

section Run

variable {sys sys' start : System} {action : Action}

def System.dispatched (sys : System) : List (String × Nat) :=
  (sys.handedOut.filter (!·.command.isClose)).map (fun claim =>
    (claim.commandId, claim.acceptedOrdinal))

structure Sane (codec : RelayCodec) (origin : Origin)
    (Accepts : RelaySnapshot → RelayCommand → Prop) (sessionId : String) (sys : System) :
    Prop where
  live : sys.running → Live codec origin sessionId sys.world
  recoverable : Recoverable codec origin Accepts sessionId sys.world
  reached : ∀ claim ∈ sys.handedOut,
    Reached 2 sys.world.held claim.commandId claim.acceptedOrdinal
  once : sys.dispatched.Nodup

def Permits (Accepts : RelaySnapshot → RelayCommand → Prop) (guarded : Prop) (sys : System) :
    Action → Prop
  | .operate op _ => Allows Accepts guarded sys.world.relay.snapshot op
  | _ => True

theorem Recoverable.valid {w : World} (h : Recoverable codec origin Accepts sessionId w)
    : w.chronicle.Valid codec origin := by
  obtain ⟨base, hdurable⟩ := h.durable
  exact hdurable.valid

theorem HandsOut.fresh (h : HandsOut codec origin Accepts c c' claimed) (hv : c.Valid codec origin)
    {rank : Nat} (hrank : 1 < rank) (hreached : Reached rank c.held id accepted)
    : ∀ claim ∈ claimed, claim.command.isClose = false ∨ rank = 3 →
        ¬ (claim.commandId = id ∧ claim.acceptedOrdinal = accepted) := by
  intro claim hmem hclose ⟨hid, haccepted⟩
  obtain ⟨c₁, hevolves, _, _, hclaims⟩ := h.eligible
  obtain ⟨⟨dispatch, handled, hd, hstate, hh, hordinal, _⟩, dispatch', hd', hcommand⟩ :=
    hclaims claim hmem
  cases hd.symm.trans hd'
  subst hid haccepted
  rw [← hcommand] at hclose
  have hle := (hevolves.reached hv hreached).2 dispatch handled hd hh hordinal hclose
  rw [hstate] at hle
  exact absurd hrank (Nat.not_lt.mpr hle)

theorem HandsOut.dispatched
    (h : HandsOut codec origin Accepts c c' claimed) (hv : c.Valid codec origin)
    {handedOut : List ClaimedRelayCommand}
    (hreached : ∀ claim ∈ handedOut, Reached 2 c.held claim.commandId claim.acceptedOrdinal)
    (honce : ((handedOut.filter (!·.command.isClose)).map (fun claim =>
      (claim.commandId, claim.acceptedOrdinal))).Nodup)
    : (((handedOut ++ claimed).filter (!·.command.isClose)).map (fun claim =>
        (claim.commandId, claim.acceptedOrdinal))).Nodup := by
  rw [filter_append, map_append, nodup_append]
  refine ⟨honce, ?_, ?_⟩
  . have hnodup : ((claimed.filter (!·.command.isClose)).map (·.commandId)).Nodup :=
      h.nodup.sublist (filter_sublist.map _)
    apply List.Nodup.of_map Prod.fst
    rw [map_map]
    exact hnodup
  intro a ha b hb heq
  obtain ⟨old, hold, rfl⟩ := mem_map.mp ha
  obtain ⟨claim, hclaim, rfl⟩ := mem_map.mp hb
  rw [mem_filter] at hold hclaim
  have hpair := Prod.mk.inj heq
  exact h.fresh hv Nat.one_lt_two (hreached old hold.1) claim hclaim.1 (by simpa using hclaim.2)
    ⟨hpair.1.symm, hpair.2.symm⟩

structure Proceeds (codec : RelayCodec) (origin : Origin)
    (Accepts : RelaySnapshot → RelayCommand → Prop) (sys sys' : System) : Prop where
  evolves : Evolves codec origin Accepts sys.world.chronicle sys'.world.chronicle
  claims : ∃ claimed, sys'.handedOut = sys.handedOut ++ claimed ∧
    HandsOut codec origin Accepts sys.world.chronicle sys'.world.chronicle claimed

theorem Proceeds.quietly
    (h : Evolves codec origin Accepts sys.world.chronicle sys'.world.chronicle)
    (hsame : sys'.handedOut = sys.handedOut) : Proceeds codec origin Accepts sys sys' :=
  ⟨h, [], by rw [hsame, append_nil], handsOut_nil h⟩

theorem Sane.operate (h : Sane codec origin Accepts sessionId sys) (hrunning : sys.running)
    (op : RelayOp) (schedule : Schedule)
    (hallows : Allows Accepts origin.guarded sys.world.relay.snapshot op)
    : Sane codec origin Accepts sessionId
          (sys.operated (execute codec op (sys.world.under schedule))) ∧
        Proceeds codec origin Accepts sys
          (sys.operated (execute codec op (sys.world.under schedule))) := by
  have hlive := (h.live hrunning).schedule schedule
  have hvalid : sys.world.chronicle.Valid codec origin := hlive.valid
  have hallows' : Allows Accepts origin.guarded sys.world.held op := by
    rw [← (h.live hrunning).snapshot]
    exact hallows
  have hdoes := execute_does hlive op hallows'
  unfold Does at hdoes
  unfold World.under
  generalize execute codec op { sys.world with schedule := schedule } = result at hdoes
  have hkept : ∀ {held : RelaySnapshot} {history : List RelayEvent} {collected : Nat},
      Evolves codec origin Accepts sys.world.chronicle ⟨history, held, collected⟩ →
      ∀ claim ∈ sys.handedOut, Reached 2 held claim.commandId claim.acceptedOrdinal :=
    fun hevolves claim hmem => hevolves.reached hvalid (h.reached claim hmem)
  match result with
  | (.ok claimed, w') =>
    obtain ⟨hadvanced, hclaimed⟩ := hdoes
    refine ⟨⟨fun _ => hadvanced.live, hadvanced.live.toConsistent.recoverable, ?_, ?_⟩,
      ⟨hadvanced.evolves, claimed, rfl, hclaimed⟩⟩
    . exact forall_mem_append.mpr ⟨hkept hadvanced.evolves, hclaimed.reached⟩
    . exact hclaimed.dispatched hvalid h.reached h.once
  | (.error _, w') =>
    exact ⟨⟨fun _ => hdoes.live, hdoes.live.toConsistent.recoverable, hkept hdoes.evolves, h.once⟩,
      .quietly hdoes.evolves rfl⟩
  | (.crash, w') =>
    exact ⟨⟨fun hfalse => (Bool.false_ne_true hfalse).elim, hdoes.recoverable,
      hkept hdoes.evolves, h.once⟩, .quietly hdoes.evolves rfl⟩

theorem openRelay_opens_always {w : World} {base : RelaySnapshot}
    (h : Restartable codec origin sessionId base w)
    : Opens codec origin (fun _ _ => False) sessionId False (fun _ _ => True) w
        (openRelay codec sessionId) := by
  by_cases hid : isIdentifier sessionId
  . exact (openRelay_opens h hid).mono (fun _ hfalse => hfalse.elim) (fun _ _ _ _ => trivial)
  unfold openRelay validateIdentifier
  rw [if_neg hid]
  exact ⟨h.shut rfl, fun ⟨_, hfalse⟩ => hfalse⟩

theorem Sane.reopen (h : Sane codec origin Accepts sessionId sys)
    {kept : List (DirectoryOp JournalFile JournalContent)}
    (hkept : kept.Sublist sys.world.disk.journal.pending) (schedule : Schedule)
    : Sane codec origin Accepts sessionId
          (sys.opened (openRelay codec sessionId (sys.world.recovered codec kept schedule))) ∧
        Proceeds codec origin Accepts sys
          (sys.opened (openRelay codec sessionId (sys.world.recovered codec kept schedule))) := by
  have hvalid := h.recoverable.valid
  obtain ⟨base, hrestartable, hevolves⟩ := h.recoverable.recovered hkept schedule
  have hopens := openRelay_opens_always hrestartable
  unfold Opens at hopens
  generalize openRelay codec sessionId (sys.world.recovered codec kept schedule) = result at hopens
  have hreached : ∀ {w' : World}, Evolves codec origin (fun _ _ => False)
        (sys.world.recovered codec kept schedule).chronicle w'.chronicle →
      Evolves codec origin Accepts sys.world.chronicle w'.chronicle ∧
      ∀ claim ∈ sys.handedOut, Reached 2 w'.held claim.commandId claim.acceptedOrdinal := by
    intro w' hopened
    have hall : Evolves codec origin Accepts sys.world.chronicle w'.chronicle :=
      hevolves.trans hopened.weaken
    exact ⟨hall, fun claim hmem => hall.reached hvalid (h.reached claim hmem)⟩
  match result with
  | (.ok (), w') =>
    obtain ⟨hadvanced, _⟩ := hopens
    obtain ⟨hall, hclaims⟩ := hreached hadvanced.evolves
    exact ⟨⟨fun _ => hadvanced.live, hadvanced.live.toConsistent.recoverable, hclaims, h.once⟩,
      .quietly hall rfl⟩
  | (.error _, w') | (.crash, w') =>
    obtain ⟨hshut, _⟩ := hopens
    obtain ⟨hall, hclaims⟩ := hreached hshut.evolves
    exact ⟨⟨fun hfalse => (Bool.false_ne_true hfalse).elim, hshut.recoverable.weaken, hclaims,
      h.once⟩, .quietly hall rfl⟩

theorem Sane.next (h : Sane codec origin Accepts sessionId sys)
    (henabled : sys.enabled action) (hpermits : Permits Accepts origin.guarded sys action)
    : Sane codec origin Accepts sessionId (sys.next codec sessionId action) ∧
        Proceeds codec origin Accepts sys (sys.next codec sessionId action) := by
  cases action with
  | operate op schedule => exact h.operate henabled op schedule hpermits
  | stop =>
    refine ⟨⟨?_, h.recoverable, h.reached, h.once⟩, .quietly .refl rfl⟩
    nofun
  | reopen kept schedule =>
    simp only [System.enabled, Bool.and_eq_true, isSublist_iff_sublist] at henabled
    exact h.reopen henabled.2 schedule

theorem Run.sane (hrun : Run codec sessionId Allowed start sys)
    (hallowed : ∀ sys action, Allowed sys action → Permits Accepts origin.guarded sys action)
    (h : Sane codec origin Accepts sessionId start)
    : Sane codec origin Accepts sessionId sys ∧
        Evolves codec origin Accepts start.world.chronicle sys.world.chronicle := by
  induction hrun with
  | refl => exact ⟨h, .refl⟩
  | step _ henabled hok ih =>
    obtain ⟨hsane, hevolves⟩ := ih
    obtain ⟨hsane', hproceeds⟩ := hsane.next henabled (hallowed _ _ hok)
    exact ⟨hsane', hevolves.trans hproceeds.evolves⟩

theorem Run.settled (hrun : Run codec sessionId Allowed start sys)
    (hallowed : ∀ sys action, Allowed sys action → Permits Accepts origin.guarded sys action)
    (h : Sane codec origin Accepts sessionId start)
    (hreached : Reached 3 start.world.held id accepted)
    : ∃ claimed, sys.handedOut = start.handedOut ++ claimed ∧
        ∀ claim ∈ claimed, ¬ (claim.commandId = id ∧ claim.acceptedOrdinal = accepted) := by
  induction hrun with
  | refl => exact ⟨[], by rw [append_nil], by simp⟩
  | step hpath henabled hok ih =>
    obtain ⟨claimed, hclaimed, hfresh⟩ := ih
    obtain ⟨hsane, hevolves⟩ := hpath.sane hallowed h
    obtain ⟨_, hproceeds⟩ := hsane.next henabled (hallowed _ _ hok)
    obtain ⟨claimed', hclaimed', hands⟩ := hproceeds.claims
    refine ⟨claimed ++ claimed', by rw [hclaimed', hclaimed, append_assoc], ?_⟩
    have hreached' := hevolves.reached h.recoverable.valid hreached
    rw [forall_mem_append]
    refine ⟨hfresh, fun claim hclaim => ?_⟩
    exact hands.fresh hsane.recoverable.valid (by decide) hreached' claim hclaim (Or.inr rfl)

theorem Run.trans {sys sys' sys'' : System} (h : Run codec sessionId Allowed sys sys')
    (h' : Run codec sessionId Allowed sys' sys'') : Run codec sessionId Allowed sys sys'' := by
  induction h' with
  | refl => exact h
  | step _ henabled hok ih => exact .step ih henabled hok

theorem run_of_follow {actions : List Action} (h : sys.follow codec sessionId actions = some sys')
    (hallowed : ∀ action ∈ actions, ∀ sys, Allowed sys action)
    : Run codec sessionId Allowed sys sys' := by
  induction actions generalizing sys with
  | nil =>
    rw [System.follow, Option.some.injEq] at h
    rw [h]
    exact .refl
  | cons action rest ih =>
    rw [System.follow] at h
    split at h
    next henabled =>
      apply Run.trans (.step .refl henabled (hallowed action (by simp) sys))
      exact ih h (fun action hmem => hallowed action (mem_cons_of_mem _ hmem))
    next => cases h

theorem follow_append (sys : System) (first second : List Action)
    : sys.follow codec sessionId (first ++ second)
        = (sys.follow codec sessionId first).bind (·.follow codec sessionId second) := by
  induction first generalizing sys with
  | nil => rfl
  | cons action rest ih =>
    rw [cons_append, System.follow, System.follow]
    split
    . apply ih
    . rfl

theorem initial_sane (guarded : Prop) {seed : Option RestoredRelaySeed} {memory : DurableRelay}
    {schedule : Schedule} (h : System.initial sessionId seed memory schedule = .ok start)
    : ∃ origin : Origin, origin.guarded = guarded ∧ Sane codec origin Accepts sessionId start ∧
        start.world.history = [] ∧ start.world.collected = origin.ordinal ∧
        AtOrigin sessionId origin start.world.held := by
  unfold System.initial at h
  split at h
  . cases h
  rename_i snapshot hsnapshot
  cases h
  obtain ⟨origin, hguarded, hat⟩ := atOrigin_initialSnapshot guarded hsnapshot
  have hlatest := (Prod.mk.inj hat.latest).1
  have hvalid : Chronicle.Valid codec _ _ := hat.valid
  refine ⟨origin, hguarded, ⟨fun hfalse => (Bool.false_ne_true hfalse).elim, ?_, ?_, nodup_nil⟩, rfl,
    hlatest, hat⟩
  . refine ⟨⟨snapshot, ?_⟩, ?_⟩
    . constructor
      . rw [← hlatest] at hvalid
        exact hvalid
      . exact hat.identity
      . exact hsnapshot
      . exact hvalid.frontiers
      . rfl
      . exact Nat.le_refl _
      . exact Nat.le_of_eq hlatest.symm
      . rw [← hlatest] at hvalid
        exact hvalid.kept
      . exact fun _ => Nat.le_refl _
    . refine Directory.survives_of_pending_nil rfl (Or.inl ⟨?_, ?_, ?_⟩)
      . nofun
      . nofun
      intro ordinal hlow hhigh
      dsimp only [frontierOf] at hlow hhigh
      simp only [length_nil] at hhigh
      omega
  . nofun

end Run

end Hel
