import Hel.Daemon.Impl.Lifecycle
import Hel.Data.Machine

/-!
This module contains when the operations of the daemon exclude each other.
-/

namespace Hel

open List

namespace Job

def mark (job : Job) : Option (String × Nat) :=
  job.feed?.map (job.session, ·)

@[simp]
theorem session_tell (told : Job → Bool) (job : Job) : (job.tell told).session = job.session := by
  unfold tell
  split <;> rfl

@[simp]
theorem operation_tell (told : Job → Bool) (job : Job)
    : (job.tell told).operation = job.operation := by
  unfold tell
  split <;> rfl

@[simp]
theorem mark_tell (told : Job → Bool) (job : Job) : (job.tell told).mark = job.mark := by
  simp [mark, feed?]

end Job

def DaemonStep.starts : DaemonStep → Option String
  | .request asked => some asked.session
  | .create session => some session
  | .direct session _ => some session
  | .phoneNew session => some session
  | _ => none

namespace Daemon

variable {d t : Daemon} {session : String} {kind : LifecycleKind} {step : DaemonStep}

def marks (d : Daemon) : List (String × Nat) :=
  d.jobs.filterMap Job.mark

def sessions (d : Daemon) : List String :=
  d.jobs.map Job.session

def Settled (d : Daemon) (session : String) : Prop :=
  ∀ active, d.lifecycle.get? session = some active → d.result active ≠ none

structure Frames (d t : Daemon) : Prop where
  feeds : t.feeds = d.feeds
  nextFeed : t.nextFeed = d.nextFeed
  entry : ∀ session active, t.lifecycle.get? session = some active →
    d.lifecycle.get? session = some active
  kept : ∀ session active, d.lifecycle.get? session = some active → d.result active = none →
    t.lifecycle.get? session = some active

theorem Frames.of_eq (hfeeds : t.feeds = d.feeds) (hnext : t.nextFeed = d.nextFeed)
    (hlifecycle : t.lifecycle = d.lifecycle) : Frames d t := by
  refine ⟨hfeeds, hnext, ?_, ?_⟩
  . intro session active h
    rwa [← hlifecycle]
  . intro session active h _
    rwa [hlifecycle]

structure Enters (d : Daemon) (session : String) (kind : LifecycleKind) (t : Daemon) : Prop where
  settled : Settled d session
  lifecycle : ∀ other, t.lifecycle.get? other
    = if other = session then some { kind := kind, feed := d.nextFeed } else d.lifecycle.get? other
  feeds : t.feeds = Function.update d.feeds d.nextFeed {}
  nextFeed : t.nextFeed = d.nextFeed + 1
  jobs : t.jobs = { session := session, operation := .lifecycle d.nextFeed } :: d.jobs
  stage : t.stage = d.stage
  phoneSessions : t.phoneSessions = d.phoneSessions
  observed : t.observed = d.observed
  copies : t.copies = d.copies

theorem startOrJoinLifecycle_cases {feed : Nat}
    (h : d.startOrJoinLifecycle session kind = .ok (feed, t))
    : t = d ∨ Enters d session kind t ∧ t.known = d.known := by
  unfold startOrJoinLifecycle at h
  cases hget : d.lifecycle.get? session with simp only [hget] at h
  | none =>
    cases h
    exact .inr ⟨⟨by simp [Settled, hget], fun _ => BTreeMap.get?_insert _ _ _ _, rfl, rfl, rfl,
      rfl, rfl, rfl, rfl⟩, rfl⟩
  | some active =>
    by_cases hdone : active.kind ≠ kind ∧ (d.result active).isSome
    . simp only [if_pos hdone, BTreeMap.get?_remove, if_true] at h
      cases h
      refine .inr ⟨⟨?_, ?_, rfl, rfl, rfl, rfl, rfl, rfl, rfl⟩, rfl⟩
      . intro other hother hnone
        rw [hget] at hother
        cases hother
        simp [hnone] at hdone
      . intro other
        simp only [BTreeMap.get?_insert, BTreeMap.get?_remove]
        split <;> rfl
    . simp only [if_neg hdone, hget] at h
      split at h
      next => exact .inl (by cases h; rfl)
      next => cases h

inductive Effect (d : Daemon) (step : DaemonStep) (t : Daemon) : Prop where
  | keeps (hframe : Frames d t) (hmarks : t.marks = d.marks)
      (hsessions : t.sessions.Sublist d.sessions) (hknown : d.known ⊆ t.known)
  | adds (session : String) (operation : Operation) (hstarts : step.starts = some session)
      (hframe : Frames d t) (hjobs : t.jobs = { session := session, operation := operation } :: d.jobs)
      (hoperation : ∀ feed, operation ≠ .lifecycle feed)
      (hfree : (∀ session, Settled d session) ∨ session ∉ d.known)
      (hknown : t.known = session :: d.known)
  | enters (session : String) (kind : LifecycleKind) (hstarts : step.starts = some session)
      (henters : Enters d session kind t) (hknown : t.known = session :: d.known)
  | finishes (job : Job) (result : Option (Except String Unit)) (hstep : step = .finish job result)
      (hmem : job ∈ d.jobs) (ht : t = d.finish job result)

theorem Effect.of_tell {told : Job → Bool} (hfeeds : t.feeds = d.feeds)
    (hnext : t.nextFeed = d.nextFeed) (hlifecycle : t.lifecycle = d.lifecycle)
    (hjobs : t.jobs = d.jobs.map (Job.tell told)) (hknown : t.known = d.known)
    : Effect d step t := by
  refine .keeps (Frames.of_eq hfeeds hnext hlifecycle) ?_ ?_ ?_
  . simp [marks, hjobs, filterMap_map]
  . simp [sessions, hjobs, Function.comp_def]
  . rw [hknown]
    exact fun _ h => h

theorem Effect.of_eq (hfeeds : t.feeds = d.feeds) (hnext : t.nextFeed = d.nextFeed)
    (hlifecycle : t.lifecycle = d.lifecycle) (hjobs : t.jobs = d.jobs) (hknown : t.known = d.known)
    : Effect d step t := by
  have htold : t.jobs = d.jobs.map (Job.tell fun _ => false) := hjobs.trans (map_id _).symm
  exact .of_tell hfeeds hnext hlifecycle htold hknown

theorem startAndWait_effect {asked : List Request} (hstarts : step.starts = some session)
    : Effect d step (startAndWait { d with asked := asked } session kind) := by
  unfold startAndWait
  split
  next feed t h =>
    rcases startOrJoinLifecycle_cases h with rfl | ⟨henters, hknown⟩
    . refine .keeps (Frames.of_eq rfl rfl rfl) rfl (List.Sublist.refl _) ?_
      exact subset_cons_self _ _
    . exact .enters session kind hstarts { henters with } (congrArg _ hknown)
  next => exact .of_eq rfl rfl rfl rfl rfl

theorem ensureNoActiveLifecycle_settled (h : d.ensureNoActiveLifecycle = .ok ())
    (session : String) : Settled d session := by
  intro active hget hnone
  have hany : d.lifecycle.values.any (fun active => (d.result active).isNone) = true := by
    rw [any_eq_true]
    refine ⟨active, ?_, by rw [hnone]; rfl⟩
    exact mem_map_of_mem (BTreeMap.mem_entries_iff.mpr hget)
  rw [ensureNoActiveLifecycle, if_pos hany] at h
  cases h

theorem removeCompletedLifecycle_frames (feed : Nat) (waiters : List Nat)
    : Frames d { d.removeCompletedLifecycle feed with waiters := waiters } := by
  refine ⟨rfl, rfl, ?_, ?_⟩
  . intro session active h
    simp only [removeCompletedLifecycle, BTreeMap.get?_sweep, Option.filter_eq_some_iff] at h
    exact h.1
  . intro session active h hnone
    simp [removeCompletedLifecycle, BTreeMap.get?_sweep, h, Option.filter, hnone]

theorem next_effect (h : d.next step = some t) : Effect d step t := by
  cases step with simp only [next, Option.ite_none_right_eq_some] at h
  | request request =>
    cases h.2
    exact startAndWait_effect rfl
  | save session state | passOver =>
    cases h
    exact .of_eq rfl rfl rfl rfl rfl
  | exit | joinPhone told | cancelLifecycles =>
    cases h.2
    exact .of_tell rfl rfl rfl rfl rfl
  | ask request | load request | loadFails request | phoneDone session | observe session
  | copy session | copyDone session cancelled | stop | joinRecoveries | dropRecovery
  | shutDownManager =>
    cases h.2
    exact .of_eq rfl rfl rfl rfl rfl
  | create session =>
    obtain ⟨-, h⟩ := h
    split at h <;> cases h
    rename_i feed t hstart
    rcases startOrJoinLifecycle_cases hstart with rfl | ⟨henters, hknown⟩
    . exact .keeps (Frames.of_eq rfl rfl rfl) rfl (List.Sublist.refl _) (subset_cons_self _ _)
    . exact .enters session .create rfl { henters with } (congrArg _ hknown)
  | waitCreate session =>
    split at h
    next active hget =>
      rw [Option.ite_none_right_eq_some] at h
      cases h.2
      exact .of_eq rfl rfl rfl rfl rfl
    next => cases h
  | direct session action =>
    obtain ⟨-, h⟩ := h
    split at h <;> cases h
    next hactive =>
      exact .adds session (.direct action) rfl (Frames.of_eq rfl rfl rfl) rfl nofun
        (.inl (ensureNoActiveLifecycle_settled hactive)) rfl
    next => exact .of_eq rfl rfl rfl rfl rfl
  | answer feed =>
    cases h.2
    exact .keeps (removeCompletedLifecycle_frames feed _) rfl (List.Sublist.refl _) (fun _ h => h)
  | phone session =>
    simp only [admitPhoneAction, Option.ite_none_right_eq_some] at h
    cases h.2.2
    exact .of_eq rfl rfl rfl rfl rfl
  | phoneNew session =>
    simp only [admitPhoneAction, Option.ite_none_right_eq_some, Option.map_eq_some_iff] at h
    obtain ⟨⟨-, hfresh⟩, admitted, ⟨-, hadmitted⟩, ht⟩ := h
    cases hadmitted
    cases ht
    exact .adds session .phoneNew rfl (Frames.of_eq rfl rfl rfl) rfl nofun (.inr hfresh) rfl
  | finish job result =>
    cases h.2
    exact .finishes job result rfl h.1 rfl
  | joinClients blocking =>
    cases h.2
    refine .keeps (Frames.of_eq rfl rfl rfl) ?_ ?_ (fun _ h => h)
    . simp only [marks, filterMap_filter]
      apply filterMap_congr
      intro job _
      cases hoperation : job.operation <;> simp [Job.mark, Job.feed?, hoperation]
    . exact (filter_sublist).map _
  | awaitLifecycle =>
    split at h
    next =>
      cases h
      exact .of_eq rfl rfl rfl rfl rfl
    next feed rest _ =>
      split at h
      next =>
        cases h
        exact .of_eq rfl rfl rfl rfl rfl
      rw [Option.ite_none_right_eq_some] at h
      cases h.2
      exact .of_eq rfl rfl rfl rfl rfl
    next => cases h

/-- Each lifecycle operation that runs is the one whose result its entry of the map waits for. -/
structure Tracked (d : Daemon) : Prop where
  distinct : (d.marks.map Prod.snd).Nodup
  entered : ∀ session feed, (session, feed) ∈ d.marks →
    (∃ kind, d.lifecycle.get? session = some { kind := kind, feed := feed })
      ∧ (d.feeds feed).result = none
  alive : ∀ session active, d.lifecycle.get? session = some active → d.result active = none →
    (session, active.feed) ∈ d.marks
  fresh : ∀ session active, d.lifecycle.get? session = some active → active.feed < d.nextFeed
  apart : ∀ session session' active active', d.lifecycle.get? session = some active →
    d.lifecycle.get? session' = some active' → active.feed = active'.feed → session = session'

theorem Tracked.frames (h : Tracked d) (hframe : Frames d t) (hmarks : t.marks = d.marks)
    : Tracked t := by
  refine ⟨by rw [hmarks]; exact h.distinct, ?_, ?_, ?_, ?_⟩
  . intro session feed hmem
    rw [hmarks] at hmem
    obtain ⟨⟨kind, hget⟩, hnone⟩ := h.entered session feed hmem
    exact ⟨⟨kind, hframe.kept _ _ hget hnone⟩, by rw [hframe.feeds]; exact hnone⟩
  . intro session active hget hnone
    rw [hmarks]
    rw [result, hframe.feeds] at hnone
    exact h.alive session active (hframe.entry _ _ hget) hnone
  . intro session active hget
    rw [hframe.nextFeed]
    exact h.fresh session active (hframe.entry _ _ hget)
  . intro session session' active active' hget hget'
    exact h.apart session session' active active' (hframe.entry _ _ hget) (hframe.entry _ _ hget')

theorem Tracked.enters (h : Tracked d) (henters : Enters d session kind t) : Tracked t := by
  have hmarks : t.marks = (session, d.nextFeed) :: d.marks := by
    simp [marks, henters.jobs, Job.mark, Job.feed?]
  have hbelow {other feed} (hmem : (other, feed) ∈ d.marks) : feed < d.nextFeed := by
    obtain ⟨⟨kind, hget⟩, -⟩ := h.entered other feed hmem
    exact h.fresh _ _ hget
  have hother {other active} (hget : t.lifecycle.get? other = some active)
      : other = session ∧ active.feed = d.nextFeed
        ∨ other ≠ session ∧ d.lifecycle.get? other = some active ∧ active.feed < d.nextFeed := by
    rw [henters.lifecycle] at hget
    split at hget
    next heq =>
      cases hget
      exact .inl ⟨heq, rfl⟩
    next hne => exact .inr ⟨hne, hget, h.fresh _ _ hget⟩
  refine ⟨?_, ?_, ?_, ?_, ?_⟩
  . rw [hmarks, map_cons, nodup_cons]
    refine ⟨?_, h.distinct⟩
    intro hmem
    obtain ⟨⟨other, feed⟩, hmem, rfl⟩ := mem_map.mp hmem
    exact absurd (hbelow hmem) (lt_irrefl _)
  . intro other feed hmem
    rw [hmarks, mem_cons] at hmem
    rcases hmem with heq | hmem
    . cases heq
      exact ⟨⟨kind, by rw [henters.lifecycle, if_pos rfl]⟩, by simp [henters.feeds]⟩
    obtain ⟨⟨kind, hget⟩, hnone⟩ := h.entered other feed hmem
    have hne : other ≠ session := by
      rintro rfl
      exact henters.settled _ hget hnone
    rw [henters.lifecycle, if_neg hne, henters.feeds,
      Function.update_of_ne (Nat.ne_of_lt (hbelow hmem))]
    exact ⟨⟨kind, hget⟩, hnone⟩
  . intro other active hget hnone
    rw [hmarks, mem_cons]
    rcases hother hget with ⟨rfl, hfeed⟩ | ⟨_, hget, hlt⟩
    . exact .inl (by rw [hfeed])
    right
    rw [result, henters.feeds, Function.update_of_ne (Nat.ne_of_lt hlt)] at hnone
    exact h.alive other active hget hnone
  . intro other active hget
    rw [henters.nextFeed]
    rcases hother hget with ⟨-, hfeed⟩ | ⟨-, -, hlt⟩ <;> omega
  . intro one two active active' hone htwo hfeed
    rcases hother hone with ⟨rfl, hone⟩ | ⟨_, hone, hlt⟩
      <;> rcases hother htwo with ⟨rfl, htwo⟩ | ⟨_, htwo, hlt'⟩
    . rfl
    . omega
    . omega
    . exact h.apart _ _ _ _ hone htwo hfeed

theorem Tracked.finish {job : Job} {outcome : Option (Except String Unit)} (h : Tracked d)
    (hmem : job ∈ d.jobs) (hreturns : job.feed?.isSome → outcome.isSome)
    : Tracked (d.finish job outcome) := by
  have hperm : d.marks.Perm (job.mark.toList ++ (d.finish job outcome).marks) := by
    have hjobs := (perm_cons_erase hmem).filterMap Job.mark
    rw [filterMap_cons] at hjobs
    cases hmark : job.mark <;> simpa [hmark, marks, Daemon.finish] using hjobs
  cases hfeed : job.feed? with
  | none =>
    have hfeeds : (d.finish job outcome).feeds = d.feeds := by
      simp [Daemon.finish, hfeed]
    have hperm : d.marks.Perm (d.finish job outcome).marks := by
      simpa [Job.mark, hfeed] using hperm
    refine ⟨(hperm.map _).nodup_iff.mp h.distinct, ?_, ?_, h.fresh, h.apart⟩
    . intro session feed hmem
      rw [hfeeds]
      exact h.entered session feed (hperm.mem_iff.mpr hmem)
    intro session active hget hnone
    rw [result, hfeeds] at hnone
    exact hperm.mem_iff.mp (h.alive session active hget hnone)
  | some feed =>
  obtain ⟨value, rfl⟩ := Option.isSome_iff_exists.mp (hreturns (by rw [hfeed]; rfl))
  have hfeeds : (d.finish job (some value)).feeds
      = Function.update d.feeds feed { result := some value, closed := true } := by
    simp [Daemon.finish, hfeed]
  have hperm : d.marks.Perm ((job.session, feed) :: (d.finish job (some value)).marks) := by
    simpa [Job.mark, hfeed] using hperm
  have hdistinct := (hperm.map Prod.snd).nodup_iff.mp h.distinct
  rw [map_cons, nodup_cons] at hdistinct
  have hne {other feed'} (hmem : (other, feed') ∈ (d.finish job (some value)).marks)
      : feed' ≠ feed := by
    rintro rfl
    exact hdistinct.1 (mem_map.mpr ⟨_, hmem, rfl⟩)
  refine ⟨hdistinct.2, ?_, ?_, h.fresh, h.apart⟩
  . intro other feed' hmem
    rw [hfeeds, Function.update_of_ne (hne hmem)]
    exact h.entered other feed' (hperm.mem_iff.mpr (mem_cons_of_mem _ hmem))
  intro other active hget hnone
  rw [result, hfeeds] at hnone
  by_cases heq : active.feed = feed
  . simp [heq] at hnone
  rw [Function.update_of_ne heq] at hnone
  have hmem := hperm.mem_iff.mp (h.alive other active hget hnone)
  rcases mem_cons.mp hmem with hhead | hmem
  . exact absurd (congrArg Prod.snd hhead) heq
  . exact hmem

def Returns (_ : Daemon) : DaemonStep → Prop
  | .finish job result => job.feed?.isSome → result.isSome
  | _ => True

theorem marks_adds {operation : Operation} (hoperation : ∀ feed, operation ≠ .lifecycle feed)
    (hjobs : t.jobs = { session := session, operation := operation } :: d.jobs)
    : t.marks = d.marks := by
  rw [marks, hjobs, filterMap_cons]
  cases operation with
  | lifecycle feed => exact absurd rfl (hoperation feed)
  | direct | phoneNew | interruptedClose => rfl

theorem Tracked.next (h : Tracked d) (hreturns : Returns d step) (hnext : d.next step = some t)
    : Tracked t := by
  cases next_effect hnext with
  | keeps hframe hmarks _ _ => exact h.frames hframe hmarks
  | adds session operation _ hframe hjobs hoperation _ _ =>
    exact h.frames hframe (marks_adds hoperation hjobs)
  | enters session kind _ henters _ => exact h.enters henters
  | finishes job result hstep hmem ht =>
    subst hstep
    subst ht
    exact h.finish hmem hreturns

theorem tracked_start (recoveries : List String) : Tracked (start recoveries) := by
  have hmarks : (start recoveries).marks = [] := by
    simp [start, marks, Job.mark, Job.feed?]
  refine ⟨by simp [hmarks], by simp [hmarks], ?_, ?_, ?_⟩ <;> intros <;> contradiction

/--
No lifecycle operation panics, and nothing is asked of a session while an operation that is not in
the map runs on it.
-/
def Orderly (d : Daemon) (step : DaemonStep) : Prop :=
  Returns d step
    ∧ ∀ session, step.starts = some session → ∀ job ∈ d.jobs, job.session = session →
      job.feed?.isSome

structure Alone (d : Daemon) : Prop where
  tracked : Tracked d
  alone : d.sessions.Nodup
  known : d.sessions ⊆ d.known

theorem Alone.not_mem (h : Alone d) (horderly : Orderly d step) (hstarts : step.starts = some session)
    (hsettled : Settled d session) : session ∉ d.sessions := by
  intro hmem
  obtain ⟨job, hmem, hsession⟩ := mem_map.mp hmem
  obtain ⟨feed, hfeed⟩ := Option.isSome_iff_exists.mp (horderly.2 session hstarts job hmem hsession)
  have hmark : (session, feed) ∈ d.marks :=
    mem_filterMap.mpr ⟨job, hmem, by simp [Job.mark, hfeed, hsession]⟩
  obtain ⟨⟨kind, hget⟩, hnone⟩ := h.tracked.entered session feed hmark
  exact hsettled _ hget hnone

theorem Alone.cons {job : Job} (h : Alone d) (htracked : Tracked t) (hjobs : t.jobs = job :: d.jobs)
    (hfree : job.session ∉ d.sessions) (hknown : t.known = job.session :: d.known) : Alone t := by
  have hsessions : t.sessions = job.session :: d.sessions := by
    rw [sessions, hjobs, map_cons, sessions]
  refine ⟨htracked, ?_, ?_⟩
  . rw [hsessions, nodup_cons]
    exact ⟨hfree, h.alone⟩
  . rw [hsessions, hknown]
    exact cons_subset_cons _ h.known

theorem Alone.next (h : Alone d) (horderly : Orderly d step) (hnext : d.next step = some t)
    : Alone t := by
  have htracked := h.tracked.next horderly.1 hnext
  cases next_effect hnext with
  | keeps _ _ hsessions hknown =>
    exact ⟨htracked, hsessions.nodup h.alone, fun _ hmem => hknown (h.known (hsessions.subset hmem))⟩
  | adds session operation hstarts _ hjobs _ hfree hknown =>
    refine h.cons htracked hjobs ?_ hknown
    rcases hfree with hsettled | hfresh
    . exact h.not_mem horderly hstarts (hsettled session)
    . exact fun hmem => hfresh (h.known hmem)
  | enters session kind hstarts henters hknown =>
    exact h.cons htracked henters.jobs (h.not_mem horderly hstarts henters.settled) hknown
  | finishes job result hstep hmem ht =>
    have hsessions : t.sessions.Sublist d.sessions := by
      rw [ht]
      exact (erase_sublist).map _
    refine ⟨htracked, hsessions.nodup h.alone, ?_⟩
    rw [ht]
    exact fun _ hmem => h.known ((erase_sublist).map _ |>.subset hmem)

def Clear (d : Daemon) (session : String) (kind : LifecycleKind) : Prop :=
  ∀ active, d.lifecycle.get? session = some active → active.kind ≠ kind

def Starts (d : Daemon) (steps : List DaemonStep) (session : String) : Prop :=
  ∃ t, Machine.follow next d steps = some t ∧ session ∈ t.sessions

def handling (request : Request) : List DaemonStep :=
  [.ask request, .load request, .request { request with loaded := true }]

theorem settled_of_not_mem (h : Tracked d) (hfree : session ∉ d.sessions) : Settled d session := by
  intro active hget hnone
  apply hfree
  obtain ⟨job, hmem, hmark⟩ := mem_filterMap.mp (h.alive session active hget hnone)
  obtain ⟨feed, -, heq⟩ := Option.map_eq_some_iff.mp hmark
  exact mem_map.mpr ⟨job, hmem, congrArg Prod.fst heq⟩

theorem mem_startAndWait (hsettled : Settled d session) (hclear : Clear d session kind)
    : session ∈ (d.startAndWait session kind).sessions := by
  unfold startAndWait startOrJoinLifecycle
  cases hget : d.lifecycle.get? session with
  | none => simp [hget, sessions]
  | some active =>
  have hdone : active.kind ≠ kind ∧ (d.result active).isSome :=
    ⟨hclear active hget, Option.isSome_iff_ne_none.mpr (hsettled active hget)⟩
  simp [hdone, BTreeMap.get?_remove, sessions]

theorem ensureNoActiveLifecycle_ok (h : ∀ session, Settled d session)
    : d.ensureNoActiveLifecycle = .ok () := by
  unfold ensureNoActiveLifecycle
  rw [if_neg]
  intro hany
  obtain ⟨active, hmem, hnone⟩ := any_eq_true.mp hany
  obtain ⟨⟨session, _⟩, hentry, rfl⟩ := mem_map.mp hmem
  exact h session _ (BTreeMap.mem_entries_iff.mp hentry) (Option.isNone_iff_eq_none.mp hnone)

theorem follow_handling {request : Request} (hnew : request.loaded = false)
    (hattends : d.attends request = true)
    (hphone : if request.phone then request.kind = .close ∨ request.kind = .resume
      else d.stage = .serving)
    (hkind : request.kind ≠ .create)
    (htodo : nothingToDo (d.stored request.session) request.kind = false)
    : Machine.follow next d (handling request)
      = some (d.startAndWait request.session request.kind) := by
  have hlet : (!request.phone && d.refusal.isSome) = false := by
    cases hfrom : request.phone with simp only [hfrom] at hphone
    | false => simpa [refusal] using hphone
    | true => rfl
  have hask : request.phone = true → request.kind = .close ∨ request.kind = .resume := by
    intro htrue
    rwa [if_pos htrue] at hphone
  have hasked : d.next (.ask request) = some { d with asked := request :: d.asked } := by
    rw [next, if_pos ⟨hnew, hattends, hask⟩, hlet]
    rfl
  have hloaded : next { d with asked := request :: d.asked } (.load request)
      = some { d with asked := { request with loaded := true } :: d.asked } := by
    simp [next, hnew, htodo]
  have hstarted : next { d with asked := { request with loaded := true } :: d.asked }
      (.request { request with loaded := true })
      = some (d.startAndWait request.session request.kind) := by
    rw [next, if_pos ⟨mem_cons_self, rfl, hattends, hkind⟩, erase_cons_head]
  simp only [handling, Machine.follow, hasked, hloaded, hstarted, Option.bind_some]

/--
Operations do not overlap on a session, and a session on which nothing runs takes the next request
that has something to do, whatever ended on it before.
-/
theorem one_operation_at_a_time {recoveries : List String} (hrecoveries : recoveries.Nodup)
    (h : Machine.Reaches (fun d step t => d.next step = some t) Orderly (start recoveries) d)
    : d.sessions.Nodup
      ∧ ∀ session, session ∉ d.sessions →
        (d.stage = .serving →
          (∀ kind, kind ≠ .create → nothingToDo (d.stored session) kind = false → Clear d session kind →
            Starts d (handling { session, kind }) session)
          ∧ ∀ action, d.marks = [] → Starts d [.direct session action] session)
        ∧ (d.servesPhone = true → session ∉ d.phoneSessions →
          d.phoneSessions.length < MAX_CONCURRENT_PHONE_ACTIONS →
          ∀ kind, kind = .close ∨ kind = .resume → nothingToDo (d.stored session) kind = false →
            Clear d session kind →
            Starts d (.phone session :: handling { session, kind, phone := true }) session) := by
  have halone : Alone d := by
    apply h.invariant
    . exact fun _ _ _ h horderly hnext => h.next horderly hnext
    have hsessions : (start recoveries).sessions = recoveries := by
      simp [start, sessions, Function.comp_def]
    refine ⟨tracked_start recoveries, ?_, ?_⟩
    . rwa [hsessions]
    . rw [hsessions]
      exact fun _ hmem => hmem
  refine ⟨halone.alone, ?_⟩
  intro session hfree
  have hsettled := settled_of_not_mem halone.tracked hfree
  refine ⟨?_, ?_⟩
  . intro hserving
    have hserves : d.servesClients = true := by simp [servesClients, hserving, DaemonStage.rank]
    constructor
    . intro kind hkind htodo hclear
      exact ⟨_, follow_handling rfl hserves hserving hkind htodo, mem_startAndWait hsettled hclear⟩
    intro action hidle
    have hall : ∀ other, Settled d other := by
      intro other active hget hnone
      have hmem := halone.tracked.alive other active hget hnone
      rw [hidle] at hmem
      cases hmem
    have hlet : d.servesClients = true ∧ d.refusal = none := ⟨hserves, if_pos hserving⟩
    simp only [Starts, Machine.follow, next, if_pos hlet, ensureNoActiveLifecycle_ok hall]
    exact ⟨_, rfl, mem_cons_self⟩
  . intro hserves hphone hcapacity kind hkind htodo hclear
    simp only [Starts, Machine.follow, next, if_pos hserves, admitPhoneAction,
      if_pos (And.intro hcapacity hphone), Option.bind_some]
    refine ⟨_, follow_handling rfl ?_ hkind ?_ htodo, mem_startAndWait hsettled hclear⟩
    . simp [attends]
    . rcases hkind with rfl | rfl <;> nofun

def closeJob : Job where
  session := "s1"
  operation := .lifecycle 0

def asking (session : String) (kind : LifecycleKind) : List DaemonStep :=
  handling { session, kind }

theorem one_operation_at_a_time_of_failed_close
    : ∃ d, Machine.follow next (start []) ([.save "s1" (some .error)] ++ asking "s1" .close
          ++ [.finish closeJob (some (.error "no space left"))]) = some d
        ∧ Starts d (asking "s1" .resume) "s1" := by
  have hasked : ∀ d, ∀ step ∈ [.save "s1" (some .error), .ask { session := "s1", kind := .close },
      .load { session := "s1", kind := .close }], Orderly d step := by
    simp [Orderly, Returns, DaemonStep.starts]
  have hclose (d : Daemon) (hidle : d.jobs = []) : Orderly d (.request ⟨"s1", .close, false, true⟩) := by
    simp [Orderly, Returns, hidle]
  have hfinish (d : Daemon) : Orderly d (.finish closeJob (some (.error "no space left"))) :=
    ⟨fun _ => rfl, nofun⟩
  have hrun : Machine.Reaches (fun d step t => d.next step = some t) Orderly (start []) _ :=
    .of_follow hasked rfl
  have hfailed := (hrun.step (hclose _ rfl) rfl).step (hfinish _) rfl
  have hone := one_operation_at_a_time nodup_nil hfailed
  refine ⟨_, rfl, ((hone.2 "s1" (by decide)).1 rfl).1 .resume nofun rfl ?_⟩
  intro active hget
  cases hget
  nofun

theorem operations_overlap_and_lock_out
    -- A check, a phone launch and a recovery at startup do not stand in the map.
    : (∃ d, Machine.follow next (start []) (.direct "s1" .checkpoint :: asking "s1" .close) = some d
        ∧ ¬ d.sessions.Nodup)
      ∧ (∃ d, Machine.follow next (start []) (.phoneNew "s1" :: asking "s1" .forceStop) = some d
        ∧ ¬ d.sessions.Nodup)
      ∧ (∃ d, Machine.follow next (start ["s1"]) (asking "s1" .close) = some d
        ∧ ¬ d.sessions.Nodup)
      -- An operation that panicked reads as one that runs.
      ∧ ∃ d, Machine.follow next (start [])
          (asking "s1" .close ++ [.finish closeJob none, .answer 0]) = some d
        ∧ d.sessions = []
        ∧ (∃ message, d.startOrJoinLifecycle "s1" .resume = .error message)
        ∧ (∃ message, d.ensureNoActiveLifecycle = .error message)
        ∧ ∃ t, d.startOrJoinLifecycle "s1" .close = .ok (0, t)
          ∧ waitLifecycleResult (t.feeds 0)
            = some (.error "daemon lifecycle operation stopped without a result") := by
  refine ⟨⟨_, rfl, by decide⟩, ⟨_, rfl, by decide⟩, ⟨_, rfl, by decide⟩, ?_⟩
  exact ⟨_, rfl, rfl, ⟨_, rfl⟩, ⟨_, rfl⟩, _, rfl, rfl⟩

end Daemon

end Hel
