import Hel.Daemon.Exclusion

/-!
This module contains what a stopping daemon has waited for by the time it shuts down its database
writer.
-/

namespace Hel

open DaemonStage List

variable {kind : LifecycleKind} {session : String} {feed : Nat}

namespace Daemon

variable {d t : Daemon} {step : DaemonStep} {job : Job}

/-- How long a job may still run; what is waited for has been told to stop. -/
structure Permits (stage : DaemonStage) (phoneSessions : List String) (job : Job) : Prop where
  lifecycle : ∀ feed, job.operation = .lifecycle feed → stage.rank ≤ 4
    ∧ ∀ pending, stage = .joining pending → feed ∈ pending ∧ job.cancelled = true
  direct : ∀ action, job.operation = .direct action → stage.rank ≤ 2
  phoneNew : job.operation = .phoneNew → job.session ∈ phoneSessions
  interruptedClose : job.operation = .interruptedClose →
    stage.rank ≤ 5 ∧ (1 ≤ stage.rank → job.cancelled = true)

/--
No lifecycle operation panics, no phone action is left when the phone server is joined, no direct
operation outlives the abort of the clients, and the dropped recovery has no copy and no observation.
-/
def Calm (d : Daemon) (step : DaemonStep) : Prop :=
  Returns d step ∧
    match step with
    | .joinPhone _ => d.phoneSessions = []
    | .joinClients blocking => ∀ job ∈ d.jobs, ∀ action, job.operation = .direct action →
      action ≠ .destroyRecovery ∧ job ∉ blocking
    | .dropRecovery => d.copies = [] ∧ d.observed = none
    | _ => True

structure Winding (d : Daemon) : Prop where
  tracked : Tracked d
  answered : ∀ feed, (d.feeds feed).closed = true → (d.feeds feed).result ≠ none
  jobs : ∀ job ∈ d.jobs, Permits d.stage d.phoneSessions job
  phone : 2 ≤ d.stage.rank → d.phoneSessions = []
  copies : 7 ≤ d.stage.rank → d.copies = [] ∧ d.observed = none

section

variable {stage later : DaemonStage} {phoneSessions phoneSessions' : List String}

theorem Permits.mono (h : Permits stage phoneSessions job)
    (hphone : phoneSessions ⊆ phoneSessions') : Permits stage phoneSessions' job :=
  { h with phoneNew := fun hoperation => hphone (h.phoneNew hoperation) }

theorem Permits.advance {told : Job → Bool} (h : Permits stage phoneSessions job)
    (hrank : later.rank ≤ 5) (hlifecycle : ∀ feed, job.operation = .lifecycle feed → later.rank ≤ 4
      ∧ ∀ pending, later = .joining pending → feed ∈ pending ∧ (job.tell told).cancelled = true)
    (hdirect : ∀ action, job.operation = .direct action → later.rank ≤ 2)
    (htold : 1 ≤ later.rank → stage.rank = 0 → job.operation = .interruptedClose → told job = true)
    : Permits later phoneSessions (job.tell told) := by
  constructor <;> rw [Job.operation_tell]
  . exact hlifecycle
  . exact hdirect
  . rw [Job.session_tell]
    exact h.phoneNew
  . intro hoperation
    refine ⟨hrank, fun hlater => ?_⟩
    unfold Job.tell
    split
    next => rfl
    next hfalse =>
      apply (h.interruptedClose hoperation).2
      by_contra hearly
      exact hfalse (htold hlater (by omega) hoperation)

end

theorem Winding.enters (h : Winding d) (henters : Enters d session kind t) (htracked : Tracked t)
    (hrank : d.stage.rank ≤ 2) : Winding t := by
  refine ⟨htracked, ?_, ?_, ?_, ?_⟩
  . intro feed hclosed
    rw [henters.feeds] at hclosed ⊢
    by_cases heq : feed = d.nextFeed
    . simp [heq] at hclosed
    . rw [Function.update_of_ne heq] at hclosed ⊢
      exact h.answered feed hclosed
  . rw [henters.jobs, henters.stage, henters.phoneSessions, forall_mem_cons]
    refine ⟨⟨fun _ _ => ⟨by omega, ?_⟩, nofun, nofun, nofun⟩, h.jobs⟩
    intro pending hstage
    simp [hstage, rank] at hrank
  . rw [henters.stage, henters.phoneSessions]
    exact h.phone
  . rw [henters.stage, henters.copies, henters.observed]
    exact h.copies

theorem Winding.rank_of_attends {request : Request} (h : Winding d)
    (hattends : d.attends request = true) : d.stage.rank ≤ 2 := by
  unfold attends servesClients at hattends
  split at hattends
  next =>
    by_contra hrank
    simp [h.phone (by omega)] at hattends
  next => simpa using hattends

theorem Winding.startAndWait {asked : List Request} (h : Winding d)
    (htracked : Tracked (Daemon.startAndWait { d with asked := asked } session kind))
    (hrank : d.stage.rank ≤ 2)
    : Winding (Daemon.startAndWait { d with asked := asked } session kind) := by
  unfold Daemon.startAndWait at htracked ⊢
  split at htracked
  next feed t hstart =>
    rcases startOrJoinLifecycle_cases hstart with rfl | ⟨henters, hknown⟩
    . exact { h with tracked := htracked }
    . exact h.enters { henters with } htracked hrank
  next => exact { h with tracked := htracked }

theorem Winding.finish {result : Option (Except String Unit)} (h : Winding d)
    (hreturns : job.feed?.isSome → result.isSome) (htracked : Tracked (d.finish job result))
    : Winding (d.finish job result) := by
  refine ⟨htracked, ?_, ?_, h.phone, h.copies⟩
  . intro feed hclosed
    cases hfeed : job.feed? with simp only [Daemon.finish, hfeed] at hclosed ⊢
    | none => exact h.answered feed hclosed
    | some own =>
      by_cases heq : feed = own
      . rw [hfeed] at hreturns
        simpa [heq, Option.isSome_iff_ne_none] using hreturns rfl
      . rw [Function.update_of_ne heq] at hclosed ⊢
        exact h.answered feed hclosed
  . intro other hmem
    exact h.jobs other (mem_of_mem_erase hmem)

theorem mark_of_running (hmem : job ∈ d.jobs) (hfeed : job.feed? = some feed)
    : (job.session, feed) ∈ d.marks :=
  mem_filterMap.mpr ⟨job, hmem, by simp [Job.mark, hfeed]⟩

theorem mem_pendingLifecycles (h : Tracked d) (hmem : job ∈ d.jobs)
    (hfeed : job.feed? = some feed) : feed ∈ d.pendingLifecycles := by
  obtain ⟨⟨kind, hget⟩, hnone⟩ := h.entered _ _ (mark_of_running hmem hfeed)
  refine mem_map.mpr ⟨⟨kind, feed⟩, mem_filter.mpr ⟨?_, ?_⟩, rfl⟩
  . exact mem_map_of_mem (BTreeMap.mem_entries_iff.mpr hget)
  . simp [result, hnone]

theorem Winding.late (h : Winding d) (hmem : job ∈ d.jobs) (hrank : 5 ≤ d.stage.rank)
    : job.operation = .interruptedClose ∧ d.stage.rank = 5 := by
  have hpermits := h.jobs job hmem
  rw [h.phone (by omega)] at hpermits
  cases hoperation : job.operation with
  | lifecycle feed =>
    have hlifecycle := (hpermits.lifecycle feed hoperation).1
    omega
  | direct action =>
    have hdirect := hpermits.direct action hoperation
    omega
  | phoneNew => cases hpermits.phoneNew hoperation
  | interruptedClose =>
    have hclose := (hpermits.interruptedClose hoperation).1
    exact ⟨rfl, by omega⟩

theorem Winding.pass {stage : DaemonStage} {copies : List (String × Bool)} (h : Winding d)
    (htracked : Tracked { d with copies := copies, stage := stage }) (hrank : 5 ≤ d.stage.rank)
    (hjobs : d.stage.rank = 5 → ∀ job ∈ d.jobs, job.operation ≠ .interruptedClose)
    (hcopies : 7 ≤ stage.rank → copies = [] ∧ d.observed = none)
    : Winding { d with copies := copies, stage := stage } := by
  refine ⟨htracked, h.answered, ?_, fun _ => h.phone (by omega), hcopies⟩
  intro job hmem
  obtain ⟨hoperation, hlast⟩ := h.late hmem hrank
  exact absurd hoperation (hjobs hlast job hmem)

theorem untold {jobs : List Job} (hsub : jobs ⊆ d.jobs)
    : ∀ job ∈ jobs, ∃ old ∈ d.jobs, old.tell (fun _ => false) = job :=
  fun job hmem => ⟨job, hsub hmem, rfl⟩

theorem Winding.advance {told : Job → Bool} {stage : DaemonStage} {jobs : List Job}
    {asked : List Request} (h : Winding d)
    (htracked : Tracked { d with jobs := jobs, asked := asked, stage := stage })
    (hjobs : ∀ job ∈ jobs, ∃ old ∈ d.jobs, old.tell told = job)
    (hphone : 2 ≤ stage.rank → d.phoneSessions = []) (hrank : stage.rank ≤ 5)
    (hlifecycle : ∀ job ∈ d.jobs, ∀ feed, job.operation = .lifecycle feed → stage.rank ≤ 4
      ∧ ∀ pending, stage = .joining pending → feed ∈ pending ∧ (job.tell told).cancelled = true)
    (hdirect : ∀ job ∈ jobs, ∀ action, job.operation = .direct action → stage.rank ≤ 2)
    (htold : 1 ≤ stage.rank → d.stage.rank = 0 →
      ∀ job, job.operation = .interruptedClose → told job = true)
    : Winding { d with jobs := jobs, asked := asked, stage := stage } := by
  refine ⟨htracked, h.answered, ?_, hphone, fun hlate => absurd hlate (by simp only; omega)⟩
  intro job hmem
  obtain ⟨old, hold, rfl⟩ := hjobs job hmem
  refine (h.jobs old hold).advance hrank (hlifecycle old hold) ?_ ?_
  . intro action hoperation
    exact hdirect _ hmem action (by rw [Job.operation_tell, hoperation])
  . intro hlater hearly hoperation
    exact htold hlater hearly old hoperation

theorem Winding.awaited {pending : List Nat} {stage : DaemonStage} (h : Winding d)
    (hstage : d.stage = .joining pending) (htracked : Tracked { d with stage := stage })
    (hrank : 2 < stage.rank ∧ stage.rank ≤ 5)
    (hrest : ∀ feed ∈ pending, (d.feeds feed).result = none →
      ∃ rest, stage = .joining rest ∧ feed ∈ rest) : Winding { d with stage := stage } := by
  have hphone := h.phone (by simp [hstage, rank])
  refine h.advance htracked (untold (List.Subset.refl _)) (fun _ => hphone) hrank.2 ?_ ?_
    (by simp [hstage, rank])
  . intro job hmem feed hoperation
    obtain ⟨hwaited, htold⟩ := ((h.jobs job hmem).lifecycle feed hoperation).2 pending hstage
    have hfeed : job.feed? = some feed := by simp [Job.feed?, hoperation]
    have hmark := mark_of_running hmem hfeed
    obtain ⟨rest, rfl, hmem⟩ := hrest feed hwaited (h.tracked.entered _ _ hmark).2
    refine ⟨Nat.le_refl 4, fun _ heq => ?_⟩
    cases heq
    exact ⟨hmem, htold⟩
  . intro job hmem action hoperation
    have hdirect := (h.jobs job hmem).direct action hoperation
    simp [hstage, rank] at hdirect

theorem Winding.next (h : Winding d) (hcalm : Calm d step) (hnext : d.next step = some t)
    : Winding t := by
  have htracked := h.tracked.next hcalm.1 hnext
  cases step with simp only [next, Option.ite_none_right_eq_some] at hnext
  | save session state =>
    cases hnext
    exact { h with tracked := htracked }
  | passOver =>
    cases hnext
    exact { h with tracked := htracked, copies := fun hrank => ⟨(h.copies hrank).1, rfl⟩ }
  | ask request | load request | loadFails request | answer feed =>
    cases hnext.2
    exact { h with tracked := htracked }
  | request request =>
    cases hnext.2
    exact h.startAndWait htracked (h.rank_of_attends hnext.1.2.2.1)
  | create session =>
    obtain ⟨⟨-, hattends, -⟩, hnext⟩ := hnext
    split at hnext <;> cases hnext
    rename_i feed t hstart
    rcases startOrJoinLifecycle_cases hstart with rfl | ⟨henters, hknown⟩
    . exact { h with tracked := htracked }
    . exact h.enters { henters with } htracked (h.rank_of_attends hattends)
  | waitCreate session =>
    split at hnext
    next active hget =>
      rw [Option.ite_none_right_eq_some] at hnext
      cases hnext.2
      exact { h with tracked := htracked }
    next => cases hnext
  | direct session action =>
    obtain ⟨hserves, hnext⟩ := hnext
    split at hnext <;> cases hnext
    next =>
      refine { h with tracked := htracked, jobs := ?_ }
      rw [forall_mem_cons]
      have hrank : d.stage.rank ≤ 2 := by simpa [servesClients] using hserves.1
      exact ⟨⟨by simp, fun _ _ => hrank, by simp, by simp⟩, h.jobs⟩
    next => exact h
  | phone session =>
    simp only [admitPhoneAction, Option.ite_none_right_eq_some] at hnext
    cases hnext.2.2
    have hearly : d.stage.rank ≤ 1 := by simpa [servesPhone] using hnext.1
    refine { h with tracked := htracked, jobs := ?_, phone := fun hlate => ?_ }
    . intro job hmem
      exact (h.jobs job hmem).mono (subset_cons_self _ _)
    . exact absurd (Nat.le_trans hlate hearly) (by decide)
  | phoneNew session =>
    simp only [admitPhoneAction, Option.ite_none_right_eq_some, Option.map_eq_some_iff] at hnext
    obtain ⟨⟨hserves, -⟩, admitted, ⟨-, hadmitted⟩, ht⟩ := hnext
    cases hadmitted
    cases ht
    have hearly : d.stage.rank ≤ 1 := by simpa [servesPhone] using hserves
    refine { h with tracked := htracked, jobs := ?_, phone := fun hlate => ?_ }
    . intro job hmem
      rcases mem_cons.mp hmem with rfl | hmem
      . exact ⟨by simp, by simp, fun _ => mem_cons_self, by simp⟩
      . exact (h.jobs job hmem).mono (subset_cons_self _ _)
    . exact absurd (Nat.le_trans hlate hearly) (by decide)
  | phoneDone session =>
    obtain ⟨⟨-, hidle⟩, ht⟩ := hnext
    cases ht
    refine { h with tracked := htracked, jobs := ?_, phone := fun hrank => ?_ }
    . intro job hmem
      have hpermits := h.jobs job hmem
      refine { hpermits with phoneNew := fun hoperation => ?_ }
      have hne : job.session ≠ session := fun heq => hidle job hmem heq hoperation
      exact (mem_erase_of_ne hne).mpr (hpermits.phoneNew hoperation)
    . simp [h.phone hrank]
  | observe session =>
    obtain ⟨⟨-, hrank⟩, ht⟩ := hnext
    cases ht
    refine { h with tracked := htracked, copies := fun hlate => ?_ }
    exact absurd (Nat.le_trans hlate hrank) (by decide)
  | copy session =>
    obtain ⟨hobserved, ht⟩ := hnext
    cases ht
    refine { h with tracked := htracked, copies := fun hrank => ?_ }
    rw [(h.copies hrank).2] at hobserved
    cases hobserved
  | copyDone session cancelled =>
    cases hnext.2
    exact { h with tracked := htracked, copies := fun hrank => by simp [h.copies hrank] }
  | finish job result =>
    cases hnext.2
    exact h.finish hcalm.1 htracked
  | stop =>
    obtain ⟨hstage, ht⟩ := hnext
    cases ht
    refine h.advance htracked (untold (List.Subset.refl _)) (by simp [rank]) (by decide) ?_ ?_
      (by simp [rank])
    . exact fun _ _ _ _ => ⟨by decide, by rintro _ ⟨⟩⟩
    . exact fun _ _ _ _ => by decide
  | exit =>
    cases hnext.2
    refine h.advance htracked (fun _ => mem_map.mp) (by simp [rank]) (by decide) ?_ ?_ ?_
    . exact fun _ _ _ _ => ⟨by decide, by rintro _ ⟨⟩⟩
    . exact fun _ _ _ _ => by decide
    . exact fun _ _ job hoperation => by simp [hoperation]
  | joinPhone told =>
    obtain ⟨hstage, ht⟩ := hnext
    cases ht
    refine h.advance htracked (fun _ => mem_map.mp) (fun _ => hcalm.2) (by decide) ?_ ?_ ?_
    . exact fun _ _ _ _ => ⟨by decide, by rintro _ ⟨⟩⟩
    . exact fun _ _ _ _ => by decide
    . simp [hstage, rank]
  | joinClients blocking =>
    obtain ⟨hstage, ht⟩ := hnext
    cases ht
    have hphone := h.phone (by simp [hstage, rank])
    refine h.advance htracked (untold (filter_subset_self _)) (fun _ => hphone) (by decide) ?_ ?_
      (by simp [hstage, rank])
    . exact fun _ _ _ _ => ⟨by decide, by rintro _ ⟨⟩⟩
    . intro job hmem action hoperation
      obtain ⟨hmem, hkept⟩ := mem_filter.mp hmem
      have haborted := hcalm.2 job hmem action hoperation
      cases action <;> simp_all
  | cancelLifecycles =>
    obtain ⟨hstage, ht⟩ := hnext
    cases ht
    have hphone := h.phone (by simp [hstage, rank])
    refine h.advance htracked (fun _ => mem_map.mp) (fun _ => hphone) (by simp [rank]) ?_ ?_
      (by simp [hstage, rank])
    . intro job hmem feed hoperation
      have hfeed : job.feed? = some feed := by simp [Job.feed?, hoperation]
      have hpending := mem_pendingLifecycles h.tracked hmem hfeed
      refine ⟨Nat.le_refl 4, fun pending heq => ?_⟩
      cases heq
      exact ⟨hpending, by simp [Job.tell, hfeed, hpending]⟩
    . intro told hmem action hoperation
      obtain ⟨job, hjob, rfl⟩ := mem_map.mp hmem
      have hdirect := (h.jobs job hjob).direct action (by rwa [Job.operation_tell] at hoperation)
      simp [hstage, rank] at hdirect
  | awaitLifecycle =>
    split at hnext
    next hstage =>
      cases hnext
      exact h.awaited hstage htracked (by decide) (by simp)
    next feed rest hstage =>
      split at hnext
      next hresult =>
        cases hnext
        refine h.awaited hstage htracked (by simp [rank]) ?_
        intro other hmem hnone
        rcases mem_cons.mp hmem with rfl | hmem
        . simp [hnone] at hresult
        . exact ⟨rest, rfl, hmem⟩
      next hresult =>
        rw [Option.ite_none_right_eq_some] at hnext
        exact absurd (h.answered feed hnext.1) (by simpa using hresult)
    next => cases hnext
  | joinRecoveries =>
    obtain ⟨⟨hstage, hjoined⟩, ht⟩ := hnext
    cases ht
    exact h.pass htracked (by simp [hstage, rank]) (fun _ => hjoined) (by simp [rank])
  | dropRecovery =>
    obtain ⟨hstage, ht⟩ := hnext
    cases ht
    obtain ⟨hcopies, hobserved⟩ : d.copies = [] ∧ d.observed = none := hcalm.2
    exact h.pass htracked (by simp [hstage, rank]) (by simp [hstage, rank])
      (fun _ => by simp [hcopies, hobserved])
  | shutDownManager =>
    obtain ⟨hstage, ht⟩ := hnext
    cases ht
    exact h.pass htracked (by simp [hstage, rank]) (by simp [hstage, rank])
      (fun _ => h.copies (by simp [hstage, rank]))

end Daemon

end Hel
