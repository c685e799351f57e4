import Hel.Data.Machine
import Hel.Quota.Impl.Kimi

/-!
This module contains what refreshes of the Kimi Code credentials leave in the file when they run
side by side, and where the access tokens they return come from.
-/

namespace Hel

namespace KimiStage

/-- The pair a refresh has spent and the one it was issued for it, until that one is stored. -/
def carried : KimiStage → Option (KimiCredentials × KimiCredentials)
  | .fetched active refreshed => some (active, refreshed)
  | .checked active refreshed _ => some (active, refreshed)
  | .decided active refreshed _ => some (active, refreshed)
  | _ => none

def finished : KimiStage → Bool
  | .returned _ => true
  | .failed => true
  | _ => false

theorem carried_of_finished {stage : KimiStage} (h : stage.finished = true)
    : stage.carried = none := by
  cases stage <;> first | rfl | cases h

end KimiStage

/-- The only live pair is the one that is carried: the file holds the one spent for it. -/
structure KimiCarries (file : KimiCredentials) (issued : List KimiCredentials)
    (spent : List String) (own : Option KimiCredentials) (active refreshed : KimiCredentials)
    : Prop where
  file_eq : file = active
  active_spent : active.refreshToken ∈ spent
  refreshed_unspent : refreshed.refreshToken ∉ spent
  refreshed_issued : refreshed ∈ issued
  own_eq : own = some refreshed

namespace KimiCall

def Answers (issued : List KimiCredentials) (call : KimiCall) (token : String) : Prop :=
  ∃ pair ∈ issued, pair.accessToken = token ∧ (call.lastRead = some pair ∨ call.own = some pair)

def Sound (file : KimiCredentials) (issued : List KimiCredentials) (spent : List String)
    (call : KimiCall) : Prop :=
  match call.stage with
  | .requesting active => active.refreshToken ∈ spent ∨ file = active
  | .fetched active refreshed => KimiCarries file issued spent call.own active refreshed
  | .checked active refreshed _ => KimiCarries file issued spent call.own active refreshed
  | .decided active refreshed persist =>
    KimiCarries file issued spent call.own active refreshed
      ∧ ∀ token loss, persist ≠ .adopt token loss
  | .saved token => call.Answers issued token
  | .releasing token => call.Answers issued token
  | .returned token => call.Answers issued token
  | _ => True

section

variable {file file' active refreshed : KimiCredentials} {issued issued' : List KimiCredentials}
  {spent spent' : List String} {call : KimiCall}

theorem Sound.carries (h : call.Sound file issued spent)
    (hcarried : call.stage.carried = some (active, refreshed))
    : KimiCarries file issued spent call.own active refreshed := by
  unfold Sound at h
  cases hstage : call.stage with
  | fetched | checked =>
    rw [hstage] at h hcarried
    cases hcarried
    exact h
  | decided =>
    rw [hstage] at h hcarried
    cases hcarried
    exact h.1
  | _ =>
    rw [hstage] at hcarried
    cases hcarried

theorem Sound.mono (h : call.Sound file issued spent) (hidle : call.stage.carried = none)
    (hissued : issued ⊆ issued') (hspent : spent ⊆ spent')
    (hfile : file' = file ∨ file.refreshToken ∈ spent') : call.Sound file' issued' spent' := by
  unfold Sound at h ⊢
  cases hstage : call.stage with
  | requesting active =>
    simp only [hstage] at h ⊢
    rcases h with h | rfl
    . exact .inl (hspent h)
    rcases hfile with rfl | hfile
    . exact .inr rfl
    . exact .inl hfile
  | fetched | checked | decided =>
    rw [hstage] at hidle
    cases hidle
  | saved token | releasing token | returned token =>
    simp only [hstage] at h ⊢
    obtain ⟨pair, hmem, hpair⟩ := h
    exact ⟨pair, hissued hmem, hpair⟩
  | _ => trivial

end

end KimiCall

namespace KimiWorld

variable {w t : KimiWorld} {id : Nat} {call old : KimiCall} {step : KimiStep}

def carried (w : KimiWorld) (id : Nat) : Option (KimiCredentials × KimiCredentials) :=
  (w.calls id).bind (·.stage.carried)

theorem carried_of_call (h : w.calls id = some call) : w.carried id = call.stage.carried := by
  simp [carried, h]

theorem carried_set (w : KimiWorld) (id : Nat) (call : KimiCall)
    : (w.set id call).carried = Function.update w.carried id call.stage.carried := by
  funext id'
  by_cases hid : id' = id
  . subst hid
    simp [carried, set]
  . simp [carried, set, hid]

theorem calls_set {id' : Nat} (h : (w.set id call).calls id' = some old)
    : (id' = id ∧ old = call) ∨ (id' ≠ id ∧ w.calls id' = some old) := by
  by_cases hid : id' = id
  . subst hid
    left
    simpa [set, eq_comm] using h
  . right
    simpa [set, hid] using h

structure Sound (w : KimiWorld) : Prop where
  file : w.file ∈ w.issued
  spent : ∀ token ∈ w.spent, ∃ pair ∈ w.issued, pair.refreshToken = token
  calls : ∀ id call, w.calls id = some call → call.Sound w.file w.issued w.spent
  single : ∀ id id', (w.carried id).isSome → (w.carried id').isSome → id = id'
  held : w.file.refreshToken ∈ w.spent → ∃ id, (w.carried id).isSome

theorem Sound.withLock (h : w.Sound) (lock : Option Nat) : Sound { w with lock := lock } :=
  { h with }

theorem Sound.set (h : w.Sound) (hcall : call.Sound w.file w.issued w.spent)
    (hcarried : w.carried id = call.stage.carried) : (w.set id call).Sound := by
  have hsame : (w.set id call).carried = w.carried := by
    rw [carried_set, ← hcarried, Function.update_eq_self]
  refine ⟨h.file, h.spent, ?_, ?_, ?_⟩
  . intro id' old hold
    rcases calls_set hold with ⟨_, rfl⟩ | ⟨_, hold⟩
    . exact hcall
    . exact h.calls id' old hold
  . rw [hsame]
    exact h.single
  . rw [hsame]
    exact h.held

theorem Sound.setIdle (h : w.Sound)
    (hcall : call.Sound w.file w.issued w.spent ∧ call.stage.carried = none)
    (hidle : w.carried id = none) : (w.set id call).Sound :=
  h.set hcall.1 (hidle.trans hcall.2.symm)

theorem Sound.carried_eq_none (h : w.Sound) (hfile : w.file.refreshToken ∉ w.spent) (id : Nat)
    : w.carried id = none := by
  cases hcalls : w.calls id with
  | none => simp [carried, hcalls]
  | some call =>
  rw [carried_of_call hcalls]
  cases hstage : call.stage.carried with
  | none => rfl
  | some pairs =>
  have hcarries := (h.calls id call hcalls).carries hstage
  rw [hcarries.file_eq] at hfile
  exact absurd hcarries.active_spent hfile

section

variable {active refreshed : KimiCredentials}

theorem Sound.spend (h : w.Sound) (hfile : w.file.refreshToken ∉ w.spent)
    (hfresh : ∀ pair ∈ w.issued, pair.refreshToken ≠ refreshed.refreshToken)
    (hstage : call.stage = .fetched w.file refreshed) (hown : call.own = some refreshed)
    : Sound { w.set id call with
        issued := refreshed :: w.issued
        spent := w.file.refreshToken :: w.spent } := by
  have hidle := h.carried_eq_none hfile
  refine ⟨List.mem_cons_of_mem _ h.file, ?_, ?_, ?_, ?_⟩
  . rw [List.forall_mem_cons]
    refine ⟨⟨w.file, List.mem_cons_of_mem _ h.file, rfl⟩, ?_⟩
    intro token htoken
    obtain ⟨pair, hmem, hpair⟩ := h.spent token htoken
    exact ⟨pair, List.mem_cons_of_mem _ hmem, hpair⟩
  . intro id' old hold
    rcases calls_set hold with ⟨_, rfl⟩ | ⟨_, hold⟩
    . simp only [KimiCall.Sound, hstage]
      refine ⟨rfl, List.mem_cons_self, ?_, List.mem_cons_self, hown⟩
      intro hmem
      rcases List.mem_cons.mp hmem with heq | hmem
      . exact hfresh w.file h.file heq.symm
      . obtain ⟨pair, hpair, heq⟩ := h.spent _ hmem
        exact hfresh pair hpair heq
    . have hold' : old.stage.carried = none := by
        rw [← carried_of_call hold, hidle]
      exact (h.calls id' old hold).mono hold' (List.subset_cons_self _ _)
        (List.subset_cons_self _ _) (.inl rfl)
  . have honly : ∀ id', ((w.set id call).carried id').isSome → id' = id := by
      intro id' hsome
      rw [carried_set] at hsome
      by_contra hid
      rw [Function.update_of_ne hid, hidle] at hsome
      cases hsome
    intro id₁ id₂ h₁ h₂
    rw [honly id₁ h₁, honly id₂ h₂]
  . intro _
    refine ⟨id, ?_⟩
    change ((w.set id call).carried id).isSome = true
    rw [carried_set, Function.update_self, hstage]
    rfl

theorem Sound.store (h : w.Sound) (hcall : w.calls id = some old)
    (hcarried : old.stage.carried = some (active, refreshed)) (hstage : call.stage.carried = none)
    (hsound : call.Sound refreshed w.issued w.spent)
    : Sound { w.set id call with file := refreshed } := by
  have hcarries := (h.calls id old hcall).carries hcarried
  have hsome : (w.carried id).isSome := by
    rw [carried_of_call hcall, hcarried]
    rfl
  have hothers : ∀ id' ≠ id, w.carried id' = none := by
    intro id' hid
    by_contra hne
    exact hid (h.single id' id (Option.isSome_iff_ne_none.mpr hne) hsome)
  have hnone : ∀ id', (w.set id call).carried id' = none := by
    intro id'
    rw [carried_set]
    by_cases hid : id' = id
    . rw [hid, Function.update_self, hstage]
    . rw [Function.update_of_ne hid, hothers id' hid]
  refine ⟨hcarries.refreshed_issued, h.spent, ?_, ?_, ?_⟩
  . intro id' call' hcall'
    rcases calls_set hcall' with ⟨_, rfl⟩ | ⟨hid, hcall'⟩
    . exact hsound
    have hidle : call'.stage.carried = none := by
      rw [← carried_of_call hcall', hothers id' hid]
    have hspent : w.file.refreshToken ∈ w.spent := by
      rw [hcarries.file_eq]
      exact hcarries.active_spent
    exact (h.calls id' call' hcall').mono hidle (fun _ hmem => hmem) (fun _ hmem => hmem)
      (.inr hspent)
  . intro id₁ id₂ h₁
    change ((w.set id call).carried id₁).isSome = true at h₁
    rw [hnone] at h₁
    cases h₁
  . intro hmem
    exact absurd hmem hcarries.refreshed_unspent

end

section

variable {file active initial : KimiCredentials}

theorem readKimiCredentials_eq {pair : KimiCredentials} (h : readKimiCredentials file = some pair)
    : pair = file := by
  unfold readKimiCredentials at h
  split at h
  . cases h
  exact (Option.some.inj h).symm

variable {issued : List KimiCredentials} {spent : List String} {rejectedToken : Option String}

theorem startStage_sound {cli force : Bool} {now : Int} (hfile : file ∈ issued)
    : KimiCall.Sound file issued spent
        { cli := cli
          force := force
          rejectedToken := rejectedToken
          stage := startStage file force now
          lastRead := some file }
      ∧ (startStage file force now).carried = none := by
  unfold startStage
  split
  next => exact ⟨trivial, rfl⟩
  rename_i pair hread
  obtain rfl := readKimiCredentials_eq hread
  split
  . exact ⟨⟨pair, hfile, rfl, .inl rfl⟩, rfl⟩
  . exact ⟨trivial, rfl⟩

theorem lookStage_sound {now : Int} {force : Bool} (hfile : file ∈ issued)
    : KimiCall.Sound file issued spent
        { call with
          stage := lookStage file initial force rejectedToken now
          lastRead := some file }
      ∧ (lookStage file initial force rejectedToken now).carried = none := by
  unfold lookStage
  split
  next => exact ⟨trivial, rfl⟩
  rename_i pair hread
  obtain rfl := readKimiCredentials_eq hread
  split
  . exact ⟨⟨pair, hfile, rfl, .inl rfl⟩, rfl⟩
  split
  . exact ⟨trivial, rfl⟩
  . exact ⟨.inr rfl, rfl⟩

theorem recoverStage_sound
    (hfile : file ∈ issued)
    : KimiCall.Sound file issued spent
        { call with stage := recoverStage file active, lastRead := some file }
      ∧ (recoverStage file active).carried = none := by
  unfold recoverStage
  split
  next => exact ⟨trivial, rfl⟩
  rename_i pair hread
  obtain rfl := readKimiCredentials_eq hread
  split
  . exact ⟨⟨pair, hfile, rfl, .inl rfl⟩, rfl⟩
  . exact ⟨trivial, rfl⟩

end

variable {active : KimiCredentials}

theorem decideKimiRefreshPersist_ne_adopt (ownership : Except KimiLockLoss Nat)
    (onDisk : Option KimiCredentials)
    (h : ∀ pair, onDisk = some pair → pair = active) (token : String) (loss : KimiLockLoss)
    : decideKimiRefreshPersist ownership onDisk active ≠ .adopt token loss := by
  unfold decideKimiRefreshPersist
  split
  . nofun
  . nofun
  unfold contestKimiRefresh
  split
  next pair =>
    rw [h pair rfl]
    simp [KimiCredentials.differsFrom]
  next => nofun

theorem consultKimiFile_eq {ownership : Except KimiLockLoss Nat} {readable : Bool}
    {file pair : KimiCredentials}
    (h : consultKimiFile ownership (if readable then readKimiCredentials file else none) = some pair)
    : pair = file := by
  have hread : (if readable then readKimiCredentials file else none) = some pair := by
    unfold consultKimiFile at h
    split at h
    iterate 2 exact h
    cases h
  split at hread
  . exact readKimiCredentials_eq hread
  . cases hread

theorem Sound.release {stat : Option String} {removed : Bool} {released lost : KimiStage}
    (h : w.Sound) (hidle : w.carried id = none) (hreleased : ∀ ownership,
      KimiCall.Sound w.file w.issued w.spent { call with stage := released, ownership := ownership }
        ∧ released.carried = none)
    (hlost : ∀ ownership,
      KimiCall.Sound w.file w.issued w.spent { call with stage := lost, ownership := ownership }
        ∧ lost.carried = none) : (w.release id call stat removed released lost).Sound := by
  unfold KimiWorld.release
  split
  . exact (h.setIdle (hreleased _) hidle).withLock none
  . exact h.setIdle (hreleased _) hidle
  . exact h.setIdle (hlost _) hidle

end KimiWorld

def KimiStep.Lands : KimiStep → Prop
  | .persist _ written => written = true
  | _ => True

namespace KimiWorld

variable {w t : KimiWorld} {id : Nat} {call : KimiCall} {step : KimiStep}

theorem Sound.respond {payload : KimiTokenPayload} {now : Int}
    (h : w.Sound) (hcall : w.calls id = some call) (hstage : call.stage = .requesting active)
    (hnext : w.respond id call active payload now = some t) : t.Sound := by
  have hactive : active.refreshToken ∈ w.spent ∨ w.file = active := by
    simpa [KimiCall.Sound, hstage] using h.calls id call hcall
  have hidle : w.carried id = none := by
    rw [carried_of_call hcall, hstage]
    rfl
  unfold KimiWorld.respond at hnext
  split at hnext
  next =>
    cases hnext
    exact h.set trivial hidle
  rename_i hunspent
  split at hnext
  next => cases hnext
  split at hnext <;> cases hnext
  rename_i hfresh
  obtain rfl := hactive.resolve_left hunspent
  exact h.spend hunspent hfresh rfl rfl

theorem Sound.persist {refreshed : KimiCredentials} {decision : KimiRefreshPersist}
    (h : w.Sound) (hcall : w.calls id = some call)
    (hstage : call.stage = .decided active refreshed decision)
    : (w.persist id call true refreshed decision).Sound := by
  have hsound := h.calls id call hcall
  simp only [KimiCall.Sound, hstage] at hsound
  obtain ⟨hcarries, hadopt⟩ := hsound
  have hcarried : call.stage.carried = some (active, refreshed) := by
    rw [hstage]
    rfl
  have hanswers : ∃ pair ∈ w.issued, pair.accessToken = refreshed.accessToken
      ∧ (call.lastRead = some pair ∨ call.own = some pair) :=
    ⟨refreshed, hcarries.refreshed_issued, rfl, .inr hcarries.own_eq⟩
  cases decision with
  | save | saveContested loss => exact h.store hcall hcarried rfl hanswers
  | adopt token loss => exact absurd rfl (hadopt token loss)

theorem Sound.advance (h : w.Sound) (hcall : w.calls id = some call) (hlands : step.Lands)
    (hnext : w.advance id call step = some t) : t.Sound := by
  have hsound := h.calls id call hcall
  have hcarried := carried_of_call hcall
  unfold KimiWorld.advance at hnext
  split at hnext
  next hstage =>
    rw [hstage] at hcarried
    split at hnext <;> cases hnext
    exact (h.set (by trivial) hcarried).withLock _
  iterate 3
    rename_i hstage
    rw [hstage] at hcarried
    cases hnext
    exact h.set trivial hcarried
  next =>
    have hbeat (ownership : KimiLockOwnership)
        : (w.set id { call with ownership := ownership }).Sound := h.set hsound hcarried
    cases hnext
    exact (hbeat _).withLock _
  next hstage =>
    rw [hstage] at hcarried
    cases hnext
    exact h.setIdle (lookStage_sound h.file) hcarried
  next hstage => exact h.respond hcall hstage hnext
  next hstage =>
    rw [hstage] at hcarried
    cases hnext
    split <;> exact h.set trivial hcarried
  next hstage =>
    rw [hstage] at hcarried
    cases hnext
    exact h.setIdle (recoverStage_sound h.file) hcarried
  next hstage =>
    rw [hstage] at hcarried
    simp only [KimiCall.Sound, hstage] at hsound
    cases hnext
    unfold confirm
    split
    . exact h.set ⟨hsound, nofun⟩ hcarried
    . exact h.set hsound hcarried
  next hstage =>
    rw [hstage] at hcarried
    simp only [KimiCall.Sound, hstage] at hsound
    cases hnext
    refine h.set ⟨hsound, ?_⟩ hcarried
    apply decideKimiRefreshPersist_ne_adopt
    intro pair hpair
    exact (consultKimiFile_eq hpair).trans hsound.file_eq
  next hstage =>
    obtain rfl := hlands
    cases hnext
    exact h.persist hcall hstage
  next hstage =>
    rw [hstage] at hcarried
    simp only [KimiCall.Sound, hstage] at hsound
    cases hnext
    exact h.release hcarried (fun _ => ⟨hsound, rfl⟩) (fun _ => ⟨hsound, rfl⟩)
  next hstage =>
    rw [hstage] at hcarried
    simp only [KimiCall.Sound, hstage] at hsound
    cases hnext
    exact h.release hcarried (fun _ => ⟨hsound, rfl⟩) (fun _ => ⟨trivial, rfl⟩)
  next => cases hnext

theorem Sound.next (h : w.Sound) (hlands : step.Lands) (hnext : w.next step = some t)
    : t.Sound := by
  cases step with
  | disturb lock =>
    cases hnext
    exact h.withLock lock
  | start id cli force rejectedToken now =>
    simp only [next] at hnext
    split at hnext <;> cases hnext
    rename_i hnone
    have hcarried : w.carried id = none := by
      simp [carried, Option.isNone_iff_eq_none.mp hnone]
    exact h.setIdle (startStage_sound h.file) hcarried
  | _ =>
    obtain ⟨call, hcall, hnext⟩ := Option.bind_eq_some_iff.mp hnext
    exact h.advance hcall hlands hnext

structure Initial (w : KimiWorld) : Prop where
  file : w.file ∈ w.issued
  unspent : w.file.refreshToken ∉ w.spent
  spent : ∀ token ∈ w.spent, ∃ pair ∈ w.issued, pair.refreshToken = token
  calls : ∀ id, w.calls id = none

theorem Initial.sound (h : w.Initial) : w.Sound := by
  have hnone : ∀ id, w.carried id = none := by
    intro id
    simp [carried, h.calls id]
  refine ⟨h.file, h.spent, ?_, ?_, ?_⟩
  . intro id call hcall
    rw [h.calls id] at hcall
    cases hcall
  . intro id id' hsome
    rw [hnone id] at hsome
    cases hsome
  . intro hspent
    exact absurd hspent h.unspent

theorem kimi_refresh_strands_nothing {start : KimiWorld} (hstart : start.Initial)
    (h : Machine.Reaches (fun w step t => w.next step = some t) (fun _ step => step.Lands) start w)
    : ((∀ id call, w.calls id = some call → call.stage.finished = true) →
        w.file ∈ w.issued ∧ w.file.refreshToken ∉ w.spent)
      ∧ ∀ id call token, w.calls id = some call → call.stage = .returned token →
        ∃ pair ∈ w.issued, pair.accessToken = token
          ∧ (call.lastRead = some pair ∨ call.own = some pair) := by
  have hsound : w.Sound :=
    h.invariant (fun _ _ _ h hlands hnext => h.next hlands hnext) hstart.sound
  constructor
  . intro hfinished
    refine ⟨hsound.file, ?_⟩
    intro hspent
    obtain ⟨id, hsome⟩ := hsound.held hspent
    cases hcall : w.calls id with
    | none => simp [carried, hcall] at hsome
    | some call =>
      rw [carried_of_call hcall, KimiStage.carried_of_finished (hfinished id call hcall)] at hsome
      cases hsome
  . intro id call token hcall hstage
    have hcalls := hsound.calls id call hcall
    simp only [KimiCall.Sound, hstage] at hcalls
    exact hcalls

def stalePair : KimiCredentials :=
  { accessToken := "a0", refreshToken := "r0", expiresAt := 100 }

def staleWorld : KimiWorld :=
  { file := stalePair, issued := [stalePair] }

def freshPayload : KimiTokenPayload :=
  { accessToken := some "a1", refreshToken := some "r1", expiresIn := some 3600 }

def freshPair : KimiCredentials :=
  { accessToken := "a1", refreshToken := "r1", expiresAt := 3600, tokenType := "Bearer"
    expiresIn := 3600 }

def contestedRefresh : List KimiStep :=
  [.start 0 false false none 0, .acquire 0 0, .look 0 0, .respond 0 freshPayload 0, .disturb none,
    .start 1 false true (some "old") 0, .acquire 1 20000, .look 1 0, .confirm 0 none,
    .decide 0 true, .persist 0 true, .release 1 none true]

theorem kimi_refresh_strands_nothing_of_contest
    : ∃ w call, Machine.follow next staleWorld contestedRefresh = some w
      ∧ w.calls 0 = some call ∧ call.stage = .returned "a1" ∧ w.file = freshPair
      ∧ ∃ pair ∈ w.issued, pair.accessToken = "a1"
        ∧ (call.lastRead = some pair ∨ call.own = some pair) := by
  have hstart : staleWorld.Initial := ⟨by decide, by decide, nofun, fun _ => rfl⟩
  have hrun : ∃ w call, Machine.follow next staleWorld contestedRefresh = some w
      ∧ w.calls 0 = some call ∧ call.stage = .returned "a1" ∧ w.file = freshPair :=
    ⟨_, _, rfl, rfl, rfl, rfl⟩
  obtain ⟨w, call, hfollow, hcall, hstage, hfile⟩ := hrun
  have hreaches : Machine.Reaches (fun w step t => w.next step = some t)
      (fun _ step => step.Lands) staleWorld w :=
    .of_follow (by simp [contestedRefresh, KimiStep.Lands]) hfollow
  exact ⟨w, call, hfollow, hcall, hstage, hfile,
    (kimi_refresh_strands_nothing hstart hreaches).2 0 call "a1" hcall hstage⟩

theorem returned_token_left_the_file
    -- The second refresh returns what it read before the first one stored its pair.
    : (∃ w call, Machine.follow next staleWorld contestedRefresh = some w
        ∧ w.calls 1 = some call ∧ call.stage = .returned "a0" ∧ call.own = none
        ∧ w.file = freshPair)
      -- A pair whose write fails is lost.
      ∧ (∃ w call, Machine.follow next staleWorld
            [.start 0 false false none 0, .acquire 0 0, .look 0 0, .respond 0 freshPayload 0,
              .confirm 0 none, .decide 0 true, .persist 0 false] = some w
        ∧ w.calls 0 = some call ∧ call.stage = .failed
        ∧ w.file = stalePair ∧ w.spent = ["r0"]) :=
  ⟨⟨_, _, rfl, rfl, rfl, rfl, rfl⟩, ⟨_, _, rfl, rfl, rfl, rfl, rfl⟩⟩

end KimiWorld

end Hel
