import Mathlib.Data.Int.ConditionallyCompleteOrder
import Mathlib.Order.ConditionallyCompleteLattice.Basic

/-!
This module contains the synchronization of a profile's credentials with the sessions that run it.
-/

namespace Hel

open List

inductive SyncAction where
  | push
  | pull
  | none
  deriving DecidableEq

inductive CredentialSyncAction where
  | pushed
  | pulled
  | skillsPushed
  | githubTokenPushed
  | githubTokenRemoved
  deriving DecidableEq

def SyncAction.actions : SyncAction → List CredentialSyncAction
  | .push => [.pushed]
  | .pull => [.pulled]
  | .none => []

-- The worker of a session may be too old to know about skills or tokens. The outcome is what is
-- reported for the session, and `performed` all that was done.
structure CredentialSyncTarget (Content : Type) where
  sessionId : String
  credentials : Option Content
  skills : Option String
  syncGithubToken : Bool
  githubToken : Option (Option String)
  outcome : List CredentialSyncAction := []
  performed : List CredentialSyncAction := []

structure SyncController (Content : Type) where
  freshness : Content → Option Int
  skills : String
  githubToken : Option String

namespace SyncController

variable {Content : Type} [DecidableEq Content] (c : SyncController Content)

def reconcile : Option Content → Option Content → SyncAction
  | none, none => .none
  | some _, none => .push
  | none, some _ => .pull
  | some canonical, some session =>
    if canonical = session then .none
    else
      match c.freshness canonical, c.freshness session with
      | some canonical, some session =>
        if canonical > session then .push else if session > canonical then .pull else .none
      | some _, none => .push
      | none, some _ => .pull
      | none, none => .none

section

variable (canonical : Option Content) (target : CredentialSyncTarget Content)

def reconcileSkills : Bool :=
  target.skills.any (· ≠ c.skills)

def reconcileGithubToken : Option CredentialSyncAction :=
  match target.githubToken, c.githubToken with
  | none, _ => none
  | some token, some canonical =>
    if token = some canonical then none else some .githubTokenPushed
  | some token, none => if token.isSome then some .githubTokenRemoved else none

def reconcileSession : List CredentialSyncAction :=
  (c.reconcile canonical target.credentials).actions
    ++ (if c.reconcileSkills target then [.skillsPushed] else [])
    ++ (if target.syncGithubToken then (c.reconcileGithubToken target).toList else [])

def canonicalAfter : Option Content :=
  if c.reconcile canonical target.credentials = .pull then target.credentials else canonical

def targetAfter : CredentialSyncTarget Content :=
  let actions := c.reconcileSession canonical target
  { target with
    credentials :=
      if c.reconcile canonical target.credentials = .push then canonical else target.credentials
    skills := target.skills.map (fun _ => c.skills)
    githubToken := target.githubToken.map (fun token =>
      if target.syncGithubToken then c.githubToken else token)
    outcome := if actions.isEmpty then target.outcome else actions
    performed := target.performed ++ actions }

end

def reconcilePass (canonical : Option Content)
    : List (CredentialSyncTarget Content) → Option Content × Bool × List (CredentialSyncTarget Content)
  | [] => (canonical, false, [])
  | target :: rest =>
    let (last, pulled, targets) := reconcilePass (c.canonicalAfter canonical target) rest
    (last, (c.reconcileSession canonical target).contains .pulled || pulled,
      c.targetAfter canonical target :: targets)

def reconcileProfile (canonical : Option Content) (targets : List (CredentialSyncTarget Content))
    : Option Content × List (CredentialSyncTarget Content) :=
  let (canonical, pulled, targets) := c.reconcilePass canonical targets
  if pulled then
    let (canonical, _, targets) := c.reconcilePass canonical targets
    (canonical, targets)
  else
    (canonical, targets)

/-- An absent copy ranks below one of unknown freshness, and that below one of known freshness. -/
def rank : Option Content → WithBot (WithBot Int)
  | none => ⊥
  | some content =>
    match c.freshness content with
    | none => ((⊥ : WithBot Int) : WithBot (WithBot Int))
    | some atMs => ((atMs : WithBot Int) : WithBot (WithBot Int))

def Agrees (canonical : Option Content) (target : CredentialSyncTarget Content) : Prop :=
  c.rank target.credentials = c.rank canonical
    ∧ (∀ skills ∈ target.skills, skills = c.skills)
    ∧ (target.syncGithubToken = true → ∀ token ∈ target.githubToken, token = c.githubToken)

def Below (top content : Option Content) : Prop :=
  content = top ∨ c.rank content < c.rank top

variable {c} {canonical top : Option Content} {target : CredentialSyncTarget Content}
  {targets : List (CredentialSyncTarget Content)}

variable (c) in
theorem reconcile_cases (canonical session : Option Content)
    : c.reconcile canonical session = .push ∧ c.rank session < c.rank canonical
      ∨ c.reconcile canonical session = .pull ∧ c.rank canonical < c.rank session
      ∨ c.reconcile canonical session = .none ∧ c.rank session = c.rank canonical := by
  cases canonical with
  | none =>
    cases session with
    | none => simp [reconcile]
    | some session => cases h : c.freshness session <;> simp [reconcile, rank, h]
  | some canonical =>
  cases session with
  | none => cases h : c.freshness canonical <;> simp [reconcile, rank, h]
  | some session =>
  by_cases heq : canonical = session
  . simp [reconcile, heq]
  cases h : c.freshness canonical <;> cases h' : c.freshness session <;>
    simp [reconcile, rank, heq, h, h']
  grind

theorem copies_after {copy : Option Content}
    (h : copy = c.canonicalAfter canonical target ∨ copy = (c.targetAfter canonical target).credentials)
    : (copy = canonical ∨ copy = target.credentials)
      ∧ c.rank canonical ≤ c.rank copy ∧ c.rank target.credentials ≤ c.rank copy := by
  unfold canonicalAfter targetAfter at h
  rcases c.reconcile_cases canonical target.credentials with
    ⟨haction, hlt⟩ | ⟨haction, hlt⟩ | ⟨haction, heq⟩
  . have hcopy : copy = canonical := by simpa [haction] using h
    simp [hcopy, hlt.le]
  . have hcopy : copy = target.credentials := by simpa [haction] using h
    simp [hcopy, hlt.le]
  . have hcopy : copy = canonical ∨ copy = target.credentials := by simpa [haction] using h
    refine ⟨hcopy, ?_⟩
    rcases hcopy with rfl | rfl <;> simp [heq]

theorem pulled_mem_reconcileSession
    : .pulled ∈ c.reconcileSession canonical target
        ↔ c.reconcile canonical target.credentials = .pull := by
  have htoken : c.reconcileGithubToken target ≠ some .pulled := by
    unfold reconcileGithubToken
    repeat' split
    all_goals simp
  cases h : c.reconcile canonical target.credentials <;>
    simp [reconcileSession, SyncAction.actions, h, htoken]

theorem canonicalAfter_eq (h : .pulled ∉ c.reconcileSession canonical target)
    : c.canonicalAfter canonical target = canonical :=
  if_neg (h ∘ pulled_mem_reconcileSession.2)

theorem reconcileSession_eq_nil
    : c.reconcileSession canonical target = [] ↔ c.Agrees canonical target := by
  have hcopy : (c.reconcile canonical target.credentials).actions = []
      ↔ c.rank target.credentials = c.rank canonical := by
    rcases c.reconcile_cases canonical target.credentials with ⟨h, hlt⟩ | ⟨h, hlt⟩ | ⟨h, heq⟩
    . simp [h, SyncAction.actions, hlt.ne]
    . simp [h, SyncAction.actions, hlt.ne']
    . simp [h, SyncAction.actions, heq]
  have hskills : c.reconcileSkills target = false ↔ ∀ skills ∈ target.skills, skills = c.skills := by
    cases h : target.skills <;> simp [reconcileSkills, h]
  have htoken : c.reconcileGithubToken target = none
      ↔ ∀ token ∈ target.githubToken, token = c.githubToken := by
    unfold reconcileGithubToken
    split <;> simp_all
  simp [reconcileSession, Agrees, hcopy, hskills, htoken]

theorem reported_iff (h : target.outcome = target.performed)
    : (c.targetAfter canonical target).outcome = (c.targetAfter canonical target).performed
        ↔ target.performed = [] ∨ c.Agrees canonical target := by
  rw [← reconcileSession_eq_nil]
  by_cases hnil : c.reconcileSession canonical target = [] <;> simp [targetAfter, hnil, h]

omit [DecidableEq Content] in
theorem Below.eq {copy : Option Content} (h : c.Below top copy) (hle : c.rank top ≤ c.rank copy)
    : copy = top :=
  h.resolve_right hle.not_gt

section

variable (hc : c.Below top canonical)

section

variable (ht : c.Below top target.credentials) {copy : Option Content}
  (hcopy : copy = c.canonicalAfter canonical target ∨ copy = (c.targetAfter canonical target).credentials)

include hc ht hcopy

theorem below_after : c.Below top copy := by
  rcases (copies_after hcopy).1 with rfl | rfl
  . exact hc
  . exact ht

theorem top_after (htop : canonical = top ∨ target.credentials = top) : copy = top := by
  have ⟨_, hcanonical, htarget⟩ := copies_after hcopy
  apply (below_after hc ht hcopy).eq
  rcases htop with rfl | rfl
  . exact hcanonical
  . exact htarget

end

theorem agrees_after (h : (c.targetAfter canonical target).credentials = top)
    : c.Agrees top (c.targetAfter canonical target) := by
  refine ⟨by rw [h], ?_, ?_⟩ <;> simp [targetAfter]
  grind

variable (h : ∀ target ∈ targets, c.Below top target.credentials)

include h

theorem reconcilePass_top
    : (c.reconcilePass top targets).1 = top
      ∧ (c.reconcilePass top targets).2.2 = targets.map (c.targetAfter top) := by
  induction targets with
  | nil => exact ⟨rfl, rfl⟩
  | cons target rest ih =>
    rw [forall_mem_cons] at h
    have hsame : c.canonicalAfter top target = top := top_after (.inl rfl) h.1 (.inl rfl) (.inl rfl)
    simpa [reconcilePass, hsame] using ih h.2

theorem agrees_reconcilePass_top : ∀ after ∈ (c.reconcilePass top targets).2.2, c.Agrees top after := by
  rw [(reconcilePass_top h).2, forall_mem_map]
  intro target hmem
  exact agrees_after (top_after (.inl rfl) (h target hmem) (.inr rfl) (.inl rfl))

include hc

theorem canonical_reconcilePass (htop : canonical = top ∨ ∃ target ∈ targets, target.credentials = top)
    : (c.reconcilePass canonical targets).1 = top := by
  induction targets generalizing canonical with
  | nil => simpa [reconcilePass] using htop
  | cons target rest ih =>
    rw [forall_mem_cons] at h
    simp only [mem_cons, exists_eq_or_imp, ← or_assoc] at htop
    apply ih (below_after hc h.1 (.inl rfl)) h.2
    exact htop.imp_left (top_after hc h.1 (.inl rfl))

theorem mem_reconcilePass (hnew : ∀ target ∈ targets, target.outcome = [] ∧ target.performed = [])
    : ∀ after ∈ (c.reconcilePass canonical targets).2.2,
        c.Below top after.credentials ∧ after.outcome = after.performed := by
  induction targets generalizing canonical with
  | nil => simp [reconcilePass]
  | cons target rest ih =>
    rw [forall_mem_cons] at h hnew
    have ⟨houtcome, hperformed⟩ := hnew.1
    rw [reconcilePass, forall_mem_cons, reported_iff (houtcome.trans hperformed.symm)]
    have hbelow := below_after hc h.1 (.inl rfl)
    exact ⟨⟨below_after hc h.1 (.inr rfl), .inl hperformed⟩, ih hbelow h.2 hnew.2⟩

theorem settled_iff (hne : canonical ≠ top) (hnew : ∀ target ∈ targets, target.performed = [])
    : (∀ after ∈ (c.reconcilePass canonical targets).2.2, after.performed = [] ∨ c.Agrees top after)
        ↔ ∀ target ∈ targets.takeWhile (·.credentials ≠ top), c.Agrees canonical target := by
  induction targets generalizing canonical with
  | nil => simp [reconcilePass]
  | cons target rest ih =>
    rw [forall_mem_cons] at h hnew
    simp only [reconcilePass, forall_mem_cons, takeWhile_cons]
    by_cases htop : target.credentials = top
    . have hhead := agrees_after (top_after hc h.1 (.inr rfl) (.inr htop))
      have hrest := agrees_reconcilePass_top h.2
      rw [top_after hc h.1 (.inl rfl) (.inr htop)]
      simp_all
    have hlow : ¬ c.Agrees top (c.targetAfter canonical target) := by
      intro hagrees
      have hsame := (below_after hc h.1 (.inr rfl)).eq hagrees.1.ge
      rcases (copies_after (.inr hsame.symm)).1 with heq | heq
      . exact hne heq.symm
      . exact htop heq.symm
    have hhead : (c.targetAfter canonical target).performed = [] ↔ c.Agrees canonical target := by
      rw [← reconcileSession_eq_nil]
      simp [targetAfter, hnew.1]
    simp only [hhead, hlow, or_false, htop, ne_eq, not_false_eq_true, decide_true, if_true,
      forall_mem_cons, and_congr_right_iff]
    intro hagrees
    have hpulled : .pulled ∉ c.reconcileSession canonical target := by
      simp [reconcileSession_eq_nil.2 hagrees]
    rw [canonicalAfter_eq hpulled]
    exact ih hc h.2 hne hnew.2

end

theorem canonical_of_not_pulled (h : (c.reconcilePass canonical targets).2.1 = false)
    : (c.reconcilePass canonical targets).1 = canonical := by
  induction targets generalizing canonical with
  | nil => rfl
  | cons target rest ih =>
    simp only [reconcilePass, Bool.or_eq_false_iff] at h ⊢
    rw [canonicalAfter_eq (by simpa using h.1)] at h ⊢
    exact ih h.2

theorem ids_reconcilePass
    : (c.reconcilePass canonical targets).2.2.map (·.sessionId) = targets.map (·.sessionId) := by
  induction targets generalizing canonical with
  | nil => rfl
  | cons target rest ih => exact congrArg (target.sessionId :: ·) ih

section

variable (h : ∀ target ∈ targets, c.Below top target.credentials) (hc : c.Below top canonical)
  (htop : canonical = top ∨ ∃ target ∈ targets, target.credentials = top)
  (hnew : ∀ target ∈ targets, target.outcome = [] ∧ target.performed = [])

include h hc htop hnew

theorem last_pass
    : ∃ before : List (CredentialSyncTarget Content),
        c.reconcileProfile canonical targets = (top, before.map (c.targetAfter top))
        ∧ before.map (·.sessionId) = targets.map (·.sessionId)
        ∧ (∀ target ∈ before, c.Below top target.credentials ∧ target.outcome = target.performed)
        ∧ ((∀ target ∈ before, target.performed = [] ∨ c.Agrees top target) ↔ canonical = top
              ∨ ∀ target ∈ targets.takeWhile (·.credentials ≠ top), c.Agrees canonical target) := by
  have hlast := canonical_reconcilePass hc h htop
  unfold reconcileProfile
  cases hpulled : (c.reconcilePass canonical targets).2.1 with
  | false =>
    have heq : canonical = top := by rw [← hlast, canonical_of_not_pulled hpulled]
    subst heq
    refine ⟨targets, ?_, rfl, ?_, ?_⟩
    . simp [hpulled, reconcilePass_top h]
    . intro target hmem
      simp [h target hmem, hnew target hmem]
    . simp_all
  | true =>
  have hmem := mem_reconcilePass hc h hnew
  refine ⟨(c.reconcilePass canonical targets).2.2, ?_, ids_reconcilePass, hmem, ?_⟩
  . have hsecond := reconcilePass_top fun target hmem' => (hmem target hmem').1
    simp [hpulled, hlast, hsecond]
  by_cases heq : canonical = top
  . subst heq
    simp only [true_or, iff_true]
    intro after hafter
    exact .inr (agrees_reconcilePass_top h after hafter)
  . rw [or_iff_right heq]
    exact settled_iff hc h heq fun target hmem => (hnew target hmem).2

theorem reconcile_profile_converges
    : (c.reconcileProfile canonical targets).1 = top
      ∧ (∀ after ∈ (c.reconcileProfile canonical targets).2, after.credentials = top)
      ∧ (c.reconcileProfile canonical targets).2.map (·.sessionId) = targets.map (·.sessionId)
      ∧ (∀ copy target, c.rank copy ≤ c.rank (c.canonicalAfter copy target)
          ∧ c.rank target.credentials ≤ c.rank (c.targetAfter copy target).credentials)
      ∧ ((∀ after ∈ (c.reconcileProfile canonical targets).2, after.outcome = after.performed)
          ↔ canonical = top
            ∨ ∀ target ∈ targets.takeWhile (·.credentials ≠ top), c.Agrees canonical target) := by
  have ⟨before, hresult, hids, hbefore, hsettled⟩ := last_pass h hc htop hnew
  simp only [hresult, forall_mem_map, map_map]
  refine ⟨trivial, ?_, hids, ?_, ?_⟩
  . intro target hmem
    exact top_after (.inl rfl) (hbefore target hmem).1 (.inr rfl) (.inl rfl)
  . intro copy target
    exact ⟨(copies_after (.inl rfl)).2.1, (copies_after (.inr rfl)).2.2⟩
  . rw [← hsettled]
    exact forall₂_congr fun target hmem => reported_iff (hbefore target hmem).2

end

def dated : SyncController Nat :=
  { freshness := fun content => some content, skills := "", githubToken := none }

def staleSessions : List (CredentialSyncTarget Nat) :=
  [⟨"a", some 2, none, false, none, [], []⟩, ⟨"b", some 3, none, false, none, [], []⟩]

theorem staleSessions_below
    : dated.Below (some 3) (some 1)
      ∧ ∀ target ∈ staleSessions, dated.Below (some 3) target.credentials := by
  have hlt {n : Nat} (hn : n < 3) : dated.Below (some 3) (some n) :=
    Or.inr (WithBot.coe_lt_coe.mpr (WithBot.coe_lt_coe.mpr (Int.ofNat_lt.mpr hn)))
  exact ⟨hlt (by decide),
    forall_mem_cons.mpr ⟨hlt (by decide), forall_mem_singleton.mpr (Or.inl rfl)⟩⟩

theorem reconcile_profile_converges_of_stale
    : (dated.reconcileProfile (some 1) staleSessions).1 = some 3 :=
  (reconcile_profile_converges staleSessions_below.2 staleSessions_below.1 (by simp [staleSessions])
    (by simp [staleSessions])).1

theorem reconcile_profile_forgets_pull
    : dated.Below (some 3) (some 1)
      ∧ (∀ target ∈ staleSessions, dated.Below (some 3) target.credentials)
      ∧ (dated.reconcileProfile (some 1) staleSessions).2.map
            (fun after => (after.outcome, after.performed))
          = [([.pushed], [.pulled, .pushed]), ([.pulled], [.pulled])] :=
  ⟨staleSessions_below.1, staleSessions_below.2, by decide⟩

end SyncController

end Hel
