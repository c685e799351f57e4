import Hel.Lifecycle.Impl.GitCache

/-!
This module contains what the preparation of a clone cache removes.
-/

namespace Hel

variable {session : String} {fate : RepositoryFate}

/-- A session with a live container, and the cached repositories its clones take objects from. -/
structure LiveSession where
  id : String
  references : List String

def Removal.leaves (key : String) : Removal → Bool
  | .untouched => true
  | .partly left => left.contains key
  | .complete => false

namespace GitCache

def holds (cache : GitCache) (session key : String) : Bool :=
  (cache.sessions.get? session).any (fun directory => directory.repositories.contains key)

def Spared (live : List LiveSession) (sessionId : String) (before after : GitCache) : Prop :=
  ∀ session ∈ live, session.id ≠ sessionId → ∀ key ∈ session.references,
    before.holds session.id key = true → after.holds session.id key = true

section Collect

variable {now : Int} {cache : GitCache}

@[simp]
theorem sessions_dropStaleLocks : (cache.dropStaleLocks now).sessions = cache.sessions := rfl

@[simp]
theorem sessions_dropMirror (key : String) : (cache.dropMirror key).sessions = cache.sessions := by
  unfold dropMirror
  split <;> rfl

@[simp]
theorem sessions_dropUnusedMirrors : (cache.dropUnusedMirrors now).sessions = cache.sessions := by
  unfold dropUnusedMirrors
  generalize cache.mirrors.entries = entries
  induction entries generalizing cache with
  | nil => rfl
  | cons entry rest ih =>
    rw [List.foldl_cons, ih]
    dsimp only
    split
    . simp
    . rfl

theorem sessions_evict (limitKib : Nat) (keys : List String)
    : (cache.evict limitKib keys).sessions = cache.sessions := by
  induction keys generalizing cache with
  | nil => rfl
  | cons key rest ih =>
    unfold evict
    split
    . apply ih
    dsimp only
    split
    . simp
    . rw [ih]
      simp

@[simp]
theorem sessions_shrink (limitKib : Nat) : (cache.shrink limitKib).sessions = cache.sessions := by
  unfold shrink
  split
  . apply sessions_evict
  . rfl

def visitsSnapshots (now : Int) (cache : GitCache) : Bool :=
  !cache.lastGc.any (isRecent now) && !(cache.dropStaleLocks now).locks.contains "gc"

def visited (now : Int) (removal : String → Removal) (visits listed : Bool) (session : String)
    (directory : SnapshotDirectory) : Option SnapshotDirectory :=
  if !visits || listed || !directory.isStale now then some directory
  else directory.after now (removal session)

theorem get?_dropSnapshots (removal : String → Removal) (live : List String) (session : String)
    : (cache.dropSnapshots now removal live).sessions.get? session
        = (cache.sessions.get? session).bind
            (visited now removal true (live.contains session) session) :=
  BTreeMap.get?_filterMap ..

theorem bind_visited_of_not_visits {directory? : Option SnapshotDirectory} {visits listed : Bool}
    {removal : String → Removal} (h : visits = false)
    : directory?.bind (visited now removal visits listed session) = directory? := by
  cases directory? <;> simp [visited, h]

theorem get?_collectGarbage (limitKib : Nat) (live : List String) (session : String)
    : (cache.collectGarbage now limitKib live).sessions.get? session
        = (cache.sessions.get? session).bind (visited now (fun _ => .complete)
            (cache.visitsSnapshots now) (live.contains session) session) := by
  unfold collectGarbage
  split
  next hrecent =>
    rw [bind_visited_of_not_visits]
    simp [visitsSnapshots, hrecent]
  rename_i hrecent
  dsimp only
  split
  next hlocked =>
    rw [sessions_dropStaleLocks, bind_visited_of_not_visits]
    simp [visitsSnapshots, hlocked]
  rename_i hlocked
  have hvisits : cache.visitsSnapshots now = true := by
    simp [visitsSnapshots, hrecent, hlocked]
  simp only [sessions_shrink, sessions_dropUnusedMirrors, get?_dropSnapshots,
    sessions_dropStaleLocks, hvisits]

theorem get?_cutGarbageCollection (cut : CutCollection) (live : List String) (session : String)
    : (cache.cutGarbageCollection now cut live).sessions.get? session
        = (cache.sessions.get? session).bind (visited now cut.removal
            (cache.visitsSnapshots now) (live.contains session) session) := by
  unfold cutGarbageCollection
  split
  next hrecent =>
    rw [bind_visited_of_not_visits]
    simp [visitsSnapshots, hrecent]
  rename_i hrecent
  split
  next hlocked =>
    rw [bind_visited_of_not_visits]
    simp [visitsSnapshots, hlocked]
  rename_i hlocked
  have hvisits : cache.visitsSnapshots now = true := by
    simp [visitsSnapshots, hrecent, hlocked]
  simp only [get?_dropSnapshots, hvisits]

end Collect

section Prepare

variable {now : Int} {sessionId key : String} {cache : GitCache}

theorem get?_changeSnapshots {f : BTreeMap String (List Int) → BTreeMap String (List Int)}
    (h : session ≠ sessionId)
    : (cache.changeSnapshots now sessionId f).sessions.get? session = cache.sessions.get? session := by
  unfold changeSnapshots
  rw [BTreeMap.get?_modify]
  simp [h]

theorem get?_prepareRepository (h : session ≠ sessionId)
    : (cache.prepareRepository now sessionId key fate).2.sessions.get? session
        = cache.sessions.get? session := by
  have hmade : (cache.makeSessionDirectory now sessionId).sessions.get? session
      = cache.sessions.get? session := by
    unfold makeSessionDirectory
    split
    . rfl
    . apply BTreeMap.get?_insert_of_ne
      exact h
  unfold prepareRepository
  rw [← hmade]
  cases fate with
  | lockTimedOut => rfl
  | remoteFailed =>
    simp only [dropEmptyMirror]
    split <;> rfl
  | snapshotFailed | prepared => exact get?_changeSnapshots h

theorem visitsSnapshots_prepareRepository
    : (cache.prepareRepository now sessionId key fate).2.visitsSnapshots now
        = cache.visitsSnapshots now := by
  have hmade : (cache.makeSessionDirectory now sessionId).visitsSnapshots now
      = cache.visitsSnapshots now := by
    unfold makeSessionDirectory
    split <;> rfl
  unfold prepareRepository
  rw [← hmade]
  cases fate with
  | remoteFailed =>
    simp only [dropEmptyMirror]
    split <;> rfl
  | _ => rfl

section Loop

variable {fates : CacheFates} {keys : List String}

theorem fst_prepareRepositories_cons
    : (prepareRepositories now sessionId fates (key :: keys) cache).1
        = (prepareRepositories now sessionId fates keys
            (cache.prepareRepository now sessionId key (fates.repository key)).2).1 := by
  rw [prepareRepositories]
  dsimp only
  split <;> rfl

theorem get?_prepareRepositories (h : session ≠ sessionId)
    : (prepareRepositories now sessionId fates keys cache).1.sessions.get? session
        = cache.sessions.get? session := by
  induction keys generalizing cache with
  | nil => rfl
  | cons key rest ih => rw [fst_prepareRepositories_cons, ih, get?_prepareRepository h]

theorem visitsSnapshots_prepareRepositories
    : (prepareRepositories now sessionId fates keys cache).1.visitsSnapshots now
        = cache.visitsSnapshots now := by
  induction keys generalizing cache with
  | nil => rfl
  | cons key rest ih =>
    rw [fst_prepareRepositories_cons, ih, visitsSnapshots_prepareRepository]

theorem isEmpty_prepareRepositories
    : (prepareRepositories now sessionId fates keys cache).2.1.isEmpty
        = !keys.any (fun key => (fates.repository key).isPrepared) := by
  induction keys generalizing cache with
  | nil => rfl
  | cons key rest ih =>
    have hfirst : (cache.prepareRepository now sessionId key (fates.repository key)).1.isOk
        = (fates.repository key).isPrepared := by
      cases fates.repository key <;> rfl
    rw [prepareRepositories]
    dsimp only
    split
    next heq =>
      rw [heq] at hfirst
      simp [← hfirst, Except.isOk, Except.toBool]
    rename_i heq
    rw [heq] at hfirst
    dsimp only
    rw [ih]
    simp [← hfirst, Except.isOk, Except.toBool]

end Loop

end Prepare

section Spared

variable (cacheKey : String → Except String String) (now : Int) (target : TargetTemplate)
  (sessionId : String) (fates : CacheFates) (cache : GitCache) (bundle : ProjectBundleSpec)
  (mounts : List AdditionalMount) (live : List LiveSession)

def collects : Bool :=
  (CacheHost.forTarget target).isSome
    && (cachedRepositories cacheKey bundle).1.keys.any (fun key => (fates.repository key).isPrepared)
    && !overlapsCache mounts && fates.home.isOk && cache.visitsSnapshots now

def isListed (session : String) : Bool :=
  match fates.listing with
  | .ok values => (managedSessionsFromContainerJson values).contains session
  | .error _ => false

def CacheFates.removal (fates : CacheFates) (session : String) : Removal :=
  match fates.collect with
  | .ok () => .complete
  | .error cut => cut.removal session

def Protected : Prop :=
  ∀ session ∈ live, session.id ≠ sessionId → ∀ key ∈ session.references,
    cache.holds session.id key = true →
    isListed fates session.id = true
      ∨ (cache.sessions.get? session.id).any (·.isStale now) = false
      ∨ (fates.removal session.id).leaves key = true

variable {cacheKey now target sessionId fates cache bundle mounts}

theorem contains_liveSessions (h : session ≠ sessionId)
    : (liveSessions sessionId fates).1.contains session = isListed fates session := by
  unfold liveSessions isListed
  cases fates.listing with
  | ok values =>
    dsimp only
    split
    . rfl
    . simp [h]
  | error error => simp [h]

theorem get?_prepare (h : session ≠ sessionId)
    : (prepare cacheKey now target sessionId fates cache bundle mounts).cache.sessions.get? session
        = (cache.sessions.get? session).bind (visited now fates.removal
            (collects cacheKey now target fates cache bundle mounts) (isListed fates session)
            session) := by
  unfold prepare
  split
  next htarget =>
    rw [bind_visited_of_not_visits]
    simp [collects, htarget]
  rename_i host htarget
  dsimp only
  split
  next hempty =>
    rw [bind_visited_of_not_visits]
    have hnone : (cachedRepositories cacheKey bundle).1.keys = [] := by
      simpa using hempty
    simp [collects, hnone]
  split
  next hoverlaps =>
    rw [bind_visited_of_not_visits]
    simp [collects, hoverlaps]
  rename_i hapart
  split
  next error hhome =>
    rw [bind_visited_of_not_visits]
    simp [collects, hhome, Except.isOk, Except.toBool]
  rename_i home hhome
  split
  next hempty =>
    rw [isEmpty_prepareRepositories] at hempty
    have hnone : (cachedRepositories cacheKey bundle).1.keys.any
        (fun key => (fates.repository key).isPrepared) = false := by
      simpa using hempty
    rw [bind_visited_of_not_visits (by simp only [collects, hnone, Bool.and_false, Bool.false_and])]
    split
    . simp only [cleanupSessionRoot, BTreeMap.get?_remove, h, ↓reduceIte]
      exact get?_prepareRepositories h
    . exact get?_prepareRepositories h
  rename_i hsome
  rw [isEmpty_prepareRepositories] at hsome
  have hany : (cachedRepositories cacheKey bundle).1.keys.any
      (fun key => (fates.repository key).isPrepared) = true := by
    simpa using hsome
  have hcollects : collects cacheKey now target fates cache bundle mounts
      = cache.visitsSnapshots now := by
    simp [collects, htarget, hany, hapart, hhome, Except.isOk, Except.toBool]
  have hremoval : fates.removal = match fates.collect with
      | .ok () => fun _ => .complete
      | .error cut => cut.removal := by
    funext session
    unfold CacheFates.removal
    cases fates.collect <;> rfl
  rw [hcollects, hremoval]
  cases fates.collect with
  | ok =>
    dsimp only
    rw [get?_collectGarbage, get?_prepareRepositories h, visitsSnapshots_prepareRepositories,
      contains_liveSessions h]
  | error cut =>
    dsimp only
    rw [get?_cutGarbageCollection, get?_prepareRepositories h, visitsSnapshots_prepareRepositories,
      contains_liveSessions h]

theorem contains_after {directory : SnapshotDirectory} {key : String} (removal : Removal)
    (h : directory.repositories.contains key = true)
    : (directory.after now removal).any (·.repositories.contains key) = removal.leaves key := by
  cases removal with
  | untouched => exact h
  | complete => rfl
  | partly left =>
    obtain ⟨minutes, hminutes⟩ := Option.isSome_iff_exists.mp h
    by_cases hleft : key ∈ left <;>
      simp [SnapshotDirectory.after, Removal.leaves, BTreeMap.contains, BTreeMap.get?_sweep,
        hminutes, Option.filter, hleft]

theorem holds_prepare {session key : String} (h : session ≠ sessionId)
    (hheld : cache.holds session key = true)
    : (prepare cacheKey now target sessionId fates cache bundle mounts).cache.holds session key = true
        ↔ (collects cacheKey now target fates cache bundle mounts = true →
            isListed fates session = true
              ∨ (cache.sessions.get? session).any (·.isStale now) = false
              ∨ (fates.removal session).leaves key = true) := by
  unfold holds at hheld ⊢
  rw [get?_prepare h]
  cases hget : cache.sessions.get? session with
  | none => simp [hget] at hheld
  | some directory =>
  rw [hget, Option.any_some] at hheld
  rw [Option.bind_some, Option.any_some]
  unfold visited
  split
  next hkept =>
    simp only [Option.any_some, hheld, true_iff]
    simp only [Bool.or_eq_true, Bool.not_eq_true'] at hkept
    intro hcollects
    simp only [hcollects, Bool.true_eq_false, false_or] at hkept
    exact hkept.imp_right Or.inl
  next hdropped =>
    rw [contains_after _ hheld]
    simp only [Bool.or_eq_true, Bool.not_eq_true', not_or, Bool.not_eq_false, Bool.not_eq_true]
      at hdropped
    simp [hdropped]

/--
The preparation of a cache removes no snapshot that another live session takes objects from exactly
when it does not come to the collection, or each of them is protected.
-/
theorem prepare_spares_live_sessions
    : Spared live sessionId cache
          (prepare cacheKey now target sessionId fates cache bundle mounts).cache
        ↔ (collects cacheKey now target fates cache bundle mounts = true →
            Protected now sessionId fates cache live) := by
  constructor
  . intro hspared hcollects session hlive hne key hkey hheld
    exact (holds_prepare hne hheld).mp (hspared session hlive hne key hkey hheld) hcollects
  intro hprotected session hlive hne key hkey hheld
  apply (holds_prepare hne hheld).mpr
  intro hcollects
  exact hprotected hcollects session hlive hne key hkey hheld

end Spared

section Runs

-- The digest of the name of the repository that the address below stands for.
def APP_KEY : String := "98d9fc12e0202ede77dcf03d8e2bdbefa902b35754ce1c59463a479a81f7c98d"

def appKey (source : String) : Except String String :=
  if source = "https://github.com/acme/app" then .ok APP_KEY
  else .error "repository is not a recognized GitHub URL"

def oldCache : GitCache where
  mirrors := BTreeMap.empty
  locks := BTreeMap.empty
  sessions := BTreeMap.empty.insert "aa11"
    { changedAt := 0, repositories := BTreeMap.empty.insert APP_KEY [0] }
  lastGc := none

def appBundle : ProjectBundleSpec where
  primary := "app"
  repositories :=
    [{ url := some "https://github.com/acme/app", destination := "app", gitRef := none
       reference := none }]

def answers (listing : Except String (List Json)) (collect : Except CutCollection Unit) :
    CacheFates where
  home := .ok ["/", "home", "dev"]
  repository := fun _ =>
    .prepared { lastUsed := some 2000, hasRepository := true, objects := [], kib := 1 }
  listing := listing
  cleanup := true
  collect := collect

def agedSession : LiveSession where
  id := "aa11"
  references := [APP_KEY]

-- The other session runs in another engine, which Podman does not list.
def podmanListing : List Json :=
  [.array [.object [("Labels", .object
    [(MANAGED_LABEL, .string "true"), (SESSION_LABEL, .string "bb22")])]]]

def fullDisk : CutCollection where
  message := "prune the container host Git cache failed with status 1"
  removal := fun _ => .complete
  mirrors := []
  locks := BTreeMap.empty
  marked := false

def prepareApp (fates : CacheFates) : Preparation :=
  prepare appKey 2000 .localPodman "bb22" fates oldCache appBundle []

theorem not_spared_of_lost {fates : CacheFates}
    (h : (prepareApp fates).cache.holds "aa11" APP_KEY = false)
    : ¬Spared [agedSession] "bb22" oldCache (prepareApp fates).cache := by
  intro hspared
  have hheld := hspared _ (List.mem_singleton.mpr rfl) (by decide) APP_KEY (by decide)
    (by decide +kernel)
  rw [show agedSession.id = "aa11" from rfl, h] at hheld
  cases hheld

theorem prepare_removes_live_snapshot
    : ¬Spared [agedSession] "bb22" oldCache
          (prepareApp (answers (.error "podman is not running") (.ok ()))).cache
      ∧ ¬Spared [agedSession] "bb22" oldCache
          (prepareApp (answers (.ok podmanListing) (.ok ()))).cache
      ∧ ¬Spared [agedSession] "bb22" oldCache
          (prepareApp (answers (.ok podmanListing) (.error fullDisk))).cache := by
  refine ⟨?_, ?_, ?_⟩ <;> apply not_spared_of_lost <;> decide +kernel

end Runs

end GitCache

end Hel
