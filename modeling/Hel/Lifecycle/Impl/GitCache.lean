import Hel.Data.BTreeMap
import Hel.Data.Json
import Hel.Data.Text
import Mathlib.Data.String.Basic

/-!
This module contains the clone cache of a container host.
-/

namespace Hel

structure SshTarget where
  destination : String
  sshArgs : List String
  deriving DecidableEq

inductive TargetTemplate where
  | localBare
  | localPodman
  | localDocker
  | appleContainer
  | awsEc2
  | sshBare (ssh : SshTarget)
  | sshPodman (ssh : SshTarget)
  deriving DecidableEq

abbrev Path := List String

def Path.display : Path → String
  | "/" :: components => "/" ++ "/".intercalate components
  | components => "/".intercalate components

structure AdditionalMount where
  source : Path
  destination : Path
  readOnly : Bool
  deriving DecidableEq

structure RepositorySpec where
  url : Option String
  destination : String
  gitRef : Option String
  reference : Option String
  deriving DecidableEq

structure ProjectBundleSpec where
  primary : String
  repositories : List RepositorySpec
  deriving DecidableEq

def MANAGED_LABEL : String := "dev.mj.managed"
def SESSION_LABEL : String := "dev.mj.session"

def CACHE_CONTAINER_ROOT : Path := ["/", "run", "hel", "git-cache"]
def CACHE_RELATIVE_ROOT : Path := [".cache", "mjolnir", "git"]
def CACHE_MAX_KIB : Nat := 20 * 1024 * 1024

inductive CacheHost where
  | localPodman
  | localDocker
  | apple
  | sshPodman (ssh : SshTarget)
  deriving DecidableEq

def CacheHost.forTarget : TargetTemplate → Option CacheHost
  | .localPodman => some .localPodman
  | .localDocker => some .localDocker
  | .appleContainer => some .apple
  | .sshPodman ssh => some (.sshPodman ssh)
  | .localBare | .awsEc2 | .sshBare _ => none

section Listing

def labelValue (labels : Json) (key : String) : Option String :=
  match labels with
  | .object members => (members.lookup key).bind Json.asString?
  | .string text =>
    (Text.split ',' text.toList).findSome? (fun label =>
      match Text.splitOnce '=' (Text.trim label) with
      | some (name, value) => if name = key.toList then some (String.ofList value) else none
      | none => none)
  | _ => none

def labelledSession (members : List (String × Json)) (labelKey : String) : List String :=
  match members.lookup labelKey with
  | some labels =>
    if labelValue labels MANAGED_LABEL = some "true" then
      (labelValue labels SESSION_LABEL).toList
    else
      []
  | none => []

mutual

def collectManagedSessions : Json → List String
  | .array items => collectItems items
  | .object members =>
    labelledSession members "Labels" ++ labelledSession members "labels" ++ collectMembers members
  | _ => []

def collectItems : List Json → List String
  | [] => []
  | item :: rest => collectManagedSessions item ++ collectItems rest

def collectMembers : List (String × Json) → List String
  | [] => []
  | (_, value) :: rest => collectManagedSessions value ++ collectMembers rest

end

def managedSessionsFromContainerJson (values : List Json) : List String :=
  ((values.flatMap collectManagedSessions).mergeSort (· ≤ ·)).dedup

end Listing

/--
The snapshots of one session: when its directory was last changed, and for each repository when the
files of its snapshot were. A file linked from a mirror keeps the minute it has there.
-/
structure SnapshotDirectory where
  changedAt : Int
  repositories : BTreeMap String (List Int)

structure CachedMirror where
  lastUsed : Option Int
  hasRepository : Bool
  objects : List Int
  kib : Nat

/-- The cache directory of a host. All times are in minutes. -/
structure GitCache where
  mirrors : BTreeMap String CachedMirror
  locks : BTreeMap String Int
  sessions : BTreeMap String SnapshotDirectory
  lastGc : Option Int

def MINUTES_OF_DAY : Int := 1440

def isRecent (now changed : Int) : Bool :=
  now - changed < MINUTES_OF_DAY

def isOlder (minutes now changed : Int) : Bool :=
  minutes < now - changed

def SnapshotDirectory.minutes (directory : SnapshotDirectory) : List Int :=
  directory.changedAt :: directory.repositories.values.flatten

def SnapshotDirectory.isStale (now : Int) (directory : SnapshotDirectory) : Bool :=
  directory.minutes.any (isOlder MINUTES_OF_DAY now)

inductive Removal where
  | untouched
  | partly (left : List String)
  | complete

def SnapshotDirectory.after (now : Int) (directory : SnapshotDirectory) :
    Removal → Option SnapshotDirectory
  | .untouched => some directory
  | .partly left =>
    some
      { changedAt := now
        repositories := directory.repositories.sweep (fun key _ => !left.contains key) }
  | .complete => none

/--
What a collection did that did not end well. A script that only loses its connection may still come
to its end.
-/
structure CutCollection where
  message : String
  removal : String → Removal
  mirrors : List String
  locks : BTreeMap String Int
  marked : Bool

namespace GitCache

section Collect

variable (now : Int)

variable (cache : GitCache)

def dropStaleLocks : GitCache :=
  { cache with locks := cache.locks.sweep (fun _ changed => isOlder MINUTES_OF_DAY now changed) }

def dropSnapshots (removal : String → Removal) (live : List String) (cache : GitCache) : GitCache :=
  { cache with
    sessions := cache.sessions.filterMap (fun session directory =>
      if live.contains session || !directory.isStale now then some directory
      else directory.after now (removal session)) }

def dropMirror (key : String) (cache : GitCache) : GitCache :=
  if cache.locks.contains key then cache else { cache with mirrors := cache.mirrors.remove key }

def dropUnusedMirrors : GitCache :=
  cache.mirrors.entries.foldl
    (fun cache (key, mirror) =>
      if mirror.lastUsed.any (isOlder 43200 now) then cache.dropMirror key else cache)
    cache

def size : Nat :=
  (cache.mirrors.values.map CachedMirror.kib).sum

def evict (limitKib : Nat) : List String → GitCache → GitCache
  | [], cache => cache
  | key :: rest, cache =>
    if cache.locks.contains key then cache.evict limitKib rest
    else
      let smaller := cache.dropMirror key
      if smaller.size ≤ limitKib then smaller else smaller.evict limitKib rest

def candidates : List String :=
  ((cache.mirrors.entries.filterMap (fun (key, mirror) => mirror.lastUsed.map (·, key))).mergeSort
    (fun a b => a.1 ≤ b.1)).map Prod.snd

def shrink (limitKib : Nat) (cache : GitCache) : GitCache :=
  if limitKib < cache.size then cache.evict limitKib cache.candidates else cache

def collectGarbage (limitKib : Nat) (live : List String) (cache : GitCache) : GitCache :=
  if cache.lastGc.any (isRecent now) then cache
  else
    let cache := cache.dropStaleLocks now
    if cache.locks.contains "gc" then cache
    else
      let cache := cache.dropSnapshots now (fun _ => .complete) live
      { (cache.dropUnusedMirrors now).shrink limitKib with lastGc := some now }

def cutGarbageCollection (cut : CutCollection) (live : List String) (cache : GitCache) : GitCache :=
  if cache.lastGc.any (isRecent now) then cache
  else if (cache.dropStaleLocks now).locks.contains "gc" then { cache with locks := cut.locks }
  else
    { cache.dropSnapshots now cut.removal live with
      mirrors := cut.mirrors.foldl BTreeMap.remove cache.mirrors
      locks := cut.locks
      lastGc := if cut.marked then some now else cache.lastGc }

end Collect

inductive RepositoryFate where
  | lockTimedOut (message : String)
  | remoteFailed (message : String)
  | snapshotFailed (mirror : CachedMirror) (message : String)
  | prepared (mirror : CachedMirror)

def RepositoryFate.isPrepared : RepositoryFate → Bool
  | .prepared _ => true
  | _ => false

section Prepare

variable (now : Int) (sessionId key : String)

variable (cache : GitCache)

def makeSessionDirectory : GitCache :=
  if cache.sessions.contains sessionId then cache
  else
    { cache with
      sessions := cache.sessions.insert sessionId { changedAt := now, repositories := BTreeMap.empty } }

def changeSnapshots
    (f : BTreeMap String (List Int) → BTreeMap String (List Int)) (cache : GitCache) : GitCache :=
  { cache with
    sessions := cache.sessions.modify sessionId (fun directory =>
      { directory with changedAt := now, repositories := f directory.repositories }) }

def setMirror (mirror : CachedMirror) (cache : GitCache) : GitCache :=
  { cache with mirrors := cache.mirrors.insert key mirror }

def dropEmptyMirror : GitCache :=
  if (cache.mirrors.get? key).any CachedMirror.hasRepository then cache
  else { cache with mirrors := cache.mirrors.remove key }

def prepareRepository (fate : RepositoryFate) (cache : GitCache) : Except String Unit × GitCache :=
  let cache := cache.makeSessionDirectory now sessionId
  match fate with
  | .lockTimedOut message => (.error message, cache)
  | .remoteFailed message => (.error message, cache.dropEmptyMirror key)
  | .snapshotFailed mirror message =>
    (.error message, (cache.setMirror key mirror).changeSnapshots now sessionId (·.remove key))
  | .prepared mirror =>
    (.ok (),
      (cache.setMirror key mirror).changeSnapshots now sessionId (·.insert key (now :: mirror.objects)))

def cleanupSessionRoot : GitCache :=
  { cache with sessions := cache.sessions.remove sessionId }

end Prepare

structure CacheFates where
  home : Except String Path
  repository : String → RepositoryFate
  listing : Except String (List Json)
  cleanup : Bool
  collect : Except CutCollection Unit

structure PreparedCloneCache where
  host : CacheHost
  sessionRoot : Path
  deriving DecidableEq

structure Preparation where
  cache : GitCache
  bundle : ProjectBundleSpec
  mounts : List AdditionalMount
  notices : List String
  prepared : Option PreparedCloneCache

section Prepare

variable (cacheKey : String → Except String String) (now : Int) (target : TargetTemplate)
  (sessionId : String) (fates : CacheFates)

def cachedRepositories (bundle : ProjectBundleSpec) : BTreeMap String String × List String :=
  bundle.repositories.foldl
    (fun (repositories, notices) repository =>
      match repository.url with
      | none => (repositories, notices)
      | some source =>
        match cacheKey source with
        | .ok key => (repositories.insert key source, notices)
        | .error error =>
          (repositories, notices ++ [s!"Clone cache skipped for {repository.destination}: {error}"]))
    (BTreeMap.empty, [])

def overlapsCache (mounts : List AdditionalMount) : Bool :=
  mounts.any (fun mount =>
    CACHE_CONTAINER_ROOT.isPrefixOf mount.destination
      || mount.destination.isPrefixOf CACHE_CONTAINER_ROOT)

def prepareRepositories : List String → GitCache → GitCache × List String × List String
  | [], cache => (cache, [], [])
  | key :: rest, cache =>
    let (result, cache) := cache.prepareRepository now sessionId key (fates.repository key)
    let (cache, ready, notices) := prepareRepositories rest cache
    match result with
    | .ok () => (cache, key :: ready, notices)
    | .error error =>
      let notice :=
        s!"Clone cache preparation failed: {error}; using a direct clone for that repository."
      (cache, ready, notice :: notices)

def referenced (ready : List String) (repository : RepositorySpec) : RepositorySpec :=
  match repository.url with
  | none => repository
  | some source =>
    match cacheKey source with
    | .error _ => repository
    | .ok key =>
      { repository with
        reference := if ready.contains key then some s!"/run/hel/git-cache/{key}.git" else none }

def liveSessions : List String × List String :=
  let (live, notices) :=
    match fates.listing with
    | .ok values => (managedSessionsFromContainerJson values, [])
    | .error error => ([sessionId], [s!"Clone-cache orphan cleanup was skipped: {error}"])
  (if live.contains sessionId then live else live ++ [sessionId], notices)

def prepare (cache : GitCache) (bundle : ProjectBundleSpec) (mounts : List AdditionalMount) :
    Preparation :=
  match CacheHost.forTarget target with
  | none => { cache, bundle, mounts, notices := [], prepared := none }
  | some host =>
    let (repositories, skipped) := cachedRepositories cacheKey bundle
    if repositories.keys.isEmpty then { cache, bundle, mounts, notices := skipped, prepared := none }
    else if overlapsCache mounts then
      let notice := "Clone cache disabled because an attached directory overlaps /run/hel/git-cache."
      { cache, bundle, mounts, notices := skipped ++ [notice], prepared := none }
    else
      match fates.home with
      | .error error =>
        let notice :=
          s!"Clone cache unavailable on the container host: {error}; using direct clones."
        { cache, bundle, mounts, notices := skipped ++ [notice], prepared := none }
      | .ok home =>
        let sessionRoot := home ++ CACHE_RELATIVE_ROOT ++ ["sessions", sessionId]
        let (filled, ready, failures) :=
          prepareRepositories now sessionId fates repositories.keys cache
        if ready.isEmpty then
          { cache := if fates.cleanup then filled.cleanupSessionRoot sessionId else filled
            bundle, mounts, notices := skipped ++ failures, prepared := none }
        else
          let (live, unlisted) := liveSessions sessionId fates
          let (collected, uncollected) :=
            match fates.collect with
            | .ok () => (filled.collectGarbage now CACHE_MAX_KIB live, [])
            | .error cut =>
              (filled.cutGarbageCollection now cut live,
                [s!"Clone-cache cleanup was skipped: {cut.message}"])
          { cache := collected
            bundle :=
              { bundle with repositories := bundle.repositories.map (referenced cacheKey ready) }
            mounts := mounts ++
              [{ source := sessionRoot, destination := CACHE_CONTAINER_ROOT, readOnly := true }]
            notices := skipped ++ failures ++ unlisted ++ uncollected
            prepared := some { host, sessionRoot } }

end Prepare

end GitCache

end Hel
