import Mathlib.Data.List.Infix
import Mathlib.Data.List.Nodup
import Hel.Data.Json
import Hel.Data.Machine

/-!
This module contains the scan of a Codex home for the rollouts of one session, with the cache that
remembers across exports which rollouts belong to another session.
-/

namespace Hel

/-- A rollout as an export finds it: its terminated lines and what follows the last newline. -/
structure Rollout where
  relative : String
  name : String
  readable : Bool
  modified : Option Int
  lines : List String
  tail : String

def Rollout.endsWith (file : Rollout) (ending : String) : Bool :=
  ending.toList <:+ file.name.toList

structure CodexScan where
  parse : String → Option Json
  sessionId : String
  floor : Option Int
  isSecretLikePath : String → Bool

namespace CodexScan

variable (scan : CodexScan)

def isSessionMeta (record : Json) : Bool :=
  (record.get? "type").bind Json.asString? == some "session_meta"

def namesSession (record : Json) : Bool :=
  ((record.get? "payload").bind (·.get? "session_id")).bind Json.asString? == some scan.sessionId

def probeLines : Nat → List String → Bool
  | 0, _ => false
  | _, [] => false
  | limit + 1, line :: rest =>
    match scan.parse line with
    | none => false
    | some record =>
      if isSessionMeta record then scan.namesSession record else probeLines limit rest

def codexRolloutHasSessionId (file : Rollout) : Bool :=
  file.readable && scan.probeLines 8 (file.lines ++ if file.tail = "" then [] else [file.tail])

def codexProbeSelects (cache : Option (List String)) (file : Rollout)
    : Bool × Option (List String) :=
  if scan.floor.any (fun floor => file.modified.any (· < floor)) then (false, cache)
  else if cache.any (·.contains file.relative) then (false, cache)
  else if scan.codexRolloutHasSessionId file then (true, cache)
  else (false, cache.map (file.relative :: ·))

def selectsByName (file : Rollout) : Bool :=
  scan.sessionId.toList <:+: file.name.toList
    && (file.endsWith ".jsonl" || file.endsWith ".jsonl.zst")

def selects (cache : Option (List String)) (file : Rollout) : Bool × Option (List String) :=
  if scan.selectsByName file then (true, cache)
  else if file.endsWith ".jsonl" then scan.codexProbeSelects cache file
  else (false, cache)

def collectNativeTree (cache : Option (List String))
    : List Rollout → List Rollout × Option (List String)
  | [] => ([], cache)
  | file :: rest =>
    let (selected, cache) := scan.selects cache file
    let (more, cache) := collectNativeTree cache rest
    (if selected && !scan.isSecretLikePath file.relative then file :: more else more, cache)

end CodexScan

structure CodexHome where
  files : List Rollout
  distinct : (files.map (·.relative)).Nodup

def Rollout.Grows (file later : Rollout) : Prop :=
  later.relative = file.relative
    ∧ ((later.lines = file.lines ∧ file.tail.toList <+: later.tail.toList)
      ∨ ∃ more rest, later.lines = file.lines ++ (file.tail ++ more) :: rest)

def CodexHome.Grows (home later : CodexHome) : Prop :=
  ∀ file ∈ home.files, ∃ file' ∈ later.files, file.Grows file'

structure CodexExport where
  home : CodexHome
  found : Bool
  saved : Bool

structure CodexSession where
  notOurs : List String
  home : CodexHome

namespace CodexScan

def loadCodexScanCache (session : CodexSession) (step : CodexExport) : List String :=
  if step.found then session.notOurs else []

def Exports (scan : CodexScan) (session : CodexSession) (step : CodexExport) (next : CodexSession)
    : Prop :=
  session.home.Grows step.home ∧ next.home = step.home
    ∧ next.notOurs =
      if step.saved then
        (scan.collectNativeTree (some (loadCodexScanCache session step)) step.home.files).2.getD []
      else session.notOurs

variable (scan : CodexScan)

def HeadedBy (file : Rollout) (record : Json) : Prop :=
  ∃ header rest,
    file.lines = header :: rest ∧ scan.parse header = some record ∧ isSessionMeta record = true

def Probed (file : Rollout) : Prop :=
  scan.selectsByName file = false ∧ file.endsWith ".jsonl" = true
    ∧ scan.floor.any (fun floor => file.modified.any (· < floor)) = false

/-- What the scan probes can be read and has its header written. -/
def HeadersWritten (_ : CodexSession) (step : CodexExport) : Prop :=
  ∀ file ∈ step.home.files, scan.Probed file →
    file.readable = true ∧ ∃ record, scan.HeadedBy file record

def Foreign (file : Rollout) : Prop :=
  ∃ record, scan.HeadedBy file record ∧ scan.namesSession record = false

variable {scan} {file : Rollout}

theorem HeadedBy.probeLines {record : Json} (h : scan.HeadedBy file record)
    : scan.probeLines 8 (file.lines ++ if file.tail = "" then [] else [file.tail])
      = scan.namesSession record := by
  obtain ⟨header, rest, hlines, hparse, hmeta⟩ := h
  simp [hlines, CodexScan.probeLines, hparse, hmeta]

theorem HeadedBy.of_grows {later : Rollout} {record : Json} (h : scan.HeadedBy file record)
    (hgrows : file.Grows later) : scan.HeadedBy later record := by
  obtain ⟨header, rest, hlines, hrecord⟩ := h
  obtain ⟨-, ⟨hsame, -⟩ | ⟨more, added, hadded⟩⟩ := hgrows
  . exact ⟨header, rest, hsame.trans hlines, hrecord⟩
  . exact ⟨header, rest ++ (file.tail ++ more) :: added, by rw [hadded, hlines]; rfl, hrecord⟩

theorem Foreign.hasSessionId (h : scan.Foreign file)
    : scan.codexRolloutHasSessionId file = false := by
  obtain ⟨record, hheaded, hnames⟩ := h
  simp [codexRolloutHasSessionId, hheaded.probeLines, hnames]

theorem selects_cached {cache : List String}
    (h : file.relative ∈ cache → scan.codexRolloutHasSessionId file = false)
    : scan.selects none file = ((scan.selects (some cache) file).1, none)
      ∧ ((scan.selects (some cache) file).2 = some cache
        ∨ (scan.selects (some cache) file).2 = some (file.relative :: cache)
          ∧ scan.Probed file ∧ scan.codexRolloutHasSessionId file = false) := by
  unfold selects codexProbeSelects Probed
  by_cases hname : scan.selectsByName file = true
  . simp [hname]
  by_cases hends : file.endsWith ".jsonl" = true
  . by_cases hfloor : scan.floor.any (fun floor => file.modified.any (· < floor)) = true
    . simp [hname, hends, hfloor]
    by_cases hmem : file.relative ∈ cache
    . simp [hname, hends, hfloor, hmem, h hmem]
    . cases hhas : scan.codexRolloutHasSessionId file <;> simp [hname, hends, hfloor, hmem]
  . simp [hname, hends]

theorem collectNativeTree_cached {files : List Rollout} {cache : List String}
    (hdistinct : (files.map (·.relative)).Nodup)
    (h : ∀ file ∈ files, file.relative ∈ cache → scan.codexRolloutHasSessionId file = false)
    : (scan.collectNativeTree (some cache) files).1 = (scan.collectNativeTree none files).1
      ∧ ∀ path ∈ (scan.collectNativeTree (some cache) files).2.getD [],
        path ∈ cache ∨ ∃ file ∈ files, file.relative = path ∧ scan.Probed file
          ∧ scan.codexRolloutHasSessionId file = false := by
  induction files generalizing cache with
  | nil => simp [collectNativeTree]
  | cons file rest ih =>
    have ⟨hfirst, hrest⟩ := List.nodup_cons.mp hdistinct
    have ⟨hnone, hcache⟩ := selects_cached (h file List.mem_cons_self)
    simp only [collectNativeTree, hnone]
    obtain hcache | ⟨hcache, hfile⟩ := hcache <;> rw [hcache]
    . have ⟨hmore, hpaths⟩ := ih hrest (fun f hmem => h f (List.mem_cons_of_mem _ hmem))
      grind
    have hcached : ∀ f ∈ rest, f.relative ∈ file.relative :: cache →
        scan.codexRolloutHasSessionId f = false := by grind
    have ⟨hmore, hpaths⟩ := ih hrest hcached
    grind

theorem mem_of_load {session : CodexSession} {step : CodexExport} {path : String}
    (h : path ∈ loadCodexScanCache session step) : path ∈ session.notOurs := by
  unfold loadCodexScanCache at h
  split at h
  . exact h
  . cases h

def Justified (scan : CodexScan) (session : CodexSession) : Prop :=
  ∀ path ∈ session.notOurs, ∃ file ∈ session.home.files, file.relative = path ∧ scan.Foreign file

section

variable {session next : CodexSession} {step : CodexExport} (h : scan.Justified session)
  (hgrows : session.home.Grows step.home)
include h hgrows

theorem Justified.foreign {path : String} (hmem : path ∈ session.notOurs)
    : ∃ file ∈ step.home.files, file.relative = path ∧ scan.Foreign file := by
  obtain ⟨file, hfile, hpath, record, hheaded, hnames⟩ := h path hmem
  obtain ⟨later, hlater, hgrown⟩ := hgrows file hfile
  exact ⟨later, hlater, hgrown.1.trans hpath, record, hheaded.of_grows hgrown, hnames⟩

theorem Justified.hasSessionId
    : ∀ file ∈ step.home.files, file.relative ∈ loadCodexScanCache session step →
      scan.codexRolloutHasSessionId file = false := by
  intro file hfile hmem
  obtain ⟨other, hother, hpath, hforeign⟩ := h.foreign hgrows (mem_of_load hmem)
  have hsame : other = file := List.inj_on_of_nodup_map step.home.distinct hother hfile hpath
  exact hsame ▸ hforeign.hasSessionId

theorem Justified.exports (hheaders : scan.HeadersWritten session step)
    (hstep : scan.Exports session step next) : scan.Justified next := by
  obtain ⟨-, hhome, hnotOurs⟩ := hstep
  intro path hmem
  rw [hhome]
  rw [hnotOurs] at hmem
  split at hmem
  . have ⟨_, hpaths⟩ := collectNativeTree_cached step.home.distinct (h.hasSessionId hgrows)
    obtain hold | ⟨file, hfile, hpath, hprobed, hhas⟩ := hpaths path hmem
    . exact h.foreign hgrows (mem_of_load hold)
    obtain ⟨hreadable, record, hheaded⟩ := hheaders file hfile hprobed
    rw [codexRolloutHasSessionId, hreadable, Bool.true_and, hheaded.probeLines] at hhas
    exact ⟨file, hfile, hpath, record, hheaded, hhas⟩
  . exact h.foreign hgrows hmem

end

def fresh : CodexSession := { notOurs := [], home := { files := [], distinct := List.nodup_nil } }

/-- While headers are written before a rollout is probed, the cache changes no selection. -/
theorem cached_scan_selects_same {session : CodexSession} {step : CodexExport}
    (h : Machine.Reaches scan.Exports scan.HeadersWritten fresh session)
    (hgrows : session.home.Grows step.home)
    : (scan.collectNativeTree (some (loadCodexScanCache session step)) step.home.files).1
      = (scan.collectNativeTree none step.home.files).1 := by
  have hjustified : scan.Justified session :=
    h.invariant (fun _ _ _ hs hheaders hstep => hs.exports hstep.1 hheaders hstep) nofun
  exact (collectNativeTree_cached step.home.distinct (hjustified.hasSessionId hgrows)).1

def header (sessionId : String) : String :=
  "\x7b\"type\":\"session_meta\",\"payload\":\x7b\"session_id\":\"" ++ sessionId ++ "\"\x7d\x7d"

def plainScan : CodexScan where
  parse line := (["1", "2"].find? (header · = line)).map fun sessionId => .object
    [("type", .string "session_meta"), ("payload", .object [("session_id", .string sessionId)])]
  sessionId := "1"
  floor := none
  isSecretLikePath := fun _ => false

def continuation (lines : List String) : Rollout where
  relative := "sessions/b.jsonl"
  name := "b.jsonl"
  readable := true
  modified := none
  lines := lines
  tail := ""

def plainExport (lines : List String) : CodexExport where
  home := { files := [continuation lines], distinct := List.nodup_singleton _ }
  found := true
  saved := true

def exported (lines : List String) : CodexSession where
  notOurs := ["sessions/b.jsonl"]
  home := (plainExport lines).home

theorem exports_fresh {lines : List String} (h : lines = [] ∨ lines = [header "2"])
    : plainScan.Exports fresh (plainExport lines) (exported lines) := by
  refine ⟨nofun, rfl, ?_⟩
  obtain rfl | rfl := h <;> decide

theorem plainExport_grows (lines more : List String)
    : (exported lines).home.Grows (plainExport (lines ++ more)).home := by
  intro file hfile
  cases List.mem_singleton.mp hfile
  refine ⟨continuation (lines ++ more), List.mem_singleton_self _, rfl, ?_⟩
  cases more with
  | nil => exact .inl ⟨List.append_nil _, List.prefix_rfl⟩
  | cons line rest => exact .inr ⟨line, rest, by simp [continuation]⟩

theorem cached_scan_skips_foreign
    : (plainScan.collectNativeTree
        (some (loadCodexScanCache (exported [header "2"]) (plainExport [header "2"])))
        [continuation [header "2"]]).1
      = (plainScan.collectNativeTree none [continuation [header "2"]]).1 := by
  have hheaders : plainScan.HeadersWritten fresh (plainExport [header "2"]) := by
    intro file hfile _
    cases List.mem_singleton.mp hfile
    exact ⟨rfl, _, header "2", [], rfl, rfl, by decide⟩
  have hreaches := Machine.Reaches.single hheaders (exports_fresh (.inr rfl))
  exact cached_scan_selects_same hreaches (plainExport_grows [header "2"] [])

/-- A rollout that is still empty at one export is never selected again. -/
theorem cached_scan_hides_rollout
    : Machine.Reaches plainScan.Exports (fun _ _ => True) fresh (exported [])
      ∧ (exported []).home.Grows (plainExport [header "1"]).home
      ∧ (plainScan.collectNativeTree none (plainExport [header "1"]).home.files).1
        = [continuation [header "1"]]
      ∧ (plainScan.collectNativeTree (some (loadCodexScanCache (exported []) (plainExport [header "1"])))
          (plainExport [header "1"]).home.files).1
        = [] := by
  refine ⟨.single trivial (exports_fresh (.inl rfl)), plainExport_grows [] [header "1"], ?_, ?_⟩
  . rfl
  . rfl

end CodexScan

end Hel
