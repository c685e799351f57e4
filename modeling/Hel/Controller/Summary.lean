import Hel.Data.Json
import Hel.Data.Text
import Mathlib.Data.List.Basic

/-!
This module contains the summary of a stored session that is read for the dashboard by queries over
the JSON of its items, and when it agrees with the transcript of the session.
-/

namespace Hel

open List

def agentChunks? (body : Json) : Option (List Json) :=
  match body.get? "kind", body.get? "chunks" with
  | some (.string "agent"), some (.array chunks) => some chunks
  | _, _ => none

/--
A row of `materialized_transcript_items`. The agent messages have a content ordinal, as
`TranscriptItem::validate` demands, and no bare strings as chunks.
-/
structure StoredItem where
  position : Nat
  latestContentEventOrdinal : Option Nat
  body : Json
  agent : latestContentEventOrdinal.isSome = (agentChunks? body).isSome
  chunked : ∀ chunks, agentChunks? body = some chunks → ∀ text, .string text ∉ chunks

def contentField (chunk : Json) (field : String) : Option Json :=
  (chunk.get? "content").bind (·.get? field)

def isNonemptyChunk (chunk : Json) : Bool :=
  match (contentField chunk "type").bind Json.asString? with
  | some "text" => ((contentField chunk "text").bind Json.asString?).any (!Text.isBlank ·)
  | some _ => true
  | none => false

-- Whether `trim(coalesce(value, ''))` is empty. It removes spaces only, and a value that is neither
-- a string nor `null` is rendered with characters that are no spaces.
def trimsToNothing : Option Json → Bool
  | none | some .null => true
  | some (.string text) => text.toList.all (· = ' ')
  | some _ => false

-- The condition of the queries on a chunk. `json_extract` gives `NULL` for a missing field and for
-- `null`.
def queryCounts (chunk : Json) : Bool :=
  match contentField chunk "type" with
  | none | some .null => false
  | some (.string "text") => !trimsToNothing (contentField chunk "text")
  | some _ => true

def jsonEach : Option Json → List Json
  | none => []
  | some (.array items) => items
  | some (.object members) => members.map (·.2)
  | some value => [value]

namespace StoredItem

def chunks (item : StoredItem) : List Json :=
  (agentChunks? item.body).getD []

def isNonemptyAgentMessage (item : StoredItem) : Bool :=
  item.chunks.any isNonemptyChunk

def counts (item : StoredItem) : Bool :=
  item.latestContentEventOrdinal.isSome && (jsonEach (item.body.get? "chunks")).any queryCounts

def spokenText (chunksText : List Json → String) (item : StoredItem) : Option String :=
  (agentChunks? item.body).bind fun chunks =>
    if Text.isBlank (chunksText chunks) then none else some (chunksText chunks)

end StoredItem

def unreadAgentMessagesAfter (transcript : List StoredItem) (viewed : Nat) : Nat :=
  transcript.countP fun item =>
    item.latestContentEventOrdinal.any (viewed < ·) && item.isNonemptyAgentMessage

structure MaterializedSessionSummary where
  lastAgentMessage : Option String
  agentMessageLatestContentOrdinals : List Nat

def lastMaterializedAgentMessage (chunksText : List Json → String) (rows : List StoredItem)
    : Option (Nat × String) :=
  (rows.filter (·.counts)).getLast?.bind fun item =>
    (item.spokenText chunksText).map (item.position, ·)

-- The rows are given in the order of `ORDER BY position, stable_id`, in which the transcript is read.
def loadMaterializedSessionSummary (chunksText : List Json → String) (rows : List StoredItem)
    : MaterializedSessionSummary where
  lastAgentMessage := (lastMaterializedAgentMessage chunksText rows).map (·.2)
  agentMessageLatestContentOrdinals :=
    (rows.filter (·.counts)).filterMap (·.latestContentEventOrdinal)

variable {item : StoredItem} {rows : List StoredItem} {chunk : Json}
  {chunksText : List Json → String}

/--
A chunk that the queries count although it shows nothing: its type or its text is no string, or its
text is white space other than spaces.
-/
def Deceptive (chunk : Json) : Prop :=
  (∃ kind, contentField chunk "type" = some kind ∧ kind ≠ .null ∧ kind.asString? = none)
    ∨ contentField chunk "type" = some (.string "text")
      ∧ ∃ words, contentField chunk "text" = some words ∧ words ≠ .null
        ∧ ∀ text, words = .string text → Text.isBlank text = true ∧ ∃ c ∈ text.toList, c ≠ ' '

theorem isBlank_of_spaces {text : String} (h : ∀ c ∈ text.toList, c = ' ')
    : Text.isBlank text = true := by
  unfold Text.isBlank
  rw [all_eq_true]
  intro c hc
  rw [h c hc]
  rfl

theorem queryCounts_iff
    : queryCounts chunk = true ↔ isNonemptyChunk chunk = true ∨ Deceptive chunk := by
  unfold queryCounts isNonemptyChunk Deceptive
  generalize contentField chunk "type" = kind
  generalize contentField chunk "text" = words
  rcases kind with _ | kind
  . simp
  cases kind with
  | string kind =>
    by_cases hkind : kind = "text"
    . subst hkind
      rcases words with _ | words
      . simp [trimsToNothing, Json.asString?]
      cases words with
      | string text =>
        have hspaces := @isBlank_of_spaces text
        cases hblank : Text.isBlank text <;> simp_all [trimsToNothing, Json.asString?]
      | _ => simp [trimsToNothing, Json.asString?]
    . simp [hkind, Json.asString?]
  | _ => simp [Json.asString?]

namespace StoredItem

theorem counts_eq (item : StoredItem) : item.counts = item.chunks.any queryCounts := by
  unfold counts chunks
  rw [item.agent]
  unfold agentChunks?
  split
  next heq => simp [heq, jsonEach]
  . rfl

theorem counts_iff
    : item.counts = true
        ↔ item.isNonemptyAgentMessage = true ∨ ∃ chunk ∈ item.chunks, Deceptive chunk := by
  simp only [counts_eq, isNonemptyAgentMessage, any_eq_true, queryCounts_iff]
  constructor
  . rintro ⟨chunk, hmem, hshown | hdeceptive⟩
    . exact Or.inl ⟨chunk, hmem, hshown⟩
    . exact Or.inr ⟨chunk, hmem, hdeceptive⟩
  rintro (⟨chunk, hmem, hshown⟩ | ⟨chunk, hmem, hdeceptive⟩)
  . exact ⟨chunk, hmem, Or.inl hshown⟩
  . exact ⟨chunk, hmem, Or.inr hdeceptive⟩

end StoredItem

def Undeceived (rows : List StoredItem) : Prop :=
  ∀ item ∈ rows, (∃ chunk ∈ item.chunks, Deceptive chunk) → item.isNonemptyAgentMessage = true

theorem filter_counts_of_undeceived (h : Undeceived rows)
    : rows.filter (·.counts) = rows.filter (·.isNonemptyAgentMessage) := by
  apply filter_congr
  intro item hmem
  rw [Bool.eq_iff_iff, StoredItem.counts_iff]
  exact ⟨fun h' => h'.elim id (h item hmem), Or.inl⟩

theorem length_filterMap_ordinal {p : StoredItem → Bool}
    (h : ∀ item, p item = true → item.counts = true)
    : ((rows.filter p).filterMap (·.latestContentEventOrdinal)).length = (rows.filter p).length := by
  rw [length_filterMap_eq_countP, countP_eq_length]
  intro item hmem
  exact (Bool.and_eq_true_iff.mp (h item (mem_filter.mp hmem).2)).1

theorem undeceived_of_ordinals
    (h : (rows.filter (·.counts)).filterMap (·.latestContentEventOrdinal)
      = (rows.filter (·.isNonemptyAgentMessage)).filterMap (·.latestContentEventOrdinal))
    : Undeceived rows := by
  have hcounts : ∀ item : StoredItem, item.isNonemptyAgentMessage = true → item.counts = true :=
    fun item hshown => StoredItem.counts_iff.mpr (Or.inl hshown)
  have hlength := congrArg List.length h
  rw [length_filterMap_ordinal (fun _ => id), length_filterMap_ordinal hcounts] at hlength
  have hsublist := monotone_filter_right rows hcounts
  have heq := hsublist.eq_of_length hlength.symm
  intro item hmem hdeceptive
  have hcounted : item ∈ rows.filter (·.counts) :=
    mem_filter.mpr ⟨hmem, StoredItem.counts_iff.mpr (Or.inr hdeceptive)⟩
  rw [← heq] at hcounted
  exact (mem_filter.mp hcounted).2

/-- The summary counts the agent messages that show something, and has the last text of one. -/
structure MaterializedSessionSummary.Agrees (chunksText : List Json → String)
    (transcript : List StoredItem) (summary : MaterializedSessionSummary) : Prop where
  ordinals : summary.agentMessageLatestContentOrdinals
    = (transcript.filter (·.isNonemptyAgentMessage)).filterMap (·.latestContentEventOrdinal)
  unread : ∀ viewed, summary.agentMessageLatestContentOrdinals.countP (viewed < ·)
    = unreadAgentMessagesAfter transcript viewed
  last : summary.lastAgentMessage
    = ((transcript.filter (·.isNonemptyAgentMessage)).filterMap (·.spokenText chunksText)).getLast?

theorem getLast?_bind_eq_iff {α β : Type} {f : α → Option β} {l : List α}
    : l.getLast?.bind f = (l.filterMap f).getLast?
        ↔ ∀ last, l.getLast? = some last → f last = none → ∀ a ∈ l, f a = none := by
  rcases eq_nil_or_concat l with rfl | ⟨init, last, rfl⟩
  . simp
  rw [concat_eq_append, filterMap_append]
  cases hlast : f last with
  | none => simp [hlast, or_imp, forall_and, eq_comm (a := none)]
  | some text => simp [hlast]

theorem countP_ordinals (viewed : Nat)
    : ((rows.filter (·.isNonemptyAgentMessage)).filterMap
          (·.latestContentEventOrdinal)).countP (viewed < ·)
        = unreadAgentMessagesAfter rows viewed := by
  unfold unreadAgentMessagesAfter
  rw [countP_filterMap, countP_filter]
  apply countP_congr
  intro item _
  cases item.latestContentEventOrdinal <;> simp

theorem summary_agrees_iff (chunksText : List Json → String) (rows : List StoredItem)
    : (loadMaterializedSessionSummary chunksText rows).Agrees chunksText rows
        ↔ Undeceived rows
          ∧ ∀ last, (rows.filter (·.isNonemptyAgentMessage)).getLast? = some last →
              last.spokenText chunksText = none →
              ∀ item ∈ rows.filter (·.isNonemptyAgentMessage), item.spokenText chunksText = none := by
  have hlast (h : Undeceived rows)
      : (loadMaterializedSessionSummary chunksText rows).lastAgentMessage
        = (rows.filter (·.isNonemptyAgentMessage)).getLast?.bind (·.spokenText chunksText) := by
    simp only [loadMaterializedSessionSummary, lastMaterializedAgentMessage,
      filter_counts_of_undeceived h, Option.map_bind]
    congr 1
    funext item
    simp [Option.map_map, Function.comp_def]
  constructor
  . intro h
    have hundeceived := undeceived_of_ordinals h.ordinals
    exact ⟨hundeceived, getLast?_bind_eq_iff.mp ((hlast hundeceived).symm.trans h.last)⟩
  rintro ⟨hundeceived, hspoken⟩
  have hordinals : (loadMaterializedSessionSummary chunksText rows).agentMessageLatestContentOrdinals
      = (rows.filter (·.isNonemptyAgentMessage)).filterMap (·.latestContentEventOrdinal) := by
    simp only [loadMaterializedSessionSummary, filter_counts_of_undeceived hundeceived]
  constructor
  . exact hordinals
  . intro viewed
    rw [hordinals, countP_ordinals]
  . rw [hlast hundeceived, getLast?_bind_eq_iff]
    exact hspoken

def lineBreak : StoredItem where
  position := 1
  latestContentEventOrdinal := some 1
  body := .object [("kind", .string "agent"), ("chunks", .array [.object [("content",
    .object [("type", .string "text"), ("text", .string "\n")])]]), ("streaming", .bool false)]
  agent := rfl
  chunked := by
    intro chunks h text hmem
    cases h
    simp at hmem

theorem summary_counts_lineBreak
    : ¬ ∃ chunksText, (loadMaterializedSessionSummary chunksText [lineBreak]).Agrees chunksText
        [lineBreak] := by
  rintro ⟨chunksText, h⟩
  have hordinals := h.ordinals
  have hcounts : lineBreak.counts = true := by decide
  have hshown : lineBreak.isNonemptyAgentMessage = false := by decide
  have hordinal : lineBreak.latestContentEventOrdinal = some 1 := rfl
  simp [loadMaterializedSessionSummary, hcounts, hshown, hordinal] at hordinals

end Hel
