import Mathlib.Data.List.Chain
import Mathlib.Data.List.Induction

/-!
This module contains the text that a chat shows of a streamed message.
-/

namespace Hel

open List

inductive Place where
  | text -- the loop of `sanitize_terminal_text`
  | carriage -- the same loop, right after a carriage return
  | escape -- the start of `consume_escape_body`
  | control -- its search for the final byte of a control sequence
  | second -- its skipping of the second byte of a short sequence
  | payload -- the loop of `consume_string_body`
  deriving DecidableEq

namespace Place

def loop (c : Char) : Place :=
  if c = '\x1b' then .escape else if c = '\r' then .carriage else .text

def aborts (c : Char) : Bool :=
  c = '\n' || c = '\r' || c = '\x18' || c = '\x1a'

def next (c : Char) : Place → Place
  | .text | .carriage => loop c
  | .escape =>
    if c = '[' then .control else if "]PX^_".toList.contains c then .payload
    else if "()*+-./#% ".toList.contains c then .second
    else .text
  | .control => if '@' ≤ c ∧ c ≤ '~' then .text else .control
  | .second => .text
  | .payload =>
    -- a character that aborts the payload is only peeked at, and left to the loop
    if aborts c then loop c
    else if c = '\x07' then .text
    else if c = '\x1b' then .escape
    else .payload

def shows (c : Char) : Place → Bool
  | .text | .carriage => c ≠ '\x1b'
  | .payload => aborts c
  | _ => false

def after (place : Place) (text : List Char) : Place :=
  text.foldl (fun place c => place.next c) place

end Place

def isControl (c : Char) : Bool :=
  c.toNat < 0x20 || (0x7f ≤ c.toNat && c.toNat ≤ 0x9f)

def written (c : Char) (rest : List Char) : List Char :=
  if c = '\r' then
    if rest.head? = some '\n' then [] else ['\n']
  else if c = '\n' || c = '\t' || !isControl c then [c]
  else []

def sanitizeFrom (place : Place) : List Char → List Char
  | [] => []
  | c :: rest =>
    (if place.shows c then written c rest else []) ++ sanitizeFrom (place.next c) rest

def sanitizeTerminalText (text : List Char) : List Char :=
  sanitizeFrom .text text

/-- What a chunk adds to what is shown of the stream before it, which has come to `place`. -/
def Place.added (place : Place) (chunk : List Char) : List Char :=
  if place = .carriage ∧ chunk.head? = some '\n' then (sanitizeFrom place chunk).tail
  else sanitizeFrom place chunk

def addedTexts (place : Place) : List (List Char) → List (List Char)
  | [] => []
  | chunk :: rest => place.added chunk :: addedTexts (place.after chunk) rest

-- A chunk that does not decode, or whose content is no text, is given as `none`.
def materializedChunksText (chunks : List (Option (List Char))) : List Char :=
  (chunks.filterMap id).flatMap sanitizeTerminalText

def streamed (chunks : List (Option (List Char))) : List Char :=
  (chunks.filterMap id).flatten

section Sanitize

variable {place : Place} {c d : Char} {text rest next : List Char}
  {chunks : List (Option (List Char))}

theorem Place.after_append : place.after (text ++ rest) = (place.after text).after rest := by
  apply foldl_append

theorem Place.next_eq_carriage : place.next c = .carriage ↔ c = '\r' ∧ place.shows c = true := by
  cases place with
  | text | carriage | payload =>
    simp only [next, shows, loop, aborts]
    grind
  | escape | control | second =>
  dsimp only [next]
  repeat' split
  all_goals simp [shows]

theorem written_append (h : c = '\r' → text = [] → rest.head? ≠ some '\n')
    : written c (text ++ rest) = written c text := by
  cases text with
  | nil =>
    unfold written
    grind
  | cons => rfl

theorem sanitizeFrom_append (h : place.after text = .carriage → rest.head? ≠ some '\n')
    : sanitizeFrom place (text ++ rest)
        = sanitizeFrom place text ++ sanitizeFrom (place.after text) rest := by
  induction text generalizing place with
  | nil => rfl
  | cons c text ih =>
    simp only [cons_append, sanitizeFrom, ih h, append_assoc, Place.after,
      foldl_cons]
    congr 1
    split
    next hshows =>
      apply written_append
      rintro rfl rfl
      exact h (Place.next_eq_carriage.mpr ⟨rfl, hshows⟩)
    . rfl

theorem sanitizeFrom_break (hne : text ≠ []) (h : place.after text = .carriage)
    : sanitizeFrom place (text ++ ['\n']) = sanitizeFrom place text := by
  induction text generalizing place with
  | nil => exact absurd rfl hne
  | cons c text ih =>
    cases text with
    | nil =>
      have hcarriage : place.next c = .carriage := h
      obtain ⟨rfl, hshows⟩ := Place.next_eq_carriage.mp hcarriage
      simp [sanitizeFrom, hshows, hcarriage, written]
      rfl
    | cons c' text =>
      have hrest := ih (by simp) h
      simp only [cons_append, sanitizeFrom] at hrest ⊢
      rw [hrest]
      rfl

theorem materializedChunksText_concat
    : materializedChunksText (chunks ++ [some next])
        = materializedChunksText chunks ++ sanitizeTerminalText next := by
  simp [materializedChunksText]

theorem streamed_concat : streamed (chunks ++ [some next]) = streamed chunks ++ next := by
  simp [streamed]

theorem sanitizeTerminalText_append
    : sanitizeTerminalText (text ++ next)
        = sanitizeTerminalText text ++ (Place.text.after text).added next := by
  unfold sanitizeTerminalText Place.added
  split
  next hbreak =>
    obtain ⟨rest, rfl⟩ := head?_eq_some_iff.mp hbreak.2
    have hne : text ≠ [] := by
      rintro rfl
      cases hbreak.1
    have hplace : Place.text.after (text ++ ['\n']) = .text := by
      rw [Place.after_append, hbreak.1]
      rfl
    rw [append_cons, sanitizeFrom_append (by simp [hplace]), sanitizeFrom_break hne hbreak.1,
      hplace, hbreak.1]
    rfl
  next hnot =>
    apply sanitizeFrom_append
    intro hplace hhead
    exact hnot ⟨hplace, hhead⟩

theorem sanitizeTerminalText_flatten (texts : List (List Char))
    : sanitizeTerminalText (text ++ texts.flatten)
        = sanitizeTerminalText text ++ (addedTexts (Place.text.after text) texts).flatten := by
  induction texts generalizing text with
  | nil => simp [addedTexts]
  | cons next texts ih =>
    rw [flatten_cons, ← append_assoc, ih, sanitizeTerminalText_append,
      Place.after_append, addedTexts, flatten_cons, append_assoc]

theorem addedTexts_concat (texts : List (List Char))
    : addedTexts place (texts ++ [next])
        = addedTexts place texts ++ [(place.after texts.flatten).added next] := by
  induction texts generalizing place with
  | nil => rfl
  | cons text texts ih =>
    rw [cons_append, addedTexts, ih, ← Place.after_append]
    rfl

theorem addedTexts_eq_map_iff (chunks : List (Option (List Char)))
    : addedTexts .text (chunks.filterMap id) = (chunks.filterMap id).map sanitizeTerminalText
      ↔ ∀ seen, seen <+: chunks → materializedChunksText seen = sanitizeTerminalText (streamed seen) := by
  induction chunks using List.reverseRec with
  | nil =>
    simp only [prefix_nil, forall_eq]
    exact ⟨fun _ => rfl, fun _ => rfl⟩
  | append_singleton chunks last ih =>
    simp only [prefix_concat_iff, or_imp, forall_and, forall_eq]
    cases last with
    | none =>
      have hnone : (chunks ++ [none]).filterMap id = chunks.filterMap id := by simp
      rw [hnone, ih, materializedChunksText, streamed, hnone]
      exact ⟨fun h => ⟨h chunks (prefix_refl _), h⟩, fun h => h.2⟩
    | some next =>
    have hsome : (chunks ++ [some next]).filterMap id = chunks.filterMap id ++ [next] := by simp
    rw [hsome, addedTexts_concat, map_append, materializedChunksText_concat, streamed_concat,
      sanitizeTerminalText_append]
    constructor
    . intro h
      obtain ⟨hchunks, hnext⟩ := append_inj' h rfl
      have hseen := ih.mp hchunks
      refine ⟨?_, hseen⟩
      rw [hseen chunks (prefix_refl _), ← singleton_inj.mp hnext]
      rfl
    . intro h
      obtain ⟨hnext, hseen⟩ := h
      rw [hseen chunks (prefix_refl _), append_cancel_left_eq] at hnext
      rw [ih.mpr hseen, map_singleton, hnext]
      rfl

theorem sanitizeFrom_plain (place : Place) (text : List Char)
    : ∀ c ∈ sanitizeFrom place text, isControl c = true → c = '\n' ∨ c = '\t' := by
  induction text generalizing place with
  | nil => simp [sanitizeFrom]
  | cons c rest ih =>
    unfold sanitizeFrom
    rw [forall_mem_append]
    refine ⟨?_, ih _⟩
    split
    . unfold written
      grind
    . simp

/-- Two neighbours of which neither is read otherwise when a text is cut between them. -/
def Independent (c d : Char) : Prop :=
  (c = '\r' → d ≠ '\n') ∧ (c = '\x1b' → written d [] = [])

theorem independent_of_cut
    (h : sanitizeTerminalText [c, d] = sanitizeTerminalText [c] ++ sanitizeTerminalText [d])
    : Independent c d := by
  refine ⟨?_, ?_⟩
  . rintro rfl rfl
    revert h
    decide
  . rintro rfl
    have hshown : written d [] = sanitizeTerminalText [d] := by
      by_cases hd : d = '\x1b'
      . rw [hd]
        rfl
      . simp [sanitizeTerminalText, sanitizeFrom, Place.shows, hd]
    rw [hshown]
    exact h.symm

theorem Place.next_escape (h : written c [] = []) : Place.escape.next c = .text := by
  have hshown : "[]PX^_()*+-./#% ".toList.all (written · [] ≠ []) = true := by decide
  have hnot : c ∉ "[]PX^_()*+-./#% ".toList := by
    intro hmem
    exact of_decide_eq_true (all_eq_true.mp hshown c hmem) h
  simp at hnot
  simp [next, hnot]

theorem written_of_independent (h : ∀ d ∈ rest.head?, Independent c d)
    : written c rest = written c [] := by
  unfold written
  split
  . next hc => simpa using fun hrest => (h '\n' hrest).1 hc rfl
  . rfl

theorem written_shown (hplace : place = .text ∨ place = .carriage)
    : (if place.shows c then written c [] else []) = written c [] := by
  by_cases hc : c = '\x1b'
  . rw [hc]
    exact ite_self _
  . rcases hplace with rfl | rfl <;> simp [Place.shows, hc]

theorem sanitizeFrom_of_independent (h : text.IsChain Independent)
    (hplace : place = .text ∨ place = .carriage
      ∨ place = .escape ∧ ∀ c ∈ text.head?, written c [] = [])
    : sanitizeFrom place text = text.flatMap (written · []) := by
  induction text generalizing place with
  | nil => rfl
  | cons c rest ih =>
    rw [isChain_cons] at h
    have hloop : sanitizeFrom (Place.loop c) rest = rest.flatMap (written · []) := by
      apply ih h.2
      unfold Place.loop
      grind [Independent]
    rw [sanitizeFrom, flatMap_cons, written_of_independent h.1]
    rcases hplace with rfl | rfl | ⟨rfl, hsilent⟩
    . rw [written_shown (.inl rfl)]
      exact congrArg _ hloop
    . rw [written_shown (.inr rfl)]
      exact congrArg _ hloop
    . have hc : written c [] = [] := hsilent c rfl
      rw [Place.next_escape hc, ih h.2 (.inl rfl), hc, ite_self]

theorem flatMap_sanitizeTerminalText_of_independent {texts : List (List Char)}
    (h : texts.flatten.IsChain Independent)
    : texts.flatMap sanitizeTerminalText = texts.flatten.flatMap (written · []) := by
  induction texts with
  | nil => rfl
  | cons text texts ih =>
    rw [flatten_cons] at h
    rw [flatMap_cons, flatten_cons, flatMap_append, ih h.right_of_append,
      sanitizeTerminalText, sanitizeFrom_of_independent h.left_of_append (.inl rfl)]

theorem materializedChunksText_of_independent (h : (streamed chunks).IsChain Independent)
    : materializedChunksText chunks = sanitizeTerminalText (streamed chunks) := by
  rw [materializedChunksText, flatMap_sanitizeTerminalText_of_independent h, sanitizeTerminalText,
    sanitizeFrom_of_independent h (.inl rfl)]
  rfl

/--
The text shown of a stream is that of the whole exactly if its chunks add to the stream what they
show alone; at every moment exactly if each chunk does, and for every way of cutting the text exactly
if no two neighbours depend on each other.
-/
theorem shown_text_ignores_cuts (chunks : List (Option (List Char)))
    : (materializedChunksText chunks = sanitizeTerminalText (streamed chunks)
        ↔ (addedTexts .text (chunks.filterMap id)).flatten
          = ((chunks.filterMap id).map sanitizeTerminalText).flatten)
      ∧ ((∀ seen, seen <+: chunks →
            materializedChunksText seen = sanitizeTerminalText (streamed seen))
          ↔ addedTexts .text (chunks.filterMap id)
            = (chunks.filterMap id).map sanitizeTerminalText)
      ∧ ((∀ chunks', streamed chunks' = streamed chunks →
            materializedChunksText chunks' = materializedChunksText chunks
              ∧ materializedChunksText chunks' = sanitizeTerminalText (streamed chunks))
          ↔ (streamed chunks).IsChain Independent)
      ∧ ∀ c ∈ materializedChunksText chunks, isControl c = true → c = '\n' ∨ c = '\t' := by
  refine ⟨?_, (addedTexts_eq_map_iff chunks).symm, ?_, ?_⟩
  . have hwhole : sanitizeTerminalText (streamed chunks)
        = (addedTexts .text (chunks.filterMap id)).flatten := @sanitizeTerminalText_flatten [] _
    rw [hwhole, eq_comm, materializedChunksText, List.flatMap]
  . constructor
    . intro h
      rw [isChain_iff_forall_rel_of_append_cons_cons]
      intro c d front rest htext
      have happart := h [some front, some [c], some [d], some rest]
        (by rw [htext]; simp [streamed])
      have htogether := h [some front, some [c, d], some rest] (by rw [htext]; simp [streamed])
      apply independent_of_cut
      have hsame := htogether.1.trans happart.1.symm
      simp only [materializedChunksText, filterMap_cons, filterMap_nil, id_eq,
        flatMap_cons, flatMap_nil, append_cancel_left_eq] at hsame
      apply append_cancel_right
      rw [append_assoc]
      exact hsame
    . intro h chunks' hsame
      rw [materializedChunksText_of_independent (hsame ▸ h), hsame,
        materializedChunksText_of_independent h]
      exact ⟨rfl, rfl⟩
  . intro c hc
    obtain ⟨text, _, hmem⟩ := mem_flatMap.mp hc
    exact sanitizeFrom_plain .text text c hmem

theorem shown_text_depends_on_cuts
    : materializedChunksText [some "a\r".toList, some "\nb".toList] = "a\n\nb".toList
      ∧ materializedChunksText [some "a\r\nb".toList] = "a\nb".toList
      ∧ materializedChunksText [some "\x1b[3".toList, some "1mred".toList] = "1mred".toList
      ∧ materializedChunksText [some "\x1b[31mred".toList] = "red".toList := by
  decide

theorem sanitizeTerminalText_of_plain (h : ∀ c ∈ text, isControl c = true → c = '\n' ∨ c = '\t')
    : sanitizeTerminalText text = text := by
  unfold sanitizeTerminalText
  induction text with
  | nil => rfl
  | cons c rest ih =>
    rw [forall_mem_cons] at h
    have hescape : c ≠ '\x1b' := by
      rintro rfl
      simp [isControl] at h
    have hcarriage : c ≠ '\r' := by
      rintro rfl
      simp [isControl] at h
    have hwritten : written c rest = [c] := by
      unfold written
      grind
    simp [sanitizeFrom, Place.shows, Place.next, Place.loop, hescape, hcarriage, hwritten, ih h.2]

/-- The sanitiser changes exactly the texts with other control characters, and no text twice. -/
theorem sanitized_text_is_plain (text : List Char)
    : (sanitizeTerminalText text = text
        ↔ ∀ c ∈ text, isControl c = true → c = '\n' ∨ c = '\t') ∧
      sanitizeTerminalText (sanitizeTerminalText text) = sanitizeTerminalText text := by
  refine ⟨⟨?_, sanitizeTerminalText_of_plain⟩, sanitizeTerminalText_of_plain ?_⟩
  . intro h
    rw [← h]
    apply sanitizeFrom_plain
  . apply sanitizeFrom_plain

end Sanitize

end Hel
