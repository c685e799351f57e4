import Mathlib.Data.List.DropRight
import Hel.Controller.Impl.Session

/-!
This module contains what the reader of a prompt or title removes of its hidden context.
-/

namespace Hel

open Text List

def openTag (tag : List Char) : List Char :=
  '<' :: (tag ++ ['>'])

def closeTag (tag : List Char) : List Char :=
  "</".toList ++ tag ++ ">".toList

structure HiddenBlock where
  tag : List Char
  body : List Char
  reserved : reservedHiddenContextTag tag = true

def hiddenText (blocks : List HiddenBlock) : List Char :=
  blocks.flatMap (fun block => openTag block.tag ++ (block.body ++ closeTag block.tag))

/--
Whether a text opens with a reserved tag: a complete one, or one that the text ends in after the
reserved start of its name.
-/
def opensHidden : List Char → Bool
  | '<' :: afterOpen =>
    if '>' ∈ afterOpen then reservedHiddenContextTag (afterOpen.takeWhile (· ≠ '>'))
    else reservedHiddenContextPrefix afterOpen
  | _ => false

variable {tag other text inner after rest : List Char}

/-!
### The last close tag
-/

theorem afterLast_cons (pattern : List Char) (c : Char) (rest : List Char)
    : afterLast pattern (c :: rest)
        = (afterLast pattern rest).or (afterStart pattern (c :: rest)) := by
  cases hrest : afterLast pattern rest with
  | none => simp [afterLast, hrest]
  | some after => simp [afterLast, hrest]

theorem afterLast_suffix {pattern : List Char} (h : afterLast pattern text = some after)
    : after <:+ text := by
  induction text with
  | nil =>
    simp only [afterLast, Option.ite_none_right_eq_some, Option.some.injEq] at h
    exact h.2 ▸ suffix_refl _
  | cons c rest ih =>
    rw [afterLast_cons, Option.or_eq_some_iff] at h
    rcases h with hrest | ⟨_, hstart⟩
    . apply (ih hrest).trans (suffix_cons c rest)
    simp only [afterStart, Option.ite_none_right_eq_some, Option.some.injEq] at hstart
    rw [← hstart.2]
    apply drop_suffix

theorem afterLast_append (h : afterLast tag rest = some after) (text : List Char)
    : afterLast tag (text ++ rest) = some after := by
  induction text with
  | nil => exact h
  | cons c text ih => rw [cons_append, afterLast_cons, ih, Option.some_or]

theorem afterLast_skip {pattern : List Char}
    (h : ∀ part, part <:+ text → part ≠ [] → ¬ pattern <+: part ++ rest)
    : afterLast pattern (text ++ rest) = afterLast pattern rest := by
  induction text with
  | nil => rfl
  | cons c text ih =>
    have hstart := h (c :: text) (suffix_refl _) (by simp)
    rw [cons_append] at hstart
    rw [cons_append, afterLast_cons, ih]
    . simp [afterStart, hstart]
    . intro part hpart
      apply h part (hpart.trans (suffix_cons c text))

/-!
### Reserved tags
-/

theorem notMem_reserved (h : reservedHiddenContextTag tag = true)
    : '<' ∉ tag ∧ '>' ∉ tag ∧ '/' ∉ tag := by
  simp only [reservedHiddenContextTag, Bool.or_eq_true, Bool.and_eq_true, all_eq_true,
    decide_eq_true_eq] at h
  rcases h with ⟨_, hall⟩ | rfl
  . refine ⟨?_, ?_, ?_⟩
    all_goals
      intro hmem
      have := hall _ hmem
      revert this
      decide
  . decide

theorem takeWhile_tag (h : '>' ∉ tag) : (tag ++ '>' :: inner).takeWhile (· ≠ '>') = tag := by
  rw [takeWhile_append_of_pos]
  . simp
  intro c hc
  simp only [ne_eq, decide_eq_true_eq]
  rintro rfl
  contradiction

theorem closeTag_eq (tag : List Char) : closeTag tag = '<' :: '/' :: (tag ++ ['>']) :=
  rfl

theorem afterLast_skip_tag (h : '<' ∉ text)
    : afterLast (closeTag tag) (text ++ rest) = afterLast (closeTag tag) rest := by
  apply afterLast_skip
  intro part hpart hne hstart
  cases part with
  | nil => contradiction
  | cons c part =>
  rw [closeTag_eq, cons_append, cons_prefix_cons] at hstart
  apply h
  rw [hstart.1]
  apply hpart.subset (mem_cons_self ..)

theorem afterLast_skip_body (htag : reservedHiddenContextTag tag = true)
    (h : ¬ closeTag tag <:+: text) (hrest : ∀ c ∈ rest.head?, c = '<')
    : afterLast (closeTag tag) (text ++ rest) = afterLast (closeTag tag) rest := by
  apply afterLast_skip
  intro part hpart hne hstart
  have hpart (hstart : closeTag tag <+: part) : False :=
    h (hstart.isInfix.trans hpart.isInfix)
  obtain ⟨behind, hsame⟩ := hstart
  rcases append_eq_append_iff.mp hsame with ⟨cut, hcut, _⟩ | ⟨cut, hcut, hbehind⟩
  . exact hpart ⟨cut, hcut.symm⟩
  cases cut with
  | nil => exact hpart ⟨[], by rw [hcut, append_nil, append_nil]⟩
  | cons d cut =>
  cases part with
  | nil => contradiction
  | cons c part =>
  have hd : d = '<' := hrest d (by simp [hbehind])
  rw [closeTag_eq, cons_append, List.cons.injEq, hd] at hcut
  have hmem : '<' ∈ '/' :: (tag ++ ['>']) := by simp [hcut.2]
  simp [(notMem_reserved htag).1] at hmem

theorem afterLast_openTag (hother : reservedHiddenContextTag other = true)
    : afterLast (closeTag tag) (openTag other ++ rest) = afterLast (closeTag tag) rest := by
  have hreserved := notMem_reserved hother
  have hstart : afterStart (closeTag tag) ('<' :: (other ++ ['>'] ++ rest)) = none := by
    cases other with
    | nil => simp [afterStart, closeTag]
    | cons c other =>
    have hc : '/' ≠ c := by
      rintro rfl
      simp at hreserved
    simp [afterStart, closeTag, hc]
  rw [openTag, cons_append, afterLast_cons, afterLast_skip_tag, hstart, Option.or_none]
  simp [hreserved.1]

theorem afterLast_closeTag (htag : reservedHiddenContextTag tag = true)
    (hother : reservedHiddenContextTag other = true)
    : afterLast (closeTag tag) (closeTag other ++ rest)
        = (afterLast (closeTag tag) rest).or (if other = tag then some rest else none) := by
  have hstart : afterStart (closeTag tag) (closeTag other ++ rest)
      = if other = tag then some rest else none := by
    split
    next heq => simp [afterStart, heq]
    rename_i hne
    rw [afterStart, if_neg]
    intro hstart
    obtain ⟨behind, hsame⟩ := isPrefixOf_iff_prefix.mp hstart
    simp only [closeTag_eq, cons_append, append_assoc, nil_append,
      List.cons.injEq, true_and] at hsame
    apply hne
    rw [← takeWhile_tag (notMem_reserved hother).2.1, ← hsame,
      takeWhile_tag (notMem_reserved htag).2.1]
  rw [closeTag_eq other, cons_append] at hstart ⊢
  rw [afterLast_cons, afterLast_skip_tag, hstart]
  simp [(notMem_reserved hother).1]

variable {blocks : List HiddenBlock}

theorem hiddenText_cons (block : HiddenBlock) (blocks : List HiddenBlock) (text : List Char)
    : hiddenText (block :: blocks) ++ text
        = openTag block.tag
          ++ (block.body ++ (closeTag block.tag ++ (hiddenText blocks ++ text))) := by
  simp [hiddenText]

theorem afterLast_hiddenText (htag : reservedHiddenContextTag tag = true)
    (hbodies : ∀ block ∈ blocks, ¬ closeTag tag <:+: block.body) (htext : ¬ closeTag tag <:+: text)
    (h : afterLast (closeTag tag) (hiddenText blocks ++ text) = some after)
    : ∃ back, back <:+ blocks ∧ after = hiddenText back ++ text := by
  induction blocks with
  | nil =>
    have hnone : afterLast (closeTag tag) (text ++ []) = none :=
      afterLast_skip_body htag htext (by simp)
    rw [append_nil] at hnone
    rw [hiddenText, flatMap_nil, nil_append, hnone] at h
    cases h
  | cons block blocks ih =>
    rw [forall_mem_cons] at hbodies
    rw [hiddenText_cons, afterLast_openTag block.reserved, afterLast_skip_body htag hbodies.1,
      afterLast_closeTag htag block.reserved, Option.or_eq_some_iff] at h
    . rcases h with h | ⟨_, h⟩
      . obtain ⟨back, hback, hafter⟩ := ih hbodies.2 h
        exact ⟨back, hback.trans (suffix_cons block blocks), hafter⟩
      . simp only [Option.ite_none_right_eq_some, Option.some.injEq] at h
        exact ⟨blocks, suffix_cons block blocks, h.2.symm⟩
    . simp [closeTag]

theorem afterLast_own (htag : reservedHiddenContextTag tag = true)
    (hbodies : ∀ block ∈ blocks, ¬ closeTag tag <:+: block.body) (htext : ¬ closeTag tag <:+: text)
    : ∃ back, back <:+ blocks
      ∧ afterLast (closeTag tag) (closeTag tag ++ (hiddenText blocks ++ text))
        = some (hiddenText back ++ text) := by
  rw [afterLast_closeTag htag htag, if_pos rfl]
  cases hlast : afterLast (closeTag tag) (hiddenText blocks ++ text) with
  | none => exact ⟨blocks, suffix_refl _, rfl⟩
  | some after =>
    obtain ⟨back, hback, hafter⟩ := afterLast_hiddenText htag hbodies htext hlast
    exact ⟨back, hback, by rw [hafter, Option.some_or]⟩

/-!
### One round
-/

def hiddenRest : List Char → Option (List Char)
  | '<' :: afterOpen =>
    let tag := afterOpen.takeWhile (· ≠ '>')
    afterLast (closeTag tag) (afterOpen.drop (tag.length + 1))
  | _ => none

theorem hiddenRest_shorter (h : hiddenRest text = some rest)
    : rest <:+ text ∧ rest.length < text.length := by
  unfold hiddenRest at h
  split at h
  next afterOpen =>
    have hrest := (afterLast_suffix h).trans (drop_suffix _ afterOpen)
    have := hrest.length_le
    refine ⟨hrest.trans (suffix_cons '<' afterOpen), ?_⟩
    simp only [length_cons]
    omega
  next => cases h

theorem stripHiddenFrom_succ (fuel : Nat) (text : List Char)
    : stripHiddenFrom (fuel + 1) text
        = if opensHidden (trimStart text) then
            ((hiddenRest (trimStart text)).map (stripHiddenFrom fuel)).getD []
          else trimStart text := by
  unfold stripHiddenFrom
  split
  next afterOpen htext =>
    by_cases hend : '>' ∈ afterOpen
    . obtain ⟨tag, inner, rfl, htag⟩ := eq_append_cons_of_mem hend
      have hinner : (tag ++ '>' :: inner).drop (tag.length + 1) = inner := by simp
      simp only [htext, opensHidden, hiddenRest, hend, if_true, takeWhile_tag htag, drop_left,
        hinner]
      cases hlast : afterLast (closeTag tag) inner with rw [closeTag] at hlast
      | none =>
        simp only [hlast]
        cases reservedHiddenContextTag tag <;> rfl
      | some rest =>
        simp only [hlast]
        cases reservedHiddenContextTag tag <;> rfl
    . have hwhole : afterOpen.takeWhile (· ≠ '>') = afterOpen := by
        rw [takeWhile_eq_self_iff]
        intro c hc
        simp only [ne_eq, decide_eq_true_eq]
        rintro rfl
        contradiction
      have hdrop : afterOpen.drop (afterOpen.length + 1) = [] := by simp
      simp only [htext, opensHidden, hiddenRest, hend, if_false, hwhole, drop_length, hdrop]
      rfl
  next hother =>
    have hopen : opensHidden (trimStart text) = false := by
      unfold opensHidden
      split
      next afterOpen htext => exact absurd htext (hother afterOpen)
      next => rfl
    rw [hopen, if_neg Bool.false_ne_true]

theorem stripHiddenFrom_shown (h : opensHidden (trimStart text) = false) (fuel : Nat)
    : stripHiddenFrom (fuel + 1) text = trimStart text := by
  rw [stripHiddenFrom_succ, h, if_neg Bool.false_ne_true]

theorem stripHiddenFrom_openTag (htag : reservedHiddenContextTag tag = true) (fuel : Nat)
    : stripHiddenFrom (fuel + 1) (openTag tag ++ inner)
        = ((afterLast (closeTag tag) inner).map (stripHiddenFrom fuel)).getD [] := by
  have htrim : trimStart (openTag tag ++ inner) = '<' :: (tag ++ '>' :: inner) := by
    simp [openTag, trimStart, isWhitespace]
  have hinner : (tag ++ '>' :: inner).drop (tag.length + 1) = inner := by simp
  rw [stripHiddenFrom_succ, htrim]
  simp only [opensHidden, hiddenRest, takeWhile_tag (notMem_reserved htag).2.1, htag, hinner]
  simp

/-!
### Whole runs
-/

theorem stripHiddenFrom_ends (text : List Char)
    : ∃ result, result <:+ text ∧ trimStart result = result ∧ opensHidden result = false
      ∧ ∀ fuel, text.length ≤ fuel → stripHiddenFrom (fuel + 1) text = result := by
  have htrim : trimStart text <:+ text := dropWhile_suffix _
  induction hlength : text.length using Nat.strongRecOn generalizing text with
  | ind length ih =>
    simp only [stripHiddenFrom_succ]
    cases hopen : opensHidden (trimStart text) with
    | false => exact ⟨trimStart text, htrim, dropWhile_idempotent .., hopen, fun fuel _ => rfl⟩
    | true =>
    cases hrest : hiddenRest (trimStart text) with
    | none => exact ⟨[], nil_suffix, rfl, rfl, fun fuel _ => rfl⟩
    | some rest =>
    have hshorter := hiddenRest_shorter hrest
    have := htrim.length_le
    obtain ⟨result, hresult, hends⟩ := ih rest.length (by omega) rest (dropWhile_suffix _) rfl
    refine ⟨result, (hresult.trans hshorter.1).trans htrim, hends.1, hends.2.1, ?_⟩
    intro fuel hfuel
    cases fuel with
    | zero => omega
    | succ fuel => apply hends.2.2 fuel (by omega)

theorem stripHiddenFrom_blocks
    (hbodies : blocks.Pairwise (fun earlier later => ¬ closeTag earlier.tag <:+: later.body))
    (htext : ∀ block ∈ blocks, ¬ closeTag block.tag <:+: text)
    (hshown : opensHidden (trimStart text) = false) {fuel : Nat} (hfuel : blocks.length ≤ fuel)
    : stripHiddenFrom (fuel + 1) (hiddenText blocks ++ text) = trimStart text := by
  induction fuel generalizing blocks with
  | zero =>
    rw [eq_nil_of_length_eq_zero (Nat.le_zero.mp hfuel)]
    apply stripHiddenFrom_shown hshown
  | succ fuel ih =>
    cases blocks with
    | nil => apply stripHiddenFrom_shown hshown
    | cons block blocks =>
    rw [pairwise_cons] at hbodies
    rw [forall_mem_cons] at htext
    obtain ⟨back, hback, hlast⟩ := afterLast_own block.reserved hbodies.1 htext.1
    rw [hiddenText_cons, stripHiddenFrom_openTag block.reserved, afterLast_append hlast]
    apply ih (hbodies.2.sublist hback.sublist)
    . intro later hlater
      apply htext.2 later (hback.subset hlater)
    have := hback.length_le
    simp only [length_cons] at hfuel
    omega

theorem hidden_context_is_stripped (text : String)
    : (∀ fuel, text.toList.length ≤ fuel
        → stripHiddenFrom (fuel + 1) text.toList = stripHiddenPromptContext text)
      ∧ stripHiddenPromptContext text <:+ text.toList
      ∧ stripHiddenPromptContext (String.ofList (stripHiddenPromptContext text))
        = stripHiddenPromptContext text
      ∧ opensHidden (trimStart (stripHiddenPromptContext text)) = false
      ∧ ∀ blocks shown, text.toList = hiddenText blocks ++ shown
        → blocks.Pairwise (fun earlier later => ¬ closeTag earlier.tag <:+: later.body)
        → (∀ block ∈ blocks, ¬ closeTag block.tag <:+: shown)
        → opensHidden (trimStart shown) = false
        → stripHiddenPromptContext text = trimStart shown := by
  obtain ⟨result, hsuffix, htrim, hshown, hends⟩ := stripHiddenFrom_ends text.toList
  have hresult : stripHiddenPromptContext text = result := hends text.toList.length (Nat.le_refl _)
  rw [hresult]
  refine ⟨hends, hsuffix, ?_, ?_, ?_⟩
  . rw [stripHiddenPromptContext, String.toList_ofList, stripHiddenFrom_shown, htrim]
    rw [htrim]
    exact hshown
  . rw [htrim]
    exact hshown
  . intro blocks shown htext hbodies hclosed hopen
    rw [← hends (text.toList.length + blocks.length) (Nat.le_add_right ..), htext]
    apply stripHiddenFrom_blocks hbodies hclosed hopen (Nat.le_add_left ..)

theorem hidden_context_is_stripped_of_two_blocks
    : stripHiddenPromptContext "<hel-a>x</mj-b></hel-a><mj-b></mj-b> t" = "t".toList := by
  have hblocks := (hidden_context_is_stripped "<hel-a>x</mj-b></hel-a><mj-b></mj-b> t").2.2.2.2
    [⟨"hel-a".toList, "x</mj-b>".toList, by decide⟩, ⟨"mj-b".toList, [], by decide⟩] " t".toList
  apply hblocks
  . decide
  . decide
  . decide
  . decide

-- The last close tag of the first block stands in the body of the second, and a tag that is cut
-- before the end of its reserved name is no tag.
theorem hidden_context_is_shown
    : stripHiddenPromptContext "<hel-a>x</hel-a><hel-b>y</hel-a>z</hel-b>t" = "z</hel-b>t".toList
      ∧ stripHiddenPromptContext "<user_shell_comm" = "<user_shell_comm".toList := by
  decide

end Hel
