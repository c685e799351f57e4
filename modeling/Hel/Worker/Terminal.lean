import Mathlib.Data.List.Basic

/-!
This module contains the output that is kept of a terminal.
-/

namespace Hel

open List

def TERMINAL_BUFFER_SLACK_BYTES : Nat := 64 * 1024

structure TerminalBuffer where
  bytes : List UInt8 := []
  limit : Nat
  dropped : Bool := false

namespace TerminalBuffer

/-- How many bytes follow the first one of a character, and the range of the next of them. -/
def followers (first : UInt8) : Option (Nat × UInt8 × UInt8) :=
  if first < 0x80 then some (0, 0x80, 0xBF)
  else if first < 0xC2 then none
  else if first < 0xE0 then some (1, 0x80, 0xBF)
  else if first = 0xE0 then some (2, 0xA0, 0xBF)
  else if first = 0xED then some (2, 0x80, 0x9F)
  else if first < 0xF0 then some (2, 0x80, 0xBF)
  else if first = 0xF0 then some (3, 0x90, 0xBF)
  else if first < 0xF4 then some (3, 0x80, 0xBF)
  else if first = 0xF4 then some (3, 0x80, 0x8F)
  else none

def accepted : Nat × UInt8 × UInt8 → List UInt8 → Nat
  | (n + 1, low, high), byte :: rest =>
    if low ≤ byte ∧ byte ≤ high then accepted (n, 0x80, 0xBF) rest + 1 else 0
  | _, _ => 0

/-- The characters of a text and, marked with `false`, the longest beginnings of one between them. -/
def characters : Nat → List UInt8 → List (Bool × List UInt8)
  | fuel + 1, first :: rest =>
    match followers first with
    | none => (false, [first]) :: characters fuel rest
    | some wanted =>
      let n := accepted wanted rest
      (n = wanted.1, first :: rest.take n) :: characters fuel (rest.drop n)
  | _, _ => []

def shown (character : Bool × List UInt8) : List UInt8 :=
  if character.1 then character.2 else [0xEF, 0xBF, 0xBD]

/-- The bytes of `String::from_utf8_lossy`. -/
def fromUtf8Lossy (bytes : List UInt8) : List UInt8 :=
  (characters bytes.length bytes).flatMap shown

def isContinuation (byte : UInt8) : Bool :=
  byte &&& 0b11000000 = 0b10000000

def new (limit : Nat) : TerminalBuffer :=
  { limit := max limit 1 }

def append (buffer : TerminalBuffer) (chunk : List UInt8) : TerminalBuffer :=
  let bytes := buffer.bytes ++ chunk
  if bytes.length > buffer.limit + TERMINAL_BUFFER_SLACK_BYTES then
    { buffer with bytes := bytes.drop (bytes.length - buffer.limit), dropped := true }
  else
    { buffer with bytes := bytes }

def read (buffer : TerminalBuffer) : List UInt8 × Bool :=
  let start := buffer.bytes.length - buffer.limit
  let truncated := buffer.dropped || decide (start > 0)
  let tail := buffer.bytes.drop start
  (fromUtf8Lossy (if truncated then tail.dropWhile isContinuation else tail), truncated)

def bufferedLen (buffer : TerminalBuffer) : Nat :=
  buffer.bytes.length

def boundedTail (limit : Nat) (written : List UInt8) : List UInt8 :=
  let tail := written.drop (written.length - limit)
  if written.length > limit then tail.dropWhile isContinuation else tail

def growth : List (Bool × List UInt8) → Nat
  | [] => 0
  | (complete, bytes) :: rest => (if complete then 0 else 3 - bytes.length) + growth rest

def LeavesRoom (limit : Nat) (tail : List UInt8) : Prop :=
  tail.length + growth (characters tail.length tail) ≤ limit

/-- The bytes kept are the end of those written, and at least the limit of them once some are gone. -/
def Keeps (limit : Nat) (written : List UInt8) (buffer : TerminalBuffer) : Prop :=
  buffer.limit = limit ∧ buffer.bytes.length ≤ limit + TERMINAL_BUFFER_SLACK_BYTES
    ∧ ∃ gone, written = gone ++ buffer.bytes ∧ buffer.dropped = !gone.isEmpty
      ∧ (gone = [] ∨ limit ≤ buffer.bytes.length)

section

variable {limit : Nat} {written : List UInt8} {buffer : TerminalBuffer}

theorem Keeps.append (h : Keeps limit written buffer) (chunk : List UInt8)
    : Keeps limit (written ++ chunk) (buffer.append chunk) := by
  obtain ⟨rfl, _, gone, rfl, hdropped, hfull⟩ := h
  have hgrows : buffer.bytes.length ≤ (buffer.bytes ++ chunk).length := by simp
  unfold TerminalBuffer.append
  rw [append_assoc]
  generalize buffer.bytes ++ chunk = bytes at hgrows ⊢
  dsimp only
  split
  next hlong =>
    have hlength : (bytes.drop (bytes.length - buffer.limit)).length = buffer.limit := by
      rw [length_drop]
      omega
    have hpos : bytes.length - buffer.limit ≠ 0 := by omega
    have hne : bytes ≠ [] := ne_nil_of_length_pos (by omega)
    refine ⟨rfl, ?_, gone ++ bytes.take (bytes.length - buffer.limit), ?_, ?_,
      Or.inr (Nat.le_of_eq hlength.symm)⟩
    . dsimp only
      omega
    . rw [append_assoc, take_append_drop]
    . simp [hpos, hne]
  next hshort =>
    refine ⟨rfl, Nat.not_lt.mp hshort, gone, rfl, hdropped, hfull.imp_right ?_⟩
    intro hle
    exact Nat.le_trans hle hgrows

theorem keeps_foldl (chunks : List (List UInt8)) (h : Keeps limit written buffer)
    : Keeps limit (written ++ chunks.flatten) (chunks.foldl TerminalBuffer.append buffer) := by
  induction chunks generalizing written buffer with
  | nil => simpa using h
  | cons chunk chunks ih =>
    rw [flatten_cons, ← append_assoc]
    exact ih (h.append chunk)

theorem Keeps.read (h : Keeps limit written buffer)
    : buffer.read
      = (fromUtf8Lossy (boundedTail limit written), decide (written.length > limit)) := by
  obtain ⟨rfl, _, gone, rfl, hdropped, hfull⟩ := h
  have htail : buffer.bytes.drop (buffer.bytes.length - buffer.limit)
      = (gone ++ buffer.bytes).drop ((gone ++ buffer.bytes).length - buffer.limit) := by
    rcases hfull with rfl | hle
    . rfl
    . rw [length_append, Nat.add_sub_assoc hle, drop_length_add_append]
  have htruncated : (buffer.dropped || decide (buffer.bytes.length - buffer.limit > 0))
      = decide ((gone ++ buffer.bytes).length > buffer.limit) := by
    rw [hdropped, length_append]
    cases gone with
    | nil => simp only [isEmpty_nil, Bool.not_true, Bool.false_or, length_nil, Nat.zero_add,
        gt_iff_lt, Nat.sub_pos_iff_lt]
    | cons byte gone =>
    have := hfull.resolve_left (by simp)
    simp
    omega
  unfold TerminalBuffer.read boundedTail
  simp only [htail, htruncated, decide_eq_true_eq]

end

theorem accepted_le (n : Nat) (low high : UInt8) (rest : List UInt8)
    : accepted (n, low, high) rest ≤ n ∧ accepted (n, low, high) rest ≤ rest.length := by
  induction n generalizing low high rest with
  | zero => simp [accepted]
  | succ n ih =>
    cases rest with
    | nil => simp [accepted]
    | cons byte rest =>
    have := ih 0x80 0xBF rest
    unfold accepted
    split
    . simp only [length_cons]
      omega
    . omega

theorem followers_le {first : UInt8} {wanted : Nat × UInt8 × UInt8}
    (h : followers first = some wanted) : wanted.1 ≤ 3 := by
  unfold followers at h
  repeat' split at h
  all_goals cases h <;> decide

theorem length_characters (fuel : Nat) (bytes : List UInt8) (hfuel : bytes.length ≤ fuel)
    : ((characters fuel bytes).flatMap shown).length
      = bytes.length + growth (characters fuel bytes) := by
  induction fuel generalizing bytes with
  | zero =>
    rw [length_eq_zero_iff.mp (Nat.le_zero.mp hfuel)]
    rfl
  | succ fuel ih =>
    cases bytes with
    | nil => rfl
    | cons first rest =>
    rw [length_cons] at hfuel ⊢
    unfold characters
    cases hwanted : followers first with
    | none =>
      have := ih rest (by omega)
      simp [growth, shown, this]
      omega
    | some wanted =>
    have hthree := followers_le hwanted
    obtain ⟨n, low, high⟩ := wanted
    have haccepted := accepted_le n low high rest
    generalize hn : accepted (n, low, high) rest = taken at haccepted ⊢
    have := ih (rest.drop taken) (by rw [length_drop]; omega)
    rw [length_drop] at this
    by_cases hall : taken = n
    . subst hall
      simp [growth, shown, this, hn]
      omega
    . simp [growth, shown, this, hn, hall]
      omega

/--
Whatever the chunks, the end of all that was written is read, and whether anything is missing. What
is read keeps to the limit exactly if its replacement characters do.
-/
theorem terminal_output_is_bounded_tail (limit : Nat) (chunks : List (List UInt8))
    : (chunks.foldl append (new limit)).read
        = (fromUtf8Lossy (boundedTail (max limit 1) chunks.flatten),
          decide (chunks.flatten.length > max limit 1))
      ∧ ((chunks.foldl append (new limit)).read.1.length ≤ max limit 1
        ↔ LeavesRoom (max limit 1) (boundedTail (max limit 1) chunks.flatten))
      ∧ (chunks.foldl append (new limit)).bufferedLen
        ≤ max limit 1 + TERMINAL_BUFFER_SLACK_BYTES := by
  have hkeeps : Keeps (max limit 1) chunks.flatten (chunks.foldl append (new limit)) := by
    have hnew : Keeps (max limit 1) [] (new limit) :=
      ⟨rfl, Nat.zero_le _, [], rfl, rfl, Or.inl rfl⟩
    exact keeps_foldl chunks hnew
  refine ⟨hkeeps.read, ?_, hkeeps.2.1⟩
  rw [hkeeps.read]
  dsimp only [fromUtf8Lossy]
  rw [length_characters _ _ (Nat.le_refl _)]
  rfl

theorem terminal_output_exceeds_limit
    : ((new 1).append [0xFF]).read = ([0xEF, 0xBF, 0xBD], false) := by
  decide

end TerminalBuffer

end Hel
