import Mathlib.Algebra.GroupWithZero.Nat

/-!
This module contains string predicates and renderings that are computed over the characters of a
string, so that they evaluate on concrete text.
-/

namespace Text

def isLowerHexDigit (byte : UInt8) : Bool :=
  (48 ≤ byte && byte ≤ 57) || (97 ≤ byte && byte ≤ 102)

def bytes (s : String) : List UInt8 :=
  s.toByteArray.data.toList

def isAsciiAlphanumeric (c : Char) : Bool :=
  ('0' ≤ c && c ≤ '9') || ('a' ≤ c && c ≤ 'z') || ('A' ≤ c && c ≤ 'Z')

def isWhitespace (c : Char) : Bool :=
  (0x9 ≤ c.toNat && c.toNat ≤ 0xd) || c.toNat = 0x20 || c.toNat = 0x85 || c.toNat = 0xa0
    || c.toNat = 0x1680 || (0x2000 ≤ c.toNat && c.toNat ≤ 0x200a) || c.toNat = 0x2028
    || c.toNat = 0x2029 || c.toNat = 0x202f || c.toNat = 0x205f || c.toNat = 0x3000

def isBlank (s : String) : Bool :=
  s.toList.all isWhitespace

def replaceChars (f : Char → List Char) (s : String) : String :=
  String.ofList (s.toList.flatMap f)

def escapeMarkup (s : String) : String :=
  replaceChars
    (fun
      | '&' => "&amp;".toList
      | '<' => "&lt;".toList
      | '>' => "&gt;".toList
      | c => [c])
    s

def debugString (s : String) : String :=
  "\"" ++
    replaceChars
      (fun
        | '"' => ['\\', '"']
        | '\\' => ['\\', '\\']
        | '\n' => ['\\', 'n']
        | '\r' => ['\\', 'r']
        | '\t' => ['\\', 't']
        | c => [c])
      s
    ++ "\""

def debugStrings (items : List String) : String :=
  "[" ++ ", ".intercalate (items.map debugString) ++ "]"

def trimStart (text : List Char) : List Char :=
  text.dropWhile isWhitespace

def wordsFrom (word : List Char) : List Char → List (List Char)
  | [] => if word.isEmpty then [] else [word]
  | c :: rest =>
    if isWhitespace c then
      (if word.isEmpty then [] else [word]) ++ wordsFrom [] rest
    else
      wordsFrom (word ++ [c]) rest

def words (text : List Char) : List (List Char) :=
  wordsFrom [] text

def afterStart (pattern text : List Char) : Option (List Char) :=
  if pattern.isPrefixOf text then some (text.drop pattern.length) else none

def afterLast (pattern : List Char) : List Char → Option (List Char)
  | [] => if pattern.isEmpty then some [] else none
  | c :: rest =>
    match afterLast pattern rest with
    | some after => some after
    | none => afterStart pattern (c :: rest)

def replaceFirstChars (pattern replacement : List Char) : List Char → List Char
  | [] => []
  | c :: rest =>
    match afterStart pattern (c :: rest) with
    | some after => replacement ++ after
    | none => c :: replaceFirstChars pattern replacement rest

def replaceFirst (pattern replacement text : String) : String :=
  String.ofList (replaceFirstChars pattern.toList replacement.toList text.toList)

def trimEnd (text : List Char) : List Char :=
  (text.reverse.dropWhile isWhitespace).reverse

def trim (text : List Char) : List Char :=
  trimEnd (trimStart text)

def trimMatches (c : Char) (text : List Char) : List Char :=
  ((text.dropWhile (· = c)).reverse.dropWhile (· = c)).reverse

def trimmed (s : String) : String :=
  String.ofList (trim s.toList)

-- The lines of a text; `line` is the line being read. A line ends at a line feed, together with a
-- carriage return right before it, and an empty last line is not listed.
def linesFrom (line : List Char) : List Char → List (List Char)
  | [] => if line.isEmpty then [] else [line]
  | c :: rest =>
    if c = '\n' then
      (if line.getLast? = some '\r' then line.dropLast else line) :: linesFrom [] rest
    else
      linesFrom (line ++ [c]) rest

def lines (text : List Char) : List (List Char) :=
  linesFrom [] text

def splitFrom (separator : Char) (part : List Char) : List Char → List (List Char)
  | [] => [part]
  | c :: rest =>
    if c = separator then part :: splitFrom separator [] rest
    else splitFrom separator (part ++ [c]) rest

def split (separator : Char) (text : List Char) : List (List Char) :=
  splitFrom separator [] text

def splitOnce (separator : Char) : List Char → Option (List Char × List Char)
  | [] => none
  | c :: rest =>
    if c = separator then some ([], rest)
    else (splitOnce separator rest).map (fun (before, after) => (c :: before, after))

def contains (pattern text : List Char) : Bool :=
  (afterLast pattern text).isSome

def equalsIgnoringAsciiCase (left right : List Char) : Bool :=
  left.map Char.toLower = right.map Char.toLower

def byteLength (text : List Char) : Nat :=
  (text.map Char.utf8Size).sum

def takeBytes : Nat → List Char → List Char
  | _, [] => []
  | limit, c :: rest => if c.utf8Size ≤ limit then c :: takeBytes (limit - c.utf8Size) rest else []

def dropBytes : Nat → List Char → List Char
  | _, [] => []
  | 0, text => text
  | count, c :: rest => dropBytes (count - c.utf8Size) rest

section Decimal

variable {m n : Nat} {c : Char}

theorem isDigit_of_mem_toString (h : c ∈ (toString n).toList) : c.isDigit = true := by
  have hmem : c ∈ Nat.toDigits 10 n := by
    rw [← Nat.toList_repr]
    exact h
  exact Nat.isDigit_of_mem_toDigits (by omega) (by omega) hmem

theorem toString_injective (h : toString m = toString n) : m = n := by
  have hlist : Nat.toDigits 10 m = Nat.toDigits 10 n := by
    rw [← Nat.toList_repr, ← Nat.toList_repr]
    exact congrArg String.toList h
  have hvalue := congrArg (fun digits => Nat.ofDigitChars 10 digits 0) hlist
  simpa using hvalue

theorem append_toString_injective {left right : List Char} (hc : c.isDigit = false)
    (h : left ++ [c] ++ (toString m).toList = right ++ [c] ++ (toString n).toList)
    : left = right ∧ m = n := by
  have hnumber (text : List Char) (n : Nat)
      : (text ++ [c] ++ (toString n).toList).reverse.takeWhile Char.isDigit
          = (toString n).toList.reverse := by
    rw [List.reverse_append, List.takeWhile_append_of_pos]
    . simp [hc]
    . intro digit hdigit
      exact isDigit_of_mem_toString (List.mem_reverse.mp hdigit)
  have hsame := hnumber left m
  rw [h, hnumber, List.reverse_inj, String.toList_inj] at hsame
  have hn := toString_injective hsame
  subst hn
  exact ⟨List.append_cancel_right (List.append_cancel_right h), rfl⟩

end Decimal

end Text
