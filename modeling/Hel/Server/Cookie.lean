import Mathlib.Data.Set.Defs
import Hel.Data.Text

/-!
This module contains the cookies of the viewers.
-/

namespace Hel

def parseU64 (text : List Char) : Option Nat :=
  let digits := if text.head? = some '+' then text.tail else text
  let value := digits.foldl (fun value c => 10 * value + (c.toNat - '0'.toNat)) 0
  if !digits.isEmpty && digits.all Char.isDigit && value < 2 ^ 64 then some value else none

def constantTimeEq (left right : List UInt8) : Bool :=
  if left.length ≠ right.length then
    false
  else
    (left.zip right).foldl (fun difference (left, right) => difference ||| (left ^^^ right)) 0 = 0

inductive ViewerCookie where
  | signed (viewer : String) (expiry : Nat)
  | legacy (expiry : Nat)
  deriving DecidableEq

namespace ViewerCookie

def canonical : ViewerCookie → String
  | signed viewer expiry => viewer ++ "|" ++ toString expiry
  | legacy expiry => toString expiry

def expiry : ViewerCookie → Nat
  | signed _ expiry | legacy expiry => expiry

def viewer? : ViewerCookie → Option String
  | signed viewer _ => some viewer
  | legacy _ => none

end ViewerCookie

-- The tag of a text, encoded for a cookie, is the only part of the key that matters.
def signedCookieValue (tag : String → String) (viewer : String) (expiry : Nat) : String :=
  viewer ++ "." ++ toString expiry ++ "." ++ tag (viewer ++ "|" ++ toString expiry)

def legacySignedCookieValue (tag : String → String) (expiry : Nat) : String :=
  toString expiry ++ "." ++ tag (toString expiry)

def ViewerCookie.value (tag : String → String) : ViewerCookie → String
  | signed viewer expiry => signedCookieValue tag viewer expiry
  | legacy expiry => legacySignedCookieValue tag expiry

def presentedCookie (value : String) : Option ViewerCookie :=
  match Text.split '.' value.toList with
  | [viewer, expiry, _] => (parseU64 expiry).map (.signed (String.ofList viewer))
  | [expiry, _] => (parseU64 expiry).map .legacy
  | _ => none

def cookieViewer (tag : String → String) (value : String) (now : Nat) : Option (Option String) :=
  match presentedCookie value with
  | none => none
  | some cookie =>
    if cookie.expiry ≤ now then
      none
    else if constantTimeEq (Text.bytes (cookie.value tag)) (Text.bytes value) then
      some cookie.viewer?
    else
      none

theorem foldl_or_eq_zero (pairs : List (UInt8 × UInt8)) (difference : UInt8)
    : pairs.foldl (fun difference (left, right) => difference ||| (left ^^^ right)) difference = 0
      ↔ difference = 0 ∧ ∀ pair ∈ pairs, pair.1 = pair.2 := by
  induction pairs generalizing difference with
  | nil => simp
  | cons pair rest ih =>
    rw [List.foldl_cons, ih]
    simp [UInt8.or_eq_zero_iff, and_assoc]

theorem eq_of_constantTimeEq {left right : List UInt8} (h : constantTimeEq left right = true)
    : left = right := by
  unfold constantTimeEq at h
  split at h
  . cases h
  rename_i hlength
  rw [ne_eq, Decidable.not_not] at hlength
  have hpairs := ((foldl_or_eq_zero _ _).mp (of_decide_eq_true h)).2
  calc left
    _ = (left.zip right).map Prod.fst := (List.map_fst_zip (Nat.le_of_eq hlength)).symm
    _ = (left.zip right).map Prod.snd := List.map_congr_left hpairs
    _ = right := List.map_snd_zip (Nat.le_of_eq hlength.symm)

theorem bytes_injective {left right : String} (h : Text.bytes left = Text.bytes right)
    : left = right := by
  apply String.toByteArray_inj.mp
  apply ByteArray.ext
  apply Array.toList_inj.mp
  exact h

theorem ViewerCookie.canonical_injective {cookie other : ViewerCookie}
    (h : cookie.canonical = other.canonical) : cookie = other := by
  have hbar {viewer : String} {m n : Nat} : viewer ++ "|" ++ toString m ≠ toString n := by
    intro h
    have hdigit : '|'.isDigit = true := by
      apply Text.isDigit_of_mem_toString (n := n)
      simp [← h, String.toList_append]
    cases hdigit
  cases cookie with
  | signed viewer expiry =>
    cases other with
    | signed viewer' expiry' =>
      have hlist := congrArg String.toList h
      simp only [canonical, String.toList_append] at hlist
      obtain ⟨hviewer, hexpiry⟩ := Text.append_toString_injective (c := '|') rfl hlist
      rw [String.toList_inj.mp hviewer, hexpiry]
    | legacy expiry' => exact absurd h hbar
  | legacy expiry =>
    cases other with
    | signed viewer' expiry' => exact absurd h.symm hbar
    | legacy expiry' => rw [Text.toString_injective h]

theorem ViewerCookie.value_tagged (cookie : ViewerCookie) (tag : String → String)
    : ∃ front, cookie.value tag = front ++ "." ++ tag cookie.canonical := by
  cases cookie with
  | signed viewer expiry => exact ⟨viewer ++ "." ++ toString expiry, rfl⟩
  | legacy expiry => exact ⟨toString expiry, rfl⟩

/--
A server accepts a value only as one of the cookies it has minted, if whoever sends it cannot put
the tag of the text that the parts of the value name unless that text was tagged for them.
-/
theorem cookie_authenticates_as_issued (tag : String → String) (minted : Set ViewerCookie)
    (value : String) (now : Nat) (hunforged : ∀ cookie front, presentedCookie value = some cookie →
      value = front ++ "." ++ tag cookie.canonical →
      ∃ issued ∈ minted, issued.canonical = cookie.canonical)
    (viewer : Option String) (h : cookieViewer tag value now = some viewer)
    : ∃ cookie ∈ minted, value = cookie.value tag ∧ now < cookie.expiry
      ∧ viewer = cookie.viewer? := by
  unfold cookieViewer at h
  split at h
  . cases h
  rename_i cookie hpresented
  split at h
  . cases h
  rename_i hexpiry
  split at h <;> cases h
  rename_i heq
  have hvalue := bytes_injective (eq_of_constantTimeEq heq)
  obtain ⟨front, htagged⟩ := cookie.value_tagged tag
  obtain ⟨issued, hissued, hcanonical⟩ :=
    hunforged cookie front hpresented (hvalue.symm.trans htagged)
  rw [ViewerCookie.canonical_injective hcanonical] at hissued
  exact ⟨cookie, hissued, hvalue.symm, by omega, rfl⟩

-- A tag of the length and in the letters of the encoded code, which many texts share.
def checksumTag (text : String) : String :=
  let sum := text.toList.foldl (fun sum c => sum + c.toNat) 0
  String.ofList (List.replicate 42 'A' ++ [Char.ofNat ('A'.toNat + sum % 26)])

def issuedViewer : ViewerCookie :=
  .signed "q83vEjRWeJCrze8SNFZ4kA" 1700000000

theorem cookie_authenticates_one_viewer
    : ∃ cookie ∈ ({issuedViewer, .legacy 5} : Set ViewerCookie),
        issuedViewer.value checksumTag = cookie.value checksumTag
        ∧ 1699990000 < cookie.expiry ∧ some "q83vEjRWeJCrze8SNFZ4kA" = cookie.viewer? := by
  have haccepted : cookieViewer checksumTag (issuedViewer.value checksumTag) 1699990000
      = some (some "q83vEjRWeJCrze8SNFZ4kA") := by
    decide +kernel
  have hpresented : presentedCookie (issuedViewer.value checksumTag) = some issuedViewer := by
    decide +kernel
  apply cookie_authenticates_as_issued _ _ _ _ _ _ haccepted
  intro cookie front hcookie _
  cases hpresented.symm.trans hcookie
  exact ⟨issuedViewer, Or.inl rfl, rfl⟩

end Hel
