import Mathlib.Data.List.DropRight
import RosBridge.Lib.Utf16
/-!
# Lines, words and digits

What a JavaScript program does with a text it takes apart: cutting it into lines and
words, trimming, reading digits. Cutting is lossless (`intercalate_lines`).
-/

namespace RosBridge.Lib

/-- A string literal. -/
def js (s : String) : JsString := utf16 s.toList

namespace JsString

/-- `text.split('\r\n')`. -/
def lines : JsString → List JsString
  | [] => [[]]
  | [u] => [[u]]
  | u :: v :: rest =>
    if u = 0x0d ∧ v = 0x0a then [] :: lines rest
    else (lines (v :: rest)).modifyHead (u :: ·)

/-- `text.split(separator)`, for a separator of one code unit. -/
def words (separator : Char) (s : JsString) : List JsString := s.splitOn (UInt16.ofNat separator.toNat)

/-- What `\s` matches and `trim` removes. -/
def isSpace (u : UInt16) : Bool :=
  (0x09 ≤ u && u ≤ 0x0d) || u == 0x20 || u == 0xa0 || u == 0x1680 || (0x2000 ≤ u && u ≤ 0x200a) || u == 0x2028 ||
    u == 0x2029 || u == 0x202f || u == 0x205f || u == 0x3000 || u == 0xfeff

/-- `text.trim()`. -/
def trim (s : JsString) : JsString := (s.dropWhile isSpace).rdropWhile isSpace

/-- `[0-9]`. -/
def isDigit (u : UInt16) : Bool := 0x30 ≤ u && u ≤ 0x39

/-- `[0-9A-Fa-f]`. -/
def isHexDigit (u : UInt16) : Bool := isDigit u || (0x41 ≤ u && u ≤ 0x46) || (0x61 ≤ u && u ≤ 0x66)

/-- `text.toLowerCase()`, as far as ASCII goes. -/
def toLower (s : JsString) : JsString := s.map fun u => if 0x41 ≤ u && u ≤ 0x5a then u + 0x20 else u

/-- The number that digits write, in a base of at most sixteen. -/
def ofDigits (base : Nat) (s : JsString) : Nat :=
  s.foldl (fun n u => base * n + if isDigit u then u.toNat - 0x30 else (u ||| 0x20).toNat - 0x61 + 10) 0

/-- What follows `start`, when the string starts with it. -/
def after? (start s : JsString) : Option JsString := if start <+: s then some (s.drop start.length) else none

theorem after?_eq_some {start s rest : JsString} : after? start s = some rest ↔ s = start ++ rest := by
  unfold after?
  constructor
  · intro h
    split at h
    · next starts =>
      obtain ⟨tail, rfl⟩ := starts
      rw [List.drop_left] at h
      rw [Option.some.inj h]
    · cases h
  · rintro rfl
    rw [if_pos (List.prefix_append _ _), List.drop_left]

theorem lines_ne_nil (s : JsString) : lines s ≠ [] := by
  induction s using lines.induct with
  | case1 => exact List.cons_ne_nil _ _
  | case2 u => exact List.cons_ne_nil _ _
  | case3 u v rest crlf ih =>
    unfold lines
    rw [if_pos crlf]
    exact List.cons_ne_nil _ _
  | case4 u v rest plain ih =>
    unfold lines
    rw [if_neg plain]
    intro h
    exact ih (List.modifyHead_eq_nil_iff.1 h)

/-- Joining the lines again gives the text back. -/
theorem intercalate_lines (s : JsString) : [0x0d, 0x0a].intercalate (lines s) = s := by
  induction s using lines.induct with
  | case1 => rfl
  | case2 u => rfl
  | case3 u v rest crlf ih =>
    obtain ⟨rfl, rfl⟩ := crlf
    unfold lines
    rw [if_pos ⟨rfl, rfl⟩]
    cases h : lines rest with
    | nil => exact absurd h (lines_ne_nil rest)
    | cons line more =>
      rw [h] at ih
      rw [List.intercalate_cons_cons, ih]
      rfl
  | case4 u v rest plain ih =>
    unfold lines
    rw [if_neg plain]
    cases h : lines (v :: rest) with
    | nil => exact absurd h (lines_ne_nil _)
    | cons line more =>
      rw [h] at ih
      rw [List.modifyHead_cons]
      cases more with
      | nil =>
        rw [List.intercalate_singleton] at ih ⊢
        rw [ih]
      | cons next more =>
        rw [List.intercalate_cons_cons] at ih ⊢
        rw [← ih]
        rfl

end JsString

end RosBridge.Lib
