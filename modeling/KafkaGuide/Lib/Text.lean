import Mathlib.Data.Option.Basic
import Mathlib.Data.List.Basic
import Mathlib.Data.List.TakeWhile
/-!
# Text — strings of code points, and UTF-8

A string may hold any code point, lone surrogates among them.  UTF-8 is for those without one: it encodes them to bytes
that decode to the same string (`decode_encode`).
-/

structure CodePoint where
  val : Nat
  lt : val < 0x110000
deriving DecidableEq

namespace CodePoint

/-- The character at a code point; a surrogate is none. -/
def char? (p : CodePoint) : Option Char := if h : p.val.isValidChar then some (Char.ofNatAux p.val h) else none

def ofChar (c : Char) : CodePoint where
  val := c.toNat
  lt := by
    rcases c.valid with h | h
    · exact Nat.lt_trans h (by decide)
    · exact h.2

theorem char?_ofChar (c : Char) : (ofChar c).char? = some c := by
  have hvalid : (ofChar c).val.isValidChar := c.valid
  unfold char?
  rw [dif_pos hvalid, Option.some.injEq]
  exact Char.ext (UInt32.toNat_inj.1 rfl)

theorem ofChar_of_char? {p : CodePoint} {c : Char} (h : p.char? = some c) : ofChar c = p := by
  unfold char? at h
  by_cases hvalid : p.val.isValidChar
  · rw [dif_pos hvalid] at h
    cases h
    rfl
  · rw [dif_neg hvalid] at h
    cases h

end CodePoint

@[ext] structure Text where
  points : List CodePoint
deriving DecidableEq

namespace Text

def ofString (s : String) : Text := ⟨s.toList.map CodePoint.ofChar⟩

/-- The string as characters, if it has no lone surrogate. -/
def string? (t : Text) : Option String := (t.points.mapM CodePoint.char?).map String.ofList

/-- `t.encode("utf-8")`: `none` where it raises. -/
def encode (t : Text) : Option ByteArray := t.string?.map String.toUTF8

/-- `b.decode("utf-8")`: `none` where it raises. -/
def decode (b : ByteArray) : Option Text := (String.fromUTF8? b).map ofString

theorem fromUTF8?_toUTF8 (s : String) : String.fromUTF8? s.toUTF8 = some s := by
  have hvalid : s.toUTF8.IsValidUTF8 := s.isValidUTF8
  unfold String.fromUTF8?
  rw [dif_pos hvalid]
  rfl

@[simp] theorem decode_toUTF8 (s : String) : decode s.toUTF8 = some (ofString s) := by
  unfold decode
  rw [fromUTF8?_toUTF8]
  rfl

theorem chars_of_points : ∀ {ps : List CodePoint} {cs : List Char}, ps.mapM CodePoint.char? = some cs →
    cs.map CodePoint.ofChar = ps
  | [], cs, h => by
    cases h
    rfl
  | p :: ps, cs, h => by
    rw [List.mapM_cons] at h
    obtain ⟨c, hc, h⟩ := Option.bind_eq_some_iff.1 h
    obtain ⟨cs', hcs, h⟩ := Option.bind_eq_some_iff.1 h
    cases h
    rw [List.map_cons, CodePoint.ofChar_of_char? hc, chars_of_points hcs]

theorem points_of_chars : ∀ cs : List Char, (cs.map CodePoint.ofChar).mapM CodePoint.char? = some cs
  | [] => rfl
  | c :: cs => by
    rw [List.map_cons, List.mapM_cons, CodePoint.char?_ofChar, points_of_chars cs]
    rfl

theorem ofString_of_string? {t : Text} {s : String} (h : t.string? = some s) : ofString s = t := by
  obtain ⟨cs, hcs, rfl⟩ := Option.map_eq_some_iff.1 h
  ext1
  change (String.ofList cs).toList.map CodePoint.ofChar = t.points
  rw [String.toList_ofList]
  exact chars_of_points hcs

theorem string?_ofString (s : String) : (ofString s).string? = some s := by
  unfold string? ofString
  rw [points_of_chars, Option.map_some, String.ofList_toList]

/-- **What is encoded decodes to itself.** -/
theorem decode_encode {t : Text} {b : ByteArray} (h : encode t = some b) : decode b = some t := by
  obtain ⟨s, hs, rfl⟩ := Option.map_eq_some_iff.1 h
  rw [decode_toUTF8, ofString_of_string? hs]

theorem encode_ofString (s : String) : encode (ofString s) = some s.toUTF8 := by
  rw [encode, string?_ofString, Option.map_some]

/-- What a reader takes off the front: all of `xs`, when what follows does not go on like it. -/
theorem span_append {α : Type*} {p : α → Bool} {xs rest : List α} (hxs : ∀ x ∈ xs, p x = true)
    (hrest : ∀ y ys, rest = y :: ys → p y = false) :
    (xs ++ rest).takeWhile p = xs ∧ (xs ++ rest).dropWhile p = rest := by
  rw [List.takeWhile_append_of_pos hxs, List.dropWhile_append_of_pos hxs]
  cases rest with
  | nil => simp
  | cons y ys => simp [hrest y ys rfl]

end Text
