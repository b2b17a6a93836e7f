/-!
# Script text

A script text is a list of code points.  Escapes in string literals can name one
half of a surrogate pair, which no `Char` can hold, so a code point is either a
scalar value or such a half.  Every offset, column and length of the library
counts code points.  A class of code points is held as the list of its ranges, both
ends included.
-/

namespace ScriptFold

/-- One code point: a Unicode scalar value, or a lone half of a surrogate pair. -/
inductive CodePoint where
  | char (c : Char)
  | half (n : Fin 2048)
  deriving DecidableEq, Inhabited

/-- A script text is a sequence of code points. -/
abbrev Text := List CodePoint

def inRanges (ranges : List (Nat × Nat)) (n : Nat) : Bool :=
  ranges.any fun range => range.1 ≤ n && n ≤ range.2

namespace CodePoint

/-- The number of a code point. -/
def toNat : CodePoint → Nat
  | .char c => c.toNat
  | .half n => 0xD800 + n.val

/-- The code point of a number, if it lies in the Unicode range. -/
def ofNat? (n : Nat) : Option CodePoint :=
  if inRange : 0xD800 ≤ n ∧ n < 0xE000 then
    some (.half ⟨n - 0xD800, by omega⟩)
  else if n < 0x110000 then
    some (.char (Char.ofNat n))
  else
    none

/-- The character of a scalar value; a lone half is shown as the replacement character. -/
def toChar : CodePoint → Char
  | .char c => c
  | .half _ => '\uFFFD'

/-- Whether a code point is exactly the character `c`. -/
def is (point : CodePoint) (c : Char) : Bool :=
  point == .char c

/-- Whether a code point is one of the characters of `cs`. -/
def isOneOf (point : CodePoint) (cs : List Char) : Bool :=
  cs.any point.is

/-- Whether a code point is a lone half. -/
def isHalf : CodePoint → Bool
  | .char _ => false
  | .half _ => true

/-- The 16-bit units of a scalar value; a lone half has none of its own. -/
def units16? : CodePoint → Option (List Nat)
  | .half _ => none
  | .char c =>
      if c.toNat < 0x10000 then
        some [c.toNat]
      else
        some [0xD800 + (c.toNat - 0x10000) / 0x400, 0xDC00 + (c.toNat - 0x10000) % 0x400]

end CodePoint

namespace Text

def ofString (s : String) : Text :=
  s.toList.map .char

/-- The string of a text, with lone halves shown as replacement characters. -/
def toString (text : Text) : String :=
  String.ofList (text.map CodePoint.toChar)

instance : Coe String Text := ⟨ofString⟩

/-- Whether a text holds a lone half, so that no encoding can write it. -/
def hasHalf (text : Text) : Bool :=
  text.any CodePoint.isHalf

def isString (text : Text) (s : String) : Bool :=
  text == ofString s

/-- The text is one of these strings. -/
def isOneOf (text : Text) (names : List String) : Bool :=
  names.any text.isString

/-- Whether `text` begins with `part`. -/
def startsWith (text part : Text) : Bool :=
  part.isPrefixOf text

/-- Whether `text` ends with `part`. -/
def endsWith (text part : Text) : Bool :=
  part.isSuffixOf text

/-- The code points at the offsets from `start` up to, and not including, `stop`. -/
def slice (text : Text) (start stop : Nat) : Text :=
  (text.drop start).take (stop - start)

/-- The least offset at which `part` occurs, counted from `offset`. -/
def indexOf? (part : Text) : Text → (offset : Nat) → Option Nat
  | [], offset => if part.isEmpty then some offset else none
  | point :: rest, offset =>
      if part.isPrefixOf (point :: rest) then some offset
      else indexOf? part rest (offset + 1)

/-- The greatest offset at which `part` occurs, counted from `offset`. -/
def lastIndexOf? (part : Text) : Text → (offset : Nat) → Option Nat
  | [], offset => if part.isEmpty then some offset else none
  | point :: rest, offset =>
      match lastIndexOf? part rest (offset + 1) with
      | some found => some found
      | none => if part.isPrefixOf (point :: rest) then some offset else none

/-- The pieces of a text between the code points equal to `mark`. -/
def splitAt (mark : Char) : Text → List Text
  | [] => [[]]
  | point :: rest =>
      match splitAt mark rest with
      | [] => [[point]]
      | piece :: pieces =>
          if point.is mark then [] :: piece :: pieces else (point :: piece) :: pieces

def join (separator : Text) : List Text → Text
  | [] => []
  | [text] => text
  | text :: rest => text ++ separator ++ join separator rest

/-- The 16-bit units of a text, unless it holds a lone half. -/
def units16? (text : Text) : Option (List Nat) :=
  (text.mapM CodePoint.units16?).map List.flatten

/-- Drop the leading code points of a class. -/
def trimStart (inClass : CodePoint → Bool) (text : Text) : Text :=
  text.dropWhile inClass

/-- Drop the trailing code points of a class. -/
def trimEnd (inClass : CodePoint → Bool) (text : Text) : Text :=
  (text.reverse.dropWhile inClass).reverse

/-- Drop the leading and trailing code points of a class. -/
def trim (inClass : CodePoint → Bool) (text : Text) : Text :=
  trimEnd inClass (trimStart inClass text)

end Text

/-! ### Pieces of a text -/

namespace Text

theorem splitAt_ne_nil (mark : Char) (text : Text) : text.splitAt mark ≠ [] := by
  cases text with
  | nil => exact List.cons_ne_nil _ _
  | cons point rest =>
      rw [splitAt]
      split
      · exact List.cons_ne_nil _ _
      · split <;> exact List.cons_ne_nil _ _

/-- A mark ends a piece. -/
theorem splitAt_mark {mark : Char} (text : Text) :
    splitAt mark (.char mark :: text) = [] :: text.splitAt mark := by
  rw [splitAt]
  split
  case h_1 empty => exact absurd empty (splitAt_ne_nil mark text)
  case h_2 piece pieces isSplit =>
    rw [if_pos (by simp [CodePoint.is]), isSplit]

/-- A text without marks stays in the first piece. -/
theorem splitAt_append {mark : Char} {front text piece : Text} {pieces : List Text}
    (noMark : ∀ point, point ∈ front → point.is mark = false)
    (isSplit : text.splitAt mark = piece :: pieces) :
    splitAt mark (front ++ text) = (front ++ piece) :: pieces := by
  induction front with
  | nil => exact isSplit
  | cons point rest induction =>
      have inner := induction fun other there => noMark other (List.mem_cons_of_mem _ there)
      rw [List.cons_append, splitAt, inner]
      simp only [noMark point List.mem_cons_self]
      rfl

theorem join_cons {separator first : Text} {rest : List Text} (notEmpty : rest ≠ []) :
    join separator (first :: rest) = first ++ separator ++ join separator rest := by
  cases rest with
  | nil => exact absurd rfl notEmpty
  | cons second others => rfl

/-- The pieces of a text, joined with the mark, give the text. -/
theorem join_splitAt (mark : Char) (text : Text) :
    join [.char mark] (text.splitAt mark) = text := by
  induction text with
  | nil => rfl
  | cons point rest induction =>
      obtain ⟨piece, pieces, isSplit⟩ := List.exists_cons_of_ne_nil (splitAt_ne_nil mark rest)
      rw [isSplit] at induction
      simp only [splitAt, isSplit]
      split
      case isTrue isMark =>
        rw [join_cons (List.cons_ne_nil _ _), induction, eq_of_beq isMark]
        rfl
      case isFalse =>
        rw [← induction]
        cases pieces <;> rfl

/-- No piece of a text holds the mark. -/
theorem splitAt_no_mark (mark : Char) (text : Text) :
    ∀ piece, piece ∈ text.splitAt mark → ∀ point, point ∈ piece → point.is mark = false := by
  induction text with
  | nil =>
      intro piece there point inside
      rcases List.mem_singleton.mp there with rfl
      cases inside
  | cons point rest induction =>
      obtain ⟨first, others, isSplit⟩ := List.exists_cons_of_ne_nil (splitAt_ne_nil mark rest)
      simp only [splitAt, isSplit] at induction ⊢
      intro piece there other inside
      split at there
      case isTrue =>
        rcases List.mem_cons.mp there with rfl | there
        · cases inside
        · exact induction piece there other inside
      case isFalse notMark =>
        rcases List.mem_cons.mp there with rfl | there
        · rcases List.mem_cons.mp inside with rfl | inside
          · exact Bool.eq_false_iff.mpr notMark
          · exact induction first List.mem_cons_self other inside
        · exact induction piece (List.mem_cons_of_mem _ there) other inside

end Text

end ScriptFold
