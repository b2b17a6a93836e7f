import ScriptFold.Number.Numeral

/-!
# String literals

Reading the escapes of a string or template body, and writing a text as a string
literal in double quotes.
-/

namespace ScriptFold

namespace StringLiteral

/-- The code point with the number written by hexadecimal digits. -/
def codePoint (n : Int) : Except Fault CodePoint :=
  if n < -0x80000000 ∨ 0x80000000 ≤ n then .error .tooLarge
  else if n < 0 then .error .malformed
  else Numeral.require (CodePoint.ofNat? n.toNat)

/-- The number written by hexadecimal digits. -/
def hexadecimal (digits : Text) : Except Fault Int :=
  Numeral.require (Numeral.integer? 16 digits)

/-- What a letter after a backslash stands for. -/
def simpleEscape? (point : CodePoint) : Option CodePoint :=
  match point with
  | .char 'n' => some (.char '\n')
  | .char 't' => some (.char '\t')
  | .char 'r' => some (.char '\r')
  | .char 'b' => some (.char '\x08')
  | .char 'f' => some (.char '\x0c')
  | .char 'v' => some (.char '\x0b')
  | _ => none

/-- A meaning and the number of code points that express it. -/
abbrev Meaning := Text × Nat

/-- The code point in braces, after the mark of a long escape. -/
def longEscape (afterBrace : Text) : Except Fault Meaning := do
  let digits := afterBrace.takeWhile fun point => !point.is '\x7d'
  if digits.length = afterBrace.length then throw .malformed
  let point ← codePoint (← hexadecimal digits)
  return ([point], digits.length + 3)

/-- The low half that completes a pair, if the text after a high half writes one. -/
def lowHalf? (afterHigh : Text) : Except Fault (Option Int) :=
  match afterHigh with
  | .char '\\' :: .char 'u' :: digits => do
      let low ← hexadecimal (digits.take 4)
      return if 0xDC00 ≤ low ∧ low ≤ 0xDFFF then some low else none
  | _ => .ok none

/-- A code point of four digits; two halves of a pair are joined. -/
def shortEscape (afterMark : Text) : Except Fault Meaning := do
  let code ← hexadecimal (afterMark.take 4)
  if 0xD800 ≤ code ∧ code ≤ 0xDBFF then
    match ← lowHalf? (afterMark.drop 4) with
    | some low =>
        return ([← codePoint (0x10000 + (code - 0xD800) * 0x400 + (low - 0xDC00))], 11)
    | none => return ([← codePoint code], 5)
  else
    return ([← codePoint code], 5)

/-- The meaning of the text after a backslash.  An escaped line end means nothing. -/
def escape : Text → Except Fault Meaning
  | [] => .ok ([], 0)
  | .char '0' :: rest =>
      if rest.head?.any CodePoint.isDigit then .ok ([.char '0'], 1) else .ok ([.char '\x00'], 1)
  | .char 'x' :: rest => do
      return ([← codePoint (← hexadecimal (rest.take 2))], 3)
  | .char 'u' :: .char '\x7b' :: rest => longEscape rest
  | .char 'u' :: rest => shortEscape rest
  | .char '\r' :: .char '\n' :: _ => .ok ([], 2)
  | point :: _ =>
      if point.isOneOf ['\r', '\n', '\u2028', '\u2029'] then .ok ([], 1)
      else .ok ([(simpleEscape? point).getD point], 1)

/-- Decode a text of which the first `skip` code points are already read. -/
def unescapeFrom : (skip : Nat) → Text → Except Fault Text
  | _, [] => .ok []
  | skip + 1, _ :: rest => unescapeFrom skip rest
  | 0, .char '\\' :: rest => do
      let (meaning, width) ← escape rest
      return meaning ++ (← unescapeFrom width rest)
  | 0, point :: rest => do
      return point :: (← unescapeFrom 0 rest)

/-- Decode the escapes of a string or template body. -/
def unescape (body : Text) : Except Fault Text :=
  unescapeFrom 0 body

/-- Decode a string literal with its quotes. -/
def decode (raw : Text) : Except Fault Text :=
  unescape ((raw.drop 1).take (raw.length - 2))

def hexPair (n : Nat) : Text :=
  let digits := Nat.toDigits 16 n
  Text.ofString (String.ofList (List.replicate (2 - digits.length) '0' ++ digits))

/-- A code point as a literal writes it. -/
def encodePoint (point : CodePoint) : Text :=
  match point with
  | .char '\\' => "\\\\"
  | .char '"' => "\\\""
  | .char '\n' => "\\n"
  | .char '\r' => "\\r"
  | .char '\t' => "\\t"
  | .char '\x08' => "\\b"
  | .char '\x0c' => "\\f"
  | .char '\x0b' => "\\v"
  | .char '\u2028' => "\\u2028"
  | .char '\u2029' => "\\u2029"
  | point => if point.toNat < 0x20 then "\\x" ++ hexPair point.toNat else [point]

/-- A text as a string literal in double quotes. -/
def encode (text : Text) : Text :=
  .char '"' :: text.flatMap encodePoint ++ [.char '"']

end StringLiteral

/-! ### String literals read back -/

namespace StringLiteral

/-- Two hexadecimal digits are read back as the control character they name. -/
theorem hexPair_reads : ∀ n, n < 32 →
    (hexPair n).length = 2 ∧
      ((hexadecimal (hexPair n)).bind codePoint).toOption = some (.char (Char.ofNat n)) := by
  decide

private theorem unescapeFrom_control {n : Nat} (small : n < 32) (rest : Text) :
    unescapeFrom 0 (.char '\\' :: .char 'x' :: (hexPair n ++ rest)) =
      (.char (Char.ofNat n) :: ·) <$> unescapeFrom 0 rest := by
  obtain ⟨width, found⟩ := hexPair_reads n small
  have value := Calculation.eq_ok_of_toOption found
  match pair : hexPair n, width with
  | [first, second], _ =>
      rw [pair] at value
      obtain ⟨number, read, point⟩ := Calculation.of_bind_eq_ok value
      simp [unescapeFrom, escape, read, point]

private theorem char_ofNat_toNat {point : CodePoint} (small : point.toNat < 32) :
    CodePoint.char (Char.ofNat point.toNat) = point := by
  cases point with
  | char c => simp [CodePoint.toNat]
  | half n =>
      simp only [CodePoint.toNat] at small
      omega

private theorem shortEscape_lineSeparator (rest : Text) :
    shortEscape (.char '2' :: .char '0' :: .char '2' :: .char '8' :: rest) =
      .ok ([.char '\u2028'], 5) := rfl

private theorem shortEscape_paragraphSeparator (rest : Text) :
    shortEscape (.char '2' :: .char '0' :: .char '2' :: .char '9' :: rest) =
      .ok ([.char '\u2029'], 5) := rfl

/-- One written code point is read back as itself. -/
theorem unescapeFrom_encodePoint (point : CodePoint) (rest : Text) :
    unescapeFrom 0 (encodePoint point ++ rest) = (point :: ·) <$> unescapeFrom 0 rest := by
  unfold encodePoint
  split
  case h_11 notBackslash _ _ _ _ _ _ _ _ _ =>
    split
    case isTrue small =>
      have control := unescapeFrom_control small rest
      have lead : Text.ofString "\\x" = [.char '\\', .char 'x'] := by decide
      rw [char_ofNat_toNat small] at control
      simpa only [lead, List.cons_append, List.nil_append] using control
    case isFalse => simp [unescapeFrom]
  -- the letters after a backslash and the two separators of lines
  all_goals
    simp [Text.ofString, unescapeFrom, escape, CodePoint.isOneOf, CodePoint.is, simpleEscape?,
      shortEscape_lineSeparator, shortEscape_paragraphSeparator]

private theorem unescapeFrom_flatMap (text : Text) :
    unescapeFrom 0 (text.flatMap encodePoint) = .ok text := by
  induction text with
  | nil => rfl
  | cons point rest induction =>
      rw [List.flatMap_cons, unescapeFrom_encodePoint, induction]
      rfl

/-- A text that is written as a literal is read back as it was. -/
theorem decode_encode (text : Text) : decode (encode text) = .ok text := by
  have body : ((encode text).drop 1).take ((encode text).length - 2) =
      text.flatMap encodePoint := by
    simp [encode]
  rw [decode, body]
  exact unescapeFrom_flatMap text

end StringLiteral

end ScriptFold
