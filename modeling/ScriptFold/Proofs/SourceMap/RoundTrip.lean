import ScriptFold.Fault
import ScriptFold.SourceMap.Mapping
import ScriptFold.Text.Basic

/-!
# Reading encoded mappings back

Numbers come back from their base 64 digits, and mappings come back from their text,
if their generated lines do not decrease.  The text is taken from the front: line ends
move to the next line, commas are passed over, and a segment gives one mapping.
-/

namespace ScriptFold

namespace Mapping

theorem unzigzag_zigzag (n : Int) : unzigzag (zigzag n) = n := by
  unfold zigzag unzigzag
  split <;> split <;> omega

/-- The digits of a number give the number. -/
theorem decodeDigits_vlqDigits (fuel n shift partialValue : Nat) (rest : List Nat)
    (bounded : n >>> (5 * fuel) < 32) :
    decodeDigits shift partialValue (vlqDigits fuel n ++ rest) =
      unzigzag (partialValue + n <<< shift) :: decodeDigits 0 0 rest := by
  induction fuel generalizing n shift partialValue with
  | zero =>
      have small : n < 32 := by simpa using bounded
      simp only [vlqDigits, Nat.mod_eq_of_lt small, List.cons_append, List.nil_append,
        decodeDigits, if_neg (Nat.not_le_of_lt small)]
  | succ fuel induction =>
      rw [vlqDigits]
      split
      case isTrue small =>
        simp only [List.cons_append, List.nil_append, decodeDigits,
          if_neg (Nat.not_le_of_lt small), Nat.mod_eq_of_lt small]
      case isFalse large =>
        have digit : (n % 32 + 32) % 32 = n % 32 := by omega
        have quotient : (n / 32) >>> (5 * fuel) < 32 := by
          have five : n >>> 5 = n / 32 := Nat.shiftRight_eq_div_pow n 5
          rwa [Nat.mul_succ, Nat.add_comm, Nat.shiftRight_add, five] at bounded
        have value : (n % 32) <<< shift + (n / 32) <<< (shift + 5) = n <<< shift := by
          simp only [Nat.shiftLeft_eq, Nat.pow_add, Nat.reducePow]
          have whole := Nat.mod_add_div n 32
          calc
            n % 32 * 2 ^ shift + n / 32 * (2 ^ shift * 32)
              = (n % 32 + 32 * (n / 32)) * 2 ^ shift := by
                rw [Nat.add_mul, Nat.mul_comm 32, Nat.mul_assoc, Nat.mul_comm (2 ^ shift)]
            _ = n * 2 ^ shift := by rw [whole]
        simp only [List.cons_append, decodeDigits, digit]
        rw [if_pos (Nat.le_add_left 32 _), induction _ _ _ quotient, Nat.add_assoc, value]

def digitsOfInt (n : Int) : List Nat :=
  vlqDigits ((zigzag n).log2 + 1) (zigzag n)

theorem decodeDigits_digitsOfInt (n : Int) (rest : List Nat) :
    decodeDigits 0 0 (digitsOfInt n ++ rest) = n :: decodeDigits 0 0 rest := by
  have small : zigzag n < 2 ^ (5 * ((zigzag n).log2 + 1)) := by
    calc
      zigzag n < 2 ^ ((zigzag n).log2 + 1) := Nat.lt_log2_self
      _ ≤ 2 ^ (5 * ((zigzag n).log2 + 1)) := Nat.pow_le_pow_right (by decide) (by omega)
  have bounded : zigzag n >>> (5 * ((zigzag n).log2 + 1)) < 32 := by
    rw [Nat.shiftRight_eq_div_pow, Nat.div_eq_of_lt small]
    decide
  rw [digitsOfInt, decodeDigits_vlqDigits _ _ _ _ _ bounded, Nat.zero_add, Nat.shiftLeft_zero,
    unzigzag_zigzag]

theorem vlqDigits_lt (fuel n : Nat) : ∀ digit, digit ∈ vlqDigits fuel n → digit < 64 := by
  induction fuel generalizing n with
  | zero =>
      intro digit there
      rcases List.mem_singleton.mp there with rfl
      omega
  | succ fuel induction =>
      intro digit there
      rw [vlqDigits] at there
      split at there
      case isTrue small =>
        rcases List.mem_singleton.mp there with rfl
        omega
      case isFalse =>
        rcases List.mem_cons.mp there with rfl | there
        · omega
        · exact induction _ digit there

/-- The digits of base 64 one by one. -/
def letters : List Char := [
  'A', 'B', 'C', 'D', 'E', 'F', 'G', 'H', 'I', 'J', 'K', 'L', 'M', 'N', 'O', 'P',
  'Q', 'R', 'S', 'T', 'U', 'V', 'W', 'X', 'Y', 'Z', 'a', 'b', 'c', 'd', 'e', 'f',
  'g', 'h', 'i', 'j', 'k', 'l', 'm', 'n', 'o', 'p', 'q', 'r', 's', 't', 'u', 'v',
  'w', 'x', 'y', 'z', '0', '1', '2', '3', '4', '5', '6', '7', '8', '9', '+', '/']

theorem alphabet_eq : alphabet = letters := by
  decide +kernel

private theorem letters_findIdx? (digit : Fin 64) :
    letters.findIdx? (fun c => (CodePoint.char (letters.getD digit 'A')).is c) =
      some digit.val := by
  revert digit
  decide +kernel

private theorem letters_ne_separator (digit : Fin 64) :
    letters.getD digit 'A' ≠ ',' ∧ letters.getD digit 'A' ≠ ';' := by
  revert digit
  decide +kernel

/-- A digit comes back from its character. -/
theorem digitValue_digitChar {digit : Nat} (small : digit < 64) :
    digitValue (.char (digitChar digit)) = .ok digit := by
  have found := letters_findIdx? ⟨digit, small⟩
  unfold digitValue digitChar
  simp only [alphabet_eq, found]

/-- Digit characters are no separators. -/
theorem digitChar_ne_separator {digit : Nat} (small : digit < 64) :
    digitChar digit ≠ ',' ∧ digitChar digit ≠ ';' := by
  rw [digitChar, alphabet_eq]
  exact letters_ne_separator ⟨digit, small⟩

def textOf (chars : List Char) : Text :=
  chars.map .char

private theorem mapM_digitValue {digits : List Nat} (small : ∀ digit, digit ∈ digits → digit < 64) :
    (textOf (digits.map digitChar)).mapM digitValue = .ok digits := by
  induction digits with
  | nil => rfl
  | cons digit rest induction =>
      have restSmall := induction fun other there => small other (List.mem_cons_of_mem _ there)
      simp only [textOf, List.map_cons, List.mapM_cons] at restSmall ⊢
      rw [digitValue_digitChar (small digit List.mem_cons_self), restSmall]
      rfl

theorem digitsOfInt_lt (n : Int) : ∀ digit, digit ∈ digitsOfInt n → digit < 64 :=
  vlqDigits_lt _ _

/-- A number in front of a text comes back in front of the numbers of that text, whatever
they are: the last digit of a number is told from the others by its mark. -/
theorem decodeVlq_append (number : Int) (rest : Text) :
    decodeVlq (textOf (encodeVlq number) ++ rest) = (do return number :: (← decodeVlq rest)) := by
  have digits : (textOf (encodeVlq number)).mapM digitValue = .ok (digitsOfInt number) :=
    mapM_digitValue (digitsOfInt_lt number)
  rw [decodeVlq, decodeVlq, List.mapM_append, digits]
  cases rest.mapM digitValue with
  | error fault => rfl
  | ok others => exact congrArg Except.ok (decodeDigits_digitsOfInt number others)

theorem textOf_append (first second : List Char) :
    textOf (first ++ second) = textOf first ++ textOf second :=
  List.map_append

/-- Numbers come back from their runs of base 64 digits, written one after the other without
anything between them. -/
theorem decodeVlq_runs (numbers : List Int) :
    decodeVlq (textOf (numbers.flatMap encodeVlq)) = .ok numbers := by
  induction numbers with
  | nil => rfl
  | cons number rest induction =>
      rw [List.flatMap_cons, textOf_append, decodeVlq_append, induction]
      rfl

def segmentNumbers (column sourceLine sourceColumn : Int) (mapping : Mapping) : List Int :=
  [mapping.generatedColumn - column, 0, mapping.sourceLine - sourceLine,
    mapping.sourceColumn - sourceColumn]

/-- The numbers of a segment come back from it. -/
theorem decodeVlq_encodeSegment (column sourceLine sourceColumn : Int) (mapping : Mapping) :
    decodeVlq (textOf (encodeSegment column sourceLine sourceColumn mapping)) =
      .ok (segmentNumbers column sourceLine sourceColumn mapping) := by
  rw [encodeSegment, ← List.append_nil (encodeVlq (mapping.sourceColumn - sourceColumn))]
  simp only [textOf_append, List.append_assoc, decodeVlq_append]
  rfl

theorem encodeVlq_ne_separator (number : Int) :
    ∀ char, char ∈ encodeVlq number → char ≠ ',' ∧ char ≠ ';' := by
  intro char there
  obtain ⟨digit, isDigit, rfl⟩ := List.mem_map.mp there
  exact digitChar_ne_separator (digitsOfInt_lt number digit isDigit)

theorem encodeSegment_ne_separator (column sourceLine sourceColumn : Int) (mapping : Mapping) :
    ∀ char, char ∈ encodeSegment column sourceLine sourceColumn mapping →
      char ≠ ',' ∧ char ≠ ';' := by
  intro char there
  simp only [encodeSegment, List.mem_append] at there
  rcases there with ((inColumn | inSource) | inLine) | inSourceColumn
  · exact encodeVlq_ne_separator _ char inColumn
  · exact encodeVlq_ne_separator _ char inSource
  · exact encodeVlq_ne_separator _ char inLine
  · exact encodeVlq_ne_separator _ char inSourceColumn

theorem encodeSegment_ne_nil {column sourceLine sourceColumn : Int} {mapping : Mapping} :
    encodeSegment column sourceLine sourceColumn mapping ≠ [] := by
  have zero : encodeVlq 0 ≠ [] := by decide
  intro empty
  simp only [encodeSegment, List.append_eq_nil_iff] at empty
  exact zero empty.1.1.2

/-- The mappings of the text that is left, inside line `line` after `column`. -/
def decodeFrom (line : Nat) (column sourceLine sourceColumn : Int) (text : Text) :
    Except Fault (List Mapping) :=
  match text.splitAt ';' with
  | [] => .ok []
  | first :: later => do
      let (mappings, sourceLine, sourceColumn) ←
        decodeSegments line column sourceLine sourceColumn (first.splitAt ',')
      return mappings ++ (← decodeLines (line + 1) sourceLine sourceColumn later)

theorem decodeFrom_start (line : Nat) (sourceLine sourceColumn : Int) (text : Text) :
    decodeFrom line 0 sourceLine sourceColumn text =
      decodeLines line sourceLine sourceColumn (text.splitAt ';') := by
  rw [decodeFrom]
  split
  case h_1 empty => rw [empty, decodeLines]
  case h_2 first later isSplit => rw [isSplit, decodeLines]

theorem decodeSegments_empty (line : Nat) (column sourceLine sourceColumn : Int)
    (rest : List Text) :
    decodeSegments line column sourceLine sourceColumn ([] :: rest) =
      decodeSegments line column sourceLine sourceColumn rest := by
  rw [decodeSegments]
  rfl

/-- The end of a line moves to the start of the next line. -/
theorem decodeFrom_lineEnd (line : Nat) (column sourceLine sourceColumn : Int) (text : Text) :
    decodeFrom line column sourceLine sourceColumn (.char ';' :: text) =
      decodeFrom (line + 1) 0 sourceLine sourceColumn text := by
  rw [decodeFrom, Text.splitAt_mark, decodeFrom_start]
  simp only [Text.splitAt, decodeSegments_empty, decodeSegments, Calculation.ok_bind,
    List.nil_append]
  cases decodeLines (line + 1) sourceLine sourceColumn (text.splitAt ';') <;> rfl

theorem decodeFrom_lineEnds (breaks line : Nat) (column sourceLine sourceColumn : Int)
    (text : Text) (some : 0 < breaks) :
    decodeFrom line column sourceLine sourceColumn
        (List.replicate breaks (.char ';') ++ text) =
      decodeFrom (line + breaks) 0 sourceLine sourceColumn text := by
  induction breaks generalizing line column with
  | zero => exact absurd some (Nat.lt_irrefl 0)
  | succ breaks induction =>
      rw [List.replicate_succ, List.cons_append, decodeFrom_lineEnd]
      cases breaks with
      | zero => rfl
      | succ breaks =>
          rw [induction _ _ (Nat.succ_pos _), Nat.add_assoc, Nat.add_comm 1]

/-- A comma is passed over. -/
theorem decodeFrom_comma (line : Nat) (column sourceLine sourceColumn : Int) (text : Text) :
    decodeFrom line column sourceLine sourceColumn (.char ',' :: text) =
      decodeFrom line column sourceLine sourceColumn text := by
  obtain ⟨first, later, isSplit⟩ := List.exists_cons_of_ne_nil (Text.splitAt_ne_nil ';' text)
  have noMark : ∀ point, point ∈ [CodePoint.char ','] → point.is ';' = false := by
    intro point there
    rcases List.mem_singleton.mp there with rfl
    rfl
  have split : Text.splitAt ';' (.char ',' :: text) = (.char ',' :: first) :: later :=
    Text.splitAt_append noMark isSplit
  rw [decodeFrom, decodeFrom, isSplit, split]
  simp only [Text.splitAt_mark, decodeSegments_empty]

/-- A text that does not go on with a segment. -/
def EndsSegment : Text → Prop
  | [] => True
  | point :: _ => point = .char ',' ∨ point = .char ';'

theorem EndsSegment.splitAt_comma {text first : Text} {later : List Text}
    (ends : EndsSegment text) (isSplit : text.splitAt ';' = first :: later) :
    ∃ pieces, first.splitAt ',' = [] :: pieces := by
  match text with
  | [] =>
      cases isSplit
      exact ⟨[], rfl⟩
  | .half n :: rest => rcases ends with impossible | impossible <;> cases impossible
  | .char c :: rest =>
      rcases ends with isComma | isEnd
      · cases isComma
        obtain ⟨piece, pieces, restSplit⟩ :=
          List.exists_cons_of_ne_nil (Text.splitAt_ne_nil ';' rest)
        rw [Text.splitAt, restSplit] at isSplit
        cases isSplit
        exact ⟨_, Text.splitAt_mark piece⟩
      · cases isEnd
        rw [Text.splitAt_mark] at isSplit
        cases isSplit
        exact ⟨[], rfl⟩

theorem textOf_no_separator {chars : List Char} {mark : Char}
    (differ : ∀ char, char ∈ chars → char ≠ mark) :
    ∀ point, point ∈ textOf chars → point.is mark = false := by
  intro point there
  obtain ⟨char, isChar, rfl⟩ := List.mem_map.mp there
  simpa [CodePoint.is] using differ char isChar

private theorem decodeSegments_segment (line : Nat) (column sourceLine sourceColumn : Int)
    (mapping : Mapping) (pieces : List Text) (onLine : mapping.generatedLine = line) :
    decodeSegments line column sourceLine sourceColumn
        (textOf (encodeSegment column sourceLine sourceColumn mapping) :: pieces) =
      (do
        let (mappings, after) ← decodeSegments line mapping.generatedColumn mapping.sourceLine
          mapping.sourceColumn pieces
        return (mapping :: mappings, after)) := by
  have notEmpty : (textOf (encodeSegment column sourceLine sourceColumn mapping)).isEmpty =
      false := by
    simpa [textOf] using encodeSegment_ne_nil
  have sum : ∀ before value : Int, before + (value - before) = value := by
    intro before value
    omega
  rw [decodeSegments, notEmpty]
  simp only [decodeVlq_encodeSegment, segmentNumbers, Calculation.ok_bind, sum, ← onLine]
  rfl

/-- A segment gives one mapping. -/
theorem decodeFrom_segment (line : Nat) (column sourceLine sourceColumn : Int)
    (mapping : Mapping) (text : Text) (ends : EndsSegment text)
    (onLine : mapping.generatedLine = line) :
    decodeFrom line column sourceLine sourceColumn
        (textOf (encodeSegment column sourceLine sourceColumn mapping) ++ text) =
      (do
        return mapping :: (← decodeFrom line mapping.generatedColumn mapping.sourceLine
          mapping.sourceColumn text)) := by
  obtain ⟨first, later, isSplit⟩ := List.exists_cons_of_ne_nil (Text.splitAt_ne_nil ';' text)
  obtain ⟨pieces, commaSplit⟩ := ends.splitAt_comma isSplit
  have noSeparator := encodeSegment_ne_separator column sourceLine sourceColumn mapping
  have lineSplit := Text.splitAt_append
    (textOf_no_separator fun char there => (noSeparator char there).2) isSplit
  have segmentSplit := Text.splitAt_append
    (textOf_no_separator fun char there => (noSeparator char there).1) commaSplit
  rw [decodeFrom, decodeFrom, lineSplit, isSplit]
  simp only [segmentSplit, commaSplit, List.append_nil, decodeSegments_empty]
  rw [decodeSegments_segment line column sourceLine sourceColumn mapping pieces onLine]
  cases decodeSegments line mapping.generatedColumn mapping.sourceLine mapping.sourceColumn
      pieces with
  | error fault => rfl
  | ok result =>
      obtain ⟨mappings, lineAfter, columnAfter⟩ := result
      simp only [Calculation.ok_bind, pure_bind]
      cases decodeLines (line + 1) lineAfter columnAfter later <;> rfl

/-- The generated lines of mappings do not decrease, and none is before `line`. -/
def LinesFrom : (line : Int) → List Mapping → Prop
  | _, [] => True
  | line, mapping :: rest =>
      line ≤ mapping.generatedLine ∧ LinesFrom mapping.generatedLine rest

private theorem encodeFrom_endsSegment (line column sourceLine sourceColumn : Int)
    (mappings : List Mapping) :
    EndsSegment (textOf (encodeFrom line false column sourceLine sourceColumn mappings)) := by
  cases mappings with
  | nil => exact trivial
  | cons mapping rest =>
      rw [encodeFrom]
      split
      case isTrue breaks =>
        obtain ⟨count, isSucc⟩ := Nat.exists_eq_succ_of_ne_zero (Nat.ne_of_gt breaks)
        rw [isSucc, List.replicate_succ]
        exact .inr rfl
      case isFalse => exact .inl rfl

/-- Mappings come back from their text. -/
theorem decodeFrom_encodeFrom (line : Nat) (isFirst : Bool)
    (column sourceLine sourceColumn : Int) (mappings : List Mapping)
    (lines : LinesFrom line mappings) :
    decodeFrom line column sourceLine sourceColumn
      (textOf (encodeFrom line isFirst column sourceLine sourceColumn mappings)) =
        .ok mappings := by
  induction mappings generalizing line isFirst column sourceLine sourceColumn with
  | nil => rfl
  | cons mapping rest induction =>
      obtain ⟨ordered, restLines⟩ := lines
      rw [encodeFrom]
      have ends := encodeFrom_endsSegment mapping.generatedLine mapping.generatedColumn
        mapping.sourceLine mapping.sourceColumn rest
      by_cases breaks : 0 < (mapping.generatedLine - line).toNat
      · have onLine : mapping.generatedLine =
            ((line + (mapping.generatedLine - line).toNat : Nat) : Int) := by omega
        have leads : textOf (List.replicate (mapping.generatedLine - line).toNat ';') =
            List.replicate (mapping.generatedLine - line).toNat (.char ';') :=
          List.map_replicate
        have restDecoded := induction _ false mapping.generatedColumn mapping.sourceLine
          mapping.sourceColumn (by rw [← onLine]; exact restLines)
        rw [← onLine] at restDecoded
        rw [if_pos breaks, if_pos breaks, List.append_assoc, textOf_append, textOf_append, leads,
          decodeFrom_lineEnds _ _ _ _ _ _ breaks,
          decodeFrom_segment _ _ _ _ _ _ ends onLine, restDecoded]
        rfl
      · have onLine : mapping.generatedLine = line := by omega
        have restDecoded := induction line false mapping.generatedColumn mapping.sourceLine
          mapping.sourceColumn (by rw [← onLine]; exact restLines)
        rw [← onLine] at restDecoded
        have decoded : decodeFrom line column sourceLine sourceColumn
            (textOf (encodeSegment column sourceLine sourceColumn mapping) ++
              textOf (encodeFrom mapping.generatedLine false mapping.generatedColumn
                mapping.sourceLine mapping.sourceColumn rest)) = .ok (mapping :: rest) := by
          rw [decodeFrom_segment _ _ _ _ _ _ ends onLine, restDecoded]
          rfl
        rw [if_neg breaks, if_neg breaks, List.append_assoc, textOf_append, textOf_append]
        cases isFirst with
        | true => exact decoded
        | false => exact (decodeFrom_comma _ _ _ _ _).trans decoded

/-- Mappings whose generated lines do not decrease come back from their text. -/
theorem decode_encodeFrom {mappings : List Mapping} (lines : LinesFrom 0 mappings) :
    decode (textOf (encodeFrom 0 true 0 0 0 mappings)) = .ok mappings := by
  rw [decode, ← decodeFrom_start]
  exact decodeFrom_encodeFrom 0 true 0 0 0 mappings lines

end Mapping

end ScriptFold

/-!
## The order of decoded mappings

Encoding sorts mappings and drops repetitions.  `Before` is the lexicographic order of the
four numbers.  Sorted mappings are in this order, each strictly before the next, and are
those that were given, so decoding gives every mapping once and in order, whatever the order
and the number of times in which they were given.
-/

namespace ScriptFold

namespace Mapping

/-- The lexicographic order of mappings. -/
def Before (first second : Mapping) : Prop :=
  first.generatedLine < second.generatedLine ∨ first.generatedLine = second.generatedLine ∧
    (first.generatedColumn < second.generatedColumn ∨
      first.generatedColumn = second.generatedColumn ∧
        (first.sourceLine < second.sourceLine ∨ first.sourceLine = second.sourceLine ∧
          first.sourceColumn < second.sourceColumn))

theorem eq_iff_numbers (first second : Mapping) :
    first = second ↔ first.generatedLine = second.generatedLine ∧
      first.generatedColumn = second.generatedColumn ∧
      first.sourceLine = second.sourceLine ∧ first.sourceColumn = second.sourceColumn := by
  cases first
  cases second
  exact Iff.of_eq (Mapping.mk.injEq ..)

private theorem compare_ne_gt (a b : Int) : (compare a b != .gt) = true ↔ a ≤ b := by
  rw [bne_iff_ne, ne_eq, Int.compare_eq_gt, Int.not_lt]

/-- A comparison that goes on to others only where its numbers are the same. -/
theorem then_ne_gt (a b : Int) (rest : Ordering) :
    ((compare a b).then rest != .gt) = true ↔ a < b ∨ a = b ∧ (rest != .gt) = true := by
  rcases Int.lt_trichotomy a b with less | same | greater
  · rw [Int.compare_eq_lt.mpr less]
    exact iff_of_true rfl (.inl less)
  · rw [Int.compare_eq_eq.mpr same]
    exact ⟨fun is => .inr ⟨same, is⟩, fun is => (is.resolve_left (by omega)).2⟩
  · rw [Int.compare_eq_gt.mpr greater]
    exact iff_of_false nofun (by omega)

/-- One mapping precedes another if it is the same or before it. -/
theorem precedes_iff (first second : Mapping) :
    precedes first second = true ↔ first = second ∨ Before first second := by
  rw [eq_iff_numbers]
  simp only [precedes, then_ne_gt, compare_ne_gt, Before]
  omega

theorem Before.trans {first second third : Mapping} (earlier : Before first second)
    (later : Before second third) : Before first third := by
  unfold Before at *
  omega

theorem precedes_trans (first second third : Mapping) (earlier : precedes first second = true)
    (later : precedes second third = true) : precedes first third = true := by
  rw [precedes_iff] at *
  rcases earlier with rfl | earlier
  · exact later
  · rcases later with rfl | later
    · exact .inr earlier
    · exact .inr (earlier.trans later)

private theorem precedes_total (first second : Mapping) :
    (precedes first second || precedes second first) = true := by
  rw [Bool.or_eq_true, precedes_iff, precedes_iff, eq_iff_numbers, eq_iff_numbers]
  unfold Before
  omega

theorem mem_dropRepeats {mapping : Mapping} (mappings : List Mapping) :
    mapping ∈ dropRepeats mappings ↔ mapping ∈ mappings := by
  fun_induction dropRepeats mappings with
  | case1 first rest induction =>
      rw [induction, List.mem_cons, List.mem_cons, List.mem_cons, or_self_left]
  | case2 first second rest _ induction => rw [List.mem_cons, induction, ← List.mem_cons]
  | case3 => rfl

/-- In an ordered list, repetitions are neighbours. -/
theorem dropRepeats_pairwise {mappings : List Mapping}
    (ordered : mappings.Pairwise fun first second => precedes first second = true) :
    (dropRepeats mappings).Pairwise Before := by
  fun_induction dropRepeats mappings with
  | case1 first rest induction => exact induction ordered.of_cons
  | case2 first second rest differ induction =>
      refine .cons (fun other there => ?_) (induction ordered.of_cons)
      have next := ((precedes_iff _ _).mp
        (List.rel_of_pairwise_cons ordered List.mem_cons_self)).resolve_left differ
      rw [mem_dropRepeats] at there
      rcases List.mem_cons.mp there with rfl | there
      · exact next
      · have after := List.rel_of_pairwise_cons ordered.of_cons there
        rcases (precedes_iff _ _).mp after with rfl | after
        · exact next
        · exact next.trans after
  | case3 mappings few =>
      match mappings with
      | [] => exact .nil
      | [single] => exact List.pairwise_singleton _ _
      | first :: second :: rest => exact absurd rfl (few first second rest)

theorem sorted_pairwise (mappings : List Mapping) : (sorted mappings).Pairwise Before :=
  dropRepeats_pairwise (List.pairwise_mergeSort precedes_trans precedes_total mappings)

theorem mem_sorted {mapping : Mapping} (mappings : List Mapping) :
    mapping ∈ sorted mappings ↔ mapping ∈ mappings := by
  rw [sorted, mem_dropRepeats, List.mem_mergeSort]

private theorem Before.ne {first second : Mapping} (before : Before first second) : first ≠ second
    := by
  rintro rfl
  unfold Before at before
  omega

private theorem dropRepeats_of_pairwise {mappings : List Mapping} (ordered
    : mappings.Pairwise Before) :
    dropRepeats mappings = mappings := by
  induction ordered with
  | nil => rfl
  | @cons first rest before _ induction =>
      cases rest with
      | nil => rfl
      | cons second others =>
          rw [dropRepeats, if_neg (before second List.mem_cons_self).ne, induction]

/-- Mappings that are in order stay as they are. -/
theorem sorted_of_pairwise {mappings : List Mapping} (ordered : mappings.Pairwise Before) :
    sorted mappings = mappings := by
  have precede := ordered.imp fun before => (precedes_iff _ _).mpr (.inr before)
  rw [sorted, List.mergeSort_of_pairwise precede, dropRepeats_of_pairwise ordered]

private theorem Before.line_le {first second : Mapping} (before : Before first second) :
    first.generatedLine ≤ second.generatedLine := by
  unfold Before at before
  omega

private theorem linesFrom_of_pairwise {line : Int} {mappings : List Mapping}
    (ordered : mappings.Pairwise Before)
    (onOrAfter : ∀ mapping, mapping ∈ mappings → line ≤ mapping.generatedLine) :
    LinesFrom line mappings := by
  induction ordered generalizing line with
  | nil => trivial
  | cons before _ induction =>
      exact ⟨onOrAfter _ List.mem_cons_self,
        induction fun other there => (before other there).line_le⟩

/-- Decoding gives the sorted mappings. -/
theorem decode_encode {mappings : List Mapping}
    (placed : ∀ mapping, mapping ∈ mappings → 0 ≤ mapping.generatedLine) :
    decode (Text.ofString (encode mappings)) = .ok (sorted mappings) := by
  have sortedPlaced : ∀ mapping, mapping ∈ sorted mappings → 0 ≤ mapping.generatedLine :=
    fun mapping there => placed mapping ((mem_sorted mappings).mp there)
  have all : ((sorted mappings).filter fun mapping => 0 ≤ mapping.generatedLine) =
      sorted mappings := by
    rw [List.filter_eq_self]
    intro mapping there
    simpa using sortedPlaced mapping there
  have text : Text.ofString (encode mappings) =
      textOf (encodeFrom 0 true 0 0 0 (sorted mappings)) := by
    simp only [encode, all, Text.ofString, String.toList_ofList, textOf]
  rw [text]
  exact decode_encodeFrom (linesFrom_of_pairwise (sorted_pairwise mappings) sortedPlaced)

/-- Mappings that are in order come back from their text as they are. -/
theorem decode_encode_of_pairwise {mappings : List Mapping} (ordered : mappings.Pairwise Before)
    (placed : ∀ mapping, mapping ∈ mappings → 0 ≤ mapping.generatedLine) :
    decode (Text.ofString (encode mappings)) = .ok mappings := by
  rw [decode_encode placed, sorted_of_pairwise ordered]

/-- Mappings come back from their text once each and in order, in whatever order and however
often they are given. -/
theorem decode_encode_distinct (mappings : List Mapping)
    (placed : ∀ mapping, mapping ∈ mappings → 0 ≤ mapping.generatedLine) :
    ∃ decoded, decode (Text.ofString (encode mappings)) = .ok decoded ∧
      decoded.Pairwise Before ∧ ∀ mapping, mapping ∈ decoded ↔ mapping ∈ mappings :=
  ⟨sorted mappings, decode_encode placed, sorted_pairwise mappings, fun _ => mem_sorted mappings⟩

/-- Mappings out of order, one of them twice, with lines left out and steps back in the
source. -/
def scattered : List Mapping :=
  [⟨5, 0, 0, 40⟩, ⟨0, 7, 900, 3⟩, ⟨5, 0, 0, 2⟩, ⟨0, 7, 900, 3⟩, ⟨0, 2, -1, 5⟩]

theorem scattered_decoded :
    (∀ mapping, mapping ∈ scattered → 0 ≤ mapping.generatedLine) ∧
      ∃ decoded, decode (Text.ofString (encode scattered)) = .ok decoded ∧
        decoded.Pairwise Before ∧ ∀ mapping, mapping ∈ decoded ↔ mapping ∈ scattered := by
  have placed : ∀ mapping, mapping ∈ scattered → 0 ≤ mapping.generatedLine := by decide
  exact ⟨placed, decode_encode_distinct scattered placed⟩

end Mapping

end ScriptFold
