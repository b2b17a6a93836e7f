import ScriptFold.Printer.Page
import ScriptFold.Text.Basic

/-!
# Positions in a text

A text ends on some line and column, both counted from zero, and only line feeds divide
lines.  The ends of its beginnings come in the order of their positions, and each lies within
one of its lines.  The starts of the lines of a text give the position of every offset in it.
-/

namespace ScriptFold

namespace Text

/-- The position that one more code point leads to. -/
def stepOver (position : Nat × Nat) (point : CodePoint) : Nat × Nat :=
  if point.is '\n' then (position.1 + 1, 0) else (position.1, position.2 + 1)

/-- The line and column at which a text ends, both counted from zero. -/
def reached (text : Text) : Nat × Nat :=
  text.foldl stepOver (0, 0)

theorem reached_append (lead rest : Text) :
    reached (lead ++ rest) = rest.foldl stepOver lead.reached :=
  List.foldl_append

/-- The order of positions: by lines, and by columns on the same line. -/
def NotAfter (first second : Nat × Nat) : Prop :=
  first.1 < second.1 ∨ (first.1 = second.1 ∧ first.2 ≤ second.2)

theorem NotAfter.refl (position : Nat × Nat) : NotAfter position position :=
  .inr ⟨rfl, Nat.le_refl _⟩

theorem NotAfter.trans {first second third : Nat × Nat} (begins : NotAfter first second)
    (ends : NotAfter second third) : NotAfter first third := by
  unfold NotAfter at *
  omega

private theorem notAfter_stepOver (position : Nat × Nat) (point : CodePoint) :
    NotAfter position (stepOver position point) := by
  unfold stepOver NotAfter
  split <;> dsimp only <;> omega

private theorem notAfter_foldl (rest : Text) (position : Nat × Nat) :
    NotAfter position (rest.foldl stepOver position) := by
  induction rest generalizing position with
  | nil => exact .refl position
  | cons point rest induction => exact (notAfter_stepOver position point).trans (induction _)

/-- Beginnings of a text end no later than the text. -/
theorem notAfter_of_prefix {lead text : Text} (begins : lead <+: text) :
    NotAfter lead.reached text.reached := by
  obtain ⟨rest, rfl⟩ := begins
  rw [reached_append]
  exact notAfter_foldl rest lead.reached

/-- The end of a beginning lies within a line, counted from the line and column where the
text begins. -/
theorem line_of_foldl (lead rest : Text) (line column : Nat) :
    ∃ later piece, (lead.foldl stepOver (line, column)).1 = line + later ∧
      ((lead ++ rest).splitAt '\n')[later]? = some piece ∧
      (lead.foldl stepOver (line, column)).2 ≤ (if later = 0 then column else 0) + piece.length := by
  induction lead generalizing line column with
  | nil =>
      obtain ⟨piece, pieces, isSplit⟩ := List.exists_cons_of_ne_nil (splitAt_ne_nil '\n' rest)
      refine ⟨0, piece, rfl, ?_, ?_⟩
      · rw [List.nil_append, isSplit]
        rfl
      · rw [if_pos rfl]
        exact Nat.le_add_right _ _
  | cons point others induction =>
      rw [List.foldl_cons, List.cons_append]
      by_cases feeds : point.is '\n' = true
      · obtain ⟨later, piece, isLine, found, within⟩ := induction (line + 1) 0
        have isFeed : point = .char '\n' := by simpa [CodePoint.is] using feeds
        rw [stepOver, if_pos feeds]
        refine ⟨later + 1, piece, ?_, ?_, ?_⟩
        · rw [isLine]
          omega
        · rw [isFeed, splitAt_mark]
          exact found
        · rw [if_neg (Nat.succ_ne_zero later)]
          simpa using within
      · obtain ⟨later, piece, isLine, found, within⟩ := induction line (column + 1)
        obtain ⟨head, pieces, isSplit⟩ :=
          List.exists_cons_of_ne_nil (splitAt_ne_nil '\n' (others ++ rest))
        have joined : splitAt '\n' ([point] ++ (others ++ rest)) = ([point] ++ head) :: pieces :=
          splitAt_append (by simpa using feeds) isSplit
        rw [List.singleton_append, List.singleton_append] at joined
        rw [stepOver, if_neg feeds, joined]
        rw [isSplit] at found
        cases later with
        | zero =>
            cases found
            refine ⟨0, point :: piece, isLine, rfl, ?_⟩
            rw [if_pos rfl] at within ⊢
            rw [List.length_cons, Nat.add_comm piece.length, ← Nat.add_assoc]
            exact within
        | succ later => exact ⟨later + 1, piece, isLine, found, within⟩

/-- Every beginning of a text ends on one of its lines, no later than the line does. -/
theorem line_of_prefix {lead text : Text} (begins : lead <+: text) :
    ∃ piece, (text.splitAt '\n')[lead.reached.1]? = some piece ∧ lead.reached.2 ≤ piece.length := by
  obtain ⟨rest, rfl⟩ := begins
  obtain ⟨later, piece, isLine, found, within⟩ := line_of_foldl lead rest 0 0
  refine ⟨piece, ?_, ?_⟩
  · rw [reached, isLine, Nat.zero_add]
    exact found
  · rw [reached]
    simpa using within

private theorem positionFrom_of_lt {offset line start : Nat} {later : List Nat}
    (before : ∀ next, next ∈ later → offset < next) :
    positionFrom offset line start later = (line, offset - start) := by
  cases later with
  | nil => rfl
  | cons next rest => rw [positionFrom, if_neg (Nat.not_le.mpr (before next List.mem_cons_self))]

private theorem lt_of_mem_lineStarts {text : Text} {offset next : Nat}
    (there : next ∈ text.lineStarts offset) : offset < next := by
  obtain ⟨⟨point, after⟩, isPoint, found⟩ := List.mem_filterMap.mp there
  have least := List.le_snd_of_mem_zipIdx isPoint
  dsimp only at found least
  split at found
  case isTrue =>
    cases found
    exact least
  case isFalse => cases found

/-- The starts of lines give the position of every offset, seen from an offset on. -/
theorem positionFrom_lineStarts (text : Text) {base start line offset : Nat} (isStart : start ≤ base)
    (least : base ≤ offset) (most : offset ≤ base + text.length) :
    positionFrom offset line start (text.lineStarts base) =
      (text.take (offset - base)).foldl stepOver (line, base - start) := by
  induction text generalizing base start line with
  | nil =>
      have same : offset = base := Nat.le_antisymm most least
      subst same
      simp [lineStarts, positionFrom]
  | cons point rest induction =>
      rcases Nat.eq_or_lt_of_le least with same | further
      · subst same
        rw [positionFrom_of_lt fun next there => lt_of_mem_lineStarts there, Nat.sub_self]
        rfl
      · rw [List.length_cons] at most
        obtain ⟨count, isCount⟩ : ∃ count, offset - base = count + 1 := ⟨offset - base - 1, by omega⟩
        have fewer : offset - (base + 1) = count := by omega
        rw [isCount, List.take_succ_cons, List.foldl_cons, stepOver]
        by_cases feeds : point.is '\n' = true
        · have isStarts : lineStarts base (point :: rest) = (base + 1) :: lineStarts (base + 1) rest := by
            simp [lineStarts, List.zipIdx_cons, feeds]
          rw [isStarts, positionFrom, if_pos (Nat.succ_le_of_lt further), if_pos feeds,
            induction (Nat.le_refl _) further (by omega), fewer, Nat.sub_self]
        · have isStarts : lineStarts base (point :: rest) = lineStarts (base + 1) rest := by
            simp [lineStarts, List.zipIdx_cons, feeds]
          rw [isStarts, if_neg feeds, induction (by omega) further (by omega), fewer]
          congr 2
          omega

/-- The position of an offset is where the text before it ends. -/
theorem positionFrom_eq_reached {text : Text} {offset : Nat} (within : offset ≤ text.length) :
    positionFrom offset 0 0 (text.lineStarts 0) = reached (text.take offset) :=
  positionFrom_lineStarts text (Nat.le_refl 0) (Nat.zero_le _) (by omega)

end Text

end ScriptFold
