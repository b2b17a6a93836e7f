import ScriptFold.Fault
import ScriptFold.Text.Basic
import ScriptFold.Value.Method

/-!
# Splitting and joining

A text is split at a separator and the pieces are joined with it again by methods of different
receivers.  `Cut` says once how a text is cut: a separator at the front ends a piece, and else
the first point belongs to the piece that the rest begins with.  Splitting makes such a cut,
and what a cut comes to does not depend on how it was found.
-/

namespace ScriptFold

namespace Method

/-- The pieces into which a separator cuts a text, read from the left. -/
inductive Cut (separator : Text) : Text → List Text → Prop
  | ended : Cut separator [] [[]]
  | here {rest : Text} {pieces : List Text} (later : Cut separator rest pieces) :
      Cut separator (separator ++ rest) ([] :: pieces)
  | inside {point : CodePoint} {rest piece : Text} {pieces : List Text}
      (notHere : ¬ separator <+: point :: rest) (later : Cut separator rest (piece :: pieces)) :
      Cut separator (point :: rest) ((point :: piece) :: pieces)

section Cutting

variable {separator text : Text} {pieces : List Text}

theorem Cut.ne_nil (cut : Cut separator text pieces) : pieces ≠ [] := by
  cases cut with
  | ended | here | inside => exact List.cons_ne_nil _ _

/-- The pieces of a cut, joined with the separator, give the text. -/
theorem Cut.joined (cut : Cut separator text pieces) : Text.join separator pieces = text := by
  induction cut with
  | ended => rfl
  | here later induction =>
      rw [Text.join_cons later.ne_nil, induction]
      rfl
  | @inside point rest piece pieces _ later induction =>
      cases pieces with
      | nil => rw [← induction, Text.join, Text.join]
      | cons next others =>
          rw [Text.join_cons (List.cons_ne_nil _ _)] at induction
          rw [Text.join_cons (List.cons_ne_nil _ _), ← induction]
          rfl

/-- A text begins with its first piece. -/
theorem Cut.begins {piece : Text} (cut : Cut separator text (piece :: pieces)) :
    piece <+: text := by
  generalize arePieces : piece :: pieces = all at cut
  induction cut generalizing piece pieces with
  | ended =>
      cases arePieces
      exact List.prefix_refl _
  | here =>
      cases arePieces
      exact List.nil_prefix
  | inside _ _ induction =>
      cases arePieces
      exact (List.prefix_cons_inj _).mpr (induction rfl)

/-- No piece holds the separator: it would have been found at the front of some rest. -/
theorem Cut.free (cut : Cut separator text pieces) (notEmpty : separator ≠ []) :
    ∀ piece ∈ pieces, ¬ separator <:+: piece := by
  have notInEmpty : ¬ separator <:+: [] := fun holds => notEmpty (List.infix_nil.mp holds)
  induction cut with
  | ended =>
      intro piece there
      rwa [List.mem_singleton.mp there]
  | here _ induction => exact List.forall_mem_cons.mpr ⟨notInEmpty, induction⟩
  | inside notHere later induction =>
      obtain ⟨firstFree, othersFree⟩ := List.forall_mem_cons.mp induction
      refine List.forall_mem_cons.mpr ⟨fun holds => ?_, othersFree⟩
      rcases List.infix_cons_iff.mp holds with atFront | further
      · exact notHere (atFront.trans ((List.prefix_cons_inj _).mpr later.begins))
      · exact firstFree further

end Cutting

/-- Points that belong to a separator already found do not count. -/
theorem splitFrom_skip (separator : Text) (skip : Nat) (text : Text) :
    splitFrom separator skip text = splitFrom separator 0 (text.drop skip) := by
  induction text generalizing skip with
  | nil => rw [List.drop_nil, splitFrom, splitFrom]
  | cons point rest induction =>
      cases skip with
      | zero => rfl
      | succ skip => rw [splitFrom, induction, List.drop_succ_cons]

theorem splitFrom_cut {separator : Text} (notEmpty : separator ≠ []) (text : Text) :
    Cut separator text (splitFrom separator 0 text) := by
  match text with
  | [] => exact .ended
  | point :: rest =>
      rw [splitFrom]
      split
      case isTrue isHere =>
        obtain ⟨after, isAfter⟩ := List.isPrefixOf_iff_prefix.mp isHere
        have width : 0 < separator.length := List.length_pos_iff.mpr notEmpty
        have restDropped : rest.drop (separator.length - 1) = after := by
          have dropped := congrArg (List.drop separator.length) isAfter
          rw [List.drop_left, ← Nat.sub_add_cancel width, List.drop_succ_cons] at dropped
          exact dropped.symm
        rw [splitFrom_skip, restDropped, ← isAfter]
        have shorter : after.length ≤ rest.length := by
          rw [← restDropped, List.length_drop]
          exact Nat.sub_le _ _
        exact .here (splitFrom_cut notEmpty after)
      case isFalse notHere =>
        have later := splitFrom_cut notEmpty rest
        obtain ⟨piece, pieces, isSplit⟩ := List.exists_cons_of_ne_nil later.ne_nil
        rw [isSplit] at later ⊢
        exact .inside (fun starts => notHere (List.isPrefixOf_iff_prefix.mpr starts)) later
termination_by text.length

/-- The empty separator divides a text into its code points, which join to the text. -/
theorem join_points (text : Text) : Text.join [] (text.map fun point => [point]) = text := by
  induction text with
  | nil => rfl
  | cons point rest induction =>
      cases rest with
      | nil => rfl
      | cons next others =>
          rw [List.map_cons, Text.join_cons (by simp), induction]
          rfl

theorem join_pieces (separator text : Text) :
    Text.join separator (pieces separator text) = text := by
  unfold pieces
  split
  case isTrue isEmpty =>
    rw [List.isEmpty_iff.mp isEmpty]
    exact join_points text
  case isFalse notEmpty =>
    exact (splitFrom_cut (by simpa using notEmpty) text).joined

private theorem pieces_free {separator : Text} (text : Text) (notEmpty : separator ≠ []) :
    ∀ piece ∈ pieces separator text, ¬ separator <:+: piece := by
  rw [pieces, if_neg (by simpa using notEmpty)]
  exact (splitFrom_cut notEmpty text).free notEmpty

/-- Splitting with nothing but a separator gives all the pieces. -/
theorem stringSplit_separator (text separator : Text) :
    stringSplit text [.str separator] = .ok (.list ((pieces separator text).map .str)) :=
  rfl

private theorem toTexts_strings (texts : List Text) : Value.toTexts (texts.map .str) = .ok texts
    := by
  induction texts with
  | nil => rfl
  | cons text rest induction =>
      rw [List.map_cons, Value.toTexts, induction]
      · rfl
      · exact nofun
      · exact nofun

private theorem arrayJoin_strings (texts : List Text) (separator : Text) :
    arrayJoin (texts.map .str) [.str separator] = .ok (.str (Text.join separator texts)) := by
  have separates : needle [.str separator] = .ok separator := rfl
  simp only [arrayJoin, separates, toTexts_strings]
  rfl

/-- A text that is split at a separator comes back when the pieces are joined with it, and no
piece holds a separator that is not empty. -/
theorem arrayJoin_stringSplit (text separator : Text) :
    ∃ parts : List Text,
      stringSplit text [.str separator] = .ok (.list (parts.map .str)) ∧
      arrayJoin (parts.map .str) [.str separator] = .ok (.str text) ∧
      (separator ≠ [] → ∀ part ∈ parts, ¬ separator <:+: part) := by
  refine ⟨pieces separator text, stringSplit_separator text separator, ?_, pieces_free text⟩
  rw [arrayJoin_strings, join_pieces]

/-- The separator `aa` occurs twice in `aaab`, but only the first of the two ends a piece. -/
theorem overlapping_separators_joined : ∃ parts : List Text,
    stringSplit "aaab" [.string "aa"] = .ok (.list (parts.map .str)) ∧
    arrayJoin (parts.map .str) [.string "aa"] = .ok (.string "aaab") ∧
    Text.ofString "aa" ≠ [] ∧ parts = [[], "ab"] ∧
    ∀ part ∈ parts, ¬ Text.ofString "aa" <:+: part := by
  obtain ⟨parts, splits, joins, free⟩ := arrayJoin_stringSplit "aaab" "aa"
  have cut : stringSplit "aaab" [.string "aa"] =
      .ok (.list (([[], "ab"] : List Text).map .str)) := rfl
  have areParts : parts = [[], "ab"] := by
    have same := cut.symm.trans splits
    injection same with same
    injection same with same
    exact ((List.map_inj_right fun _ _ equal => Value.str.inj equal).mp same).symm
  have notEmpty : Text.ofString "aa" ≠ [] := by decide
  exact ⟨parts, splits, joins, notEmpty, areParts, free notEmpty⟩

end Method

end ScriptFold
