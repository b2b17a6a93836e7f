import ScriptFold.Proofs.Reading.Operation
import ScriptFold.Proofs.Reading.Refusal

/-!
# How names and operators group

A sequence of names with binary operators between them is read as one tree, in which tighter
operators are nested inside weaker ones and operators of one precedence nest to the left, but
powers to the right.  Nothing but a tree that nests too deep to the right is refused.
-/

namespace ScriptFold

namespace Grammar

inductive Grouping where
  | name (token : Token)
  | operation (left : Grouping) (operator : Token) (right : Grouping)

namespace Grouping

/-- The names and operators in the order in which they are written. -/
def tokens : Grouping → List Token
  | name token => [token]
  | operation left operator right => left.tokens ++ operator :: right.tokens

/-- How tight the outermost operator binds; names bind tighter than every operator. -/
def binds : Grouping → Nat
  | name _ => 13
  | operation _ operator _ => (binaryPrecedence? operator.type).getD 0

/-- How deep operations nest to the right. -/
def depth : Grouping → Nat
  | name _ => 0
  | operation left _ right => max left.depth (right.depth + 1)

def powers (grouping : Grouping) : Nat :=
  grouping.tokens.countP fun token => token.type == .pow

/-- The operands of each operator bind as tight as it does, and the right one tighter; the other
way round for powers. -/
def WellGrouped : Grouping → Prop
  | name token => binaryPrecedence? token.type = none
  | operation left operator right => left.WellGrouped ∧ right.WellGrouped ∧
      ∃ precedence, binaryPrecedence? operator.type = some precedence ∧
        if operator.type = .pow then precedence < left.binds ∧ precedence ≤ right.binds
        else precedence ≤ left.binds ∧ precedence < right.binds

/-- A node that was read from names and operators in this grouping. -/
def IsRead : Grouping → Node → Prop
  | name token, node => ∃ source span, node = .read .ident {} source span [leafOf .name token]
  | operation left operator right, node => ∃ source span leftNode rightNode,
      left.IsRead leftNode ∧ right.IsRead rightNode ∧
        node = .read (if isLogical operator.type then .logical else .binary) {} source span
          [leftNode, leafOf .op operator, rightNode]

private theorem tokens_ne_nil (grouping : Grouping) : grouping.tokens ≠ [] := by
  cases grouping <;> simp [tokens]

theorem operation_tokens_ne {left right : Grouping} {operator : Token} (token : Token) :
    (operation left operator right).tokens ≠ (name token).tokens := by
  intro same
  have notEmpty := List.length_pos_iff.mpr left.tokens_ne_nil
  have sizes := congrArg List.length same
  simp only [tokens, List.length_append, List.length_cons, List.length_nil] at sizes
  omega

theorem wellGrouped_name {token : Token} (isName : token.type = .ident) :
    (name token).WellGrouped := by
  rw [WellGrouped, isName]
  rfl

section Operation

variable {left right : Grouping} {operator : Token} {precedence : Nat}

theorem binds_operation (isBinary : binaryPrecedence? operator.type = some precedence) :
    (operation left operator right).binds = precedence := by
  rw [binds, isBinary]
  rfl

theorem powers_operation : (operation left operator right).powers =
    left.powers + right.powers + if operator.type = .pow then 1 else 0 := by
  simp only [powers, tokens, List.countP_append, List.countP_cons, beq_iff_eq]
  omega

end Operation

namespace WellGrouped

variable {grouping : Grouping}

/-- Operations nest to the right as deep as precedences rise and powers follow each other. -/
theorem depth_le (grouped : grouping.WellGrouped) :
    grouping.depth ≤ 12 - grouping.binds + grouping.powers := by
  induction grouping with
  | name token => exact Nat.zero_le _
  | operation left operator right leftBound rightBound =>
      obtain ⟨leftGrouped, rightGrouped, precedence, isBinary, nested⟩ := grouped
      have leftBound := leftBound leftGrouped
      have rightBound := rightBound rightGrouped
      rw [binds_operation isBinary, powers_operation, depth]
      obtain ⟨_, ⟨isPow, rfl⟩ | ⟨notPow, small⟩⟩ := binaryPrecedence?_range isBinary
      · rw [if_pos isPow] at nested ⊢
        omega
      · rw [if_neg notPow] at nested ⊢
        omega

/-- No operator binds less tight than the outermost one. -/
theorem binds_le_of_mem (grouped : grouping.WellGrouped) {token : Token}
    (there : token ∈ grouping.tokens) {precedence : Nat}
    (isBinary : binaryPrecedence? token.type = some precedence) : grouping.binds ≤ precedence := by
  induction grouping with
  | name token =>
      obtain rfl := List.mem_singleton.mp there
      rw [show binaryPrecedence? _ = none from grouped] at isBinary
      cases isBinary
  | operation left operator right leftBound rightBound =>
      obtain ⟨leftGrouped, rightGrouped, least, isOperator, nested⟩ := grouped
      have atMost : least ≤ left.binds ∧ least ≤ right.binds := by
        split at nested <;> omega
      rw [binds_operation isOperator]
      obtain inLeft | isHere := List.mem_append.mp there
      · exact Nat.le_trans atMost.1 (leftBound leftGrouped inLeft)
      obtain rfl | inRight := List.mem_cons.mp isHere
      · rw [isOperator] at isBinary
        cases isBinary
        exact Nat.le_refl _
      · exact Nat.le_trans atMost.2 (rightBound rightGrouped inRight)

/-- Of two operators only one has the other in an operand on its side. -/
theorem not_crossed {left right left' right' : Grouping} {operator operator' : Token}
    (grouped : (operation left operator right).WellGrouped)
    (grouped' : (operation left' operator' right').WellGrouped)
    (inLeft : operator' ∈ left.tokens) (inRight : operator ∈ right'.tokens) : False := by
  obtain ⟨leftGrouped, _, precedence, isBinary, nested⟩ := grouped
  obtain ⟨_, rightGrouped, precedence', isBinary', nested'⟩ := grouped'
  have leftBound := leftGrouped.binds_le_of_mem inLeft isBinary'
  have rightBound := rightGrouped.binds_le_of_mem inRight isBinary
  obtain ⟨_, ⟨isPow, rfl⟩ | ⟨notPow, small⟩⟩ := binaryPrecedence?_range isBinary <;>
    obtain ⟨_, ⟨isPow', rfl⟩ | ⟨notPow', small'⟩⟩ := binaryPrecedence?_range isBinary' <;>
    simp only [*, if_true, if_false] at nested nested' <;> omega

/-- The outermost operator of names and operators that are well grouped is determined. -/
theorem same_left {left right left' right' : Grouping} {operator operator' : Token}
    (grouped : (operation left operator right).WellGrouped)
    (grouped' : (operation left' operator' right').WellGrouped)
    (same : left.tokens ++ operator :: right.tokens = left'.tokens ++ operator' :: right'.tokens) :
    left.tokens = left'.tokens := by
  obtain ⟨between, isLeft, isRight⟩ | ⟨between, isLeft, isRight⟩ :=
    List.append_eq_append_iff.mp same
  · cases between with
    | nil => rw [isLeft, List.append_nil]
    | cons token others =>
        obtain ⟨rfl, isTail⟩ := List.cons.inj isRight
        have inLeft : operator ∈ left'.tokens := by simp [isLeft]
        have inRight : operator' ∈ right.tokens := by
          rw [isTail]
          exact List.mem_append_right _ List.mem_cons_self
        exact (grouped'.not_crossed grouped inLeft inRight).elim
  · cases between with
    | nil => rw [isLeft, List.append_nil]
    | cons token others =>
        obtain ⟨rfl, isTail⟩ := List.cons.inj isRight
        have inLeft : operator' ∈ left.tokens := by simp [isLeft]
        have inRight : operator ∈ right'.tokens := by
          rw [isTail]
          exact List.mem_append_right _ List.mem_cons_self
        exact (grouped.not_crossed grouped' inLeft inRight).elim

/-- Names and operators are well grouped in one way only. -/
theorem unique (grouped : grouping.WellGrouped) {other : Grouping}
    (otherGrouped : other.WellGrouped) (same : grouping.tokens = other.tokens) :
    grouping = other := by
  induction grouping generalizing other with
  | name token =>
      cases other with
      | name other =>
          cases same
          rfl
      | operation left operator right => exact absurd same.symm (operation_tokens_ne token)
  | operation left operator right leftUnique rightUnique =>
      cases other with
      | name token => exact absurd same (operation_tokens_ne token)
      | operation left' operator' right' =>
          have sameLeft := same_left grouped otherGrouped same
          rw [tokens, tokens, sameLeft] at same
          obtain ⟨rfl, sameRight⟩ := List.cons.inj (List.append_cancel_left same)
          rw [leftUnique grouped.1 otherGrouped.1 sameLeft,
            rightUnique grouped.2.1 otherGrouped.2.1 sameRight]

/-- Powers nest to the right only, one in the other. -/
theorem depth_eq_powers (grouped : grouping.WellGrouped)
    (arePowers : ∀ token ∈ grouping.tokens, (binaryPrecedence? token.type).isSome →
      token.type = .pow) : grouping.depth = grouping.powers := by
  induction grouping with
  | name token =>
      have notPow : token.type ≠ .pow := by
        intro isPow
        rw [WellGrouped, isPow] at grouped
        cases grouped
      simp [depth, powers, tokens, notPow]
  | operation left operator right leftDepth rightDepth =>
      obtain ⟨leftGrouped, rightGrouped, precedence, isBinary, nested⟩ := grouped
      have isPow : operator.type = .pow :=
        arePowers operator (by simp [tokens]) (by simp [isBinary])
      have leftDepth := leftDepth leftGrouped fun token there =>
        arePowers token (by simp [tokens, there])
      have rightDepth := rightDepth rightGrouped fun token there =>
        arePowers token (by simp [tokens, there])
      -- Whatever binds tighter than a power is a name.
      have isName : left.depth = 0 := by
        cases left with
        | name token => rfl
        | operation inner operator' outer =>
            obtain ⟨_, _, precedence', isBinary', _⟩ := leftGrouped
            rw [isPow] at isBinary
            cases isBinary
            have small := (binaryPrecedence?_range isBinary').2
            rw [if_pos isPow, binds_operation isBinary'] at nested
            omega
      rw [powers_operation, if_pos isPow, depth]
      omega

end WellGrouped

end Grouping

/-- A token that is not taken into the operand before it: no link of a chain, and no update or
function of the same line, which a name may belong to. -/
structure EndsOperand (token : Token) : Prop where
  notLink : token.type ∉
    [.dot, .optionalDot, .openBracket, .openParen, .wholeTemplate, .templateHead]
  apart : token.type ∈ [.increment, .decrement, .kwFunction] → token.newlineBefore = true

/-- Tokens that begin with one that is not taken into the operation before it. -/
def EndsOperation (tokens : List Token) : Prop :=
  ∃ token rest, tokens = token :: rest ∧ EndsOperand token ∧ binaryPrecedence? token.type = none

theorem endsOperand_of_binary {token : Token} {precedence : Nat}
    (isBinary : binaryPrecedence? token.type = some precedence) : EndsOperand token := by
  have plain : token.type ∉
      [.dot, .optionalDot, .openBracket, .openParen, .wholeTemplate, .templateHead] ∧
      token.type ∉ [.increment, .decrement, .kwFunction] := by
    revert isBinary
    cases token.type <;> simp [binaryPrecedence?]
  exact ⟨plain.1, fun among => absurd among plain.2⟩

namespace EndsOperand

variable {token : Token} {rest : List Token}

theorem chainLink? (ends : EndsOperand token) {rules : Rules} {calls : Bool} {start : Token}
    {object : Node} :
    Steps (chainLink? rules calls start object) (token :: rest) none (token :: rest) := by
  have notLink := ends.notLink
  refine (Steps.current token rest).bind ?_
  revert notLink
  cases token.type
  case dot | optionalDot | openBracket | openParen | wholeTemplate | templateHead =>
    exact fun notLink => absurd (by decide) notLink
  all_goals exact fun _ => .of_pure none

theorem chain (ends : EndsOperand token) {rules : Rules} {calls : Bool} {start : Token}
    {object : Node} {deep : Prop} {gives : Node → List Token → Prop}
    (is : gives object (token :: rest)) :
    Runs deep (chain rules calls start object) (token :: rest) gives := by
  have goes : ∀ budget, (token :: rest).length < budget →
      Runs deep (chainFrom rules calls start budget object) (token :: rest) gives := by
    intro budget within
    cases budget with
    | zero => cases within
    | succ budget => exact .step ends.chainLink? (.of_pure is)
  exact .withBudget goes

theorem isAsyncFunction (ends : EndsOperand token) (name : Token) :
    Steps isAsyncFunction (name :: token :: rest) false (name :: token :: rest) := by
  have isFalse : (name.isNamed "async" && token.type == .kwFunction && !token.newlineBefore)
      = false := by
    by_cases isFunction : token.type = .kwFunction
    · rw [ends.apart (by simp [isFunction]), Bool.not_true, Bool.and_false]
    · rw [beq_false_of_ne isFunction, Bool.and_false, Bool.false_and]
  rw [← isFalse]
  exact (Steps.peek name token rest).bind ((Steps.checkName "async" name _).bind (.of_pure _))

theorem notUpdate (ends : EndsOperand token) :
    ([TokenType.increment, .decrement].contains token.type && !token.newlineBefore) = false := by
  by_cases isUpdate : [TokenType.increment, .decrement].contains token.type
  · have among : token.type ∈ [.increment, .decrement, .kwFunction] := by
      revert isUpdate
      cases token.type <;> simp
    rw [ends.apart among, Bool.not_true, Bool.and_false]
  · rw [Bool.not_eq_true] at isUpdate
    rw [isUpdate, Bool.false_and]

end EndsOperand

/-- Operators end before a token that binds less tight, or is no operator. -/
theorem climb_stops {rules : Rules} {start : Token} {least budget : Nat} {left : Node}
    {token : Token} {rest : List Token} {deep : Prop} {gives : Node → List Token → Prop}
    (weak : ∀ precedence, binaryPrecedence? token.type = some precedence → precedence < least)
    (within : (token :: rest).length < budget) (is : gives left (token :: rest)) :
    Runs deep (climb rules least start budget left) (token :: rest) gives := by
  cases budget with
  | zero => cases within
  | succ budget =>
      have steps := operator?_steps token rest least
      cases isBinary : binaryPrecedence? token.type with
      | none =>
          rw [isBinary] at steps
          exact .step steps (.of_pure is)
      | some precedence =>
          rw [isBinary, Option.bind_some, if_pos (weak precedence isBinary)] at steps
          exact .step steps (.of_pure is)

/-- Operators, each with a name after it. -/
abbrev Operations := List (Token × Token)

namespace Operations

/-- The operators and names in the order in which they are written. -/
def tokens (operations : Operations) : List Token :=
  operations.flatMap fun operation => [operation.1, operation.2]

/-- Binary operators with names. -/
def Valid (operations : Operations) : Prop :=
  ∀ operation ∈ operations,
    (binaryPrecedence? operation.1.type).isSome ∧ operation.2.type = .ident

instance (operations : Operations) : Decidable operations.Valid :=
  inferInstanceAs (Decidable (∀ operation ∈ operations,
    (binaryPrecedence? operation.1.type).isSome ∧ operation.2.type = .ident))

/-- How tight the first operator binds; nothing binds less tight than every operator. -/
def binds : Operations → Nat
  | [] => 0
  | operation :: _ => (binaryPrecedence? operation.1.type).getD 0

/-- The first operator can be applied to a grouping: it does not bind tighter than its outermost
operator, nor is it a power as that one is. -/
def AppliesTo (operations : Operations) (left : Grouping) : Prop :=
  (if operations.binds = 12 then 13 else operations.binds) ≤ left.binds

/-- The first token ends an operand, and binds no tighter than the first operator. -/
theorem next {operations : Operations} (valid : operations.Valid) {rest : List Token}
    (ends : EndsOperation rest) :
    ∃ token others, operations.tokens ++ rest = token :: others ∧ EndsOperand token ∧
      ∀ precedence, binaryPrecedence? token.type = some precedence →
        precedence ≤ operations.binds := by
  cases operations with
  | nil =>
      obtain ⟨token, others, rfl, endsOperand, notBinary⟩ := ends
      exact ⟨token, others, rfl, endsOperand, by simp [notBinary]⟩
  | cons operation operations =>
      obtain ⟨precedence, isBinary⟩ := Option.isSome_iff_exists.mp (valid _ List.mem_cons_self).1
      refine ⟨operation.1, _, rfl, endsOperand_of_binary isBinary, ?_⟩
      simp [binds, isBinary]

private theorem binds_le {operations : Operations} (valid : operations.Valid)
    : operations.binds ≤ 12 := by
  cases operations with
  | nil => exact Nat.zero_le 12
  | cons operation operations =>
      obtain ⟨precedence, isBinary⟩ := Option.isSome_iff_exists.mp (valid _ List.mem_cons_self).1
      rw [binds, isBinary]
      rcases (binaryPrecedence?_range isBinary).2 with ⟨_, rfl⟩ | ⟨_, small⟩
      · exact Nat.le_refl 12
      · exact Nat.le_succ_of_le small

/-- Every operator can be applied to a name. -/
theorem appliesTo_name {operations : Operations} (valid : operations.Valid) (name : Token) :
    operations.AppliesTo (.name name) := by
  have small := binds_le valid
  show _ ≤ 13
  split <;> omega

end Operations

/-- What is read if a left operand is extended by operators that bind at least as tight as
given: a grouping, and the operators that remain. -/
structure Climbs (least : Nat) (left : Grouping) (operations : Operations) (whole : Grouping)
    (remaining : Operations) : Prop where
  tokens : whole.tokens ++ remaining.tokens = left.tokens ++ operations.tokens
  grouped : whole.WellGrouped
  tight : least ≤ whole.binds
  deeper : left.depth ≤ whole.depth
  valid : remaining.Valid
  ends : remaining.binds < least
  shorter : remaining.length ≤ operations.length
  runs : ∀ level start budget node rest, EndsOperation rest → left.IsRead node →
    left.depth + 2 ≤ level → (operations.tokens ++ rest).length < budget →
    Runs (level + 1 < whole.depth + 3) (climb (rulesAt level) least start budget node)
      (operations.tokens ++ rest) fun value after =>
        whole.depth + 3 ≤ level + 1 ∧ whole.IsRead value ∧ after = remaining.tokens ++ rest

/-- A name is read as an operand by a level of its own and one for its chain. -/
theorem unary_name {name : Token} (isName : name.type = .ident) {after : Token}
    (ends : EndsOperand after) (following : List Token) (level : Nat) :
    Runs (level < 2) (rulesAt level).unary (name :: after :: following) fun value rest =>
      2 ≤ level ∧ (Grouping.name name).IsRead value ∧ rest = after :: following := by
  have starts : startsChain name.type := by
    rw [isName]
    rfl
  have notPrefix := startsChain_not starts
  match level with
  | 0 => exact .refused (by decide)
  | 1 =>
      refine .step (.current name _) ?_
      simp only [notPrefix.1, if_neg notPrefix.2.1, if_neg notPrefix.2.2]
      have refused : Runs (1 < 2) (rulesAt 0).leftHandSide (name :: after :: following)
          fun _ _ => False := .refused (by decide)
      exact .bind refused nofun
  | level + 2 =>
      have notNew : [TokenType.kwNew].contains name.type = false := by
        rw [isName]
        rfl
      have head : Runs (level + 2 < 2) (chainHead (rulesAt level)) (name :: after :: following)
          fun value rest => (Grouping.name name).IsRead value ∧ rest = after :: following := by
        refine .step (.check _ name _) ?_
        rw [notNew]
        refine .step (.current name _) ?_
        rw [isName]
        refine .step (ends.isAsyncFunction name) ?_
        refine .step (.advance name after following) (.finishRead fun source span => ?_)
        exact ⟨⟨source, span, rfl⟩, rfl⟩
      have operand : Runs (level + 2 < 2) (rulesAt (level + 1)).leftHandSide
          (name :: after :: following)
          fun value rest => (Grouping.name name).IsRead value ∧ rest = after :: following := by
        refine .step (.current name _) (.bind head ?_)
        rintro value _ ⟨isRead, rfl⟩
        exact ends.chain ⟨isRead, rfl⟩
      refine .step (.current name _) ?_
      simp only [notPrefix.1, if_neg notPrefix.2.1, if_neg notPrefix.2.2]
      refine .bind operand ?_
      rintro value _ ⟨isRead, rfl⟩
      refine .step (.check _ after following) (.step (.current after following) ?_)
      rw [ends.notUpdate]
      exact .of_pure ⟨Nat.le_add_left 2 level, isRead, rfl⟩

/-- A name and the operators after it are read as a right operand is. -/
theorem Climbs.binary {least : Nat} {name : Token} (isName : name.type = .ident)
    {operations : Operations} (valid : operations.Valid) {whole : Grouping} {remaining : Operations}
    (climbs : Climbs least (.name name) operations whole remaining) {rest : List Token}
    (ends : EndsOperation rest) (level : Nat) :
    Runs (level < whole.depth + 3) ((rulesAt level).binary least)
      (name :: operations.tokens ++ rest) fun value after =>
        whole.depth + 3 ≤ level ∧ whole.IsRead value ∧ after = remaining.tokens ++ rest := by
  cases level with
  | zero => exact .refused (Nat.succ_pos _)
  | succ level =>
      obtain ⟨after, following, isNext, endsOperand, _⟩ := Operations.next valid ends
      have operand := unary_name isName endsOperand following level
      rw [← isNext] at operand
      refine .step (.current name _) ?_
      refine .bind (operand.mono (fun less => by omega) fun _ _ is => is) ?_
      rintro node _ ⟨enough, isRead, rfl⟩
      exact .withBudget fun budget within =>
        climbs.runs level name budget node rest ends isRead enough within

/-- An operator takes its right operand first, and what has been joined is extended further. -/
theorem Climbs.operation {least : Nat} {left : Grouping} {operator name : Token}
    (isName : name.type = .ident) {others : Operations} (valid : others.Valid) {precedence : Nat}
    (isBinary : binaryPrecedence? operator.type = some precedence) (tight : least ≤ precedence)
    {right whole : Grouping} {middle remaining : Operations}
    (operand : Climbs (if operator.type = .pow then precedence else precedence + 1) (.name name)
      others right middle)
    (climbs : Climbs least (.operation left operator right) middle whole remaining) :
    Climbs least left ((operator, name) :: others) whole remaining := by
  have depthIs : (Grouping.operation left operator right).depth =
      max left.depth (right.depth + 1) := rfl
  have deeper := climbs.deeper
  have rightTokens : right.tokens ++ middle.tokens = name :: others.tokens := operand.tokens
  have taken : Operations.tokens ((operator, name) :: others) =
      operator :: (right.tokens ++ middle.tokens) := by
    rw [rightTokens]
    rfl
  refine ⟨?_, climbs.grouped, climbs.tight, by omega, climbs.valid, climbs.ends,
    Nat.le_succ_of_le (Nat.le_trans climbs.shorter operand.shorter), ?_⟩
  · rw [climbs.tokens, taken, Grouping.tokens, List.append_assoc, List.cons_append]
  intro level start budget node rest ends isRead enough within
  cases budget with
  | zero => cases within
  | succ budget =>
      have shorter : (middle.tokens ++ rest).length < budget := by
        rw [taken] at within
        simp only [List.length_append, List.length_cons] at within ⊢
        omega
      refine .step (operator?_some isBinary tight) ?_
      refine .step (.advance operator name _) ?_
      refine .bind ((operand.binary isName valid ends level).mono (fun less => by omega)
        fun _ _ is => is) ?_
      rintro rightNode _ ⟨rightEnough, rightRead, rfl⟩
      have joined : Runs (level + 1 < whole.depth + 3)
          (finish (if isLogical operator.type then .logical else .binary)
            [node, leafOf .op operator, rightNode] start) (middle.tokens ++ rest)
          fun value after => (Grouping.operation left operator right).IsRead value ∧
            after = middle.tokens ++ rest :=
        .finishRead fun source span =>
          ⟨⟨source, span, node, rightNode, isRead, rightRead, rfl⟩, rfl⟩
      refine .bind joined ?_
      rintro value _ ⟨isRead, rfl⟩
      exact climbs.runs level start budget value rest ends isRead (by omega) shorter

/-- Where the first operator binds less tight, nothing is taken into a left operand. -/
theorem Climbs.stay {operations : Operations} (valid : operations.Valid) {least : Nat}
    (weak : operations.binds < least) {left : Grouping} (grouped : left.WellGrouped)
    (tight : least ≤ left.binds) : Climbs least left operations left operations := by
  refine ⟨rfl, grouped, tight, Nat.le_refl _, valid, weak, Nat.le_refl _, ?_⟩
  intro level start budget node rest ends isRead enough within
  obtain ⟨token, others, isNext, _, bound⟩ := Operations.next valid ends
  rw [isNext] at within ⊢
  refine climb_stops (fun precedence isBinary => ?_) within ⟨by omega, isRead, rfl⟩
  exact Nat.lt_of_le_of_lt (bound precedence isBinary) weak

/-- An operator with what it takes on its right is well grouped, and the operators that remain
apply to it. -/
theorem Climbs.joined {left : Grouping} (grouped : left.WellGrouped) {operator : Token}
    {precedence : Nat} (isBinary : binaryPrecedence? operator.type = some precedence)
    (applies : (if precedence = 12 then 13 else precedence) ≤ left.binds) {name right : Grouping}
    {others middle : Operations}
    (operand : Climbs (if operator.type = .pow then precedence else precedence + 1) name others
      right middle) :
    (Grouping.operation left operator right).WellGrouped ∧
      middle.AppliesTo (.operation left operator right) := by
  have tight := operand.tight
  have ends := operand.ends
  rw [Operations.AppliesTo, Grouping.binds_operation isBinary]
  obtain ⟨_, ⟨isPow, rfl⟩ | ⟨notPow, small⟩⟩ := binaryPrecedence?_range isBinary
  · rw [if_pos isPow] at tight ends
    refine ⟨⟨grouped, operand.grouped, 12, isBinary, ?_⟩, ?_⟩
    · rw [if_pos isPow]
      exact ⟨applies, tight⟩
    · rw [if_neg (Nat.ne_of_lt ends)]
      exact Nat.le_of_lt ends
  · rw [if_neg notPow] at tight ends
    rw [if_neg (by omega)] at applies
    refine ⟨⟨grouped, operand.grouped, precedence, isBinary, ?_⟩, ?_⟩
    · rw [if_neg notPow]
      exact ⟨applies, tight⟩
    · rw [if_neg (by omega)]
      exact Nat.le_of_lt_succ ends

/-- Every left operand is extended as far as operators bind tight enough. -/
theorem climbs_of_valid {operations : Operations} (valid : operations.Valid) {least : Nat}
    (positive : 1 ≤ least) {left : Grouping} (grouped : left.WellGrouped)
    (tight : least ≤ left.binds) (applies : operations.AppliesTo left) :
    ∃ whole remaining, Climbs least left operations whole remaining := by
  -- Both the right operand and what follows it have fewer operators.
  induction size : operations.length using Nat.strongRecOn generalizing operations least left with
  | ind size induction =>
      by_cases weak : operations.binds < least
      · exact ⟨left, operations, .stay valid weak grouped tight⟩
      match operations, valid with
      | [], _ => exact absurd positive weak
      | (operator, name) :: others, valid =>
          obtain ⟨isOperator, isName⟩ := valid _ List.mem_cons_self
          obtain ⟨precedence, isBinary⟩ := Option.isSome_iff_exists.mp isOperator
          have validOthers : Operations.Valid others :=
            fun other there => valid other (.tail _ there)
          have isFirst : Operations.binds ((operator, name) :: others) = precedence := by
            rw [Operations.binds, isBinary]
            rfl
          rw [Operations.AppliesTo, isFirst] at applies
          rw [isFirst] at weak
          subst size
          obtain ⟨right, middle, operand⟩ : ∃ right middle,
              Climbs (if operator.type = .pow then precedence else precedence + 1) (.name name)
                others right middle := by
            have range := binaryPrecedence?_range isBinary
            refine induction others.length (Nat.lt_succ_self _) validOthers ?_
              (Grouping.wellGrouped_name isName) ?_ (Operations.appliesTo_name validOthers name) rfl
            · split <;> omega
            · show _ ≤ 13
              split <;> omega
          obtain ⟨joined, middleApplies⟩ := operand.joined grouped isBinary applies
          have atLeast : least ≤ (Grouping.operation left operator right).binds := by
            rw [Grouping.binds_operation isBinary]
            exact Nat.le_of_not_lt weak
          obtain ⟨whole, remaining, climbs⟩ := induction middle.length
            (Nat.lt_succ_of_le operand.shorter) operand.valid positive joined atLeast middleApplies
            rfl
          exact ⟨whole, remaining, operand.operation isName validOthers isBinary (by omega) climbs⟩

/-- A sequence of names and operators is grouped as a whole. -/
theorem climbs_all {first : Token} (isName : first.type = .ident) {operations : Operations}
    (valid : operations.Valid) :
    ∃ whole, Climbs 1 (.name first) operations whole [] := by
  obtain ⟨whole, remaining, climbs⟩ := climbs_of_valid valid (Nat.le_refl 1)
    (Grouping.wellGrouped_name isName) (show 1 ≤ 13 by decide)
    (Operations.appliesTo_name valid first)
  cases remaining with
  | nil => exact ⟨whole, climbs⟩
  | cons operation remaining =>
      obtain ⟨precedence, isBinary⟩ :=
        Option.isSome_iff_exists.mp (climbs.valid _ List.mem_cons_self).1
      have ends := climbs.ends
      rw [Operations.binds, isBinary] at ends
      exact absurd (binaryPrecedence?_range isBinary).1 (Nat.not_le_of_lt ends)

/-- A sequence of names and binary operators, up to a token that binds less tight, is read as the
only tree in which it is well grouped.  It is refused just if that tree nests too deep, which takes
many powers. -/
theorem binary_groups {first : Token} (isName : first.type = .ident) {operations : Operations}
    (valid : operations.Valid) {rest : List Token} (ends : EndsOperation rest) :
    ∃ whole : Grouping, whole.tokens = first :: operations.tokens ∧ whole.WellGrouped ∧
      (∀ other : Grouping, other.tokens = first :: operations.tokens → other.WellGrouped →
        other = whole) ∧
      whole.depth ≤ 11 + whole.powers ∧
      ∀ level, Runs (level < whole.depth + 3) ((rulesAt level).binary 1)
        (first :: operations.tokens ++ rest) fun node after =>
          whole.depth + 3 ≤ level ∧ whole.IsRead node ∧ after = rest := by
  obtain ⟨whole, climbs⟩ := climbs_all isName valid
  have isWhole : whole.tokens = first :: operations.tokens := by
    rw [← List.append_nil whole.tokens]
    exact climbs.tokens
  have depthBound := climbs.grouped.depth_le
  have tight := climbs.tight
  refine ⟨whole, isWhole, climbs.grouped, ?_, by omega, climbs.binary isName valid ends⟩
  intro other isOther grouped
  exact grouped.unique climbs.grouped (isOther.trans isWhole.symm)

/-- A name at an offset of the first line. -/
def nameAt (name : String) (offset : Nat) : Token :=
  ⟨.ident, name, ⟨offset, 1, offset + 1⟩, offset + name.length, false⟩

/-- An operator between blanks at an offset of the first line, and a name after it. -/
def operationAt (type : TokenType) (name : String) (offset : Nat) : Token × Token :=
  let stop := offset + 1 + type.spelling.length
  (⟨type, type.spelling, ⟨offset + 1, 1, offset + 2⟩, stop, false⟩, nameAt name (stop + 1))

def endAt (offset : Nat) : Token :=
  ⟨.endOfInput, [], ⟨offset, 1, offset + 1⟩, offset, false⟩

theorem endsOperation_endAt (offset : Nat) : EndsOperation [endAt offset] :=
  ⟨endAt offset, [], rfl, ⟨by simp [endAt], by simp [endAt]⟩, rfl⟩

/-- The operators and names of `a - b ** c ** d + e ?? f` after the first name. -/
def mixedOperations : Operations :=
  [operationAt .minus "b" 1, operationAt .pow "c" 5, operationAt .pow "d" 10,
    operationAt .plus "e" 15, operationAt .nullish "f" 19]

theorem mixedOperations_group :
    (mixedOperations.Valid ∧ EndsOperation [endAt 24]) ∧
    ∃ whole : Grouping, whole.tokens = nameAt "a" 0 :: mixedOperations.tokens ∧
      whole.WellGrouped ∧
      (∀ other : Grouping, other.tokens = nameAt "a" 0 :: mixedOperations.tokens →
        other.WellGrouped → other = whole) ∧
      whole.depth ≤ 11 + whole.powers ∧
      ∀ level, Runs (level < whole.depth + 3) ((rulesAt level).binary 1)
        (nameAt "a" 0 :: mixedOperations.tokens ++ [endAt 24]) fun node after =>
          whole.depth + 3 ≤ level ∧ whole.IsRead node ∧ after = [endAt 24] := by
  have valid : mixedOperations.Valid := by decide
  have ends := endsOperation_endAt 24
  exact ⟨⟨valid, ends⟩, binary_groups rfl valid ends⟩

/-- Powers of `a` from an offset on. -/
def powersFrom (offset : Nat) : (count : Nat) → Operations
  | 0 => []
  | count + 1 => operationAt .pow "a" offset :: powersFrom (offset + 5) count

theorem powersFrom_types {offset count : Nat} {operation : Token × Token}
    (there : operation ∈ powersFrom offset count) :
    operation.1.type = .pow ∧ operation.2.type = .ident := by
  induction count generalizing offset with
  | zero => cases there
  | succ count induction =>
      obtain rfl | there := List.mem_cons.mp there
      · exact ⟨rfl, rfl⟩
      · exact induction there

theorem powersFrom_valid (offset count : Nat) : (powersFrom offset count).Valid := by
  intro operation there
  obtain ⟨isPow, isName⟩ := powersFrom_types there
  rw [isPow]
  exact ⟨rfl, isName⟩

private theorem countP_powersFrom (offset count : Nat) :
    (powersFrom offset count).tokens.countP (fun token => token.type == .pow) = count := by
  induction count generalizing offset with
  | zero => rfl
  | succ count induction =>
      have first : (powersFrom offset (count + 1)).tokens =
          (operationAt .pow "a" offset).1 :: (operationAt .pow "a" offset).2 ::
            (powersFrom (offset + 5) count).tokens := rfl
      rw [first, List.countP_cons_of_pos (by rfl), List.countP_cons_of_neg (by nofun), induction]

private theorem isPow_of_powersFrom {offset count : Nat} {token : Token}
    (there : token ∈ (powersFrom offset count).tokens)
    (isBinary : (binaryPrecedence? token.type).isSome) : token.type = .pow := by
  obtain ⟨operation, among, isHere⟩ := List.mem_flatMap.mp there
  obtain ⟨isPow, isName⟩ := powersFrom_types among
  obtain rfl | isHere := List.mem_cons.mp isHere
  · exact isPow
  · obtain rfl := List.mem_singleton.mp isHere
    rw [isName] at isBinary
    cases isBinary

/-- Powers that follow each other are refused if there are more of them than levels. -/
theorem powers_refused {level count : Nat} (deep : level < count + 3) {rest : List Token}
    (ends : EndsOperation rest) : Refuses ((rulesAt level).binary 1)
      (nameAt "a" 0 :: (powersFrom 1 count).tokens ++ rest) := by
  obtain ⟨whole, climbs⟩ := climbs_all (show (nameAt "a" 0).type = .ident from rfl)
    (powersFrom_valid 1 count)
  have isWhole : whole.tokens = nameAt "a" 0 :: (powersFrom 1 count).tokens := by
    rw [← List.append_nil whole.tokens]
    exact climbs.tokens
  have isDeep : whole.depth = count := by
    rw [climbs.grouped.depth_eq_powers, Grouping.powers, isWhole]
    · exact countP_powersFrom 1 count
    · rw [isWhole]
      intro token there isBinary
      obtain rfl | there := List.mem_cons.mp there
      · cases isBinary
      · exact isPow_of_powersFrom there isBinary
  intro state ready
  obtain ⟨_, _, _, _, _, enough, _⟩ | ⟨_, refused⟩ :=
    climbs.binary rfl (powersFrom_valid 1 count) ends level state ready
  · omega
  · exact refused

/-- A state before tokens. -/
def startOf (text : Text) (tokens : List Token) : State :=
  ⟨⟨text, none, .script⟩, tokens, none, false, tokens.length + 1⟩

private theorem ready_startOf (text : Text) (tokens : List Token) : Ready
    (startOf text tokens) tokens :=
  ⟨rfl, rfl, Nat.lt_succ_self _⟩

/-- The text `a ** a`, with as many powers as given. -/
def powersText (count : Nat) : Text :=
  .char 'a' :: (List.replicate count (Text.ofString " ** a")).flatten

/-- Three thousand powers that follow each other are not read. -/
theorem manyPowers_refused :
    (powersFrom 1 3000).Valid ∧
      ((rulesAt nestingLimit).binary 1).run (startOf (powersText 3000)
        (nameAt "a" 0 :: (powersFrom 1 3000).tokens ++ [endAt 15001])) =
          .error .nestingTooDeep := by
  have ends := endsOperation_endAt 15001
  refine ⟨powersFrom_valid 1 3000, ?_⟩
  have deep : nestingLimit < 3000 + 3 := by decide
  exact powers_refused deep ends _ (ready_startOf _ _)

end Grammar

end ScriptFold
