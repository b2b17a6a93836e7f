import ScriptFold.Printer.Basic
import ScriptFold.Proofs.Whole.Basic

/-!
# Whole trees can be printed

Printing stops where a part of a node is missing, where a place is not known, or where a kind of
node has no form.  In a whole tree none of this happens, so printing one always ends with a page.
-/

namespace ScriptFold

variable {kind : Kind} {flags : Flags} {place : Option Place} {children : List (Child Node)}
variable {node parent : Node}

namespace Precedence

variable {α β : Type}

def Answers (calculated : Except Fault α) : Prop :=
  ∃ value, calculated = .ok value

theorem Answers.bind {first : Except Fault β} {next : β → Except Fault α}
    (begins : Answers first) (goes : ∀ value, Answers (next value)) : Answers (first >>= next) := by
  obtain ⟨value, rfl⟩ := begins
  exact goes value

theorem childAt_answers (whole : node.Whole) (isKind : node.kind? = some kind) {index : Nat}
    (needs : kind.needs index = true) : Answers (node.childAt index) := by
  obtain ⟨inner, isInner, _⟩ := whole.childAt isKind needs
  exact ⟨inner, isInner⟩

theorem operatorText_answers (whole : node.Whole) (isKind : node.kind? = some kind)
    (needs : kind.needs 1 = true) : Answers (operatorText node) :=
  (childAt_answers whole isKind needs).bind fun _ => ⟨_, rfl⟩

theorem ofNode_answers (whole : node.Whole) : Answers (ofNode node) := by
  unfold ofNode
  split
  case h_6 isKind | h_7 isKind =>
    exact (operatorText_answers whole isKind rfl).bind fun _ => ⟨_, rfl⟩
  case h_12 isKind => exact (childAt_answers whole isKind rfl).bind fun _ => ⟨_, rfl⟩
  case h_17 isKind => exact (childAt_answers whole isKind rfl).bind fun _ => ⟨_, rfl⟩
  all_goals exact ⟨_, rfl⟩

theorem ofSlot_answers (whole : parent.Whole) (index : Nat) : Answers (ofSlot parent index) := by
  unfold ofSlot
  split
  case h_1 isKind | h_2 isKind =>
    apply (operatorText_answers whole isKind rfl).bind
    intro op
    dsimp only
    split <;> exact ⟨_, rfl⟩
  all_goals exact ⟨_, rfl⟩

theorem containsCall_answers (whole : node.Whole) : Answers (containsCall node) := by
  induction node using containsCall.induct with
  | case1 => exact ⟨_, rfl⟩
  | case2 _ _ _ object rest induction => exact induction whole.head
  | case3 _ _ _ object rest induction => exact induction whole.head
  | case4 _ _ _ tag rest induction => exact induction whole.head
  | case5 | case6 | case7 => cases whole.holds.counts
  | case8 node =>
      rw [containsCall]
      · exact ⟨_, rfl⟩
      all_goals assumption

private theorem isNumber_answers (whole : node.Whole) : Answers (isNumber node) := by
  unfold isNumber
  split
  case isTrue => exact ⟨_, rfl⟩
  case isFalse isLiteral =>
    cases whole with
    | absent | leaf => simp [Node.isKind, Node.kind?] at isLiteral
    | @tree kind flags place children holds all =>
        have isKind : kind = .literal := by simpa [Node.isKind, Node.kind?] using isLiteral
        subst isKind
        obtain ⟨child, rfl⟩ := List.length_eq_one_iff.mp (beq_iff_eq.mp holds.counts)
        have isWord := holds.takes 0 child rfl
        cases isLeaf : child.node with
        | leaf token => exact ⟨token.type == .number, by simp [Node.childAt, isLeaf]; rfl⟩
        | absent | tree =>
            rw [isLeaf] at isWord
            cases isWord

theorem needsParens_answers (whole : node.Whole) (parentIs : parent.Whole) (index : Option Nat)
    (least : Nat) : Answers (needsParens node parent index least) := by
  unfold needsParens
  split
  case isTrue => exact ⟨_, rfl⟩
  case isFalse =>
    apply (ofNode_answers whole).bind
    intro binds
    split
    · exact ⟨_, rfl⟩
    · split
      case h_3 | h_4 | h_5 =>
        split
        · exact isNumber_answers whole
        · exact ⟨_, rfl⟩
      case h_6 =>
        split
        · exact containsCall_answers whole
        · exact ⟨_, rfl⟩
      case h_7 isLogical =>
        split
        · exact ⟨_, rfl⟩
        case isFalse notLogical =>
          have alike : node.kind? = some .logical := by simpa [Node.isKind] using notLogical
          apply (operatorText_answers parentIs isLogical rfl).bind
          intro outer
          apply (operatorText_answers whole alike rfl).bind
          intro inner
          exact ⟨_, rfl⟩
      all_goals exact ⟨_, rfl⟩

end Precedence

namespace Printer

variable {α β : Type}

/-! ### Steps that never stop -/

/-- A printing step never stops, whatever the page is. -/
def Proceeds (step : Print α) : Prop :=
  ∀ lineStarts page, ∃ value after, (step.run lineStarts).run page = .ok (value, after)

namespace Proceeds

theorem of_pure (value : α) : Proceeds (pure value) :=
  fun _ page => ⟨value, page, rfl⟩

theorem bind {step : Print β} {next : β → Print α} (begins : Proceeds step)
    (goes : ∀ value, Proceeds (next value)) : Proceeds (step >>= next) := by
  intro lineStarts page
  obtain ⟨value, between, ran⟩ := begins lineStarts page
  obtain ⟨result, after, ends⟩ := goes value lineStarts between
  refine ⟨result, after, ?_⟩
  rw [ReaderT.run_bind, StateT.run_bind, ran]
  exact ends

/-- A step, and another one that does not use what the first one gives. -/
theorem andThen {step : Print β} {next : Print α} (begins : Proceeds step) (ends : Proceeds next) :
    Proceeds (step >>= fun _ => next) :=
  begins.bind fun _ => ends

theorem ite {condition : Prop} [Decidable condition] {first second : Print α}
    (whenTrue : Proceeds first) (whenFalse : Proceeds second) :
    Proceeds (if condition then first else second) := by
  by_cases is : condition
  · rw [if_pos is]
    exact whenTrue
  · rw [if_neg is]
    exact whenFalse

theorem of_write (text : Text) : Proceeds (write text) :=
  fun _ _ => ⟨_, _, rfl⟩

/-- A word that is written if it is asked for, and a step. -/
theorem optionally {condition : Prop} [Decidable condition] {text : Text} {next : Print α}
    (ends : Proceeds next) : Proceeds (if condition then write text >>= fun _ => next else next) :=
  ite (andThen (of_write text) ends) ends

theorem of_currentIndent : Proceeds currentIndent :=
  fun _ _ => ⟨_, _, rfl⟩

theorem of_read : Proceeds (read : Print (Option (List Nat))) :=
  fun _ _ => ⟨_, _, rfl⟩

theorem of_record (source : Source) (offset : Nat) : Proceeds (record source offset) := by
  apply bind of_read
  intro lineStarts
  split
  · exact fun _ _ => ⟨_, _, rfl⟩
  · exact of_pure ()

private theorem of_writeLine (source : Source) (offset : Nat) (line : Text) :
    Proceeds (writeLine source offset line) := by
  unfold writeLine
  apply ite
  · exact andThen (of_write _) (andThen (of_record source _) (of_write _))
  · exact of_write line

private theorem of_writeLines (source : Source) (isFirst : Bool) (offset : Nat) (lines
    : List Text) :
    Proceeds (writeLines source isFirst offset lines) := by
  induction lines generalizing isFirst offset with
  | nil => exact of_pure ()
  | cons line rest induction =>
      have ends := andThen (of_writeLine source offset line)
        (induction false (offset + line.length + 1))
      exact ite (andThen (of_write _) ends) ends

theorem of_copy (source : Source) (start stop : Nat) : Proceeds (copy source start stop) := by
  apply ite (of_pure ())
  apply bind of_read
  intro lineStarts
  exact ite (of_writeLines source true start _) (of_write _)

/-- A calculation that has an answer. -/
theorem of_calculate {calculated : Except Fault α} (answers : Precedence.Answers calculated) :
    Proceeds (calculate calculated) := by
  obtain ⟨value, rfl⟩ := answers
  exact of_pure value

end Proceeds

/-! ### Parts -/

/-- A part is printed in all positions of whole nodes. -/
structure PrintsEverywhere (part : Part) : Prop where
  emit : ∀ {parent : Node}, parent.Whole → ∀ index least,
    Proceeds (part.emitter.emit parent index least)
  declaration : part.node.isKind .varDecl = true → Proceeds part.emitter.declaration
  key : ∀ {parent : Node}, parent.Whole → Proceeds (part.emitter.key parent)

/-- What is done with a part that is printed. -/
def Acts (act : Part → Print α) : Prop :=
  ∀ part, PrintsEverywhere part → Proceeds (act part)

/-- The parts of a whole node, as many as its kind asks for. -/
structure Printable (kind : Kind) (node : Node) (parts : List Part) : Prop where
  whole : node.Whole
  counts : kind.counts parts.length = true
  prints : ∀ part, part ∈ parts → PrintsEverywhere part

namespace Acts

variable {index least : Nat}

theorem emit (whole : parent.Whole) : Acts fun part => part.emit parent index least :=
  fun _ prints => prints.emit whole (some index) least

theorem emitAfter (whole : parent.Whole) {lead : Text} :
    Acts fun part => Printer.emitAfter lead part parent index least := by
  intro part prints
  apply Proceeds.ite
  · exact .andThen (.of_write lead) (emit whole part prints)
  · exact .of_pure ()

theorem emitInitial (whole : parent.Whole) : Acts fun part => Printer.emitInitial part parent := by
  intro part prints
  by_cases isDeclaration : part.node.isKind .varDecl
  · simp only [Printer.emitInitial, if_pos isDeclaration]
    exact prints.declaration isDeclaration
  · simp only [Printer.emitInitial, if_neg isDeclaration]
    exact emit whole part prints

theorem key (whole : parent.Whole) : Acts fun part => part.emitter.key parent :=
  fun _ prints => prints.key whole

theorem write {text : Part → Text} : Acts fun part => Printer.write (text part) :=
  fun part _ => .of_write (text part)

theorem const {step : Print α} (goes : Proceeds step) : Acts fun _ => step :=
  fun _ _ => goes

theorem andThen {act : Part → Print β} {next : Part → Print α} (begins : Acts act)
    (ends : Acts next) : Acts fun part => act part >>= fun _ => next part :=
  fun part prints => .andThen (begins part prints) (ends part prints)

/-- A part is asked for a precedence that has to be calculated. -/
theorem calculate {calculated : Except Fault β} {next : β → Part → Print α}
    (answers : Precedence.Answers calculated) (ends : ∀ value, Acts (next value)) :
    Acts fun part => Printer.calculate calculated >>= fun value => next value part :=
  fun part prints => .bind (.of_calculate answers) fun value => ends value part prints

theorem ite {condition : Part → Prop} [∀ part, Decidable (condition part)]
    {first second : Part → Print α} (whenTrue : Acts first) (whenFalse : Acts second) :
    Acts fun part => if condition part then first part else second part :=
  fun part prints => .ite (whenTrue part prints) (whenFalse part prints)

end Acts

variable {parts : List Part}

section Lists

variable (whole : parent.Whole) (prints : ∀ part, part ∈ parts → PrintsEverywhere part)
include whole prints

theorem emitSeparated_proceeds (separator : Text) (least index : Nat) :
    Proceeds (emitSeparated separator parent least index parts) := by
  induction parts generalizing index with
  | nil => exact .of_pure ()
  | cons first rest induction =>
      rw [List.forall_mem_cons] at prints
      have ends : Proceeds (first.emit parent index least >>= fun _ =>
          emitSeparated separator parent least (index + 1) rest) :=
        .andThen (prints.1.emit whole _ _) (induction prints.2 (index + 1))
      exact .ite (.andThen (.of_write separator) ends) ends

private theorem emitLines_proceeds (lead : Text) (index : Nat) :
    Proceeds (emitLines lead parent index parts) := by
  induction parts generalizing index with
  | nil => exact .of_pure ()
  | cons first rest induction =>
      rw [List.forall_mem_cons] at prints
      apply Proceeds.andThen (.of_write lead)
      exact .andThen (prints.1.emit whole _ _) (induction prints.2 (index + 1))

theorem emitStatements_proceeds (index : Nat) : Proceeds (emitStatements parent index parts) := by
  apply Proceeds.bind .of_currentIndent
  intro indent
  exact emitLines_proceeds whole prints _ index

theorem emitBody_proceeds (index : Nat) : Proceeds (emitBody parent index parts) := by
  apply Proceeds.ite (.of_write _)
  apply Proceeds.bind .of_currentIndent
  intro base
  apply Proceeds.andThen (.of_write _)
  exact .andThen (emitStatements_proceeds whole prints index) (.of_write _)

private theorem emitMembers_proceeds (lead : Text) (index : Nat) :
    Proceeds (emitMembers lead parent index parts) := by
  induction parts generalizing index with
  | nil => exact .of_pure ()
  | cons first rest induction =>
      rw [List.forall_mem_cons] at prints
      have ends := induction prints.2 (index + 1)
      apply Proceeds.andThen (.of_write lead)
      apply Proceeds.andThen (prints.1.emit whole _ _)
      exact .ite (.andThen (.of_write _) ends) ends

theorem emitObject_proceeds : Proceeds (emitObject parent parts) := by
  apply Proceeds.ite (.of_write _)
  apply Proceeds.bind .of_currentIndent
  intro base
  apply Proceeds.andThen (.of_write _)
  exact .andThen (emitMembers_proceeds whole prints _ 0) (.of_write _)

theorem emitTemplate_proceeds (index : Nat) : Proceeds (emitTemplate parent index parts) := by
  induction parts generalizing index with
  | nil => exact .of_pure ()
  | cons first rest induction =>
      rw [List.forall_mem_cons] at prints
      have ends := induction prints.2 (index + 1)
      apply Proceeds.ite
      · exact .andThen (.of_write _) ends
      · apply Proceeds.andThen (.of_write _)
        apply Proceeds.andThen (prints.1.emit whole _ _)
        exact .andThen (.of_write _) ends

end Lists

theorem emitFunctionHead_proceeds (flags : Flags) : Proceeds (emitFunctionHead flags) := by
  apply Proceeds.optionally
  apply Proceeds.andThen (.of_write _)
  exact .ite (.of_write _) (.of_pure ())

theorem emitMethodHead_proceeds (flags : Flags) : Proceeds (emitMethodHead flags) := by
  have ends : Proceeds (if flags.isGenerator then write "*" else pure ()) :=
    .ite (.of_write _) (.of_pure ())
  apply Proceeds.optionally
  apply Proceeds.optionally
  dsimp only
  split
  · exact .andThen (.of_write _) ends
  · exact .andThen (.of_write _) ends
  · exact ends

/-! ### Forms -/

namespace Printable

variable (printable : Printable kind node parts)
include printable

/-- A step that uses one of the parts that are always there. -/
theorem part {index : Nat} (needs : kind.needs index = true) {act : Part → Print α}
    (acts : Acts act) : Proceeds (partAt parts index >>= act) := by
  have found := List.getElem?_eq_getElem (Kind.lt_of_needs needs printable.counts)
  rw [partAt, found]
  exact acts _ (printable.prints _ (List.mem_of_getElem? found))

theorem drop (count : Nat) : ∀ part, part ∈ parts.drop count → PrintsEverywhere part :=
  fun part there => printable.prints part (List.mem_of_mem_drop there)

theorem separated (separator : Text) (least index : Nat) :
    Proceeds (emitSeparated separator node least index parts) :=
  emitSeparated_proceeds printable.whole printable.prints separator least index

theorem body (index : Nat) : Proceeds (emitBody node index parts) :=
  emitBody_proceeds printable.whole printable.prints index

private theorem bodyAfter (count index : Nat) : Proceeds (emitBody node index (parts.drop count)) :=
  emitBody_proceeds printable.whole (printable.drop count) index

private theorem statementsAfter (count index : Nat) :
    Proceeds (emitStatements node index (parts.drop count)) :=
  emitStatements_proceeds printable.whole (printable.drop count) index

theorem declaration (needs : kind.needs 0 = true) : Proceeds (emitDeclaration node parts) :=
  printable.part needs (.andThen .write
    (.const (emitSeparated_proceeds printable.whole (printable.drop 1) _ 0 0)))

theorem word (needs : kind.needs 0 = true) (word : Text) : Proceeds (emitWord word node parts) :=
  .andThen (.of_write word)
    (printable.part needs (.andThen (.emitAfter printable.whole) (.const (.of_write _))))

theorem slot (index : Nat) : Precedence.Answers (Precedence.ofSlot node index) :=
  Precedence.ofSlot_answers printable.whole index

end Printable

theorem generic_proceeds (printable : Printable kind node parts) :
    Proceeds (generic kind flags node parts) := by
  have whole := printable.whole
  cases kind
  case other => cases printable.counts
  all_goals
    dsimp only [generic, aggregate, callable, statement]
    with_reducible repeat' first
      | exact Proceeds.of_write _
      | exact Proceeds.of_pure ()
      | exact printable.separated _ _ _
      | exact printable.body _
      | exact printable.bodyAfter _ _
      | exact printable.statementsAfter _ _
      | exact printable.declaration rfl
      | exact printable.word rfl _
      | exact emitObject_proceeds whole printable.prints
      | exact emitTemplate_proceeds whole printable.prints 0
      | exact emitFunctionHead_proceeds _
      | exact emitMethodHead_proceeds _
      | exact Acts.emit whole
      | exact Acts.emitAfter whole
      | exact Acts.emitInitial whole
      | exact Acts.key whole
      | exact Acts.write
      | apply printable.part rfl
      | apply Proceeds.ite
      | apply Proceeds.andThen
      | apply Acts.const
      | apply Acts.ite
      | apply Acts.andThen
      | apply Acts.calculate (printable.slot _); intro least

/-! ### Patches -/

section Patching

variable {place : Place}

theorem patchParts_proceeds (whole : node.Whole)
    (prints : ∀ part, part ∈ parts → PrintsEverywhere part)
    (source : Source) (stop position index : Nat) (formers : List FormerChild) :
    Proceeds (patchParts node source stop position index formers parts) := by
  induction formers generalizing position index parts with
  | nil =>
      rw [patchParts]
      · exact .of_copy source position stop
      · simp
  | cons former formers induction =>
      cases parts with
      | nil =>
          rw [patchParts]
          · exact .of_copy source position stop
          · simp
      | cons part parts =>
          rw [List.forall_mem_cons] at prints
          rw [patchParts]
          split
          case h_1 => exact induction prints.2 _ _
          case h_2 start finish _ =>
            have ends := induction prints.2 finish (index + 1)
            apply Proceeds.andThen (.of_copy source position start)
            apply Proceeds.ite
            · exact .andThen (.of_copy source start finish) ends
            · apply Proceeds.bind (.of_calculate (Precedence.ofSlot_answers whole index))
              intro least
              exact .andThen (prints.1.emit whole _ _) ends

theorem afterColon_proceeds {source : Source} {offset : Nat} (colon : source.HasColonAfter offset) :
    Proceeds (afterColon source offset) := by
  obtain ⟨index, found⟩ := Option.isSome_iff_exists.mp colon
  rw [afterColon, found]
  exact .of_pure _

theorem copyKnown_proceeds (source : Source) {start stop : Option Nat}
    (starts : start.isSome = true)
    (stops : stop.isSome = true) : Proceeds (copyKnown source start stop) := by
  obtain ⟨first, rfl⟩ := Option.isSome_iff_exists.mp starts
  obtain ⟨last, rfl⟩ := Option.isSome_iff_exists.mp stops
  exact .of_copy source first last

theorem patchCaseHead_proceeds (whole : node.Whole) (caseHead : place.HasCaseHead)
    {test : Option Part} (prints : ∀ part, test = some part → PrintsEverywhere part) :
    Proceeds (patchCaseHead node place test) := by
  rw [Place.HasCaseHead] at caseHead
  unfold patchCaseHead
  split
  case h_1 start finish isHead =>
    rw [isHead] at caseHead
    obtain ⟨starts, last, rfl, colon⟩ := caseHead
    have ends : Proceeds (do
        let stop ← afterColon place.source ((some last).getD 0)
        copyKnown place.source (some last) (some stop)
        return stop) := by
      apply Proceeds.bind (afterColon_proceeds colon)
      intro stop
      exact .andThen (copyKnown_proceeds _ rfl rfl) (.of_pure stop)
    apply Proceeds.andThen (copyKnown_proceeds _ rfl starts)
    cases test with
    | none => exact ends
    | some part => exact .andThen ((prints part rfl).emit whole _ _) ends
  case h_2 notPresent =>
    split at caseHead
    case h_1 start finish isHead => exact absurd isHead (notPresent start finish)
    case h_2 =>
      apply Proceeds.bind (afterColon_proceeds caseHead)
      intro stop
      exact .andThen (.of_copy _ _ _) (.of_pure stop)

/-- All former children stood somewhere. -/
def Stood (formers : List FormerChild) : Prop :=
  ∀ former, former ∈ formers → (formerSpan? former).isSome = true

theorem ends_of_span {former : FormerChild} (stood : (formerSpan? former).isSome = true) :
    (formerStart? former).isSome = true ∧ (formerStop? former).isSome = true := by
  unfold formerSpan? at stood
  split at stood
  case h_1 => exact ⟨rfl, rfl⟩
  case h_2 => cases stood

variable {formers : List FormerChild}

theorem copyBetween_proceeds (source : Source) (stood : Stood formers) {index : Nat}
    (within : index + 1 < formers.length) : Proceeds (copyBetween source formers index) := by
  have first := List.getElem?_eq_getElem (Nat.lt_of_succ_lt within)
  have second := List.getElem?_eq_getElem within
  rw [copyBetween, first, second]
  apply copyKnown_proceeds
  · exact (ends_of_span (stood _ (List.mem_of_getElem? first))).2
  · exact (ends_of_span (stood _ (List.mem_of_getElem? second))).1

private theorem separate_proceeds (source : Source) (stood : Stood formers) (separator : Text)
    {previous current : Option Nat}
    (within : ∀ index, current = some index → index < formers.length) :
    Proceeds (separate source formers separator previous current) := by
  unfold separate
  split
  case h_1 => exact copyBetween_proceeds source stood (within _ rfl)
  case h_2 =>
    split
    case isTrue isNext => exact copyBetween_proceeds source stood isNext
    case isFalse => exact .of_write separator
  case h_3 => exact .of_write separator

/-- The seats that parts keep are those of former children. -/
def Seated (formers : List FormerChild) (head : Nat) (parts : List Part) : Prop :=
  ∀ part, part ∈ parts → ∀ index, formerIndex? head part = some index → index < formers.length

theorem patchStatements_proceeds (whole : node.Whole) (source : Source) (stood : Stood formers)
    (separator : Text) {head : Nat} (index : Nat) (previous : Part)
    (prints : ∀ part, part ∈ parts → PrintsEverywhere part) (seated : Seated formers head parts) :
    Proceeds (patchStatements node source formers separator head index previous parts) := by
  induction parts generalizing index previous with
  | nil => exact .of_pure ()
  | cons part rest induction =>
      rw [List.forall_mem_cons] at prints
      rw [Seated, List.forall_mem_cons] at seated
      apply Proceeds.andThen (separate_proceeds source stood separator seated.1)
      apply Proceeds.andThen (prints.1.emit whole _ _)
      exact induction (index + 1) part prints.2 seated.2

theorem patchList_proceeds {head : Nat} (whole : node.Whole)
    (isHead : listHead? kind = some head) (starts : hasStart place.former head = true)
    (stood : Stood (place.former.drop head)) (caseHead : head = 1 → place.HasCaseHead)
    (prints : ∀ part, part ∈ parts → PrintsEverywhere part)
    (seated : Seated (place.former.drop head) head (parts.drop head)) :
    Proceeds (patchList node kind place head parts) := by
  have cases : head = 1 → Proceeds (patchCaseHead node place parts.head?) := fun isOne =>
    patchCaseHead_proceeds whole (caseHead isOne) fun part isPart =>
      prints part (List.mem_of_head? isPart)
  unfold patchList
  dsimp only
  split
  case h_1 =>
    split
    · exact .of_write _
    · cases isHead
      exact .andThen (cases rfl) (.of_pure ())
    · exact .of_pure ()
  case h_2 first rest isParts =>
    have dropped : ∀ part, part ∈ first :: rest → PrintsEverywhere part := by
      rw [← isParts]
      exact fun part there => prints part (List.mem_of_mem_drop there)
    rw [isParts, Seated] at seated
    rw [List.forall_mem_cons] at dropped seated
    have lastStops : ((place.former.drop head).getLast?.bind formerStop?).isSome = true := by
      have some : place.former.drop head ≠ [] := by
        intro none
        rw [hasStart, ← Nat.add_zero head, ← List.getElem?_drop, none] at starts
        cases starts
      rw [List.getLast?_eq_some_getLast some]
      exact (ends_of_span (stood _ (List.getLast_mem some))).2
    have ends : ∀ leadStart, Proceeds (do
        copy place.source leadStart
          (((place.former.drop head).head?.bind formerStart?).getD 0)
        first.emit node head 0
        patchStatements node place.source (place.former.drop head)
          (newSeparator place.source
            (((place.former.drop head).head?.bind formerStart?).getD 0))
          head (head + 1) first rest
        copyKnown place.source ((place.former.drop head).getLast?.bind formerStop?)
          (some place.span.stop)) := by
      intro leadStart
      apply Proceeds.andThen (.of_copy _ _ _)
      apply Proceeds.andThen (dropped.1.emit whole _ _)
      apply Proceeds.andThen
        (patchStatements_proceeds whole _ stood _ (head + 1) first dropped.2 seated.2)
      exact copyKnown_proceeds _ lastStops rfl
    split
    case isTrue isOne => exact .bind (cases isOne) ends
    case isFalse => exact ends _

end Patching

/-! ### Trees -/

theorem length_partsOf (children : List (Child Node)) :
    (partsOf children).length = children.length := by
  induction children with
  | nil => rfl
  | cons child rest induction => rw [partsOf, List.length_cons, induction, List.length_cons]

/-- The parts of a node keep the seats of its children. -/
theorem child_of_part (head : Nat) {part : Part} (there : part ∈ (partsOf children).drop head) :
    ∃ child, child ∈ children.drop head ∧ child.seat = part.seat := by
  induction children generalizing head with
  | nil =>
      rw [partsOf, List.drop_nil] at there
      cases there
  | cons child rest induction =>
      cases head with
      | zero =>
          rw [partsOf] at there
          rcases List.mem_cons.mp there with rfl | there
          · exact ⟨child, List.mem_cons_self, rfl⟩
          · obtain ⟨other, isOther, same⟩ := induction 0 there
            exact ⟨other, List.mem_cons_of_mem _ isOther, same⟩
      | succ head =>
          rw [partsOf] at there
          exact induction head there

theorem renew_proceeds (whole : (Node.tree kind flags place children).Whole)
    (prints : ∀ part, part ∈ partsOf children → PrintsEverywhere part) :
    Proceeds (renew (.tree kind flags place children) kind flags place (partsOf children)) := by
  have counts : kind.counts (partsOf children).length = true := by
    rw [length_partsOf]
    exact whole.holds.counts
  have anew : Proceeds (generic kind flags (.tree kind flags place children) (partsOf children)) :=
    generic_proceeds ⟨whole, counts, prints⟩
  cases place with
  | none => exact anew
  | some place =>
      apply Proceeds.andThen (.of_record _ _)
      split
      case h_1 head isHead =>
        have lists := whole.holds.listed head isHead place rfl
        split
        case isTrue starts =>
          apply patchList_proceeds whole isHead starts lists.formers lists.caseHead prints
          intro part there index isIndex
          obtain ⟨child, isChild, same⟩ := child_of_part _ there
          rw [formerIndex?, ← same] at isIndex
          cases isSeat : child.seat with
          | none =>
              rw [isSeat] at isIndex
              cases isIndex
          | some seat =>
              have within := lists.seats child isChild seat isSeat
              simp only [isSeat, Option.ite_none_right_eq_some, Option.some.injEq] at isIndex
              rw [List.length_drop]
              omega
        case isFalse => exact anew
      case h_2 => exact .ite (patchParts_proceeds whole prints _ _ _ _ _) anew

theorem enclose_proceeds {body : Print Unit} (goes : Proceeds body) (parens : Bool) :
    Proceeds (enclose parens body) := by
  have ends : Proceeds (do
      body
      if parens then write ")") :=
    .andThen goes (.ite (.of_write _) (.of_pure ()))
  exact .ite (.andThen (.of_write _) ends) ends

/-- A tree is copied where it is clean, and printed anew where it is not. -/
theorem copied_or_renewed_proceeds (whole : (Node.tree kind flags place children).Whole)
    (prints : ∀ part, part ∈ partsOf children → PrintsEverywhere part) :
    Proceeds (match place with
      | some known =>
          if (Node.tree kind flags place children).isClean then
            copy known.source known.span.start known.span.stop
          else
            renew (.tree kind flags place children) kind flags place (partsOf children)
      | none => renew (.tree kind flags place children) kind flags place (partsOf children)) := by
  have anew := renew_proceeds whole prints
  cases place with
  | none => exact anew
  | some known => exact .ite (.of_copy _ _ _) anew

/-- A whole tree is printed in all positions of whole nodes. -/
theorem emitter_printsEverywhere (node : Node) (seat : Option Nat) (whole : node.Whole) :
    PrintsEverywhere ⟨node, seat, emitter node⟩ := by
  revert seat
  refine emitter.induct
    (fun node => node.Whole → ∀ seat, PrintsEverywhere ⟨node, seat, emitter node⟩)
    (fun children => AllWhole children → ∀ part, part ∈ partsOf children → PrintsEverywhere part)
    ?absent ?leaf ?tree ?nil ?cons node whole
  case absent =>
    intro _ seat
    rw [emitter]
    constructor <;> intros <;> exact .of_pure ()
  case leaf =>
    intro token _ seat
    rw [emitter]
    constructor <;> intros <;> first | exact .of_write _ | exact .of_pure ()
  case tree =>
    intro kind flags place children induction whole seat
    have prints := induction whole.all
    have counts : kind.counts (partsOf children).length = true := by
      rw [length_partsOf]
      exact whole.holds.counts
    have body := copied_or_renewed_proceeds whole prints
    have emit : ∀ {parent : Node}, parent.Whole → ∀ index least,
        Proceeds ((emitter (.tree kind flags place children)).emit parent index least) := by
      intro parent parentIs index least
      rw [emitter.eq_def]
      apply Proceeds.bind
        (.of_calculate (Precedence.needsParens_answers whole parentIs index least))
      intro parens
      exact enclose_proceeds body parens
    rw [emitter.eq_def] at emit ⊢
    constructor
    · exact emit
    · intro isDeclaration
      have isKind : kind = .varDecl := by simpa [Node.isKind, Node.kind?] using isDeclaration
      subst isKind
      exact Printable.declaration ⟨whole, counts, prints⟩ rfl
    · intro parent parentIs
      by_cases isComputed : kind = .computedKey
      · subst isComputed
        dsimp only
        rw [if_pos rfl]
        apply Proceeds.andThen (.of_write _)
        cases parts : partsOf children with
        | nil =>
            rw [parts] at counts
            cases counts
        | cons first rest =>
            have firstPrints := prints first (parts ▸ List.mem_cons_self)
            exact .andThen (firstPrints.emit whole _ _) (.of_write _)
      · dsimp only
        rw [if_neg isComputed]
        exact emit parentIs (some 0) 0
  case nil =>
    intro _ part there
    rw [partsOf] at there
    cases there
  case cons =>
    intro seat node rest nodeIs restAre all
    rw [partsOf, List.forall_mem_cons]
    exact ⟨nodeIs all.head seat, restAre all.tail⟩

end Printer

/-- A whole tree can be laid out. -/
theorem layOut_whole {tree : Node} (whole : tree.Whole) (sourceName mapName : Option Text) :
    ∃ printed, layOut tree sourceName mapName = .ok printed := by
  have prints : ∀ lineStarts, ∃ value page,
      (((Printer.emitter tree).emit .absent none 0).run lineStarts).run {} = .ok (value, page) :=
    fun lineStarts => (Printer.emitter_printsEverywhere tree none whole).emit
      .absent none 0 lineStarts {}
  unfold layOut
  dsimp only
  obtain ⟨value, page, ran⟩ := prints _
  rw [ran]
  exact ⟨_, rfl⟩

/-- A whole tree can be printed, if the stack has the frames for it. -/
theorem printTree_whole {tree : Node} (whole : tree.Whole) (sourceName mapName : Option Text) :
    (∃ printed, printTree tree sourceName mapName = .ok printed) ∨
      printTree tree sourceName mapName = .error (.fault .stackExhausted) := by
  by_cases fits : Printer.frames tree ≤ Stack.limit
  · rw [printTree_of_le fits]
    exact .inl (layOut_whole whole sourceName mapName)
  · exact .inr (printTree_of_lt (Nat.not_le.mp fits))

end ScriptFold
