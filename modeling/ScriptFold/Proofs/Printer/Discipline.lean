import ScriptFold.Printer.Basic
import ScriptFold.Proofs.Tree.Placed

/-!
# What every printing step keeps

A discipline is a property of printing steps that is kept when steps are put together.
All forms are printed from the same few steps, so a tree is printed under a discipline as
soon as those steps are, and copying and recording have to be looked at only for the places
of the tree.
-/

namespace ScriptFold

namespace Printer

/-- A property of printing steps that is kept when they are put together.  Copying and
recording need to have it only at places that fit. -/
structure Discipline where
  holds : {α : Type} → Print α → Prop
  fits : Place → Prop
  pure : ∀ {α : Type} (value : α), holds (Pure.pure value)
  throw : ∀ {α : Type} (failure : Failure), holds (MonadExcept.throw failure : Print α)
  bind : ∀ {α β : Type} {step : Print β} {next : β → Print α},
    holds step → (∀ value, holds (next value)) → holds (step >>= next)
  write : ∀ text, holds (Printer.write text)
  currentIndent : holds Printer.currentIndent
  record : ∀ place, fits place → holds (Printer.record place.source place.span.start)
  copy : ∀ place start stop, fits place → holds (Printer.copy place.source start stop)

namespace Discipline

variable {discipline : Discipline} {α β : Type}

/-- A node is printed under a discipline in all its positions. -/
structure Obeyed (discipline : Discipline) (emitter : Emitter) : Prop where
  emit : ∀ parent index least, discipline.holds (emitter.emit parent index least)
  declaration : discipline.holds emitter.declaration
  key : ∀ parent, discipline.holds (emitter.key parent)

/-- All parts are printed under a discipline. -/
def All (discipline : Discipline) (parts : List Part) : Prop :=
  ∀ part, part ∈ parts → discipline.Obeyed part.emitter

theorem ite {condition : Prop} [Decidable condition] {first second : Print α}
    (whenTrue : discipline.holds first) (whenFalse : discipline.holds second) :
    discipline.holds (if condition then first else second) := by
  by_cases is : condition
  · rw [if_pos is]
    exact whenTrue
  · rw [if_neg is]
    exact whenFalse

/-- A step, and another one that does not use what the first one gives. -/
theorem andThen {first : Print β} {second : Print α} (begins : discipline.holds first)
    (ends : discipline.holds second) : discipline.holds (first >>= fun _ => second) :=
  discipline.bind begins fun _ => ends

theorem stop (fault : Fault) : discipline.holds (Printer.stop fault : Print α) :=
  discipline.throw _

theorem calculate (result : Except Fault α) : discipline.holds (Printer.calculate result) := by
  cases result with
  | ok value => exact discipline.pure value
  | error fault => exact stop fault

/-- What is done with a part that is printed under a discipline. -/
def Acts (discipline : Discipline) (act : Part → Print α) : Prop :=
  ∀ part, discipline.Obeyed part.emitter → discipline.holds (act part)

namespace Acts

variable {parent : Node} {index least : Nat}

theorem emit : discipline.Acts fun part => part.emit parent index least :=
  fun _ obeyed => obeyed.emit parent (some index) least

theorem emitAfter {lead : Text} :
    discipline.Acts fun part => Printer.emitAfter lead part parent index least := by
  intro part obeyed
  apply Discipline.ite
  · exact Discipline.andThen (discipline.write lead) (emit part obeyed)
  · exact discipline.pure ()

theorem emitInitial : discipline.Acts fun part => Printer.emitInitial part parent :=
  fun part obeyed => Discipline.ite obeyed.declaration (emit part obeyed)

theorem key : discipline.Acts fun part => part.emitter.key parent :=
  fun _ obeyed => obeyed.key parent

theorem write {text : Part → Text} : discipline.Acts fun part => Printer.write (text part) :=
  fun part _ => discipline.write (text part)

theorem const {step : Print α} (holds : discipline.holds step) : discipline.Acts fun _ => step :=
  fun _ _ => holds

theorem andThen {act : Part → Print β} {next : Part → Print α} (begins : discipline.Acts act)
    (ends : discipline.Acts next) : discipline.Acts fun part => act part >>= fun _ => next part :=
  fun part obeyed => Discipline.andThen (begins part obeyed) (ends part obeyed)

/-- A part is asked for a precedence that has to be calculated. -/
theorem calculate {result : Except Fault β} {next : β → Part → Print α}
    (ends : ∀ value, discipline.Acts (next value)) :
    discipline.Acts fun part => Printer.calculate result >>= fun value => next value part :=
  fun part obeyed => discipline.bind (Discipline.calculate result) fun value =>
    ends value part obeyed

theorem ite {condition : Part → Prop} [∀ part, Decidable (condition part)]
    {first second : Part → Print α} (whenTrue : discipline.Acts first)
    (whenFalse : discipline.Acts second) :
    discipline.Acts fun part => if condition part then first part else second part :=
  fun part obeyed => Discipline.ite (whenTrue part obeyed) (whenFalse part obeyed)

end Acts

variable {parts : List Part}

/-- A step that uses one of the parts. -/
theorem part (all : discipline.All parts) {index : Nat} {act : Part → Print α}
    (acts : discipline.Acts act) : discipline.holds (partAt parts index >>= act) := by
  unfold partAt
  cases found : parts[index]? with
  | none => exact discipline.throw (.fault .missingItem)
  | some part => exact acts part (all part (List.mem_of_getElem? found))

theorem All.drop (all : discipline.All parts) (count : Nat) :
    discipline.All (parts.drop count) :=
  fun part there => all part (List.mem_of_mem_drop there)

theorem emitSeparated (all : discipline.All parts) (separator : Text) (parent : Node)
    (least index : Nat) :
    discipline.holds (Printer.emitSeparated separator parent least index parts) := by
  induction parts generalizing index with
  | nil => exact discipline.pure ()
  | cons first rest induction =>
      simp only [All, List.forall_mem_cons] at all
      have emitted : discipline.holds (first.emit parent index least) := Acts.emit first all.1
      have ends := andThen emitted (induction all.2 (index + 1))
      apply ite
      · exact andThen (discipline.write separator) ends
      · exact ends

theorem emitLines (all : discipline.All parts) (lead : Text) (parent : Node) (index : Nat) :
    discipline.holds (Printer.emitLines lead parent index parts) := by
  induction parts generalizing index with
  | nil => exact discipline.pure ()
  | cons first rest induction =>
      simp only [All, List.forall_mem_cons] at all
      apply andThen (discipline.write lead)
      exact andThen (Acts.emit first all.1) (induction all.2 (index + 1))

theorem emitStatements (all : discipline.All parts) (parent : Node) (index : Nat) :
    discipline.holds (Printer.emitStatements parent index parts) := by
  apply discipline.bind discipline.currentIndent
  intro indent
  exact emitLines all _ parent index

theorem emitBody (all : discipline.All parts) (parent : Node) (index : Nat) :
    discipline.holds (Printer.emitBody parent index parts) := by
  apply ite (discipline.write _)
  apply discipline.bind discipline.currentIndent
  intro base
  apply andThen (discipline.write _)
  exact andThen (emitStatements all parent index) (discipline.write _)

theorem emitMembers (all : discipline.All parts) (lead : Text) (parent : Node) (index : Nat) :
    discipline.holds (Printer.emitMembers lead parent index parts) := by
  induction parts generalizing index with
  | nil => exact discipline.pure ()
  | cons first rest induction =>
      simp only [All, List.forall_mem_cons] at all
      have ends := induction all.2 (index + 1)
      apply andThen (discipline.write lead)
      apply andThen (Acts.emit first all.1)
      apply ite
      · exact andThen (discipline.write _) ends
      · exact ends

theorem emitObject (all : discipline.All parts) (parent : Node) :
    discipline.holds (Printer.emitObject parent parts) := by
  apply ite (discipline.write _)
  apply discipline.bind discipline.currentIndent
  intro base
  apply andThen (discipline.write _)
  exact andThen (emitMembers all _ parent 0) (discipline.write _)

theorem emitTemplate (all : discipline.All parts) (parent : Node) (index : Nat) :
    discipline.holds (Printer.emitTemplate parent index parts) := by
  induction parts generalizing index with
  | nil => exact discipline.pure ()
  | cons first rest induction =>
      simp only [All, List.forall_mem_cons] at all
      have ends := induction all.2 (index + 1)
      apply ite
      · exact andThen (discipline.write _) ends
      · apply andThen (discipline.write _)
        apply andThen (Acts.emit first all.1)
        exact andThen (discipline.write _) ends

theorem emitDeclaration (all : discipline.All parts) (node : Node) :
    discipline.holds (Printer.emitDeclaration node parts) :=
  part all (.andThen .write (.const (emitSeparated (all.drop 1) _ node 0 0)))

theorem emitWord (all : discipline.All parts) (word : Text) (node : Node) :
    discipline.holds (Printer.emitWord word node parts) :=
  andThen (discipline.write word) (part all (.andThen .emitAfter (.const (discipline.write _))))

/-- A word that is written if it is asked for, and a step. -/
theorem optionally {condition : Prop} [Decidable condition] {text : Text} {next : Print α}
    (ends : discipline.holds next) :
    discipline.holds (if condition then Printer.write text >>= fun _ => next else next) :=
  ite (andThen (discipline.write text) ends) ends

theorem emitFunctionHead (flags : Flags) : discipline.holds (Printer.emitFunctionHead flags) := by
  unfold Printer.emitFunctionHead
  apply optionally
  apply andThen (discipline.write _)
  exact ite (discipline.write _) (discipline.pure ())

theorem emitMethodHead (flags : Flags) : discipline.holds (Printer.emitMethodHead flags) := by
  have ends : discipline.holds (if flags.isGenerator then Printer.write "*" else Pure.pure ()) :=
    ite (discipline.write _) (discipline.pure ())
  unfold Printer.emitMethodHead
  apply optionally
  apply optionally
  dsimp only
  split
  · exact andThen (discipline.write _) ends
  · exact andThen (discipline.write _) ends
  · exact ends

theorem statement (all : discipline.All parts) (kind : Kind) (flags : Flags) (node : Node) :
    discipline.holds (Printer.statement kind flags node parts) := by
  unfold Printer.statement
  split <;> dsimp only
  all_goals
    with_reducible repeat' first
      | exact discipline.write _
      | exact Acts.emit
      | exact Acts.write
      | exact Acts.emitAfter
      | exact Acts.emitInitial
      | exact emitSeparated all _ node _ _
      | exact emitBody all node _
      | exact emitBody (all.drop 1) node _
      | exact emitStatements (all.drop 1) node 1
      | exact emitDeclaration all node
      | exact emitWord all _ node
      | exact discipline.pure ()
      | exact discipline.throw _
      | apply part all
      | apply andThen
      | apply Acts.const
      | apply Acts.ite
      | apply Acts.andThen

theorem callable (all : discipline.All parts) (kind : Kind) (flags : Flags) (node : Node) :
    discipline.holds (Printer.callable kind flags node parts) := by
  unfold Printer.callable
  split <;> dsimp only
  all_goals
    with_reducible repeat' first
      | exact discipline.write _
      | exact Acts.emit
      | exact Acts.emitAfter
      | exact Acts.key
      | exact emitSeparated all _ node _ _
      | exact emitFunctionHead flags
      | exact emitMethodHead flags
      | exact statement all kind flags node
      | apply part all
      | apply ite
      | apply andThen
      | apply Acts.const
      | apply Acts.andThen

theorem aggregate (all : discipline.All parts) (kind : Kind) (flags : Flags) (node : Node) :
    discipline.holds (Printer.aggregate kind flags node parts) := by
  unfold Printer.aggregate
  split <;> dsimp only
  all_goals
    with_reducible repeat' first
      | exact discipline.write _
      | exact Acts.emit
      | exact Acts.key
      | exact emitSeparated all _ node _ _
      | exact emitObject all node
      | exact callable all kind flags node
      | apply part all
      | apply ite
      | apply andThen
      | apply Acts.const
      | apply Acts.andThen

theorem generic (all : discipline.All parts) (kind : Kind) (flags : Flags) (node : Node) :
    discipline.holds (Printer.generic kind flags node parts) := by
  unfold Printer.generic
  split <;> dsimp only
  all_goals
    with_reducible repeat' first
      | exact discipline.write _
      | exact Acts.emit
      | exact Acts.emitAfter
      | exact Acts.write
      | exact emitSeparated all _ node _ _
      | exact emitTemplate all node 0
      | exact aggregate all kind flags node
      | apply part all
      | apply ite
      | apply andThen
      | apply Acts.const
      | apply Acts.andThen
      | apply Acts.calculate; intro least

section Patching

variable {node : Node} {place : Place}

theorem patchParts (fits : discipline.fits place) (all : discipline.All parts)
    (stop position index : Nat) (formers : List FormerChild) :
    discipline.holds
      (Printer.patchParts node place.source stop position index formers parts) := by
  induction formers generalizing position index parts with
  | nil =>
      rw [Printer.patchParts]
      · exact discipline.copy place position stop fits
      · simp
  | cons former formers induction =>
      cases parts with
      | nil =>
          rw [Printer.patchParts]
          · exact discipline.copy place position stop fits
          · simp
      | cons part parts =>
          simp only [All, List.forall_mem_cons] at all
          rw [Printer.patchParts]
          split
          case h_1 => exact induction all.2 _ _
          case h_2 start finish _ =>
            have ends := induction all.2 finish (index + 1)
            apply andThen (discipline.copy place position start fits)
            apply ite
            · exact andThen (discipline.copy place start finish fits) ends
            · apply discipline.bind (calculate _)
              intro least
              exact andThen (Acts.emit part all.1) ends

theorem afterColon (source : Source) (offset : Nat) :
    discipline.holds (Printer.afterColon source offset) := by
  unfold Printer.afterColon
  split
  · exact discipline.pure _
  · exact stop _

theorem copyKnown (fits : discipline.fits place) (start stop : Option Nat) :
    discipline.holds (Printer.copyKnown place.source start stop) := by
  unfold Printer.copyKnown
  split
  · exact discipline.copy place _ _ fits
  · exact Discipline.stop _

theorem patchCaseHead (fits : discipline.fits place) {test : Option Part}
    (obeyed : ∀ part, test = some part → discipline.Obeyed part.emitter) :
    discipline.holds (Printer.patchCaseHead node place test) := by
  unfold Printer.patchCaseHead
  split
  case h_1 start finish _ =>
    have ends : discipline.holds (do
        let stop ← Printer.afterColon place.source (finish.getD 0)
        Printer.copyKnown place.source finish (some stop)
        return stop) := by
      apply discipline.bind (afterColon place.source _)
      intro stop
      exact andThen (copyKnown fits _ _) (discipline.pure stop)
    apply andThen (copyKnown fits _ _)
    cases test with
    | none => exact ends
    | some part => exact andThen (Acts.emit part (obeyed part rfl)) ends
  case h_2 =>
    apply discipline.bind (afterColon place.source _)
    intro stop
    exact andThen (discipline.copy place _ _ fits) (discipline.pure stop)

theorem separate (fits : discipline.fits place) (formers : List FormerChild) (separator : Text)
    (previous current : Option Nat) :
    discipline.holds (Printer.separate place.source formers separator previous current) := by
  unfold Printer.separate
  split
  · exact copyKnown fits _ _
  · exact ite (copyKnown fits _ _) (discipline.write separator)
  · exact discipline.write separator

theorem patchStatements (fits : discipline.fits place) (all : discipline.All parts)
    (formers : List FormerChild) (separator : Text) (head index : Nat) (previous : Part) :
    discipline.holds
      (Printer.patchStatements node place.source formers separator head index previous parts) := by
  induction parts generalizing index previous with
  | nil => exact discipline.pure ()
  | cons part rest induction =>
      simp only [All, List.forall_mem_cons] at all
      apply andThen (separate fits formers separator _ _)
      exact andThen (Acts.emit part all.1) (induction all.2 (index + 1) part)

theorem patchList (fits : discipline.fits place) (all : discipline.All parts) (kind : Kind)
    (head : Nat) : discipline.holds (Printer.patchList node kind place head parts) := by
  have caseHead : discipline.holds (Printer.patchCaseHead node place parts.head?) :=
    patchCaseHead fits fun part isPart => all part (List.mem_of_head? isPart)
  unfold Printer.patchList
  dsimp only
  split
  case h_1 =>
    split
    · exact discipline.write _
    · exact andThen caseHead (discipline.pure ())
    · exact discipline.pure ()
  case h_2 first rest isParts =>
    have dropped := all.drop head
    rw [isParts] at dropped
    simp only [All, List.forall_mem_cons] at dropped
    have ends : ∀ leadStart, discipline.holds (do
        Printer.copy place.source leadStart
          (((place.former.drop head).head?.bind formerStart?).getD 0)
        first.emit node head 0
        Printer.patchStatements node place.source (place.former.drop head)
          (newSeparator place.source
            (((place.former.drop head).head?.bind formerStart?).getD 0))
          head (head + 1) first rest
        Printer.copyKnown place.source ((place.former.drop head).getLast?.bind formerStop?)
          (some place.span.stop)) := by
      intro leadStart
      apply andThen (discipline.copy place _ _ fits)
      apply andThen (Acts.emit first dropped.1)
      apply andThen (patchStatements fits dropped.2 _ _ _ _ _)
      exact copyKnown fits _ _
    apply ite
    · exact discipline.bind caseHead ends
    · exact ends _

theorem renew {place : Option Place} (fits : ∀ known, place = some known → discipline.fits known)
    (all : discipline.All parts) (kind : Kind) (flags : Flags) :
    discipline.holds (Printer.renew node kind flags place parts) := by
  have anew := generic all kind flags node
  cases place with
  | none => exact anew
  | some place =>
      have fits := fits place rfl
      apply andThen (discipline.record place fits)
      split
      · exact ite (patchList fits all kind _) anew
      · exact ite (patchParts fits all _ _ _ _) anew

end Patching

theorem enclose {body : Print Unit} (holds : discipline.holds body) (parens : Bool) :
    discipline.holds (Printer.enclose parens body) := by
  have ends : discipline.holds (do
      body
      if parens then Printer.write ")") :=
    andThen holds (ite (discipline.write _) (discipline.pure ()))
  exact ite (andThen (discipline.write _) ends) ends

/-- A tree is copied where it is clean, and printed anew where it is not. -/
theorem copied_or_renewed (discipline : Discipline)
    (placed : (Node.tree kind flags place children).Placed discipline.fits)
    (all : discipline.All (partsOf children)) :
    discipline.holds (match place with
      | some known =>
          if (Node.tree kind flags place children).isClean then
            Printer.copy known.source known.span.start known.span.stop
          else
            Printer.renew (.tree kind flags place children) kind flags place (partsOf children)
      | none =>
          Printer.renew (.tree kind flags place children) kind flags place
            (partsOf children)) := by
  have anew : discipline.holds (Printer.renew (.tree kind flags place children) kind flags
      place (partsOf children)) :=
    renew placed.known all kind flags
  cases place with
  | none => exact anew
  | some known => exact ite (discipline.copy known _ _ (placed.known known rfl)) anew

/-- A tree is printed under a discipline if its places fit. -/
theorem emitter_obeyed (discipline : Discipline) {node : Node} (placed : node.Placed discipline.fits) :
    discipline.Obeyed (emitter node) := by
  refine emitter.induct
    (fun node => node.Placed discipline.fits → discipline.Obeyed (emitter node))
    (fun children => AllPlaced discipline.fits children → discipline.All (partsOf children))
    ?absent ?leaf ?tree ?nil ?cons node placed
  case absent =>
    intro _
    rw [emitter]
    constructor <;> intros <;> exact discipline.pure ()
  case leaf =>
    intro token _
    rw [emitter]
    constructor <;> intros <;> first | exact discipline.write _ | exact discipline.pure ()
  case tree =>
    intro kind flags place children induction placed
    have all := induction placed.all
    have body := copied_or_renewed discipline placed all
    have emit : ∀ parent index least, discipline.holds
        ((emitter (.tree kind flags place children)).emit parent index least) := by
      intro parent index least
      rw [emitter.eq_def]
      apply discipline.bind (calculate _)
      intro parens
      exact enclose body parens
    rw [emitter.eq_def] at emit ⊢
    constructor
    · exact emit
    · exact emitDeclaration all _
    · intro parent
      apply ite
      · apply andThen (discipline.write _)
        cases parts : partsOf children with
        | nil => exact discipline.throw _
        | cons first rest =>
            exact andThen (Acts.emit first (all first (parts ▸ List.mem_cons_self)))
              (discipline.write _)
      · exact emit parent (some 0) 0
  case nil => simp [partsOf, All]
  case cons =>
    intro seat node rest nodeIs restAre all
    simp only [partsOf, All, List.forall_mem_cons]
    exact ⟨nodeIs all.head, restAre all.tail⟩

end Discipline

end Printer

end ScriptFold
