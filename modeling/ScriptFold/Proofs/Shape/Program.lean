import ScriptFold.Evaluate
import ScriptFold.Proofs.Shape.Statement
import ScriptFold.Proofs.Shape.Walk

/-!
# Folded programs

Templates are read, so their trees are formed, and the arguments of a call are copies of
formed trees; hence expansions keep every law that folding keeps, to any depth.  So do the
fragments that a script is folded with.
-/

namespace ScriptFold

open FoldM (Meets)

variable {law : Law} {given : Prop} {context : Context} {former : Node}

/-! ### Tables -/

theorem mem_insert {α : Type} {name : Text} {value : α} {table : Table α} {entry : Text × α}
    (there : entry ∈ Table.insert name value table) : entry.2 = value ∨ entry ∈ table := by
  induction table with
  | nil =>
      rcases List.mem_singleton.mp there with rfl
      exact .inl rfl
  | cons first rest induction =>
      rw [Table.insert] at there
      split at there
      case isTrue =>
        rcases List.mem_cons.mp there with rfl | there
        · exact .inl rfl
        · exact .inr (List.mem_cons_of_mem _ there)
      case isFalse =>
        rcases List.mem_cons.mp there with rfl | there
        · exact .inr List.mem_cons_self
        · exact (induction there).imp_right (List.mem_cons_of_mem _)

theorem mem_insertAll {α : Type} {pairs : List (Text × α)} {table : Table α} {entry : Text × α}
    (there : entry ∈ Table.insertAll pairs table) :
    (∃ pair, pair ∈ pairs ∧ entry.2 = pair.2) ∨ entry ∈ table := by
  induction pairs generalizing table with
  | nil => exact .inr there
  | cons pair rest induction =>
      rcases induction there with ⟨other, isOther, same⟩ | there
      · exact .inl ⟨other, List.mem_cons_of_mem _ isOther, same⟩
      · exact (mem_insert there).imp_left fun same => ⟨pair, List.mem_cons_self, same⟩

theorem mem_numbered {index : Nat} {nodes : List Node} {pair : Text × Node}
    (there : pair ∈ Fold.numbered index nodes) : pair.2 ∈ nodes := by
  induction nodes generalizing index with
  | nil => cases there
  | cons node rest induction =>
      rcases List.mem_cons.mp there with rfl | there
      · exact List.mem_cons_self
      · exact List.mem_cons_of_mem _ (induction there)

/-! ### Expansions -/

theorem parse_meets {source : Source} : Meets given (FoldM.parse source) (Shaped .program) := by
  refine Meets.of_attempt.mono fun node _ parsed => ?_
  cases isNode : parseScript source with
  | error failure =>
      rw [isNode] at parsed
      cases parsed
  | ok tree =>
      rw [isNode] at parsed
      cases parsed
      exact parseScript_shaped isNode

/-- Nodes that may be put in the place of a name. -/
def AreTrees (nodes : List Node) : Prop :=
  ∀ node, node ∈ nodes → Formed .loose node ∧ node.isTree = true

/-- The arguments of a call are copied. -/
theorem argumentsOf_meets {call : Branch} (isCall : call.kind = .call ∨ call.kind = .newExpr) :
    Meets (Formed .loose call.toNode) (Fold.argumentsOf call) AreTrees := by
  obtain ⟨kind, flags, place, children⟩ := call
  have isOnly : kind.role 1 = .only .args := by
    rcases isCall with rfl | rfl <;> rfl
  refine Meets.of_child.bind fun args => ?_
  obtain ⟨seat, node⟩ := args
  cases node with
  | absent => exact .of_pure fun _ => nofun
  | leaf => exact .of_throw
  | tree inner innerFlags innerPlace arguments =>
      refine .of_pure fun known node there => ?_
      have slotted := known.1.slotted known.2
      have admitted := slotted.fits.admitted
      rw [isOnly] at admitted
      obtain rfl : inner = .args := Option.some.inj (admitted.resolve_right nofun)
      obtain ⟨child, isChild, rfl⟩ := List.mem_map.mp there
      obtain ⟨index, found⟩ := List.mem_iff_getElem?.mp isChild
      have operand := (slotted.formed.slotted found).operand rfl
      refine ⟨copy_formed id operand.good.formed, ?_⟩
      rw [isTree_copy]
      exact isTree_of_isOperand operand.isOperand

/-- A program in place of a call. -/
theorem asStatements_walked {program : Node} (good : Good law program)
    (isProgram : program.kind? = some .program) (unstable : former.isStable = false) :
    Walked law former (Fold.asStatements program) := by
  have childrenAre : ∀ node, node ∈ program.children → Good law node ∧ node.isTree = true := by
    cases program with
    | absent | leaf => cases isProgram
    | tree kind flags place children =>
        cases isProgram
        intro node there
        obtain ⟨child, isChild, rfl⟩ := List.mem_map.mp there
        obtain ⟨index, found⟩ := List.mem_iff_getElem?.mp isChild
        exact (good.formed.slotted found).listed rfl
  unfold Fold.asStatements
  split
  case h_1 => exact .removed unstable
  case h_2 single isSingle =>
    rw [isSingle] at childrenAre
    have singleIs := childrenAre single List.mem_cons_self
    split
    case h_1 =>
      split
      case isTrue => exact .instead singleIs.1 singleIs.2 unstable
      case isFalse => exact .statements childrenAre unstable
    case h_2 => exact .statements childrenAre unstable
  case h_3 => exact .statements childrenAre unstable

/-- A fold that keeps every law that its context enforces. -/
def Folds (fold : Context → Node → FoldM Folded) : Prop :=
  ∀ context law, Enforces context law → ∀ node,
    Meets (law.premise ∧ Formed .loose node) (fold context node) (Walked law node)

/-- A program stays a program. -/
theorem rootOf_program {program : Node} {folded : Folded} (walked : Walked law program folded)
    (isProgram : program.kind? = some .program) :
    Good law (Fold.rootOf program folded) ∧
      (Fold.rootOf program folded).kind? = some .program := by
  have stable : program.isStable = true := by
    rw [Node.isStable, isProgram]
    rfl
  obtain ⟨node, rfl, good, sameKind⟩ := walked.same_of_stable stable
  exact ⟨good, sameKind.trans isProgram⟩

/-- The law that asks for nothing but rests on a premise. -/
def Law.looseIf (premise : Prop) : Law :=
  { Law.loose with premise }

theorem Formed.looseIf {premise : Prop} {node : Node} (formed : Formed law node) :
    Formed (.looseIf premise) node :=
  formed.mono nofun fun _ forbidden => absurd forbidden.1 id

/-- Arguments are put in as they are, so they may be anything that is formed. -/
theorem enforces_arguments (enforces : Enforces context law) (args : List Node) :
    Enforces { context with fragments := context.fragments.insertAll (Fold.numbered 0 args) }
      (.looseIf (law.premise ∧ AreTrees args)) := by
  refine ⟨nofun, nofun, fun known entry there => ?_, enforces.templates⟩
  rcases mem_insertAll there with ⟨pair, isPair, same⟩ | there
  · rw [same]
    exact (known.2 pair.2 (mem_numbered isPair)).imp_left Formed.looseIf
  · exact (enforces.fragments known.1 entry there).imp_left Formed.looseIf

private theorem expandTemplate_meets {fold : Context → Node → FoldM Folded} (folds : Folds fold)
    (enforces : Enforces context law) {name template : Text} {args : List Node}
    (unstable : former.isStable = false) :
    Meets (law.premise ∧ AreTrees args) (Fold.expandTemplate fold context name template args)
      (Walked law former) := by
  refine parse_meets.bind fun program => ?_
  refine ((folds _ _ (enforces_arguments enforces args) program).weaken fun known =>
    ⟨known.1, known.2.formed⟩).bind fun bound => ?_
  have isBound : ((law.premise ∧ AreTrees args) ∧ Shaped .program program) ∧
      Walked (.looseIf (law.premise ∧ AreTrees args)) program bound →
      Shaped .program (Fold.rootOf program bound) := by
    rintro ⟨⟨_, shaped⟩, walked⟩
    obtain ⟨good, isProgram⟩ := rootOf_program walked shaped.isKind
    exact ⟨good.formed.loosen, isProgram⟩
  refine ((folds context law enforces (Fold.rootOf program bound)).weaken fun known =>
    ⟨known.1.1.1, (isBound known).formed⟩).bind fun folded => .of_pure fun known => ?_
  obtain ⟨good, isProgram⟩ := rootOf_program known.2 (isBound known.1).isKind
  exact asStatements_walked good isProgram unstable

private theorem expandWith_expands {fold : Context → Node → FoldM Folded} (folds : Folds fold)
    (enforces : Enforces context law) : Expands law context (Fold.expandWith fold) := by
  intro call name isCall isMacro
  have unstable : call.toNode.isStable = false := by
    show call.kind.isStable = false
    rcases isCall with isKind | isKind <;> rw [isKind] <;> rfl
  unfold Fold.expandWith
  split
  case h_1 isNone =>
    rw [Table.binds, isNone] at isMacro
    cases isMacro
  case h_2 text isTemplate =>
    refine ((argumentsOf_meets isCall).weaken And.right).bind fun args => ?_
    exact (expandTemplate_meets folds enforces unstable).weaken fun known =>
      ⟨known.1.1, known.2⟩
  case h_3 hostName isHost =>
    obtain ⟨text, isTemplate⟩ := enforces.templates _ (Table.mem_of_lookup isHost)
    cases isTemplate

/-- Folding keeps every law that its context enforces, whatever macros expand to. -/
theorem foldWithin_folds (depth : Nat) : Folds (Fold.foldWithin depth) := by
  induction depth with
  | zero =>
      exact fun context law enforces node => walk_meets enforces (fun _ _ _ _ => .of_fail) node
  | succ depth induction =>
      exact fun context law enforces node =>
        walk_meets enforces (expandWith_expands induction enforces) node

private theorem program_meets (enforces : Enforces context law) (node : Node) :
    Meets (law.premise ∧ Shaped .program node) (Fold.program context node) fun folded =>
      Good law folded ∧ folded.kind? = some .program := by
  unfold Fold.program
  split
  case isTrue => exact .of_throw
  case isFalse =>
    refine ((foldWithin_folds _ context law enforces node).weaken fun known =>
      ⟨known.1, known.2.formed⟩).bind fun folded => ?_
    cases folded with
    | same folded =>
        refine .of_pure fun known => ?_
        exact rootOf_program known.2 known.1.2.isKind
    | instead | statements | removed => exact .of_throw

theorem programOnStack_meets (enforces : Enforces context law) (node : Node) :
    Meets (law.premise ∧ Shaped .program node) (Fold.programOnStack context node) fun folded =>
      Good law folded ∧ folded.kind? = some .program := by
  unfold Fold.programOnStack
  split
  · exact program_meets enforces node
  · exact .of_throw

/-! ### Evaluation -/

/-- The law of a tree whose lists of statements are tidy. -/
def Law.tidied (premise : Prop) : Law :=
  ⟨True, False, fun _ => False, premise⟩

theorem Formed.tidied {premise other : Prop} {node : Node}
    (formed : Formed (.tidied premise) node) : Formed (.tidied other) node :=
  formed.mono (fun _ => trivial) fun _ forbidden => forbidden.1.elim

def AreTexts (fragments : Table FragmentBinding) : Prop :=
  ∀ entry, entry ∈ fragments → ∃ text, entry.2 = .text text

def AreTemplates (macros : Table MacroBinding) : Prop :=
  ∀ entry, entry ∈ macros → ∃ text, entry.2 = .template text

/-- Fragments that are ready to be put in. -/
def AreTidy (fragments : Table Node) : Prop :=
  ∀ entry, entry ∈ fragments → Formed (.tidied True) entry.2 ∧ entry.2.isTree = true

theorem enforces_tidied {context : Context} (areTemplates : AreTemplates context.macros) :
    Enforces context (.tidied (AreTidy context.fragments)) :=
  ⟨nofun, nofun, fun areTidy entry there => (areTidy entry there).imp_left Formed.tidied,
    areTemplates⟩

private theorem prepareText_meets {host : Host} {depthLimit : Int} {name text : Text} :
    Meets given (Evaluate.prepareText host depthLimit name text) fun node =>
      Formed (.tidied True) node ∧ node.isTree = true := by
  refine parse_meets.bind fun tree => ?_
  have enforces := @enforces_tidied ⟨host, [], [], [], [], depthLimit⟩ nofun
  refine ((programOnStack_meets enforces tree).weaken fun known => ⟨nofun, known.2⟩).mono
    fun folded _ is => ⟨is.1.formed.tidied, isTree_of_kind is.2⟩

private theorem prepareAll_meets {host : Host} {depthLimit : Int} (fragments
    : Table FragmentBinding)
    (areTexts : AreTexts fragments) :
    Meets given (Evaluate.prepareAll host depthLimit fragments) AreTidy := by
  induction fragments with
  | nil => exact .of_pure fun _ => nofun
  | cons first rest induction =>
      obtain ⟨name, binding⟩ := first
      obtain ⟨text, isText⟩ := areTexts (name, binding) List.mem_cons_self
      cases isText
      refine prepareText_meets.bind fun node => ?_
      refine ((induction fun entry there => areTexts entry
        (List.mem_cons_of_mem _ there)).weaken And.left).bind fun prepared => .of_pure ?_
      rintro ⟨⟨_, nodeIs⟩, preparedAre⟩ entry there
      rcases List.mem_cons.mp there with rfl | there
      · exact nodeIs
      · exact preparedAre entry there

/-- A folded script is tidy. -/
theorem tree_tidied {host : Host} {bindings : Bindings} {depthLimit : Int} {source : Source}
    (areTemplates : AreTemplates bindings.macros) (areTexts : AreTexts bindings.fragments) :
    Meets given (Evaluate.tree host bindings depthLimit source) (Formed (.tidied True)) := by
  simp only [Evaluate.tree, Evaluate.prepare, bind_assoc, pure_bind]
  refine (prepareAll_meets bindings.fragments areTexts).bind fun fragments => ?_
  refine parse_meets.bind fun tree => ?_
  refine ((programOnStack_meets (enforces_tidied areTemplates) tree).weaken fun known =>
    ⟨known.1.2, known.2⟩).mono fun folded _ is => is.1.formed.tidied

/-- A name that is bound to a value with a literal. -/
def HasLiteral (values : Table Value) (name : Text) : Prop :=
  ∃ value literal, values.lookup name = some value ∧ Literal.ofValue? value = .ok (some literal)

/-- The law of a tree in which nothing is left that could be folded. -/
def Law.finished (values : Table Value) : Law :=
  ⟨True, True, HasLiteral values, True⟩

/-- A script that is folded with values and functions alone has nothing left to fold. -/
theorem tree_finished {host : Host} {values : Table Value} {functions : Table String}
    {depthLimit : Int} {source : Source} :
    Meets given (Evaluate.tree host ⟨values, functions, [], []⟩ depthLimit source)
      (Good (.finished values)) := by
  have enforces : Enforces ⟨host, values, functions, [], [], depthLimit⟩ (.finished values) :=
    ⟨fun _ _ => id, fun _ => rfl, fun _ => nofun, nofun⟩
  simp only [Evaluate.tree, Evaluate.prepare, Evaluate.prepareAll, pure_bind]
  refine parse_meets.bind fun tree => ?_
  exact ((programOnStack_meets enforces tree).weaken fun known => ⟨trivial, known.2⟩).mono
    fun _ _ is => is.1

end ScriptFold
