import ScriptFold.Fault
import ScriptFold.Proofs.Reading.Ending
import ScriptFold.Proofs.Token.Tiling
import ScriptFold.Proofs.Tree.Placed

/-!
# Where readers place what they read

Every tree spans from a start token on, and since a reader fails at the end of input, that
is a token of the text.  So every place of a tree that is read lies in the source it is read
from and begins inside of its text.
-/

namespace ScriptFold

/-- A place in a source that begins inside of the text. -/
def Source.Holds (source : Source) (place : Place) : Prop :=
  place.source = source ∧ place.span.start < source.text.length

/-- Nodes in their seats are placed as the nodes are. -/
theorem AllPlaced.seatFrom {fits : Place → Prop} {nodes : List Node} (all : ArePlaced fits nodes)
    (index : Nat) : AllPlaced fits (Node.seatFrom index nodes) := by
  induction nodes generalizing index with
  | nil => exact .nil
  | cons node rest induction =>
      simp only [ArePlaced, List.forall_mem_cons] at all
      exact .cons all.1 (induction all.2 (index + 1))

theorem Node.Placed.read {fits : Place → Prop} {kind : Kind} {flags : Flags} {source : Source}
    {span : Span} {nodes : List Node} (isPlace : ∀ former, fits ⟨source, span, former⟩)
    (all : ArePlaced fits nodes) : (Node.read kind flags source span nodes).Placed fits := by
  apply Node.Placed.tree _ (AllPlaced.seatFrom all 0)
  intro known isKnown
  cases isKnown
  exact isPlace _

namespace Grammar

/-- The tokens left are of a source. -/
structure State.Within (source : Source) (state : State) : Prop where
  isSource : state.source = source
  inside : All (Token.Inside source.text) state.tokens

instance {source : Source} : Lasting (State.Within source) :=
  .of_drop fun within same drops => ⟨same.trans within.isSource, fun token there =>
    within.inside token (drops token there)⟩

/-- The tokens left are of a source, and the end of input is not the first one. -/
def State.Begun (source : Source) (state : State) : Prop :=
  state.Within source ∧ ¬Exhausted state

/-- Every place of what a reader gives lies in the source. -/
abbrev Placing (source : Source) (reader : Reader Node) : Prop :=
  Leads (State.Within source) reader (Node.Placed source.Holds) (State.Within source)

/-- A reader of which this is so as long as a token is left. -/
abbrev PlacingOnce (source : Source) (reader : Reader Node) : Prop :=
  Leads (State.Begun source) reader (Node.Placed source.Holds) (State.Within source)

variable {source : Source} {α β : Type} {holds : α → Prop} {ensured : State → Prop}

namespace Leads

theorem within {reader : Reader α} (leads : Leads (State.Within source) reader holds ensured) :
    Leads (State.Begun source) reader holds ensured :=
  leads.from_state fun _ begun => begun.1

/-- A reader that needs a token has one. -/
theorem begun {reader : Reader α} (needs : NeedsToken reader)
    (leads : Leads (State.Begun source) reader holds ensured) :
    Leads (State.Within source) reader holds ensured := by
  intro state value left within ran
  by_cases exhausted : Exhausted state
  · exact (needs state value left exhausted ran).1.elim
  · exact leads state value left ⟨within, exhausted⟩ ran

theorem inside_of_begun {state : State} (begun : state.Begun source) :
    (state.tokens.headD noToken).start < source.text.length := by
  obtain ⟨within, notEnd⟩ := begun
  cases tokens : state.tokens with
  | nil => exact absurd (by rw [Exhausted, tokens]; rfl) notEnd
  | cons token rest =>
      rw [Exhausted, tokens] at notEnd
      apply within.inside token _ notEnd
      rw [tokens]
      exact List.mem_cons_self

theorem current_begun {next : Token → Reader α}
    (ends : ∀ token, token.start < source.text.length →
      Leads (State.Begun source) (next token) holds ensured) :
    Leads (State.Begun source) (current >>= next) holds ensured := by
  have begins : Leads (State.Begun source) current
      (fun token => token.start < source.text.length) (State.Begun source) := by
    intro state token left begun ran
    cases ran
    exact ⟨inside_of_begun begun, begun⟩
  exact .bind begins ends

theorem advance_begun {next : Token → Reader α}
    (ends : ∀ token, token.start < source.text.length →
      Leads (State.Within source) (next token) holds ensured) :
    Leads (State.Begun source) (advance >>= next) holds ensured := by
  have begins : Leads (State.Begun source) advance
      (fun token => token.start < source.text.length) (State.Within source) := by
    intro state token left begun ran
    have keeps : Keeps advance := inferInstance
    have within := (keeps.leads (State.Within source) state token left begun.1 ran).2
    cases ran
    exact ⟨inside_of_begun begun, within⟩
  exact .bind begins ends

/-- A reader that looks at the current token and needs one. -/
theorem opening {next : Token → Reader α} (needs : NeedsToken (current >>= next))
    (ends : ∀ token, token.start < source.text.length →
      Leads (State.Within source) (next token) holds ensured) :
    Leads (State.Within source) (current >>= next) holds ensured :=
  .begun needs (.current_begun fun token inside => .within (ends token inside))

theorem expect {type : TokenType} {next : Token → Reader α} (named : type ≠ .endOfInput)
    (ends : ∀ token, token.start < source.text.length →
      Leads (State.Within source) (next token) holds ensured) :
    Leads (State.Within source) (expect type >>= next) holds ensured := by
  apply begun (NeedsToken.expect named).bind
  have begins : Leads (State.Begun source) (Grammar.expect type)
      (fun token => token.start < source.text.length) (State.Within source) := by
    apply current_begun
    intro token inside
    apply ite
    · intro _
      have same : (advance >>= pure : Reader Token) = advance := bind_pure _
      rw [← same]
      exact advance_begun fun token inside => .of_pure inside
    · exact fun _ => .of_failAt
  exact .bind begins ends

/-- A token that is found is left. -/
theorem checked {types : List TokenType} {first second : Reader α}
    (without : types.contains .endOfInput = false)
    (whenTrue : Leads (State.Begun source) first holds ensured)
    (whenFalse : Leads (State.Within source) second holds ensured) :
    Leads (State.Within source) (do if ← check types then first else second) holds ensured := by
  intro state value left within ran
  rw [StateT.run_bind] at ran
  have ranAs : (Grammar.check types).run state =
      .ok (types.contains (state.tokens.headD noToken).type, state) := rfl
  rw [ranAs] at ran
  cases found : types.contains (state.tokens.headD noToken).type with
  | false =>
      rw [found] at ran
      exact whenFalse state value left within ran
  | true =>
      rw [found] at ran
      refine whenTrue state value left ⟨within, fun exhausted => ?_⟩ ran
      rw [Exhausted] at exhausted
      rw [exhausted, without] at found
      cases found

theorem checkedEither {types : List TokenType} {first second : Reader β} {next : β → Reader α}
    {middle : β → Prop} (without : types.contains .endOfInput = false)
    (whenTrue : Leads (State.Begun source) first middle (State.Within source))
    (whenFalse : Leads (State.Within source) second middle (State.Within source))
    (ends : ∀ value, middle value → Leads (State.Within source) (next value) holds ensured) :
    Leads (State.Within source)
      (do if ← check types then first >>= next else second >>= next) holds ensured :=
  .checked without (.bind whenTrue ends) (.bind whenFalse ends)

theorem allowingIn_begun {allowed : Bool} {reader : Reader α}
    (leads : Leads (State.Begun source) reader holds (State.Within source)) :
    Leads (State.Begun source) (Grammar.allowingIn allowed reader) holds (State.Within source) := by
  apply still
  intro saved
  have opens : Leads (State.Begun source)
      (modify fun state : State => { state with noIn := !allowed }) (fun _ => True)
      (State.Begun source) := by
    intro state value left begun ran
    cases ran
    exact ⟨trivial, ⟨begun.1.isSource, begun.1.inside⟩, begun.2⟩
  refine .bind opens fun _ _ => .bind leads fun value is => ?_
  exact .bind setNoIn_leads fun _ _ => .of_pure is

end Leads

/-- Rules that place what they read in the source. -/
structure PlacingRules (source : Source) (rules : Rules) : Prop where
  statement : Placing source rules.statement
  expression : Placing source rules.expression
  assignment : Placing source rules.assignment
  binary : ∀ least, Placing source (rules.binary least)
  unary : Placing source rules.unary
  leftHandSide : Placing source rules.leftHandSide
  construction : Placing source rules.construction
  target : Placing source rules.target

variable {rules : Rules} {kind : Kind} {flags : Flags} {nodes : List Node} {start : Token}

theorem finishWith_placing (inside : start.start < source.text.length)
    (all : ArePlaced source.Holds nodes) : Placing source (finishWith flags kind nodes start) := by
  intro state node left within ran
  cases ran
  obtain ⟨isSource, tokensAre⟩ := within
  exact ⟨.read (fun former => ⟨isSource, isSource ▸ inside⟩) all, isSource, tokensAre⟩

theorem finish_placing (inside : start.start < source.text.length)
    (all : ArePlaced source.Holds nodes) : Placing source (finish kind nodes start) :=
  finishWith_placing inside all

theorem bindingOf_placing (inside : start.start < source.text.length) :
    Placing source (bindingOf start) :=
  finish_placing inside (.single .leaf)

theorem absent_placing : Placing source (pure .absent) :=
  .of_pure .absent

/-! ### Targets -/

theorem reshape_placed {node : Node} (placed : node.Placed source.Holds)
    (all : ArePlaced source.Holds nodes) : (reshape node kind nodes).Placed source.Holds := by
  unfold reshape
  split
  case h_1 place _ => exact .read (fun _ => placed.known place rfl) all
  case h_2 => exact .made all

theorem shorthandTarget_placed {property ident name : Node}
    (propertyIs : property.Placed source.Holds) (identIs : ident.Placed source.Holds)
    (nameIs : name.Placed source.Holds) :
    (shorthandTarget property ident name).Placed source.Holds := by
  have target : (reshape ident .binding [name]).Placed source.Holds :=
    reshape_placed identIs (.single nameIs)
  have placed : (reshape property .patternProperty [name, reshape ident .binding [name]]).Placed
      source.Holds := reshape_placed propertyIs (.cons nameIs (.single target))
  unfold shorthandTarget
  dsimp only
  split
  case h_1 isTree =>
    rw [isTree] at placed
    exact placed.keep placed.all
  case h_2 => exact placed

/-- A target is placed as the expression is. -/
theorem toTarget_placed (nested : Bool) (node : Node) :
    node.Placed source.Holds → ∀ target, toTarget nested node = .ok target →
      target.Placed source.Holds := by
  refine toTarget.induct
    (fun nested node => node.Placed source.Holds → ∀ target, toTarget nested node = .ok target →
      target.Placed source.Holds)
    (fun elements => AllPlaced source.Holds elements → ∀ nodes, toElements elements = .ok nodes →
      ArePlaced source.Holds nodes)
    (fun members => AllPlaced source.Holds members → ∀ nodes, toProperties members = .ok nodes →
      ArePlaced source.Holds nodes)
    ?object ?array ?default ?assign ?ident ?other ?noElements ?spreadElement ?element
    ?noProperties ?property ?shorthand ?spread ?refused nested node
  case object | array =>
    intro nested flags place inner induction placed target equality
    rw [toTarget] at equality
    obtain ⟨nodes, areNodes, equality⟩ := Calculation.of_bind_eq_ok equality
    cases equality
    exact reshape_placed placed (induction placed.all nodes areNodes)
  case default =>
    intro nested flags place s target t op u value isDefault induction placed result equality
    simp only [toTarget, isDefault, if_true] at equality
    obtain ⟨inner, isInner, equality⟩ := Calculation.of_bind_eq_ok equality
    cases equality
    have innerIs := induction placed.all.head inner isInner
    exact reshape_placed placed (.cons innerIs (.single placed.all.tail.tail.head))
  case assign =>
    intro nested flags place s target t op u value notDefault placed result equality
    simp only [toTarget, notDefault] at equality
    cases equality
    exact placed
  case ident =>
    intro nested flags place children placed target equality
    cases nested with
    | true =>
        cases equality
        exact reshape_placed placed placed.children
    | false =>
        cases equality
        exact placed
  case other =>
    intro nested node notObject notArray notAssign notIdent placed target equality
    rw [toTarget] at equality
    · cases equality
      exact placed
    all_goals assumption
  case noElements | noProperties =>
    intro all nodes equality
    cases equality
    exact .nil
  case spreadElement =>
    intro seat flags place s value rest valueInduction restInduction all nodes equality
    rw [toElements] at equality
    obtain ⟨inner, isInner, equality⟩ := Calculation.of_bind_eq_ok equality
    obtain ⟨others, areOthers, equality⟩ := Calculation.of_bind_eq_ok equality
    cases equality
    have innerIs := valueInduction all.head.all.head inner isInner
    exact .cons (reshape_placed all.head (.single innerIs)) (restInduction all.tail others areOthers)
  case element =>
    intro seat node rest notSpread nodeInduction restInduction all nodes equality
    rw [toElements] at equality
    · obtain ⟨first, isFirst, equality⟩ := Calculation.of_bind_eq_ok equality
      obtain ⟨others, areOthers, equality⟩ := Calculation.of_bind_eq_ok equality
      cases equality
      exact .cons (nodeInduction all.head first isFirst) (restInduction all.tail others areOthers)
    all_goals assumption
  case property =>
    intro seat flags place s key t value rest valueInduction restInduction all nodes equality
    rw [toProperties] at equality
    obtain ⟨inner, isInner, equality⟩ := Calculation.of_bind_eq_ok equality
    obtain ⟨others, areOthers, equality⟩ := Calculation.of_bind_eq_ok equality
    cases equality
    have innerIs := valueInduction all.head.all.tail.head inner isInner
    exact .cons (reshape_placed all.head (.cons all.head.all.head (.single innerIs)))
      (restInduction all.tail others areOthers)
  case shorthand =>
    intro seat flags place s ident rest restInduction all nodes equality
    rw [toProperties] at equality
    obtain ⟨others, areOthers, equality⟩ := Calculation.of_bind_eq_ok equality
    cases equality
    have identIs := all.head.all.head
    exact .cons (shorthandTarget_placed all.head identIs (identIs.child 0))
      (restInduction all.tail others areOthers)
  case spread =>
    intro seat flags place s value rest valueInduction restInduction all nodes equality
    rw [toProperties] at equality
    obtain ⟨inner, isInner, equality⟩ := Calculation.of_bind_eq_ok equality
    obtain ⟨others, areOthers, equality⟩ := Calculation.of_bind_eq_ok equality
    cases equality
    have innerIs := valueInduction all.head.all.head inner isInner
    exact .cons (reshape_placed all.head (.single innerIs)) (restInduction all.tail others areOthers)
  case refused =>
    intro head tail notProperty notShorthand notSpread all nodes equality
    rw [toProperties] at equality
    · cases equality
    all_goals assumption

theorem asTarget_placing {node : Node} (placed : node.Placed source.Holds) :
    Placing source (asTarget node) := by
  unfold asTarget
  split
  case h_1 target isTarget => exact .of_pure (toTarget_placed false node placed target isTarget)
  case h_2 => exact .after fun _ => .of_failAt

end Grammar

end ScriptFold
