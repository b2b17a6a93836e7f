import ScriptFold.Proofs.Reading.AsRead
import ScriptFold.Proofs.Spanning.Gathers
import ScriptFold.Proofs.Spanning.Retargeting

/-!
# Readers whose nodes span what they read

A reader spans what it reads if its node is laid, as the only one, from the token ahead up to the
offset that it reaches.  After other nodes such a reader adds its own to them, and a tree finished
from its start token on takes the place of all its children.
-/

namespace ScriptFold

namespace Grammar

open Node

/-- A reader of a node gathers it. -/
def Spanning (reader : Reader Node) : Prop :=
  ∀ start, Gathers (Read start []) reader fun node => Took start [node]

/-- A reader of which this is so as long as a token is ahead. -/
def SpanningAhead (reader : Reader Node) : Prop :=
  ∀ start, Gathers (Ahead (Read start [])) reader fun node => Took start [node]

/-- From the token ahead on, a reader gathers its node. -/
abbrev SpansFrom (token : Token) (reader : Reader Node) : Prop :=
  Gathers (Facing token (Read token.start [])) reader fun node => Took token.start [node]

/-- After some nodes a reader adds its own. -/
abbrev Adds (start : Nat) (nodes : List Node) (reader : Reader Node) : Prop :=
  Gathers (Took start nodes) reader fun node => Took start (nodes ++ [node])

/-- After some nodes from a token on a reader gives the tree from there. -/
abbrev Closes (token : Token) (nodes : List Node) (reader : Reader Node) : Prop :=
  Gathers (Took token.start nodes) reader fun node => Took token.start [node]

variable {start : Nat} {nodes : List Node} {reader : Reader Node} {given : State → Prop}

theorem Took.earlier {state : State} {other : Nat} (took : Took start nodes state)
    (begins : other ≤ start) : Took other nodes state := by
  refine ⟨⟨took.orderly, fun token there => ?_, ?_, took.nested⟩,
    Nat.lt_of_le_of_lt begins took.further⟩
  · exact Nat.le_trans begins (took.here token there)
  · exact took.laid.mono begins (Nat.le_refl _)

theorem Took.absent {state : State} (took : Took start nodes state) :
    Took start (nodes ++ [.absent]) state := by
  refine ⟨⟨took.orderly, took.here, ?_, ?_⟩, took.further⟩
  · rw [List.map_append]
    exact took.laid.append (Nat.le_of_lt took.further) (Nat.le_refl _) (Nat.le_refl _)
      (.absent .nil)
  · exact List.forall_mem_append.mpr ⟨took.nested, List.forall_mem_singleton.mpr .absent⟩

/-- A token is taken with which something begins. -/
def OpensAt (start : Nat) (token : Token) (state : State) : Prop :=
  start ≤ token.start ∧ TookToken token.start [] token state

theorem opensAt_of_advance {state next : State} {token : Token}
    (ahead : Ahead (Read start []) state) (ran : advance.run state = .ok (token, next)) :
    OpensAt start token next := by
  have isHead := (passes_of_advance ahead.1.orderly ran).head
  obtain ⟨begins, fromHead⟩ := ahead.1.fromHead
  rw [← isHead] at begins fromHead
  exact ⟨begins, took_of_advance ⟨fromHead, ahead.2⟩ ran⟩

theorem opensAt_ends {next : Token → Reader Node}
    (ends : ∀ token, Gathers (TookToken token.start [] token) (next token)
      fun node => Took token.start [node]) (token : Token) :
    Gathers (OpensAt start token) (next token) fun node => Took start [node] :=
  fun state node left opens ran => (ends token state node left opens.2 ran).earlier opens.1

theorem absent_adds : Adds start nodes (pure .absent) :=
  .of_pure fun _ => Took.absent

namespace Spanning

theorem opens (spanning : Spanning reader) :
    Gathers (Read start nodes) reader fun node => Took start (nodes ++ [node]) := by
  intro state node left read ran
  exact read.took_append (spanning _ state node left read.fresh ran)

theorem adds (spanning : Spanning reader) : Adds start nodes reader :=
  spanning.opens.took

theorem facing {token : Token} (spanning : Spanning reader) : SpansFrom token reader :=
  (spanning _).unfaced

theorem of_throw {failure : ParseFailure} : Spanning (throw failure) :=
  fun _ => .of_throw

theorem ite {condition : Prop} [Decidable condition] {first second : Reader Node}
    (whenTrue : Spanning first) (whenFalse : Spanning second) :
    Spanning (if condition then first else second) :=
  fun start => .ite (fun _ => whenTrue start) fun _ => whenFalse start

theorem allowingIn {allowed : Bool} (spanning : Spanning reader) :
    Spanning (allowingIn allowed reader) :=
  fun start => (spanning start).allowingIn

/-- Any token may be the one ahead. -/
theorem of_facing (spanning : ∀ token, SpansFrom token reader) : Spanning reader := by
  intro start state node left read ran
  have fromHead := read.fromHead
  exact (spanning _ state node left ⟨fromHead.2, rfl⟩ ran).earlier fromHead.1

/-- A reader that begins with the token ahead. -/
theorem current {next : Token → Reader Node}
    (ends : ∀ token, SpansFrom token (next token)) : Spanning (current >>= next) :=
  .of_facing fun token => .current_facing (ends token)

/-- A reader that begins where the token ahead does. -/
theorem opening {next : Token → Reader Node}
    (ends : ∀ token, Gathers (Read token.start []) (next token)
      fun node => Took token.start [node]) : Spanning (Grammar.current >>= next) :=
  .current fun token => (ends token).unfaced

/-- A reader that begins with a token of some type. -/
theorem expect {type : TokenType} {next : Token → Reader Node} (named : type ≠ .endOfInput)
    (ends : ∀ token, Closes token [] (next token)) : Spanning (expect type >>= next) := by
  intro start
  have begins : Gathers (Read start []) (Grammar.expect type) (OpensAt start) := by
    refine .current fun token => .ite (fun isType => ?_) fun _ => .of_failAt
    intro state value left facing ran
    exact opensAt_of_advance (ahead_of_facing (isType ▸ named) state facing) ran
  exact .bind begins (opensAt_ends fun token => (ends token).past)

end Spanning

/-- A reader that begins with the token that is ahead. -/
theorem SpanningAhead.advance {next : Token → Reader Node}
    (ends : ∀ token, Gathers (TookToken token.start [] token) (next token)
      fun node => Took token.start [node]) : SpanningAhead (advance >>= next) :=
  fun _ => .bind (fun _ _ _ ahead ran => opensAt_of_advance ahead ran) (opensAt_ends ends)

theorem SpanningAhead.of_facing
    (spanning : ∀ token, token.type ≠ .endOfInput → SpansFrom token reader) :
    SpanningAhead reader := by
  intro start state node left ahead ran
  have fromHead := ahead.1.fromHead
  exact (spanning _ ahead.2 state node left ⟨fromHead.2, rfl⟩ ran).earlier fromHead.1

theorem SpanningAhead.facing {token : Token} (spanning : SpanningAhead reader)
    (proper : token.type ≠ .endOfInput) : SpansFrom token reader :=
  (spanning _).from_state fun state => ahead_of_facing proper state

theorem SpanningAhead.adds (spanning : SpanningAhead reader) :
    Gathers (Ahead (Took start nodes)) reader fun node => Took start (nodes ++ [node]) := by
  intro state node left ahead ran
  exact ahead.1.took_append (spanning _ state node left (ahead.imp fun took => took.fresh) ran)

/-! ### Trees -/

/-- A node that stands from a token to the offset that is reached. -/
structure Fills (token : Token) (node : Node) (state : State) : Prop where
  took : Took token.start [node] state
  former : node.toFormer = .present (some token.start) (some state.reach)

/-- A tree from a token on, with the nodes that it is made of. -/
structure Finished (token : Token) (nodes : List Node) (node : Node) (state : State) : Prop
    extends Fills token node state where
  children : node.children = nodes

/-- A nested tree stands from its start to the offset that is reached. -/
theorem finished_of_took {token : Token} {state : State} {kind : Kind} {flags : Flags}
    {source : Source} {span : Span} {others : List Node} (took : Took token.start others state)
    (begins : span.start = token.start) (ends : span.stop = state.reach)
    (nested : (Node.read kind flags source span nodes).Nested) :
    Finished token nodes (.read kind flags source span nodes) state := by
  have former : (Node.read kind flags source span nodes).toFormer =
      .present (some token.start) (some state.reach) := by
    rw [← begins, ← ends]
    rfl
  refine ⟨⟨⟨⟨took.orderly, took.here, ?_, ?_⟩, took.further⟩, former⟩, map_node_seatFrom 0 nodes⟩
  · rw [List.map_singleton, former]
    exact .present (Nat.le_refl _) took.further (Nat.le_refl _) .nil
  · exact List.forall_mem_singleton.mpr nested

/-- The span of a tree reaches from its start token up to the offset that is reached. -/
theorem finishWith_nested {token : Token} {kind : Kind} {flags : Flags} {others : List Node}
    (tooks : ∀ state, given state → Took token.start others state)
    (nested : ∀ state span, given state → span.start = token.start → span.stop = state.reach →
      (Node.read kind flags state.source span nodes).Nested) :
    Gathers given (finishWith flags kind nodes token)
      fun node state => given state ∧ Finished token nodes node state := by
  intro state node left isGiven ran
  have took := tooks state isGiven
  cases ran
  exact ⟨isGiven, finished_of_took took rfl (took.last token)
    (nested state _ isGiven rfl (took.last token))⟩

/-- A tree whose nodes are arranged in its span. -/
theorem finishWith_arranged {token : Token} {kind : Kind} {flags : Flags} {others : List Node}
    (unnamed : kind ≠ .shorthandProperty)
    (tooks : ∀ state, given state → Took token.start others state)
    (arranged : ∀ state span, given state → span.start = token.start → span.stop = state.reach →
      Arranged span kind flags nodes)
    (nested : ∀ state, given state → ∀ node ∈ nodes, node.Nested) :
    Gathers given (finishWith flags kind nodes token)
      fun node state => given state ∧ Finished token nodes node state :=
  finishWith_nested tooks fun state span isGiven begins ends =>
    .read unnamed (arranged state span isGiven begins ends) (nested state isGiven)

/-- A tree stands where its nodes do. -/
theorem finishWith_finished {token : Token} {kind : Kind} {flags : Flags}
    (unnamed : kind ≠ .shorthandProperty)
    (tooks : ∀ state, given state → Took token.start nodes state) :
    Gathers given (finishWith flags kind nodes token)
      fun node state => given state ∧ Finished token nodes node state := by
  refine finishWith_arranged unnamed tooks (fun state span isGiven begins ends => .laid ?_)
    fun state isGiven => (tooks state isGiven).nested
  rw [begins, ends]
  exact (tooks state isGiven).laid

theorem finishWith_spanning {token : Token} {kind : Kind} {flags : Flags}
    (unnamed : kind ≠ .shorthandProperty) :
    Closes token nodes (finishWith flags kind nodes token) :=
  (finishWith_finished unnamed fun _ => id).mono fun _ _ finished => finished.2.took

theorem finish_spanning {token : Token} {kind : Kind} (unnamed : kind ≠ .shorthandProperty) :
    Closes token nodes (finish kind nodes token) :=
  finishWith_spanning unnamed

/-! ### Repetition -/

section

variable {α : Type} {gathered : List α → State → Prop}

theorem Gathers.ended (gathered : List α → State → Prop) (items : List α) :
    Gathers (gathered items) (pure []) fun more => gathered (items ++ more) := by
  refine .of_pure fun _ is => ?_
  rw [List.append_nil]
  exact is

theorem Gathers.onward (gathered : List α → State → Prop) {items : List α} {first : α}
    {rest : Reader (List α)}
    (gathers : Gathers given rest fun more => gathered (items ++ [first] ++ more)) :
    Gathers given (do return first :: (← rest)) fun more => gathered (items ++ more) := by
  refine .bind gathers fun more => .of_pure fun _ is => ?_
  rw [List.append_cons]
  exact is

theorem Gathers.repeatWhile {continues : Reader Bool} {item : Reader α}
    [∀ items, Lasting (gathered items)] [Keeps continues]
    (adds : ∀ items, Gathers (gathered items) item fun value => gathered (items ++ [value]))
    (items : List α) :
    Gathers (gathered items) (repeatWhile continues item) fun more => gathered (items ++ more) := by
  refine .after fun state => ?_
  generalize state.budget = budget
  induction budget generalizing items with
  | zero => exact .of_throw
  | succ budget induction =>
      refine .after fun goes => .ite (fun _ => ?_) fun _ => .ended gathered items
      exact .bind (adds items) fun first => .onward gathered (induction _)

end

namespace Spanning

variable {item : Reader Node}

theorem repeatWhile {continues : Reader Bool} [Keeps continues] (spanning : Spanning item) :
    Gathers (Took start nodes) (repeatWhile continues item)
      fun more => Took start (nodes ++ more) :=
  .repeatWhile (fun _ => spanning.adds) nodes

theorem commaList {closer : TokenType} (spanning : Spanning item) :
    Gathers (Took start nodes) (commaList closer item) fun more => Took start (nodes ++ more) := by
  refine .after fun state => ?_
  generalize state.budget = budget
  induction budget generalizing nodes with
  | zero => exact .of_throw
  | succ budget induction =>
      refine .after fun closes => .ite (fun _ => .ended (Took start) nodes) fun _ => ?_
      refine .bind spanning.adds fun first => .after fun goes => ?_
      exact .ite (fun _ => .onward (Took start) induction) fun _ => .of_pure fun _ => id

theorem commaItems (spanning : Spanning item) :
    Gathers (Read start nodes) (commaItems item) fun more => Took start (nodes ++ more) := by
  refine .after fun state => ?_
  generalize state.budget = budget
  induction budget generalizing nodes with
  | zero => exact .of_throw
  | succ budget induction =>
      refine .bind spanning.opens fun first => .after fun goes => ?_
      exact .ite (fun _ => .onward (Took start) induction.took) fun _ => .of_pure fun _ => id

theorem holedList {closer : TokenType} (spanning : Spanning item) :
    Gathers (Took start nodes) (holedList closer item) fun more => Took start (nodes ++ more) := by
  refine .after fun state => ?_
  generalize state.budget = budget
  induction budget generalizing nodes with
  | zero => exact .of_throw
  | succ budget induction =>
      refine .after fun closes => .ite (fun _ => .ended (Took start) nodes) fun _ => ?_
      refine .after fun isHole => .ite (fun _ => ?_) fun _ => ?_
      · exact .onward (Took start) (induction.from_state fun _ => Took.absent)
      · refine .bind spanning.adds fun first => .after fun goes => ?_
        exact .ite (fun _ => .onward (Took start) induction) fun _ => .of_pure fun _ => id

end Spanning

/-! ### Targets -/

/-- A target is laid where its expression was. -/
theorem Took.replace {state : State} {node target : Node} (took : Took start (node :: nodes) state)
    (standsFor : StandsFor target node) : Took start (target :: nodes) state := by
  refine ⟨⟨took.orderly, took.here, ?_, ?_⟩, took.further⟩
  · rw [List.map_cons, standsFor.former, ← List.map_cons]
    exact took.laid
  · obtain ⟨_, others⟩ := List.forall_mem_cons.mp took.nested
    exact List.forall_mem_cons.mpr ⟨standsFor.nested, others⟩

theorem asTarget_replaces {node : Node} :
    Gathers (Took start (node :: nodes)) (asTarget node)
      fun target => Took start (target :: nodes) := by
  rw [asTarget]
  split
  case h_1 target isTarget =>
    refine .of_pure fun state took => took.replace ?_
    exact toTarget_standsFor false node (took.nested node List.mem_cons_self) target isTarget
  case h_2 => exact .still fun _ => .of_failAt

end Grammar

end ScriptFold
