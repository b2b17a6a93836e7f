import ScriptFold.Fold.Chain
import ScriptFold.Proofs.Shape.Target

/-!
# Folded calls and members

Calls and members that are left are formed: their arguments and objects are folded, and the
name that a call calls is the one node that stays as it was read.
-/

namespace ScriptFold

open FoldM (Meets)

variable {law : Law} {levels : Nat} {walker : Walker} {given : Prop}
variable {kind : Kind} {flags : Flags} {place : Option Place} {index : Nat}

/-! ### Arguments -/

theorem argument_meets (sound : Sound law levels walker) (index : Nat) (child : Child Node) :
    Meets (Slotted .loose .args place index child ∧ Below law levels child.node)
      (Chain.argument walker child) fun result => Slotted law .args place index result.1 := by
  unfold Chain.argument
  split
  case h_1 innerFlags innerPlace inner rest isNode =>
    refine (operand_meets sound 0 rfl fun known => ⟨isNode ▸ known.2.succ, rfl⟩).bind
      fun inner' => .of_pure fun known => .of_operand ⟨⟨?_, Law.not_forbids_of_kind rfl⟩, rfl⟩ rfl
    exact (Patched.refl.set 0 known.2).formed (isNode ▸ known.1.2.formed) rfl
  case h_2 => exact .of_throw
  case h_3 =>
    refine ((expression_meets sound child).weaken fun known =>
      ⟨known.2, known.1.isTree_or_absent rfl⟩).bind fun folded => ?_
    exact valueOf_meets.bind fun _ => .of_pure fun known => known.1.2.slotted known.1.1.1 rfl

private theorem arguments_meets (sound : Sound law levels walker) (place : Option Place) (start
    : Nat)
    (children : List (Child Node)) :
    Meets (SlottedFrom .loose .args place start children ∧
        ∀ child, child ∈ children → Below law levels child.node)
      (Chain.arguments walker children)
      fun result => SlottedFrom law .args place start result.1 := by
  induction children generalizing start with
  | nil => exact .of_pure fun _ => .nil
  | cons child rest induction =>
      rw [Chain.arguments]
      refine ((argument_meets sound start child).weaken fun known =>
        ⟨known.1.head, known.2 child List.mem_cons_self⟩).bind fun first => ?_
      refine ((induction (start + 1)).weaken fun known => ⟨known.1.1.tail, fun other there =>
        known.1.2 other (List.mem_cons_of_mem _ there)⟩).bind fun others => ?_
      exact .of_pure fun known => .cons known.1.2 known.2

theorem callArguments_meets (sound : Sound law levels walker) {children : List (Child Node)}
    (isCall : kind = .call ∨ kind = .newExpr)
    (below : given → Below law (levels + 1) (.tree kind flags place children)) :
    Meets given (Chain.callArguments walker ⟨kind, flags, place, children⟩)
      fun result => Slotted law kind place 1 result.1 := by
  have isOnly : kind.role 1 = .only .args := by
    rcases isCall with rfl | rfl <;> rfl
  refine Meets.of_child.bind fun args => ?_
  obtain ⟨seat, node⟩ := args
  cases node with
  | absent =>
      exact .of_pure fun known => ((below known.1).slotted known.2).1.of_not_isTree rfl
  | leaf => exact .of_throw
  | tree inner innerFlags innerPlace arguments =>
      have isArgs :
          given ∧ children[1]? = some ⟨seat, .tree inner innerFlags innerPlace arguments⟩ →
          inner = .args ∧ Below law levels (.tree inner innerFlags innerPlace arguments) := by
        intro known
        obtain ⟨slotted, below⟩ := (below known.1).slotted known.2
        have admitted := slotted.fits.admitted
        rw [isOnly] at admitted
        exact ⟨Option.some.inj (admitted.resolve_right nofun), below⟩
      refine ((arguments_meets sound innerPlace 0 arguments).weaken
        fun known => ?_).bind fun results => ?_
      · obtain ⟨rfl, below⟩ := isArgs known
        exact ⟨formed_iff_slotted.mp below.formed, fun child there => below.inner there⟩
      · refine .of_pure fun known => ?_
        obtain ⟨rfl, _⟩ := isArgs known.1
        exact .of_only (formed_iff_slotted.mpr known.2) rfl isOnly rfl

/-! ### Members -/

/-- The receiver of a read: folded, or as it was read. -/
structure Received (law : Law) (kind : Kind) (place : Option Place) (object : Child Node)
    (read : Chain.Receiver) : Prop where
  folded : read.isFolded = true → Slotted law kind place 0 read.object
  unfolded : read.isFolded = false → read.object = object

theorem role_object (isLink : kind = .member ∨ kind = .subscript) : kind.role 0 = .required := by
  rcases isLink with rfl | rfl <;> rfl

theorem receiver_meets (sound : Sound law levels walker) {children : List (Child Node)}
    {object : Child Node} (isLink : kind = .member ∨ kind = .subscript)
    (found : given → FoundAt law levels kind flags place children 0 object) :
    Meets given (Chain.receiver walker object) (Received law kind place object) := by
  refine (value?_meets sound.enforces object.node).bind fun value => ?_
  cases value with
  | some value => exact .of_pure fun _ => ⟨nofun, fun _ => rfl⟩
  | none =>
      refine (operand_meets sound 0 (by rw [role_object isLink]; rfl)
        fun known => found known.1).bind fun folded => ?_
      exact valueOf_meets.bind fun _ => .of_pure fun known => ⟨fun _ => known.1.2, nofun⟩

theorem settle_meets (sound : Sound law levels walker) {children : List (Child Node)}
    {object : Child Node} {read : Chain.Receiver} (isLink : kind = .member ∨ kind = .subscript)
    (found : given → FoundAt law levels kind flags place children 0 object)
    (received : given → Received law kind place object read) :
    Meets given (read.settle walker) (Slotted law kind place 0) := by
  unfold Chain.Receiver.settle
  split
  case isTrue isFolded => exact .of_pure fun known => (received known).folded isFolded
  case isFalse notFolded =>
    refine operand_meets sound 0 (by rw [role_object isLink]; rfl) (fun known => ?_ : given →
      FoundAt law levels kind flags place children 0 read.object)
    rw [(received known).unfolded (by simpa using notFolded)]
    exact found known

theorem memberKey_meets (sound : Sound law levels walker) {children : List (Child Node)}
    (isLink : kind = .member ∨ kind = .subscript)
    (below : given → Below law (levels + 1) (.tree kind flags place children)) :
    Meets given (Chain.memberKey walker ⟨kind, flags, place, children⟩)
      fun result => Slotted law kind place 1 result.1 := by
  refine Meets.of_child.bind fun key => ?_
  rcases isLink with rfl | rfl
  · have isFixed : given ∧ children[1]? = some key → Slotted law .member place 1 key :=
      fun known => ((below known.1).slotted known.2).1.fixed rfl
    refine .of_pure fun known => ?_
    split <;> exact isFixed known
  · refine (operand_meets sound 1 rfl fun known => ⟨below known.1, known.2⟩).bind fun key' => ?_
    refine valueOf_meets.bind fun value => ?_
    cases value with
    | none => exact .of_pure fun known => known.1.2
    | some value => exact Meets.of_calculate.bind fun _ => .of_pure fun known => known.1.1.2

theorem link_formed {children : List (Child Node)} {object key : Child Node}
    (isLink : kind = .member ∨ kind = .subscript)
    (formed : Formed .loose (.tree kind flags place children))
    (objectIs : Slotted law kind place 0 object) (keyIs : Slotted law kind place 1 key) :
    Formed law (.tree kind flags place ((children.set 0 object).set 1 key)) := by
  have patched : Patched law kind place children [1, 0] ((children.set 0 object).set 1 key) :=
    (Patched.refl.set 0 objectIs).set 1 keyIs
  rcases isLink with rfl | rfl <;> exact patched.formed formed rfl

theorem link_operand {children : List (Child Node)} (isLink : kind = .member ∨ kind = .subscript)
    (formed : Formed law (.tree kind flags place children)) :
    Operand law (.tree kind flags place children) := by
  rcases isLink with rfl | rfl <;>
    exact ⟨⟨formed, Law.not_forbids_of_kind rfl⟩, rfl⟩

theorem readProperty_meets (law : Law) {branch : Branch} {value : Value} {name : Text} :
    Meets given (Chain.readProperty branch value name) fun result =>
      ∀ node, result = some node → Operand law node := by
  unfold Chain.readProperty
  split
  case isTrue =>
    refine .of_pure fun _ node isNode => ?_
    cases isNode
    exact voidZero_operand
  case isFalse =>
    refine Meets.of_calculate.bind fun property => ?_
    cases property with
    | missing => exact .of_fail
    | unknownValue => exact .of_pure fun _ => nofun
    | found property =>
        refine nodeOf_meets.bind fun literal => ?_
        cases literal with
        | none => exact Meets.of_report.bind fun _ => .of_pure fun _ => nofun
        | some literal =>
            refine .of_pure fun known node isNode => ?_
            cases isNode
            exact ofValue?_operand known.2

/-- A read that is left. -/
theorem member_kept (sound : Sound law levels walker) {children : List (Child Node)}
    {object key : Child Node} {read : Chain.Receiver}
    (isLink : kind = .member ∨ kind = .subscript)
    (found : given → FoundAt law levels kind flags place children 0 object)
    (received : given → Received law kind place object read)
    (keyIs : given → Slotted law kind place 1 key) :
    Meets given (do
        let object ← read.settle walker
        return Branch.keep ⟨kind, flags, place, children⟩ ((children.set 0 object).set 1 key))
      (Walked law (.tree kind flags place children)) := by
  refine (settle_meets sound isLink found received).bind fun object' => .of_pure fun known => ?_
  have formed := link_formed isLink (found known.1).1.formed known.2 (keyIs known.1)
  exact .kept formed (link_operand isLink formed).good.folded

theorem member_meets (sound : Sound law levels walker) {children : List (Child Node)}
    (isLink : kind = .member ∨ kind = .subscript) :
    Meets (Below law (levels + 1) (.tree kind flags place children))
      (Chain.member walker ⟨kind, flags, place, children⟩)
      (Walked law (.tree kind flags place children)) := by
  have unstable : (Node.tree kind flags place children).isStable = false := by
    rcases isLink with rfl | rfl <;> rfl
  refine Meets.of_child.bind fun object => ?_
  refine (receiver_meets sound isLink id).bind fun read => ?_
  refine (memberKey_meets sound isLink fun known => known.1.1).bind fun key => ?_
  obtain ⟨key, name⟩ := key
  simp only [pure_bind]
  split
  case h_1 value name _ _ =>
    refine (readProperty_meets law).bind fun found => ?_
    cases found with
    | some node => exact .of_pure fun known => .of_operand (known.2 node rfl) unstable
    | none =>
        exact member_kept sound isLink (fun known => known.1.1.1) (fun known => known.1.1.2)
          fun known => known.1.2
  case h_2 =>
    exact member_kept sound isLink (fun known => known.1.1) (fun known => known.1.2) And.right

/-! ### Calls -/

theorem callFunction_meets (sound : Sound law levels walker) {children : List (Child Node)}
    {name : Text} {hostName : String} (isCall : kind = .call ∨ kind = .newExpr)
    (unstable : (Node.tree kind flags place children).isStable = false) :
    Meets (Below law (levels + 1) (.tree kind flags place children))
      (Chain.callFunction walker ⟨kind, flags, place, children⟩ name hostName)
      (Walked law (.tree kind flags place children)) := by
  unfold Chain.callFunction
  refine (callArguments_meets sound isCall id).bind fun args => ?_
  obtain ⟨_, values⟩ := args
  simp only
  split
  case h_1 => exact .of_fail
  case h_2 known _ =>
    refine Meets.of_attempt.bind fun result => nodeOf_meets.bind fun literal => ?_
    cases literal with
    | none => exact .of_fail
    | some literal => exact .of_pure fun known => .of_operand (ofValue?_operand known.2) unstable

theorem callMethod_meets {node : Node} {value : Value} {name : Text}
    {values : List (Option Value)} :
    Meets given (Chain.callMethod walker node value name values) fun _ => True := by
  simp only [Chain.callMethod]
  split
  case h_1 =>
    split
    case h_1 => exact .of_fail
    case h_2 => exact Meets.of_attempt.bind fun _ => .of_pure fun _ => trivial
  case h_2 => exact .of_pure fun _ => trivial
  case h_3 =>
    split
    case h_1 method _ =>
      split
      case h_1 => exact .of_pure fun _ => trivial
      case h_2 =>
        split
        case h_1 | h_2 => exact .of_pure fun _ => trivial
        case h_3 => exact .of_throw
    case h_2 =>
      split
      case h_1 =>
        split
        case isTrue => exact .of_pure fun _ => trivial
        case isFalse => exact .of_fail
      case h_2 => exact .of_pure fun _ => trivial

/-- A call of a method that is left. -/
theorem methodCall_kept (sound : Sound law levels walker) {children arguments : List (Child Node)}
    {seat : Option Nat} {outer : Flags} {outerPlace : Option Place} {object key args : Child Node}
    {read : Chain.Receiver} (isLink : kind = .member ∨ kind = .subscript)
    (below : given → Below law (levels + 1) (.tree .call outer outerPlace arguments))
    (found : given → FoundAt law levels kind flags place children 0 object)
    (received : given → Received law kind place object read)
    (keyIs : given → Slotted law kind place 1 key)
    (argsAre : given → Slotted law .call outerPlace 1 args) :
    Meets given (do
        let object ← read.settle walker
        let link := Node.tree kind flags place ((children.set 0 object).set 1 key)
        return Branch.keep ⟨.call, outer, outerPlace, arguments⟩
          ((arguments.set 0 ⟨seat, link⟩).set 1 args))
      (Walked law (.tree .call outer outerPlace arguments)) := by
  refine (settle_meets sound isLink found received).bind fun object' => .of_pure fun known => ?_
  have link := link_operand isLink
    (link_formed isLink (found known.1).1.formed known.2 (keyIs known.1))
  refine .kept (((Patched.refl.set 0 ?_).set 1 (argsAre known.1)).formed
    (below known.1).formed rfl) (Law.not_forbids_of_kind rfl)
  exact .of_operand link rfl

theorem methodCall_meets (sound : Sound law levels walker) {children arguments : List (Child Node)}
    {seat : Option Nat} {outer : Flags} {outerPlace : Option Place}
    (isLink : kind = .member ∨ kind = .subscript)
    (found : given → FoundAt law levels .call outer outerPlace arguments 0
      ⟨seat, .tree kind flags place children⟩) :
    Meets given (Chain.methodCall walker ⟨.call, outer, outerPlace, arguments⟩
        ⟨seat, .tree kind flags place children⟩ ⟨kind, flags, place, children⟩)
      (Walked law (.tree .call outer outerPlace arguments)) := by
  have below : given → Below law (levels + 1) (.tree kind flags place children) :=
    fun known => ((found known).1.slotted (found known).2).2.succ
  refine Meets.of_child.bind fun object => ?_
  refine (receiver_meets sound isLink fun known => ⟨below known.1, known.2⟩).bind fun read => ?_
  refine (memberKey_meets sound isLink fun known => below known.1.1).bind fun key => ?_
  refine (callArguments_meets sound (.inl rfl) fun known => (found known.1.1.1).1).bind
    fun args => ?_
  obtain ⟨key, name⟩ := key
  obtain ⟨args, values⟩ := args
  simp only [pure_bind]
  split
  case h_1 value name _ _ =>
    refine callMethod_meets.bind fun result => ?_
    cases result with
    | some result =>
        refine nodeOf_meets.bind fun literal => ?_
        cases literal with
        | none => exact .of_fail
        | some literal => exact .of_pure fun known => .of_operand (ofValue?_operand known.2) rfl
    | none =>
        exact methodCall_kept sound isLink (fun known => (found known.1.1.1.1.1).1)
          (fun known => ⟨below known.1.1.1.1.1, known.1.1.1.1.2⟩) (fun known => known.1.1.1.2)
          (fun known => known.1.1.2) fun known => known.1.2
  case h_2 =>
    exact methodCall_kept sound isLink (fun known => (found known.1.1.1.1).1)
      (fun known => ⟨below known.1.1.1.1, known.1.1.1.2⟩) (fun known => known.1.1.2)
      (fun known => known.1.2) And.right

/-- A name that is called stays as it was read. -/
theorem Slotted.of_callee {child : Child Node} (slotted : Slotted .loose kind place 0 child)
    (isCallee : kind.role 0 = .callee) (isIdent : child.node.isKind .ident = true) :
    Slotted law kind place 0 child := by
  have isKind := kind?_of_isKind isIdent
  refine ⟨⟨slotted.fits.admitted, slotted.fits.kept, ?_, ?_⟩, ?_⟩
  · rw [isCallee]
    nofun
  · rw [isCallee]
    exact fun _ => isIdent
  · have formed := slotted.formed
    revert isKind formed
    cases child.node with
    | absent | leaf => nofun
    | tree kind flags place children =>
        intro isKind formed
        cases isKind
        exact ident_formed formed

/-- What expands is bound to a macro. -/
theorem binds_of_callee {context : Context} {node : Node} {name : Text}
    (expands : Name.callee context node = .expansion name) :
    context.macros.binds name = true := by
  unfold Name.callee at expands
  split at expands
  case h_1 => cases expands
  case h_2 =>
    split at expands
    case h_1 => cases expands
    case h_2 =>
      split at expands <;> cases expands
      assumption

/-- A call that is left. -/
theorem call_kept (sound : Sound law levels walker) {children : List (Child Node)}
    {callee : Child Node} (isCall : kind = .call ∨ kind = .newExpr)
    (below : given → Below law (levels + 1) (.tree kind flags place children))
    (calleeIs : given → Slotted law kind place 0 callee) :
    Meets given (do
        let (args, _) ← Chain.callArguments walker ⟨kind, flags, place, children⟩
        return Branch.keep ⟨kind, flags, place, children⟩ ((children.set 0 callee).set 1 args))
      (Walked law (.tree kind flags place children)) := by
  refine (callArguments_meets sound isCall below).bind fun args => .of_pure fun known => ?_
  have patched : Patched law kind place children [1, 0] ((children.set 0 callee).set 1 args.1) :=
    (Patched.refl.set 0 (calleeIs known.1)).set 1 known.2
  rcases isCall with rfl | rfl <;>
    exact .kept (patched.formed (below known.1).formed rfl) (Law.not_forbids_of_kind rfl)

theorem call_meets (sound : Sound law levels walker) {children : List (Child Node)}
    (isCall : kind = .call ∨ kind = .newExpr) :
    Meets (Below law (levels + 1) (.tree kind flags place children))
      (Chain.call walker ⟨kind, flags, place, children⟩)
      (Walked law (.tree kind flags place children)) := by
  have isCallee : kind.role 0 = .callee := by
    rcases isCall with rfl | rfl <;> rfl
  have unstable : kind.isStable = false := by
    rcases isCall with rfl | rfl <;> rfl
  refine Meets.of_child.bind fun callee => ?_
  obtain ⟨seat, node⟩ := callee
  simp only [pure_bind]
  split
  case h_1 => exact (callFunction_meets sound isCall unstable).weaken And.left
  case h_2 name isCallee =>
    exact (sound.expand ⟨kind, flags, place, children⟩ name isCall
      (binds_of_callee isCallee)).weaken fun known => ⟨known.1.premise, known.1.formed⟩
  case h_3 =>
    split
    case h_1 => exact methodCall_meets sound (.inl rfl) id
    case h_2 => exact methodCall_meets sound (.inr rfl) id
    case h_3 =>
      split
      case isTrue isIdent =>
        exact call_kept sound isCall And.left
          fun known => (known.1.slotted known.2).1.of_callee isCallee isIdent
      case isFalse =>
        refine (operand_meets sound 0 (by rw [isCallee]; rfl) id).bind fun callee' => ?_
        exact call_kept sound isCall (fun known => known.1.1) And.right

end ScriptFold
