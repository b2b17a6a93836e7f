import Mathlib.Data.List.Nodup
import Mathlib.Data.List.Pairwise
import ScriptFold.Printer.Basic
import ScriptFold.Proofs.Tree.Changing
import ScriptFold.Proofs.Tree.Identity

/-!
# Clones

A clone shares the words of its original and has new trees with new identities.  So what a tree
has recorded must be carried over: a recorded child that is still there becomes its copy, and one
that is gone stays what it was.  `Renews` says how the identities of children are carried over,
each kept or taken from a supply of new ones.  Nothing that was told apart is confused by this,
nor the other way round, and so the copies have the seats of their originals.  What comes of
scripts by changes has no flags that a copy would lose, so a clone of it prints as its original,
and a clone of the clone as well.
-/

namespace ScriptFold

/-- What an identity is taken to: the last one it is paired with, and else itself. -/
def renumber (numbering : List (Nat × Nat)) (id : Nat) : Nat :=
  (numbering.reverse.lookup id).getD id

/-- A recorded child, carried over. -/
def Recorded.renumbered (numbering : List (Nat × Nat)) : Recorded → Recorded
  | .absent => .absent
  | .present id start stop => .present (renumber numbering id) start stop

namespace Snapshot

/-- What a tree has recorded, carried over. -/
def renumbered (numbering : List (Nat × Nat)) (origin : Snapshot) : Snapshot :=
  { origin with recorded := origin.recorded.map (·.renumbered numbering) }

/-- Whether all identities that are recorded are below a bound. -/
def isBelow (bound : Nat) (origin : Snapshot) : Bool :=
  origin.recorded.all (·.identity?.all (· < bound))

end Snapshot

namespace Object

/-- The identities of children, each with the one of its copy. -/
def numbering : List Object → List Object → List (Nat × Nat)
  | child :: children, copy :: copies =>
      match child.identity?, copy.identity? with
      | some id, some renewed => (id, renewed) :: numbering children copies
      | _, _ => numbering children copies
  | _, _ => []

/-- A tree around copies of the children of another one.  A tree that was not read does not hand
its flags on. -/
def around (id : Nat) (kind : Kind) (flags : Flags) (children copies : List Object) :
    Option Snapshot → Object
  | none => .tree id kind {} none copies
  | some origin =>
      .tree id kind flags (some (origin.renumbered (numbering children copies))) copies

mutual

/-- A clone of an object, and the next identity that is free. -/
def clone (next : Nat) : Object → Object × Nat
  | .absent => (.absent, next)
  | .leaf id token => (.leaf id token, next)
  | .tree _ kind flags origin children =>
      let (copies, later) := cloneAll next children
      (around later kind flags children copies origin, later + 1)

/-- Clones of children, and the next identity that is free. -/
def cloneAll (next : Nat) : List Object → List Object × Nat
  | [] => ([], next)
  | child :: rest =>
      let (copy, later) := child.clone next
      let (copies, last) := cloneAll later rest
      (copy :: copies, last)

end

mutual

/-- Whether no object occurs twice among the children of a tree. -/
def isDistinct : Object → Bool
  | .absent => true
  | .leaf _ _ => true
  | .tree _ _ _ _ children =>
      decide (children.filterMap identity?).Nodup && areDistinct children

/-- Whether no object occurs twice among the children of a tree, for each of some objects. -/
def areDistinct : List Object → Bool
  | [] => true
  | child :: rest => child.isDistinct && areDistinct rest

end

mutual

/-- Whether all identities in use are below a bound, also those that are only recorded. -/
def isBelow (bound : Nat) : Object → Bool
  | .absent => true
  | .leaf id _ => decide (id < bound)
  | .tree id _ _ origin children =>
      decide (id < bound) && origin.all (·.isBelow bound) && areBelow bound children

/-- Whether all identities that some objects use are below a bound. -/
def areBelow (bound : Nat) : List Object → Bool
  | [] => true
  | child :: rest => child.isBelow bound && areBelow bound rest

end

end Object

/-- Identities below a bound, each paired with itself or with a new one.  The new ones are taken
in order from a supply that starts at `start` and ends before `stop`. -/
inductive Renews (bound : Nat) : (start stop : Nat) → List (Nat × Nat) → Prop
  | nothing {start stop : Nat} (ordered : start ≤ stop) : Renews bound start stop []
  | kept {start stop id : Nat} {pairs : List (Nat × Nat)} (below : id < bound)
      (later : Renews bound start stop pairs) : Renews bound start stop ((id, id) :: pairs)
  | renewed {start stop id fresh : Nat} {pairs : List (Nat × Nat)} (below : id < bound)
      (isNew : start ≤ fresh) (later : Renews bound (fresh + 1) stop pairs) :
      Renews bound start stop ((id, fresh) :: pairs)

namespace Renews

variable {bound start stop : Nat} {pairs : List (Nat × Nat)}

theorem ordered (renews : Renews bound start stop pairs) : start ≤ stop := by
  induction renews with
  | nothing ordered => exact ordered
  | kept _ _ induction => exact induction
  | renewed _ isNew _ induction => omega

/-- What an identity is paired with is the identity itself or a new one. -/
theorem value (renews : Renews bound start stop pairs) {id value : Nat}
    (there : (id, value) ∈ pairs) :
    id < bound ∧ (value = id ∨ start ≤ value ∧ value < stop) := by
  induction renews with
  | nothing => cases there
  | kept below _ induction =>
      rcases List.mem_cons.mp there with same | further
      · cases same
        exact ⟨below, .inl rfl⟩
      · exact induction further
  | renewed below isNew later induction =>
      rcases List.mem_cons.mp there with same | further
      · cases same
        exact ⟨below, .inr ⟨isNew, later.ordered⟩⟩
      · obtain ⟨idBelow, isValue⟩ := induction further
        exact ⟨idBelow, isValue.imp_right fun inside => ⟨by omega, inside.2⟩⟩

/-- An identity that is kept or renewed is told apart from all that come later. -/
theorem pairwise (renews : Renews bound start stop pairs) (fresh : bound ≤ start) :
    pairs.Pairwise fun first second => first.2 = second.2 → first.1 = second.1 := by
  induction renews with
  | nothing => exact .nil
  | kept below later induction =>
      refine .cons (fun pair there same => ?_) (induction fresh)
      have isValue := later.value there
      omega
  | renewed below isNew later induction =>
      refine .cons (fun pair there same => ?_) (induction (by omega))
      have isValue := later.value there
      omega

/-- Two identities are not paired with the same one. -/
theorem injective (renews : Renews bound start stop pairs) (fresh : bound ≤ start)
    {first second : Nat × Nat} (firstThere : first ∈ pairs) (secondThere : second ∈ pairs)
    (same : first.2 = second.2) : first.1 = second.1 := by
  have : Std.Symm fun first second : Nat × Nat => first.2 = second.2 → first.1 = second.1 :=
    ⟨fun _ _ apart same => (apart same.symm).symm⟩
  exact (renews.pairwise fresh).forall_of_forall (fun _ _ _ => rfl) firstThere secondThere same

/-- The identities that others are paired with are told apart as these are. -/
theorem nodup_values (renews : Renews bound start stop pairs) (fresh : bound ≤ start)
    (distinct : (pairs.map Prod.fst).Nodup) : (pairs.map Prod.snd).Nodup := by
  refine (List.Nodup.of_map _ distinct).map_on fun first firstThere second secondThere same => ?_
  exact Prod.ext (renews.injective fresh firstThere secondThere same) same

/-- An identity is taken to what it is paired with. -/
theorem renumber_eq (distinct : (pairs.map Prod.fst).Nodup) {id value : Nat}
    (there : (id, value) ∈ pairs) : renumber pairs id = value := by
  obtain ⟨before, after, split⟩ := List.append_of_mem (List.mem_reverse.mpr there)
  have apart : ∀ pair ∈ before, (id != pair.1) = true := by
    intro pair pairThere
    rw [← List.nodup_reverse, ← List.map_reverse, split, List.map_append, List.map_cons,
      List.nodup_middle, List.nodup_cons] at distinct
    rw [bne_iff_ne]
    rintro rfl
    exact distinct.1 (List.mem_append_left _ (List.mem_map.mpr ⟨pair, pairThere, rfl⟩))
  rw [renumber, List.lookup_eq_some_iff.mpr ⟨before, after, split, apart⟩, Option.getD_some]

/-- An identity that is paired with none stays what it is. -/
theorem renumber_of_not_mem {id : Nat} (notThere : id ∉ pairs.map Prod.fst) :
    renumber pairs id = id := by
  have none : pairs.reverse.lookup id = none := by
    rw [List.lookup_eq_none_iff]
    intro pair there
    rw [bne_iff_ne]
    rintro rfl
    exact notThere (List.mem_map.mpr ⟨pair, List.mem_reverse.mp there, rfl⟩)
  rw [renumber, none, Option.getD_none]

/-- An identity below the bound is taken to the new one of another only if it is that other. -/
theorem renumber_eq_iff (renews : Renews bound start stop pairs) (fresh : bound ≤ start)
    (distinct : (pairs.map Prod.fst).Nodup) {id value known : Nat} (there : (id, value) ∈ pairs)
    (below : known < bound) : renumber pairs known = value ↔ known = id := by
  constructor
  · intro same
    by_cases isPaired : known ∈ pairs.map Prod.fst
    · obtain ⟨pair, pairThere, rfl⟩ := List.mem_map.mp isPaired
      rw [renumber_eq distinct pairThere] at same
      exact renews.injective fresh pairThere there same
    · rw [renumber_of_not_mem isPaired] at same
      have isValue := renews.value there
      omega
  · rintro rfl
    exact renumber_eq distinct there

/-- Identities in use are taken to such that are in use or new. -/
theorem renumber_lt (renews : Renews bound start stop pairs) (fresh : bound ≤ start)
    (distinct : (pairs.map Prod.fst).Nodup) {known : Nat} (below : known < bound) :
    renumber pairs known < stop := by
  have ordered := renews.ordered
  by_cases isPaired : known ∈ pairs.map Prod.fst
  · obtain ⟨pair, there, rfl⟩ := List.mem_map.mp isPaired
    rw [renumber_eq distinct there]
    have isValue := renews.value there
    omega
  · rw [renumber_of_not_mem isPaired]
    omega

end Renews

namespace Object

@[simp]
theorem clone_tree (next id : Nat) (kind : Kind) (flags : Flags) (origin : Option Snapshot)
    (children : List Object) :
    (Object.tree id kind flags origin children).clone next =
      (around (cloneAll next children).2 kind flags children (cloneAll next children).1 origin,
        (cloneAll next children).2 + 1) :=
  rfl

@[simp]
theorem cloneAll_cons (next : Nat) (child : Object) (rest : List Object) :
    cloneAll next (child :: rest) =
      ((child.clone next).1 :: (cloneAll (child.clone next).2 rest).1,
        (cloneAll (child.clone next).2 rest).2) :=
  rfl

mutual

theorem le_clone (next : Nat) (object : Object) : next ≤ (object.clone next).2 := by
  match object with
  | .absent | .leaf _ _ => exact Nat.le_refl next
  | .tree _ _ _ _ children => exact Nat.le_succ_of_le (le_cloneAll next children)

theorem le_cloneAll (next : Nat) (children : List Object) :
    next ≤ (cloneAll next children).2 := by
  match children with
  | [] => exact Nat.le_refl next
  | child :: rest => exact Nat.le_trans (le_clone next child) (le_cloneAll _ rest)

end

section Numbering

variable {bound : Nat}

/-- The identities of children are renewed when they are cloned. -/
theorem cloneAll_renews (next : Nat) {children : List Object}
    (below : areBelow bound children = true) :
    Renews bound next (cloneAll next children).2
      (numbering children (cloneAll next children).1) := by
  induction children generalizing next with
  | nil => exact .nothing (Nat.le_refl next)
  | cons child rest induction =>
      rw [areBelow, Bool.and_eq_true] at below
      have later := induction (child.clone next).2 below.2
      cases child with
      | absent => exact later
      | leaf id token => exact .kept (of_decide_eq_true below.1) later
      | tree id kind flags origin children =>
          have idBelow : id < bound := by
            have := below.1
            simp only [isBelow, Bool.and_eq_true, decide_eq_true_eq] at this
            exact this.1.1
          cases origin <;> exact .renewed idBelow (le_cloneAll next children) later

theorem numbering_fst (next : Nat) (children : List Object) :
    (numbering children (cloneAll next children).1).map Prod.fst =
      children.filterMap identity? := by
  induction children generalizing next with
  | nil => rfl
  | cons child rest induction =>
      have later := induction (child.clone next).2
      cases child with
      | absent => exact later
      | leaf id token => exact congrArg (id :: ·) later
      | tree id kind flags origin children =>
          cases origin <;> exact congrArg (id :: ·) later

theorem numbering_snd (next : Nat) (children : List Object) :
    (numbering children (cloneAll next children).1).map Prod.snd =
      (cloneAll next children).1.filterMap identity? := by
  induction children generalizing next with
  | nil => rfl
  | cons child rest induction =>
      have later := induction (child.clone next).2
      cases child with
      | absent => exact later
      | leaf id token => exact congrArg (id :: ·) later
      | tree id kind flags origin children =>
          cases origin <;> exact congrArg (_ :: ·) later

end Numbering

section Seats

variable {pairs : List (Nat × Nat)} {recorded : List Recorded}

theorem identity?_renumbered (record : Recorded) :
    (record.renumbered pairs).identity? = record.identity?.map (renumber pairs) := by
  cases record <;> rfl

theorem formers_renumbered (pairs : List (Nat × Nat)) (origin : Snapshot) :
    (origin.renumbered pairs).recorded.map Recorded.former =
      origin.recorded.map Recorded.former := by
  rw [Snapshot.renumbered, List.map_map]
  refine List.map_congr_left fun record _ => ?_
  cases record <;> rfl

private theorem findIdx?_alike {first second : Recorded → Bool}
    (alike : ∀ record ∈ recorded, first record = second record) :
    recorded.findIdx? first = recorded.findIdx? second := by
  induction recorded with
  | nil => rfl
  | cons record rest induction =>
      obtain ⟨here, later⟩ := List.forall_mem_cons.mp alike
      rw [List.findIdx?_cons, List.findIdx?_cons, here, induction later]

/-- A record and an object that are carried over alike still agree or not. -/
theorem seat?_renumbered {child copy : Object} (index : Nat)
    (alike : ∀ record ∈ recorded, (record.renumbered pairs).names copy = record.names child) :
    copy.seat? (recorded.map (·.renumbered pairs)) index = child.seat? recorded index := by
  have found : (recorded.map (·.renumbered pairs)).findIdx? (·.names copy) =
      recorded.findIdx? (·.names child) := by
    rw [List.findIdx?_map]
    exact findIdx?_alike alike
  have here : (recorded.map (·.renumbered pairs))[index]?.any (·.names copy) =
      recorded[index]?.any (·.names child) := by
    rw [List.getElem?_map, Option.any_map]
    cases isRecord : recorded[index]? with
    | none => rfl
    | some record => exact alike record (List.mem_of_getElem? isRecord)
  rw [seat?, seat?, found, here]

/-- The records of a tree are carried over with the identities of some children: a record that
is carried over has the new identity of a child only if it had the old one. -/
def Carries (pairs : List (Nat × Nat)) (recorded : List Recorded) (renewals : List (Nat × Nat)) :
    Prop :=
  ∀ renewal ∈ renewals, ∀ record ∈ recorded,
    ((record.renumbered pairs).identity? = some renewal.2 ↔ record.identity? = some renewal.1)

theorem numbering_cons (child copy : Object) (children copies : List Object) :
    numbering (child :: children) (copy :: copies) =
      numbering [child] [copy] ++ numbering children copies := by
  cases child <;> cases copy <;> rfl

theorem names_clone {next : Nat} {child : Object}
    (carries : Carries pairs recorded (numbering [child] [(child.clone next).1])) :
    ∀ record ∈ recorded,
      (record.renumbered pairs).names (child.clone next).1 = record.names child := by
  intro record there
  rw [Bool.eq_iff_iff, Recorded.names, Recorded.names, beq_iff_eq, beq_iff_eq]
  cases child with
  | absent => cases record <;> simp [Recorded.renumbered, Recorded.identity?, clone, identity?]
  | leaf id token => exact carries (id, id) List.mem_cons_self record there
  | tree id kind flags origin children =>
      cases origin <;> exact carries (id, _) List.mem_cons_self record there

end Seats

theorem carries_nothing (pairs renewals : List (Nat × Nat)) : Carries pairs [] renewals :=
  fun _ _ _ there => absurd there List.not_mem_nil

section Renewal

variable {bound start stop limit : Nat} {pairs : List (Nat × Nat)} {origin : Snapshot}

/-- What is recorded is carried over with the identities of the children. -/
theorem carries_of_renews (renews : Renews bound start stop pairs) (fresh : bound ≤ start)
    (distinct : (pairs.map Prod.fst).Nodup) (below : origin.isBelow bound = true) :
    Carries pairs origin.recorded pairs := by
  rintro ⟨id, value⟩ there record isRecorded
  have isBelow := List.all_eq_true.mp below record isRecorded
  rw [identity?_renumbered]
  cases isKnown : record.identity? with
  | none => simp
  | some known =>
      rw [isKnown, Option.all_some, decide_eq_true_eq] at isBelow
      simpa using renews.renumber_eq_iff fresh distinct there isBelow

/-- What is recorded and carried over is below all that is free afterwards. -/
theorem renumbered_below (renews : Renews bound start stop pairs) (fresh : bound ≤ start)
    (distinct : (pairs.map Prod.fst).Nodup) (below : origin.isBelow bound = true)
    (enough : stop ≤ limit) : (origin.renumbered pairs).isBelow limit = true := by
  rw [Snapshot.isBelow, Snapshot.renumbered, List.all_map, List.all_eq_true]
  intro record isRecorded
  have isBelow := List.all_eq_true.mp below record isRecorded
  rw [Function.comp, identity?_renumbered]
  cases isKnown : record.identity? with
  | none => rfl
  | some known =>
      rw [isKnown, Option.all_some, decide_eq_true_eq] at isBelow
      have value := renews.renumber_lt fresh distinct isBelow
      exact decide_eq_true (Nat.lt_of_lt_of_le value enough)

end Renewal

section Parts

variable {bound id : Nat} {kind : Kind} {flags : Flags} {children : List Object}

/-- Children of a tree in which no object occurs twice are cloned under identities of their own. -/
theorem nodup_numbering (next : Nat) {origin : Option Snapshot}
    (distinct : (Object.tree id kind flags origin children).isDistinct = true) :
    ((numbering children (cloneAll next children).1).map Prod.fst).Nodup := by
  rw [isDistinct, Bool.and_eq_true, decide_eq_true_eq] at distinct
  rw [numbering_fst]
  exact distinct.1

theorem areDistinct_children {origin : Option Snapshot}
    (distinct : (Object.tree id kind flags origin children).isDistinct = true) :
    areDistinct children = true := by
  rw [isDistinct, Bool.and_eq_true] at distinct
  exact distinct.2

theorem areBelow_children {origin : Option Snapshot}
    (below : (Object.tree id kind flags origin children).isBelow bound = true) :
    areBelow bound children = true := by
  rw [isBelow, Bool.and_eq_true] at below
  exact below.2

theorem origin_below {origin : Snapshot}
    (below : (Object.tree id kind flags (some origin) children).isBelow bound = true) :
    origin.isBelow bound = true := by
  rw [isBelow, Bool.and_eq_true, Bool.and_eq_true, Option.all_some] at below
  exact below.1.2

end Parts

mutual

/-- The clone of an object is the copy of its node, if new identities are not in use yet. -/
theorem clone_node {bound next : Nat} (fresh : bound ≤ next) {object : Object}
    (distinct : object.isDistinct = true) (below : object.isBelow bound = true) :
    (object.clone next).1.node = object.node.copy := by
  match object with
  | .absent | .leaf _ _ => rfl
  | .tree id kind flags none children =>
      have areSeated := cloneAll_seated fresh (areDistinct_children distinct)
        (areBelow_children below) 0 (carries_nothing [] _)
      exact congrArg (Node.tree kind {} none) areSeated
  | .tree id kind flags (some origin) children =>
      have renews := cloneAll_renews next (areBelow_children below)
      have carries := carries_of_renews renews fresh (nodup_numbering next distinct)
        (origin_below below)
      have areSeated := cloneAll_seated fresh (areDistinct_children distinct)
        (areBelow_children below) 0 carries
      have formers := formers_renumbered (numbering children (cloneAll next children).1) origin
      rw [clone_tree, around, node, formers, node, Node.copy, ← areSeated]
      rfl

theorem cloneAll_seated {bound next : Nat} (fresh : bound ≤ next) {children : List Object}
    (distinct : areDistinct children = true) (below : areBelow bound children = true)
    {pairs : List (Nat × Nat)} {recorded : List Recorded} (index : Nat)
    (carries : Carries pairs recorded (numbering children (cloneAll next children).1)) :
    seated (recorded.map (·.renumbered pairs)) index (cloneAll next children).1 =
      Node.copyAll (seated recorded index children) := by
  match children with
  | [] => rfl
  | child :: rest =>
      rw [areDistinct, Bool.and_eq_true] at distinct
      rw [areBelow, Bool.and_eq_true] at below
      rw [cloneAll_cons, numbering_cons] at carries
      have here := fun renewal there => carries renewal (List.mem_append_left _ there)
      have later := fun renewal there => carries renewal (List.mem_append_right _ there)
      have freshLater := Nat.le_trans fresh (le_clone next child)
      rw [cloneAll_cons, seated, seated, Node.copyAll, seat?_renumbered index (names_clone here),
        clone_node fresh distinct.1 below.1,
        cloneAll_seated freshLater distinct.2 below.2 (index + 1) later]

end

mutual

/-- No object occurs twice among the children of a tree of a clone. -/
theorem clone_distinct {bound next : Nat} (fresh : bound ≤ next) {object : Object}
    (distinct : object.isDistinct = true) (below : object.isBelow bound = true) :
    (object.clone next).1.isDistinct = true := by
  match object with
  | .absent | .leaf _ _ => rfl
  | .tree id kind flags origin children =>
      have renews := cloneAll_renews next (areBelow_children below)
      have isNodup := renews.nodup_values fresh (nodup_numbering next distinct)
      rw [numbering_snd] at isNodup
      have areDistinct := cloneAll_distinct fresh (areDistinct_children distinct)
        (areBelow_children below)
      rw [clone_tree]
      cases origin <;> rw [around, isDistinct, areDistinct, decide_eq_true isNodup] <;> rfl

theorem cloneAll_distinct {bound next : Nat} (fresh : bound ≤ next) {children : List Object}
    (distinct : areDistinct children = true) (below : areBelow bound children = true) :
    areDistinct (cloneAll next children).1 = true := by
  match children with
  | [] => rfl
  | child :: rest =>
      rw [areDistinct, Bool.and_eq_true] at distinct
      rw [areBelow, Bool.and_eq_true] at below
      have freshLater := Nat.le_trans fresh (le_clone next child)
      rw [cloneAll_cons, areDistinct, clone_distinct fresh distinct.1 below.1,
        cloneAll_distinct freshLater distinct.2 below.2, Bool.and_true]

end

mutual

/-- The identities that a clone uses are below all that are free after it. -/
theorem clone_below {bound next limit : Nat} (fresh : bound ≤ next) {object : Object}
    (distinct : object.isDistinct = true) (below : object.isBelow bound = true)
    (enough : (object.clone next).2 ≤ limit) : (object.clone next).1.isBelow limit = true := by
  match object with
  | .absent => rfl
  | .leaf id token =>
      have isBelow : id < bound := of_decide_eq_true below
      exact decide_eq_true (Nat.lt_of_lt_of_le isBelow (Nat.le_trans fresh enough))
  | .tree id kind flags origin children =>
      have childrenBelow := areBelow_children below
      have areBelow := cloneAll_below fresh (areDistinct_children distinct) childrenBelow
        (Nat.le_of_succ_le enough)
      have idBelow : decide ((cloneAll next children).2 < limit) = true := decide_eq_true enough
      rw [clone_tree]
      cases origin with
      | none =>
          rw [around, isBelow, idBelow, areBelow]
          rfl
      | some origin =>
          have recordedBelow := renumbered_below (cloneAll_renews next childrenBelow) fresh
            (nodup_numbering next distinct) (origin_below below) (Nat.le_of_succ_le enough)
          rw [around, isBelow, idBelow, areBelow, Option.all_some, recordedBelow]
          rfl

theorem cloneAll_below {bound next limit : Nat} (fresh : bound ≤ next) {children : List Object}
    (distinct : areDistinct children = true) (below : areBelow bound children = true)
    (enough : (cloneAll next children).2 ≤ limit) :
    areBelow limit (cloneAll next children).1 = true := by
  match children with
  | [] => rfl
  | child :: rest =>
      rw [areDistinct, Bool.and_eq_true] at distinct
      rw [areBelow, Bool.and_eq_true] at below
      have freshLater := Nat.le_trans fresh (le_clone next child)
      have enoughHere := Nat.le_trans (le_cloneAll (child.clone next).2 rest) enough
      rw [cloneAll_cons, areBelow, clone_below fresh distinct.1 below.1 enoughHere,
        cloneAll_below freshLater distinct.2 below.2 enough, Bool.and_true]

end

/-! ### Printing clones -/

/-- Clones of what comes of scripts by changes are the nodes that were cloned, also when they are
cloned again.  New identities are taken from `next` on. -/
theorem clone_prints_alike {object : Object} {next later : Nat} (obtained : Obtained object)
    (distinct : object.isDistinct = true) (below : object.isBelow next = true)
    (free : (object.clone next).2 ≤ later) (sourceName mapName : Option Text) :
    let clone := (object.clone next).1
    let again := (clone.clone later).1
    clone.node = object.node.copy ∧
      printTree clone.node sourceName mapName = printTree object.node sourceName mapName ∧
      again.node = clone.node ∧
      printTree again.node sourceName mapName = printTree clone.node sourceName mapName := by
  intro clone again
  have isCopy : clone.node = object.node.copy := clone_node (Nat.le_refl next) distinct below
  have cloneIs : clone.node = object.node := isCopy.trans obtained.unflagged.copy_node
  have againIs : again.node = clone.node := by
    have cloneDistinct := clone_distinct (Nat.le_refl next) distinct below
    have cloneBelow := clone_below (Nat.le_refl next) distinct below free
    have isCopyAgain : again.node = clone.node.copy :=
      clone_node (Nat.le_refl later) cloneDistinct cloneBelow
    rw [isCopyAgain, cloneIs]
    exact obtained.unflagged.copy_node
  exact ⟨isCopy, by rw [cloneIs], againIs, by rw [againIs]⟩

/-- A condition with two statements in a block, and a statement behind it. -/
def conditional : Object :=
  ofScript ⟨Text.ofString "if (a) \x7b\n  b; // kept\n  c;\n\x7d\nd;\n", none, .script⟩

/-- A literal that was not read. -/
def newLiteral : Object :=
  .tree 15 .literal {} none [.leaf 14 ⟨.number, Text.ofString "1", none⟩]

/-- The statement behind the condition is moved into the block, the condition is replaced, and
the last statement of the block stands in front of it, too. -/
def rearranged : Object :=
  let last := conditional.childAt 1
  let inner := ((conditional.childAt 0).childAt 1).childAt 1
  (((conditional.edit 13 (.remove 1)).edit 8 (.add 1 last)).edit 9 (.replace 0 newLiteral)).edit
    13 (.add 0 inner)

private theorem rearranged_obtained : Obtained rearranged := by
  unfold rearranged
  have script : Obtained conditional := ofScript_obtained _
  have literal : Obtained newLiteral :=
    .made fun child there => List.mem_singleton.mp there ▸ .leaf
  have last : Obtained (conditional.childAt 1) := script.childAt 1
  have inner : Obtained (((conditional.childAt 0).childAt 1).childAt 1) :=
    ((script.childAt 0).childAt 1).childAt 1
  have removed := script.removed 13 1
  have moved := removed.added 8 1 last
  exact (moved.replaced 9 0 literal).added 13 0 inner

/-- The clone of a program of which every part was touched has its text. -/
theorem rearranged_prints_alike :
    (printTree (rearranged.clone 16).1.node none none).toOption.map Printed.code =
        some (Text.ofString "c;\nif (1) \x7b\n  b; // kept\n  d; // kept\n  c;\n\x7d\n") ∧
      (printTree ((rearranged.clone 16).1.clone 28).1.node none none) =
        printTree (rearranged.clone 16).1.node none none := by
  obtain ⟨distinct, below, free, isText⟩ : rearranged.isDistinct = true ∧
      rearranged.isBelow 16 = true ∧ (rearranged.clone 16).2 ≤ 28 ∧
      ((printTree rearranged.node none none).toOption.map Printed.code ==
        some (Text.ofString "c;\nif (1) \x7b\n  b; // kept\n  d; // kept\n  c;\n\x7d\n")) =
          true := by
    decide +kernel
  obtain ⟨_, printed, _, again⟩ :=
    clone_prints_alike rearranged_obtained distinct below free none none
  rw [printed]
  exact ⟨beq_iff_eq.mp isText, again.trans printed⟩

end Object

end ScriptFold
