import ScriptFold.Proofs.Printer.Recording
import ScriptFold.Proofs.Reading.Places
import ScriptFold.Proofs.Text.Position

/-!
# Mappings are real positions, in order

The line and column of a page are where its text ends, whatever is written.  So a mapping
names the end of a beginning of the printed text, and later ones name no earlier ends.  Only
offsets of the script are recorded, and they lie inside of it; a tree all of whose places lie
in fragments leaves no mapping.
-/

namespace ScriptFold

/-- A mapping from the end of a beginning of the code to an offset inside of the source. -/
def Mapping.IsReal (source code : Text) (mapping : Mapping) : Prop :=
  ∃ (lead : Text) (offset : Nat), lead <+: code ∧ offset < source.length ∧
    mapping = ⟨lead.reached.1, lead.reached.2, (Text.reached (source.take offset)).1,
      (Text.reached (source.take offset)).2⟩

/-- The order of the generated positions of mappings. -/
def Mapping.NotAfter (first second : Mapping) : Prop :=
  first.generatedLine < second.generatedLine ∨
    (first.generatedLine = second.generatedLine ∧ first.generatedColumn ≤ second.generatedColumn)

theorem Mapping.IsReal.mono {source code more : Text} {mapping : Mapping}
    (real : mapping.IsReal source code) (longer : code <+: more) : mapping.IsReal source more := by
  obtain ⟨lead, offset, begins, inside, rfl⟩ := real
  exact ⟨lead, offset, begins.trans longer, inside, rfl⟩

namespace Page

variable {source : Text} {page : Page}

/-- A page whose position is where its text ends, and whose mappings are real and in order;
the last one comes first. -/
structure Tracks (source : Text) (page : Page) : Prop where
  position : (page.line, page.column) = page.text.reached
  real : ∀ mapping, mapping ∈ page.mappings → mapping.IsReal source page.text
  ordered : page.mappings.Pairwise fun later earlier => earlier.NotAfter later

theorem tracks_empty (source : Text) : ({} : Page).Tracks source :=
  ⟨rfl, by simp, .nil⟩

theorem mappings_put (page : Page) (point : CodePoint) :
    (page.put point).mappings = page.mappings := by
  unfold put
  split <;> rfl

theorem position_put (page : Page) (point : CodePoint) :
    ((page.put point).line, (page.put point).column) =
      Text.stepOver (page.line, page.column) point := by
  unfold put Text.stepOver
  split <;> rfl

theorem Tracks.put (tracks : page.Tracks source) (point : CodePoint) :
    (page.put point).Tracks source := by
  constructor
  · rw [position_put, tracks.position, text_put, Text.reached_append]
    rfl
  · intro mapping there
    rw [mappings_put] at there
    rw [text_put]
    exact (tracks.real mapping there).mono (List.prefix_append _ _)
  · rw [mappings_put]
    exact tracks.ordered

/-- What is kept by every code point is kept by every text. -/
theorem write_induction {invariant : Page → Prop}
    (puts : ∀ page, invariant page → ∀ point, invariant (page.put point)) {page : Page}
    (is : invariant page) (text : Text) : invariant (page.write text) := by
  have folds : ∀ (text : Text) page, invariant page → invariant (text.foldl Page.put page) := by
    intro text
    induction text with
    | nil => exact fun _ is => is
    | cons point rest induction => exact fun page is => induction _ (puts page is point)
  cases text with
  | nil => exact is
  | cons first rest =>
      rw [write_cons]
      apply folds
      unfold before
      split
      · exact is
      · split
        · exact puts page is _
        · exact is

/-- A mapping that is recorded at the end of a page is real and the last one. -/
theorem Tracks.map (tracks : page.Tracks source) {offset : Nat} (inside : offset < source.length) :
    (page.map (Text.reached (source.take offset)).1
      (Text.reached (source.take offset)).2).Tracks source := by
  have isLine : page.line = page.text.reached.1 := congrArg Prod.fst tracks.position
  have isColumn : page.column = page.text.reached.2 := congrArg Prod.snd tracks.position
  constructor
  · exact tracks.position
  · intro mapping there
    rcases List.mem_cons.mp there with rfl | there
    · exact ⟨page.text, offset, List.prefix_refl _, inside, by rw [isLine, isColumn]⟩
    · exact tracks.real mapping there
  · apply List.Pairwise.cons _ tracks.ordered
    intro earlier there
    obtain ⟨lead, _, begins, _, rfl⟩ := tracks.real earlier there
    have notAfter := Text.notAfter_of_prefix begins
    unfold Text.NotAfter at notAfter
    unfold Mapping.NotAfter
    rw [isLine, isColumn]
    dsimp only
    omega

end Page

namespace Printer

/-- A step that keeps a property of pages. -/
def Kept (starts : Option (List Nat)) (invariant : Page → Prop) {α : Type} (step : Print α) : Prop :=
  ∀ page value after, invariant page → (step.run starts).run page = .ok (value, after) →
    invariant after

namespace Kept

variable {starts : Option (List Nat)} {invariant : Page → Prop} {α β : Type} {source : Source}

theorem pure (value : α) : Kept starts invariant (Pure.pure value : Print α) := by
  intro page result after is ran
  cases ran
  exact is

theorem throw (failure : Failure) :
    Kept starts invariant (MonadExcept.throw failure : Print α) := by
  intro page result after is ran
  cases ran

theorem bind {step : Print β} {next : β → Print α} (begins : Kept starts invariant step)
    (ends : ∀ value, Kept starts invariant (next value)) :
    Kept starts invariant (step >>= next) := by
  intro page result after is ran
  simp only [ReaderT.run_bind, StateT.run_bind] at ran
  obtain ⟨⟨value, middle⟩, first, ran⟩ := Calculation.of_bind_eq_ok ran
  exact ends value middle result after (begins page value middle is first) ran

theorem ite {condition : Prop} [Decidable condition] {first second : Print α}
    (whenTrue : condition → Kept starts invariant first)
    (whenFalse : ¬condition → Kept starts invariant second) :
    Kept starts invariant (if condition then first else second) := by
  by_cases is : condition
  · rw [if_pos is]
    exact whenTrue is
  · rw [if_neg is]
    exact whenFalse is

theorem write (writes : ∀ page text, invariant page → invariant (page.write text)) (text : Text) :
    Kept starts invariant (Printer.write text) := by
  intro page result after is ran
  cases ran
  exact writes page text is

theorem currentIndent : Kept starts invariant Printer.currentIndent := by
  intro page result after is ran
  cases ran
  exact is

/-- Nothing is recorded of a fragment. -/
theorem record_fragment (isFragment : source.role = .fragment) (offset : Nat) :
    Kept starts invariant (Printer.record source offset) := by
  intro page result after is ran
  unfold Printer.record at ran
  rw [isFragment] at ran
  cases starts <;> cases ran <;> exact is

theorem record_script {lineStarts : List Nat} {offset : Nat}
    (maps : ∀ page, invariant page → invariant
      (page.map (Text.positionFrom offset 0 0 lineStarts).1
        (Text.positionFrom offset 0 0 lineStarts).2)) :
    Kept (some lineStarts) invariant (Printer.record source offset) := by
  cases role : source.role with
  | fragment => exact record_fragment role offset
  | script =>
      intro page result after is ran
      have turns : Turns (some lineStarts) (Printer.record source offset) page
          (page.map (Text.positionFrom offset 0 0 lineStarts).1
            (Text.positionFrom offset 0 0 lineStarts).2) := .record role offset rfl
      rw [Turns] at turns
      rw [turns] at ran
      cases ran
      exact maps page is

variable (writes : ∀ page text, invariant page → invariant (page.write text))
  (records : ∀ offset, offset < source.text.length →
    Kept starts invariant (Printer.record source offset))

include writes records

theorem writeLine {offset : Nat} {line : Text}
    (inside : ∀ index, index < line.length → offset + index < source.text.length) :
    Kept starts invariant (Printer.writeLine source offset line) := by
  apply ite
  · intro within
    apply bind (write writes _)
    intro _
    apply bind (records _ (inside _ within))
    exact fun _ => write writes _
  · exact fun _ => write writes line

theorem writeLines {isFirst : Bool} {offset : Nat} {lines : List Text}
    (inside : ∀ index, index < (Text.join [.char '\n'] lines).length →
      offset + index < source.text.length) :
    Kept starts invariant (Printer.writeLines source isFirst offset lines) := by
  induction lines generalizing isFirst offset with
  | nil => exact pure ()
  | cons line rest induction =>
      have lineInside : ∀ index, index < line.length → offset + index < source.text.length := by
        intro index within
        apply inside
        cases rest with
        | nil => exact within
        | cons second others =>
            rw [Text.join_cons (List.cons_ne_nil second others), List.length_append,
              List.length_append]
            omega
      have ends : Kept starts invariant (do
          Printer.writeLine source offset line
          Printer.writeLines source false (offset + line.length + 1) rest) := by
        apply bind (writeLine writes records lineInside)
        intro _
        cases rest with
        | nil => exact pure ()
        | cons second others =>
            apply induction
            intro index within
            have further := inside (line.length + 1 + index) (by
              rw [Text.join_cons (List.cons_ne_nil second others), List.length_append,
                List.length_append, List.length_singleton]
              omega)
            omega
      apply ite
      · exact fun _ => bind (write writes _) fun _ => ends
      · exact fun _ => ends

/-- Copying keeps what writing and recording inside of the source keep. -/
theorem copy (start stop : Nat) : Kept starts invariant (Printer.copy source start stop) := by
  apply ite
  · exact fun _ => pure ()
  intro _
  have reads : Kept starts invariant (read : Print (Option (List Nat))) := by
    intro page result after is ran
    cases ran
    exact is
  apply bind reads
  intro known
  apply ite
  · intro _
    apply writeLines writes records
    intro index within
    rw [Text.join_splitAt, Text.slice, List.length_take, List.length_drop] at within
    omega
  · exact fun _ => write writes _

end Kept

theorem mappings_write {mappings : List Mapping} (page : Page) (text : Text)
    (same : page.mappings = mappings) : (page.write text).mappings = mappings :=
  Page.write_induction (fun page same point => (Page.mappings_put page point).trans same) same text

theorem tracks_write {source : Text} (page : Page) (text : Text) (tracks : page.Tracks source) :
    (page.write text).Tracks source :=
  Page.write_induction (fun _ tracks point => tracks.put point) tracks text

/-- An offset inside of a script is recorded as its position. -/
theorem record_tracks {source : Source} {offset : Nat} (inside : offset < source.text.length) :
    Kept (some (source.text.lineStarts 0)) (Page.Tracks source.text)
      (Printer.record source offset) := by
  apply Kept.record_script
  intro page tracks
  rw [Text.positionFrom_eq_reached (Nat.le_of_lt inside)]
  exact tracks.map inside

/-- Printing what was read from a script and from fragments. -/
def tracking (source : Source) : Discipline where
  holds step := Kept (some (source.text.lineStarts 0)) (Page.Tracks source.text) step
  fits place := source.Holds place ∨ place.source.role = .fragment
  pure := .pure
  throw := .throw
  bind := .bind
  write := .write tracks_write
  currentIndent := .currentIndent
  record := by
    rintro place (⟨isSource, inside⟩ | isFragment)
    · rw [isSource]
      exact record_tracks inside
    · exact .record_fragment isFragment _
  copy := by
    rintro place start stop (⟨isSource, _⟩ | isFragment)
    · rw [isSource]
      exact .copy tracks_write (fun _ => record_tracks) start stop
    · exact .copy tracks_write (fun offset _ => .record_fragment isFragment offset) start stop

/-- A step that leaves the mappings alone, with and without a map. -/
def LeavesMappings {α : Type} (step : Print α) : Prop :=
  ∀ starts page value after, (step.run starts).run page = .ok (value, after) →
    after.mappings = page.mappings

theorem leavesMappings_iff {α : Type} {step : Print α} :
    LeavesMappings step ↔ ∀ starts mappings, Kept starts (·.mappings = mappings) step := by
  constructor
  · intro leaves starts mappings page value after same ran
    exact (leaves starts page value after ran).trans same
  · intro kept starts page value after ran
    exact kept starts page.mappings page value after rfl ran

/-- Printing what was read from fragments. -/
def unrecorded : Discipline where
  holds := LeavesMappings
  fits place := place.source.role = .fragment
  pure value := leavesMappings_iff.mpr fun _ _ => .pure value
  throw failure := leavesMappings_iff.mpr fun _ _ => .throw failure
  bind begins ends := by
    rw [leavesMappings_iff] at *
    exact fun starts mappings => .bind (begins starts mappings) fun value =>
      leavesMappings_iff.mp (ends value) starts mappings
  write text := leavesMappings_iff.mpr fun _ _ => .write mappings_write text
  currentIndent := leavesMappings_iff.mpr fun _ _ => .currentIndent
  record _ isFragment := leavesMappings_iff.mpr fun _ _ => .record_fragment isFragment _
  copy _ start stop isFragment := leavesMappings_iff.mpr fun _ _ =>
    .copy mappings_write (fun offset _ => .record_fragment isFragment offset) start stop

/-- No offset and no stretch of a fragment leaves a mapping. -/
theorem fragment_leavesMappings {source : Source} (isFragment : source.role = .fragment) :
    (∀ offset, LeavesMappings (record source offset)) ∧
      ∀ start stop, LeavesMappings (copy source start stop) := by
  constructor
  · exact fun offset => leavesMappings_iff.mpr fun _ _ => .record_fragment isFragment offset
  · intro start stop
    apply leavesMappings_iff.mpr
    exact fun _ _ => .copy mappings_write (fun offset _ => .record_fragment isFragment offset) start stop

end Printer

end ScriptFold

/-!
## The stretches that are copied

A tree is printed by steps that write text, and some of them copy a stretch of a source.  Which
stretches a run copies is read off how its steps are put together, with the page before and the
page after each of them.  What is shown of a copy on any page so holds of every copy in a run:
the page before it has its position where its text ends, and what the copy writes and records
stays on the page that the run ends with.
-/

namespace ScriptFold

namespace Page

variable {page : Page}

/-- The position of a page is where its text ends. -/
def Located (page : Page) : Prop :=
  (page.line, page.column) = page.text.reached

theorem Located.put (located : page.Located) (point : CodePoint) : (page.put point).Located := by
  rw [Located, position_put, located, text_put, Text.reached_append]
  rfl

theorem Located.write (located : page.Located) (text : Text) : (page.write text).Located :=
  write_induction (fun _ located point => located.put point) located text

theorem Located.map (located : page.Located) {line column : Nat} : (page.map line column).Located :=
  located

end Page

namespace Printer

/-- A stretch of a source that is copied, with the page before and after. -/
structure Stretch where
  source : Source
  start : Nat
  stop : Nat
  page : Page
  after : Page

/-- The stretches that a step copies on its way from a page to another, in order. -/
inductive Copies (starts : Option (List Nat)) :
    {α : Type} → Print α → Page → α → Page → List Stretch → Prop
  | pure {α : Type} (value : α) (page : Page) : Copies starts (Pure.pure value) page value page []
  | bind {α β : Type} {step : Print β} {next : β → Print α} {page middle after : Page} {value : β}
      {result : α} {first second : List Stretch}
      (begins : Copies starts step page value middle first)
      (ends : Copies starts (next value) middle result after second) :
      Copies starts (step >>= next) page result after (first ++ second)
  | write (text : Text) (page : Page) :
      Copies starts (Printer.write text) page () (page.write text) []
  | currentIndent (page : Page) : Copies starts Printer.currentIndent page page.indent page []
  | record {source : Source} {offset : Nat} {page after : Page}
      (turns : Turns starts (Printer.record source offset) page after) :
      Copies starts (Printer.record source offset) page () after []
  | copy {source : Source} {start stop : Nat} {page after : Page}
      (turns : Turns starts (Printer.copy source start stop) page after) :
      Copies starts (Printer.copy source start stop) page () after
        [⟨source, start, stop, page, after⟩]

namespace Copies

variable {starts : Option (List Nat)} {α β : Type} {step : Print β} {next : β → Print α}
  {page middle after : Page} {value : β} {result : α} {stretches : List Stretch}

/-- A step that copies nothing, and another one. -/
theorem andThen (begins : Copies starts step page value middle [])
    (ends : Copies starts (next value) middle result after stretches) :
    Copies starts (step >>= next) page result after stretches :=
  .bind begins ends

/-- A step, and another one that copies nothing. -/
theorem andNothing (begins : Copies starts step page value middle stretches)
    (ends : Copies starts (next value) middle result after []) :
    Copies starts (step >>= next) page result after stretches := by
  have copies := Copies.bind begins ends
  rwa [List.append_nil] at copies

end Copies

/-- A step that copies stretches on the way is run. -/
theorem Copies.runs {starts : Option (List Nat)} {α : Type} {step : Print α} {page after : Page}
    {value : α} {stretches : List Stretch}
    (copies : Copies starts step page value after stretches) :
    (step.run starts).run page = .ok (value, after) := by
  induction copies with
  | pure value page => rfl
  | bind _ _ begins ends =>
      simp only [ReaderT.run_bind, StateT.run_bind]
      rw [begins]
      exact ends
  | write text page => rfl
  | currentIndent page => rfl
  | record turns => exact turns
  | copy turns => exact turns

/-- Every step that succeeds copies some stretches. -/
def copying : Discipline where
  holds step := ∀ starts page value after, (step.run starts).run page = .ok (value, after) →
    ∃ stretches, Copies starts step page value after stretches
  fits _ := True
  pure value := by
    intro starts page result after ran
    cases ran
    exact ⟨[], .pure value page⟩
  throw _ := by
    intro starts page result after ran
    cases ran
  bind begins ends := by
    intro starts page result after ran
    simp only [ReaderT.run_bind, StateT.run_bind] at ran
    obtain ⟨⟨value, middle⟩, first, ran⟩ := Calculation.of_bind_eq_ok ran
    obtain ⟨before, copies⟩ := begins starts page value middle first
    obtain ⟨behind, copiesBehind⟩ := ends value starts middle result after ran
    exact ⟨before ++ behind, .bind copies copiesBehind⟩
  write text := by
    intro starts page result after ran
    cases ran
    exact ⟨[], .write text page⟩
  currentIndent := by
    intro starts page result after ran
    cases ran
    exact ⟨[], .currentIndent page⟩
  record _ _ := by
    intro starts page result after ran
    exact ⟨[], .record ran⟩
  copy place start stop _ := by
    intro starts page result after ran
    exact ⟨_, .copy ran⟩

/-- What a step does to a page: it writes more text and records more mappings, and the position
stays where the text ends. -/
structure Goes (page after : Page) : Prop where
  located : page.Located → after.Located
  text : page.text <+: after.text
  mappings : page.mappings <:+ after.mappings

theorem Goes.refl (page : Page) : Goes page page :=
  ⟨id, List.prefix_refl _, List.suffix_refl _⟩

theorem Goes.trans {page middle after : Page} (begins : Goes page middle)
    (ends : Goes middle after) : Goes page after :=
  ⟨ends.located ∘ begins.located, begins.text.trans ends.text,
    begins.mappings.trans ends.mappings⟩

private theorem goes_put (page : Page) (point : CodePoint) : Goes page (page.put point) where
  located located := located.put point
  text := by
    rw [Page.text_put]
    exact List.prefix_append _ _
  mappings := (Page.mappings_put page point).symm ▸ List.suffix_refl _

theorem goes_write (page : Page) (text : Text) : Goes page (page.write text) :=
  Page.write_induction (fun middle goes point => goes.trans (goes_put middle point))
    (.refl page) text

theorem kept_goes_record (starts : Option (List Nat)) (page : Page) (source : Source)
    (offset : Nat) : Kept starts (Goes page) (Printer.record source offset) := by
  cases starts with
  | none =>
      intro middle value after goes ran
      cases ran
      exact goes
  | some lineStarts =>
      apply Kept.record_script
      intro middle goes
      exact ⟨goes.located, goes.text, goes.mappings.trans (List.suffix_cons _ _)⟩

/-- Each stretch that is copied on the way is copied on a page whose position is where its text
ends, and what has been copied and recorded stays. -/
theorem Copies.goes {starts : Option (List Nat)} {α : Type} {step : Print α} {page after : Page}
    {value : α} {stretches : List Stretch} (copies : Copies starts step page value after stretches)
    (located : page.Located) :
    Goes page after ∧ ∀ stretch, stretch ∈ stretches →
      stretch.page.Located ∧ Goes stretch.after after ∧
        Turns starts (Printer.copy stretch.source stretch.start stretch.stop) stretch.page
          stretch.after := by
  induction copies with
  | pure value page => exact ⟨.refl page, by simp⟩
  | bind _ _ begins ends =>
      obtain ⟨goes, first⟩ := begins located
      obtain ⟨goesOn, second⟩ := ends (goes.located located)
      refine ⟨goes.trans goesOn, ?_⟩
      intro stretch there
      rcases List.mem_append.mp there with there | there
      · obtain ⟨isLocated, stays, turns⟩ := first stretch there
        exact ⟨isLocated, stays.trans goesOn, turns⟩
      · exact second stretch there
  | write text page => exact ⟨goes_write page text, by simp⟩
  | currentIndent page => exact ⟨.refl page, by simp⟩
  | @record source offset page after turns =>
      exact ⟨kept_goes_record starts page source offset page () after (.refl page) turns, by simp⟩
  | @copy source start stop page after turns =>
      have goes : Goes page after := by
        apply Kept.copy _ _ start stop page () after (.refl page) turns
        · exact fun middle text goes => goes.trans (goes_write middle text)
        · exact fun offset _ => kept_goes_record starts page source offset
      refine ⟨goes, ?_⟩
      intro stretch there
      rw [List.mem_singleton] at there
      rw [there]
      exact ⟨located, .refl after, turns⟩

end Printer

end ScriptFold
