/-
Edits as data, and runs of them.

A user changes a flow, a command or a project by one edit after another.  An edit that is refused
leaves everything as it was, so every edit leads from a state to a state, and a run is a list of
edits.  What holds of every state that a run can lead to is proved by saying what one edit keeps.
-/
import CommandFlow.Project

namespace CommandFlow

/-- The state that a request leads to. One that is refused changes nothing. -/
def orUnchanged {σ α ε : Type} (before : σ) (after : α → σ) : Except ε α → σ
  | .ok a => after a
  | .error _ => before

/-- The reason for which a request is refused. -/
def errorOf? {α ε : Type} : Except ε α → Option ε
  | .ok _ => none
  | .error e => some e

theorem errorOf?_eq_some_iff {α ε : Type} {r : Except ε α} {e : ε} :
    errorOf? r = some e ↔ r = .error e := by
  cases r with
  | ok a => simp [errorOf?]
  | error e' => simp [errorOf?]

theorem orUnchanged_of_errorOf? {σ α ε : Type} {before : σ} {after : α → σ} {r : Except ε α}
    {e : ε} (h : errorOf? r = some e) : orUnchanged before after r = before := by
  rw [errorOf?_eq_some_iff.1 h]
  rfl

/-! ### Flows -/

/-- One change of a flow. -/
inductive Flow.Edit where
  /-- Places a node of any type, whether a catalog lists it or not. -/
  | addNode (type : NodeType) (position : Position) (uid : String)
  | addNodeById (typeId : String) (position : Position) (uid : String)
  | moveNode (node : Handle) (position : Position)
  | setLiteral (node : Handle) (key : String) (value : Json)
  | clearLiteral (node : Handle) (key : String)
  | removeRelated (node : Handle)
  | removeNodes (nodes : List Handle)
  | connect (link : Link)
  | revalidate (selected : Connection → Bool)
  | rebind (catalog : Catalog)

/-- The flow after an edit. -/
def Flow.apply (f : Flow) : Flow.Edit → Flow
  | .addNode type position uid => (f.addNode type position uid).2
  | .addNodeById typeId position uid => orUnchanged f (·.2) (f.addNodeById typeId position uid)
  | .moveNode node position => orUnchanged f id (f.moveNode node position)
  | .setLiteral node key value => orUnchanged f (·.2) (f.setLiteral node key value)
  | .clearLiteral node key => orUnchanged f (·.2) (f.clearLiteral node key)
  | .removeRelated node => (f.removeRelated node).2
  | .removeNodes nodes => (f.removeNodes nodes).flow
  | .connect link => orUnchanged f (·.2) (f.connect link)
  | .revalidate selected => (f.revalidate selected).2
  | .rebind catalog => (f.rebind catalog).2

/-! ### Commands -/

/-- One change of a command. -/
inductive Command.Edit where
  | addOption (option : CommandOption)
  | removeOption (name : String)
  | updateOption (name : String) (option : CommandOption)
  /-- A change of the command's flow. -/
  | flow (edit : Flow.Edit)

/-- The command after an edit. -/
def Command.apply (c : Command) : Command.Edit → Command
  | .addOption option => orUnchanged c (·.2) (c.addOption option)
  | .removeOption name => orUnchanged c (·.command) (c.removeOption name)
  | .updateOption name option => orUnchanged c (·.2) (c.updateOption name option)
  | .flow edit => { c with flow := c.flow.apply edit }

/-! ### Projects -/

/-- One change of a project. -/
inductive Project.Edit where
  | createCommand (name description uid : String)
  /-- Adds a command that was made elsewhere. -/
  | addCommand (command : Command)
  | deleteCommand (uid : String)
  | setEditing (uid : Option String)
  | addNode (typeId : String) (position : Position) (uid : String)
  | removeNodes (nodes : List Handle)
  /-- A change of the first command with a uid. -/
  | command (uid : String) (edit : Command.Edit)
  | publish (catalog : Catalog)

/-- The project after an edit. -/
def Project.apply (p : Project) : Project.Edit → Project
  | .createCommand name description uid => p.createCommand name description uid
  | .addCommand command => p.addCommand command
  | .deleteCommand uid => orUnchanged p (·.2) (p.deleteCommand uid)
  | .setEditing uid => orUnchanged p id (p.setEditing uid)
  | .addNode typeId position uid => orUnchanged p (·.2) (p.addNode typeId position uid)
  | .removeNodes nodes => orUnchanged p (·.2) (p.removeNodes nodes)
  | .command uid edit => p.updateCommand uid (·.apply edit)
  | .publish catalog => (p.publish catalog).2

/-! ### Runs -/

/-- Whether each edit of a run is allowed in the state that it meets. -/
def Allowed {σ ε : Type} (apply : σ → ε → σ) (allowed : σ → ε → Prop) : σ → List ε → Prop
  | _, [] => True
  | s, e :: rest => allowed s e ∧ Allowed apply allowed (apply s e) rest

instance Allowed.decidable {σ ε : Type} {apply : σ → ε → σ} {allowed : σ → ε → Prop}
    [∀ s e, Decidable (allowed s e)] : ∀ s edits, Decidable (Allowed apply allowed s edits)
  | _, [] => .isTrue trivial
  | s, e :: rest => @instDecidableAnd _ _ _ (Allowed.decidable (apply s e) rest)

/-- What every allowed edit keeps, a run of allowed edits keeps. -/
theorem Allowed.foldl {σ ε : Type} {apply : σ → ε → σ} {allowed : σ → ε → Prop} {Inv : σ → Prop}
    (hstep : ∀ s e, Inv s → allowed s e → Inv (apply s e)) :
    ∀ {edits : List ε} {s : σ}, Allowed apply allowed s edits → Inv s →
      Inv (edits.foldl apply s) := by
  intro edits
  induction edits with
  | nil => intro s _ h; exact h
  | cons e rest ih =>
      intro s hall h
      exact ih hall.2 (hstep s e h hall.1)

/-- Where allowed edits keep what makes a state good, and any other edit leaves a state that is not
good, every state of a run is good exactly if all its edits are allowed.  Both need to be known of
the kind of edits that the run is made of. -/
theorem Allowed.iff_throughout_of_forall {σ ε : Type} {apply : σ → ε → σ} {allowed : σ → ε → Prop}
    {P : ε → Prop} {I G : σ → Prop} (hgood : ∀ s, I s → G s)
    (hstep : ∀ s e, P e → I s → allowed s e → I (apply s e))
    (hbreak : ∀ s e, P e → I s → ¬allowed s e → ¬G (apply s e)) :
    ∀ {edits : List ε} {s : σ}, (∀ e ∈ edits, P e) → I s →
      ((∀ done, done <+: edits → G (done.foldl apply s)) ↔ Allowed apply allowed s edits) := by
  intro edits
  induction edits with
  | nil =>
      intro s _ h
      refine ⟨fun _ => trivial, ?_⟩
      intro _ done hdone
      rw [List.prefix_nil.1 hdone]
      exact hgood s h
  | cons e rest ih =>
      intro s hedits h
      obtain ⟨hkind, hrest⟩ := List.forall_mem_cons.1 hedits
      by_cases he : allowed s e
      · rw [Allowed, ← ih hrest (hstep s e hkind h he)]
        constructor
        · intro hall
          refine ⟨he, fun done hdone => ?_⟩
          exact hall (e :: done) ((List.cons_prefix_cons).2 ⟨rfl, hdone⟩)
        · rintro ⟨-, hall⟩ done hdone
          rcases List.prefix_cons_iff.1 hdone with rfl | ⟨done', rfl, hdone'⟩
          · exact hgood s h
          · exact hall done' hdone'
      · -- The first edit leaves a state that is not good, so neither side holds.
        refine iff_of_false ?_ fun hall => he hall.1
        intro hall
        exact hbreak s e hkind h he (hall [e] (List.prefix_append [e] rest))

theorem Allowed.iff_throughout {σ ε : Type} {apply : σ → ε → σ} {allowed : σ → ε → Prop}
    {I G : σ → Prop} (hgood : ∀ s, I s → G s)
    (hstep : ∀ s e, I s → allowed s e → I (apply s e))
    (hbreak : ∀ s e, I s → ¬allowed s e → ¬G (apply s e)) {edits : List ε} {s : σ} (h : I s) :
    (∀ done, done <+: edits → G (done.foldl apply s)) ↔ Allowed apply allowed s edits :=
  iff_throughout_of_forall (P := fun _ => True) hgood (fun s e _ => hstep s e)
    (fun s e _ => hbreak s e) (fun _ _ => trivial) h

end CommandFlow
