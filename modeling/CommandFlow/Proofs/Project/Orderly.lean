/-
What holds of every project that is edited as users edit it.

Users create and delete commands, edit their options, place nodes by type id under fresh uids, edit
and connect nodes, and publish catalogs that list none of the options' type ids.  Throughout, every
command is orderly and over the project's catalog, and no two nodes of a flow share a uid.
-/
import CommandFlow.Proofs.Command.Settled
import CommandFlow.Proofs.Project.Origin

namespace CommandFlow

/-! ### Uids and catalogs under edits of flows and commands -/

namespace Flow

/-- The uids of the nodes, in order. -/
def uids (f : Flow) : List String :=
  f.nodes.map (·.uid)

/-- The uid that an edit gives to a node. -/
def Edit.newUid? : Edit → Option String
  | .addNode _ _ uid => some uid
  | .addNodeById _ _ uid => some uid
  | _ => none

theorem nodup_uids_addNode {f : Flow} (h : f.uids.Nodup) {uid : String} (hfresh : uid ∉ f.uids)
    (type : NodeType) (position : Position) : (f.addNode type position uid).2.uids.Nodup := by
  have happend : (f.addNode type position uid).2.uids = f.uids ++ [uid] := List.map_append
  rw [happend, List.nodup_append]
  refine ⟨h, List.nodup_singleton uid, ?_⟩
  intro a ha b hb hab
  rw [List.mem_singleton] at hb
  rw [hab, hb] at ha
  exact hfresh ha

theorem nodup_uids_updateNode {f : Flow} (h : f.uids.Nodup) {k : Handle} {change : Node → Node}
    (huid : ∀ n, (change n).uid = n.uid) : (f.updateNode k change).uids.Nodup := by
  have hsame : (f.updateNode k change).uids = f.uids := map_updateFirst huid
  rw [hsame]
  exact h

theorem Effect.nodup_uids {f g : Flow} {e : Edit} (he : f.Effect e g) (h : f.uids.Nodup)
    (hfresh : ∀ uid, e.newUid? = some uid → uid ∉ f.uids) : g.uids.Nodup := by
  cases he with
  | refused => exact h
  | added type position uid => exact nodup_uids_addNode h (hfresh uid rfl) type position
  | addedById position uid _ => exact nodup_uids_addNode h (hfresh uid rfl) _ position
  | moved _ _ => exact nodup_uids_updateNode h fun _ => rfl
  | literalSet _ _ _ => exact nodup_uids_updateNode h fun _ => rfl
  | literalCleared _ _ => exact nodup_uids_updateNode h fun _ => rfl
  | cut _ => exact h
  | removed _ => exact h.sublist (List.filter_sublist.map _)
  | disconnected _ => exact h
  | connected _ _ => exact h
  | revalidated _ => exact h
  | rebound catalog =>
      have hsame : (f.rebind catalog).2.uids = f.uids := List.map_map
      rw [hsame]
      exact h

theorem Effect.catalog_eq {f g : Flow} {e : Edit} (he : f.Effect e g)
    (hne : ∀ catalog, e ≠ .rebind catalog) : g.catalog = f.catalog := by
  cases he with
  | rebound catalog => exact absurd rfl (hne catalog)
  | _ => rfl

end Flow

namespace Command

/-- The uid that an edit gives to a node. -/
def Edit.newUid? : Edit → Option String
  | .flow e => e.newUid?
  | _ => none

theorem Effect.nodup_uids {c c' : Command} {e : Edit} (he : c.Effect e c') (h : c.flow.uids.Nodup)
    (hfresh : ∀ uid, e.newUid? = some uid → uid ∉ c.flow.uids) : c'.flow.uids.Nodup := by
  cases he with
  | refused => exact h
  | optionAdded _ _ => exact h
  | optionRemoved _ _ => exact h.sublist (List.filter_sublist.map _)
  | @optionUpdated name _ o optionTypes _ _ _ =>
      have hsame : (c.flowWithOption name o optionTypes).uids = c.flow.uids := by
        unfold flowWithOption Flow.retarget Flow.uids
        rw [List.map_map]
        refine List.map_congr_left fun n _ => ?_
        dsimp only [Function.comp]
        split <;> rfl
      show (c.flowWithOption name o optionTypes).uids.Nodup
      rw [hsame]
      exact h
  | flowEdited hflow => exact hflow.nodup_uids h hfresh

theorem Effect.catalog_eq {c c' : Command} {e : Edit} (he : c.Effect e c')
    (hne : ∀ catalog, e ≠ .flow (.rebind catalog)) : c'.flow.catalog = c.flow.catalog := by
  cases he with
  | flowEdited hflow =>
      refine hflow.catalog_eq ?_
      intro catalog heq
      exact hne catalog (congrArg Edit.flow heq)
  | _ => rfl

end Command

/-! ### Projects -/

namespace Project

/-- Whether no node of the project has a uid. -/
def isUnused (p : Project) (uid : String) : Bool :=
  p.commands.all fun c => c.flow.nodes.all (·.uid ≠ uid)

/-- The edits that users make: commands are created in place, nodes are placed by type id under uids
that are not in use, and a catalog that is published is not empty and lists no id of an option. -/
def permits (p : Project) : Edit → Bool
  | .addCommand _ => false
  | .addNode _ _ uid => p.isUnused uid
  | .command _ (.flow (.addNodeById _ _ uid)) => p.isUnused uid
  | .command _ (.flow (.addNode _ _ _)) => false
  | .command _ (.flow (.rebind _)) => false
  | .publish catalog => p.commands.all fun c => c.flow.permits (.rebind catalog)
  | _ => true

/-- What such edits keep. -/
structure Orderly (p : Project) : Prop where
  commands : ∀ c ∈ p.commands, c.Orderly
  /-- Every command is over the catalog of the project. -/
  catalogs : ∀ c ∈ p.commands, c.flow.catalog = p.snapshot
  /-- No two nodes of a flow share a uid. -/
  uids : ∀ c ∈ p.commands, c.flow.uids.Nodup

theorem orderly_new (name : String) (catalog : Catalog) :
    (new name (some catalog)).Orderly where
  commands _ hc := absurd hc List.not_mem_nil
  catalogs _ hc := absurd hc List.not_mem_nil
  uids _ hc := absurd hc List.not_mem_nil

theorem not_mem_uids_of_isUnused {p : Project} {uid : String} (h : p.isUnused uid = true)
    {c : Command} (hc : c ∈ p.commands) : uid ∉ c.flow.uids := by
  intro hmem
  obtain ⟨n, hn, huid⟩ := List.mem_map.1 hmem
  have hne := List.all_eq_true.1 (List.all_eq_true.1 h c hc) n hn
  exact absurd huid (by simpa using hne)

/-- What one command must satisfy in a project over a catalog. -/
def Fine (catalog : Catalog) (c : Command) : Prop :=
  c.Orderly ∧ c.flow.catalog = catalog ∧ c.flow.uids.Nodup

theorem Orderly.fine {p : Project} (h : p.Orderly) {c : Command} (hc : c ∈ p.commands) :
    Fine p.snapshot c :=
  ⟨h.commands c hc, h.catalogs c hc, h.uids c hc⟩

/-- An edit of one command that does not bind it to another catalog. -/
theorem Fine.apply {catalog : Catalog} {c : Command} (h : Fine catalog c) {e : Command.Edit}
    (hpermits : c.permits e = true) (hne : ∀ catalog, e ≠ .flow (.rebind catalog))
    (hfresh : ∀ uid, e.newUid? = some uid → uid ∉ c.flow.uids) : Fine catalog (c.apply e) := by
  obtain ⟨horderly, hcatalog, huids⟩ := h
  have he := Command.effect_apply c e
  refine ⟨horderly.apply hpermits, ?_, he.nodup_uids huids hfresh⟩
  rw [he.catalog_eq hne]
  exact hcatalog

theorem Fine.rebind {catalog new : Catalog} {c : Command} (h : Fine catalog c)
    (hpermits : c.flow.permits (.rebind new) = true) :
    Fine new (c.apply (.flow (.rebind new))) := by
  obtain ⟨horderly, -, huids⟩ := h
  have he := Command.effect_apply c (.flow (.rebind new))
  exact ⟨horderly.apply hpermits, rfl, he.nodup_uids huids fun _ hnone => absurd hnone (by simp
    [Command.Edit.newUid?, Flow.Edit.newUid?])⟩

theorem Orderly.fine_of_origin {p : Project} (h : p.Orderly) {e : Edit}
    (hpermits : p.permits e = true) {d : Command} {catalog : Option Catalog}
    (horigin : p.Origin e d catalog) : Fine (catalog.getD ∅) d := by
  cases horigin with
  | kept _ hc => exact h.fine hc
  | created name description uid =>
      exact ⟨Command.orderly_new name description p.snapshot uid, rfl, List.nodup_nil⟩
  | added c => exact absurd hpermits (by simp [permits])
  | nodePlaced typeId position uid hc =>
      refine (h.fine hc).apply rfl (by simp) ?_
      intro uid' huid
      rw [← Option.some.inj huid]
      exact not_mem_uids_of_isUnused hpermits hc
  | nodesRemoved nodes hc =>
      exact (h.fine hc).apply rfl (by simp) (by simp [Command.Edit.newUid?, Flow.Edit.newUid?])
  | rebound catalog hc => exact (h.fine hc).rebind (List.all_eq_true.1 hpermits _ hc)
  | edited uid ce hc =>
      -- Of the edits of flows only those that place a node use a uid, and those that would leave the
      -- types of nodes to something else are not permitted.
      cases ce with
      | addOption o => exact (h.fine hc).apply rfl (by simp) (by simp [Command.Edit.newUid?])
      | removeOption name => exact (h.fine hc).apply rfl (by simp) (by simp [Command.Edit.newUid?])
      | updateOption name o =>
          exact (h.fine hc).apply rfl (by simp) (by simp [Command.Edit.newUid?])
      | flow fe =>
          cases fe with
          | addNode type position uid => exact absurd hpermits (by simp [permits])
          | rebind catalog => exact absurd hpermits (by simp [permits])
          | addNodeById typeId position uid =>
              refine (h.fine hc).apply rfl (by simp) ?_
              intro uid' huid
              rw [← Option.some.inj huid]
              exact not_mem_uids_of_isUnused hpermits hc
          | _ =>
              exact (h.fine hc).apply rfl (by simp)
                (by simp [Command.Edit.newUid?, Flow.Edit.newUid?])

theorem Orderly.apply {p : Project} (h : p.Orderly) {e : Edit} (hpermits : p.permits e = true) :
    (p.apply e).Orderly := by
  have hfine : ∀ d ∈ (p.apply e).commands, Fine (p.apply e).snapshot d := fun d hd =>
    h.fine_of_origin hpermits (origin_of_mem hd)
  exact ⟨fun d hd => (hfine d hd).1, fun d hd => (hfine d hd).2.1, fun d hd => (hfine d hd).2.2⟩

/-- A run of permitted edits leads to an orderly project. -/
theorem orderly_of_edits {name : String} {catalog : Catalog} {edits : List Edit}
    (h : Allowed apply (fun p e => p.permits e = true) (new name (some catalog)) edits) :
    (edits.foldl apply (new name (some catalog))).Orderly :=
  h.foldl (fun _ _ horderly hpermits => horderly.apply hpermits) (orderly_new name catalog)

end Project

end CommandFlow
