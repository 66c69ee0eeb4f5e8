/-
What was made by edits is loaded without faults.

Loading takes connections as they are saved and checks none of them.  A loaded flow is consistent
all the same if the flow that was saved was made by edits.  Over the same catalogs ids stand for the
same types, so the nodes at the same places have the same types.  Handles are new, but they tell the
same places apart.  What a connection is checked against is therefore the same before and after.
-/
import CommandFlow.Proofs.Saved.Normal

namespace CommandFlow

section

variable {α β : Type} {T : α → β → Prop}

/-- Everything in the second of two lists that correspond comes from something in the first. -/
theorem exists_of_mem_of_forall₂ {as : List α} {bs : List β} (h : List.Forall₂ T as bs) {b : β}
    (hb : b ∈ bs) : ∃ a ∈ as, T a b := by
  induction h with
  | nil => exact absurd hb List.not_mem_nil
  | @cons a _ _ _ hab _ ih =>
      rcases List.mem_cons.1 hb with rfl | hb
      · exact ⟨a, List.mem_cons_self, hab⟩
      · obtain ⟨a', ha', hab'⟩ := ih hb
        exact ⟨a', List.mem_cons_of_mem _ ha', hab'⟩

/-- What holds of any two elements in order holds of those that correspond to them. -/
theorem pairwise_of_forall₂ {R : α → α → Prop} {S : β → β → Prop}
    (hstep : ∀ a a' b b', T a b → T a' b' → R a a' → S b b') {as : List α} {bs : List β}
    (h : List.Forall₂ T as bs) (hpairwise : as.Pairwise R) : bs.Pairwise S := by
  induction h with
  | nil => exact .nil
  | @cons a b _ _ hab hrest ih =>
      obtain ⟨hhead, htail⟩ := List.pairwise_cons.1 hpairwise
      refine List.pairwise_cons.2 ⟨?_, ih htail⟩
      intro b' hb'
      obtain ⟨a', ha', hab'⟩ := exists_of_mem_of_forall₂ hrest hb'
      exact hstep a a' b b' hab hab' (hhead a' ha')

end

namespace Flow

variable {f g : Flow}

/-! ### Ports at the same places -/

section

variable {p p' q q' : Endpoint}

theorem SamePort.typeAt?_eq (htypes : f.nodes.map (·.type) = g.nodes.map (·.type))
    (h : f.SamePort g p q) : g.typeAt? q.node = f.typeAt? p.node := by
  obtain ⟨-, i, m, n, hm, hmi, hn, hni⟩ := h
  have htype : m.type = n.type := by
    have := congrArg (·[i]?) htypes
    simpa [hmi, hni] using this
  rw [typeAt?, typeAt?, hm, hn, Option.map_some, Option.map_some, htype]

theorem SamePort.offered?_eq (htypes : f.nodes.map (·.type) = g.nodes.map (·.type))
    (h : f.SamePort g p q) : g.offered? q = f.offered? p := by
  rw [offered?, offered?, h.typeAt?_eq htypes, h.1]

theorem SamePort.required?_eq (htypes : f.nodes.map (·.type) = g.nodes.map (·.type))
    (h : f.SamePort g p q) : g.required? q = f.required? p := by
  rw [required?, required?, h.typeAt?_eq htypes, h.1]

/-- Ports on one node come from ports on one node. -/
theorem SamePort.node_eq (hnumbered : g.Numbered) (h : f.SamePort g p q) (h' : f.SamePort g p' q')
    (heq : q.node = q'.node) : p.node = p'.node := by
  obtain ⟨-, i, m, n, hm, hmi, hn, hni⟩ := h
  obtain ⟨-, j, m', n', hm', hmj, hn', hnj⟩ := h'
  obtain rfl : n = n' := by
    rw [heq] at hn
    exact Option.some.inj (hn.symm.trans hn')
  -- No two places have a node with the same handle.
  have hplace : g.handles[i]? = g.handles[j]? := by
    rw [handles, List.getElem?_map, List.getElem?_map, hni, hnj]
  have hlt : i < g.handles.length := by
    rw [handles, List.length_map]
    exact (List.getElem?_eq_some_iff.1 hni).1
  obtain rfl : i = j := (List.getElem?_inj hlt hnumbered.nodup).1 hplace
  obtain rfl : m = m' := Option.some.inj (hmi.symm.trans hmj)
  rw [← handle_of_node? hm, ← handle_of_node? hm']

theorem SamePort.eq_of_eq (hnumbered : g.Numbered) (h : f.SamePort g p q) (h' : f.SamePort g p' q')
    (heq : q = q') : p = p' := by
  have hnode : p.node = p'.node := h.node_eq hnumbered h' (congrArg Endpoint.node heq)
  have hkey : p.key = p'.key := by rw [h.1, h'.1, heq]
  cases p
  cases p'
  exact congrArg₂ Endpoint.mk hnode hkey

end

/-! ### Connections between the same places -/

section

variable {c d : Connection}

/-- A connection with both ends corresponds to one with both ends. -/
theorem SameConnection.exists_link (h : f.SameConnection g c d) {link : Link}
    (hlink : c = .ofLink link c.shape) :
    ∃ link', d = .ofLink link' d.shape ∧ f.SamePort g link.source link'.source ∧
      f.SamePort g link.target link'.target := by
  have hsource := h.source
  have htarget := h.target
  rw [hlink] at hsource htarget
  obtain ⟨shape, source, target⟩ := d
  cases hsource with
  | some hsource =>
      cases htarget with
      | some htarget => exact ⟨⟨_, _⟩, rfl, hsource, htarget⟩

/-- A connection that fits corresponds to one that fits. -/
theorem SameConnection.fits (h : f.SameConnection g c d) (hnumbered : g.Numbered)
    (htypes : f.nodes.map (·.type) = g.nodes.map (·.type)) (hfits : f.Fits c) : g.Fits d := by
  obtain ⟨link, hlink, hvalid⟩ := hfits
  obtain ⟨link', hlink', hsource, htarget⟩ := h.exists_link hlink
  obtain ⟨hne, hoffered, required, hrequired, hshape⟩ := validate_eq_ok_iff.1 hvalid
  refine ⟨link', hlink', validate_eq_ok_iff.2 ⟨?_, ?_, required, ?_, ?_⟩⟩
  · intro heq
    exact hne (hsource.node_eq hnumbered htarget heq)
  · rw [hsource.offered?_eq htypes, hoffered, h.shape]
  · rw [htarget.required?_eq htypes, hrequired]
  · rw [← h.shape]
    exact hshape

theorem ends_eq_of_eq (hnumbered : g.Numbered) {p p' q q' : Option Endpoint}
    (h : Option.Rel (f.SamePort g) p q) (h' : Option.Rel (f.SamePort g) p' q') (heq : q = q') :
    p = p' := by
  subst heq
  cases h with
  | none =>
      cases h' with
      | none => rfl
  | some h =>
      cases h' with
      | some h' => rw [h.eq_of_eq hnumbered h' rfl]

end

/-- A flow that has the same nodes and connections as a wired one, up to handles, is wired. -/
theorem Wired.of_alike (h : f.Wired) (hsame : f.Alike g) (hnumbered : g.Numbered)
    (htypes : f.nodes.map (·.type) = g.nodes.map (·.type)) : g.Wired where
  fits d hd := by
    obtain ⟨c, hc, hcd⟩ := exists_of_mem_of_forall₂ hsame.connections hd
    exact hcd.fits hnumbered htypes (h.fits c hc)
  -- Places tell ports apart, so two connections at one port come from two at one port.
  targets := by
    refine pairwise_of_forall₂ ?_ hsame.connections h.targets
    intro c c' d d' hcd hcd' hne heq
    exact hne (ends_eq_of_eq hnumbered hcd.target hcd'.target heq)
  sources := by
    refine pairwise_of_forall₂ ?_ hsame.connections h.sources
    intro c c' d d' hcd hcd' hne hflow hflow' heq
    rw [← hcd.shape] at hflow
    rw [← hcd'.shape] at hflow'
    exact hne hflow hflow' (ends_eq_of_eq hnumbered hcd.source hcd'.source heq)

/-- In a wired flow no connection lacks an end. -/
theorem Wired.pending_eq_nil (h : f.Wired) : f.pending = [] := by
  unfold pending
  rw [List.filterMap_eq_nil_iff]
  rintro ⟨c, index⟩ hc
  obtain ⟨link, hlink, -⟩ := h.fits c (List.fst_mem_of_mem_zipIdx hc)
  have hboth : c.isPending = false := by rw [hlink]; rfl
  simp [hboth]

/-! ### Nodes at the same places -/

/-- Where no id is listed twice, a type that can be placed is the one found under its id. -/
theorem Apart.resolve?_of_mem_available (h : f.Apart) {t : NodeType} (ht : t ∈ f.available) :
    f.resolve? t.id = some t := by
  rcases List.mem_append.1 ht with hshared | hoption
  · exact resolve?_eq_some_iff.2 (Or.inl (Catalog.get?_eq_some_iff.2 ⟨hshared, rfl⟩))
  · have hget : f.optionTypes.get? t.id = some t := Catalog.get?_eq_some_iff.2 ⟨hoption, rfl⟩
    have hlisted : f.optionTypes.contains t.id = true := Catalog.contains_iff_exists.2 ⟨t, hget⟩
    exact resolve?_eq_some_iff.2 (Or.inr ⟨h t.id hlisted, hget⟩)

/-- Where ids stand for the same types, nodes with the same ids have the same types. -/
theorem types_eq_of_settled (hf : f.Settled) (hg : g.Settled)
    (hresolve : ∀ id, g.resolve? id = f.resolve? id)
    (hnodes : f.nodes.map Node.saved = g.nodes.map Node.saved) :
    f.nodes.map (·.type) = g.nodes.map (·.type) := by
  have hids : f.nodes.map Node.typeId = g.nodes.map Node.typeId := by
    have := congrArg (List.map Saved.Node.typeId) hnodes
    simpa [Function.comp_def, Node.saved] using this
  refine List.map_injective_iff.2 (fun _ _ => Option.some.inj) ?_
  calc (f.nodes.map (·.type)).map some
      = (f.nodes.map Node.typeId).map f.resolve? := by
        rw [List.map_map, List.map_map]
        exact List.map_congr_left fun n hn => (hf.resolved n hn).symm
    _ = (g.nodes.map Node.typeId).map g.resolve? := by
        rw [hids]
        exact List.map_congr_left fun id _ => (hresolve id).symm
    _ = (g.nodes.map (·.type)).map some := by
        rw [List.map_map, List.map_map]
        exact List.map_congr_left fun n hn => hg.resolved n hn

end Flow

namespace Loader

theorem numbered_command (l : Loader) (saved : Saved.Command) :
    (l.command saved).flow.Numbered := by
  rw [flow_command]
  exact l.numbered_flow saved.flow _

/-- Whatever was saved, the nodes that are loaded have the types that their ids stand for. -/
theorem settled_command (l : Loader) (saved : Saved.Command) :
    (l.command saved).flow.Settled := by
  obtain ⟨-, hapart, htypes⟩ := l.command_flow saved
  exact ⟨hapart, fun n hn => hapart.resolve?_of_mem_available (htypes n hn)⟩

/-- Over the same catalog, ids stand for the same types before saving and after loading. -/
theorem resolve?_command {l : Loader} {c : Command} (hstep : c.InStep) (hapart : c.flow.Apart)
    (hcatalog : c.flow.catalog = l.catalog) (id : String) :
    (l.command c.saved).flow.resolve? id = c.flow.resolve? id := by
  refine Flow.resolve?_congr ((l.command_flow c.saved).1.trans hcatalog.symm) ?_ id
  rw [Flow.Apart, hcatalog] at hapart
  rw [optionTypes_command, commandOptions_saved hstep hapart]

/-- An orderly command whose flow is loaded as it was saved is orderly again. -/
theorem orderly_command {l : Loader} {c : Command} (h : c.Orderly)
    (hcatalog : c.flow.catalog = l.catalog) (hsame : c.flow.Alike (l.command c.saved).flow) :
    (l.command c.saved).Orderly := by
  have htypes := Flow.types_eq_of_settled h.settled (l.settled_command c.saved)
    (resolve?_command h.inStep h.settled.apart hcatalog) hsame.nodes
  exact {
    inStep := l.inStep_command c.saved
    settled := l.settled_command c.saved
    wired := h.wired.of_alike hsame (l.numbered_command c.saved) htypes
    numbered := l.numbered_command c.saved }

end Loader

namespace Project

/-! ### Projects that keep their catalog -/

/-- Whether an edit puts another catalog in place. -/
def Edit.publishes : Edit → Bool
  | .publish _ => true
  | _ => false

theorem catalog_apply {p : Project} {e : Edit} (h : e.publishes = false) :
    (p.apply e).catalog = p.catalog := by
  cases e with
  | createCommand name description uid => rfl
  | addCommand c => rfl
  | deleteCommand uid =>
      show (orUnchanged p (·.2) (p.deleteCommand uid)).catalog = p.catalog
      unfold deleteCommand
      cases p.command? uid <;> rfl
  | setEditing uid =>
      show (orUnchanged p id (p.setEditing uid)).catalog = p.catalog
      unfold setEditing
      cases uid with
      | none => rfl
      | some u =>
          dsimp only
          cases p.command? u <;> rfl
  | addNode typeId position uid =>
      show (orUnchanged p (·.2) (p.addNode typeId position uid)).catalog = p.catalog
      unfold addNode
      cases p.editing? with
      | none => rfl
      | some c =>
          dsimp only
          cases c.flow.addNodeById typeId position uid <;> rfl
  | removeNodes nodes =>
      show (orUnchanged p (·.2) (p.removeNodes nodes)).catalog = p.catalog
      unfold removeNodes
      cases p.editing? <;> rfl
  | command uid ce => rfl
  | publish catalog => exact absurd h (by simp [Edit.publishes])

end Project

namespace Loader

/--
**What edits make shows no faults when it is saved and loaded.**  Start from a project over any
catalog and edit it as users do, without publishing another catalog.  Loaded with the same catalog
from what is saved, the project has the same commands in order, each with the same nodes and
connections, and in none of their flows is there a violation or a connection that lacks an end.
-/
theorem loaded_commands_show_no_faults (name : String) (catalog : Catalog)
    (edits : List Project.Edit)
    (h : Allowed Project.apply (fun p e => p.permits e = true ∧ e.publishes = false)
      (Project.new name (some catalog)) edits) :
    let p := edits.foldl Project.apply (Project.new name (some catalog))
    List.Forall₂ (fun c d => SameCommand c d ∧ d.flow.violations = [] ∧ d.flow.pending = [])
      p.commands (({ catalog } : Loader).project p.saved).commands := by
  intro p
  have hstep : ∀ (p : Project) (e : Project.Edit), p.Orderly ∧ p.catalog = some catalog →
      p.permits e = true ∧ e.publishes = false →
      (p.apply e).Orderly ∧ (p.apply e).catalog = some catalog := by
    rintro p e ⟨horderly, hcatalog⟩ ⟨hpermits, hkept⟩
    exact ⟨horderly.apply hpermits, (Project.catalog_apply hkept).trans hcatalog⟩
  obtain ⟨horderly, hcatalog⟩ : p.Orderly ∧ p.catalog = some catalog :=
    h.foldl hstep ⟨Project.orderly_new name catalog, rfl⟩
  have hsnapshot : p.snapshot = catalog := by rw [Project.snapshot, hcatalog, Option.getD_some]
  show List.Forall₂ _ p.commands
    ((p.commands.map Command.saved).map ({ catalog } : Loader).command)
  rw [List.map_map, List.forall₂_map_right_iff, List.forall₂_same]
  intro c hc
  have hbound : c.flow.catalog = catalog := (horderly.catalogs c hc).trans hsnapshot
  have hsame : SameCommand c (({ catalog } : Loader).command c.saved) := by
    rw [← hbound]
    exact sameCommand_command (horderly.commands c hc) (horderly.uids c hc)
  have hwired := (orderly_command (horderly.commands c hc) hbound hsame.flow).wired
  exact ⟨hsame, hwired.violations_eq_nil, hwired.pending_eq_nil⟩

/-- A node of an option is connected to two others, the option is renamed, one of the two is removed
again, a second command comes and goes, and the rest is saved and loaded. -/
theorem loaded_renamed_option_shows_no_faults :
    let text : Port := ⟨⟨.text, []⟩, "text"⟩
    let say : NodeType := { id := "say", title := "Say", inputs := .ofList [("text", text)] }
    let catalog : Catalog := Catalog.ofNodup [say] (by decide)
    let origin : Position := ⟨.zero false, .zero false⟩
    let edits : List Project.Edit := [
      .createCommand "ping" "" "c",
      .command "c" (.addOption { name := "x" }),
      .addNode "say" origin "a",
      .addNode (CommandOption.typeIdOf "x") origin "b",
      .addNode "say" origin "d",
      .command "c" (.flow (.connect ⟨⟨⟨1⟩, "value"⟩, ⟨⟨0⟩, "text"⟩⟩)),
      .command "c" (.updateOption "x" { name := "y" }),
      .command "c" (.flow (.connect ⟨⟨⟨1⟩, "value"⟩, ⟨⟨2⟩, "text"⟩⟩)),
      .removeNodes [⟨2⟩],
      .createCommand "pong" "" "e",
      .deleteCommand "e"]
    let start := Project.new "bot" (some catalog)
    let p := edits.foldl Project.apply start
    Allowed Project.apply (fun p e => p.permits e = true ∧ e.publishes = false) start edits ∧
      (p.commands.map fun c => c.flow.connections.length) = [1] ∧
      List.Forall₂ (fun c d => SameCommand c d ∧ d.flow.violations = [] ∧ d.flow.pending = [])
        p.commands (({ catalog } : Loader).project p.saved).commands := by
  intro text say catalog origin edits start p
  have hallowed : Allowed Project.apply (fun p e => p.permits e = true ∧ e.publishes = false)
      start edits := by
    decide +kernel
  have hconnected : (p.commands.map fun c => c.flow.connections.length) = [1] := by
    decide +kernel
  exact ⟨hallowed, hconnected, loaded_commands_show_no_faults "bot" catalog edits hallowed⟩

end Loader

end CommandFlow
