/-
What an edit can do to a flow.

`Effect` lists it all, with the conditions under which it happens.  Invariants are proved by going
through the list; the operations themselves are opened only here.
-/
import CommandFlow.Proofs.Edit

namespace CommandFlow

namespace Flow

/-- The flows that an edit can lead to. -/
inductive Effect (f : Flow) : Edit → Flow → Prop
  /-- The edit was refused. -/
  | refused (e : Edit) : Effect f e f
  | added (type : NodeType) (position : Position) (uid : String) :
      Effect f (.addNode type position uid) (f.addNode type position uid).2
  | addedById {typeId : String} {type : NodeType} (position : Position) (uid : String)
      (hresolve : f.resolve? typeId = some type) :
      Effect f (.addNodeById typeId position uid) (f.addNode type position uid).2
  | moved {k : Handle} {n : Node} {position : Position} (hnode : f.node? k = some n)
      (hfinite : position.isFinite = true) :
      Effect f (.moveNode k position) (f.updateNode k fun n => { n with position })
  | literalSet {k : Handle} {n : Node} {key : String} (value : Json) (hnode : f.node? k = some n)
      (hinput : (n.type.input? key).isSome = true) :
      Effect f (.setLiteral k key value)
        (f.updateNode k fun n => { n with literals := n.literals.insert key value })
  | literalCleared {k : Handle} {n : Node} (key : String) (hnode : f.node? k = some n) :
      Effect f (.clearLiteral k key)
        (f.updateNode k fun n => { n with literals := n.literals.erase key })
  | cut (k : Handle) : Effect f (.removeRelated k) (f.removeRelated k).2
  | removed (nodes : List Handle) : Effect f (.removeNodes nodes) (f.removeNodes nodes).flow
  /-- The ports were connected already. -/
  | disconnected {link : Link} {old : Connection}
      (hfind : f.connections.find? (·.joins link) = some old) :
      Effect f (.connect link)
        { f with connections := f.connections.eraseP (·.joins link) }
  | connected {link : Link} {shape : PortShape}
      (hfind : f.connections.find? (·.joins link) = none) (hvalid : f.validate link = .ok shape) :
      Effect f (.connect link)
        { f with connections := f.connections.filter (!standsInWay link shape ·)
          ++ [.ofLink link shape] }
  | revalidated (selected : Connection → Bool) :
      Effect f (.revalidate selected) (f.revalidate selected).2
  | rebound (catalog : Catalog) : Effect f (.rebind catalog) (f.rebind catalog).2

theorem effect_addNodeById (f : Flow) (typeId : String) (position : Position) (uid : String) :
    Effect f (.addNodeById typeId position uid) (f.apply (.addNodeById typeId position uid)) := by
  show Effect f _ (orUnchanged f (·.2) (f.addNodeById typeId position uid))
  unfold addNodeById
  cases hresolve : f.resolve? typeId with
  | none => exact .refused _
  | some type => exact .addedById position uid hresolve

theorem effect_moveNode (f : Flow) (k : Handle) (position : Position) :
    Effect f (.moveNode k position) (f.apply (.moveNode k position)) := by
  show Effect f _ (orUnchanged f id (f.moveNode k position))
  unfold moveNode
  by_cases hfinite : position.isFinite = true
  · rw [if_neg (not_not_intro hfinite)]
    cases hnode : f.node? k with
    | none => exact .refused _
    | some n => exact .moved hnode hfinite
  · rw [if_pos hfinite]
    exact .refused _

theorem effect_setLiteral (f : Flow) (k : Handle) (key : String) (value : Json) :
    Effect f (.setLiteral k key value) (f.apply (.setLiteral k key value)) := by
  show Effect f _ (orUnchanged f (·.2) (f.setLiteral k key value))
  unfold setLiteral
  cases hnode : f.node? k with
  | none => exact .refused _
  | some n =>
      cases hinput : n.type.input? key with
      | none => simp only [hinput]; exact .refused _
      | some port => simp only [hinput]; exact .literalSet value hnode (by simp [hinput])

theorem effect_clearLiteral (f : Flow) (k : Handle) (key : String) :
    Effect f (.clearLiteral k key) (f.apply (.clearLiteral k key)) := by
  show Effect f _ (orUnchanged f (·.2) (f.clearLiteral k key))
  unfold clearLiteral
  cases hnode : f.node? k with
  | none => exact .refused _
  | some n => exact .literalCleared key hnode

theorem effect_connect (f : Flow) (link : Link) :
    Effect f (.connect link) (f.apply (.connect link)) := by
  show Effect f _ (orUnchanged f (·.2) (f.connect link))
  unfold connect
  cases hfind : f.connections.find? (·.joins link) with
  | some old => exact .disconnected hfind
  | none =>
      cases hvalid : f.validate link with
      | error reason => exact .refused _
      | ok shape => exact .connected hfind hvalid

/-- Every edit does one of the things listed. -/
theorem effect_apply (f : Flow) (e : Edit) : Effect f e (f.apply e) := by
  cases e with
  | addNode type position uid => exact .added type position uid
  | addNodeById typeId position uid => exact effect_addNodeById f typeId position uid
  | moveNode k position => exact effect_moveNode f k position
  | setLiteral k key value => exact effect_setLiteral f k key value
  | clearLiteral k key => exact effect_clearLiteral f k key
  | removeRelated k => exact .cut k
  | removeNodes nodes => exact .removed nodes
  | connect link => exact effect_connect f link
  | revalidate selected => exact .revalidated selected
  | rebind catalog => exact .rebound catalog

end Flow

end CommandFlow
