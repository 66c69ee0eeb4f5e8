/-
Saved projects that are read, written and read again.

A text may say the same in many ways: fields under other names or left out, unknown fields, records as
arrays, null for a coordinate.  What is read from it is written in one way, from which nothing is lost
but what a double loses.  The text that is written nests no deeper than what was read, so there is
always something to be read from it.
-/
import CommandFlow.Proofs.Saved.Reopen

namespace CommandFlow.Saved

open Json (Raw ReadsBack)
open Reading

/-! ### The doubles in a project -/

/-- The doubles in a node: its coordinates, and those in the values typed into it. -/
def Node.doubles (n : Node) : List Binary64 :=
  n.position.x :: n.position.y :: n.literals.entries.flatMap (·.2.doubles)

/-- The doubles in a flow. -/
def Flow.doubles (f : Flow) : List Binary64 :=
  f.nodes.flatMap Node.doubles

/-- The doubles in a project. -/
def Project.doubles (p : Project) : List Binary64 :=
  p.commands.flatMap (·.flow.doubles)

/-! ### What is read -/

/-- The nodes that are read where the values typed into them nest no deeper than given. -/
structure Node.Readable (depth : Nat) (n : Node) : Prop where
  x : n.position.x.isFinite = true
  y : n.position.y.isFinite = true
  literals : ∀ entry ∈ n.literals.entries, Json.Readable depth entry.2

theorem Node.Readable.isFinite_of_mem {depth : Nat} {n : Node} (h : n.Readable depth) :
    ∀ x ∈ n.doubles, x.isFinite = true := by
  rw [Node.doubles, List.forall_mem_cons, List.forall_mem_cons, List.forall_mem_flatMap]
  exact ⟨h.x, h.y, fun entry hentry => (h.literals entry hentry).isFinite_of_mem⟩

/-- The flows that are read, likewise. -/
def Flow.Readable (depth : Nat) (f : Flow) : Prop :=
  ∀ n ∈ f.nodes, n.Readable depth

/-- The projects that are read, likewise. -/
def Project.Readable (depth : Nat) (p : Project) : Prop :=
  ∀ c ∈ p.commands, c.flow.Readable depth

/-- What the fields of a node may hold when they are read. -/
def NodeField.Holds (depth : Nat) : (field : NodeField) → field.Value → Prop
  | .x, v => v.isFinite = true
  | .y, v => v.isFinite = true
  | .literals, values => ∀ entry ∈ values.entries, Json.Readable depth entry.2
  | _, _ => True

/-- What the fields of a flow may hold when they are read. -/
def FlowField.Holds (depth : Nat) : (field : FlowField) → field.Value → Prop
  | .nodes, ns => ∀ n ∈ ns, n.Readable depth
  | .connections, _ => True

/-- What the fields of a command may hold when they are read. -/
def CommandField.Holds (depth : Nat) : (field : CommandField) → field.Value → Prop
  | .flow, f => f.Readable depth
  | _, _ => True

/-- What the fields of a project may hold when they are read. -/
def ProjectField.Holds (depth : Nat) : (field : ProjectField) → field.Value → Prop
  | .content, commands => ∀ c ∈ commands, c.flow.Readable depth
  | .metadata, _ => True

section

variable {depth : Nat} {fresh : UidSource} {raw : Raw}

/-- Coordinates that are read are finite. -/
theorem isFinite_of_coordinate (depth : Nat) {x : Binary64}
    (h : (Reader.coordinate depth raw).result = .ok x) : x.isFinite = true := by
  cases raw with
  | null =>
      obtain rfl := Except.ok.inj h
      rfl
  | number l =>
      obtain ⟨n, hn, h⟩ := result_bind_eq_ok_iff.1 h
      obtain rfl := Except.ok.inj h
      cases hnumber : l.number? with
      | none =>
          rw [hnumber] at hn
          exact absurd hn (by simp)
      | some m =>
          rw [hnumber] at hn
          obtain rfl := Except.ok.inj hn
          cases m with
          | int n hrange => exact Binary64.isFinite_ofInt hrange
          | double x => exact Json.isFinite_of_number? hnumber
  | _ => exact absurd h (Reader.result_mismatch_ne _ _ _)

theorem readable_of_node {n : Node} (h : (node fresh (depth + 2) raw).result = .ok n) :
    n.Readable depth := by
  obtain ⟨record, hrecord, h⟩ := result_bind_eq_ok_iff.1 h
  obtain ⟨typeId, -, h⟩ := result_bind_eq_ok_iff.1 h
  obtain rfl := Except.ok.inj h
  have hall : record.draft.All (NodeField.Holds depth) := by
    refine Schema.all_of_readRecord ?_ hrecord
    intro field raw v hv
    cases field with
    | uid => trivial
    | typeId => trivial
    | x => exact isFinite_of_coordinate (depth + 1) hv
    | y => exact isFinite_of_coordinate (depth + 1) hv
    | literals => exact Reader.readable_of_literals hv
  have hempty : NodeField.Holds depth .literals ∅ := by
    intro entry hentry
    exact absurd hentry List.not_mem_nil
  exact ⟨Record.of_all hall (f := .x) rfl, Record.of_all hall (f := .y) rfl,
    Record.of_all hall (f := .literals) hempty⟩

theorem readable_of_flow {f : Flow} (h : (flow fresh (depth + 4) raw).result = .ok f) :
    f.Readable depth := by
  obtain ⟨record, hrecord, h⟩ := result_bind_eq_ok_iff.1 h
  obtain rfl := Except.ok.inj h
  have hall : record.draft.All (FlowField.Holds depth) := by
    refine Schema.all_of_readRecord ?_ hrecord
    intro field raw v hv
    cases field with
    | nodes => exact Reader.forall_of_list (fun i raw n hn => readable_of_node hn) hv
    | connections => trivial
  exact Record.of_all hall (f := .nodes) fun n hn => absurd hn List.not_mem_nil

theorem readable_of_command {c : Command} (h : (command fresh (depth + 5) raw).result = .ok c) :
    c.flow.Readable depth := by
  obtain ⟨record, hrecord, h⟩ := result_bind_eq_ok_iff.1 h
  obtain ⟨name, -, h⟩ := result_bind_eq_ok_iff.1 h
  obtain rfl := Except.ok.inj h
  have hall : record.draft.All (CommandField.Holds depth) := by
    refine Schema.all_of_readRecord ?_ hrecord
    intro field raw v hv
    cases field with
    | flow => exact readable_of_flow hv
    | _ => trivial
  exact Record.of_all hall (f := .flow) fun n hn => absurd hn List.not_mem_nil

theorem readable_of_projectCommands {commands : List Command}
    (h : (projectCommands fresh (depth + 7) raw).result = .ok commands) :
    ∀ c ∈ commands, c.flow.Readable depth := by
  obtain ⟨record, hrecord, h⟩ := result_bind_eq_ok_iff.1 h
  obtain rfl := Except.ok.inj h
  have hall : record.draft.All fun _ commands => ∀ c ∈ commands, c.flow.Readable depth := by
    refine Schema.all_of_readRecord ?_ hrecord
    intro field raw v hv
    exact Reader.forall_of_list (fun i raw c hc => readable_of_command hc) hv
  exact Record.of_all hall (f := .commands) fun c hc => absurd hc List.not_mem_nil

/-- **What is read as a project has finite coordinates, and values that can be read.** -/
theorem readable_of_project {p : Project} (h : (project fresh (depth + 8) raw).result = .ok p) :
    p.Readable depth := by
  obtain ⟨record, hrecord, h⟩ := result_bind_eq_ok_iff.1 h
  obtain rfl := Except.ok.inj h
  have hall : record.draft.All (ProjectField.Holds depth) := by
    refine Schema.all_of_readRecord ?_ hrecord
    intro field raw v hv
    cases field with
    | metadata => trivial
    | content => exact readable_of_projectCommands hv
  exact Record.of_all hall (f := .content) fun c hc => absurd hc List.not_mem_nil

/-! ### Reading again -/

variable (fresh)

theorem result_node_iff {n : Node} (h : n.Readable depth) :
    (node fresh (depth + 2) (Raw.ofJson n.toJson)).result = .ok n
      ↔ ∀ x ∈ n.doubles, ReadsBack x := by
  have hjson : n.toJson = NodeField.schema.written (nodeField n) := rfl
  have hx := result_coordinate_iff (depth + 1) h.x
  have hy := result_coordinate_iff (depth + 1) h.y
  have hliterals := Reader.result_literals_iff h.literals
  have hdoubles : (∀ x ∈ n.doubles, ReadsBack x) ↔ ReadsBack n.position.x ∧
      ReadsBack n.position.y ∧ ∀ entry ∈ n.literals.entries, ∀ x ∈ entry.2.doubles, ReadsBack x := by
    simp only [Node.doubles, List.forall_mem_cons, List.forall_mem_flatMap]
  rw [hjson, hdoubles, ← hx, ← hy, ← hliterals]
  refine (Schema.result_record_iff distinct_node).trans ⟨?_, ?_⟩
  · rintro ⟨values, hvalues, hmade⟩
    obtain rfl := Except.ok.inj hmade
    exact ⟨hvalues .x, hvalues .y, hvalues .literals⟩
  · rintro ⟨hx, hy, hliterals⟩
    refine ⟨nodeValue n, ?_, rfl⟩
    intro f
    cases f with
    | uid => exact result_string (depth + 1) _
    | typeId => exact result_string (depth + 1) _
    | x => exact hx
    | y => exact hy
    | literals => exact hliterals

theorem result_flow_iff {f : Flow} (h : f.Readable depth) :
    (flow fresh (depth + 4) (Raw.ofJson f.toJson)).result = .ok f
      ↔ ∀ x ∈ f.doubles, ReadsBack x := by
  have hjson : f.toJson = FlowField.schema.written (flowField f) := rfl
  have hnodes := Reader.result_list_iff f.nodes
    fun i n hn => result_node_iff (fresh.within i) (h n hn)
  rw [hjson, Flow.doubles, List.forall_mem_flatMap, ← hnodes]
  refine (Schema.result_record_iff distinct_flow).trans ⟨?_, ?_⟩
  · rintro ⟨values, hvalues, hmade⟩
    obtain rfl := Except.ok.inj hmade
    exact hvalues .nodes
  · intro hread
    refine ⟨flowValue f, ?_, rfl⟩
    intro field
    cases field with
    | nodes => exact hread
    | connections => exact Reader.result_list (fun _ c => result_connection depth c) _

theorem result_command_iff {c : Command} (h : c.flow.Readable depth) :
    (command fresh (depth + 5) (Raw.ofJson c.toJson)).result = .ok c
      ↔ ∀ x ∈ c.flow.doubles, ReadsBack x := by
  have hjson : c.toJson = CommandField.schema.written (commandField c) := rfl
  rw [hjson, ← result_flow_iff fresh h]
  refine (Schema.result_record_iff distinct_command).trans ⟨?_, ?_⟩
  · rintro ⟨values, hvalues, hmade⟩
    obtain rfl := Except.ok.inj hmade
    exact hvalues .flow
  · intro hread
    refine ⟨commandValue c, ?_, rfl⟩
    intro field
    cases field with
    | uid => exact result_string (depth + 4) _
    | name => exact result_string (depth + 4) _
    | description => exact result_string (depth + 4) _
    | options => exact Reader.result_list (fun _ o => result_commandOption (depth + 1) o) _
    | flow => exact hread

theorem result_projectCommands_iff {commands : List Command}
    (h : ∀ c ∈ commands, c.flow.Readable depth) :
    (projectCommands fresh (depth + 7)
        (Raw.ofJson (.object [("commands", .array (commands.map Command.toJson))]))).result
        = .ok commands
      ↔ ∀ c ∈ commands, ∀ x ∈ c.flow.doubles, ReadsBack x := by
  have hjson : Json.object [("commands", .array (commands.map Command.toJson))]
      = ContentField.schema.written fun _ => .array (commands.map Command.toJson) := rfl
  rw [hjson, ← Reader.result_list_iff commands
    fun i c hc => result_command_iff (fresh.within i) (h c hc)]
  refine (Schema.result_record_iff distinct_content).trans ⟨?_, ?_⟩
  · rintro ⟨values, hvalues, hmade⟩
    obtain rfl := Except.ok.inj hmade
    exact hvalues .commands
  · intro hread
    exact ⟨fun _ => commands, fun _ => hread, rfl⟩

/-- A written project is read as it was exactly if its doubles are. -/
theorem result_project_iff {p : Project} (h : p.Readable depth) :
    (project fresh (depth + 8) (Raw.ofJson p.toJson)).result = .ok p
      ↔ ∀ x ∈ p.doubles, ReadsBack x := by
  have hjson : p.toJson = ProjectField.schema.written (projectField p) := rfl
  rw [hjson, Project.doubles, List.forall_mem_flatMap, ← result_projectCommands_iff fresh h]
  refine (Schema.result_record_iff distinct_project).trans ⟨?_, ?_⟩
  · rintro ⟨values, hvalues, hmade⟩
    obtain rfl := Except.ok.inj hmade
    exact hvalues .content
  · intro hread
    refine ⟨projectValue p, ?_, rfl⟩
    intro field
    cases field with
    | metadata => exact result_projectName (depth + 6) p.name
    | content => exact hread

end

/--
**What is read from a text is read again from the text that is written for it.**  Whatever the first
text, and whichever uids are given to what is written without one: there is always something to be
read again, and it is what was read first if and only if every double in it is read back from its
own text.
-/
theorem written_text_reads_again (fresh fresh' : UidSource) (form : Json.Form) (text : String)
    (p : Project) (h : (Reader.ofText (project fresh) text).result = .ok p) :
    let again := Reader.ofText (project fresh') (p.toJson.text form)
    (∃ q, again.result = .ok q) ∧ (∀ x ∈ p.doubles, x.isFinite = true) ∧
      (again.result = .ok p ↔ ∀ x ∈ p.doubles, ReadsBack x) := by
  intro again
  obtain ⟨raw, hraw⟩ := Reader.exists_of_ofText h
  have hreadable : p.Readable (Json.maxDepth - 8) := readable_of_project hraw
  refine ⟨?_, ?_, ?_⟩
  · refine (succeeds_ofText_iff fresh' form p).2 ?_
    intro c hc n hn entry hentry
    exact ((hreadable c hc n hn).literals entry hentry).depth_le
  · simp only [Project.doubles, Flow.doubles, List.forall_mem_flatMap]
    exact fun c hc n hn => (hreadable c hc n hn).isFinite_of_mem
  · rw [Reader.result_ofText_text]
    exact result_project_iff fresh' hreadable

/-- Records as arrays, fields under other names, left out, unknown or null, a key twice, a code that
is not in use: what is read from such a text is read again from the text that is written for it. -/
theorem written_text_of_arrays_reads_again :
    let fresh : UidSource := fun _ => "u"
    let tenth : Binary64 := .ofDecimal false ⟨1, -1⟩
    let half : Binary64 := .ofDecimal false ⟨5, -1⟩
    let node : Json := .object [("typeId", .string "say"), ("x", .null), ("color", .string "red"),
      ("y", .number (.double tenth)),
      ("inputHardcoded", .object [("b", .number (.double half)),
        ("a", .object [("k", .null), ("k", .array [.ofInt 2])])])]
    let connection : Json := .object [("portType", .ofInt 2), ("fromUid", .string "u")]
    let command : Json := .array [.string "c", .string "ping", .string "",
      .array [.array [.string "x", .string "", .ofInt 7]],
      .array [.array [node], .array [connection]]]
    let text := (Json.array [.object [], .array [.array [command]]]).text .compact
    ∃ p, (Reader.ofText (project fresh) text).result = .ok p ∧
      p.doubles = [.zero false, tenth, half] ∧
      ∀ fresh', (Reader.ofText (project fresh') (p.toJson.text .indented)).result = .ok p := by
  intro fresh tenth half node connection command text
  have hok : ∀ x : Except ReadError Project,
      x.toOption.map Project.doubles = some [.zero false, tenth, half] →
      ∃ p, x = .ok p ∧ p.doubles = [.zero false, tenth, half] := by
    intro x hx
    cases x with
    | error e => exact absurd hx (by simp [Except.toOption])
    | ok p => exact ⟨p, rfl, Option.some.inj hx⟩
  obtain ⟨p, hread, hdoubles⟩ := hok (Reader.ofText (project fresh) text).result (by
    rw [Reader.result_ofText_text]
    decide +kernel)
  refine ⟨p, hread, hdoubles, fun fresh' => ?_⟩
  refine (written_text_reads_again fresh fresh' .indented text p hread).2.2.2 ?_
  rw [hdoubles]
  decide +kernel

end CommandFlow.Saved
