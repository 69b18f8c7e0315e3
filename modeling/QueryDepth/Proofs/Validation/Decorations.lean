import QueryDepth.Proofs.Validation.Alone

/-!
# Decorations

Aliases, arguments, directives, variables, type conditions and the kind of an operation decorate a
document. Without them it is `Document.undecorated`: names, selection sets, and the offsets where
nodes begin. Two documents differ only in decorations if they are the same without.

**Theorem (`validate_decorated`).** A rule alone does the same with documents that differ only in
decorations, so whoever writes a query cannot get past the limit by them. In particular an alias
does not make an ignored field of any other: the policy is asked about the field's own name.

Taking the decorations away changes no node (`node_undecorated`), and so neither of the indexes that
the rule works on.
-/

namespace QueryDepth

/-! ## Taking decorations away -/

/-- The name without its place. -/
def Name.unplaced (name : Name) : Name := ⟨0, name.value⟩

def FieldHead.undecorated (f : FieldHead) : FieldHead := ⟨f.pos, none, f.name.unplaced, [], [], 0⟩

def Spread.undecorated (s : Spread) : Spread := ⟨s.pos, s.name.unplaced, []⟩

def InlineHead.undecorated (f : InlineHead) : InlineHead := ⟨f.pos, none, [], 0⟩

namespace Selection

mutual

def undecorated : Selection → Selection
  | .field f ss => .field f.undecorated (undecoratedAll ss)
  | .spread s => .spread s.undecorated
  | .inlineFragment f ss => .inlineFragment f.undecorated (undecoratedAll ss)

def undecoratedAll : List Selection → List Selection
  | [] => []
  | s :: ss => undecorated s :: undecoratedAll ss

end

end Selection

def Operation.undecorated (op : Operation) : Operation :=
  ⟨op.pos, .query, op.name.map Name.unplaced, [], [], 0, Selection.undecoratedAll op.selections⟩

def Fragment.undecorated (f : Fragment) : Fragment :=
  ⟨f.pos, f.name.unplaced, ⟨0, ""⟩, [], 0, Selection.undecoratedAll f.selections⟩

/-- Only operations and fragments are decorated. -/
def Definition.undecorated : Definition → Definition
  | .operation op => .operation op.undecorated
  | .fragment f => .fragment f.undecorated
  | d => d

def Document.undecorated (doc : Document) : Document :=
  ⟨doc.definitions.map Definition.undecorated⟩

/-! ## Decorations are not seen -/

namespace Selection

mutual

/-- **A selection without decorations is the same node.** -/
theorem node_undecorated : ∀ s : Selection, s.undecorated.node = s.node
  | .field f [] => by
    rw [undecorated, undecoratedAll, node, node]
    rfl
  | .field f (s :: ss) => by
    rw [undecorated, undecoratedAll, node, node, node_undecorated s, nodes_undecorated ss]
    rfl
  | .spread s => by
    rw [undecorated, node, node]
    rfl
  | .inlineFragment f ss => by
    rw [undecorated, node, node, nodes_undecorated ss]
    rfl

theorem nodes_undecorated : ∀ ss : List Selection, nodes (undecoratedAll ss) = nodes ss
  | [] => by rw [undecoratedAll]
  | s :: ss => by rw [undecoratedAll, nodes, nodes, node_undecorated s, nodes_undecorated ss]

end

end Selection

theorem Operation.node_undecorated (op : Operation) : op.undecorated.node = op.node := by
  unfold node
  rw [undecorated, Selection.nodes_undecorated]

theorem Operation.label_undecorated (op : Operation) : op.undecorated.label = op.label := by
  unfold label undecorated
  rw [Option.map_map]
  rfl

theorem Fragment.node_undecorated (f : Fragment) : f.undecorated.node = f.node := by
  unfold node
  rw [undecorated, Selection.nodes_undecorated]

namespace Document

variable (doc : Document)

theorem operations_undecorated :
    doc.undecorated.operations = doc.operations.map Operation.undecorated := by
  unfold operations undecorated
  rw [List.filterMap_map, List.map_filterMap]
  refine List.filterMap_congr fun d _ => ?_
  cases d <;> rfl

theorem fragments_undecorated :
    doc.undecorated.fragments = doc.fragments.map Fragment.undecorated := by
  unfold fragments undecorated
  rw [List.filterMap_map, List.map_filterMap]
  refine List.filterMap_congr fun d _ => ?_
  cases d <;> rfl

/-- The nodes of the operations are the same without decorations. -/
theorem operationNodes_undecorated : doc.undecorated.operationNodes = doc.operationNodes := by
  rw [operationNodes_eq, operationNodes_eq, operations_undecorated, List.map_map]
  refine congrArg Index.ofEntries (List.map_congr_left fun op _ => ?_)
  exact Prod.ext op.label_undecorated op.node_undecorated

/-- So are those of the fragments. -/
theorem fragmentNodes_undecorated : doc.undecorated.fragmentNodes = doc.fragmentNodes := by
  rw [fragmentNodes_eq, fragmentNodes_eq, fragments_undecorated, List.map_map]
  exact congrArg Index.ofEntries (List.map_congr_left fun f _ => Prod.ext rfl f.node_undecorated)

end Document

/-- A rule does the same without decorations. -/
theorem DepthRule.run_undecorated (rule : DepthRule) (doc : Document) (room : Option Nat) :
    rule.run doc.undecorated room = rule.run doc room := by
  unfold run
  rw [doc.operationNodes_undecorated, doc.fragmentNodes_undecorated]

/-- **Decorations do not influence depth.** With documents that differ only in decorations a rule
alone does the same: it finds the same depths and violations in the same order, and makes the same
calls of predicates. -/
theorem Schema.validate_decorated {doc doc' : Document}
    (h : doc.undecorated = doc'.undecorated) (s : Schema) (rule : DepthRule) :
    s.validate doc false [rule] = s.validate doc' false [rule] := by
  refine validate_congr (fun room => ?_) s
  calc rule.run doc room
    _ = rule.run doc.undecorated room := (rule.run_undecorated doc room).symm
    _ = rule.run doc'.undecorated room := by rw [h]
    _ = rule.run doc' room := rule.run_undecorated doc' room

/-- A query that is too deep. -/
def Document.undisguised : Document :=
  ⟨[.operation ⟨0, .query, some ⟨0, "Q"⟩, [], [], 0, [.inlineFragment ⟨2, none, [], 0⟩
    [.field ⟨7, none, ⟨7, "a"⟩, [], [], 0⟩ [.field ⟨9, none, ⟨9, "b"⟩, [], [], 0⟩
      [.field ⟨11, none, ⟨11, "c"⟩, [], [], 0⟩ []]]]]⟩]⟩

/-- `Document.undisguised` as a mutation, with aliases like those of introspection, a type
condition, arguments, and directives that leave fields out. -/
def Document.disguised : Document :=
  ⟨[.operation ⟨0, .mutation, some ⟨9, "Q"⟩, [⟨10, ⟨11, "v"⟩, .named ⟨13, "T"⟩, none, []⟩], [], 1,
    [.inlineFragment ⟨2, some ⟨5, "T"⟩, [⟨6, ⟨6, "include"⟩, []⟩], 6⟩
      [.field ⟨7, some ⟨7, "__x"⟩, ⟨8, "a"⟩, [⟨⟨8, "n"⟩, .int 8 "1"⟩], [], 8⟩
        [.field ⟨9, some ⟨9, "__typename"⟩, ⟨10, "b"⟩, [],
            [⟨10, ⟨10, "skip"⟩, [⟨⟨10, "if"⟩, .boolean 10 true⟩]⟩], 10⟩
          [.field ⟨11, none, ⟨11, "c"⟩, [], [], 0⟩ []]]]]⟩]⟩

/-- Ignores what has the name of one of the aliases. -/
def DepthRule.gullible : DepthRule :=
  ⟨1, ⟨[.predicate ⟨"alias", fun field => .ok (field == "__x")⟩]⟩, some acceptAll⟩

/-- The predicate is asked about the names of the fields. -/
theorem Schema.validate_decorated_disguised :
    Document.disguised.undecorated = Document.undisguised.undecorated ∧
      ∃ run, placeholder.validate .undisguised false [.gullible] = .ok run ∧
        run.depths = [("Q", 1)] ∧ run.calls = [⟨"alias", "a"⟩, ⟨"alias", "b"⟩] ∧
        run.violations = [(PlacedFault.mk (.tooDeep "Q" 1) (some 11)).violation] ∧
        placeholder.validate .disguised false [.gullible] = .ok run := by
  have hundecorated : Document.disguised.undecorated = Document.undisguised.undecorated := by
    simp [Document.undecorated, Document.disguised, Document.undisguised, Definition.undecorated,
      Operation.undecorated, Selection.undecoratedAll, Selection.undecorated,
      InlineHead.undecorated, FieldHead.undecorated, Name.unplaced]
  have hsame := validate_decorated hundecorated placeholder .gullible
  have hrun := validate_of_valid faults_placeholder .undisguised [.gullible]
  exact ⟨hundecorated, _, hrun, by decide +kernel, by decide +kernel, by decide +kernel,
    hsame.trans hrun⟩

end QueryDepth
