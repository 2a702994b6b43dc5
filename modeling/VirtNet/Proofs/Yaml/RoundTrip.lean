import VirtNet.Proofs.Manifest
import VirtNet.Proofs.Yaml.Anchor
import VirtNet.Proofs.Yaml.Read.Unfold
import VirtNet.Yaml.Reader

/-!
# Reading what was written

A tree of null, truth values, texts, whole numbers, lists and mappings is read back from its text
(`read_toYaml`): its text has the tokens of the tree, these have the tree's node, the graph of the node has
one vertex for each value in the tree, and the vertices unfold to the tree. A next-line control that is
not written as an escape is lost: the reader takes it for the end of a line.
-/

namespace VirtNet.Yaml

/-- A readable value is read back from its text. -/
theorem read_toYaml {v : Value} (h : Readable 2047 v) : read (toYaml v) = .ok v := by
  have htokens : Token.ofText (toYaml v).toList =
      tokens false v ++ tailTokens (endsOpen v || isPlainScalar v) := by
    rw [toYaml, Anchor.anchored_of_tree h.tree, String.toList_ofList]
    exact ofText_writeDocument h (by decide)
  obtain ⟨ss, hshapes, hsize, hshape⟩ := Layout.ofGraph_treeGraph h
  have hvalue : (Graph.ofNode (node v)).value = .ok v := by
    rw [Layout.ofNode_node h.tree, Graph.value]
    have hof : Shape.ofGraph ⟨(Layout.vertices (Layout.places 0 v)).toArray⟩ = .ok ss := hshapes
    rw [hof]
    exact congrArg Except.ok (Layout.rootValue_eq h ⟨hsize, hshape⟩)
  rw [read, htokens, ofTokens_tokens h]
  exact hvalue

/-- A key that is written in double quotes, a list of one value of each kind, and a next-line control that
has its escape since a space follows it. -/
theorem read_toYaml_kinds :
    let v : Value := .dict [(.text "a\tb", .list [.null, .bool true, .int (-7), .text "x\u0085 y", .dict []])]
    Readable 2047 v ∧ read (toYaml v) = .ok v := by
  intro v
  have hnext : ReadsBack "x\u0085 y".toList := .inl (by decide +kernel)
  have hkey : ReadableKey "a\tb" := by
    refine ⟨.inr (by decide), fun cs h => ?_⟩
    have hwritten : (simpleKey? (.text "a\tb")).all (fun cs => decide (cs.length ≤ Lexer.keyLimit)) = true := by
      decide +kernel
    rw [h] at hwritten
    exact of_decide_eq_true hwritten
  have hitems : Readable 2046 (.list [.null, .bool true, .int (-7), .text "x\u0085 y", .dict []]) := by
    refine .list ?_
    simp only [List.forall_mem_cons, List.not_mem_nil, false_imp_iff, implies_true, and_true]
    exact ⟨.null, .bool true, .int (by decide +kernel), .text hnext, .dict nofun .nil nofun⟩
  have h : Readable 2047 v := by
    refine .dict ?_ (by simp) ?_
    · rw [List.forall_mem_singleton]
      exact ⟨_, rfl, hkey⟩
    · rw [List.forall_mem_singleton]
      exact hitems
  exact ⟨h, read_toYaml h⟩

/-- Elsewhere the control is written as it is, in single quotes, and read as the end of a line, for which a
space stands. -/
theorem read_toYaml_nextLine :
    let v : Value := .dict [(.text "storage_class", .text "a\u0085b")]
    v.Tree ∧ toYaml v = "storage_class: 'a\u0085  b'\n" ∧ read (toYaml v) ≠ .ok v ∧
      (read (toYaml v)).toOption.bind (fun w => (w.at? ["storage_class"]).bind Value.asText?) =
        some "a b" := by
  intro v
  have hread : (read (toYaml v)).toOption.bind
      (fun w => (w.at? ["storage_class"]).bind Value.asText?) = some "a b" := by decide +kernel
  refine ⟨?_, by decide +kernel, ?_, hread⟩
  · refine .dict ?_ ?_
    · rw [List.forall_mem_singleton]
      exact ⟨_, rfl⟩
    · rw [List.forall_mem_singleton]
      exact .text _
  · intro h
    rw [h] at hread
    revert hread
    decide +kernel

end VirtNet.Yaml
