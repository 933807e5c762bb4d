import LiveGraph.Proofs.Graph.Consistency

/-!
# What a call changes

A call on a consistent graph is refused, or makes one of a few changes: elements are drawn anew or
published, one element is inserted, an edge or a node goes, or the attributes of a kind are replaced.
What holds after all calls is read off these changes and not off the calls.
-/

namespace LiveGraph

namespace GraphData

/-- The call may change how elements are shown, but not which there are. -/
def Call.redraws : Call → Bool
  | moveNode _ _ | updateNode _ _ | setHighlighted _ _ _ | flush => true
  | _ => false

/-- A call makes this graph of a consistent one. -/
inductive Change (t : Tracked GraphData) : Call → GraphData → Prop
  /-- The call fails and changes nothing. -/
  | refused {c : Call} (hnone : c.edit.answer? t = none) : Change t c t.value
  /-- The elements are the same. -/
  | redrawn {c : Call} {nodes : NodeStore} {edges : EdgeStore} (hc : c.redraws = true)
      (hnodes : t.value.nodes.SameElements nodes) (hedges : t.value.edges.SameElements edges) :
      Change t c { t.value with nodes, edges }
  /-- A node gets a slot, which starts a new generation. -/
  | nodeAdded {r : NodeRecord} {slot : Nat} {nodes : NodeStore}
      (hanswer : (GraphData.addNode r).answer? t = some slot)
      (hins : t.value.nodes.Inserted slot (Record.clearDeleted r)
        { adjacent := [], generation := (t.value.nodes.dataAt slot).generation + 1 } nodes) :
      Change t (.addNode r) { t.value with nodes }
  /-- An edge gets a slot, and its ends list it. -/
  | edgeAdded {source target : Nat} {width : Single} {color : Color} {slot : Nat} {r : EdgeRecord}
      {nodes : NodeStore} {edges : EdgeStore}
      (hanswer : (GraphData.addEdge source target width color).answer? t = some slot)
      (hins : t.value.edges.Inserted slot r { source, target } edges)
      (hkept : Kept t.value.nodes nodes) :
      Change t (.addEdge source target width color) { t.value with nodes, edges }
  /-- An edge goes. -/
  | edgeRemoved {slot : Nat} {d : GraphData} (hdropped : Dropped t.value [slot] d) :
      Change t (.removeEdge slot) d
  /-- The edges of a node go, then the node. -/
  | nodeRemoved {slot : Nat} {d : GraphData} {nodes : NodeStore}
      (hanswer : (GraphData.removeNode slot).answer? t = some ())
      (hlive : t.value.nodes.isLive slot = true)
      (hdropped : Dropped t.value (t.value.nodes.dataAt slot).adjacent d)
      (herased : d.nodes.Erased [slot] nodes) :
      Change t (.removeNode slot)
        { d with nodes, nodeAttributes := d.nodeAttributes.clearSlot slot }
  /-- The attributes of a kind are replaced. -/
  | attributed {k : Kind} {f : AttributeSet → Except AttributeError AttributeSet} {s : AttributeSet}
      (hf : f (t.value.attributes k) = .ok s) :
      Change t (.attributes k f) (t.value.setAttributes k s)

/-- A call with an error changes nothing. -/
theorem Change.of_error {t : Tracked GraphData} {c : Call} {f : Failure GraphError}
    (h : c.edit t = .error f t) : Change t c (c.edit.after t).value := by
  rw [Edit.after_of_error h]
  exact .refused (Edit.answer?_of_error h)

/-- Every call on a consistent graph makes one of the changes. -/
theorem Consistent.change {t : Tracked GraphData} (h : t.value.Consistent) (c : Call) :
    Change t c (c.edit.after t).value := by
  obtain ⟨d, events⟩ := t
  -- one call at a time, each by the lemma that says all it can do
  cases c with
  | addNode r =>
    rcases addNode_cases h.nodes r events with ⟨f, heq⟩ | ⟨slot, nodes, events', heq, hins⟩
    · exact .of_error (Edit.discard_of_error heq)
    · rw [Call.edit, Edit.after_discard, Edit.after_of_ok heq]
      exact .nodeAdded (Edit.answer?_of_ok heq) hins
  | addEdge source target width color =>
    rcases h.addEdge_cases source target width color events with
      ⟨f, heq⟩ | ⟨slot, nodes, edges, events', heq, -, -, hins, hlist⟩
    · exact .of_error (Edit.discard_of_error heq)
    · rw [Call.edit, Edit.after_discard, Edit.after_of_ok heq]
      exact .edgeAdded (Edit.answer?_of_ok heq) hins hlist.toKept
  | moveNode slot pos =>
    rcases h.moveNode_cases slot pos events with ⟨f, heq⟩ | ⟨nodes, edges, heq, -, hnodes, hedges, -⟩
    · exact .of_error heq
    · rw [Call.edit, Edit.after_of_ok heq]
      exact .redrawn rfl hnodes.toSameElements hedges
  | updateNode slot f =>
    rcases h.updateNode_cases slot f events with ⟨e, heq⟩ | ⟨nodes, heq, -, hnodes⟩
    · exact .of_error heq
    · rw [Call.edit, Edit.after_of_ok heq]
      exact .redrawn rfl hnodes.toSameElements h.edges.sameElements
  | setHighlighted k slot on =>
    rcases h.setHighlighted_cases k slot on events with
      ⟨f, heq⟩ | ⟨nodes, heq, hnodes⟩ | ⟨edges, heq, hedges⟩
    · exact .of_error heq
    · rw [Call.edit, Edit.after_of_ok heq]
      exact .redrawn rfl hnodes.toSameElements h.edges.sameElements
    · rw [Call.edit, Edit.after_of_ok heq]
      exact .redrawn rfl h.nodes.sameElements hedges.toSameElements
  | removeEdge slot =>
    rcases h.removeEdge_cases slot events with ⟨f, heq⟩ | ⟨d', heq, hdropped, -⟩
    · exact .of_error heq
    · rw [Call.edit, Edit.after_of_ok heq]
      exact .edgeRemoved hdropped
  | removeNode slot =>
    rcases h.removeNode_cases slot events with
      ⟨-, f, heq⟩ | ⟨d₁, nodes, heq, hlive, hdropped, herased, -⟩
    · exact .of_error heq
    · rw [Call.edit, Edit.after_of_ok heq]
      exact .nodeRemoved (Edit.answer?_of_ok heq) hlive hdropped herased
  | attributes k f =>
    rcases onAttributes_cases d k f events with ⟨e, heq⟩ | ⟨s, hf, heq⟩
    · exact .of_error heq
    · rw [Call.edit, Edit.after_of_ok heq]
      exact .attributed hf
  | flush =>
    -- a flush cannot be refused
    obtain ⟨nodes, edges, events', heq, ⟨hnodes, -⟩, hedges, -⟩ := h.flush_eq events
    rw [Call.edit, Edit.after_of_ok heq]
    exact .redrawn rfl hnodes hedges

/-- The graph after some more calls. -/
def resume (t : Tracked GraphData) (calls : List Call) : Tracked GraphData :=
  calls.foldl (fun t c => c.edit.after t) t

/-- Calls can be resumed in two parts. -/
theorem resume_append (t : Tracked GraphData) (calls more : List Call) :
    resume t (calls ++ more) = resume (resume t calls) more :=
  List.foldl_append

theorem resume_cons (t : Tracked GraphData) (c : Call) (calls : List Call) :
    resume t (c :: calls) = resume (c.edit.after t) calls := rfl

/-- Calls keep the graph consistent. -/
theorem Consistent.resume {t : Tracked GraphData} (h : t.value.Consistent) (calls : List Call) :
    (resume t calls).value.Consistent := by
  induction calls generalizing t with
  | nil => exact h
  | cons c calls ih => exact ih (h.call c)

/-- What every change keeps holds after any calls. -/
theorem change_induction {P : GraphData → Prop} {d : GraphData} (hd : d.Consistent) (h : P d)
    (hchange : ∀ t c d', Change t c d' → P t.value → P d') (calls : List Call) :
    P (run d calls).value := by
  have hrun : (run d calls).value.Consistent ∧ P (run d calls).value := by
    apply run_induction (P := fun t => t.value.Consistent ∧ P t.value)
    · exact ⟨hd, h⟩
    · intro t c ht
      exact ⟨ht.1.call c, hchange t c _ (ht.1.change c) ht.2⟩
  exact hrun.2

end GraphData

end LiveGraph
