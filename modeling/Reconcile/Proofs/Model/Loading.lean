/-
Reconcile.Proofs.Model.Loading — what a comparison of files holds when it has
been read.

A file is read as it is, and one that is not there has no element: so the
panes of a comparison hold what is found at its paths (`load_found`). Without
the difference between a missing file and an empty one, that is what the
files hold (`load_ok`).
-/
import Reconcile.Proofs.Disk

namespace Reconcile

theorem readElement_ok {d : Disk} {path : String} {e : Option Element}
    (h : readElement d path = .ok e) :
    (d.contains path = false ∧ e = none) ∨
      ∃ content, d.read path = .ok content ∧ e = some ⟨path, some content⟩ := by
  unfold readElement at h
  split at h
  · split at h
    · rename_i content hread
      exact .inr ⟨content, hread, (Except.ok.inj h).symm⟩
    · simp at h
  · rename_i habsent
    exact .inl ⟨by simpa using habsent, (Except.ok.inj h).symm⟩

theorem found_of_readElement {d : Disk} {path : String} {e : Option Element}
    (h : readElement d path = .ok e) : d.Found path (e.bind (·.content)) := by
  rcases readElement_ok h with ⟨habsent, rfl⟩ | ⟨content, hread, rfl⟩
  · exact habsent
  · exact Disk.content?_of_read hread

namespace ComparePaths

variable {p : ComparePaths} {d : Disk} {node : Node}

theorem loadAncestor_ok {e : Option Element} {base : String}
    (hbase : p.ancestor = some base) (h : p.loadAncestor d = .ok e) :
    ∃ content, d.read base = .ok content ∧ e.bind (·.content) = some content := by
  simp only [loadAncestor, hbase] at h
  obtain ⟨found, hfound, h⟩ := ok_of_bind h
  rcases readElement_ok hfound with ⟨-, rfl⟩ | ⟨content, hread, rfl⟩
  · simp at h
  · obtain rfl := Except.ok.inj h
    exact ⟨content, hread, rfl⟩

/-- What a comparison is read from: its elements are those of the files. -/
theorem of_load (h : p.load d = .ok node) :
    p.loadAncestor d = .ok node.elements.ancestor ∧
      readElement d p.left = .ok node.elements.left ∧
      readElement d p.right = .ok node.elements.right := by
  unfold load at h
  obtain ⟨ancestor, hancestor, h⟩ := ok_of_bind h
  obtain ⟨left, hleft, h⟩ := ok_of_bind h
  obtain ⟨right, hright, h⟩ := ok_of_bind h
  split at h
  · simp at h
  · obtain rfl := Except.ok.inj h
    exact ⟨hancestor, hleft, hright⟩

/-- A comparison is of the kind of what its panes hold, and it is no hunk. -/
theorem kind_of_load (h : p.load d = .ok node) :
    node.kind = .classify (node.content .ancestor) (node.content .left)
      (node.content .right) ∧ node.hunk = false := by
  unfold load at h
  obtain ⟨ancestor, -, h⟩ := ok_of_bind h
  obtain ⟨left, -, h⟩ := ok_of_bind h
  obtain ⟨right, -, h⟩ := ok_of_bind h
  split at h
  · simp at h
  · obtain rfl := Except.ok.inj h
    exact ⟨rfl, rfl⟩

/-- **A side of a comparison holds what is found at its path**, and nothing
if there is no file. -/
theorem load_found (h : p.load d = .ok node) (side : Side) :
    d.Found (p.side side) (node.content side.pane) := by
  obtain ⟨-, hleft, hright⟩ := of_load h
  cases side with
  | left => exact found_of_readElement hleft
  | right => exact found_of_readElement hright

/-- What the panes of a comparison hold is what is in its files. -/
theorem load_ok {base : String} (hbase : p.ancestor = some base)
    (h : p.load d = .ok node) :
    (∃ content, d.read base = .ok content ∧ node.content .ancestor = some content) ∧
      d.Holds p.left ((node.content .left).getD .empty) ∧
      d.Holds p.right ((node.content .right).getD .empty) :=
  ⟨loadAncestor_ok hbase (of_load h).1, (load_found h .left).holds,
    (load_found h .right).holds⟩

end ComparePaths

end Reconcile
