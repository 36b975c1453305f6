/-
ApiOutline/Proofs/RouteLookup.lean

The operation of a route, after each way of removing operations.

Design.  The paths of a document are a table of tables, and each change of a document
is one of the operations on such tables (`removeRoute_eq`, `removeTag_eq`).  What can
be asked of a document is the operation of a route; each removal is described by one
equation for `operation?`, so that no later argument takes the tables apart again.
The equations need documents in order: a path that stood twice would come to light
when the first one goes.
-/
import ApiOutline.Proofs.NestedTable
import ApiOutline.Proofs.StoredPaths

namespace ApiOutline.Document

variable {doc : Document}

/-! ### Documents as tables of tables -/

theorem Valid.keysDistinct (h : doc.Valid) : Table.KeysDistinct doc.paths :=
  ⟨h.nodup, fun p hp => (h.paths p hp).nodup⟩

theorem removeRoute_eq (doc : Document) (r : Route) :
    doc.removeRoute r = { doc with paths := Table.remove doc.paths r.key r.method } := by
  have hrow : doc.path r.key = Table.row doc.paths r.key := rfl
  rw [removeRoute, Table.remove, hrow]
  generalize Table.erase (Table.row doc.paths r.key) r.method = rest
  cases rest <;> rfl

theorem removeTag_eq (doc : Document) (tag : String) :
    doc.removeTag tag =
      { doc with paths := Table.discard (fun op => op.carries tag) doc.paths } := by
  have hsieve : Valid.untagged tag = Table.sieve fun op => op.carries tag := by
    funext p
    rw [Valid.untagged, Table.sieve]
    generalize (p.2.filter fun o => !o.2.carries tag) = kept
    cases kept <;> rfl
  rw [Table.discard, ← hsieve]
  rfl

/-- An entry of a path is the operation of its route. -/
theorem operation?_of_mem (h : doc.Valid) {p : String × Table Method Operation}
    (hp : p ∈ doc.paths) {o : Method × Operation} (ho : o ∈ p.2) :
    doc.operation? ⟨p.1, o.1⟩ = some o.2 :=
  Table.at?_of_mem h.keysDistinct hp ho

/-! ### Removal -/

/-- Removing a route takes its operation, and no other. -/
theorem operation?_removeRoute (h : doc.Valid) (r q : Route) :
    (doc.removeRoute r).operation? q = if r = q then none else doc.operation? q := by
  have hat := Table.at?_remove h.keysDistinct r.key q.key r.method q.method
  rw [removeRoute_eq]
  obtain ⟨key, m⟩ := r
  obtain ⟨key', m'⟩ := q
  simp only [Route.mk.injEq]
  exact hat

/-- Removing a path takes the operations under its key. -/
theorem operation?_removePath (h : doc.Valid) (template : String) (q : Route) :
    (doc.removePath template).operation? q =
      if Template.keyOf template = q.key then none else doc.operation? q :=
  Table.at?_erase h.keysDistinct (Template.keyOf template) q.key q.method

/-- Removing a tag takes the operations that carry it. -/
theorem operation?_removeTag (h : doc.Valid) (tag : String) (q : Route) :
    (doc.removeTag tag).operation? q = (doc.operation? q).filter fun op => !op.carries tag := by
  rw [removeTag_eq]
  exact Table.at?_discard h.keysDistinct (fun op => op.carries tag) q.key q.method

end ApiOutline.Document
