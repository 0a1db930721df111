import FlowCanvas.Arrangement
import FlowCanvas.Sort.Stable

/-!
The picture of an arrangement: what is drawn and in which order. Groups come first and larger ones
before smaller ones, so that a group does not hide what is in it; then come the arrows, from the
centre of one box to the border of another, and at last all other boxes.
-/

namespace FlowCanvas

variable {α : Type} [Scalar α]

structure Arrow (α : Type) where
  kind : EdgeKind
  start : Point α
  tip : Point α

structure Picture (α : Type) where
  view : Rect α
  groups : List (Box α)
  arrows : List (Arrow α)
  boxes : List (Box α)

namespace Rect

def area (r : Rect α) : α := r.width * r.height

/-- How far to go from the centre along one axis to meet the border, as a part of the way to a
point that is `d` away. Without a distance there is no border to meet. -/
def reach? (extent d : α) : Option α :=
  if d == Scalar.zero then none else some (extent / Scalar.two / Scalar.abs d)

def clip (r : Rect α) (p : Point α) : Point α :=
  let c := r.center
  let dx := p.x - c.x
  let dy := p.y - c.y
  match Scalar.least? ((reach? r.width dx).toList ++ (reach? r.height dy).toList) with
  | none => c
  | some t =>
    let scale := Scalar.smaller t (Scalar.ofNat 1)
    ⟨c.x + dx * scale, c.y + dy * scale⟩

end Rect

namespace Picture

/-- Larger boxes before smaller ones; boxes of one size keep their order. An area that is not a
number is neither larger nor smaller than any other, so that the comparison is no order: then the
steps of the sort decide, and among many boxes they may run into a contradiction. -/
def byArea? (boxes : List (Box α)) : Option (List (Box α)) :=
  if boxes.all (fun b => b.rect.area == b.rect.area) then
    some (boxes.mergeSort fun a b => decide (b.rect.area ≤ a.rect.area))
  else Sort.stable? (fun a b => decide (b.rect.area < a.rect.area)) boxes

def viewOf (padding : α) (bounds : Rect α) : Rect α :=
  let least := Scalar.ofNat 200
  ⟨bounds.x - padding, bounds.y - padding,
    Scalar.larger (bounds.width + padding * Scalar.two) least,
    Scalar.larger (bounds.height + padding * Scalar.two) least⟩

def arrow? (a : Arrangement α) (e : Edge) : Option (Arrow α) :=
  (a.box? e.source).bind fun source =>
    (a.box? e.target).map fun target =>
      ⟨e.kind, source.rect.center, target.rect.clip source.rect.center⟩

def ofArrangement? (padding : α) (a : Arrangement α) (edges : List Edge) : Option (Picture α) :=
  (byArea? a.groups).map fun groups =>
    ⟨viewOf padding a.bounds, groups, edges.filterMap (arrow? a), a.boxes.filter (·.kind ≠ .group)⟩

theorem byArea?_perm {boxes sorted : List (Box α)} (h : byArea? boxes = some sorted) :
    sorted.Perm boxes := by
  unfold byArea? at h
  split at h
  · cases h
    exact boxes.mergeSort_perm _
  · exact Sort.stable?_perm h

end Picture

end FlowCanvas
