/-
This file looks at a layer apart from the layers around it.

The entry of a layer is its stamp, its role and the stamps of its children. Rebuilding a layer on
the way to another one changes its revision and the values of its children, but not its entry; so
the entries of a tree are a flat picture in which a step shows only where it happens.

A layer that is found or bound is closed: it has no children. To attach children opens it.
-/

import LayeredConfig.Proofs.Layer.Order

namespace LayeredConfig

namespace Role

/-- Whether a layer in this role has no children yet. -/
def isClosed : Role → Bool
  | found .. => true
  | bound .. => true
  | _ => false

/-- The role of a layer after children were attached to it. -/
def opened : Role → Role
  | bound origin source declared => expanded origin source declared
  | other => other

@[simp] theorem source_opened (role : Role) : role.opened.source? = role.source? := by
  cases role <;> rfl

@[simp] theorem origin_opened (role : Role) : role.opened.origin? = role.origin? := by
  cases role <;> rfl

@[simp] theorem imports_opened (role : Role) : role.opened.imports = role.imports := by
  cases role <;> rfl

@[simp] theorem isFound_opened (role : Role) : role.opened.isFound = role.isFound := by
  cases role <;> rfl

theorem isClosed_opened {role : Role} (bound : role.isFound = false) :
    role.opened.isClosed = false := by
  cases role with
  | found => cases bound
  | _ => rfl

theorem opened_of_open {role : Role} (isOpen : role.isClosed = false) : role.opened = role := by
  cases role with
  | bound => cases isOpen
  | _ => rfl

theorem isFound_of_open {role : Role} (isOpen : role.isClosed = false) : role.isFound = false := by
  cases role with
  | found => cases isOpen
  | _ => rfl

end Role

/-- What a layer is apart from the layers around it; its children are told by their stamps. -/
structure Entry where
  stamp : Nat
  role : Role
  children : Phase → Option (List Nat)

namespace Layer

def entry (layer : Layer) : Entry :=
  ⟨layer.stamp, layer.role, fun phase => (layer.children phase).map (·.map stamp)⟩

theorem children_entry (layer : Layer) (phase : Phase) :
    layer.entry.children phase = (layer.children phase).map (·.map stamp) := rfl

/-- A closed layer has no children. -/
def Tidy (layer : Layer) : Prop :=
  layer.role.isClosed = true → ∀ phase, layer.children phase = none

/-! ### Another role -/

@[simp] theorem stamp_withRole (role : Role) (layer : Layer) :
    (layer.withRole role).stamp = layer.stamp := by
  cases layer
  rfl

@[simp] theorem role_withRole (role : Role) (layer : Layer) :
    (layer.withRole role).role = role := by
  cases layer
  rfl

@[simp] theorem children_withRole (role : Role) (layer : Layer) (phase : Phase) :
    (layer.withRole role).children phase = layer.children phase := by
  cases layer
  cases phase <;> rfl

theorem descendants_withRole (role : Role) (layer : Layer) :
    (layer.withRole role).descendants = layer.descendants := by
  simp only [descendants, children_withRole]

/-! ### Other children -/

@[simp] theorem stamp_withChildren (phase : Phase) (found : List Layer) (layer : Layer) :
    (layer.withChildren phase found).stamp = layer.stamp := by
  obtain ⟨stamp, revision, role, before, after⟩ := layer
  cases role <;> cases phase <;> rfl

@[simp] theorem role_withChildren (phase : Phase) (found : List Layer) (layer : Layer) :
    (layer.withChildren phase found).role = layer.role.opened := by
  obtain ⟨stamp, revision, role, before, after⟩ := layer
  cases role <;> cases phase <;> rfl

theorem children_withChildren {layer : Layer} (tidy : layer.Tidy)
    (bound : layer.role.isFound = false) (phase other : Phase) (found : List Layer) :
    (layer.withChildren phase found).children other =
      if other = phase then some found else layer.children other := by
  obtain ⟨stamp, revision, role, before, after⟩ := layer
  cases role with
  | found => cases bound
  | bound origin source declared =>
    -- To open a layer drops its children, of which it has none.
    have noBefore : before = none := tidy rfl .before
    have noAfter : after = none := tidy rfl .after
    subst noBefore noAfter
    cases phase <;> cases other <;> rfl
  | _ => cases phase <;> cases other <;> rfl

/-- The children that a phase attaches come before everything that was below the layer, if no
stronger phase has come to it. -/
theorem descendants_withChildren {layer : Layer} (tidy : layer.Tidy)
    (bound : layer.role.isFound = false) {phase : Phase} (found : List Layer)
    (pending : layer.children phase = none)
    (first : phase = .before → layer.children .after = none) :
    (layer.withChildren phase found).descendants = orderAll found ++ layer.descendants := by
  cases phase with
  | before =>
    simp only [descendants, children_withChildren tidy bound, reduceCtorEq, if_true, if_false,
      pending, first rfl, orderPhase, List.nil_append, List.append_nil]
  | after =>
    simp only [descendants, children_withChildren tidy bound, reduceCtorEq, if_true, if_false,
      pending, orderPhase, List.nil_append]

theorem isOpen_of_attached {layer : Layer} (tidy : layer.Tidy) {phase : Phase}
    {found : List Layer} (attached : layer.children phase = some found) :
    layer.role.isClosed = false := by
  rw [← Bool.not_eq_true]
  intro closed
  rw [tidy closed] at attached
  cases attached

/-- A layer with children has the same entry when these are rebuilt. -/
theorem entry_withChildren {layer : Layer} (tidy : layer.Tidy) {phase : Phase}
    {found rebuilt : List Layer} (attached : layer.children phase = some found)
    (stamps : rebuilt.map stamp = found.map stamp) :
    (layer.withChildren phase rebuilt).entry = layer.entry := by
  have isOpen := isOpen_of_attached tidy attached
  have slots : (layer.withChildren phase rebuilt).entry.children = layer.entry.children := by
    funext other
    rw [children_entry, children_entry, children_withChildren tidy (Role.isFound_of_open isOpen)]
    by_cases same : other = phase
    · rw [if_pos same, same, attached, Option.map_some, Option.map_some, stamps]
    · rw [if_neg same]
  rw [entry, entry, Entry.mk.injEq]
  exact ⟨stamp_withChildren _ _ _, by rw [role_withChildren, Role.opened_of_open isOpen], slots⟩

/-- The order of a layer around one of its children, which may be rebuilt. What stands between the
child and the layer stands there with all that is below it. -/
theorem order_around {layer child : Layer} (tidy : layer.Tidy) {phase : Phase}
    {earlier later : List Layer}
    (attached : layer.children phase = some (earlier ++ child :: later)) :
    ∃ front back, layer.order = front ++ child.order ++ (back ++ [layer]) ∧
      (∀ newChild, (layer.withChildren phase (earlier ++ newChild :: later)).order =
        front ++ newChild.order ++
          (back ++ [layer.withChildren phase (earlier ++ newChild :: later)])) ∧
      ∀ other ∈ back, ∀ below ∈ other.order, below ∈ back := by
  have bound := Role.isFound_of_open (isOpen_of_attached tidy attached)
  have closed (found : List Layer) : ∀ other ∈ orderAll found, ∀ below ∈ other.order,
      below ∈ orderAll found := by
    intro other member below isBelow
    obtain ⟨sibling, isSibling, inside⟩ := mem_orderAll.mp member
    exact mem_orderAll.mpr ⟨sibling, isSibling, mem_order_trans isBelow inside⟩
  cases phase with
  | before =>
    refine ⟨orderPhase (layer.children .after) ++ orderAll later, orderAll earlier, ?_, ?_,
      closed earlier⟩
    · rw [order_eq, descendants, attached]
      simp only [orderPhase, orderAll_append, orderAll, List.append_assoc]
    · intro newChild
      rw [order_eq, descendants]
      simp only [children_withChildren tidy bound, reduceCtorEq, if_true, if_false, orderPhase,
        orderAll_append, orderAll, List.append_assoc]
  | after =>
    refine ⟨orderAll later, orderAll earlier ++ orderPhase (layer.children .before), ?_, ?_, ?_⟩
    · rw [order_eq, descendants, attached]
      simp only [orderPhase, orderAll_append, orderAll, List.append_assoc]
    · intro newChild
      rw [order_eq, descendants]
      simp only [children_withChildren tidy bound, reduceCtorEq, if_true, if_false, orderPhase,
        orderAll_append, orderAll, List.append_assoc]
    · intro other member below isBelow
      rcases List.mem_append.mp member with inEarlier | inBefore
      · exact List.mem_append_left _ (closed earlier other inEarlier below isBelow)
      · refine List.mem_append_right _ ?_
        cases attachedBefore : layer.children .before with
        | none =>
          rw [attachedBefore] at inBefore
          cases inBefore
        | some found =>
          rw [attachedBefore] at inBefore
          exact closed found other inBefore below isBelow

end Layer

end LayeredConfig
