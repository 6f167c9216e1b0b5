import Mathlib.Data.List.Nodup
import Mathlib.Logic.Relation

/-!
# Forests of labels

A forest is a row of trees with a label at each node. `Forest.Above` relates the label of a node to
all labels beneath it, and `Forest.Parent` to those right beneath it; where no label occurs twice,
the first is the transitive closure of the second.
-/

namespace FlowAnalysis

/-- A row of trees: the label of the first one, what stands beneath it, and the further trees. -/
inductive Forest (α : Type) where
  | nil
  | tree (label : α) (inner rest : Forest α)
deriving DecidableEq, Repr

namespace Forest

variable {α β : Type}

/-- Trees of one node each. -/
def leaves : List α → Forest α
  | [] => nil
  | label :: rest => tree label nil (leaves rest)

def append : Forest α → Forest α → Forest α
  | nil, right => right
  | tree label inner rest, right => tree label inner (append rest right)

instance : Append (Forest α) := ⟨append⟩

def map (f : α → β) : Forest α → Forest β
  | nil => nil
  | tree label inner rest => tree (f label) (map f inner) (map f rest)

/-- All labels, each before those beneath it. -/
def labels : Forest α → List α
  | nil => []
  | tree label inner rest => label :: (inner.labels ++ rest.labels)

/-- The labels of the trees themselves. -/
def roots : Forest α → List α
  | nil => []
  | tree label _ rest => label :: rest.roots

/-- The second label stands anywhere beneath a node with the first one. -/
def Above : Forest α → α → α → Prop
  | nil, _, _ => False
  | tree label inner rest, upper, lower =>
      (label = upper ∧ lower ∈ inner.labels) ∨ inner.Above upper lower ∨ rest.Above upper lower

/-- The second label stands right beneath a node with the first one. -/
def Parent : Forest α → α → α → Prop
  | nil, _, _ => False
  | tree label inner rest, upper, lower =>
      (label = upper ∧ lower ∈ inner.roots) ∨ inner.Parent upper lower ∨ rest.Parent upper lower

variable {forest left right : Forest α} {upper middle lower : α}

@[simp]
theorem nil_append (right : Forest α) : nil ++ right = right := rfl

@[simp]
theorem tree_append (label : α) (inner rest right : Forest α) :
    tree label inner rest ++ right = tree label inner (rest ++ right) := rfl

@[simp]
theorem append_nil (forest : Forest α) : forest ++ nil = forest := by
  induction forest with
  | nil => rfl
  | tree label inner rest _ ih => simp [ih]

@[simp]
theorem labels_leaves (items : List α) : (leaves items).labels = items := by
  induction items with
  | nil => rfl
  | cons label rest ih => simp [leaves, labels, ih]

@[simp]
theorem roots_leaves (items : List α) : (leaves items).roots = items := by
  induction items with
  | nil => rfl
  | cons label rest ih => simp [leaves, roots, ih]

@[simp]
theorem labels_append (left right : Forest α) :
    (left ++ right).labels = left.labels ++ right.labels := by
  induction left with
  | nil => rfl
  | tree label inner rest _ ih => simp [labels, ih]

@[simp]
theorem roots_append (left right : Forest α) :
    (left ++ right).roots = left.roots ++ right.roots := by
  induction left with
  | nil => rfl
  | tree label inner rest _ ih => simp [roots, ih]

@[simp]
theorem above_append :
    (left ++ right).Above upper lower ↔ left.Above upper lower ∨ right.Above upper lower := by
  induction left with
  | nil => simp [Above]
  | tree label inner rest _ ih => simp [Above, ih, or_assoc]

@[simp]
theorem parent_append :
    (left ++ right).Parent upper lower ↔ left.Parent upper lower ∨ right.Parent upper lower := by
  induction left with
  | nil => simp [Parent]
  | tree label inner rest _ ih => simp [Parent, ih, or_assoc]

@[simp]
theorem not_parent_leaves (items : List α) : ¬(leaves items).Parent upper lower := by
  induction items with
  | nil => exact id
  | cons label rest ih => simpa [leaves, Parent, roots] using ih

@[simp]
theorem map_append (f : α → β) (left right : Forest α) :
    (left ++ right).map f = left.map f ++ right.map f := by
  induction left with
  | nil => rfl
  | tree label inner rest _ ih => simp [map, ih]

@[simp]
theorem map_leaves (f : α → β) (items : List α) :
    (leaves items).map f = leaves (items.map f) := by
  induction items with
  | nil => rfl
  | cons label rest ih => simp [leaves, map, ih]

@[simp]
theorem labels_map (f : α → β) (forest : Forest α) :
    (forest.map f).labels = forest.labels.map f := by
  induction forest with
  | nil => rfl
  | tree label inner rest innerIh restIh => simp [map, labels, innerIh, restIh]

theorem map_map {γ : Type} (f : α → β) (g : β → γ) (forest : Forest α) :
    (forest.map f).map g = forest.map (g ∘ f) := by
  induction forest with
  | nil => rfl
  | tree label inner rest innerIh restIh => simp [map, innerIh, restIh]

theorem map_congr {f g : α → β} (same : ∀ label ∈ forest.labels, f label = g label) :
    forest.map f = forest.map g := by
  induction forest with
  | nil => rfl
  | tree label inner rest innerIh restIh =>
      simp only [labels, List.mem_cons, List.mem_append] at same
      have sameInner := innerIh fun other member => same other (.inr (.inl member))
      have sameRest := restIh fun other member => same other (.inr (.inr member))
      rw [map, map, same label (.inl rfl), sameInner, sameRest]

theorem above_map {f : α → β} {upper lower : β} :
    (forest.map f).Above upper lower ↔
      ∃ upper' lower', f upper' = upper ∧ f lower' = lower ∧ forest.Above upper' lower' := by
  induction forest with
  | nil => simp [map, Above]
  | tree label inner rest innerIh restIh =>
      simp only [map, Above, labels_map, List.mem_map, innerIh, restIh]
      constructor
      · rintro (⟨rfl, lower', member, rfl⟩ | ⟨upper', lower', rfl, rfl, above⟩ |
          ⟨upper', lower', rfl, rfl, above⟩)
        · exact ⟨label, lower', rfl, rfl, .inl ⟨rfl, member⟩⟩
        · exact ⟨upper', lower', rfl, rfl, .inr (.inl above)⟩
        · exact ⟨upper', lower', rfl, rfl, .inr (.inr above)⟩
      · rintro ⟨upper', lower', rfl, rfl, ⟨rfl, member⟩ | above | above⟩
        · exact .inl ⟨rfl, lower', member, rfl⟩
        · exact .inr (.inl ⟨upper', lower', rfl, rfl, above⟩)
        · exact .inr (.inr ⟨upper', lower', rfl, rfl, above⟩)

theorem roots_subset_labels (forest : Forest α) : forest.roots ⊆ forest.labels := by
  induction forest with
  | nil => exact List.Subset.refl _
  | tree label inner rest _ ih =>
      intro root member
      rcases List.mem_cons.1 member with rfl | later
      · exact List.mem_cons_self
      · exact List.mem_cons_of_mem _ (List.mem_append_right _ (ih later))

theorem Parent.above (parent : forest.Parent upper lower) : forest.Above upper lower := by
  induction forest with
  | nil => exact parent.elim
  | tree label inner rest innerIh restIh =>
      rcases parent with ⟨rfl, isRoot⟩ | parent | parent
      · exact .inl ⟨rfl, inner.roots_subset_labels isRoot⟩
      · exact .inr (.inl (innerIh parent))
      · exact .inr (.inr (restIh parent))

theorem Above.upper_mem (above : forest.Above upper lower) : upper ∈ forest.labels := by
  induction forest with
  | nil => exact above.elim
  | tree label inner rest innerIh restIh =>
      rcases above with ⟨rfl, -⟩ | above | above
      · simp [labels]
      · simp [labels, innerIh above]
      · simp [labels, restIh above]

theorem Above.lower_mem (above : forest.Above upper lower) : lower ∈ forest.labels := by
  induction forest with
  | nil => exact above.elim
  | tree label inner rest innerIh restIh =>
      rcases above with ⟨-, member⟩ | above | above
      · simp [labels, member]
      · simp [labels, innerIh above]
      · simp [labels, restIh above]

theorem Above.trans (distinct : forest.labels.Nodup) (above : forest.Above upper middle)
    (above' : forest.Above middle lower) : forest.Above upper lower := by
  induction forest with
  | nil => exact above.elim
  | tree label inner rest innerIh restIh =>
      simp only [labels, List.nodup_cons, List.mem_append, not_or, List.nodup_append] at distinct
      rcases distinct with ⟨⟨notInner, notRest⟩, innerDistinct, restDistinct, apart⟩
      have middleInner : middle ∈ inner.labels → inner.Above middle lower := by
        intro member
        rcases above' with ⟨rfl, -⟩ | above' | above'
        · exact absurd member notInner
        · exact above'
        · exact absurd rfl (apart middle member middle above'.upper_mem)
      rcases above with ⟨rfl, member⟩ | above | above
      · exact .inl ⟨rfl, (middleInner member).lower_mem⟩
      · exact .inr (.inl (innerIh innerDistinct above (middleInner above.lower_mem)))
      · rcases above' with ⟨rfl, -⟩ | above' | above'
        · exact absurd above.lower_mem notRest
        · exact absurd rfl (apart middle above'.upper_mem middle above.lower_mem)
        · exact .inr (.inr (restIh restDistinct above above'))

/-- Every label is that of a tree or stands beneath one. -/
theorem mem_roots_or_above (member : lower ∈ forest.labels) :
    lower ∈ forest.roots ∨ ∃ root ∈ forest.roots, forest.Above root lower := by
  induction forest with
  | nil => exact absurd member List.not_mem_nil
  | tree label inner rest _ ih =>
      simp only [labels, List.mem_cons, List.mem_append] at member
      rcases member with rfl | beneath | later
      · exact .inl List.mem_cons_self
      · exact .inr ⟨label, List.mem_cons_self, .inl ⟨rfl, beneath⟩⟩
      · rcases ih later with isRoot | ⟨root, isRoot, above⟩
        · exact .inl (List.mem_cons_of_mem _ isRoot)
        · exact .inr ⟨root, List.mem_cons_of_mem _ isRoot, .inr (.inr above)⟩

/-- From a label above another one there is a chain of parents. -/
theorem Above.transGen_parent (above : forest.Above upper lower) :
    Relation.TransGen forest.Parent upper lower := by
  induction forest generalizing upper with
  | nil => exact above.elim
  | tree label inner rest innerIh restIh =>
      have ofInner : inner.Parent ≤ (tree label inner rest).Parent :=
        fun _ _ parent => .inr (.inl parent)
      have ofRest : rest.Parent ≤ (tree label inner rest).Parent :=
        fun _ _ parent => .inr (.inr parent)
      rcases above with ⟨rfl, member⟩ | above | above
      · rcases mem_roots_or_above member with isRoot | ⟨root, isRoot, above⟩
        · exact .single (.inl ⟨rfl, isRoot⟩)
        · exact .head (.inl ⟨rfl, isRoot⟩) (Relation.TransGen.mono ofInner _ _ (innerIh above))
      · exact Relation.TransGen.mono ofInner _ _ (innerIh above)
      · exact Relation.TransGen.mono ofRest _ _ (restIh above)

end Forest

end FlowAnalysis
