import ApiProbe.Expr.Machine

/-!
# Closing what is open

An operand closes the constructs around it from the tightest outwards. Frames are ranked by how
loosely they bind, and what closes up to a rank leaves alone the frames beyond it.
-/

namespace ApiProbe.Expr

def Frame.rank : Frame → Nat
  | .neg | .not | .plus => 0
  | .arith .mul _ | .arith .div _ => 1
  | .arith .add _ | .arith .sub _ => 2
  | .test .. | .bound _ => 3
  | .all _ => 4
  | .any _ => 5
  | _ => 6

/-- Whatever is open binds no tighter than the rank. -/
def Outside (rank : Nat) (frames : List Frame) : Prop :=
  ∀ f ∈ frames.head?, rank ≤ f.rank

theorem Outside.mono {m n : Nat} {frames : List Frame} (hmn : m ≤ n) (h : Outside n frames) :
    Outside m frames :=
  fun f hf => Nat.le_trans hmn (h f hf)

theorem outside_nil (rank : Nat) : Outside rank [] :=
  nofun

theorem outside_cons {rank : Nat} {f : Frame} {frames : List Frame} (h : rank ≤ f.rank) :
    Outside rank (f :: frames) := by
  intro g hg
  obtain rfl := Option.some.inj hg
  exact h

section

variable {t u : Tree} {fs gs : List Frame}

theorem closeUnary_of_outside (h : Outside 1 fs) : closeUnary t fs = (t, fs) := by
  cases fs with
  | nil => rfl
  | cons f fs =>
      have hf := h f rfl
      cases f <;> first | rfl | exact absurd hf (by decide)

theorem closeProduct_eq (h : closeUnary t fs = (u, gs)) (hgs : Outside 2 gs) :
    closeProduct t fs = (u, gs) := by
  rw [closeProduct, h]
  split
  · rename_i heq
    obtain ⟨rfl, rfl⟩ := Prod.mk.inj heq
    exact absurd (hgs _ rfl) (Nat.not_succ_le_self _)
  · rename_i heq
    obtain ⟨rfl, rfl⟩ := Prod.mk.inj heq
    exact absurd (hgs _ rfl) (Nat.not_succ_le_self _)
  · rfl

theorem closeProduct_arith {op : Operator} {left : Tree} (hop : (Frame.arith op left).rank = 1)
    (h : closeUnary t fs = (u, .arith op left :: gs)) : closeProduct t fs = (.arith op left u, gs) := by
  rw [closeProduct, h]
  cases op <;> first | rfl | cases hop

theorem closeSum_of_closeProduct (h : closeProduct t fs = (u, gs)) (hgs : Outside 3 gs) :
    closeSum t fs = (u, gs) := by
  rw [closeSum, h]
  split
  · rename_i heq
    obtain ⟨rfl, rfl⟩ := Prod.mk.inj heq
    exact absurd (hgs _ rfl) (Nat.not_succ_le_self _)
  · rename_i heq
    obtain ⟨rfl, rfl⟩ := Prod.mk.inj heq
    exact absurd (hgs _ rfl) (Nat.not_succ_le_self _)
  · rfl

theorem closeSum_eq (h : closeUnary t fs = (u, gs)) (hgs : Outside 3 gs) :
    closeSum t fs = (u, gs) :=
  closeSum_of_closeProduct (closeProduct_eq h (hgs.mono (by decide))) hgs

theorem closeSum_arith {op : Operator} {left : Tree} (hop : (Frame.arith op left).rank = 2)
    (h : closeProduct t fs = (u, .arith op left :: gs)) : closeSum t fs = (.arith op left u, gs) := by
  rw [closeSum, h]
  cases op <;> first | rfl | cases hop

theorem closeTest_of_closeSum (h : closeSum t fs = (u, gs)) (hgs : Outside 4 gs) :
    closeTest t fs = (u, gs) := by
  rw [closeTest, h]
  split
  · rename_i heq
    obtain ⟨rfl, rfl⟩ := Prod.mk.inj heq
    exact absurd (hgs _ rfl) (Nat.not_succ_le_self _)
  · rename_i heq
    obtain ⟨rfl, rfl⟩ := Prod.mk.inj heq
    exact absurd (hgs _ rfl) (Nat.not_succ_le_self _)
  · rfl

theorem closeTest_eq (h : closeUnary t fs = (u, gs)) (hgs : Outside 4 gs) :
    closeTest t fs = (u, gs) :=
  closeTest_of_closeSum (closeSum_eq h (hgs.mono (by decide))) hgs

theorem closeTest_test {test : Test} {left : Tree} (h : closeSum t fs = (u, .test test left :: gs)) :
    closeTest t fs = (.test test left u, gs) := by
  rw [closeTest, h]

theorem closeTest_of_bound {test : Test} (h : closeSum t fs = (u, .bound test :: gs)) :
    closeTest t fs = (.bound test u, gs) := by
  rw [closeTest, h]

theorem closeTest_bound {test : Test} (h : closeUnary t fs = (u, .bound test :: gs)) :
    closeTest t fs = (.bound test u, gs) :=
  closeTest_of_bound (closeSum_eq h (outside_cons Nat.le.refl))

/-- A test in a test is refused, so the operand of one is no test itself. -/
theorem addTest?_eq {test : Test} (h : closeSum t fs = (u, gs)) (hgs : Outside 4 gs) :
    addTest? t fs test = some ⟨.operand, .test test u :: gs⟩ := by
  rw [addTest?, h]
  split
  · rename_i heq
    obtain ⟨-, rfl⟩ := Prod.mk.inj heq
    exact absurd (hgs _ rfl) (Nat.not_succ_le_self _)
  · rename_i heq
    obtain ⟨-, rfl⟩ := Prod.mk.inj heq
    exact absurd (hgs _ rfl) (Nat.not_succ_le_self _)
  · rename_i heq
    obtain ⟨rfl, rfl⟩ := Prod.mk.inj heq
    rfl

theorem closeAll_eq (h : closeTest t fs = (u, gs)) (hgs : Outside 5 gs) :
    closeAll t fs = (u, gs) := by
  rw [closeAll, h]
  split
  · rename_i heq
    obtain ⟨rfl, rfl⟩ := Prod.mk.inj heq
    exact absurd (hgs _ rfl) (Nat.not_succ_le_self _)
  · rfl

theorem closeAll_all {parts : List Tree} (h : closeTest t fs = (u, .all parts :: gs)) :
    closeAll t fs = (.all (parts ++ [u]), gs) := by
  rw [closeAll, h]

theorem closeExpression_eq (h : closeAll t fs = (u, gs)) (hgs : Outside 6 gs) :
    closeExpression t fs = (u, gs) := by
  rw [closeExpression, h]
  split
  · rename_i heq
    obtain ⟨rfl, rfl⟩ := Prod.mk.inj heq
    exact absurd (hgs _ rfl) (Nat.not_succ_le_self _)
  · rfl

theorem closeExpression_any {options : List Tree} (h : closeAll t fs = (u, .any options :: gs)) :
    closeExpression t fs = (.any (options ++ [u]), gs) := by
  rw [closeExpression, h]

theorem addPart_first (h : closeTest t fs = (u, gs)) (hgs : Outside 5 gs) :
    addPart t fs = ⟨.expression, .all [u] :: gs⟩ := by
  rw [addPart, h]
  split
  · rename_i heq
    obtain ⟨rfl, rfl⟩ := Prod.mk.inj heq
    exact absurd (hgs _ rfl) (Nat.not_succ_le_self _)
  · rename_i heq
    obtain ⟨rfl, rfl⟩ := Prod.mk.inj heq
    rfl

theorem addPart_next {parts : List Tree} (h : closeTest t fs = (u, .all parts :: gs)) :
    addPart t fs = ⟨.expression, .all (parts ++ [u]) :: gs⟩ := by
  rw [addPart, h]

theorem addOption_first (h : closeAll t fs = (u, gs)) (hgs : Outside 6 gs) :
    addOption t fs = ⟨.expression, .any [u] :: gs⟩ := by
  rw [addOption, h]
  split
  · rename_i heq
    obtain ⟨rfl, rfl⟩ := Prod.mk.inj heq
    exact absurd (hgs _ rfl) (Nat.not_succ_le_self _)
  · rename_i heq
    obtain ⟨rfl, rfl⟩ := Prod.mk.inj heq
    rfl

theorem addOption_next {options : List Tree} (h : closeAll t fs = (u, .any options :: gs)) :
    addOption t fs = ⟨.expression, .any (options ++ [u]) :: gs⟩ := by
  rw [addOption, h]

section Item

variable {items : List (Item Tree)}

theorem closeItem?_value (h : closeExpression t fs = (u, .list items :: gs)) :
    closeItem? t fs = some (items ++ [.value u], gs) := by
  rw [closeItem?, h]

theorem closeItem?_restOf (h : closeExpression t fs = (u, .rest :: .list items :: gs)) :
    closeItem? t fs = some (items ++ [.restOf u], gs) := by
  rw [closeItem?, h]

theorem separate?_item (h : closeExpression t fs = (u, .list items :: gs)) :
    separate? t fs = some ⟨.listSeparated, .list (items ++ [.value u]) :: gs⟩ := by
  rw [separate?, closeItem?_value h]

theorem separate?_rest (h : closeExpression t fs = (u, .rest :: .list items :: gs)) :
    separate? t fs = some ⟨.listSeparated, .list (items ++ [.restOf u]) :: gs⟩ := by
  rw [separate?, closeItem?_restOf h]

theorem closeBracket?_value (h : closeExpression t fs = (u, .list items :: gs)) :
    closeBracket? t fs = some ⟨.complete (.list (items ++ [.value u])), gs⟩ := by
  rw [closeBracket?, h, closeItem?_value h]
  rfl

theorem closeBracket?_restOf (h : closeExpression t fs = (u, .rest :: .list items :: gs)) :
    closeBracket? t fs = some ⟨.complete (.list (items ++ [.restOf u])), gs⟩ := by
  rw [closeBracket?, h, closeItem?_restOf h]
  rfl

theorem closeBracket?_index {target : Tree} (h : closeExpression t fs = (u, .index target :: gs)) :
    closeBracket? t fs = some ⟨.complete (.index target u), gs⟩ := by
  rw [closeBracket?, h]

end Item

section Field

variable {labels : List Label} {fields : List Field}

theorem closeLabels_labels (labels inner : List Label) (gs : List Frame) :
    closeLabels inner (labels.map .label ++ gs) = closeLabels (labels.reverse ++ inner) gs := by
  induction labels generalizing inner with
  | nil => rfl
  | cons label labels ih =>
      rw [List.map_cons, List.cons_append, closeLabels, ih, List.reverse_cons, List.append_assoc]
      rfl

/-- The labels in front of a value are open in reverse, the last one first. -/
def labelFrames (labels : List Label) : List Frame :=
  labels.reverse.map .label

theorem closeField?_labels {base : List Frame} (hne : labels ≠ [])
    (hbase : ∀ inner, closeLabels inner base = (inner, base))
    (h : closeExpression t fs = (u, labelFrames labels ++ base)) :
    closeField? t fs = some ((labels, u), base) := by
  obtain ⟨label, rest, rfl⟩ := List.exists_cons_of_ne_nil hne
  rw [closeField?, h]
  dsimp only
  rw [labelFrames, closeLabels_labels, List.reverse_reverse, List.append_nil, hbase]

theorem closeItem?_labels {base : List Frame} (hne : labels ≠ [])
    (h : closeExpression t fs = (u, labelFrames labels ++ base)) : closeItem? t fs = none := by
  obtain ⟨label, rest, hrest⟩ := List.exists_cons_of_ne_nil (mt List.reverse_eq_nil_iff.mp hne)
  rw [labelFrames, hrest] at h
  rw [closeItem?, h]
  rfl

theorem separate?_labels (hne : labels ≠ [])
    (h : closeExpression t fs = (u, labelFrames labels ++ .struct fields :: gs)) :
    separate? t fs = some ⟨.structSeparated, .struct (fields ++ [(labels, u)]) :: gs⟩ := by
  rw [separate?, closeItem?_labels hne h, closeField?_labels hne (fun _ => rfl) h]

theorem separate?_document (hne : labels ≠ [])
    (h : closeExpression t fs = (u, labelFrames labels ++ .document fields :: gs)) :
    separate? t fs = some ⟨.documentSeparated, .document (fields ++ [(labels, u)]) :: gs⟩ := by
  rw [separate?, closeItem?_labels hne h, closeField?_labels hne (fun _ => rfl) h]

theorem closeBrace?_labels (hne : labels ≠ [])
    (h : closeExpression t fs = (u, labelFrames labels ++ .struct fields :: gs)) :
    closeBrace? t fs = some ⟨.complete (.struct (fields ++ [(labels, u)])), gs⟩ := by
  rw [closeBrace?, closeField?_labels hne (fun _ => rfl) h]

end Field

theorem closeField?_nil (h : closeExpression t fs = (u, [])) : closeField? t fs = none := by
  rw [closeField?, h]
  rfl

theorem separate?_nil (h : closeExpression t fs = (u, [])) :
    separate? t fs = some ⟨.finished u, []⟩ := by
  have hitem : closeItem? t fs = none := by
    rw [closeItem?, h]
  rw [separate?, hitem, closeField?_nil h, h]

end

/-- The document of a text that ends behind the operand `t`. -/
def closeDocument? (t : Tree) (frames : List Frame) : Option Document :=
  match closeField? t frames with
  | some (field, [.document fields]) => some (.fields (fields ++ [field]))
  | _ =>
    match closeExpression t frames with
    | (t, []) => some (.value t)
    | _ => none

theorem finish?_complete (t : Tree) (frames : List Frame) :
    Machine.finish? ⟨.complete t, frames⟩ = closeDocument? t frames :=
  rfl

theorem finish?_labelOrOperand (label : Label) (frames : List Frame) :
    Machine.finish? ⟨.labelOrOperand label, frames⟩ = closeDocument? label.operand frames :=
  rfl

end ApiProbe.Expr
