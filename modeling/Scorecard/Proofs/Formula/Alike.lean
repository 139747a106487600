import Scorecard.Proofs.Formula.Building

/-!
# Formulas that differ in their numbers

Whether an arithmetic formula has a value does not depend on the doubles in it, nor on whether one
of them is a constant or the negative of a constant in parentheses.  `Node.Alike` relates two such
trees, and this module says that they stay alike when nodes are put into them.

There is one exception: an empty pair of parentheses takes the operand before it if that is a
constant, and is refused if it is a group.  `Node.endsInGroup` says which of the two an empty pair
would meet, and an empty pair fits only where it is the same on both sides (`Node.Fits`).

* Putting alike nodes into alike trees makes alike trees, or fails on both sides (`insert_alike`).
* Where the second side gets a negated constant for a constant, the trees stay alike, but they may
  end differently (`insert_negated_alike`).
-/

namespace Scorecard.Formula

/-- Both computations succeed, with related results, or both fail. -/
inductive Agree {ε α : Type} (R : α → α → Prop) : Except ε α → Except ε α → Prop
  | ok {a b : α} (h : R a b) : Agree R (.ok a) (.ok b)
  | error (e f : ε) : Agree R (.error e) (.error f)

theorem Agree.map {ε α β : Type} {R : α → α → Prop} {S : β → β → Prop} {x y : Except ε α}
    {f g : α → β} (h : Agree R x y) (hfg : ∀ a b, R a b → S (f a) (g b)) :
    Agree S (x.map f) (y.map g) := by
  cases h with
  | ok hab => exact .ok (hfg _ _ hab)
  | error e f => exact .error e f

theorem Agree.bind {ε α β : Type} {R : α → α → Prop} {S : β → β → Prop} {x y : Except ε α}
    {f g : α → Except ε β} (h : Agree R x y) (hfg : ∀ a b, R a b → Agree S (f a) (g b)) :
    Agree S (x.bind f) (y.bind g) := by
  cases h with
  | ok hab => exact hfg _ _ hab
  | error e f => exact .error e f

/-! ## Trees -/

namespace Node

/-- A constant. -/
def number (x : Float) : Node := mk (.constant (.float x)) []

/-- The negative of a constant, in parentheses. -/
def negated (x : Float) : Node := mk .root [mk .neg [number x]]

mutual

/-- The trees differ only in their doubles, and where the first has a constant the second may have
the negative of a constant in parentheses. -/
inductive Alike : Node → Node → Prop
  | number (x y : Float) : Alike (number x) (number y)
  | negated (x y : Float) : Alike (number x) (negated y)
  | mk {op : Operator} {as bs : List Node}
      (hop : op = .root ∨ op = .neg ∨ ∃ b : Binary, b.IsArithmetic ∧ op = .binary b)
      (h : AllAlike as bs) : Alike (mk op as) (mk op bs)

/-- The same for operands. -/
inductive AllAlike : List Node → List Node → Prop
  | nil : AllAlike [] []
  | cons {a b : Node} {as bs : List Node} (h : Alike a b) (hs : AllAlike as bs) :
      AllAlike (a :: as) (b :: bs)

end

theorem AllAlike.length_eq : ∀ {as bs : List Node}, AllAlike as bs → as.length = bs.length
  | _, _, .nil => rfl
  | _, _, .cons _ hs => congrArg (· + 1) hs.length_eq

theorem AllAlike.isEmpty_eq {as bs : List Node} (h : AllAlike as bs) :
    as.isEmpty = bs.isEmpty := by
  cases h <;> rfl

/-- Whether an empty pair of parentheses that comes next meets a group. -/
def endsInGroup : Node → Bool
  | mk _ [] => false
  | mk op (last :: rest) =>
      op.arity? == some (rest.length + 1) && (last.operator.isRoot || last.endsInGroup)

theorem endsInGroup_of_full {op : Operator} {last : Node} {rest : List Node}
    (hfull : op.arity? = some (rest.length + 1)) :
    (mk op (last :: rest)).endsInGroup = (last.operator.isRoot || last.endsInGroup) := by
  rw [endsInGroup, hfull]
  simp

/-- The node can be put into alike trees: it is a constant or has no operands yet, or it is a group,
and an empty group meets a group on both sides or on none. -/
inductive Fits (a b : Node) : Node → Node → Prop
  | number (x y : Float) : Fits a b (number x) (number y)
  | operator {op : Operator} (hop : op = .neg ∨ ∃ c : Binary, c.IsArithmetic ∧ op = .binary c) :
      Fits a b (mk op []) (mk op [])
  | group {as bs : List Node} (h : AllAlike as bs)
      (hempty : as = [] → a.endsInGroup = b.endsInGroup) :
      Fits a b (mk .root as) (mk .root bs)

variable {a b n m : Node}

/-- Alike trees take what binds more tightly on both sides: a constant binds as tightly as a
group. -/
theorem Alike.yieldsTo (h : Alike a b) (inner : Operator) :
    a.operator.yieldsTo inner = b.operator.yieldsTo inner := by
  cases h with
  | number x y => rfl
  | negated x y => rfl
  | mk hop _ => rfl

theorem Fits.yieldsTo (h : Fits a b n m) (outer : Operator) :
    outer.yieldsTo n.operator = outer.yieldsTo m.operator := by
  cases h with
  | number x y => rfl
  | operator hop => rfl
  | group _ _ => rfl

theorem Fits.isLeaf (h : Fits a b n m) : n.operator.isLeaf = m.operator.isLeaf := by
  cases h with
  | number x y => rfl
  | operator hop => rfl
  | group _ _ => rfl

theorem Fits.isRoot (h : Fits a b n m) : n.operator.isRoot = m.operator.isRoot := by
  cases h with
  | number x y => rfl
  | operator hop => rfl
  | group _ _ => rfl

theorem Fits.isEmpty (h : Fits a b n m) : n.operands.isEmpty = m.operands.isEmpty := by
  cases h with
  | number x y => rfl
  | operator hop => rfl
  | group h _ => cases h <;> rfl

theorem Fits.alike (h : Fits a b n m) : Alike n m := by
  cases h with
  | number x y => exact .number x y
  | operator hop => exact .mk (.inr hop) .nil
  | group h _ => exact .mk (.inl rfl) h

/-- A node that fits ends in a group only if it is one. -/
theorem Fits.endsInGroup (h : Fits a b n m) :
    (n.operator.isRoot || n.endsInGroup) = (m.operator.isRoot || m.endsInGroup) := by
  cases h with
  | number x y => rfl
  | operator hop => rfl
  | group _ _ => rfl

/-- Nothing goes into a constant. -/
theorem insert_number (n : Node) (x : Float) (atRoot : Bool) :
    ∃ e, insert n atRoot (number x) = .error e := by
  by_cases h : (!(Operator.yieldsTo (.constant (.float x)) n.operator || atRoot)) = true
  · exact ⟨.precedenceViolation, by rw [number, insert, if_pos h]⟩
  · exact ⟨.appendedToLeaf, by rw [number, insert, if_neg h]; rfl⟩

/-- Only an operator in front of its operand goes below a group. -/
theorem root_yieldsTo (inner : Operator) : Operator.root.yieldsTo inner = inner.isUnary := by
  cases inner with
  | binary c => cases c <;> rfl
  | assignWith c => rfl
  | _ => rfl

section

variable {op : Operator} {operands : List Node} {atRoot : Bool}

/-- A node that may take more operands takes the new one. -/
theorem insert_hungry (houter : (op.yieldsTo n.operator || atRoot) = true)
    (hleaf : op.isLeaf = false) (hhungry : op.arity? ≠ some operands.length) :
    insert n atRoot (mk op operands) = .ok (mk op (n :: operands)) := by
  cases operands with
  | nil =>
    rw [insert, houter, hleaf]
    rfl
  | cons last rest =>
    rw [insert, houter, hleaf]
    simp only [Bool.not_true, Bool.false_eq_true, if_false]
    exact if_pos hhungry

/-- A node that binds more tightly refuses the new one. -/
theorem insert_refused (houter : (op.yieldsTo n.operator || atRoot) = false) :
    insert n atRoot (mk op operands) = .error .precedenceViolation := by
  unfold insert
  rw [houter]
  rfl

variable {last : Node} {rest : List Node}

/-- A full node lets the new one go into its last operand, if that binds less tightly. -/
theorem insert_below (houter : (op.yieldsTo n.operator || atRoot) = true)
    (hleaf : op.isLeaf = false) (hfull : op.arity? = some (rest.length + 1))
    (hlast : last.operator.yieldsTo n.operator = true) :
    insert n atRoot (mk op (last :: rest)) =
      (insert n false last).map fun last => mk op (last :: rest) := by
  rw [insert, houter, hleaf]
  simp [hfull, hlast]

/-- A node takes the last operand of a full node over, or is refused. -/
def takeLast (n : Node) (op : Operator) (last : Node) (rest : List Node) : Except EvalError Node :=
  if n.operator.isLeaf then .error .appendedToLeaf
  else if op.isRoot && (!rest.isEmpty || n.operator.isRoot) then .error .missingOperator
  else if n.operator.isRoot && (!n.operands.isEmpty || last.operator.isRoot) then
    .error .missingOperator
  else .ok (mk op (n.append last :: rest))

/-- Otherwise the new node takes the last operand over. -/
theorem insert_take (houter : (op.yieldsTo n.operator || atRoot) = true)
    (hleaf : op.isLeaf = false) (hfull : op.arity? = some (rest.length + 1))
    (hlast : last.operator.yieldsTo n.operator = false) :
    insert n atRoot (mk op (last :: rest)) = takeLast n op last rest := by
  rw [insert, houter, hleaf]
  simp [hfull, hlast, takeLast]

end

/-- Nothing goes into a negated constant either, from an operand up. -/
theorem insert_negated (n : Node) (x : Float) : ∃ e, insert n false (negated x) = .error e := by
  by_cases hunary : n.operator.isUnary = true
  · have hyields : ∀ op : Operator, op.yieldsTo n.operator = true := by
      intro op
      simp [Operator.yieldsTo, hunary]
    obtain ⟨e, he⟩ := insert_number n x false
    refine ⟨e, ?_⟩
    rw [negated, insert_below (by simp [hyields]) rfl rfl (hyields _),
      insert_below (by simp [hyields]) rfl rfl (hyields _), he]
    rfl
  · refine ⟨.precedenceViolation, insert_refused ?_⟩
    rw [root_yieldsTo, Bool.eq_false_iff.mpr hunary]
    rfl

/-- An operator that takes its operands from below another is no group, unless it stands in front of
its operand. -/
theorem isRoot_of_yieldsTo_root {op : Operator} (h : op.yieldsTo .root = true) :
    op.isRoot = false := by
  cases op with
  | root => exact absurd h (by decide)
  | _ => rfl

/-- A node that fits into a full tree and goes into its last operand fits into that. -/
theorem Fits.below {op : Operator} {last last' : Node} {rest rest' : List Node}
    (h : Fits (mk op (last :: rest)) (mk op (last' :: rest')) n m) (hlast : Alike last last')
    (hfull : op.arity? = some (rest.length + 1)) (hfull' : op.arity? = some (rest'.length + 1))
    (hbelow : last.operator.yieldsTo n.operator = true) : Fits last last' n m := by
  cases h with
  | number x y => exact .number x y
  | operator hop => exact .operator hop
  | group hs hempty =>
    refine .group hs fun has => ?_
    have hroot := isRoot_of_yieldsTo_root hbelow
    have hroot' : last'.operator.isRoot = false := by
      rw [hlast.yieldsTo] at hbelow
      exact isRoot_of_yieldsTo_root hbelow
    have hends := hempty has
    rwa [endsInGroup_of_full hfull, endsInGroup_of_full hfull', hroot, hroot', Bool.false_or,
      Bool.false_or] at hends

/-- An operator that takes over the last operand has only that, so nothing ends in a group. -/
theorem endsInGroup_append {op : Operator} (hop : op.arity? = some 2) (last : Node) :
    (append (mk op []) last).endsInGroup = false := by
  simp [append, operator, operands, endsInGroup, hop]

/-- A node that fits takes the last operands of alike trees over, or is refused on both sides. -/
theorem takeLast_alike {op : Operator} {last last' : Node} {rest rest' : List Node}
    (hop : op = .root ∨ op = .neg ∨ ∃ c : Binary, c.IsArithmetic ∧ op = .binary c)
    (hlast : Alike last last') (hrest : AllAlike rest rest')
    (hfit : Fits (mk op (last :: rest)) (mk op (last' :: rest')) n m)
    (hfull : op.arity? = some (rest.length + 1)) (hfull' : op.arity? = some (rest'.length + 1))
    (hbelow : last.operator.yieldsTo n.operator = false) :
    Agree (fun r s => Alike r s ∧ r.operator = s.operator ∧ r.endsInGroup = s.endsInGroup)
      (takeLast n op last rest) (takeLast m op last' rest') := by
  cases hfit with
  | number x y => exact .error _ _
  | @operator inner hinner =>
    rcases hinner with rfl | ⟨c, hc, rfl⟩
    · simp [Operator.yieldsTo, operator, Operator.isUnary, Operator.arity?,
        Operator.isRoot] at hbelow
    · have hleaf : (Operator.binary c).isLeaf = false := rfl
      have hroot : (Operator.binary c).isRoot = false := rfl
      simp only [takeLast, operator_mk, hleaf, hroot, hrest.isEmpty_eq, Bool.false_and,
        Bool.or_false, Bool.false_eq_true, if_false]
      split
      · exact .error _ _
      · refine .ok ⟨.mk hop (.cons (.mk (.inr (.inr ⟨c, hc, rfl⟩)) (.cons hlast .nil)) hrest),
          rfl, ?_⟩
        rw [endsInGroup_of_full hfull, endsInGroup_of_full hfull', endsInGroup_append rfl,
          endsInGroup_append rfl]
        rfl
  | @group inner inner' hinner hempty =>
    have hleaf : Operator.root.isLeaf = false := rfl
    have hroot : Operator.root.isRoot = true := rfl
    simp only [takeLast, operator_mk, operands_mk, hleaf, hroot, hrest.isEmpty_eq,
      hinner.isEmpty_eq, Bool.or_true, Bool.and_true, Bool.true_and, Bool.false_eq_true, if_false]
    split
    · exact .error _ _
    · cases hinner with
      | cons hx hxs => exact .error _ _
      | nil =>
        have hends := hempty rfl
        rw [endsInGroup_of_full hfull, endsInGroup_of_full hfull'] at hends
        cases hlast with
        | number x y =>
          refine .ok ⟨.mk hop (.cons (.mk (.inl rfl) (.cons (.number x y) .nil)) hrest),
            rfl, ?_⟩
          rw [endsInGroup_of_full hfull, endsInGroup_of_full hfull']
          rfl
        | negated x y => exact absurd (show false = true from hends) (by decide)
        | @mk last as bs hlast hs =>
          cases hgroup : last.isRoot with
          | true =>
            simp only [operator_mk, hgroup, Bool.or_true, if_true]
            exact .error _ _
          | false =>
            simp only [operator_mk, hgroup, List.isEmpty_nil, Bool.not_true, Bool.or_false,
              Bool.false_eq_true, if_false]
            refine .ok ⟨.mk hop (.cons (.mk (.inl rfl) (.cons (.mk hlast hs) .nil)) hrest), rfl, ?_⟩
            rw [endsInGroup_of_full hfull, endsInGroup_of_full hfull']
            rfl

/-- Nodes that fit into alike trees make alike trees, or are refused on both sides. -/
theorem insert_alike : ∀ {a b : Node}, Alike a b → ∀ {n m : Node}, Fits a b n m →
    ∀ {atRoot : Bool}, (atRoot = true → b.operator = a.operator) →
      Agree (fun r s => Alike r s ∧ r.operator = s.operator ∧ r.endsInGroup = s.endsInGroup)
        (insert n atRoot a) (insert m atRoot b)
  | _, _, .number x y, n, m, _, atRoot, _ => by
    obtain ⟨e, he⟩ := insert_number n x atRoot
    obtain ⟨f, hf⟩ := insert_number m y atRoot
    rw [he, hf]
    exact .error e f
  | _, _, .negated x y, n, m, _, atRoot, hroot => by
    obtain rfl : atRoot = false := by
      cases atRoot with
      | false => rfl
      | true => exact absurd (hroot rfl) nofun
    obtain ⟨e, he⟩ := insert_number n x false
    obtain ⟨f, hf⟩ := insert_negated m y
    rw [he, hf]
    exact .error e f
  | _, _, @Alike.mk op as bs hop hs, n, m, hfit, atRoot, _ => by
    have hleaf : op.isLeaf = false := by
      rcases hop with rfl | rfl | ⟨c, -, rfl⟩ <;> rfl
    have hlength := hs.length_eq
    by_cases houter : (op.yieldsTo n.operator || atRoot) = true
    · have houter' : (op.yieldsTo m.operator || atRoot) = true := by rwa [← hfit.yieldsTo]
      by_cases hhungry : op.arity? ≠ some as.length
      · rw [insert_hungry houter hleaf hhungry, insert_hungry houter' hleaf (hlength ▸ hhungry)]
        refine .ok ⟨.mk hop (.cons hfit.alike hs), rfl, ?_⟩
        simp only [endsInGroup, hfit.endsInGroup, hlength]
      · cases hs with
        | nil => exact absurd (fun h => by simp [Operator.isLeaf, h] at hleaf) hhungry
        | @cons last last' rest rest' hlast hrest =>
          have hfull : op.arity? = some (rest.length + 1) := by simpa using hhungry
          have hfull' : op.arity? = some (rest'.length + 1) := by rw [← hrest.length_eq, hfull]
          cases hbelow : last.operator.yieldsTo n.operator with
          | true =>
            have hbelow' : last'.operator.yieldsTo m.operator = true := by
              rw [← hlast.yieldsTo, ← hfit.yieldsTo, hbelow]
            have ih := insert_alike hlast (hfit.below hlast hfull hfull' hbelow)
              (@nofun : false = true → _)
            rw [insert_below houter hleaf hfull hbelow, insert_below houter' hleaf hfull' hbelow']
            refine ih.map ?_
            rintro r s ⟨halike, hsame, hends⟩
            refine ⟨.mk hop (.cons halike hrest), rfl, ?_⟩
            rw [endsInGroup_of_full hfull, endsInGroup_of_full hfull', hends, hsame]
          | false =>
            have hbelow' : last'.operator.yieldsTo m.operator = false := by
              rw [← hlast.yieldsTo, ← hfit.yieldsTo, hbelow]
            rw [insert_take houter hleaf hfull hbelow, insert_take houter' hleaf hfull' hbelow']
            exact takeLast_alike hop hlast hrest hfit hfull hfull' hbelow
    · have hrefused : (op.yieldsTo n.operator || atRoot) = false := by simpa using houter
      rw [insert_refused hrefused, insert_refused (by rwa [← hfit.yieldsTo])]
      exact .error _ _

/-- A constant is refused as last operand, and so is a negated constant. -/
theorem takeLast_number (x : Float) (op : Operator) (last : Node) (rest : List Node) :
    ∃ e, takeLast (number x) op last rest = .error e := ⟨.appendedToLeaf, rfl⟩

theorem takeLast_negated (x : Float) (op : Operator) (last : Node) (rest : List Node) :
    ∃ e, takeLast (negated x) op last rest = .error e := by
  refine ⟨.missingOperator, ?_⟩
  have hleaf : Operator.root.isLeaf = false := rfl
  have hroot : Operator.root.isRoot = true := rfl
  cases hgroup : op.isRoot <;> simp [takeLast, negated, hleaf, hroot, hgroup]

/-- A constant goes into a tree where a negated constant goes into one that is alike. -/
theorem insert_negated_alike (x y : Float) : ∀ {a b : Node}, Alike a b → ∀ {atRoot : Bool},
    (atRoot = true → b.operator = a.operator) →
      Agree (fun r s => Alike r s ∧ r.operator = s.operator)
        (insert (number x) atRoot a) (insert (negated y) atRoot b)
  | _, _, .number w z, atRoot, _ => by
    obtain ⟨e, he⟩ := insert_number (number x) w atRoot
    obtain ⟨f, hf⟩ := insert_number (negated y) z atRoot
    rw [he, hf]
    exact .error e f
  | _, _, .negated w z, atRoot, hroot => by
    obtain rfl : atRoot = false := by
      cases atRoot with
      | false => rfl
      | true => exact absurd (hroot rfl) nofun
    obtain ⟨e, he⟩ := insert_number (number x) w false
    obtain ⟨f, hf⟩ := insert_negated (negated y) z
    rw [he, hf]
    exact .error e f
  | _, _, @Alike.mk op as bs hop hs, atRoot, _ => by
    have hleaf : op.isLeaf = false := by
      rcases hop with rfl | rfl | ⟨c, -, rfl⟩ <;> rfl
    have hlength := hs.length_eq
    -- A constant and a group bind equally tightly.
    have hsame : ∀ outer : Operator,
        outer.yieldsTo (number x).operator = outer.yieldsTo (negated y).operator := fun _ => rfl
    by_cases houter : (op.yieldsTo (number x).operator || atRoot) = true
    · have houter' : (op.yieldsTo (negated y).operator || atRoot) = true := by rwa [← hsame]
      by_cases hhungry : op.arity? ≠ some as.length
      · rw [insert_hungry houter hleaf hhungry, insert_hungry houter' hleaf (hlength ▸ hhungry)]
        exact .ok ⟨.mk hop (.cons (.negated x y) hs), rfl⟩
      · cases hs with
        | nil => exact absurd (fun h => by simp [Operator.isLeaf, h] at hleaf) hhungry
        | @cons last last' rest rest' hlast hrest =>
          have hfull : op.arity? = some (rest.length + 1) := by simpa using hhungry
          have hfull' : op.arity? = some (rest'.length + 1) := by rw [← hrest.length_eq, hfull]
          cases hbelow : last.operator.yieldsTo (number x).operator with
          | true =>
            have hbelow' : last'.operator.yieldsTo (negated y).operator = true := by
              rw [← hlast.yieldsTo, ← hsame, hbelow]
            have ih := insert_negated_alike x y hlast (@nofun : false = true → _)
            rw [insert_below houter hleaf hfull hbelow, insert_below houter' hleaf hfull' hbelow']
            exact ih.map fun r s hrs => ⟨.mk hop (.cons hrs.1 hrest), rfl⟩
          | false =>
            have hbelow' : last'.operator.yieldsTo (negated y).operator = false := by
              rw [← hlast.yieldsTo, ← hsame, hbelow]
            obtain ⟨e, he⟩ := takeLast_number x op last rest
            obtain ⟨f, hf⟩ := takeLast_negated y op last' rest'
            rw [insert_take houter hleaf hfull hbelow, insert_take houter' hleaf hfull' hbelow',
              he, hf]
            exact .error e f
    · have hrefused : (op.yieldsTo (number x).operator || atRoot) = false := by simpa using houter
      rw [insert_refused hrefused, insert_refused (by rwa [← hsame])]
      exact .error _ _

end Node

end Scorecard.Formula
