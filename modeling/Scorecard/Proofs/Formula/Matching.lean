import Mathlib.Data.List.Forall2
import Scorecard.Proofs.Formula.Alike

/-!
# Rows of lexemes that differ in their numbers

`Matches` relates two rows of lexemes that differ only in their doubles, where a constant in the
first may be a negated constant in parentheses in the second.  The rows become alike stacks of trees
step by step, or are refused on both sides (`stepAll_alike`), and alike trees have values on both
sides or on none (`eval_alike`).  So one row has a number as its value exactly if the other has
(`numberOf_alike`).

`Ready` is what holds of the two stacks before each lexeme: they are alike, and wherever an empty
pair of parentheses is about to be put into a tree, it meets a group in both or in neither.
-/

namespace Scorecard.Formula

open Node (Alike AllAlike Fits)

/-- An empty pair of parentheses comes first. -/
def OpensEmpty : List Lexeme → Prop
  | .opening :: .closing :: _ => True
  | _ => False

/-- The rows differ only in their doubles, and where the first has a constant the second may have a
negated constant in parentheses, unless an empty pair of parentheses follows. -/
inductive Matches : List Lexeme → List Lexeme → Prop
  | nil : Matches [] []
  | opening {as bs : List Lexeme} (h : Matches as bs) : Matches (.opening :: as) (.opening :: bs)
  | closing {as bs : List Lexeme} (h : Matches as bs) : Matches (.closing :: as) (.closing :: bs)
  | operation {as bs : List Lexeme} {operation : Binary} (hop : operation.IsArithmetic)
      (h : Matches as bs) : Matches (.operation operation :: as) (.operation operation :: bs)
  | constant {as bs : List Lexeme} (x y : Float) (h : Matches as bs) :
      Matches (.constant (.float x) :: as) (.constant (.float y) :: bs)
  | negated {as bs : List Lexeme} (x y : Float) (hempty : ¬ OpensEmpty as) (h : Matches as bs) :
      Matches (.constant (.float x) :: as)
        (.opening :: .operation .sub :: .constant (.float y) :: .closing :: bs)

/-! ## Stacks -/

/-- The stacks before the lexemes `next` are alike, and where these begin with an empty pair of
parentheses, or with the end of one, the tree that it goes into ends in a group on both sides or on
none. -/
structure Ready (next : List Lexeme) (s t : List Node) : Prop where
  alike : AllAlike s t
  groups : AllGroups s
  opens : OpensEmpty next → ∀ n ∈ s.head?, ∀ m ∈ t.head?, n.endsInGroup = m.endsInGroup
  closes : next.head? = some .closing → ∀ n ∈ s.head?, n.operands = [] →
    ∀ above ∈ s.tail.head?, ∀ above' ∈ t.tail.head?, above.endsInGroup = above'.endsInGroup

theorem Agree.eqs {ε α : Type} {R : α → α → Prop} {x y : Except ε α} (h : Agree R x y) :
    Agree (fun a b => x = .ok a ∧ R a b) x y := by
  cases h with
  | ok h => exact .ok ⟨rfl, h⟩
  | error e f => exact .error e f

/-- A tree that is alike to a group is a group. -/
theorem Alike.group {a b : Node} (h : Alike a b) (ha : a.operator = .root) :
    ∃ as bs, a = .mk .root as ∧ b = .mk .root bs ∧ AllAlike as bs := by
  cases h with
  | number x y => exact absurd ha nofun
  | negated x y => exact absurd ha nofun
  | mk hop h =>
    obtain rfl : _ = Operator.root := ha
    exact ⟨_, _, rfl, rfl, h⟩

/-- A tree has an operand after a node has been put into it. -/
theorem operands_ne_nil_of_insert {node parent r : Node} {atRoot : Bool}
    (h : Node.insert node atRoot parent = .ok r) : r.operands ≠ [] := by
  obtain ⟨op, os⟩ := parent
  rcases Node.insert_cases h with rfl | ⟨last, rest, -, rfl | ⟨last', -, rfl⟩⟩ <;> simp

/-- After a node has been put into the innermost groups, the stacks are ready again. -/
theorem ready_of_insert {next : List Lexeme} {node top r s : Node} {rest rest' : List Node}
    (hinsert : Node.insert node true top = .ok r) (htop : top.operator = .root) (hr : Alike r s)
    (hrest : AllAlike rest rest') (hgroups : AllGroups rest)
    (hends : OpensEmpty next → r.endsInGroup = s.endsInGroup) :
    Ready next (r :: rest) (s :: rest') where
  alike := .cons hr hrest
  groups n hn := by
    rcases List.mem_cons.mp hn with rfl | hn
    · rw [Node.insert_operator hinsert, htop]
    · exact hgroups n hn
  opens hopens n hn m hm := by
    obtain rfl : r = n := by simpa using hn
    obtain rfl : s = m := by simpa using hm
    exact hends hopens
  closes _ n hn hnil := by
    obtain rfl : r = n := by simpa using hn
    exact absurd hnil (operands_ne_nil_of_insert hinsert)

/-- A pair of groups is opened on both sides. -/
theorem Ready.opening {next : List Lexeme} {s t : List Node} (h : Ready (.opening :: next) s t) :
    Ready next (.group :: s) (.group :: t) where
  alike := .cons (.mk (.inl rfl) .nil) h.alike
  groups n hn := by
    rcases List.mem_cons.mp hn with rfl | hn
    · rfl
    · exact h.groups n hn
  opens _ n hn m hm := by
    obtain rfl : Node.group = n := by simpa using hn
    obtain rfl : Node.group = m := by simpa using hm
    rfl
  closes hclosing _ _ _ := by
    refine h.opens ?_
    obtain ⟨rest, rfl⟩ := List.head?_eq_some_iff.mp hclosing
    trivial

variable {afterOperand : Bool}

/-- A lexeme that goes into the innermost group. -/
theorem stepAll_place {l : Lexeme} {ls : List Lexeme} {op : Operator} {top : Node}
    {rest : List Node} (hop : l.operator? afterOperand ls.head? = some op)
    (hseq : op.isSequence = false) (htop : top.operator = .root) :
    stepAll afterOperand (top :: rest) (l :: ls) =
      (Node.insert (.mk op []) true top).bind fun r => stepAll l.endsOperand (r :: rest) ls := by
  rw [stepAll, step_place hop hseq htop]
  cases Node.insert (.mk op []) true top <;> rfl

/-- A closing parenthesis that has an opening one. -/
theorem stepAll_closing {ls : List Lexeme} {top above : Node} {rest : List Node}
    (htop : top.operator = .root) (habove : above.operator = .root) :
    stepAll afterOperand (top :: above :: rest) (.closing :: ls) =
      if 1 < top.operands.length then .error .missingOperator
      else (Node.insert top true above).bind fun r => stepAll true (r :: rest) ls := by
  rw [stepAll, step_closing htop habove]
  split
  · rfl
  · cases Node.insert top true above <;> rfl

/-- A negated constant in parentheses goes into the innermost group as a whole. -/
theorem stepAll_negated (y : Float) (ls : List Lexeme) {top : Node} {rest : List Node}
    (htop : top.operator = .root) :
    stepAll afterOperand (top :: rest)
        (.opening :: .operation .sub :: .constant (.float y) :: .closing :: ls) =
      (Node.insert (.negated y) true top).bind fun r => stepAll true (r :: rest) ls := by
  have hclosing := @stepAll_closing true ls (.negated y) top rest rfl htop
  exact hclosing

/-- The operator of an arithmetic operation is found without looking ahead. -/
theorem exists_operator?_of_operation {operation : Binary} (hop : operation.IsArithmetic)
    (afterOperand : Bool) : ∃ op,
      (∀ f, (Lexeme.operation operation).operator? afterOperand f = some op) ∧
        (op = .neg ∨ ∃ c : Binary, c.IsArithmetic ∧ op = .binary c) := by
  by_cases hneg : operation = .sub ∧ afterOperand = false
  · obtain ⟨rfl, rfl⟩ := hneg
    exact ⟨.neg, fun _ => rfl, .inl rfl⟩
  · refine ⟨.binary operation, fun f => ?_, .inr ⟨operation, hop, rfl⟩⟩
    rcases hop with rfl | rfl | rfl | rfl <;> simp_all [Lexeme.operator?]

/-- The innermost groups on both sides, and what is below them. -/
theorem Ready.exists_groups {next : List Lexeme} {s t : List Node} (h : Ready next s t)
    (hne : s ≠ []) : ∃ xs ys rest rest', s = .mk .root xs :: rest ∧ t = .mk .root ys :: rest' ∧
      AllAlike xs ys ∧ AllAlike rest rest' ∧ AllGroups rest := by
  obtain ⟨halike, hgroups, -, -⟩ := h
  cases halike with
  | nil => exact absurd rfl hne
  | @cons top top' rest rest' htop hrest =>
    obtain ⟨xs, ys, rfl, rfl, hxs⟩ := Alike.group htop (hgroups top (by simp))
    exact ⟨xs, ys, rest, rest', rfl, rfl, hxs, hrest, fun n hn => hgroups n (by simp [hn])⟩

/-- Rows that match make alike stacks, or are refused on both sides. -/
theorem stepAll_alike {as bs : List Lexeme} (h : Matches as bs) {s t : List Node}
    (hready : Ready as s t) (hne : s ≠ []) :
    Agree (fun s t => AllAlike s t ∧ AllGroups s) (stepAll afterOperand s as)
      (stepAll afterOperand t bs) := by
  induction h generalizing afterOperand s t with
  | nil => exact .ok ⟨hready.alike, hready.groups⟩
  | opening _ ih => exact ih hready.opening (by simp)
  | @closing as bs _ ih =>
    obtain ⟨xs, ys, rest, rest', rfl, rfl, hxs, hrest, hgroups⟩ := hready.exists_groups hne
    cases hrest with
    | nil => exact .error _ _
    | @cons above above' rest rest' habove hrest =>
      obtain ⟨zs, ws, rfl, rfl, hzs⟩ := Alike.group habove (hgroups above (by simp))
      rw [stepAll_closing rfl rfl, stepAll_closing rfl rfl, Node.operands_mk, Node.operands_mk,
        hxs.length_eq]
      split
      · exact .error _ _
      · have hfit : Fits (.mk .root zs) (.mk .root ws) (.mk .root xs) (.mk .root ys) := by
          refine .group hxs fun hnil => ?_
          exact hready.closes rfl _ rfl hnil _ rfl _ rfl
        refine (Node.insert_alike habove hfit fun _ => rfl).eqs.bind ?_
        rintro r u ⟨hinsert, hr, -, hends⟩
        exact ih (ready_of_insert hinsert rfl hr hrest (fun n hn => hgroups n (by simp [hn]))
          fun _ => hends) (by simp)
  | @operation as bs operation hop _ ih =>
    obtain ⟨xs, ys, rest, rest', rfl, rfl, hxs, hrest, hgroups⟩ := hready.exists_groups hne
    obtain ⟨op, hsome, hcases⟩ := exists_operator?_of_operation hop afterOperand
    have hseq : op.isSequence = false := by
      rcases hcases with rfl | ⟨c, -, rfl⟩ <;> rfl
    rw [stepAll_place (hsome _) hseq rfl, stepAll_place (hsome _) hseq rfl]
    refine (Node.insert_alike (.mk (.inl rfl) hxs) (.operator hcases) fun _ => rfl).eqs.bind ?_
    rintro r u ⟨hinsert, hr, -, hends⟩
    exact ih (ready_of_insert hinsert rfl hr hrest hgroups fun _ => hends) (by simp)
  | @constant as bs x y _ ih =>
    obtain ⟨xs, ys, rest, rest', rfl, rfl, hxs, hrest, hgroups⟩ := hready.exists_groups hne
    rw [stepAll_place rfl rfl rfl, stepAll_place rfl rfl rfl]
    refine (Node.insert_alike (.mk (.inl rfl) hxs) (.number x y) fun _ => rfl).eqs.bind ?_
    rintro r u ⟨hinsert, hr, -, hends⟩
    exact ih (ready_of_insert hinsert rfl hr hrest hgroups fun _ => hends) (by simp)
  | @negated as bs x y hempty _ ih =>
    obtain ⟨xs, ys, rest, rest', rfl, rfl, hxs, hrest, hgroups⟩ := hready.exists_groups hne
    rw [stepAll_place rfl rfl rfl, stepAll_negated y bs rfl]
    refine (Node.insert_negated_alike x y (.mk (.inl rfl) hxs) fun _ => rfl).eqs.bind ?_
    rintro r u ⟨hinsert, hr, -⟩
    exact ih (ready_of_insert hinsert rfl hr hrest hgroups fun hopens => absurd hopens hempty)
      (by simp)

/-- Rows that match make alike trees, or none on both sides. -/
theorem parse_alike {as bs : List Lexeme} (h : Matches as bs) :
    Agree Alike (parse as) (parse bs) := by
  have hready : Ready as [.group] [.group] := by
    refine ⟨.cons (.mk (.inl rfl) .nil) .nil, by simp [AllGroups, Node.group], ?_, ?_⟩
    · intro _ n hn m hm
      obtain rfl : Node.group = n := by simpa using hn
      obtain rfl : Node.group = m := by simpa using hm
      rfl
    · intro _ n _ _ above habove
      simp at habove
  refine (stepAll_alike h hready (by simp)).bind ?_
  rintro s t ⟨halike, hgroups⟩
  cases halike with
  | nil => exact .error _ _
  | @cons top top' rest rest' htop hrest =>
    obtain ⟨xs, ys, rfl, rfl, hxs⟩ := Alike.group htop (hgroups top (by simp))
    cases hrest with
    | nil =>
      rw [collapseAll, collapseAll, collapseFrom_last rfl, collapseFrom_last rfl, Node.operands_mk,
        Node.operands_mk, hxs.length_eq]
      split
      · exact .error _ _
      · exact .ok htop
    | cons habove hrest =>
      rw [collapseAll, collapseAll, collapseFrom_group rfl, collapseFrom_group rfl,
        Node.operands_mk, Node.operands_mk, hxs.length_eq]
      split <;> exact .error _ _

/-! ## Values -/

/-- The values are doubles, or both are empty. -/
inductive Value.Alike : Value → Value → Prop
  | float (x y : Float) : Alike (.float x) (.float y)
  | empty : Alike .empty .empty

/-- The outcomes of two evaluations without assignments, with related results. -/
def Unassigned {α : Type} (R : α → α → Prop) (r s : α × Variables) : Prop :=
  R r.1 s.1 ∧ r.2 = [] ∧ s.2 = []

theorem apply_alike {op : Operator}
    (hop : op = .root ∨ op = .neg ∨ ∃ c : Binary, c.IsArithmetic ∧ op = .binary c)
    {vs ws : List Value} (h : List.Forall₂ Value.Alike vs ws) :
    Agree (Unassigned Value.Alike) ((op.apply vs).run []) ((op.apply ws).run []) := by
  rcases hop with rfl | rfl | ⟨c, hc, rfl⟩
  · cases h with
    | nil => exact .ok ⟨.empty, rfl, rfl⟩
    | cons h _ => exact .ok ⟨h, rfl, rfl⟩
  · rcases h with _ | ⟨hv, _ | ⟨-, -⟩⟩
    · exact .error _ _
    · cases hv with
      | float x y => exact .ok ⟨.float _ _, rfl, rfl⟩
      | empty => exact .error _ _
    · exact .error _ _
  · rcases h with _ | ⟨hv, _ | ⟨hw, _ | ⟨-, -⟩⟩⟩
    · exact .error _ _
    · exact .error _ _
    · rcases hc with rfl | rfl | rfl | rfl <;> cases hv <;> cases hw
      all_goals first | exact .ok ⟨.float _ _, rfl, rfl⟩ | exact .error _ _
    · exact .error _ _

mutual

/-- Alike trees have alike values, or none on both sides. -/
theorem eval_alike : ∀ {a b : Node}, Alike a b →
    Agree (Unassigned Value.Alike) (a.eval.run []) (b.eval.run [])
  | _, _, .number x y => .ok ⟨.float x y, rfl, rfl⟩
  | _, _, .negated x y => .ok ⟨.float x (-y), rfl, rfl⟩
  | _, _, .mk hop h => by
    rw [Node.eval, Node.eval, StateT.run_bind, StateT.run_bind]
    refine (evalAll_alike h).bind ?_
    rintro ⟨vs, _⟩ ⟨ws, _⟩ ⟨hvs, rfl, rfl⟩
    exact apply_alike hop (List.rel_reverse hvs)

/-- The same for operands. -/
theorem evalAll_alike : ∀ {as bs : List Node}, AllAlike as bs →
    Agree (Unassigned (List.Forall₂ Value.Alike)) ((evalAll as).run []) ((evalAll bs).run [])
  | _, _, .nil => .ok ⟨.nil, rfl, rfl⟩
  | _, _, .cons h hs => by
    rw [evalAll, evalAll, StateT.run_bind, StateT.run_bind]
    refine (evalAll_alike hs).bind ?_
    rintro ⟨vs, _⟩ ⟨ws, _⟩ ⟨hvs, rfl, rfl⟩
    rw [StateT.run_bind, StateT.run_bind]
    refine (eval_alike h).bind ?_
    rintro ⟨v, _⟩ ⟨w, _⟩ ⟨hv, rfl, rfl⟩
    exact .ok ⟨.cons hv hvs, rfl, rfl⟩

end

/-- The number that a row of lexemes yields. -/
def numberOf (ls : List Lexeme) : Except EvalError Float :=
  (parse ls).bind fun tree => (tree.eval.run []).bind fun r => r.1.toNumber

/-- Rows that match both yield a number, or neither does. -/
theorem numberOf_alike {as bs : List Lexeme} (h : Matches as bs) :
    Agree (fun _ _ => True) (numberOf as) (numberOf bs) := by
  refine (parse_alike h).bind fun a b hab => ?_
  refine (eval_alike hab).bind ?_
  rintro ⟨v, _⟩ ⟨w, _⟩ ⟨hvw, -, -⟩
  cases hvw with
  | float x y => exact .ok trivial
  | empty => exact .error _ _

/-- A row with a name that is no function yields no number. -/
theorem numberOf_of_name {ls : List Lexeme} (hls : ∀ l ∈ ls, l.IsArithmetic) {name : String}
    (hname : .identifier name ∈ ls) (hnone : function? name = none) :
    ∃ e, numberOf ls = .error e := by
  unfold numberOf
  cases hparse : parse ls with
  | error e => exact ⟨e, rfl⟩
  | ok tree =>
    cases heval : tree.eval.run [] with
    | error e => exact ⟨e, by simp [Except.bind, heval]⟩
    | ok r => exact absurd heval (eval_of_name hls hparse hname hnone)

/-- The number that an arithmetic formula yields once its glyphs are known. -/
theorem evaluateNumber_eq {formula : String} {gs : List Glyph}
    (h : glyphs formula.toList = .ok gs) (hgs : ∀ g ∈ gs, g.IsArithmetic) :
    evaluateNumber formula = numberOf (gs.filterMap Glyph.lexeme?) := by
  unfold evaluateNumber
  rw [h]
  show (lexemes gs).bind numberOf = _
  rw [lexemes_of_isArithmetic hgs]
  rfl

end Scorecard.Formula
