import Scorecard.Formula.Evaluation
import Scorecard.Proofs.Formula.Lexing

/-!
# The tree of an arithmetic formula holds every operator

Arithmetic lexemes have no sequences, so the stack holds open parentheses only (`AllGroups`), and a
lexeme opens a group, closes one into the group around it, or goes into the innermost one
(`step_opening`, `step_closing`, `step_place`).

* A node that is put into a tree makes a tree that holds the operators of both and no other
  (`insert_holds_iff`).
* So the tree of a formula holds an operator for each name in it, and only operators of arithmetic
  (`parse_holds_name`, `parse_isArithmetic`).
* A tree with an operator that cannot run has no value (`eval_runs`): a formula in which a name is
  left has none (`eval_of_name`).
-/

namespace Scorecard.Formula

/-- The tree has a node with this operator. -/
inductive Node.Holds (op : Operator) : Node → Prop
  | here (operands : List Node) : Holds op (.mk op operands)
  | inside {outer : Operator} {operands : List Node} {n : Node} (hn : n ∈ operands)
      (h : Holds op n) : Holds op (.mk outer operands)

namespace Node

@[simp] theorem operator_mk (op : Operator) (os : List Node) : (mk op os).operator = op := rfl

@[simp] theorem operands_mk (op : Operator) (os : List Node) : (mk op os).operands = os := rfl

variable {op : Operator}

theorem holds_mk {outer : Operator} {operands : List Node} :
    Holds op (.mk outer operands) ↔ op = outer ∨ ∃ n ∈ operands, Holds op n := by
  constructor
  · rintro (_ | ⟨hn, h⟩)
    · exact .inl rfl
    · exact .inr ⟨_, hn, h⟩
  · rintro (rfl | ⟨n, hn, h⟩)
    · exact .here _
    · exact .inside hn h

theorem holds_iff {n : Node} : Holds op n ↔ op = n.operator ∨ ∃ m ∈ n.operands, Holds op m := by
  cases n
  exact holds_mk

/-- Appending an operand adds its operators. -/
theorem append_holds {parent operand : Node} :
    Holds op (parent.append operand) ↔ Holds op parent ∨ Holds op operand := by
  simp only [append, holds_mk, holds_iff (n := parent), List.mem_cons, exists_eq_or_imp]
  grind

/-- What putting a node into a tree can do: it becomes the last operand, it takes the last operand,
or it goes into the last operand. -/
theorem insert_cases {node : Node} {atRoot : Bool} {outer : Operator} {operands : List Node}
    {r : Node} (h : insert node atRoot (.mk outer operands) = .ok r) :
    r = .mk outer (node :: operands) ∨ ∃ last rest, operands = last :: rest ∧
      (r = .mk outer (node.append last :: rest) ∨
        ∃ last', insert node false last = .ok last' ∧ r = .mk outer (last' :: rest)) := by
  unfold insert at h
  split at h
  · simp at h
  · split at h
    · simp at h
    · split at h
      · exact .inl (by simpa using h.symm)
      · next last rest =>
        split at h
        · exact .inl (by simpa using h.symm)
        · split at h
          · cases hlast : insert node false last with
            | error _ => simp [hlast, Except.map] at h
            | ok last' =>
              have hr : r = .mk outer (last' :: rest) := by simpa [hlast, Except.map] using h.symm
              exact .inr ⟨last, rest, rfl, .inr ⟨last', hlast, hr⟩⟩
          · split at h
            · simp at h
            · split at h
              · simp at h
              · split at h
                · simp at h
                · exact .inr ⟨last, rest, rfl, .inl (by simpa using h.symm)⟩

/-- The root of a tree stays when a node is put into it. -/
theorem insert_operator {node parent r : Node} {atRoot : Bool}
    (h : insert node atRoot parent = .ok r) : r.operator = parent.operator := by
  obtain ⟨outer, operands⟩ := parent
  rcases insert_cases h with rfl | ⟨last, rest, -, rfl | ⟨last', -, rfl⟩⟩ <;> rfl

/-- A node that is put into a tree adds its operators and keeps all others. -/
theorem insert_holds_iff {node : Node} : ∀ {parent : Node} {atRoot : Bool} {r : Node},
    insert node atRoot parent = .ok r → (Holds op r ↔ Holds op parent ∨ Holds op node)
  | .mk outer operands, atRoot, r, h => by
    rcases insert_cases h with rfl | ⟨last, rest, rfl, rfl | ⟨last', hlast, rfl⟩⟩
    · simp only [holds_mk, List.mem_cons, exists_eq_or_imp]
      grind
    · simp only [holds_mk, List.mem_cons, exists_eq_or_imp, append_holds]
      grind
    · have ih := insert_holds_iff hlast
      simp only [holds_mk, List.mem_cons, exists_eq_or_imp, ih]
      grind

end Node

/-! ## One lexeme -/

/-- Every tree on the stack is an open group. -/
def AllGroups (stack : List Node) : Prop := ∀ n ∈ stack, n.operator = .root

/-- Some tree on the stack has a node with this operator. -/
def HoldsIn (op : Operator) (stack : List Node) : Prop := ∃ n ∈ stack, n.Holds op

@[simp] theorem holdsIn_cons {op : Operator} {n : Node} {stack : List Node} :
    HoldsIn op (n :: stack) ↔ n.Holds op ∨ HoldsIn op stack := by
  simp [HoldsIn]

/-- The operator that a lexeme adds to the trees on the stack. -/
def Lexeme.adds (afterOperand : Bool) (following : Option Lexeme) : Lexeme → Option Operator
  | .opening => some .root
  | .closing => none
  | l => l.operator? afterOperand following

/-- The operators of arithmetic formulas. -/
def Operator.IsArithmetic : Operator → Prop
  | root | binary _ | neg | constant _ | read _ | call _ => True
  | _ => False

theorem Operator.IsArithmetic.isSequence {op : Operator} (h : op.IsArithmetic) :
    op.isSequence = false := by
  cases op <;> first | rfl | exact absurd h id

/-- A name that nothing is assigned to is called or read. -/
theorem identifierOperator_cases (name : String) {following : Option Lexeme}
    (hf : ∀ f ∈ following, f.IsArithmetic) :
    identifierOperator name following = .call name ∨
      identifierOperator name following = .read name := by
  have hassigns : following.any Lexeme.assigns = false := by
    cases following with
    | none => rfl
    | some f => cases hf f rfl <;> rfl
  simp only [identifierOperator, hassigns, Bool.false_eq_true, if_false]
  split
  · exact .inl rfl
  · exact .inr rfl

/-- An arithmetic lexeme adds an operator of arithmetic: it assigns nothing. -/
theorem adds_isArithmetic {l : Lexeme} (hl : l.IsArithmetic) {afterOperand : Bool}
    {following : Option Lexeme} (hf : ∀ f ∈ following, f.IsArithmetic) {op : Operator}
    (h : l.adds afterOperand following = some op) : op.IsArithmetic := by
  cases hl with
  | opening =>
    obtain rfl := Option.some.inj h
    trivial
  | closing => simp [Lexeme.adds] at h
  | @operation operation hop =>
    rcases hop with rfl | rfl | rfl | rfl
    case inr.inl =>
      obtain rfl := Option.some.inj h
      split <;> trivial
    all_goals
      obtain rfl := Option.some.inj h
      trivial
  | constant v =>
    obtain rfl := Option.some.inj h
    trivial
  | identifier name =>
    obtain rfl := Option.some.inj h
    rcases identifierOperator_cases name hf with h | h <;> rw [h] <;> trivial

/-- A node goes into the innermost open group. -/
theorem place_group {node top : Node} {stack : List Node}
    (hnode : node.operator.isSequence = false) (htop : top.operator = .root) :
    place node (top :: stack) = (Node.insert node true top).map (· :: stack) := by
  have hroot : Operator.root.isSequence = false := rfl
  simp [place, hnode, htop, hroot]

/-- Closing goes as far as the innermost open group. -/
theorem collapseFrom_group {top above : Node} {stack : List Node} (htop : top.operator = .root) :
    collapseFrom top (above :: stack) =
      if 1 < top.operands.length then .error .missingOperator else .ok (top :: above :: stack) := by
  have hroot : Operator.root.isSequence = false := rfl
  simp [collapseFrom, htop, hroot, Operator.arity?]

theorem collapseFrom_last {top : Node} (htop : top.operator = .root) :
    collapseFrom top [] =
      if 1 < top.operands.length then .error .missingOperator else .ok [top] := by
  simp [collapseFrom, htop, Operator.isRoot]

variable {afterOperand : Bool} {following : Option Lexeme}

theorem step_opening (stack : List Node) :
    step afterOperand following stack .opening = .ok (.group :: stack) := rfl

/-- A closing parenthesis puts the innermost group into the one around it. -/
theorem step_closing {top above : Node} {stack : List Node} (htop : top.operator = .root)
    (habove : above.operator = .root) :
    step afterOperand following (top :: above :: stack) .closing =
      if 1 < top.operands.length then .error .missingOperator
      else (Node.insert top true above).map (· :: stack) := by
  have hseq : top.operator.isSequence = false := by rw [htop]; rfl
  simp only [step, collapseAll, collapseFrom_group htop, List.length_cons]
  rw [if_neg (by omega)]
  split
  · rfl
  · exact place_group hseq habove

theorem step_closing_last (top : Node) :
    step afterOperand following [top] .closing = .error .unmatchedClosing := rfl

/-- Any other lexeme goes into the innermost group. -/
theorem step_place {l : Lexeme} {op : Operator} {top : Node} {stack : List Node}
    (hop : l.operator? afterOperand following = some op) (hseq : op.isSequence = false)
    (htop : top.operator = .root) :
    step afterOperand following (top :: stack) l =
      (Node.insert (.mk op []) true top).map (· :: stack) := by
  have hplace := @place_group (.mk op []) top stack hseq htop
  cases l with
  | opening | closing => exact absurd hop nofun
  | _ => simp only [step, hop, hplace]

theorem exists_operator? {l : Lexeme} (hl : l.IsArithmetic) (hopening : l ≠ .opening)
    (hclosing : l ≠ .closing) : ∃ op, l.operator? afterOperand following = some op := by
  cases hl with
  | opening => exact absurd rfl hopening
  | closing => exact absurd rfl hclosing
  | operation h => rcases h with rfl | rfl | rfl | rfl <;> exact ⟨_, rfl⟩
  | constant v => exact ⟨_, rfl⟩
  | identifier name => exact ⟨_, rfl⟩

/-- A lexeme keeps every operator on the stack and adds its own. -/
theorem step_holds {l : Lexeme} {stack stack' : List Node} (hl : l.IsArithmetic)
    (hf : ∀ f ∈ following, f.IsArithmetic) (hne : stack ≠ []) (hgroups : AllGroups stack)
    (h : step afterOperand following stack l = .ok stack') :
    stack' ≠ [] ∧ AllGroups stack' ∧ ∀ op, HoldsIn op stack' ↔
      HoldsIn op stack ∨ l.adds afterOperand following = some op := by
  obtain ⟨top, rest, rfl⟩ := List.exists_cons_of_ne_nil hne
  have htop : top.operator = .root := hgroups top (by simp)
  have hrest : AllGroups rest := fun n hn => hgroups n (by simp [hn])
  by_cases hopening : l = .opening
  · subst hopening
    rw [step_opening] at h
    obtain rfl := Except.ok.inj h
    refine ⟨by simp, ?_, fun op => ?_⟩
    · intro n hn
      rcases List.mem_cons.mp hn with rfl | hn
      · rfl
      · exact hgroups n hn
    · simp only [holdsIn_cons, Node.group, Node.holds_mk, Lexeme.adds]
      grind
  · by_cases hclosing : l = .closing
    · subst hclosing
      cases rest with
      | nil => simp [step_closing_last] at h
      | cons above rest =>
        have habove : above.operator = .root := hrest above (by simp)
        rw [step_closing htop habove] at h
        split at h
        · simp at h
        · cases hinsert : Node.insert top true above with
          | error _ => simp [hinsert, Except.map] at h
          | ok r =>
            obtain rfl : r :: rest = stack' := by simpa [hinsert, Except.map] using h
            refine ⟨by simp, ?_, fun op => ?_⟩
            · intro n hn
              rcases List.mem_cons.mp hn with rfl | hn
              · rw [Node.insert_operator hinsert, habove]
              · exact hrest n (by simp [hn])
            · simp only [holdsIn_cons, Node.insert_holds_iff hinsert, Lexeme.adds]
              grind
    · have hadds : l.adds afterOperand following = l.operator? afterOperand following := by
        cases l <;> first | rfl | exact absurd rfl hopening
      obtain ⟨op, hop⟩ := exists_operator? hl hopening hclosing
      have harith := adds_isArithmetic hl hf (hadds.trans hop)
      rw [step_place hop harith.isSequence htop] at h
      cases hinsert : Node.insert (.mk op []) true top with
      | error _ => simp [hinsert, Except.map] at h
      | ok r =>
        obtain rfl : r :: rest = stack' := by simpa [hinsert, Except.map] using h
        refine ⟨by simp, ?_, fun op' => ?_⟩
        · intro n hn
          rcases List.mem_cons.mp hn with rfl | hn
          · rw [Node.insert_operator hinsert, htop]
          · exact hrest n hn
        · simp only [holdsIn_cons, Node.insert_holds_iff hinsert, hadds, hop, Node.holds_mk]
          grind

/-! ## All lexemes -/

/-- The lexemes of a formula keep every operator on the stack, add only operators of arithmetic, and
add an operator for each name. -/
theorem stepAll_holds {ls : List Lexeme} (hls : ∀ l ∈ ls, l.IsArithmetic)
    {stack stack' : List Node} (hne : stack ≠ []) (hgroups : AllGroups stack)
    (h : stepAll afterOperand stack ls = .ok stack') :
    AllGroups stack' ∧ (∀ op, HoldsIn op stack → HoldsIn op stack') ∧
      (∀ op, HoldsIn op stack' → HoldsIn op stack ∨ op.IsArithmetic) ∧
      ∀ name, .identifier name ∈ ls →
        HoldsIn (.call name) stack' ∨ HoldsIn (.read name) stack' := by
  induction ls generalizing afterOperand stack with
  | nil =>
    obtain rfl := Except.ok.inj h
    exact ⟨hgroups, fun _ => id, fun _ => .inl, by simp⟩
  | cons l ls ih =>
    rw [stepAll] at h
    cases hstep : step afterOperand ls.head? stack l with
    | error _ => simp [hstep, Except.bind] at h
    | ok middle =>
      have hl := hls l (by simp)
      have hf : ∀ f ∈ ls.head?, f.IsArithmetic := fun f hf =>
        hls f (List.mem_cons_of_mem _ (List.mem_of_mem_head? hf))
      obtain ⟨hne', hgroups', hholds⟩ := step_holds hl hf hne hgroups hstep
      simp only [hstep, Except.bind] at h
      obtain ⟨hend, hkeep, harith, hnames⟩ := ih (fun m hm => hls m (by simp [hm])) hne' hgroups' h
      refine ⟨hend, fun op hop => hkeep op ((hholds op).mpr (.inl hop)), fun op hop => ?_, ?_⟩
      · rcases harith op hop with hop | hop
        · rcases (hholds op).mp hop with hop | hop
          · exact .inl hop
          · exact .inr (adds_isArithmetic hl hf hop)
        · exact .inr hop
      · intro name hname
        rcases List.mem_cons.mp hname with rfl | hname
        · rcases identifierOperator_cases name hf with hop | hop
          · exact .inl (hkeep _ ((hholds _).mpr (.inr (congrArg some hop))))
          · exact .inr (hkeep _ ((hholds _).mpr (.inr (congrArg some hop))))
        · exact hnames name hname

/-- A tree is found when one group is left. -/
theorem stepAll_of_parse {ls : List Lexeme} (hls : ∀ l ∈ ls, l.IsArithmetic) {tree : Node}
    (h : parse ls = .ok tree) : stepAll false [.group] ls = .ok [tree] := by
  unfold parse at h
  cases hrun : stepAll false [.group] ls with
  | error _ => simp [hrun, Except.bind] at h
  | ok stack =>
    have hgroups := (stepAll_holds hls (by simp) (by simp [AllGroups, Node.group, Node.operator])
      hrun).1
    simp only [hrun, Except.bind] at h
    cases stack with
    | nil => simp [collapseAll] at h
    | cons top rest =>
      have htop : top.operator = .root := hgroups top (by simp)
      cases rest with
      | nil =>
        rw [collapseAll, collapseFrom_last htop] at h
        by_cases hlength : 1 < top.operands.length
        · simp [hlength] at h
        · simpa [hlength] using h
      | cons above rest =>
        rw [collapseAll, collapseFrom_group htop] at h
        by_cases hlength : 1 < top.operands.length <;> simp [hlength] at h

/-- The tree of a formula holds only operators of arithmetic. -/
theorem parse_isArithmetic {ls : List Lexeme} (hls : ∀ l ∈ ls, l.IsArithmetic) {tree : Node}
    (h : parse ls = .ok tree) {op : Operator} (hop : tree.Holds op) : op.IsArithmetic := by
  have hrun := stepAll_of_parse hls h
  obtain ⟨-, -, harith, -⟩ := stepAll_holds hls (by simp)
    (by simp [AllGroups, Node.group, Node.operator]) hrun
  rcases harith op ⟨tree, by simp, hop⟩ with ⟨n, hn, hholds⟩ | hop
  · obtain rfl : n = .group := by simpa using hn
    obtain rfl : op = .root := by simpa [Node.group, Node.holds_mk] using hholds
    trivial
  · exact hop

/-- The tree of a formula calls or reads each name in it. -/
theorem parse_holds_name {ls : List Lexeme} (hls : ∀ l ∈ ls, l.IsArithmetic) {tree : Node}
    (h : parse ls = .ok tree) {name : String} (hname : .identifier name ∈ ls) :
    tree.Holds (.call name) ∨ tree.Holds (.read name) := by
  have hrun := stepAll_of_parse hls h
  obtain ⟨-, -, -, hnames⟩ := stepAll_holds hls (by simp)
    (by simp [AllGroups, Node.group, Node.operator]) hrun
  simpa [HoldsIn] using hnames name hname

/-! ## Trees that have a value -/

/-- Whether an operator can run where nothing is assigned. -/
def Operator.Runs : Operator → Prop
  | read _ => False
  | call name => (function? name).isSome = true
  | _ => True

/-- Both parts of a computation that yields a value do. -/
theorem run_bind_eq_ok {α β : Type} {x : Eval α} {f : α → Eval β} {vars : Variables}
    {r : β × Variables} (h : (x >>= f).run vars = .ok r) :
    ∃ a vars', x.run vars = .ok (a, vars') ∧ (f a).run vars' = .ok r := by
  rw [StateT.run_bind] at h
  cases hx : x.run vars with
  | error _ =>
    rw [hx] at h
    cases h
  | ok p => exact ⟨p.1, p.2, rfl, by rwa [hx] at h⟩

/-- A computation without assignments leaves the variables alone. -/
theorem run_lift_eq_ok {α : Type} {x : Except EvalError α} {vars : Variables}
    {r : α × Variables} (h : (liftM x : Eval α).run vars = .ok r) : x = .ok r.1 ∧ r.2 = vars := by
  cases x with
  | error _ => cases h
  | ok a =>
    obtain rfl := Except.ok.inj h
    exact ⟨rfl, rfl⟩

/-- An operator of arithmetic that yields a value can run, and it assigns nothing. -/
theorem apply_runs {op : Operator} (hop : op.IsArithmetic) {vs : List Value} {v : Value}
    {vars : Variables} (h : (op.apply vs).run [] = .ok (v, vars)) : vars = [] ∧ op.Runs := by
  cases op with
  | root =>
    cases h
    exact ⟨rfl, trivial⟩
  | binary operation =>
    rcases vs with _ | ⟨a, _ | ⟨b, _ | ⟨c, vs⟩⟩⟩
    case cons.cons.nil => exact ⟨(run_lift_eq_ok h).2, trivial⟩
    all_goals cases h
  | neg =>
    rcases vs with _ | ⟨a, _ | ⟨b, vs⟩⟩
    case cons.nil => exact ⟨(run_lift_eq_ok h).2, trivial⟩
    all_goals cases h
  | constant c =>
    cases vs with
    | nil =>
      cases h
      exact ⟨rfl, trivial⟩
    | cons a vs => cases h
  | read name => cases vs <;> cases h
  | call name =>
    rcases vs with _ | ⟨a, _ | ⟨b, vs⟩⟩
    case cons.nil =>
      simp only [Operator.apply] at h
      split at h
      · next f hf => exact ⟨(run_lift_eq_ok h).2, by simp [Operator.Runs, hf]⟩
      · cases h
    all_goals cases h
  | _ => exact absurd hop id

mutual

/-- A tree of arithmetic that has a value has only operators that can run. -/
theorem eval_runs : ∀ (n : Node) {v : Value} {vars : Variables},
    (∀ op, n.Holds op → op.IsArithmetic) → n.eval.run [] = .ok (v, vars) →
      vars = [] ∧ ∀ op, n.Holds op → op.Runs
  | .mk outer operands, v, vars, harith, h => by
    rw [Node.eval] at h
    obtain ⟨vs, middle, hvs, happly⟩ := run_bind_eq_ok h
    obtain ⟨rfl, hbelow⟩ := evalAll_runs operands
      (fun n hn op hop => harith op (.inside hn hop)) hvs
    obtain ⟨rfl, houter⟩ := apply_runs (harith outer (.here operands)) happly
    refine ⟨rfl, fun op hop => ?_⟩
    rcases Node.holds_mk.mp hop with rfl | ⟨n, hn, hop⟩
    · exact houter
    · exact hbelow n hn op hop

/-- The same for operands. -/
theorem evalAll_runs : ∀ (ns : List Node) {vs : List Value} {vars : Variables},
    (∀ n ∈ ns, ∀ op, n.Holds op → op.IsArithmetic) → (evalAll ns).run [] = .ok (vs, vars) →
      vars = [] ∧ ∀ n ∈ ns, ∀ op, n.Holds op → op.Runs
  | [], _, _, _, h => by
    cases h
    exact ⟨rfl, by simp⟩
  | last :: before, vs, vars, harith, h => by
    rw [evalAll] at h
    obtain ⟨ws, middle, hws, hrest⟩ := run_bind_eq_ok h
    obtain ⟨rfl, hbefore⟩ := evalAll_runs before (fun n hn => harith n (by simp [hn])) hws
    obtain ⟨w, middle, hw, hlast⟩ := run_bind_eq_ok hrest
    obtain ⟨rfl, hrunsLast⟩ := eval_runs last (harith last (by simp)) hw
    cases hlast
    refine ⟨rfl, fun n hn => ?_⟩
    rcases List.mem_cons.mp hn with rfl | hn
    · exact hrunsLast
    · exact hbefore n hn

end

/-- A formula with a name that is no function has no value. -/
theorem eval_of_name {ls : List Lexeme} (hls : ∀ l ∈ ls, l.IsArithmetic) {tree : Node}
    (hparse : parse ls = .ok tree) {name : String} (hname : .identifier name ∈ ls)
    (hnone : function? name = none) {r : Value × Variables} : tree.eval.run [] ≠ .ok r := by
  intro h
  obtain ⟨-, hruns⟩ := eval_runs tree (fun op => parse_isArithmetic hls hparse) h
  rcases parse_holds_name hls hparse hname with hcall | hread
  · have hsome : (function? name).isSome = true := hruns _ hcall
    simp [hnone] at hsome
  · exact hruns _ hread

end Scorecard.Formula
