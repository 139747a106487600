import Scorecard.Proofs.Formula.Growth

/-!
# Which rows of lexemes yield a number

`Phase` says what is known of an open group while symbols are read, and `Node.Grown` how the trees of
the evaluator grow.  Here the trees follow the phases: after every lexeme, each open group holds what
its phase says (`Phase.At`), as long as there is a phase.  Where there is none, the lexeme is refused
or it leaves a gap in the tree that is never filled (`Phase.Answers`, `stepAll_viable`).

* `At.operand`, `At.sign`, `At.sum`, `At.times` and `At.close` are the steps within one group.
* `endsComplete_iff`: the lexemes end in one complete tree exactly if their symbols end where an
  expression is held.
* `Shaped.evaluated`: a complete tree has a double for a value, and any other tree has no number.
* `isNumber_iff_phrase`: a row of lexemes yields a number exactly if its symbols are a phrase.
-/

namespace Scorecard.Formula

open Node (Shaped New Operand Filled Viable)

/-! ## One group -/

namespace Phase

/-- What an open group holds in each phase. -/
def At (xs : List Node) : Phase → Prop
  | start => xs = []
  | lacksOne tight _ => ∃ y, xs = [y] ∧ y.lacks? = some 1 ∧ y.isLoose = !tight
  | lacksTwo tight => ∃ y, xs = [y] ∧ y.lacks? = some 2 ∧ y.isLoose = !tight
  | holds ending => ∃ y, xs = [y] ∧ y.lacks? = some 0 ∧ y.ending = ending

/-- Whether an operand was read last, so that a minus sign subtracts. -/
def afterOperand : Phase → Bool
  | start | lacksTwo _ => false
  | lacksOne _ after => after
  | holds _ => true

/-- Whether a group is as the phases say once a node has been put into it.  Where there is no next
phase, the node is refused, or the group cannot become complete any more. -/
def Answers (x : Except EvalError Node) : Option Phase → Prop
  | some q => ∃ ys, x = .ok (.mk .root ys) ∧ q.At ys
  | none => ∀ r, x = .ok r → ¬ Viable r.operands

end Phase

namespace Node

variable {n y : Node}

/-- The group that holds a tree is not viable if nothing is known of what the tree lacks. -/
theorem not_viable (h : y.lacks? = none) : ¬ Viable [y] := by
  rintro (h' | ⟨z, k, h', hk⟩)
  · cases h'
  · obtain ⟨rfl, -⟩ := List.cons.inj h'
    rw [h] at hk
    cases hk

end Node

namespace Phase

variable {p q : Phase} {xs : List Node} {n : Node}

/-- An operand is put into a group. -/
theorem At.operand (hp : p.At xs) (hxs : Shaped (.mk .root xs)) (hn : New n) (hop : Operand n)
    (hzero : n.lacks? = some 0) :
    Answers (n.insert true (.mk .root xs))
      (p.operand (if n.operator.isRoot then .group else .literal)) := by
  have hsum : n.operator.isSum = false := by cases hop <;> rfl
  have hproduct : n.operator.isProduct = false := by cases hop <;> rfl
  have hmeets : n.meetsGroup = n.operator.isRoot := by cases hop <;> rfl
  cases p with
  | start =>
    obtain rfl : xs = [] := hp
    refine ⟨[n], Node.insert_root_nil n, n, rfl, hzero, ?_⟩
    cases hop <;> rfl
  | lacksOne tight after =>
    obtain ⟨y, rfl, hy, -⟩ := hp
    have hshaped := hxs.of_group
    obtain ⟨r, hr, hfilled⟩ := Node.insert_root_filled hn hsum hshaped hy (by simp [hproduct])
    refine ⟨[r], hr, r, rfl, by simpa [hzero] using hfilled.lacks? hy, ?_⟩
    obtain ⟨hsame, hroot, hleaf⟩ := hfilled.operator
    simp [Node.ending, hsame, hroot, hleaf, hfilled.meetsGroup hy, hmeets]
  | lacksTwo tight =>
    obtain ⟨y, rfl, hy, hloose⟩ := hp
    have hshaped := hxs.of_group
    obtain ⟨r, hr, hfilled⟩ := Node.insert_root_filled hn hsum hshaped hy (by simp [hproduct])
    refine ⟨[r], hr, r, rfl, by simpa [hzero] using hfilled.lacks? hy, ?_⟩
    rw [hfilled.isLoose_eq hy, hloose]
  | holds ending =>
    obtain ⟨y, rfl, hy, -⟩ := hp
    have hshaped := hxs.of_group
    have hne : n ≠ Node.group := by
      rintro rfl
      exact absurd hzero (by simp [Node.group, Node.lacks?])
    obtain ⟨e, he⟩ := Node.insert_root_complete hop hshaped hy fun h => absurd h hne
    intro r hr
    rw [he] at hr
    cases hr

/-- An operation that comes where an operand is lacking leaves the group without hope, unless it is
a product that goes into a loose tree. -/
theorem answers_none_of_operation {y : Node} {c : Binary} (hy : Shaped y) {k : Nat}
    (hk : y.lacks? = some (k + 1)) (hc : (Operator.binary c).isSum = true ∨
      (Operator.binary c).isProduct = true ∧ y.isLoose = false) :
    Answers (Node.insert (.mk (.binary c) []) true (.mk .root [y])) none := by
  obtain ⟨r, hr, hlacks, -⟩ := Node.insert_root_operation hy hk hc
  intro r' hr'
  obtain rfl := Except.ok.inj (hr.symm.trans hr')
  exact Node.not_viable hlacks

/-- So does a node that is put in the place of an operand and is none, where two are lacking. -/
theorem answers_none_of_filled {y : Node} (hn : New n) (hsum : n.operator.isSum = false)
    (hy : Shaped y) {k : Nat} (hk : y.lacks? = some (k + 1))
    (hloose : n.operator.isProduct = true → y.isLoose = true)
    (hlacks : n.lacks? = none ∨ k ≠ 0 ∧ n.lacks? ≠ some 0) :
    Answers (n.insert true (.mk .root [y])) none := by
  obtain ⟨r, hr, hfilled⟩ := Node.insert_root_filled hn hsum hy hk hloose
  intro r' hr'
  obtain rfl := Except.ok.inj (hr.symm.trans hr')
  refine Node.not_viable ((hfilled.lacks? hk).trans ?_)
  obtain hnone | ⟨hk, hzero⟩ := hlacks
  · simp [hnone]
  · rw [if_neg hk, if_neg hzero]

/-- A minus sign is put into a group that lacks an operand. -/
theorem At.sign (hp : p.At xs) (hxs : Shaped (.mk .root xs)) (hafter : p.afterOperand = false) :
    Answers (Node.insert (.mk .neg []) true (.mk .root xs)) (p.step .minus) := by
  have hlacks : (Node.mk .neg []).lacks? = some 1 := by rw [Node.lacks?]
  cases p with
  | start =>
    obtain rfl : xs = [] := hp
    exact ⟨_, Node.insert_root_nil _, _, rfl, hlacks, rfl⟩
  | lacksOne tight after =>
    obtain rfl : after = false := hafter
    obtain ⟨y, rfl, hy, -⟩ := hp
    have hshaped := hxs.of_group
    obtain ⟨r, hr, hfilled⟩ := Node.insert_root_filled .sign rfl hshaped hy fun h => by cases h
    exact ⟨[r], hr, r, rfl, by simpa [hlacks] using hfilled.lacks? hy,
      hfilled.isLoose_eq_false hy rfl⟩
  | lacksTwo tight =>
    obtain ⟨y, rfl, hy, -⟩ := hp
    have hshaped := hxs.of_group
    exact answers_none_of_filled .sign rfl hshaped hy (fun h => by cases h)
      (.inr ⟨by decide, by simp [hlacks]⟩)
  | holds ending => cases hafter

/-- A sum is put into a group. -/
theorem At.sum {c : Binary} {s : Symbol} (hp : p.At xs) (hxs : Shaped (.mk .root xs))
    (hc : (Operator.binary c).isSum = true) (hs : s = .plus ∨ s = .minus ∧ p.afterOperand = true) :
    Answers (Node.insert (.mk (.binary c) []) true (.mk .root xs)) (p.step s) := by
  cases p with
  | start =>
    obtain rfl : xs = [] := hp
    obtain rfl | ⟨-, h⟩ := hs
    · exact ⟨_, Node.insert_root_nil _, _, rfl, by rw [Node.lacks?], hc⟩
    · cases h
  | lacksOne tight after =>
    have hstep : step (lacksOne tight after) s = none := by
      obtain rfl | ⟨rfl, rfl⟩ := hs <;> rfl
    obtain ⟨y, rfl, hy, -⟩ := hp
    have hshaped := hxs.of_group
    exact hstep ▸ answers_none_of_operation hshaped hy (.inl hc)
  | lacksTwo tight =>
    have hstep : step (lacksTwo tight) s = none := by
      obtain rfl | ⟨rfl, -⟩ := hs <;> rfl
    obtain ⟨y, rfl, hy, -⟩ := hp
    have hshaped := hxs.of_group
    exact hstep ▸ answers_none_of_operation hshaped hy (.inl hc)
  | holds ending =>
    have hstep : step (holds ending) s = some (lacksOne false false) := by
      obtain rfl | ⟨rfl, -⟩ := hs <;> rfl
    obtain ⟨y, rfl, hy, -⟩ := hp
    have hshaped := hxs.of_group
    obtain ⟨r, hr, hlacks, hloose⟩ := Node.insert_root_operation hshaped hy (.inl hc)
    exact hstep ▸ ⟨_, hr, _, rfl, hlacks, hloose.trans hc⟩

/-- A product is put into a group. -/
theorem At.times {c : Binary} (hp : p.At xs) (hxs : Shaped (.mk .root xs)) (hc : c.IsArithmetic)
    (hproduct : (Operator.binary c).isProduct = true) :
    Answers (Node.insert (.mk (.binary c) []) true (.mk .root xs)) (p.step .times) := by
  have hsum : (Operator.binary c).isSum = false := by
    rcases Operator.eq_of_isProduct hproduct with h | h <;> rw [h] <;> rfl
  have hlacks : (Node.mk (.binary c) []).lacks? = some 2 := by rw [Node.lacks?]
  cases p with
  | start =>
    obtain rfl : xs = [] := hp
    exact ⟨_, Node.insert_root_nil _, _, rfl, hlacks, hsum⟩
  | lacksOne tight after =>
    obtain ⟨y, rfl, hy, hloose⟩ := hp
    have hshaped := hxs.of_group
    cases tight with
    | true => exact answers_none_of_operation hshaped hy (.inr ⟨hproduct, hloose⟩)
    | false =>
      obtain ⟨r, hr, hfilled⟩ :=
        Node.insert_root_filled (.operation hc) hsum hshaped hy fun _ => hloose
      exact ⟨[r], hr, r, rfl, by simpa [hlacks] using hfilled.lacks? hy,
        hfilled.isLoose_eq_false hy hsum⟩
  | lacksTwo tight =>
    obtain ⟨y, rfl, hy, hloose⟩ := hp
    have hshaped := hxs.of_group
    cases tight with
    | true => exact answers_none_of_operation hshaped hy (.inr ⟨hproduct, hloose⟩)
    | false =>
      exact answers_none_of_filled (.operation hc) hsum hshaped hy (fun _ => hloose)
        (.inr ⟨by decide, by simp [hlacks]⟩)
  | holds ending =>
    obtain ⟨y, rfl, hy, -⟩ := hp
    have hshaped := hxs.of_group
    have htight := Node.isLoose_of_complete hshaped hy
    obtain ⟨r, hr, hlacks, hloose⟩ :=
      Node.insert_root_operation hshaped hy (.inr ⟨hproduct, htight⟩)
    exact ⟨_, hr, _, rfl, hlacks, hloose.trans hsum⟩

/-- An empty group is closed. -/
theorem At.emptyGroup (hp : p.At xs) (hxs : Shaped (.mk .root xs)) :
    Answers (Node.insert .group true (.mk .root xs)) (start.close p) := by
  have hlacks : Node.group.lacks? = none := by simp [Node.group, Node.lacks?]
  have hnew : New .group := .group .emptyGroup
  cases p with
  | start =>
    obtain rfl : xs = [] := hp
    intro r hr
    obtain rfl := Except.ok.inj ((Node.insert_root_nil _).symm.trans hr)
    exact Node.not_viable hlacks
  | lacksOne tight after | lacksTwo tight =>
    obtain ⟨y, rfl, hy, -⟩ := hp
    have hshaped := hxs.of_group
    exact answers_none_of_filled hnew rfl hshaped hy (fun h => by cases h) (.inl hlacks)
  | holds ending =>
    obtain ⟨y, rfl, hy, hends⟩ := hp
    have hshaped := hxs.of_group
    have hrefused (hne : y.ending ≠ .literal) :
        Answers (Node.insert .group true (.mk .root [y])) none := by
      obtain ⟨e, he⟩ := Node.insert_root_complete (.group []) hshaped hy fun _ => hne
      intro r hr
      cases he.symm.trans hr
    cases ending with
    | alone | group => exact hrefused (by simp [hends])
    | literal =>
      obtain ⟨r, hr, hzero, hends'⟩ := Node.insert_root_emptyGroup hshaped hy hends
      exact ⟨[r], hr, r, rfl, hzero, hends'⟩

/-- A group is closed. -/
theorem At.close {ys : List Node} (hp : p.At xs) (hxs : Shaped (.mk .root xs)) (hq : q.At ys)
    (hys : Shaped (.mk .root ys)) :
    Answers (Node.insert (.mk .root xs) true (.mk .root ys)) (p.close q) := by
  have hrefused (hne : xs ≠ []) (hlacks : (Node.mk .root xs).lacks? ≠ some 0) :
      Answers (Node.insert (.mk .root xs) true (.mk .root ys)) none := by
    intro r hr hviable
    exact hlacks (((Node.grown_of_insert hr).viable (.group hxs) hys hviable).2 hne)
  cases p with
  | start =>
    obtain rfl : xs = [] := hp
    exact hq.emptyGroup hys
  | lacksOne tight after | lacksTwo tight =>
    obtain ⟨y, rfl, hy, -⟩ := hp
    exact hrefused (by simp) (by simp [Node.lacks?, hy])
  | holds ending =>
    obtain ⟨y, rfl, hy, -⟩ := hp
    exact hq.operand hys (.group hxs) (.group _) (by simp [Node.lacks?, hy])

end Phase

/-! ## All open groups -/

/-- The lexeme is shown as the symbol. -/
inductive Lexeme.Shows : Lexeme → Symbol → Prop
  | literal (x : Float) : Shows (.constant (.float x)) .literal
  | opening : Shows .opening .opening
  | closing : Shows .closing .closing
  | plus : Shows (.operation .add) .plus
  | minus : Shows (.operation .sub) .minus
  | mul : Shows (.operation .mul) .times
  | div : Shows (.operation .div) .times

/-- The node that a lexeme other than a parenthesis puts into the innermost group, and the next
phase of that group. -/
structure Puts (l : Lexeme) (s : Symbol) (afterOperand : Bool) (op : Operator) : Prop where
  operator? : ∀ following, l.operator? afterOperand following = some op
  isSequence : op.isSequence = false
  isNew : New (.mk op [])
  answers : ∀ (p : Phase) (xs : List Node), p.afterOperand = afterOperand → p.At xs →
    Shaped (.mk .root xs) → Phase.Answers (Node.insert (.mk op []) true (.mk .root xs)) (p.step s)

theorem Lexeme.Shows.cases {l : Lexeme} {s : Symbol} (h : l.Shows s) :
    l = .opening ∧ s = .opening ∨ l = .closing ∧ s = .closing ∨
      (s ≠ .opening ∧ s ≠ .closing) ∧ ∀ afterOperand, ∃ op, Puts l s afterOperand op := by
  have hadd : Binary.add.IsArithmetic := .inl rfl
  have hsub : Binary.sub.IsArithmetic := .inr (.inl rfl)
  have hmul : Binary.mul.IsArithmetic := .inr (.inr (.inl rfl))
  have hdiv : Binary.div.IsArithmetic := .inr (.inr (.inr rfl))
  cases h with
  | opening => exact .inl ⟨rfl, rfl⟩
  | closing => exact .inr (.inl ⟨rfl, rfl⟩)
  | literal x =>
    refine .inr (.inr ⟨⟨by decide, by decide⟩, fun afterOperand =>
      ⟨.constant (.float x), fun _ => rfl, rfl, .number x, fun p xs _ hp hxs => ?_⟩⟩)
    rw [Phase.step_literal]
    exact hp.operand hxs (.number x) (.number x) (by simp [Node.lacks?])
  | plus =>
    exact .inr (.inr ⟨⟨by decide, by decide⟩, fun afterOperand => ⟨.binary .add, fun _ => rfl, rfl,
      .operation hadd, fun p xs _ hp hxs => hp.sum hxs rfl (.inl rfl)⟩⟩)
  | minus =>
    refine .inr (.inr ⟨⟨by decide, by decide⟩, fun afterOperand => ?_⟩)
    cases afterOperand with
    | false =>
      exact ⟨.neg, fun _ => rfl, rfl, .sign, fun p xs hafter hp hxs => hp.sign hxs hafter⟩
    | true =>
      exact ⟨.binary .sub, fun _ => rfl, rfl, .operation hsub,
        fun p xs hafter hp hxs => hp.sum hxs rfl (.inr ⟨rfl, hafter⟩)⟩
  | mul =>
    exact .inr (.inr ⟨⟨by decide, by decide⟩, fun afterOperand => ⟨.binary .mul, fun _ => rfl, rfl,
      .operation hmul, fun p xs _ hp hxs => hp.times hxs hmul rfl⟩⟩)
  | div =>
    exact .inr (.inr ⟨⟨by decide, by decide⟩, fun afterOperand => ⟨.binary .div, fun _ => rfl, rfl,
      .operation hdiv, fun p xs _ hp hxs => hp.times hxs hdiv rfl⟩⟩)

/-- What the open groups are while a formula is read. -/
def OpenGroups (stack : List Node) : Prop := ∀ n ∈ stack, n.operator = .root ∧ Shaped n

/-- One lexeme opens a group, or it puts a new node into a group: itself, or the group it closes. -/
theorem step_cases {l : Lexeme} {s : Symbol} (hl : l.Shows s) {afterOperand : Bool}
    {following : Option Lexeme} {stack stack' : List Node} (hstack : OpenGroups stack)
    (hne : stack ≠ []) (h : step afterOperand following stack l = .ok stack') :
    stack' = .group :: stack ∨ ∃ n top rest r, New n ∧ n.insert true top = .ok r ∧
      stack' = r :: rest ∧ (stack = top :: rest ∨ stack = n :: top :: rest) := by
  obtain ⟨rfl, -⟩ | ⟨rfl, -⟩ | ⟨-, hputs⟩ := hl.cases
  · exact .inl (Except.ok.inj h).symm
  · right
    rcases stack with _ | ⟨top, _ | ⟨above, rest⟩⟩
    · cases h
    · rw [step_closing_last] at h
      cases h
    · obtain ⟨htop, hshaped⟩ := hstack top (by simp)
      rw [step_closing htop (hstack above (by simp)).1] at h
      split at h
      · cases h
      · cases hinsert : top.insert true above with
        | error e =>
          rw [hinsert] at h
          cases h
        | ok r =>
          rw [hinsert] at h
          obtain ⟨op, os⟩ := top
          obtain rfl : op = .root := htop
          exact ⟨_, above, rest, r, .group hshaped, hinsert, (Except.ok.inj h).symm, .inr rfl⟩
  · right
    obtain ⟨op, hop⟩ := hputs afterOperand
    cases stack with
    | nil => exact absurd rfl hne
    | cons top rest =>
      rw [step_place (hop.operator? following) hop.isSequence (hstack top (by simp)).1] at h
      cases hinsert : Node.insert (.mk op []) true top with
      | error e =>
        rw [hinsert] at h
        cases h
      | ok r =>
        rw [hinsert] at h
        exact ⟨_, top, rest, r, hop.isNew, hinsert, (Except.ok.inj h).symm, .inl rfl⟩

/-- Groups are open and well shaped again after one lexeme, and a group that cannot become complete
any more still cannot. -/
theorem step_viable {l : Lexeme} {s : Symbol} (hl : l.Shows s) {afterOperand : Bool}
    {following : Option Lexeme} {stack stack' : List Node} (hstack : OpenGroups stack)
    (hne : stack ≠ []) (h : step afterOperand following stack l = .ok stack') :
    OpenGroups stack' ∧ stack' ≠ [] ∧
      ((∀ n ∈ stack', Viable n.operands) → ∀ n ∈ stack, Viable n.operands) := by
  obtain rfl | ⟨n, top, rest, r, hn, hinsert, rfl, hcases⟩ := step_cases hl hstack hne h
  · refine ⟨?_, by simp, fun hviable n hn => hviable n (by simp [hn])⟩
    exact List.forall_mem_cons.mpr ⟨⟨rfl, .emptyGroup⟩, hstack⟩
  have hmem : top ∈ stack ∧ ∀ m ∈ rest, m ∈ stack := by
    obtain rfl | rfl := hcases
    · exact ⟨by simp, fun m hm => by simp [hm]⟩
    · exact ⟨by simp, fun m hm => by simp [hm]⟩
  obtain ⟨htop, hshaped⟩ := hstack top hmem.1
  have hgrown := Node.grown_of_insert hinsert
  refine ⟨?_, by simp, fun hviable => ?_⟩
  · refine List.forall_mem_cons.mpr
      ⟨⟨?_, hgrown.shaped hn hshaped⟩, fun m hm => hstack m (hmem.2 m hm)⟩
    rw [Node.insert_operator hinsert, htop]
  · obtain ⟨op, os⟩ := top
    obtain rfl : op = .root := htop
    obtain ⟨hr, hrest⟩ := List.forall_mem_cons.mp hviable
    obtain ⟨hos, hzero⟩ := hgrown.viable hn hshaped hr
    obtain rfl | rfl := hcases
    · exact List.forall_mem_cons.mpr ⟨hos, hrest⟩
    · refine List.forall_mem_cons.mpr ⟨?_, List.forall_mem_cons.mpr ⟨hos, hrest⟩⟩
      -- The group that has been closed is empty or complete.
      by_cases hempty : n.operands = []
      · exact .inl hempty
      · have hzero := hzero hempty
        cases hn with
        | number x | sign | operation => exact absurd rfl hempty
        | group =>
          obtain ⟨-, y, hy, hzero⟩ := Node.lacks?_group_eq_some.mp hzero
          exact .inr ⟨y, 0, hy, hzero⟩

/-- So they are after all lexemes. -/
theorem stepAll_viable {ls : List Lexeme} {ss : List Symbol} (h : List.Forall₂ Lexeme.Shows ls ss) :
    ∀ {afterOperand : Bool} {stack stack' : List Node}, OpenGroups stack → stack ≠ [] →
      stepAll afterOperand stack ls = .ok stack' →
        OpenGroups stack' ∧
          ((∀ n ∈ stack', Viable n.operands) → ∀ n ∈ stack, Viable n.operands) := by
  induction h with
  | nil =>
    intro afterOperand stack stack' hstack _ h
    obtain rfl := Except.ok.inj h
    exact ⟨hstack, id⟩
  | @cons l s ls ss hl _ ih =>
    intro afterOperand stack stack' hstack hne h
    rw [stepAll] at h
    cases hstep : step afterOperand ls.head? stack l with
    | error e =>
      rw [hstep] at h
      cases h
    | ok middle =>
      rw [hstep] at h
      obtain ⟨hmiddle, hne', hback⟩ := step_viable hl hstack hne hstep
      obtain ⟨hend, hback'⟩ := ih hmiddle hne' h
      exact ⟨hend, fun hviable => hback (hback' hviable)⟩

/-- The tree of an open group is as its phase says. -/
def Phase.Follows (p : Phase) (n : Node) : Prop := ∃ xs, n = .mk .root xs ∧ Shaped n ∧ p.At xs

theorem openGroups_of_follows {ps : List Phase} {stack : List Node}
    (h : List.Forall₂ Phase.Follows ps stack) : OpenGroups stack := by
  induction h with
  | nil => simp [OpenGroups]
  | cons hn _ ih =>
    obtain ⟨xs, rfl, hshaped, -⟩ := hn
    exact List.forall_mem_cons.mpr ⟨⟨rfl, hshaped⟩, ih⟩

/-- The stack is one group that holds a complete tree. -/
def EndsComplete (x : Except EvalError (List Node)) : Prop :=
  ∃ y, x = .ok [.mk .root [y]] ∧ y.lacks? = some 0

theorem Phase.At.holds {p : Phase} {y : Node} (hp : p.At [y]) (hzero : y.lacks? = some 0) :
    ∃ ending, p = .holds ending := by
  cases p with
  | holds ending => exact ⟨ending, rfl⟩
  | start => cases hp
  | lacksOne _ _ | lacksTwo _ =>
    obtain ⟨x, hx, hlacks, -⟩ := hp
    obtain ⟨rfl, -⟩ := List.cons.inj hx
    rw [hzero] at hlacks
    cases hlacks

/-- What an operand was read last means for the phase. -/
theorem Phase.afterOperand_of_operand {p q : Phase} {ending : Ending}
    (h : p.operand ending = some q) : q.afterOperand = true := by
  cases p with
  | holds _ => cases h
  | start | lacksOne _ _ | lacksTwo _ =>
    obtain rfl := Option.some.inj h
    rfl

theorem Phase.afterOperand_of_close {p q r : Phase} (h : p.close q = some r) :
    r.afterOperand = true := by
  cases p with
  | holds ending =>
    have hoperand : q.operand .group = some r := h
    exact afterOperand_of_operand hoperand
  | start =>
    cases q with
    | holds ending =>
      cases ending with
      | literal =>
        obtain rfl := Option.some.inj h
        rfl
      | alone | group => cases h
    | start | lacksOne _ _ | lacksTwo _ => cases h
  | lacksOne _ _ | lacksTwo _ => cases h

theorem Phase.afterOperand_of_step {p q : Phase} {s : Symbol} (h : p.step s = some q) :
    q.afterOperand = s.endsOperand := by
  cases s with
  | literal =>
    rw [step_literal] at h
    exact afterOperand_of_operand h
  | opening | closing => cases p <;> cases h
  | plus | minus | times =>
    rcases p with _ | ⟨_ | _, _ | _⟩ | _ | _ <;> cases h <;> rfl

theorem Lexeme.Shows.endsOperand {l : Lexeme} {s : Symbol} (h : l.Shows s) :
    l.endsOperand = s.endsOperand := by
  cases h <;> rfl

/-- A node that is put into the innermost group takes the stack and the phases one step on. -/
theorem endsComplete_iff_of_answers {ls : List Lexeme} {ss : List Symbol}
    (h : List.Forall₂ Lexeme.Shows ls ss) {n : Node} (hn : New n) {xs : List Node}
    (hxs : Shaped (.mk .root xs)) {q? : Option Phase}
    (hanswers : Phase.Answers (n.insert true (.mk .root xs)) q?) {afterOperand : Bool}
    (hafter : ∀ q ∈ q?, q.afterOperand = afterOperand) {ps : List Phase} {rest : List Node}
    (hrest : List.Forall₂ Phase.Follows ps rest)
    (ih : ∀ {p : Phase} {ps : List Phase} {stack : List Node},
      List.Forall₂ Phase.Follows (p :: ps) stack →
        (EndsComplete (stepAll p.afterOperand stack ls) ↔
          ∃ ending, advanceAll (p :: ps) ss = some [.holds ending])) :
    EndsComplete
        ((n.insert true (.mk .root xs)).bind fun r => stepAll afterOperand (r :: rest) ls) ↔
      ∃ ending, (q?.map (· :: ps)).bind (advanceAll · ss) = some [.holds ending] := by
  cases q? with
  | some q =>
    obtain ⟨ys, hinsert, hq⟩ := hanswers
    have hshaped := (Node.grown_of_insert hinsert).shaped hn hxs
    have hfollows : List.Forall₂ Phase.Follows (q :: ps) (.mk .root ys :: rest) :=
      .cons ⟨ys, rfl, hshaped, hq⟩ hrest
    rw [hinsert, ← hafter q rfl]
    exact ih hfollows
  | none =>
    refine iff_of_false ?_ (by simp)
    rintro ⟨y, hy, hzero⟩
    cases hinsert : n.insert true (.mk .root xs) with
    | error e =>
      rw [hinsert] at hy
      cases hy
    | ok r =>
      rw [hinsert] at hy
      have hr := (Node.grown_of_insert hinsert).shaped hn hxs
      have hgroups : OpenGroups (r :: rest) := List.forall_mem_cons.mpr
        ⟨⟨Node.insert_operator hinsert, hr⟩, openGroups_of_follows hrest⟩
      obtain ⟨-, hback⟩ := stepAll_viable h hgroups (by simp) hy
      have hend : ∀ m ∈ [Node.mk .root [y]], Viable m.operands := by
        simp only [List.mem_singleton, forall_eq]
        exact .inr ⟨y, 0, rfl, hzero⟩
      exact hanswers r hinsert (hback hend r (by simp))

/-- A row of lexemes ends in a complete tree exactly if its symbols end where an expression is
held. -/
theorem endsComplete_iff {ls : List Lexeme} {ss : List Symbol}
    (h : List.Forall₂ Lexeme.Shows ls ss) : ∀ {p : Phase} {ps : List Phase} {stack : List Node},
      List.Forall₂ Phase.Follows (p :: ps) stack →
        (EndsComplete (stepAll p.afterOperand stack ls) ↔
          ∃ ending, advanceAll (p :: ps) ss = some [.holds ending]) := by
  induction h with
  | nil =>
    intro p ps stack hstack
    constructor
    · rintro ⟨y, hy, hzero⟩
      obtain rfl := Except.ok.inj hy
      obtain _ | ⟨⟨xs, hxs, -, hp⟩, hrest⟩ := hstack
      cases hrest
      obtain rfl : xs = [y] := by simpa using hxs.symm
      obtain ⟨ending, rfl⟩ := hp.holds hzero
      exact ⟨ending, rfl⟩
    · rintro ⟨ending, h⟩
      obtain ⟨rfl, rfl⟩ := List.cons.inj (Option.some.inj h)
      obtain _ | ⟨⟨xs, rfl, -, hp⟩, hrest⟩ := hstack
      cases hrest
      obtain ⟨y, rfl, hzero, -⟩ := hp
      exact ⟨y, rfl, hzero⟩
  | @cons l s ls ss hl hls ih =>
    intro p ps stack hstack
    cases hstack with
    | @cons _ top _ rest htop hrest =>
    obtain ⟨xs, rfl, hxs, hp⟩ := htop
    obtain ⟨rfl, rfl⟩ | ⟨rfl, rfl⟩ | ⟨⟨hopening, hclosing⟩, hputs⟩ := hl.cases
    · have hgroup : List.Forall₂ Phase.Follows (.start :: p :: ps)
          (.group :: .mk .root xs :: rest) :=
        .cons ⟨[], rfl, .emptyGroup, rfl⟩ (.cons ⟨xs, rfl, hxs, hp⟩ hrest)
      exact ih hgroup
    · cases hrest with
      | nil =>
        refine iff_of_false ?_ ?_
        · rintro ⟨y, hy, -⟩
          cases hy
        · rintro ⟨ending, h⟩
          cases p <;> cases h
      | @cons q above ps rest habove hrest =>
        obtain ⟨ys, rfl, hys, hq⟩ := habove
        rw [stepAll_closing rfl rfl, Node.operands_mk, if_neg (Nat.not_lt.mpr hxs.length_le)]
        exact endsComplete_iff_of_answers hls (.group hxs) hys (hp.close hxs hq hys)
          (fun r hr => Phase.afterOperand_of_close hr) hrest ih
    · obtain ⟨op, hop⟩ := hputs p.afterOperand
      rw [stepAll_place (hop.operator? _) hop.isSequence rfl, hl.endsOperand, advanceAll_cons,
        advance_cons hopening hclosing]
      exact endsComplete_iff_of_answers hls hop.isNew hxs (hop.answers p xs rfl hp hxs)
        (fun q hq => Phase.afterOperand_of_step hq) hrest ih

/-! ## Values -/

namespace Node

theorem run_eval_one (op : Operator) (y : Node) (vars : Variables) :
    (mk op [y]).eval.run vars = (y.eval.run vars).bind fun r => (op.apply [r.1]).run r.2 := by
  rw [Node.eval, evalAll, evalAll]
  simp [StateT.run_bind]
  rfl

theorem run_eval_two (op : Operator) (x y : Node) (vars : Variables) :
    (mk op [y, x]).eval.run vars = (x.eval.run vars).bind fun r =>
      (y.eval.run r.2).bind fun q => (op.apply [r.1, q.1]).run q.2 := by
  rw [Node.eval, evalAll, evalAll, evalAll]
  simp [StateT.run_bind]
  rfl

/-- The outcome of evaluating a tree: a double if nothing is lacking, and otherwise no number. -/
inductive Evaluated : Option Nat → Except EvalError (Value × Variables) → Prop
  | complete (x : Float) : Evaluated (some 0) (.ok (.float x, []))
  | empty {k? : Option Nat} (hk : k? ≠ some 0) : Evaluated k? (.ok (.empty, []))
  | error {k? : Option Nat} (hk : k? ≠ some 0) (e : EvalError) : Evaluated k? (.error e)

theorem Shaped.evaluated {y : Node} (hy : Shaped y) : Evaluated y.lacks? (y.eval.run []) := by
  induction hy with
  | number x => exact .complete x
  | emptyGroup => exact .empty (by simp [lacks?])
  | @group y hy ih =>
    rw [run_eval_one]
    generalize hk : y.lacks? = k at ih
    generalize y.eval.run [] = x at ih
    cases ih with
    | complete x =>
      rw [lacks?, if_pos hk]
      exact .complete x
    | empty hne => exact .empty (by simp [lacks?, hk, hne])
    | error hne e => exact .error (by simp [lacks?, hk, hne]) e
  | sign => exact .error (by simp [lacks?]) _
  | @neg y hy ih =>
    rw [run_eval_one, lacks?_neg]
    generalize y.lacks? = k at ih
    generalize y.eval.run [] = x at ih
    cases ih with
    | complete x => exact .complete (-x)
    | empty hne => exact .error hne _
    | error hne e => exact .error hne e
  | operation hc => exact .error (by simp [lacks?]) _
  | @left c x hc hx ih =>
    rw [run_eval_one]
    have hne : (mk (.binary c) [x]).lacks? ≠ some 0 := by simp [lacks?_left_eq_some]
    generalize x.lacks? = k at ih
    generalize x.eval.run [] = x at ih
    cases ih with
    | complete x => exact .error hne _
    | empty => exact .error hne _
    | error _ e => exact .error hne e
  | @binary c x y hc hx hy ihx ihy =>
    rw [run_eval_two]
    generalize hkx : x.lacks? = kx at ihx
    generalize x.eval.run [] = vx at ihx
    cases ihx with
    | complete x' =>
      have hlacks : (mk (.binary c) [y, x]).lacks? = y.lacks? := by rw [lacks?, if_pos hkx]
      rw [hlacks]
      show Evaluated _ ((y.eval.run []).bind _)
      generalize y.lacks? = ky at ihy
      generalize y.eval.run [] = vy at ihy
      cases ihy with
      | complete y' =>
        rcases hc with rfl | rfl | rfl | rfl <;> exact .complete _
      | empty hne =>
        rcases hc with rfl | rfl | rfl | rfl <;> exact .error hne _
      | error hne e => exact .error hne e
    | empty hne =>
      have hne' : (mk (.binary c) [y, x]).lacks? ≠ some 0 := by simp [lacks?, hkx, hne]
      show Evaluated _ ((y.eval.run []).bind _)
      generalize y.lacks? = ky at ihy
      generalize y.eval.run [] = vy at ihy
      cases ihy with
      | complete | empty =>
        rcases hc with rfl | rfl | rfl | rfl <;> exact .error hne' _
      | error _ e => exact .error hne' e
    | error hne e => exact .error (by simp [lacks?, hkx, hne]) e

end Node

/-- A value is a number where nothing is lacking. -/
theorem Node.Evaluated.isNumber_iff {k? : Option Nat} {v : Except EvalError (Value × Variables)}
    (h : Node.Evaluated k? v) : (∃ x, (v.bind fun r => r.1.toNumber) = .ok x) ↔ k? = some 0 := by
  cases h with
  | complete x => exact iff_of_true ⟨x, rfl⟩ rfl
  | empty hk | error hk =>
    refine iff_of_false ?_ hk
    rintro ⟨x, hx⟩
    cases hx

theorem Lexeme.Shows.isArithmetic {l : Lexeme} {s : Symbol} (h : l.Shows s) : l.IsArithmetic := by
  cases h with
  | literal x => exact .constant _
  | opening => exact .opening
  | closing => exact .closing
  | plus => exact .operation (.inl rfl)
  | minus => exact .operation (.inr (.inl rfl))
  | mul => exact .operation (.inr (.inr (.inl rfl)))
  | div => exact .operation (.inr (.inr (.inr rfl)))

theorem isArithmetic_of_shows {ls : List Lexeme} {ss : List Symbol}
    (h : List.Forall₂ Lexeme.Shows ls ss) : ∀ l ∈ ls, l.IsArithmetic := by
  induction h with
  | nil => simp
  | cons hl _ ih => exact List.forall_mem_cons.mpr ⟨hl.isArithmetic, ih⟩

/-- A row of lexemes yields a number exactly if its symbols are a phrase. -/
theorem isNumber_iff_phrase {ls : List Lexeme} {ss : List Symbol}
    (h : List.Forall₂ Lexeme.Shows ls ss) : (∃ x, numberOf ls = .ok x) ↔ Phrase true .sum ss := by
  have hstart : List.Forall₂ Phase.Follows [.start] [.group] :=
    .cons ⟨[], rfl, .emptyGroup, rfl⟩ .nil
  have hvalue {tree : Node} (htree : stepAll false [.group] ls = .ok [tree]) :=
    ((stepAll_viable h (openGroups_of_follows hstart) (by simp) htree).1 tree (by simp))
  rw [phrase_iff_advance, ← endsComplete_iff h hstart]
  constructor
  · rintro ⟨x, hx⟩
    cases hparse : parse ls with
    | error e =>
      rw [numberOf, hparse] at hx
      cases hx
    | ok tree =>
      have htree := stepAll_of_parse (isArithmetic_of_shows h) hparse
      obtain ⟨hroot, hshaped⟩ := hvalue htree
      rw [numberOf, hparse] at hx
      have hzero := hshaped.evaluated.isNumber_iff.mp ⟨x, hx⟩
      obtain ⟨op, os⟩ := tree
      obtain rfl : op = .root := hroot
      obtain ⟨-, y, rfl, hy⟩ := Node.lacks?_group_eq_some.mp hzero
      exact ⟨y, htree, hy⟩
  · rintro ⟨y, hy, hzero⟩
    have htree : stepAll false [.group] ls = .ok [.mk .root [y]] := hy
    have hparse : parse ls = .ok (.mk .root [y]) := by
      rw [parse, htree]
      rfl
    rw [numberOf, hparse]
    exact (hvalue htree).2.evaluated.isNumber_iff.mpr (by rw [Node.lacks?, if_pos hzero])

end Scorecard.Formula
