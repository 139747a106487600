import Scorecard.Proofs.Formula.Matching
import Scorecard.Proofs.Formula.Phrase

/-!
# How the trees of arithmetic formulas grow

A formula is read by putting one node after the other into the tree of the innermost group.  This
module says what that does to the tree, for the nodes of arithmetic formulas.

* `Grown` is all that can happen to a tree (`grown_of_insert`), and `Shaped` are the trees that come
  about: a node has no more operands than it takes (`Grown.shaped`).
* `lacks?` counts the operands that are missing at the right end of a tree.  A tree of which it says
  nothing has a gap elsewhere, and no node fills that again (`Grown.viable`).
* `insert_filled`: where an operand is missing, a node goes into its place.
* `insert_complete` and `insert_emptyGroup`: where none is missing, no operand is taken, except that
  a literal at the end is taken over by an empty pair of parentheses.
* `insert_root_operation`: an operation takes over what is there, or the last operand of a sum.
-/

namespace Scorecard.Formula

/-- Whether the operator adds or subtracts. -/
def Operator.isSum : Operator → Bool
  | binary .add | binary .sub => true
  | _ => false

/-- Whether the operator multiplies or divides. -/
def Operator.isProduct : Operator → Bool
  | binary .mul | binary .div => true
  | _ => false

theorem Operator.eq_of_isSum {op : Operator} (h : op.isSum = true) :
    op = .binary .add ∨ op = .binary .sub := by
  unfold Operator.isSum at h
  split at h
  · exact .inl rfl
  · exact .inr rfl
  · cases h

theorem Operator.eq_of_isProduct {op : Operator} (h : op.isProduct = true) :
    op = .binary .mul ∨ op = .binary .div := by
  unfold Operator.isProduct at h
  split at h
  · exact .inl rfl
  · exact .inr rfl
  · cases h

namespace Node

/-! ## What a tree lacks -/

/-- The count of operands that are still missing at the right end of a tree, if none is missing
elsewhere. -/
def lacks? : Node → Option Nat
  | mk (.constant (.float _)) [] => some 0
  | mk .root [y] => if y.lacks? = some 0 then some 0 else none
  | mk .neg [] => some 1
  | mk .neg [y] => y.lacks?
  | mk (.binary _) [] => some 2
  | mk (.binary _) [x] => if x.lacks? = some 0 then some 1 else none
  | mk (.binary _) [y, x] => if x.lacks? = some 0 then y.lacks? else none
  | _ => none

/-- A group is complete if what it holds is; otherwise nothing makes it so. -/
theorem lacks?_group_eq_some {os : List Node} {k : Nat} :
    (mk .root os).lacks? = some k ↔ k = 0 ∧ ∃ y, os = [y] ∧ y.lacks? = some 0 := by
  rcases os with _ | ⟨y, _ | ⟨x, rest⟩⟩
  · simp [lacks?]
  · by_cases hy : y.lacks? = some 0
    · simp [lacks?, hy, eq_comm]
    · simp [lacks?, hy]
  · simp [lacks?]

theorem yieldsTo_neg (op : Operator) : op.yieldsTo .neg = true := by
  have hunary : Operator.neg.isUnary = true := rfl
  simp [Operator.yieldsTo, hunary]

theorem lacks?_neg (y : Node) : (mk .neg [y]).lacks? = y.lacks? := by rw [lacks?]

theorem lacks?_left_eq_some {c : Binary} {x : Node} {k : Nat} :
    (mk (.binary c) [x]).lacks? = some k ↔ k = 1 ∧ x.lacks? = some 0 := by
  by_cases hx : x.lacks? = some 0 <;> simp [lacks?, hx, eq_comm]

theorem lacks?_binary_eq_some {c : Binary} {x y : Node} {k : Nat} :
    (mk (.binary c) [y, x]).lacks? = some k ↔ x.lacks? = some 0 ∧ y.lacks? = some k := by
  by_cases hx : x.lacks? = some 0 <;> simp [lacks?, hx]

/-! ## How a tree grows -/

/-- What putting the node `n` into a tree does: it becomes the last operand of a node that may take
more operands, or it takes the last operand of a full node over, or it goes into that operand. -/
inductive Grown (n : Node) : Bool → Node → Node → Prop
  | behind {op : Operator} {os : List Node} {atRoot : Bool}
      (houter : (op.yieldsTo n.operator || atRoot) = true) (hleaf : op.isLeaf = false)
      (hhungry : op.arity? ≠ some os.length) : Grown n atRoot (mk op os) (mk op (n :: os))
  | inside {op : Operator} {x x' : Node} {rest : List Node} {atRoot : Bool}
      (houter : (op.yieldsTo n.operator || atRoot) = true) (hleaf : op.isLeaf = false)
      (hfull : op.arity? = some (rest.length + 1)) (hyields : x.operator.yieldsTo n.operator = true)
      (h : Grown n false x x') : Grown n atRoot (mk op (x :: rest)) (mk op (x' :: rest))
  | takeOver {op : Operator} {x : Node} {rest : List Node} {atRoot : Bool}
      (houter : (op.yieldsTo n.operator || atRoot) = true) (hleaf : op.isLeaf = false)
      (hfull : op.arity? = some (rest.length + 1))
      (hyields : x.operator.yieldsTo n.operator = false) (hnode : n.operator.isLeaf = false)
      (hroot : op.isRoot = true → n.operator.isRoot = false)
      (hgroup : n.operator.isRoot = true → n.operands = [] ∧ x.operator.isRoot = false) :
      Grown n atRoot (mk op (x :: rest)) (mk op (n.append x :: rest))

variable {n y r : Node} {atRoot : Bool}

theorem grown_of_insert : ∀ {y : Node} {atRoot : Bool} {r : Node},
    insert n atRoot y = .ok r → Grown n atRoot y r
  | mk op os, atRoot, r, h => by
    cases houter : op.yieldsTo n.operator || atRoot with
    | false =>
      rw [insert_refused houter] at h
      cases h
    | true =>
      cases hleaf : op.isLeaf with
      | true =>
        unfold insert at h
        simp [houter, hleaf] at h
      | false =>
        by_cases hhungry : op.arity? ≠ some os.length
        · rw [insert_hungry houter hleaf hhungry] at h
          obtain rfl := Except.ok.inj h
          exact .behind houter hleaf hhungry
        cases os with
        | nil =>
          have harity : op.arity? = some 0 := by simpa using hhungry
          simp [Operator.isLeaf, harity] at hleaf
        | cons x rest =>
          have hfull : op.arity? = some (rest.length + 1) := by simpa using hhungry
          cases hyields : x.operator.yieldsTo n.operator with
          | true =>
            rw [insert_below houter hleaf hfull hyields] at h
            cases hx : insert n false x with
            | error e =>
              rw [hx] at h
              cases h
            | ok x' =>
              rw [hx] at h
              obtain rfl := Except.ok.inj h
              exact .inside houter hleaf hfull hyields (grown_of_insert hx)
          | false =>
            rw [insert_take houter hleaf hfull hyields] at h
            unfold takeLast at h
            split at h
            · cases h
            · next hnode =>
              split at h
              · cases h
              · next hroot =>
                split at h
                · cases h
                · next hgroup =>
                  obtain rfl := Except.ok.inj h
                  refine .takeOver houter hleaf hfull hyields (by simpa using hnode) ?_ ?_
                  · intro hop
                    simp [hop] at hroot
                    exact hroot.2
                  · intro hop
                    simp [hop] at hgroup
                    exact hgroup

/-! ## Shapes -/

/-- The trees of arithmetic formulas: no node has more operands than it takes. -/
inductive Shaped : Node → Prop
  | number (x : Float) : Shaped (number x)
  | emptyGroup : Shaped (mk .root [])
  | group {y : Node} (hy : Shaped y) : Shaped (mk .root [y])
  | sign : Shaped (mk .neg [])
  | neg {y : Node} (hy : Shaped y) : Shaped (mk .neg [y])
  | operation {c : Binary} (hc : c.IsArithmetic) : Shaped (mk (.binary c) [])
  | left {c : Binary} {x : Node} (hc : c.IsArithmetic) (hx : Shaped x) : Shaped (mk (.binary c) [x])
  | binary {c : Binary} {x y : Node} (hc : c.IsArithmetic) (hx : Shaped x) (hy : Shaped y) :
      Shaped (mk (.binary c) [y, x])

theorem Shaped.length_le {os : List Node} (h : Shaped (mk .root os)) : os.length ≤ 1 := by
  cases h with
  | emptyGroup | group => simp

theorem Shaped.of_group (h : Shaped (mk .root [y])) : Shaped y := by
  cases h with
  | group hy => exact hy

/-- The nodes that are put into the trees of arithmetic formulas. -/
inductive New : Node → Prop
  | number (x : Float) : New (number x)
  | sign : New (mk .neg [])
  | operation {c : Binary} (hc : c.IsArithmetic) : New (mk (.binary c) [])
  | group {os : List Node} (h : Shaped (mk .root os)) : New (mk .root os)

theorem New.shaped (h : New n) : Shaped n := by
  cases h with
  | number x => exact .number x
  | sign => exact .sign
  | operation hc => exact .operation hc
  | group h => exact h

/-- A new node that is no constant takes over an operand. -/
theorem New.append (h : New n) (hleaf : n.operator.isLeaf = false)
    (hgroup : n.operator.isRoot = true → n.operands = []) (hy : Shaped y) :
    Shaped (n.append y) := by
  cases h with
  | number x => exact absurd hleaf nofun
  | sign => exact .neg hy
  | operation hc => exact .left hc hy
  | group h =>
    obtain rfl := hgroup rfl
    exact .group hy

theorem Grown.shaped (h : Grown n atRoot y r) (hn : New n) (hy : Shaped y) : Shaped r := by
  induction h with
  | @behind op os atRoot _ _ hhungry =>
    cases hy with
    | number x | group | neg | binary => exact absurd rfl hhungry
    | emptyGroup => exact .group hn.shaped
    | sign => exact .neg hn.shaped
    | operation hc => exact .left hc hn.shaped
    | left hc hx => exact .binary hc hx hn.shaped
  | inside _ _ hfull _ _ ih =>
    cases hy with
    | group hy => exact .group (ih hy)
    | neg hy => exact .neg (ih hy)
    | left hc hx => exact absurd hfull (by simp [Operator.arity?])
    | binary hc hx hy => exact .binary hc hx (ih hy)
  | takeOver _ _ hfull _ hnode _ hgroup =>
    have happend {x : Node} := hn.append (y := x) hnode fun h => (hgroup h).1
    cases hy with
    | group hy => exact .group (happend hy)
    | neg hy => exact .neg (happend hy)
    | left hc hx => exact absurd hfull (by simp [Operator.arity?])
    | binary hc hx hy => exact .binary hc hx (happend hy)

/-- Only a minus sign goes below a group. -/
theorem New.eq_sign (h : New n) (hyields : Operator.root.yieldsTo n.operator = true) :
    n = mk .neg [] := by
  rw [root_yieldsTo] at hyields
  cases h with
  | sign => rfl
  | number x | operation hc | group h => cases hyields

theorem New.operands_eq_nil (h : New n) (hgroup : n.operator.isRoot = true → n.operands = []) :
    n.operands = [] := by
  cases h with
  | number x | sign | operation hc => rfl
  | group h => exact hgroup rfl

/-! ## What a grown tree lacks -/

/-- A minus sign that has just been put in front of its operand lacks it. -/
theorem Grown.lacks?_ne_zero (h : Grown (mk .neg []) atRoot y r) (hy : Shaped y) :
    r.lacks? ≠ some 0 := by
  intro hzero
  induction h with
  | @behind op os atRoot _ _ hhungry =>
    cases hy with
    | number x | group | neg | binary => exact hhungry rfl
    | emptyGroup | sign | operation => simp [lacks?] at hzero
    | left => exact absurd (lacks?_binary_eq_some.mp hzero).2 (by simp [lacks?])
  | inside _ _ hfull _ _ ih =>
    cases hy with
    | group hy =>
      obtain ⟨-, x, hx, hzero⟩ := lacks?_group_eq_some.mp hzero
      obtain ⟨rfl, -⟩ := List.cons.inj hx
      exact ih hy hzero
    | neg hy => exact ih hy (by rwa [lacks?_neg] at hzero)
    | left => exact absurd hfull (by simp [Operator.arity?])
    | binary _ _ hy => exact ih hy (lacks?_binary_eq_some.mp hzero).2
  | takeOver _ _ _ hyields => exact absurd hyields (by simp [yieldsTo_neg])

/-- A new node that has operands is a group, and it lacks nothing if anything is known of it. -/
theorem New.lacks?_eq_zero (h : New n) {k : Nat} (hk : n.lacks? = some k) (hne : n.operands ≠ []) :
    n.lacks? = some 0 := by
  cases h with
  | number x | sign | operation => exact absurd rfl hne
  | group h => rw [hk, (lacks?_group_eq_some.mp hk).1]

theorem append_mk (op : Operator) (os : List Node) (y : Node) :
    (mk op os).append y = mk op (y :: os) := rfl

/-- An operand that is taken over lacks a known count if the node that takes it over then does. -/
theorem New.exists_lacks?_of_append (h : New n) (hleaf : n.operator.isLeaf = false)
    (hnil : n.operands = []) {k : Nat} (hk : (n.append y).lacks? = some k) :
    ∃ j, y.lacks? = some j := by
  cases h with
  | number x => exact absurd hleaf nofun
  | sign => exact ⟨k, by rwa [append_mk, lacks?_neg] at hk⟩
  | operation hc => exact ⟨0, (lacks?_left_eq_some.mp hk).2⟩
  | group h =>
    obtain rfl : _ = [] := hnil
    obtain ⟨-, x, hx, hzero⟩ := lacks?_group_eq_some.mp hk
    obtain ⟨rfl, -⟩ := List.cons.inj hx
    exact ⟨0, hzero⟩

/-- What goes into an operand does not repair it. -/
theorem Grown.exists_lacks? (h : Grown n atRoot y r) (hfalse : atRoot = false) (hn : New n)
    (hy : Shaped y) {k : Nat} (hk : r.lacks? = some k) :
    (∃ j, y.lacks? = some j) ∧ (n.operands ≠ [] → n.lacks? = some 0) := by
  induction h generalizing k with
  | @behind op os atRoot houter _ hhungry =>
    subst hfalse
    cases hy with
    | number x | group | neg | binary => exact absurd rfl hhungry
    | emptyGroup =>
      obtain rfl := hn.eq_sign (by simpa using houter)
      simp [lacks?] at hk
    | sign => exact ⟨⟨1, by rw [lacks?]⟩, hn.lacks?_eq_zero (by rwa [lacks?_neg] at hk)⟩
    | operation => exact ⟨⟨2, by rw [lacks?]⟩, fun _ => (lacks?_left_eq_some.mp hk).2⟩
    | left =>
      obtain ⟨hx, hn'⟩ := lacks?_binary_eq_some.mp hk
      exact ⟨⟨1, lacks?_left_eq_some.mpr ⟨rfl, hx⟩⟩, hn.lacks?_eq_zero hn'⟩
  | inside houter _ hfull _ hgrown ih =>
    subst hfalse
    cases hy with
    | group hy =>
      obtain rfl := hn.eq_sign (by simpa using houter)
      obtain ⟨-, x, hx, hzero⟩ := lacks?_group_eq_some.mp hk
      obtain ⟨rfl, -⟩ := List.cons.inj hx
      exact absurd hzero (hgrown.lacks?_ne_zero hy)
    | neg hy =>
      rw [lacks?_neg] at hk ⊢
      exact ih rfl hy hk
    | left => exact absurd hfull (by simp [Operator.arity?])
    | binary _ _ hy =>
      obtain ⟨hx, hk⟩ := lacks?_binary_eq_some.mp hk
      obtain ⟨⟨j, hj⟩, hzero⟩ := ih rfl hy hk
      exact ⟨⟨j, lacks?_binary_eq_some.mpr ⟨hx, hj⟩⟩, hzero⟩
  | takeOver houter _ hfull hyields hleaf _ hgroup =>
    subst hfalse
    have hnil := hn.operands_eq_nil fun h => (hgroup h).1
    refine ⟨?_, fun hne => absurd hnil hne⟩
    cases hy with
    | group hy =>
      obtain rfl := hn.eq_sign (by simpa using houter)
      exact absurd hyields (by simp [yieldsTo_neg])
    | neg hy =>
      rw [lacks?_neg] at hk ⊢
      exact hn.exists_lacks?_of_append hleaf hnil hk
    | left => exact absurd hfull (by simp [Operator.arity?])
    | binary _ _ hy =>
      obtain ⟨hx, hk⟩ := lacks?_binary_eq_some.mp hk
      obtain ⟨j, hj⟩ := hn.exists_lacks?_of_append hleaf hnil hk
      exact ⟨j, lacks?_binary_eq_some.mpr ⟨hx, hj⟩⟩

/-- What an open group holds can still become complete: it holds nothing, or a tree of which it is
known what it lacks. -/
def Viable (xs : List Node) : Prop := xs = [] ∨ ∃ y k, xs = [y] ∧ y.lacks? = some k

/-- What is put into the innermost group does not repair it either. -/
theorem Grown.viable {xs : List Node} (h : Grown n true (mk .root xs) r) (hn : New n)
    (hxs : Shaped (mk .root xs)) (hr : Viable r.operands) :
    Viable xs ∧ (n.operands ≠ [] → n.lacks? = some 0) := by
  obtain hr | ⟨z, k, hr, hk⟩ := hr
  · cases h <;> cases hr
  cases h with
  | behind =>
    obtain ⟨rfl, rfl⟩ := List.cons.inj hr
    exact ⟨.inl rfl, hn.lacks?_eq_zero hk⟩
  | inside _ _ _ _ h =>
    obtain ⟨rfl, rfl⟩ := List.cons.inj hr
    cases hxs with
    | group hx =>
      obtain ⟨⟨j, hj⟩, hzero⟩ := h.exists_lacks? rfl hn hx hk
      exact ⟨.inr ⟨_, j, rfl, hj⟩, hzero⟩
  | takeOver _ _ _ _ hleaf _ hgroup =>
    obtain ⟨rfl, rfl⟩ := List.cons.inj hr
    have hnil := hn.operands_eq_nil fun h => (hgroup h).1
    obtain ⟨j, hj⟩ := hn.exists_lacks?_of_append hleaf hnil hk
    exact ⟨.inr ⟨_, j, rfl, hj⟩, fun hne => absurd hnil hne⟩

/-! ## Filling a place -/

/-- Whether a sign `*` that comes next goes behind the operator that lacks an operand. -/
def isLoose : Node → Bool
  | mk op [] => op.isSum
  | mk op [_] => op.isSum
  | mk op (y :: _ :: _) => op.isSum && y.isLoose

/-- Whether an empty pair of parentheses that comes next meets a group, which may be the tree. -/
def meetsGroup (y : Node) : Bool := y.operator.isRoot || y.endsInGroup

theorem meetsGroup_neg (y : Node) : (mk .neg [y]).meetsGroup = y.meetsGroup := by
  rw [meetsGroup, endsInGroup_of_full rfl]
  rfl

theorem meetsGroup_binary (c : Binary) (x y : Node) :
    (mk (.binary c) [y, x]).meetsGroup = y.meetsGroup := by
  rw [meetsGroup, endsInGroup_of_full rfl]
  rfl

/-- The second tree is the first one with a node in the place of the first operand it lacks. -/
inductive Filled (n : Node) : Node → Node → Prop
  | sign : Filled n (mk .neg []) (mk .neg [n])
  | operation {c : Binary} : Filled n (mk (.binary c) []) (mk (.binary c) [n])
  | left {c : Binary} {x : Node} (hx : x.lacks? = some 0) :
      Filled n (mk (.binary c) [x]) (mk (.binary c) [n, x])
  | neg {y r : Node} (h : Filled n y r) : Filled n (mk .neg [y]) (mk .neg [r])
  | binary {c : Binary} {x y r : Node} (hx : x.lacks? = some 0) (h : Filled n y r) :
      Filled n (mk (.binary c) [y, x]) (mk (.binary c) [r, x])

/-- What goes below a sum. -/
theorem yieldsTo_of_isSum {outer inner : Operator} (houter : outer.isSum = true)
    (hinner : inner.isProduct = true) : outer.yieldsTo inner = true := by
  rcases Operator.eq_of_isSum houter with rfl | rfl <;>
    rcases Operator.eq_of_isProduct hinner with rfl | rfl <;> rfl

/-- An operand or a minus sign goes below every operation, and a product goes below a sum. -/
theorem New.yieldsTo (hn : New n) (hsum : n.operator.isSum = false) {op : Operator}
    (hop : op = .neg ∨ ∃ c : Binary, c.IsArithmetic ∧ op = .binary c)
    (hproduct : n.operator.isProduct = true → op.isSum = true) :
    op.yieldsTo n.operator = true := by
  cases hn with
  | sign => exact yieldsTo_neg op
  | operation hc =>
    rcases hc with rfl | rfl | rfl | rfl
    · cases hsum
    · cases hsum
    · exact yieldsTo_of_isSum (hproduct rfl) rfl
    · exact yieldsTo_of_isSum (hproduct rfl) rfl
  | number x | group h => rcases hop with rfl | ⟨c, rfl | rfl | rfl | rfl, rfl⟩ <;> rfl

/-- An operator that lacks an operand is a minus sign or an operation. -/
theorem Shaped.operator_of_lacks (hy : Shaped y) {k : Nat} (hk : y.lacks? = some (k + 1)) :
    y.operator = .neg ∨ ∃ c : Binary, c.IsArithmetic ∧ y.operator = .binary c := by
  cases hy with
  | number x => exact absurd hk (by simp [Node.number, lacks?])
  | emptyGroup | group hy => exact absurd (lacks?_group_eq_some.mp hk).1 (by omega)
  | sign | neg hy => exact .inl rfl
  | operation hc | left hc | binary hc => exact .inr ⟨_, hc, rfl⟩

theorem isSum_of_isLoose (h : y.isLoose = true) : y.operator.isSum = true := by
  obtain ⟨op, _ | ⟨y, _ | ⟨x, rest⟩⟩⟩ := y
  · simpa [isLoose] using h
  · simpa [isLoose] using h
  · simp only [isLoose, Bool.and_eq_true] at h
    exact h.1

/-- A tree that lacks an operand takes one. -/
theorem insert_filled (hn : New n) (hsum : n.operator.isSum = false) (hy : Shaped y) :
    ∀ {k : Nat}, y.lacks? = some (k + 1) → (n.operator.isProduct = true → y.isLoose = true) →
      ∃ r, insert n false y = .ok r ∧ Filled n y r := by
  induction hy with
  | number x => exact fun hk => absurd hk (by simp [Node.number, lacks?])
  | emptyGroup | group => exact fun hk => absurd (lacks?_group_eq_some.mp hk).1 (by omega)
  | sign =>
    intro k _ hloose
    have hyields := hn.yieldsTo hsum (.inl rfl) fun h => isSum_of_isLoose (hloose h)
    exact ⟨_, insert_hungry (by simpa using hyields) rfl (by simp [Operator.arity?]), .sign⟩
  | operation hc =>
    intro k _ hloose
    have hyields := hn.yieldsTo hsum (.inr ⟨_, hc, rfl⟩) fun h => isSum_of_isLoose (hloose h)
    exact ⟨_, insert_hungry (by simpa using hyields) rfl (by simp [Operator.arity?]), .operation⟩
  | left hc =>
    intro k hk hloose
    have hyields := hn.yieldsTo hsum (.inr ⟨_, hc, rfl⟩) fun h => isSum_of_isLoose (hloose h)
    exact ⟨_, insert_hungry (by simpa using hyields) rfl (by simp [Operator.arity?]),
      .left (lacks?_left_eq_some.mp hk).2⟩
  | @neg y hy ih =>
    intro k hk hloose
    rw [lacks?_neg] at hk
    -- No product goes below a minus sign.
    have hloose' : n.operator.isProduct = true → y.isLoose = true := fun h =>
      absurd (isSum_of_isLoose (hloose h)) (show ¬ Operator.neg.isSum = true by decide)
    have hyields := hn.yieldsTo hsum (.inl rfl) fun h => isSum_of_isLoose (hloose h)
    have hbelow := hn.yieldsTo hsum (hy.operator_of_lacks hk) fun h => isSum_of_isLoose (hloose' h)
    obtain ⟨r, hr, hfilled⟩ := ih hk hloose'
    refine ⟨mk .neg [r], ?_, .neg hfilled⟩
    rw [insert_below (by simpa using hyields) rfl rfl hbelow, hr]
    rfl
  | @binary c x y hc _ hy _ ih =>
    intro k hk hloose
    obtain ⟨hx, hk⟩ := lacks?_binary_eq_some.mp hk
    have hloose' : n.operator.isProduct = true → y.isLoose = true := fun h =>
      (Bool.and_eq_true_iff.mp (hloose h)).2
    have hyields := hn.yieldsTo hsum (.inr ⟨c, hc, rfl⟩) fun h => isSum_of_isLoose (hloose h)
    have hbelow := hn.yieldsTo hsum (hy.operator_of_lacks hk) fun h => isSum_of_isLoose (hloose' h)
    obtain ⟨r, hr, hfilled⟩ := ih hk hloose'
    refine ⟨mk (.binary c) [r, x], ?_, .binary hx hfilled⟩
    rw [insert_below (by simpa using hyields) rfl rfl hbelow, hr]
    rfl

namespace Filled

/-- What a tree lacks once a node has been put in the place of an operand. -/
theorem lacks? (h : Filled n y r) : ∀ {k : Nat}, y.lacks? = some (k + 1) →
    r.lacks? = if k = 0 then n.lacks? else if n.lacks? = some 0 then some k else none := by
  induction h with
  | sign =>
    intro k hk
    obtain rfl : k = 0 := by simpa [Node.lacks?, eq_comm] using hk
    simp [Node.lacks?]
  | operation =>
    intro k hk
    obtain rfl : k = 1 := by simpa [Node.lacks?, eq_comm] using hk
    simp [Node.lacks?]
  | left hx =>
    intro k hk
    obtain rfl : k = 0 := by simpa using (lacks?_left_eq_some.mp hk).1
    simp [Node.lacks?, hx]
  | neg _ ih =>
    intro k hk
    rw [lacks?_neg] at hk ⊢
    exact ih hk
  | binary hx _ ih =>
    intro k hk
    rw [Node.lacks?, if_pos hx]
    exact ih (lacks?_binary_eq_some.mp hk).2

/-- The operator stays, and it is no operand. -/
theorem operator (h : Filled n y r) :
    r.operator = y.operator ∧ y.operator.isRoot = false ∧ y.operator.isLeaf = false := by
  cases h <;> exact ⟨rfl, rfl, rfl⟩

/-- Where one operand is lacking, the tree meets an empty pair of parentheses as that operand. -/
theorem meetsGroup (h : Filled n y r) (hy : y.lacks? = some 1) :
    r.meetsGroup = n.meetsGroup := by
  induction h with
  | sign => exact meetsGroup_neg n
  | operation => simp [Node.lacks?] at hy
  | left hx => exact meetsGroup_binary _ _ n
  | neg h ih => rw [meetsGroup_neg, ih (by rwa [lacks?_neg] at hy)]
  | binary hx h ih => rw [meetsGroup_binary, ih (lacks?_binary_eq_some.mp hy).2]

/-- Where two operands are lacking, one of them leaves the tree as loose as it is. -/
theorem isLoose_eq (h : Filled n y r) (hy : y.lacks? = some 2) : r.isLoose = y.isLoose := by
  induction h with
  | sign => simp [Node.lacks?] at hy
  | operation | neg => rfl
  | left => simp [lacks?_left_eq_some] at hy
  | binary hx h ih => rw [isLoose, isLoose, ih (lacks?_binary_eq_some.mp hy).2]

/-- Where one operand is lacking, the tree becomes tight with a tight node in its place. -/
theorem isLoose_eq_false (h : Filled n y r) (hy : y.lacks? = some 1) (hn : n.isLoose = false) :
    r.isLoose = false := by
  induction h with
  | sign | neg => rfl
  | operation => simp [Node.lacks?] at hy
  | left hx => rw [isLoose, hn, Bool.and_false]
  | binary hx h ih => rw [isLoose, ih (lacks?_binary_eq_some.mp hy).2, Bool.and_false]

end Filled

/-! ## Complete trees -/

/-- How a complete tree ends. -/
def ending (y : Node) : Ending :=
  if y.operator.isRoot || y.operator.isLeaf then .alone
  else if y.meetsGroup then .group else .literal

theorem ending_eq_literal : y.ending = .literal ↔
    (y.operator.isRoot || y.operator.isLeaf) = false ∧ y.meetsGroup = false := by
  unfold ending
  split
  · next h => simp [h]
  · next h =>
    split
    · next h' => simp [h']
    · next h' => simpa using ⟨by simpa using h, by simpa using h'⟩

/-- The nodes that are operands when they are put into a tree. -/
inductive Operand : Node → Prop
  | number (x : Float) : Operand (number x)
  | group (os : List Node) : Operand (mk .root os)

/-- Only a minus sign and the operations let an operand go below them. -/
theorem Operand.yieldsTo (hn : Operand n) (hy : Shaped y) : y.operator.yieldsTo n.operator =
    !(y.operator.isRoot || y.operator.isLeaf) := by
  cases hy with
  | number x | emptyGroup | group | sign | neg => cases hn <;> rfl
  | operation hc | left hc | binary hc =>
    rcases hc with rfl | rfl | rfl | rfl <;> cases hn <;> rfl

theorem Operand.yieldsTo_binary (hn : Operand n) {c : Binary} (hc : c.IsArithmetic) :
    (Operator.binary c).yieldsTo n.operator = true :=
  hn.yieldsTo (.operation hc)

/-- A tree that lets no operand go below it meets an empty pair as a group only if it is one. -/
theorem Shaped.isRoot_of_meetsGroup (hy : Shaped y) (hmeets : y.meetsGroup = true)
    (halone : (y.operator.isRoot || y.operator.isLeaf) = true) : y.operator.isRoot = true := by
  cases hy with
  | number x => exact absurd hmeets nofun
  | emptyGroup | group => rfl
  | sign | neg | operation | left | binary => exact absurd halone nofun

/-- A full node refuses an operand if its last operand does. -/
theorem insert_full_refused (hn : Operand n) {op : Operator} {rest : List Node} (hy : Shaped y)
    (hop : op.yieldsTo n.operator = true) (hleaf : op.isLeaf = false)
    (hfull : op.arity? = some (rest.length + 1)) (hends : n = group → y.meetsGroup = true)
    (hlast : ∃ e, insert n false y = .error e) :
    ∃ e, insert n false (mk op (y :: rest)) = .error e := by
  cases hyields : y.operator.yieldsTo n.operator with
  | true =>
    obtain ⟨e, he⟩ := hlast
    exact ⟨e, by rw [insert_below (by simpa using hop) hleaf hfull hyields, he]; rfl⟩
  | false =>
    rw [insert_take (by simpa using hop) hleaf hfull hyields]
    rw [hn.yieldsTo hy, Bool.not_eq_false'] at hyields
    cases hn with
    | number x => exact ⟨_, rfl⟩
    | group os =>
      have hroot : os = [] → y.operator.isRoot = true := fun hos =>
        hy.isRoot_of_meetsGroup (hends (by rw [hos]; rfl)) hyields
      have hinner : Operator.root.isLeaf = false ∧ Operator.root.isRoot = true := ⟨rfl, rfl⟩
      refine ⟨.missingOperator, ?_⟩
      cases os with
      | nil => simp [takeLast, hinner, hroot rfl, isRoot_of_yieldsTo_root hop]
      | cons z zs => simp [takeLast, hinner, isRoot_of_yieldsTo_root hop]

/-- A complete tree takes no operand, unless it ends in a literal and the operand is an empty
group. -/
theorem insert_complete (hn : Operand n) (hy : Shaped y) : y.lacks? = some 0 →
    (n = group → y.meetsGroup = true) → ∃ e, insert n false y = .error e := by
  induction hy with
  | number x => exact fun _ _ => insert_number n x false
  | emptyGroup | group hy =>
    refine fun _ _ => ⟨_, insert_refused ?_⟩
    cases hn <;> rfl
  | sign | operation => exact fun h => absurd h (by simp [lacks?])
  | left => exact fun h => absurd (lacks?_left_eq_some.mp h).1 (by decide)
  | neg hy ih =>
    intro hzero hends
    rw [lacks?_neg] at hzero
    rw [meetsGroup_neg] at hends
    exact insert_full_refused hn hy (by cases hn <;> rfl) rfl rfl hends (ih hzero hends)
  | binary hc _ hy _ ih =>
    intro hzero hends
    rw [meetsGroup_binary] at hends
    exact insert_full_refused hn hy (hn.yieldsTo_binary hc) rfl rfl hends
      (ih (lacks?_binary_eq_some.mp hzero).2 hends)

/-- A full node lets an empty group take its last literal over. -/
theorem insert_full_emptyGroup (op : Operator) (rest : List Node) (hy : Shaped y)
    (hop : op.yieldsTo group.operator = true) (hleaf : op.isLeaf = false)
    (hfull : op.arity? = some (rest.length + 1)) (hzero : y.lacks? = some 0)
    (hends : y.meetsGroup = false)
    (hlast : y.operator.isLeaf = false →
      ∃ r, insert group false y = .ok r ∧ r.lacks? = some 0 ∧ r.meetsGroup = true) :
    ∃ r, insert group false (mk op (y :: rest)) = .ok (mk op (r :: rest)) ∧ r.lacks? = some 0 ∧
      r.meetsGroup = true := by
  have hyields : y.operator.yieldsTo group.operator = _ := (Operand.group []).yieldsTo hy
  have hroot : y.operator.isRoot = false := (Bool.or_eq_false_iff.mp hends).1
  cases hy' : y.operator.isLeaf with
  | false =>
    rw [hroot, hy'] at hyields
    obtain ⟨r, hr, hr'⟩ := hlast hy'
    refine ⟨r, ?_, hr'⟩
    rw [insert_below (by simpa using hop) hleaf hfull hyields, hr]
    rfl
  | true =>
    rw [hroot, hy'] at hyields
    refine ⟨mk .root [y], ?_, by simp [lacks?, hzero], rfl⟩
    rw [insert_take (by simpa using hop) hleaf hfull hyields]
    have hgroup : group.operator.isLeaf = false ∧ group.operator.isRoot = true := ⟨rfl, rfl⟩
    have hop' : op.isRoot = false := isRoot_of_yieldsTo_root hop
    have hnil : group.operands = [] := rfl
    have happend : group.append y = mk .root [y] := rfl
    simp [takeLast, hgroup, hroot, hop', hnil, happend]

/-- A complete tree that ends in a literal takes an empty group. -/
theorem insert_emptyGroup (hy : Shaped y) : y.lacks? = some 0 → y.meetsGroup = false →
    y.operator.isLeaf = false →
      ∃ r, insert group false y = .ok r ∧ r.lacks? = some 0 ∧ r.meetsGroup = true := by
  induction hy with
  | number x => exact fun _ _ h => absurd h nofun
  | emptyGroup | group hy => exact fun _ h => absurd h nofun
  | sign | operation => exact fun h => absurd h (by simp [lacks?])
  | left => exact fun h => absurd (lacks?_left_eq_some.mp h).1 (by decide)
  | neg hy ih =>
    intro hzero hends _
    rw [lacks?_neg] at hzero
    rw [meetsGroup_neg] at hends
    obtain ⟨r, hr, hlacks, hmeets⟩ :=
      insert_full_emptyGroup .neg [] hy rfl rfl rfl hzero hends (ih hzero hends)
    exact ⟨_, hr, by rwa [lacks?_neg], by rwa [meetsGroup_neg]⟩
  | @binary c x _ hc _ hy _ ih =>
    intro hzero hends _
    rw [meetsGroup_binary] at hends
    obtain ⟨hx, hzero⟩ := lacks?_binary_eq_some.mp hzero
    obtain ⟨r, hr, hlacks, hmeets⟩ := insert_full_emptyGroup _ [x] hy
      ((Operand.group []).yieldsTo_binary hc) rfl rfl hzero hends (ih hzero hends)
    exact ⟨_, hr, lacks?_binary_eq_some.mpr ⟨hx, hlacks⟩, by rwa [meetsGroup_binary]⟩

/-- A complete tree is not loose. -/
theorem isLoose_of_complete (hy : Shaped y) : y.lacks? = some 0 → y.isLoose = false := by
  induction hy with
  | number x | emptyGroup | group | sign | neg => exact fun _ => rfl
  | operation => exact fun h => absurd h (by simp [lacks?])
  | left => exact fun h => absurd (lacks?_left_eq_some.mp h).1 (by decide)
  | binary _ _ _ _ ih =>
    intro h
    rw [isLoose, ih (lacks?_binary_eq_some.mp h).2, Bool.and_false]

/-! ## Operations behind a tree -/

/-- A sum takes over all that the innermost group holds. -/
theorem yieldsTo_sum (hy : Shaped y) {op : Operator} (hop : op.isSum = true) :
    y.operator.yieldsTo op = false := by
  rcases Operator.eq_of_isSum hop with rfl | rfl <;> cases hy with
  | number x | emptyGroup | group | sign | neg => rfl
  | operation hc | left hc | binary hc => rcases hc with rfl | rfl | rfl | rfl <;> rfl

/-- A product goes below sums only. -/
theorem yieldsTo_product (hy : Shaped y) {op : Operator} (hop : op.isProduct = true) :
    y.operator.yieldsTo op = y.operator.isSum := by
  rcases Operator.eq_of_isProduct hop with rfl | rfl <;> cases hy with
  | number x | emptyGroup | group | sign | neg => rfl
  | operation hc | left hc | binary hc => rcases hc with rfl | rfl | rfl | rfl <;> rfl

/-- What is lacking behind an operation that has taken a tree over. -/
theorem lacks?_left {c : Binary} {k : Nat} (hk : y.lacks? = some k) :
    (mk (.binary c) [y]).lacks? = if k = 0 then some 1 else none := by
  cases k <;> simp [lacks?, hk]

/-- A product goes into the last operand of a sum that is not loose, and takes that over. -/
theorem insert_product {c : Binary} (hc : (Operator.binary c).isProduct = true) (hy : Shaped y) :
    ∀ {k : Nat}, y.lacks? = some k → y.isLoose = false → y.operator.isSum = true →
      ∃ r, insert (mk (.binary c) []) false y = .ok r ∧
        r.lacks? = (if k = 0 then some 1 else none) ∧ r.isLoose = false := by
  induction hy with
  | number x | emptyGroup | group | sign | neg => exact fun _ _ h => absurd h nofun
  | operation | left => exact fun _ hloose hsum => absurd (hloose.symm.trans hsum) nofun
  | @binary d x y hd _ hy _ ih =>
    intro k hk hloose hsum
    obtain ⟨hx, hk⟩ := lacks?_binary_eq_some.mp hk
    have hloose' : y.isLoose = false := by
      have hsum' : (Operator.binary d).isSum = true := hsum
      simpa [isLoose, hsum'] using hloose
    have hyields := yieldsTo_of_isSum hsum hc
    have hbelow := yieldsTo_product hy hc
    cases hsum' : y.operator.isSum with
    | true =>
      rw [hsum'] at hbelow
      obtain ⟨r, hr, hlacks, htight⟩ := ih hk hloose' hsum'
      refine ⟨mk (.binary d) [r, x], ?_, ?_, ?_⟩
      · rw [insert_below (by simpa using hyields) rfl rfl hbelow, hr]
        rfl
      · rw [lacks?, if_pos hx, hlacks]
      · rw [isLoose, htight, Bool.and_false]
    | false =>
      rw [hsum'] at hbelow
      refine ⟨mk (.binary d) [mk (.binary c) [y], x], ?_, ?_, ?_⟩
      · rw [insert_take (by simpa using hyields) rfl rfl hbelow]
        rfl
      · rw [lacks?, if_pos hx, lacks?_left hk]
      · rcases Operator.eq_of_isProduct hc with h | h <;>
          rw [isLoose, isLoose, h] <;> exact Bool.and_false _

/-! ## The innermost group -/

theorem insert_root_nil (n : Node) : insert n true (mk .root []) = .ok (mk .root [n]) :=
  insert_hungry (by simp) rfl (by simp [Operator.arity?])

theorem insert_root_below (hyields : y.operator.yieldsTo n.operator = true) :
    insert n true (mk .root [y]) = (insert n false y).map fun y => mk .root [y] :=
  insert_below (by simp) rfl rfl hyields

/-- A node goes into the tree that the innermost group holds. -/
theorem insert_root_filled (hn : New n) (hsum : n.operator.isSum = false) (hy : Shaped y) {k : Nat}
    (hk : y.lacks? = some (k + 1)) (hloose : n.operator.isProduct = true → y.isLoose = true) :
    ∃ r, insert n true (mk .root [y]) = .ok (mk .root [r]) ∧ Filled n y r := by
  have hyields := hn.yieldsTo hsum (hy.operator_of_lacks hk) fun h => isSum_of_isLoose (hloose h)
  obtain ⟨r, hr, hfilled⟩ := insert_filled hn hsum hy hk hloose
  exact ⟨r, by rw [insert_root_below hyields, hr]; rfl, hfilled⟩

/-- What the innermost group holds refuses an operand if it is complete, unless the operand is an
empty group and the tree ends in a literal. -/
theorem insert_root_complete (hn : Operand n) (hy : Shaped y) (hzero : y.lacks? = some 0)
    (hends : n = group → y.ending ≠ .literal) : ∃ e, insert n true (mk .root [y]) = .error e := by
  cases hyields : y.operator.yieldsTo n.operator with
  | true =>
    have halone := hn.yieldsTo hy
    rw [hyields, eq_comm, Bool.not_eq_true'] at halone
    obtain ⟨e, he⟩ := insert_complete hn hy hzero fun hgroup => by
      have hends := hends hgroup
      by_contra hmeets
      exact hends (by simp [ending, halone, hmeets])
    exact ⟨e, by rw [insert_root_below hyields, he]; rfl⟩
  | false =>
    rw [insert_take (by simp) rfl rfl hyields]
    cases hn <;> exact ⟨_, rfl⟩

/-- It takes an empty group if it ends in a literal. -/
theorem insert_root_emptyGroup (hy : Shaped y) (hzero : y.lacks? = some 0)
    (hends : y.ending = .literal) : ∃ r, insert group true (mk .root [y]) = .ok (mk .root [r]) ∧
      r.lacks? = some 0 ∧ r.ending = .group := by
  obtain ⟨halone, hmeets⟩ := ending_eq_literal.mp hends
  have hyields : y.operator.yieldsTo group.operator = _ := (Operand.group []).yieldsTo hy
  rw [halone] at hyields
  obtain ⟨r, hr, hzero', hmeets'⟩ := insert_emptyGroup hy hzero hmeets
    (Bool.or_eq_false_iff.mp halone).2
  refine ⟨r, ?_, hzero', ?_⟩
  · rw [insert_root_below hyields, hr]
    rfl
  · rw [ending, insert_operator hr, halone, hmeets']
    rfl

/-- An operation that comes behind a tree takes it over, or the last operand of a sum if the
operation is a product.  Then one operand is lacking, if none was lacking before. -/
theorem insert_root_operation {c : Binary} (hy : Shaped y) {k : Nat} (hk : y.lacks? = some k)
    (hc : (Operator.binary c).isSum = true ∨
      (Operator.binary c).isProduct = true ∧ y.isLoose = false) :
    ∃ r, insert (mk (.binary c) []) true (mk .root [y]) = .ok (mk .root [r]) ∧
      r.lacks? = (if k = 0 then some 1 else none) ∧ r.isLoose = (Operator.binary c).isSum := by
  have htake (hyields : y.operator.yieldsTo (.binary c) = false) :
      insert (mk (.binary c) []) true (mk .root [y]) = .ok (mk .root [mk (.binary c) [y]]) :=
    insert_take (by simp) rfl rfl hyields
  obtain hsum | ⟨hproduct, hloose⟩ := hc
  · exact ⟨_, htake (yieldsTo_sum hy hsum), lacks?_left hk, rfl⟩
  · have hyields := yieldsTo_product hy hproduct
    have hsum : (Operator.binary c).isSum = false := by
      rcases Operator.eq_of_isProduct hproduct with h | h <;> rw [h] <;> rfl
    cases hsum' : y.operator.isSum with
    | true =>
      rw [hsum'] at hyields
      obtain ⟨r, hr, hlacks, htight⟩ := insert_product hproduct hy hk hloose hsum'
      exact ⟨r, by rw [insert_root_below hyields, hr]; rfl, hlacks, by rw [htight, hsum]⟩
    | false =>
      rw [hsum'] at hyields
      exact ⟨_, htake hyields, lacks?_left hk, rfl⟩

end Node

end Scorecard.Formula
