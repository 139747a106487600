import Mathlib.Logic.Function.Iterate
import Scorecard.Formula.Lexeme
import Scorecard.Proofs.Formula.Cutting

/-!
# Arithmetic expressions and their texts

`Expression` is the tree of an arithmetic expression, and `Written` the grammar of its texts: a
minus sign in front binds tightest, then come `*` and `/`, then `+` and `-`, operations of one rank
group from the left, and spaces may stand between any two symbols.  Where a word ends depends on
what comes after it, so `Written` relates a text and the text behind it.

A text is a way of writing one tree at most (`Expression.unique_of_isText`).  The proof is a reader
that takes the symbols of a text one by one: `Reader.step` is what one symbol does, and
`Written.reads` says that the symbols of a tree take the reader from where the tree is expected to
where it is held.
-/

namespace Scorecard.Formula

open Number (Numeral)

/-- The tree of an arithmetic expression.  Parentheses are kept. -/
inductive Expression where
  | literal (n : Numeral)
  | name (word : List Char)
  | negate (x : Expression)
  | binary (operation : Binary) (left right : Expression)
  | group (x : Expression)
  deriving DecidableEq, Repr

namespace Expression

/-- The names in an expression, from left to right. -/
def names : Expression → List (List Char)
  | literal _ => []
  | name word => [word]
  | negate x | group x => x.names
  | binary _ left right => left.names ++ right.names

/-- The expression with an expression in place of each name. -/
def fill (value : List Char → Expression) : Expression → Expression
  | literal n => literal n
  | name word => value word
  | negate x => negate (x.fill value)
  | binary operation left right => binary operation (left.fill value) (right.fill value)
  | group x => group (x.fill value)

end Expression

/-- How tightly the parts of an expression are bound. -/
inductive Level where
  | operand
  | product
  | sum

/-- The operations that bind more tightly. -/
def productMark? : Char → Option Binary
  | '*' => some .mul
  | '/' => some .div
  | _ => none

/-- The operations that bind less tightly. -/
def sumMark? : Char → Option Binary
  | '+' => some .add
  | '-' => some .sub
  | _ => none

/-- The text is spaces only. -/
def IsSpaces (s : List Char) : Prop := ∀ c ∈ s, c = ' '

/-- `Written level x cs after`: the text `cs`, in front of `after`, is a way of writing `x` that
binds at least as tightly as `level`.  A name is a run that is cut out as a word where it stands:
`2e` is a name in front of `-x` but not in front of `-1`, where `2e-1` is a literal. -/
inductive Written : Level → Expression → List Char → List Char → Prop
  | literal {n : Numeral} {after : List Char} (hn : n.IsLiteral) :
      Written .operand (.literal n) n.text after
  | name {c : Char} {cs after : List Char} (h : next c (cs ++ after) = (.word (c :: cs), after)) :
      Written .operand (.name (c :: cs)) (c :: cs) after
  | negate {x : Expression} {s cs after : List Char} (hs : IsSpaces s)
      (hx : Written .operand x cs after) : Written .operand (.negate x) ('-' :: (s ++ cs)) after
  | group {x : Expression} {s t cs after : List Char} (hs : IsSpaces s) (ht : IsSpaces t)
      (hx : Written .sum x cs (t ++ ')' :: after)) :
      Written .operand (.group x) ('(' :: (s ++ (cs ++ (t ++ [')'])))) after
  | ofOperand {x : Expression} {cs after : List Char} (hx : Written .operand x cs after) :
      Written .product x cs after
  | product {x y : Expression} {mark : Char} {operation : Binary} {s t cs ds after : List Char}
      (hs : IsSpaces s) (ht : IsSpaces t) (hmark : productMark? mark = some operation)
      (hx : Written .product x cs (s ++ mark :: (t ++ (ds ++ after))))
      (hy : Written .operand y ds after) :
      Written .product (.binary operation x y) (cs ++ (s ++ mark :: (t ++ ds))) after
  | ofProduct {x : Expression} {cs after : List Char} (hx : Written .product x cs after) :
      Written .sum x cs after
  | sum {x y : Expression} {mark : Char} {operation : Binary} {s t cs ds after : List Char}
      (hs : IsSpaces s) (ht : IsSpaces t) (hmark : sumMark? mark = some operation)
      (hx : Written .sum x cs (s ++ mark :: (t ++ (ds ++ after))))
      (hy : Written .product y ds after) :
      Written .sum (.binary operation x y) (cs ++ (s ++ mark :: (t ++ ds))) after

/-- The whole text is a way of writing the expression, with spaces at its ends allowed. -/
def Expression.IsText (x : Expression) (text : List Char) : Prop :=
  ∃ s cs t, IsSpaces s ∧ IsSpaces t ∧ Written .sum x cs t ∧ text = s ++ (cs ++ t)

/-! ## Separators between symbols -/

theorem productMark_cases {c : Char} {operation : Binary} (h : productMark? c = some operation) :
    c = '*' ∨ c = '/' := by
  unfold productMark? at h
  split at h <;> simp_all

theorem sumMark_cases {c : Char} {operation : Binary} (h : sumMark? c = some operation) :
    c = '+' ∨ c = '-' := by
  unfold sumMark? at h
  split at h <;> simp_all

theorem separates_productMark {c : Char} {operation : Binary}
    (h : productMark? c = some operation) : separates c = true ∧ c ≠ ' ' := by
  rcases productMark_cases h with rfl | rfl <;> decide

theorem separates_sumMark {c : Char} {operation : Binary}
    (h : sumMark? c = some operation) : separates c = true ∧ c ≠ ' ' := by
  rcases sumMark_cases h with rfl | rfl <;> decide

theorem IsSpaces.separates {s : List Char} (hs : IsSpaces s) : ∀ c ∈ s, separates c = true := by
  intro c hc
  rw [hs c hc]
  decide

theorem IsSpaces.beginsApart {s after : List Char} (hs : IsSpaces s) (h : BeginsApart after) :
    BeginsApart (s ++ after) := by
  cases s with
  | nil => exact h
  | cons c cs => exact (beginsApart_cons c _).mpr (hs.separates c (by simp))

/-- The tokens of a text without the spaces. -/
def symbols (cs : List Char) : List Token := (tokens cs).filter (· ≠ .other ' ')

@[simp] theorem symbols_nil : symbols [] = [] := by simp [symbols]

theorem symbols_spaces {s : List Char} (hs : IsSpaces s) (cs : List Char) :
    symbols (s ++ cs) = symbols cs := by
  rw [symbols, tokens_separators_append hs.separates, List.filter_append]
  have hnone : (s.map Token.other).filter (· ≠ .other ' ') = [] := by
    rw [List.filter_eq_nil_iff]
    intro t ht
    obtain ⟨c, hc, rfl⟩ := List.mem_map.mp ht
    simp [hs c hc]
  rw [hnone]
  rfl

theorem symbols_mark {c : Char} (h : separates c = true) (hne : c ≠ ' ') (cs : List Char) :
    symbols (c :: cs) = .other c :: symbols cs := by
  simp [symbols, tokens_separator h, hne]

theorem symbols_number {n : Numeral} (hn : n.IsLiteral) {after : List Char}
    (h : BeginsApart after) : symbols (n.text ++ after) = .number n :: symbols after := by
  simp [symbols, tokens_number_append hn (endsLiteral_of_beginsApart n h)]

theorem symbols_word {c : Char} {cs after : List Char}
    (h : next c (cs ++ after) = (.word (c :: cs), after)) :
    symbols (c :: cs ++ after) = .word (c :: cs) :: symbols after := by
  simp [symbols, tokens_cons, h]

/-! ## The reader -/

/-- A left operand that is read, and the operation that waits for the right one. -/
abbrev Pending := Option (Expression × Binary)

/-- The right operand joined to the left one. -/
def Pending.finish (pending : Pending) (x : Expression) : Expression :=
  pending.elim x fun (left, operation) => .binary operation left x

/-- What waits for an operand between two parentheses. -/
structure Frame where
  sum : Pending := none
  product : Pending := none
  minuses : Nat := 0

/-- Where the reader is, with the frames of the parentheses around: an operand is expected, or a
product is held that may go on. -/
inductive Reader where
  | expecting (outer : List Frame) (inner : Frame)
  | holding (outer : List Frame) (sum : Pending) (x : Expression)

/-- The reader after an operand. -/
def Frame.finish (f : Frame) (outer : List Frame) (x : Expression) : Reader :=
  .holding outer f.sum (f.product.finish (Expression.negate^[f.minuses] x))

namespace Reader

/-- The reader after one symbol. -/
def step : Reader → Token → Option Reader
  | expecting outer f, .number n => some (f.finish outer (.literal n))
  | expecting outer f, .word w => some (f.finish outer (.name w))
  | expecting outer f, .other '-' => some (expecting outer { f with minuses := f.minuses + 1 })
  | expecting outer f, .other '(' => some (expecting (f :: outer) {})
  | holding (f :: outer) sum x, .other ')' => some (f.finish outer (.group (sum.finish x)))
  | holding outer sum x, .other c =>
      match productMark? c, sumMark? c with
      | some operation, _ => some (expecting outer { sum, product := some (x, operation) })
      | none, some operation => some (expecting outer { sum := some (sum.finish x, operation) })
      | none, none => none
  | _, _ => none

/-- The reader after a row of symbols. -/
def run (r : Reader) (ts : List Token) : Option Reader := ts.foldlM step r

theorem run_cons (r : Reader) (t : Token) (ts : List Token) :
    r.run (t :: ts) = (r.step t).bind (run · ts) := rfl

theorem step_productMark {mark : Char} {operation : Binary}
    (h : productMark? mark = some operation) (outer : List Frame) (sum : Pending) (x : Expression) :
    (holding outer sum x).step (.other mark) =
      some (expecting outer { sum, product := some (x, operation) }) := by
  rcases productMark_cases h with rfl | rfl <;> simp [step, h]

theorem step_sumMark {mark : Char} {operation : Binary}
    (h : sumMark? mark = some operation) (outer : List Frame) (sum : Pending) (x : Expression) :
    (holding outer sum x).step (.other mark) =
      some (expecting outer { sum := some (sum.finish x, operation) }) := by
  rcases sumMark_cases h with rfl | rfl <;> simp [step, h, productMark?]

/-- The expression that a reader holds at the end of a text. -/
def result? : Reader → Option Expression
  | holding [] sum x => some (sum.finish x)
  | _ => none

end Reader

/-- The expression of a text, if the reader gets through. -/
def readExpression (cs : List Char) : Option Expression :=
  ((Reader.expecting [] {}).run (symbols cs)).bind Reader.result?

/-! ## A text is a way of writing one tree -/

/-- The symbols of `cs`, in front of `after`, take the reader past `x`. -/
def Level.Reads (x : Expression) (cs after : List Char) : Level → Prop
  | operand => ∀ outer f,
      (Reader.expecting outer f).run (symbols (cs ++ after)) =
        (f.finish outer x).run (symbols after)
  | product => ∀ outer sum,
      (Reader.expecting outer { sum }).run (symbols (cs ++ after)) =
        (Reader.holding outer sum x).run (symbols after)
  | sum => ∀ outer, ∃ (pending : Pending) (y : Expression), pending.finish y = x ∧
      (Reader.expecting outer {}).run (symbols (cs ++ after)) =
        (Reader.holding outer pending y).run (symbols after)

/-- The reader gets past every expression, whatever waits for it. -/
theorem Written.reads {level : Level} {x : Expression} {cs after : List Char}
    (h : Written level x cs after) (hafter : BeginsApart after) : level.Reads x cs after := by
  induction h with
  | literal hn =>
    intro outer f
    rw [symbols_number hn hafter]
    rfl
  | name hcut =>
    intro outer f
    rw [symbols_word hcut]
    rfl
  | negate hs _ ih =>
    intro outer f
    rw [List.cons_append, List.append_assoc, symbols_mark (by decide) (by decide),
      symbols_spaces hs, Reader.run_cons]
    exact ih hafter outer { f with minuses := f.minuses + 1 }
  | @group x s t cs after hs ht _ ih =>
    intro outer f
    obtain ⟨pending, y, hy, hrun⟩ :=
      ih (ht.beginsApart ((beginsApart_cons _ _).mpr (by decide))) (f :: outer)
    have htext : '(' :: (s ++ (cs ++ (t ++ [')']))) ++ after =
        '(' :: (s ++ (cs ++ (t ++ ')' :: after))) := by simp
    rw [htext, symbols_mark (by decide) (by decide), symbols_spaces hs, Reader.run_cons]
    refine hrun.trans ?_
    rw [symbols_spaces ht, symbols_mark (by decide) (by decide), Reader.run_cons, ← hy]
    rfl
  | ofOperand _ ih => exact fun outer sum => ih hafter outer { sum }
  | @product x y mark operation s t cs ds after hs ht hmark _ _ ihx ihy =>
    intro outer sum
    have hx := ihx (hs.beginsApart ((beginsApart_cons _ _).mpr (separates_productMark hmark).1))
    have htext : cs ++ (s ++ mark :: (t ++ ds)) ++ after =
        cs ++ (s ++ mark :: (t ++ (ds ++ after))) := by simp
    rw [htext, hx outer sum, symbols_spaces hs,
      symbols_mark (separates_productMark hmark).1 (separates_productMark hmark).2,
      symbols_spaces ht, Reader.run_cons, Reader.step_productMark hmark]
    exact ihy hafter outer { sum, product := some (x, operation) }
  | ofProduct _ ih => exact fun outer => ⟨none, _, rfl, ih hafter outer none⟩
  | @sum x y mark operation s t cs ds after hs ht hmark _ _ ihx ihy =>
    intro outer
    obtain ⟨pending, z, hz, hrun⟩ :=
      ihx (hs.beginsApart ((beginsApart_cons _ _).mpr (separates_sumMark hmark).1)) outer
    have htext : cs ++ (s ++ mark :: (t ++ ds)) ++ after =
        cs ++ (s ++ mark :: (t ++ (ds ++ after))) := by simp
    refine ⟨some (x, operation), y, rfl, ?_⟩
    rw [htext, hrun, symbols_spaces hs,
      symbols_mark (separates_sumMark hmark).1 (separates_sumMark hmark).2, symbols_spaces ht,
      Reader.run_cons, Reader.step_sumMark hmark, hz]
    exact ihy hafter outer (some (x, operation))

/-- The reader finds the expression that a text is a way of writing. -/
theorem readExpression_of_isText {x : Expression} {text : List Char} (h : x.IsText text) :
    readExpression text = some x := by
  obtain ⟨s, cs, t, hs, ht, hx, rfl⟩ := h
  have hend : symbols t = [] := by simpa using symbols_spaces ht []
  obtain ⟨pending, y, hy, hrun⟩ := hx.reads (by simpa using ht.beginsApart beginsApart_nil) []
  rw [readExpression, symbols_spaces hs, hrun, hend, ← hy]
  rfl

/-- A text is a way of writing one expression at most. -/
theorem Expression.unique_of_isText {x y : Expression} {text : List Char} (hx : x.IsText text)
    (hy : y.IsText text) : x = y := by
  have h := readExpression_of_isText hx
  rw [readExpression_of_isText hy] at h
  exact (Option.some.inj h).symm

end Scorecard.Formula
