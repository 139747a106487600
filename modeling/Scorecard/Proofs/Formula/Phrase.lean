import Mathlib.Data.List.Basic

/-!
# The grammar that the evaluator accepts

A formula is a sum of products of operands, and an operand is a literal, a formula in parentheses,
or a minus sign before an operand.  The evaluator accepts more than that: `+`, `*` and `/` may also
stand before their two operands, where an operand is expected and what is open allows it, and an
empty pair of parentheses may follow a literal that is not the first operand.  `Phrase` has both
grammars: the strict one, and the one with these additions.

* `Phrase.strict`: where no operation other than a minus sign stands before its operands and no
  parentheses are empty, the two grammars agree.
* `Phase` is what is known of an open group while its symbols are read from left to right, and
  `advance` is what one symbol does to the phases of all open groups.
* `Phrase.reads` takes the phases through a phrase, and `Spellings.advanceAll` says what the phases
  have read, so that the formulas that end where an expression is held are the phrases
  (`phrase_iff_advance`).
-/

namespace Scorecard.Formula

/-- A symbol of an arithmetic formula.  The signs `*` and `/` are one symbol. -/
inductive Symbol where
  | literal
  | opening
  | closing
  | plus
  | minus
  | times
  deriving DecidableEq, Repr

/-- A part of a formula: an operand, a product or a sum.  An operand or a product is signed if it
may begin with a minus sign, and called if an empty pair of parentheses may follow its literals. -/
inductive Part where
  | operand (signed called : Bool)
  | product (signed called : Bool)
  | sum

/-- The symbols of a part of a formula.  The flag says whether the additions to the strict grammar
are allowed: an empty pair of parentheses behind a literal, and an operation in front of its
operands. -/
inductive Phrase (lenient : Bool) : Part → List Symbol → Prop where
  | literal {signed called : Bool} : Phrase lenient (.operand signed called) [.literal]
  | group {signed called : Bool} {u : List Symbol} (hu : Phrase lenient .sum u) :
      Phrase lenient (.operand signed called) (.opening :: (u ++ [.closing]))
  | negate {called : Bool} {u : List Symbol} (hu : Phrase lenient (.operand true true) u) :
      Phrase lenient (.operand true called) (.minus :: u)
  | call (hlenient : lenient = true) {signed : Bool} :
      Phrase lenient (.operand signed true) [.literal, .opening, .closing]
  | ofOperand {signed called : Bool} {u : List Symbol}
      (hu : Phrase lenient (.operand signed called) u) : Phrase lenient (.product signed called) u
  | product {signed called : Bool} {u v : List Symbol}
      (hu : Phrase lenient (.product signed called) u)
      (hv : Phrase lenient (.operand true true) v) :
      Phrase lenient (.product signed called) (u ++ .times :: v)
  | timesFirst (hlenient : lenient = true) {signed called : Bool} {u v : List Symbol}
      (hu : Phrase lenient (.operand false false) u)
      (hv : Phrase lenient (.operand false true) v) :
      Phrase lenient (.product signed called) (.times :: (u ++ v))
  | ofProduct {u : List Symbol} (hu : Phrase lenient (.product true false) u) :
      Phrase lenient .sum u
  | sum {sign : Symbol} {u v : List Symbol} (hsign : sign = .plus ∨ sign = .minus)
      (hu : Phrase lenient .sum u) (hv : Phrase lenient (.product true true) v) :
      Phrase lenient .sum (u ++ sign :: v)
  | plusFirst (hlenient : lenient = true) {u v : List Symbol}
      (hu : Phrase lenient (.operand false false) u)
      (hv : Phrase lenient (.product false true) v) : Phrase lenient .sum (.plus :: (u ++ v))

/-! ## The strict grammar -/

/-- Every strict phrase is a lenient one. -/
theorem Phrase.lenient {part : Part} {u : List Symbol} (h : Phrase false part u) :
    Phrase true part u := by
  induction h with
  | literal => exact .literal
  | group _ ih => exact .group ih
  | negate _ ih => exact .negate ih
  | call hlenient => exact absurd hlenient (by decide)
  | ofOperand _ ih => exact .ofOperand ih
  | product _ _ ihu ihv => exact .product ihu ihv
  | timesFirst hlenient => exact absurd hlenient (by decide)
  | ofProduct _ ih => exact .ofProduct ih
  | sum hsign _ _ ihu ihv => exact .sum hsign ihu ihv
  | plusFirst hlenient => exact absurd hlenient (by decide)

/-- Whether an expression may end with the symbol. -/
def Symbol.endsOperand : Symbol → Bool
  | literal | closing => true
  | _ => false

/-- Whether the symbol has to follow an operand: it is a closing parenthesis or an operation other
than a minus sign. -/
def Symbol.needsOperand : Symbol → Bool
  | closing | plus | times => true
  | _ => false

/-- Every symbol that has to follow an operand does.  The flag says whether an operand stands before
the symbols. -/
def Plain : Bool → List Symbol → Prop
  | _, [] => True
  | held, s :: ss => (s.needsOperand = true → held = true) ∧ Plain s.endsOperand ss

instance Plain.decidable : ∀ (held : Bool) (ss : List Symbol), Decidable (Plain held ss)
  | _, [] => inferInstanceAs (Decidable True)
  | _, s :: ss =>
    have := Plain.decidable s.endsOperand ss
    inferInstanceAs (Decidable (_ ∧ _))

theorem Plain.of_append_left {u v : List Symbol} : ∀ {held : Bool}, Plain held (u ++ v) →
    Plain held u := by
  induction u with
  | nil => exact fun _ => trivial
  | cons s u ih => exact fun h => ⟨h.1, ih h.2⟩

theorem Plain.of_append_right {u v : List Symbol} : ∀ {held : Bool}, Plain held (u ++ v) →
    ∃ held', Plain held' v := by
  induction u with
  | nil => exact fun h => ⟨_, h⟩
  | cons s u ih => exact fun h => ih h.2

/-- A lenient phrase that makes no use of the additions is a strict one. -/
theorem Phrase.strict {part : Part} {u : List Symbol} (h : Phrase true part u)
    (hplain : Plain false u) : Phrase false part u := by
  induction h with
  | literal => exact .literal
  | group _ ih => exact .group (ih hplain.2.of_append_left)
  | negate _ ih => exact .negate (ih hplain.2)
  | call => exact absurd (hplain.2.2.1 rfl) (by decide)
  | ofOperand _ ih => exact .ofOperand (ih hplain)
  | product _ _ ihu ihv =>
    obtain ⟨held, hrest⟩ := hplain.of_append_right
    exact .product (ihu hplain.of_append_left) (ihv hrest.2)
  | timesFirst => exact absurd (hplain.1 rfl) (by decide)
  | ofProduct _ ih => exact .ofProduct (ih hplain)
  | sum hsign _ _ ihu ihv =>
    obtain ⟨held, hrest⟩ := hplain.of_append_right
    refine .sum hsign (ihu hplain.of_append_left) (ihv ?_)
    rcases hsign with rfl | rfl <;> exact hrest.2
  | plusFirst => exact absurd (hplain.1 rfl) (by decide)

/-- Whether the symbol begins an expression, other than a minus sign. -/
def Symbol.beginsOperand : Symbol → Bool
  | literal | opening => true
  | _ => false

/-- Operands and operations alternate: no operand stands behind another, and every symbol that has
to follow an operand does. -/
def Alternates : Bool → List Symbol → Prop
  | _, [] => True
  | held, s :: ss => (s.needsOperand = true → held = true) ∧
      (s.beginsOperand = true → held = false) ∧ Alternates s.endsOperand ss

theorem Alternates.plain {u : List Symbol} : ∀ {held : Bool}, Alternates held u → Plain held u := by
  induction u with
  | nil => exact fun _ => trivial
  | cons s u ih => exact fun h => ⟨h.1, ih h.2.2⟩

/-- In a strict phrase operands and operations alternate. -/
theorem Phrase.alternates_append {part : Part} {u : List Symbol} (h : Phrase false part u) :
    ∀ {v : List Symbol}, Alternates true v → Alternates false (u ++ v) := by
  induction h with
  | literal => exact fun hv => ⟨nofun, fun _ => rfl, hv⟩
  | group _ ih =>
    intro v hv
    have hclosed : Alternates true (.closing :: v) := ⟨fun _ => rfl, nofun, hv⟩
    rw [List.cons_append, List.append_assoc]
    exact ⟨nofun, fun _ => rfl, ih hclosed⟩
  | negate _ ih => exact fun hv => ⟨nofun, nofun, ih hv⟩
  | call hlenient => exact absurd hlenient (by decide)
  | ofOperand _ ih | ofProduct _ ih => exact ih
  | product _ _ ihu ihv =>
    intro w hw
    rw [List.append_assoc]
    exact ihu ⟨fun _ => rfl, nofun, ihv hw⟩
  | timesFirst hlenient => exact absurd hlenient (by decide)
  | sum hsign _ _ ihu ihv =>
    intro w hw
    rw [List.append_assoc]
    rcases hsign with rfl | rfl <;> exact ihu ⟨fun _ => rfl, nofun, ihv hw⟩
  | plusFirst hlenient => exact absurd hlenient (by decide)

theorem Phrase.alternates {u : List Symbol} (h : Phrase false .sum u) : Alternates false u := by
  simpa using h.alternates_append (v := []) trivial

/-! ## Phases -/

/-- How an expression that is held ends: it is one operand alone, or its last operand is a literal
or a group. -/
inductive Ending where
  | alone
  | literal
  | group
  deriving DecidableEq, Repr

/-- What is known of an open group. -/
inductive Phase where
  /-- Nothing has been read. -/
  | start
  /-- One operand is missing.  It is tight if no `*` may come in front of it; `after` says whether
  an operand was read last, so that a minus sign subtracts. -/
  | lacksOne (tight after : Bool)
  /-- Two operands are missing. -/
  | lacksTwo (tight : Bool)
  /-- An expression is held. -/
  | holds (ending : Ending)
  deriving DecidableEq, Repr

namespace Phase

/-- The phase after an operand that is a literal or a group. -/
def operand (ending : Ending) : Phase → Option Phase
  | start => some (holds .alone)
  | lacksOne _ _ => some (holds ending)
  | lacksTwo tight => some (lacksOne tight true)
  | holds _ => none

/-- The phase after a symbol that is no parenthesis. -/
def step : Phase → Symbol → Option Phase
  | p, .literal => p.operand .literal
  | start, .minus | lacksOne _ false, .minus => some (lacksOne true false)
  | start, .plus => some (lacksTwo false)
  | start, .times | lacksOne false _, .times => some (lacksTwo true)
  | holds _, .plus | holds _, .minus => some (lacksOne false false)
  | holds _, .times => some (lacksOne true false)
  | _, _ => none

/-- The phase of a group once the group inside it, which is in the first phase, has been closed. -/
def close : Phase → Phase → Option Phase
  | holds _, outer => outer.operand .group
  | start, holds .literal => some (holds .group)
  | _, _ => none

end Phase

/-- The phases of all open groups, the innermost first, after a symbol. -/
def advance : List Phase → Symbol → Option (List Phase)
  | ps, .opening => some (.start :: ps)
  | p :: q :: ps, .closing => (p.close q).map (· :: ps)
  | p :: ps, s => (p.step s).map (· :: ps)
  | [], _ => none

theorem Phase.step_literal (p : Phase) : p.step .literal = p.operand .literal := by
  cases p <;> rfl

/-- A symbol that is no parenthesis is read in the innermost group. -/
theorem advance_cons {s : Symbol} (hopening : s ≠ .opening) (hclosing : s ≠ .closing) (p : Phase)
    (ps : List Phase) : advance (p :: ps) s = (p.step s).map (· :: ps) := by
  cases s with
  | opening => exact absurd rfl hopening
  | closing => exact absurd rfl hclosing
  | literal | plus | minus | times => cases ps <;> rfl

/-- The phases after a row of symbols. -/
def advanceAll (ps : List Phase) (ss : List Symbol) : Option (List Phase) := ss.foldlM advance ps

@[simp] theorem advanceAll_nil (ps : List Phase) : advanceAll ps [] = some ps := rfl

theorem advanceAll_cons (ps : List Phase) (s : Symbol) (ss : List Symbol) :
    advanceAll ps (s :: ss) = (advance ps s).bind (advanceAll · ss) := rfl

theorem advanceAll_append (ps : List Phase) (u v : List Symbol) :
    advanceAll ps (u ++ v) = (advanceAll ps u).bind (advanceAll · v) :=
  List.foldlM_append

/-! ## From a phrase to its phases -/

/-- The phase takes an operand of this kind. -/
def Phase.Admits (signed called : Bool) : Phase → Prop
  | start => called = false
  | lacksOne _ after => signed = true → after = false
  | lacksTwo _ => signed = false ∧ called = false
  | holds _ => False

/-- The second phase is the first one with one more operand. -/
inductive Phase.Takes : Phase → Phase → Prop where
  | start (ending : Ending) : Takes start (holds ending)
  | one {tight after : Bool} (ending : Ending) : Takes (lacksOne tight after) (holds ending)
  | two {tight : Bool} : Takes (lacksTwo tight) (lacksOne tight true)

theorem Phase.Admits.operand {signed called : Bool} {p : Phase} (h : p.Admits signed called)
    (ending : Ending) : ∃ q, p.operand ending = some q ∧ p.Takes q := by
  cases p with
  | start => exact ⟨_, rfl, .start _⟩
  | lacksOne tight after => exact ⟨_, rfl, .one _⟩
  | lacksTwo tight => exact ⟨_, rfl, .two⟩
  | holds _ => exact absurd h id

/-- What reading a part of a formula does to the innermost phase. -/
def Part.Reads (u : List Symbol) : Part → Prop
  | operand signed called => ∀ (p : Phase) (ps : List Phase), p.Admits signed called →
      ∃ q, advanceAll (p :: ps) u = some (q :: ps) ∧ p.Takes q
  | product signed called => ∀ (p : Phase) (ps : List Phase), p.Admits signed called →
      (p = .start ∨ ∃ after, p = .lacksOne false after) →
        ∃ ending, advanceAll (p :: ps) u = some (.holds ending :: ps)
  | sum => ∀ ps : List Phase, ∃ ending, advanceAll (.start :: ps) u = some (.holds ending :: ps)

/-- What is read behind an operation that lacks one operand. -/
theorem Phase.Takes.holds {tight after : Bool} {q : Phase} (h : (lacksOne tight after).Takes q) :
    ∃ ending, q = holds ending := by
  cases h with
  | one ending => exact ⟨ending, rfl⟩

/-- Reading a phrase takes the phases through it. -/
theorem Phrase.reads {part : Part} {u : List Symbol} (h : Phrase true part u) : part.Reads u := by
  induction h with
  | literal =>
    intro p ps hp
    obtain ⟨q, hq, htakes⟩ := hp.operand .literal
    have hstep : advance (p :: ps) .literal = some (q :: ps) := by
      rw [advance_cons (by decide) (by decide), Phase.step_literal, hq]
      rfl
    exact ⟨q, by simp [advanceAll_cons, hstep], htakes⟩
  | @group signed called u _ ih =>
    intro p ps hp
    obtain ⟨ending, hread⟩ := ih (p :: ps)
    obtain ⟨q, hq, htakes⟩ := hp.operand .group
    have hclose : (Phase.holds ending).close p = some q := hq
    exact ⟨q, by simp [advanceAll_cons, advanceAll_append, advance, hread, hclose], htakes⟩
  | @negate called u _ ih =>
    intro p ps hp
    have hstep : p.step .minus = some (.lacksOne true false) := by
      cases p with
      | start => rfl
      | lacksOne tight after =>
        obtain rfl : after = false := hp rfl
        rfl
      | lacksTwo tight => exact absurd hp.1 (by decide)
      | holds ending => exact absurd hp id
    obtain ⟨q, hread, htakes⟩ := ih (.lacksOne true false) ps fun _ => rfl
    obtain ⟨ending, rfl⟩ := htakes.holds
    refine ⟨.holds ending, by simp [advanceAll_cons, advance, hstep, hread], ?_⟩
    cases p with
    | start => exact .start ending
    | lacksOne tight after => exact .one ending
    | lacksTwo tight => exact absurd hp.1 (by decide)
    | holds ending => exact absurd hp id
  | call =>
    intro p ps hp
    cases p with
    | start => exact absurd hp (by simp [Phase.Admits])
    | lacksOne tight after => exact ⟨.holds .group, rfl, .one .group⟩
    | lacksTwo tight => exact absurd hp.2 (by decide)
    | holds ending => exact absurd hp id
  | ofOperand _ ih =>
    intro p ps hp hlow
    obtain ⟨q, hread, htakes⟩ := ih p ps hp
    rcases hlow with rfl | ⟨after, rfl⟩ <;> cases htakes <;> exact ⟨_, hread⟩
  | product _ _ ihu ihv =>
    intro p ps hp hlow
    obtain ⟨ending, hread⟩ := ihu p ps hp hlow
    obtain ⟨q, hread', htakes⟩ := ihv (.lacksOne true false) ps fun _ => rfl
    obtain ⟨ending', rfl⟩ := htakes.holds
    have hstep : advance (.holds ending :: ps) .times = some (.lacksOne true false :: ps) := rfl
    exact ⟨ending', by simp [advanceAll_append, advanceAll_cons, hread, hstep, hread']⟩
  | timesFirst _ _ _ ihu ihv =>
    intro p ps hp hlow
    have hstep : advance (p :: ps) .times = some (.lacksTwo true :: ps) := by
      rcases hlow with rfl | ⟨after, rfl⟩ <;> rfl
    obtain ⟨q, hread, htakes⟩ := ihu (.lacksTwo true) ps ⟨rfl, rfl⟩
    cases htakes
    obtain ⟨q, hread', htakes⟩ := ihv (.lacksOne true true) ps (by simp [Phase.Admits])
    obtain ⟨ending, rfl⟩ := htakes.holds
    exact ⟨ending, by simp [advanceAll_append, advanceAll_cons, hread, hstep, hread']⟩
  | ofProduct _ ih => exact fun ps => ih .start ps rfl (.inl rfl)
  | @sum sign u v hsign _ _ ihu ihv =>
    intro ps
    obtain ⟨ending, hread⟩ := ihu ps
    have hstep : advance (.holds ending :: ps) sign = some (.lacksOne false false :: ps) := by
      rcases hsign with rfl | rfl <;> rfl
    obtain ⟨ending', hread'⟩ := ihv (.lacksOne false false) ps (fun _ => rfl) (.inr ⟨false, rfl⟩)
    exact ⟨ending', by simp [advanceAll_append, advanceAll_cons, hread, hstep, hread']⟩
  | plusFirst _ _ _ ihu ihv =>
    intro ps
    have hstep : advance (.start :: ps) .plus = some (.lacksTwo false :: ps) := rfl
    obtain ⟨q, hread, htakes⟩ := ihu (.lacksTwo false) ps ⟨rfl, rfl⟩
    cases htakes
    obtain ⟨ending, hread'⟩ := ihv (.lacksOne false true) ps (by simp [Phase.Admits])
      (.inr ⟨true, rfl⟩)
    exact ⟨ending, by simp [advanceAll_append, advanceAll_cons, hread, hstep, hread']⟩

/-! ## From phases to the phrase -/

/-- What the symbols that have been read in a group lack of a sum. -/
def Phase.Spells (w : List Symbol) : Phase → Prop
  | start => w = []
  | lacksOne tight after => ∀ v,
      Phrase true (if tight then .operand (!after) true else .product (!after) true) v →
        Phrase true .sum (w ++ v)
  | lacksTwo tight => ∀ u, Phrase true (.operand false false) u → ∀ v,
      Phrase true (if tight then .operand false true else .product false true) v →
        Phrase true .sum (w ++ (u ++ v))
  | holds ending => Phrase true .sum w ∧
      (ending = .literal → Phrase true .sum (w ++ [.opening, .closing]))

/-- A product may go on behind a sum. -/
theorem Phrase.sum_times {w v : List Symbol} (hw : Phrase true .sum w)
    (hv : Phrase true (.operand true true) v) : Phrase true .sum (w ++ .times :: v) := by
  cases hw with
  | ofProduct hu => exact .ofProduct (.product hu hv)
  | sum hsign hu hu' => simpa using Phrase.sum hsign hu (.product hu' hv)
  | plusFirst hlenient hu hu' => simpa using Phrase.plusFirst hlenient hu (.product hu' hv)

theorem Phrase.ofTight {signed called tight : Bool} {u : List Symbol}
    (hu : Phrase true (.operand signed called) u) :
    Phrase true (if tight then .operand signed called else .product signed called) u := by
  cases tight with
  | false => exact .ofOperand hu
  | true => exact hu

namespace Phase

variable {p q : Phase} {w : List Symbol}

/-- A literal or a group is read. -/
theorem Spells.operand {ending : Ending} {u : List Symbol} (hw : p.Spells w)
    (hu : ∀ signed called, Phrase true (.operand signed called) u)
    (hcall : ending = .literal →
      ∀ signed, Phrase true (.operand signed true) (u ++ [.opening, .closing]))
    (h : p.operand ending = some q) : q.Spells (w ++ u) := by
  cases p with
  | start =>
    obtain rfl := Option.some.inj h
    obtain rfl : w = [] := hw
    exact ⟨.ofProduct (.ofOperand (hu true false)), nofun⟩
  | lacksOne tight after =>
    obtain rfl := Option.some.inj h
    refine ⟨hw u (hu _ _).ofTight, fun hending => ?_⟩
    simpa using hw _ (hcall hending _).ofTight
  | lacksTwo tight =>
    obtain rfl := Option.some.inj h
    intro v hv
    simpa using hw u (hu false false) v hv
  | holds ending => cases h

/-- A symbol that is no parenthesis is read. -/
theorem Spells.step {s : Symbol} (hw : p.Spells w) (h : p.step s = some q) :
    q.Spells (w ++ [s]) := by
  cases s with
  | literal =>
    rw [step_literal] at h
    exact hw.operand (fun _ _ => .literal) (fun _ _ => .call rfl) h
  | opening | closing => cases p <;> cases h
  | plus =>
    cases p with
    | start =>
      obtain rfl := Option.some.inj h
      obtain rfl : w = [] := hw
      exact fun u hu v hv => Phrase.plusFirst (u := u) rfl hu hv
    | holds ending =>
      obtain rfl := Option.some.inj h
      intro v hv
      simpa using Phrase.sum (.inl rfl) hw.1 hv
    | lacksOne tight after | lacksTwo tight => cases h
  | minus =>
    cases p with
    | start =>
      obtain rfl := Option.some.inj h
      obtain rfl : w = [] := hw
      exact fun v hv => .ofProduct (.ofOperand (.negate hv))
    | lacksOne tight after =>
      cases after with
      | true => cases h
      | false =>
        obtain rfl := Option.some.inj h
        intro v hv
        simpa using hw (.minus :: v) (Phrase.negate hv).ofTight
    | holds ending =>
      obtain rfl := Option.some.inj h
      intro v hv
      simpa using Phrase.sum (.inr rfl) hw.1 hv
    | lacksTwo tight => cases h
  | times =>
    cases p with
    | start =>
      obtain rfl := Option.some.inj h
      obtain rfl : w = [] := hw
      exact fun u hu v hv => Phrase.ofProduct (.timesFirst (u := u) rfl hu hv)
    | lacksOne tight after =>
      cases tight with
      | true => cases h
      | false =>
        obtain rfl := Option.some.inj h
        intro u hu v hv
        simpa using hw (.times :: (u ++ v)) (.timesFirst rfl hu hv)
    | holds ending =>
      obtain rfl := Option.some.inj h
      intro v hv
      simpa using hw.1.sum_times hv
    | lacksTwo tight => cases h

/-- A group is closed. -/
theorem Spells.close {u : List Symbol} {r : Phase} (hu : p.Spells u) (hw : q.Spells w)
    (h : p.close q = some r) : r.Spells (w ++ .opening :: (u ++ [.closing])) := by
  cases p with
  | holds ending =>
    have hoperand : q.operand .group = some r := h
    exact hw.operand (fun _ _ => .group hu.1) (fun hends => by cases hends) hoperand
  | start =>
    obtain rfl : u = [] := hu
    cases q with
    | holds ending =>
      cases ending with
      | literal =>
        obtain rfl := Option.some.inj h
        exact ⟨hw.2 rfl, nofun⟩
      | alone | group => cases h
    | start | lacksOne _ _ | lacksTwo _ => cases h
  | lacksOne _ _ | lacksTwo _ => cases h

end Phase

/-- What the phases of all open groups say about the symbols that have been read. -/
inductive Spellings : List Phase → List Symbol → Prop
  | last {p : Phase} {w : List Symbol} (hw : p.Spells w) : Spellings [p] w
  | inner {p : Phase} {ps : List Phase} {w u : List Symbol} (hw : Spellings ps w)
      (hu : p.Spells u) : Spellings (p :: ps) (w ++ .opening :: u)

/-- The phases say the same about one more symbol. -/
theorem Spellings.advance {ps ps' : List Phase} {w : List Symbol} {s : Symbol}
    (hw : Spellings ps w) (h : advance ps s = some ps') : Spellings ps' (w ++ [s]) := by
  by_cases hopening : s = .opening
  · subst hopening
    obtain rfl : .start :: ps = ps' := by cases hw <;> exact Option.some.inj h
    exact .inner hw rfl
  by_cases hclosing : s = .closing
  · subst hclosing
    cases hw with
    | @last p w hp => cases p <;> cases h
    | @inner p ps w u hps hp =>
      cases hps with
      | @last q w hq =>
        obtain ⟨r, hr, rfl⟩ := Option.map_eq_some_iff.mp h
        simpa using Spellings.last (hp.close hq hr)
      | @inner q qs w' u' hqs hq =>
        obtain ⟨r, hr, rfl⟩ := Option.map_eq_some_iff.mp h
        simpa using Spellings.inner hqs (hp.close hq hr)
  cases hw with
  | last hp =>
    rw [advance_cons hopening hclosing] at h
    obtain ⟨q, hq, rfl⟩ := Option.map_eq_some_iff.mp h
    exact .last (hp.step hq)
  | inner hps hp =>
    rw [advance_cons hopening hclosing] at h
    obtain ⟨q, hq, rfl⟩ := Option.map_eq_some_iff.mp h
    simpa using Spellings.inner hps (hp.step hq)

/-- The phases say the same about all symbols. -/
theorem Spellings.advanceAll {ss : List Symbol} : ∀ {ps ps' : List Phase} {w : List Symbol},
    Spellings ps w → advanceAll ps ss = some ps' → Spellings ps' (w ++ ss) := by
  induction ss with
  | nil =>
    intro ps ps' w hw h
    obtain rfl := Option.some.inj h
    simpa using hw
  | cons s ss ih =>
    intro ps ps' w hw h
    rw [advanceAll_cons] at h
    obtain ⟨middle, hstep, hrest⟩ := Option.bind_eq_some_iff.mp h
    simpa using ih (hw.advance hstep) hrest

/-- The formulas that end where an expression is held are the phrases. -/
theorem phrase_iff_advance {ss : List Symbol} :
    Phrase true .sum ss ↔ ∃ ending, advanceAll [.start] ss = some [.holds ending] := by
  constructor
  · exact fun h => h.reads []
  · rintro ⟨ending, h⟩
    have hread : Spellings [.holds ending] ([] ++ ss) :=
      Spellings.advanceAll (.last (p := .start) rfl) h
    cases hread with
    | last hw => exact hw.1
    | inner hw => cases hw

end Scorecard.Formula
