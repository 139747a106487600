import Scorecard.Proofs.Batch.Outcome
import Scorecard.Proofs.Form.Grammar

/-!
# References to variables

`Expands` says what a text with references stands for, without searching: the first opening that is
closed makes a reference, whose value takes its place, and the text behind it is expanded alone.

* Every text expands in one way, and `expand` finds it (`expands_iff`).
* So texts may be expanded apart if no reference reaches from one into the other
  (`expand_append`).
* The paths of the settings are expanded with the values of the environment
  (`View.expandPath_eq`), which `Settings.expandPath_once` puts together.
-/

namespace Scorecard

open Text

variable {cs as bs before name rest : List Char}

/-! ## Openings -/

/-- No reference opens in the text. -/
def Unopened (cs : List Char) : Prop := ¬ ['$', '\x7b'] <:+: cs

/-- No opening in the text is closed behind it. -/
def Unreferring (cs : List Char) : Prop :=
  ∀ before after, cs = before ++ '$' :: '\x7b' :: after → '\x7d' ∉ after

/-- The last reference that opens in the text, if there is one, is closed in it. -/
def ClosesLast (cs : List Char) : Prop :=
  ∀ before after, cs = before ++ '$' :: '\x7b' :: after → Unopened after → '\x7d' ∈ after

/-- The end of one text and the beginning of the other make an opening. -/
def OpensBetween (as bs : List Char) : Prop :=
  as.getLast? = some '$' ∧ bs.head? = some '\x7b'

instance (cs : List Char) : Decidable (Unopened cs) := inferInstanceAs (Decidable (¬ _))

/-- The openings of a text are found among the ends of the text. -/
theorem forall_opening_iff {p : List Char → Prop} :
    (∀ before after, cs = before ++ '$' :: '\x7b' :: after → p after) ↔
      ∀ back ∈ cs.tails, ['$', '\x7b'] <+: back → p (back.drop 2) := by
  constructor
  · rintro h back hback ⟨after, rfl⟩
    obtain ⟨before, rfl⟩ := (List.mem_tails _ _).mp hback
    exact h before after rfl
  · rintro h before after rfl
    exact h ('$' :: '\x7b' :: after) ((List.mem_tails _ _).mpr ⟨before, rfl⟩) ⟨after, rfl⟩

instance (cs : List Char) : Decidable (Unreferring cs) :=
  decidable_of_iff' _ forall_opening_iff

instance (cs : List Char) : Decidable (ClosesLast cs) :=
  decidable_of_iff' _ (forall_opening_iff (p := fun after => Unopened after → '\x7d' ∈ after))

instance (as bs : List Char) : Decidable (OpensBetween as bs) :=
  inferInstanceAs (Decidable (_ ∧ _))

theorem unopened_cons_iff {c : Char} :
    Unopened (c :: cs) ↔ ¬ ['$', '\x7b'] <+: c :: cs ∧ Unopened cs := by
  rw [Unopened, Unopened, List.infix_cons_iff, not_or]

theorem not_unopened (before after : List Char) :
    ¬ Unopened (before ++ '$' :: '\x7b' :: after) := by
  rw [Unopened, not_not]
  exact ⟨before, after, by simp⟩

/-- Texts without openings have none together, unless they make one between them. -/
theorem Unopened.append (has : Unopened as) (hbs : Unopened bs) (hseam : ¬ OpensBetween as bs) :
    Unopened (as ++ bs) := by
  rw [Unopened, List.infix_append_iff_ne_nil]
  rintro (hwithin | hwithin | ⟨front, back, hfront, hback, hopening, hsuffix, hbegins⟩)
  · exact has hwithin
  · exact hbs hwithin
  · apply hseam
    obtain ⟨c, front, rfl⟩ := List.exists_cons_of_ne_nil hfront
    obtain ⟨d, back, rfl⟩ := List.exists_cons_of_ne_nil hback
    rw [List.cons_append, List.cons.injEq] at hopening
    obtain ⟨rfl, hbrace⟩ := hopening
    cases front with
    | nil =>
      rw [List.nil_append, List.cons.injEq] at hbrace
      obtain ⟨rfl, -⟩ := hbrace
      obtain ⟨as, rfl⟩ := hsuffix
      obtain ⟨bs, rfl⟩ := hbegins
      exact ⟨by simp, rfl⟩
    | cons e front => simp at hbrace

/-- A text with an opening has a last one. -/
theorem exists_last_opening (h : ¬ Unopened cs) :
    ∃ before after, cs = before ++ '$' :: '\x7b' :: after ∧ Unopened after := by
  induction cs with
  | nil => exact absurd (by decide) h
  | cons c cs ih =>
    by_cases hcs : Unopened cs
    · have hbegins : ['$', '\x7b'] <+: c :: cs := by
        by_contra hnot
        exact h (unopened_cons_iff.mpr ⟨hnot, hcs⟩)
      obtain ⟨after, hafter⟩ := hbegins
      refine ⟨[], after, by simpa using hafter.symm, ?_⟩
      have hcons : cs = '\x7b' :: after := by
        rw [List.cons_append, List.cons.injEq] at hafter
        exact hafter.2.symm
      rw [hcons] at hcs
      exact (unopened_cons_iff.mp hcs).2
    · obtain ⟨before, after, heq, hafter⟩ := ih hcs
      exact ⟨c :: before, after, by rw [heq, List.cons_append], hafter⟩

/-- If no opening is closed, but the last one is, then there is none. -/
theorem Unreferring.unopened (h : Unreferring cs) (hlast : ClosesLast cs) : Unopened cs := by
  by_contra hopened
  obtain ⟨before, after, heq, hafter⟩ := exists_last_opening hopened
  exact h before after heq (hlast before after heq hafter)

theorem ClosesLast.of_append (h : ClosesLast (as ++ bs)) : ClosesLast bs := by
  intro before after heq
  exact h (as ++ before) after (by rw [heq, List.append_assoc])

/-! ## The first reference -/

theorem cut_opening (hbefore : Unopened before) (after : List Char) :
    cut ['$', '\x7b'] (before ++ '$' :: '\x7b' :: after) = some (before, after) := by
  induction before with
  | nil => simp [cut]
  | cons c before ih =>
    obtain ⟨hfirst, hrest⟩ := unopened_cons_iff.mp hbefore
    have hnot : ¬ ['$', '\x7b'] <+: c :: (before ++ '$' :: '\x7b' :: after) := by
      intro hbegins
      apply hfirst
      obtain ⟨rfl, hsecond⟩ := List.cons_prefix_cons.mp hbegins
      cases before with
      | nil => simp at hsecond
      | cons d before =>
        obtain ⟨rfl, -⟩ := List.cons_prefix_cons.mp hsecond
        exact ⟨before, rfl⟩
    rw [List.cons_append, cut, if_neg (by rwa [List.isPrefixOf_iff_prefix]), ih hrest]
    rfl

theorem cut_opening_eq_none (h : Unopened cs) : cut ['$', '\x7b'] cs = none := by
  induction cs with
  | nil => rfl
  | cons c cs ih =>
    obtain ⟨hfirst, hrest⟩ := unopened_cons_iff.mp h
    rw [cut, if_neg (by rwa [List.isPrefixOf_iff_prefix]), ih hrest]
    rfl

/-- A text in which a reference opens has a first opening. -/
theorem opening_cases (cs : List Char) : Unopened cs ∨
    ∃ before after, Unopened before ∧ cs = before ++ '$' :: '\x7b' :: after := by
  induction cs with
  | nil => exact .inl (by decide)
  | cons c cs ih =>
    by_cases hbegins : ['$', '\x7b'] <+: c :: cs
    · obtain ⟨after, hafter⟩ := hbegins
      exact .inr ⟨[], after, by decide, by simpa using hafter.symm⟩
    · rcases ih with hcs | ⟨before, after, hbefore, rfl⟩
      · exact .inl (unopened_cons_iff.mpr ⟨hbegins, hcs⟩)
      · refine .inr ⟨c :: before, after, unopened_cons_iff.mpr ⟨fun hfirst => ?_, hbefore⟩, rfl⟩
        exact hbegins (hfirst.trans (List.prefix_append (c :: before) _))

/-- Every opening is the first one or stands behind it. -/
theorem suffix_of_first_opening {after front back : List Char} (hbefore : Unopened before)
    (h : before ++ '$' :: '\x7b' :: after = front ++ '$' :: '\x7b' :: back) : back <:+ after := by
  rcases List.append_eq_append_iff.mp h with ⟨middle, -, hafter⟩ | ⟨middle, hfront, hback⟩
  · match middle, hafter with
    | [], hafter =>
      obtain rfl : after = back := by simpa using hafter
      exact List.suffix_rfl
    | [c], hafter => simp at hafter
    | c :: d :: middle, hafter =>
      refine ⟨middle ++ ['$', '\x7b'], ?_⟩
      simp only [List.cons_append, List.cons.injEq] at hafter
      rw [hafter.2.2, List.append_assoc]
      rfl
  · match middle, hback with
    | [], hback =>
      obtain rfl : back = after := by simpa using hback
      exact List.suffix_rfl
    | [c], hback => simp at hback
    | c :: d :: middle, hback =>
      simp only [List.cons_append, List.cons.injEq] at hback
      rw [hfront, ← hback.1, ← hback.2.1] at hbefore
      exact absurd hbefore (not_unopened front middle)

/-- A text in which an opening is closed has a first reference. -/
theorem reference_cases (cs : List Char) : Unreferring cs ∨
    ∃ before name rest, Unopened before ∧ '\x7d' ∉ name ∧
      cs = before ++ '$' :: '\x7b' :: (name ++ '\x7d' :: rest) := by
  rcases opening_cases cs with hcs | ⟨before, after, hbefore, rfl⟩
  · refine .inl fun before after heq => ?_
    rw [heq] at hcs
    exact absurd hcs (not_unopened before after)
  · rcases cut_singleton_cases '\x7d' after with ⟨hopen, -⟩ | ⟨name, rest, hname, rfl, -⟩
    · refine .inl fun front back heq hclosed => hopen ?_
      exact (suffix_of_first_opening hbefore heq).subset hclosed
    · exact .inr ⟨before, name, rest, hbefore, hname, rfl⟩

theorem nextReference?_eq_some (hbefore : Unopened before) (hname : '\x7d' ∉ name)
    (rest : List Char) :
    nextReference? (before ++ '$' :: '\x7b' :: (name ++ '\x7d' :: rest)) =
      some (before, name, rest) := by
  rw [nextReference?, cut_opening hbefore]
  show (cut ['\x7d'] (name ++ '\x7d' :: rest)).bind _ = _
  rw [cut_append_cons hname]
  rfl

theorem nextReference?_eq_none (h : Unreferring cs) : nextReference? cs = none := by
  rw [nextReference?]
  rcases opening_cases cs with hcs | ⟨before, after, hbefore, rfl⟩
  · rw [cut_opening_eq_none hcs]
    rfl
  · rw [cut_opening hbefore]
    show (cut ['\x7d'] after).bind _ = _
    rw [cut_eq_none_iff.mpr (h before after rfl)]
    rfl

/-! ## Expansion -/

/-- What a text with references stands for, when variables have these values. -/
inductive Expands (value? : List Char → Option String) : List Char → List Char → Prop where
  | plain {cs : List Char} (hcs : Unreferring cs) : Expands value? cs cs
  | reference {before name rest expanded : List Char} (hbefore : Unopened before)
      (hname : '\x7d' ∉ name) (hrest : Expands value? rest expanded) :
      Expands value? (before ++ '$' :: '\x7b' :: (name ++ '\x7d' :: rest))
        (before ++ ((value? name).getD "").toList ++ expanded)

variable {value? : List Char → Option String}

theorem expand_of_next (h : nextReference? cs = some (before, name, rest)) :
    expand value? cs = before ++ ((value? name).getD "").toList ++ expand value? rest := by
  rw [expand]
  split
  · next heq =>
    rw [h] at heq
    cases heq
    rfl
  · next heq =>
    rw [h] at heq
    cases heq

theorem expand_of_no_next (h : nextReference? cs = none) : expand value? cs = cs := by
  rw [expand]
  split
  · next heq =>
    rw [h] at heq
    cases heq
  · rfl

theorem expand_unreferring (h : Unreferring cs) : expand value? cs = cs :=
  expand_of_no_next (nextReference?_eq_none h)

theorem expand_reference (hbefore : Unopened before) (hname : '\x7d' ∉ name) (rest : List Char) :
    expand value? (before ++ '$' :: '\x7b' :: (name ++ '\x7d' :: rest)) =
      before ++ ((value? name).getD "").toList ++ expand value? rest :=
  expand_of_next (nextReference?_eq_some hbefore hname rest)

theorem expands_expand (value? : List Char → Option String) (cs : List Char) :
    Expands value? cs (expand value? cs) := by
  rcases reference_cases cs with hcs | ⟨before, name, rest, hbefore, hname, heq⟩
  · rw [expand_unreferring hcs]
    exact .plain hcs
  · have hshorter : rest.length < cs.length := by
      rw [heq]
      simp
      omega
    rw [heq, expand_reference hbefore hname]
    exact .reference hbefore hname (expands_expand value? rest)
termination_by cs.length

/-- Every text stands for what `expand` makes of it, and for nothing else. -/
theorem expands_iff {expanded : List Char} :
    Expands value? cs expanded ↔ expanded = expand value? cs := by
  constructor
  · intro h
    induction h with
    | plain hcs => rw [expand_unreferring hcs]
    | reference hbefore hname _ ih => rw [expand_reference hbefore hname, ih]
  · rintro rfl
    exact expands_expand value? cs

/-- The first opening in a text is also the first one behind a text without openings. -/
theorem Unopened.append_before {after : List Char} (has : Unopened as) (hbefore : Unopened before)
    (hseam : ¬ OpensBetween as (before ++ '$' :: after)) : Unopened (as ++ before) := by
  refine has.append hbefore fun hbetween => hseam ⟨hbetween.1, ?_⟩
  cases before with
  | nil => exact absurd hbetween.2 (by simp)
  | cons c before => exact hbetween.2

theorem Unopened.append_unreferring (has : Unopened as) (hbs : Unreferring bs)
    (hseam : ¬ OpensBetween as bs) : Unreferring (as ++ bs) := by
  intro front back heq hclosed
  rcases opening_cases bs with hopened | ⟨before, after, hbefore, rfl⟩
  · have happend := has.append hopened hseam
    rw [heq] at happend
    exact not_unopened front back happend
  · rw [← List.append_assoc] at heq
    have hsuffix := suffix_of_first_opening (has.append_before hbefore hseam) heq
    exact hbs before after rfl (hsuffix.subset hclosed)

theorem OpensBetween.of_append (h : OpensBetween as bs) (front : List Char) :
    OpensBetween (front ++ as) bs := by
  refine ⟨?_, h.2⟩
  rw [List.getLast?_append, h.1]
  rfl

/-- Texts may be expanded apart if the last reference in the first is closed there, and the two do
not make an opening between them. -/
theorem expand_append (hclosed : ClosesLast as) (hseam : ¬ OpensBetween as bs) :
    expand value? (as ++ bs) = expand value? as ++ expand value? bs := by
  have h := expands_expand value? as
  generalize expand value? as = expanded at h ⊢
  induction h with
  | @plain as has =>
    have hopened : Unopened as := has.unopened hclosed
    rcases reference_cases bs with hbs | ⟨before, name, rest, hbefore, hname, rfl⟩
    · rw [expand_unreferring (hopened.append_unreferring hbs hseam), expand_unreferring hbs]
    · have hfront := hopened.append_before hbefore hseam
      rw [← List.append_assoc, expand_reference hfront hname, expand_reference hbefore hname]
      simp
  | @reference before name rest expanded hbefore hname _ ih =>
    rw [show before ++ '$' :: '\x7b' :: (name ++ '\x7d' :: rest) =
      (before ++ '$' :: '\x7b' :: (name ++ ['\x7d'])) ++ rest by simp] at hclosed hseam
    have hrest := ih hclosed.of_append fun hbetween => hseam (hbetween.of_append _)
    have hreference : expand value? (before ++ '$' :: '\x7b' :: (name ++ '\x7d' :: (rest ++ bs))) =
        before ++ ((value? name).getD "").toList ++ expand value? (rest ++ bs) :=
      expand_reference hbefore hname (rest ++ bs)
    rw [hrest] at hreference
    simpa using hreference

/-! ## Paths -/

/-- Only the values of the variables that a text refers to matter. -/
theorem expand_congr {other? : List Char → Option String} (h : ∀ name ∈ references cs,
    (value? name).getD "" = (other? name).getD "") : expand value? cs = expand other? cs := by
  fun_induction references cs with
  | case1 cs before name rest hnext ih =>
    rw [expand_of_next hnext, expand_of_next hnext, h name List.mem_cons_self,
      ih fun name hname => h name (List.mem_cons_of_mem _ hname)]
  | case2 cs hnext => rw [expand_of_no_next hnext, expand_of_no_next hnext]

theorem lookup_map_self {names : List (List Char)} {value : List Char → String}
    (h : name ∈ names) : (names.map fun name => (name, value name)).lookup name =
      some (value name) := by
  induction names with
  | nil => cases h
  | cons first names ih =>
    rw [List.map_cons, List.lookup_cons]
    by_cases hfirst : name = first
    · rw [hfirst]
      simp
    · have hmem : name ∈ names := (List.mem_cons.mp h).resolve_left hfirst
      rw [beq_eq_false_iff_ne.mpr hfirst]
      exact ih hmem

/-- A path is expanded with the values of the environment. -/
theorem View.expandPath_eq (v : View) (path : String) :
    v.expandPath path = String.ofList (expand v.valueOf path.toList) := by
  show String.ofList (expand (fun name => List.lookup name _) path.toList) = _
  rw [expand_congr fun name hname => ?_]
  rw [lookup_map_self hname]
  rfl

/-- A path is expanded with what is in the environment when it is read, and reading changes nothing.
Whatever the environment is, the first reference gives way to the value of its variable, which is
taken as it is, or to nothing if the variable is not set, and the text behind it is expanded alone.
A path stays as it is if no opening is closed.  Two paths may be expanded apart, unless the last
reference that opens in the first is left open there, or they make an opening between them. -/
theorem Settings.expandPath_once {σ : Type} [Workspace (StateM σ)] [Observed σ] :
    (∀ path, Reads (Settings.expandPath path : Attempt σ String) fun v =>
      .ok (v.expandPath path)) ∧
    ∀ v : View,
      (∀ before name rest : String, Unopened before.toList → '\x7d' ∉ name.toList →
        v.expandPath (before ++ "$\x7b" ++ name ++ "\x7d" ++ rest) =
          before ++ (v.valueOf name.toList).getD "" ++ v.expandPath rest) ∧
      (∀ path : String, Unreferring path.toList → v.expandPath path = path) ∧
      ∀ first second : String, ClosesLast first.toList →
        ¬ OpensBetween first.toList second.toList →
          v.expandPath (first ++ second) = v.expandPath first ++ v.expandPath second := by
  refine ⟨Reads.expandPath, fun v => ⟨?_, ?_, ?_⟩⟩
  · intro before name rest hbefore hname
    rw [View.expandPath_eq, View.expandPath_eq, ← String.toList_inj]
    have hreference : expand v.valueOf _ = _ := expand_reference hbefore hname rest.toList
    simpa using hreference
  · intro path hpath
    rw [View.expandPath_eq, expand_unreferring hpath, String.ofList_toList]
  · intro first second hclosed hseam
    rw [View.expandPath_eq, View.expandPath_eq, View.expandPath_eq, String.toList_append,
      expand_append hclosed hseam, String.ofList_append]

/-- An environment in which the value of a variable refers to the variable. -/
def nestingWorld : World := { pitWorld with environment := [("OUT", "$\x7bOUT\x7d/x")] }

/-- The value is not looked through for references, and neither a dollar sign before a reference nor
an opening that is left open counts. -/
theorem expandPath_once_nestingWorld :
    (viewOf nestingWorld).expandPath "a$$\x7bOUT\x7d-$\x7bOUT" =
        "a$$\x7bOUT\x7d/x-$\x7bOUT" ∧
      (viewOf nestingWorld).expandPath ("$\x7b$\x7bIN\x7d$" ++ "$\x7bOUT\x7d") =
        "$$\x7bOUT\x7d/x" := by
  obtain ⟨-, honce⟩ := Settings.expandPath_once (σ := World)
  obtain ⟨hreference, hplain, happend⟩ := honce (viewOf nestingWorld)
  have hout : (viewOf nestingWorld).valueOf "OUT".toList = some "$\x7bOUT\x7d/x" := by
    decide +kernel
  have hnested : (viewOf nestingWorld).valueOf "$\x7bIN".toList = none := by decide +kernel
  constructor
  · have h := hreference "a$" "OUT" "-$\x7bOUT" (by decide +kernel) (by decide +kernel)
    rw [hout, hplain "-$\x7bOUT" (by decide +kernel)] at h
    exact h
  · have hfirst := hreference "" "$\x7bIN" "$" (by decide +kernel) (by decide +kernel)
    rw [hnested, hplain "$" (by decide +kernel)] at hfirst
    have hsecond := hreference "" "OUT" "" (by decide +kernel) (by decide +kernel)
    rw [hout, hplain "" (by decide +kernel)] at hsecond
    rw [happend "$\x7b$\x7bIN\x7d$" "$\x7bOUT\x7d" (by decide +kernel) (by decide +kernel)]
    exact congrArg₂ (· ++ ·) hfirst hsecond

end Scorecard
