import Mathlib.Data.List.Forall2
import Scorecard.Report.Html

/-!
# Text in web pages

The text of a report is escaped before it is put on a page, so it never becomes markup.

* Escaped text is the text with the five characters of markup replaced one after the other
  (`escaped_eq_foldl_replaced`).  It has none of them left but ampersands (`isMarkup_of_mem_escaped`),
  each ampersand begins one of five references (`exists_reference_of_escaped`), and reading the
  references from left to right gives the text back (`unescaped_escaped`).
* `tags` finds the tags of a page in its text.  `Alike` pages have the same tags and the same other
  pieces, and text in the same places.  So they have the same tags (`tags_render`).
* Reports of the same size have pages that are alike, whatever they say (`alike_html`), and
  `Report.tags_html` puts this together.
-/

namespace Scorecard

namespace Html

/-! ## Escaped text -/

/-- The characters of markup other than the ampersand. -/
def isMarkup (c : Char) : Bool := c = '<' || c = '>' || c = '"' || c = '\''

/-- The five references, each with the character of markup that it stands for.  The one for `&` comes
first. -/
def references : List (List Char × Char) :=
  [("&amp;".toList, '&'), ("&lt;".toList, '<'), ("&gt;".toList, '>'), ("&quot;".toList, '"'),
    ("&#x27;".toList, '\'')]

/-- The text with a character replaced everywhere by its reference. -/
def replaced (cs : List Char) (reference : List Char × Char) : List Char :=
  cs.flatMap fun c => if c = reference.2 then reference.1 else [c]

/-- The reference that a text begins with. -/
def reference? (cs : List Char) : Option (List Char × Char) :=
  references.find? fun reference => reference.1.isPrefixOf cs

/-- The text with every reference replaced by its character, in one pass from left to right. -/
def unescaped : List Char → List Char
  | [] => []
  | c :: cs =>
      match reference? (c :: cs) with
      | some (name, d) => d :: unescaped (cs.drop (name.length - 1))
      | none => c :: unescaped cs
termination_by cs => cs.length
decreasing_by
  · exact Nat.lt_succ_of_le (List.drop_sublist _ _).length_le
  · simp

section

variable {name : List Char} {c : Char}

/-- A reference has one ampersand, at its front, and no other character of markup. -/
theorem eq_cons_of_mem_references (h : (name, c) ∈ references) :
    ∃ rest, name = '&' :: rest ∧ '&' ∉ rest ∧ name.any isMarkup = false := by
  have hall : references.all (fun r => decide (r.1.head? = some '&' ∧ '&' ∉ r.1.tail ∧
      r.1.any isMarkup = false)) = true := by decide
  obtain ⟨hhead, htail, hmarkup⟩ := of_decide_eq_true (List.all_eq_true.mp hall _ h)
  exact ⟨name.tail, (List.cons_head?_tail hhead).symm, htail, hmarkup⟩

/-- Behind a reference any text may follow. -/
theorem reference?_append (h : (name, c) ∈ references) (cs : List Char) :
    reference? (name ++ cs) = some (name, c) := by
  simp only [references, List.mem_cons, Prod.mk.injEq, List.not_mem_nil, or_false] at h
  rcases h with ⟨rfl, rfl⟩ | ⟨rfl, rfl⟩ | ⟨rfl, rfl⟩ | ⟨rfl, rfl⟩ | ⟨rfl, rfl⟩ <;> rfl

/-- A character is written as its reference if it has one, and else as it is. -/
theorem escapedChar_cases (c : Char) :
    (escapedChar c, c) ∈ references ∨ c ≠ '&' ∧ isMarkup c = false ∧ escapedChar c = [c] := by
  unfold escapedChar
  split_ifs with hamp hless hgreater hquote happ
  · exact .inl (by rw [hamp]; decide)
  · exact .inl (by rw [hless]; decide)
  · exact .inl (by rw [hgreater]; decide)
  · exact .inl (by rw [hquote]; decide)
  · exact .inl (by rw [happ]; decide)
  · exact .inr ⟨hamp, by simp [isMarkup, hless, hgreater, hquote, happ], rfl⟩

/-- A reference is read as its character. -/
theorem unescaped_reference_append (h : (name, c) ∈ references) (cs : List Char) :
    unescaped (name ++ cs) = c :: unescaped cs := by
  have hread := reference?_append h cs
  obtain ⟨rest, rfl, -⟩ := eq_cons_of_mem_references h
  rw [List.cons_append] at hread ⊢
  rw [unescaped, hread]
  simp

/-- What is no ampersand is read as it is. -/
theorem unescaped_cons_of_ne (h : c ≠ '&') (cs : List Char) :
    unescaped (c :: cs) = c :: unescaped cs := by
  have hnone : reference? (c :: cs) = none := by
    simp [reference?, references, h.symm]
  rw [unescaped, hnone]

end

/-- Replacing references undoes escaping. -/
theorem unescaped_escaped (cs : List Char) : unescaped (cs.flatMap escapedChar) = cs := by
  induction cs with
  | nil => simp [unescaped]
  | cons c cs ih =>
    rw [List.flatMap_cons]
    rcases escapedChar_cases c with h | ⟨hamp, -, hself⟩
    · rw [unescaped_reference_append h, ih]
    · rw [hself, List.singleton_append, unescaped_cons_of_ne hamp, ih]

/-- Escaped text has none of the characters of markup but ampersands. -/
theorem isMarkup_of_mem_escaped {cs : List Char} {d : Char} (h : d ∈ cs.flatMap escapedChar) :
    isMarkup d = false := by
  obtain ⟨c, -, hd⟩ := List.mem_flatMap.mp h
  rcases escapedChar_cases c with hmem | ⟨-, hmarkup, hself⟩
  · obtain ⟨_, _, _, hmarkup⟩ := eq_cons_of_mem_references hmem
    simpa using List.any_eq_false.mp hmarkup d hd
  · rw [hself, List.mem_singleton] at hd
    rw [hd, hmarkup]

/-- Every ampersand of an escaped text begins a reference. -/
theorem exists_reference_of_escaped {cs before after : List Char}
    (h : cs.flatMap escapedChar = before ++ '&' :: after) :
    ∃ reference ∈ references, reference.1 <+: '&' :: after := by
  induction cs generalizing before with
  | nil => simp at h
  | cons c cs ih =>
    rw [List.flatMap_cons, List.append_eq_append_iff] at h
    rcases h with ⟨mid, -, hrest⟩ | ⟨mid, hchar, hafter⟩
    · exact ih hrest
    · -- the ampersand is the first of those that stand for `c`, or it is behind them
      cases mid with
      | nil =>
        have hrest : cs.flatMap escapedChar = [] ++ '&' :: after := hafter.symm
        exact ih hrest
      | cons d mid =>
        obtain ⟨rfl, rfl⟩ := List.cons.inj hafter
        rcases escapedChar_cases c with hmem | ⟨hamp, -, hself⟩
        · obtain ⟨rest, hname, hrest, -⟩ := eq_cons_of_mem_references hmem
          rw [hname] at hchar
          rcases List.cons_eq_append_iff.mp hchar with ⟨rfl, htail⟩ | ⟨_, rfl, htail⟩
          · refine ⟨_, hmem, ?_⟩
            rw [hname, ← htail]
            exact List.prefix_append _ _
          · exact absurd (by rw [htail]; simp) hrest
        · have hmem : '&' ∈ escapedChar c := by simp [hchar]
          rw [hself, List.mem_singleton] at hmem
          exact absurd hmem.symm hamp

/-- Escaping replaces the five characters one after the other, the ampersand first. -/
theorem escaped_eq_foldl_replaced (cs : List Char) :
    cs.flatMap escapedChar = references.foldl replaced cs := by
  have happend : ∀ rs : List (List Char × Char), ∀ xs ys : List Char,
      rs.foldl replaced (xs ++ ys) = rs.foldl replaced xs ++ rs.foldl replaced ys := by
    intro rs
    induction rs with
    | nil => simp
    | cons r rs ih => simp [replaced, ih]
  have hchar : ∀ c, references.foldl replaced [c] = escapedChar c := by
    intro c
    unfold escapedChar
    split_ifs with hamp hless hgreater hquote happ
    · subst hamp; rfl
    · subst hless; rfl
    · subst hgreater; rfl
    · subst hquote; rfl
    · subst happ; rfl
    · simp [references, replaced, hamp, hless, hgreater, hquote, happ]
  induction cs with
  | nil => rfl
  | cons c cs ih => rw [List.flatMap_cons, ih, ← hchar c, ← happend, List.singleton_append]

/-! ## Tags -/

/-- The tags of a text: what stands between a `<` and the next `>`. -/
def tags : List Char → List String
  | [] => []
  | c :: cs =>
      if c = '<' then String.ofList (cs.takeWhile (· ≠ '>')) :: tags (cs.dropWhile (· ≠ '>'))
      else tags cs
termination_by cs => cs.length
decreasing_by
  · exact Nat.lt_succ_of_le (List.dropWhile_sublist _).length_le
  · simp

theorem tags_cons_of_ne {c : Char} (h : c ≠ '<') (cs : List Char) : tags (c :: cs) = tags cs := by
  rw [tags, if_neg h]

theorem tags_append_of_not_mem {cs : List Char} (h : '<' ∉ cs) (rest : List Char) :
    tags (cs ++ rest) = tags rest := by
  induction cs with
  | nil => rfl
  | cons c cs ih =>
    have hc : c ≠ '<' := fun heq => h (by simp [heq])
    have hcs : '<' ∉ cs := fun hmem => h (List.mem_cons_of_mem _ hmem)
    rw [List.cons_append, tags_cons_of_ne hc, ih hcs]

theorem tags_tag {inside : List Char} (h : '>' ∉ inside) (rest : List Char) :
    tags ('<' :: (inside ++ '>' :: rest)) = String.ofList inside :: tags rest := by
  have hall : ∀ c ∈ inside, decide (c ≠ '>') = true := fun c hc =>
    decide_eq_true fun heq => h (heq ▸ hc)
  have htake : (inside ++ '>' :: rest).takeWhile (· ≠ '>') = inside := by
    rw [List.takeWhile_append_of_pos hall]
    simp
  have hdrop : (inside ++ '>' :: rest).dropWhile (· ≠ '>') = '>' :: rest := by
    rw [List.dropWhile_append_of_pos hall]
    simp
  rw [tags, if_pos rfl, htake, hdrop, tags_cons_of_ne (by decide)]

/-- The tag that a piece is. -/
def Piece.tag? : Piece → Option String
  | tag inside => some inside
  | text _ | verbatim _ => none

/-- Two pieces are the same but for their text.  A tag does not end before its end, and what is
taken as it is has no tag. -/
inductive Piece.Alike : Piece → Piece → Prop
  | tag {inside : String} (h : '>' ∉ inside.toList) : Alike (.tag inside) (.tag inside)
  | text (s t : String) : Alike (.text s) (.text t)
  | verbatim {s : String} (h : '<' ∉ s.toList) : Alike (.verbatim s) (.verbatim s)

/-- Two pages are alike if their pieces are. -/
def Alike : List Piece → List Piece → Prop := List.Forall₂ Piece.Alike

theorem tags_piece {p q : Piece} (h : p.Alike q) (rest : List Char) :
    tags (p.render.toList ++ rest) = q.tag?.toList ++ tags rest := by
  cases h with
  | @tag inside h =>
    have htext : (Piece.tag inside).render.toList ++ rest =
        '<' :: (inside.toList ++ '>' :: rest) := by
      simp [Piece.render]
    rw [htext, tags_tag h, String.ofList_toList]
    rfl
  | text s t =>
    have hless : '<' ∉ (Piece.text s).render.toList := by
      intro hmem
      rw [Piece.render, escape, String.toList_ofList] at hmem
      exact absurd (isMarkup_of_mem_escaped hmem) (by decide)
    exact tags_append_of_not_mem hless rest
  | verbatim h => exact tags_append_of_not_mem h rest

/-- A page has the tags of every page that is alike. -/
theorem tags_render {ps qs : List Piece} (h : Alike ps qs) :
    tags (render ps).toList = qs.filterMap Piece.tag? := by
  rw [render, String.toList_join, List.flatMap_map]
  induction h with
  | nil => simp [tags]
  | @cons p q ps qs hpiece _ ih =>
    rw [List.flatMap_cons, tags_piece hpiece, ih]
    cases q <;> rfl

/-! ## Pages that are alike -/

section

variable {ps qs ps' qs' : List Piece}

theorem Alike.append (h : Alike ps qs) (h' : Alike ps' qs') : Alike (ps ++ ps') (qs ++ qs') :=
  List.rel_append h h'

theorem alike_tag {inside : String} (h : '>' ∉ inside.toList := by decide) :
    Alike [.tag inside] [.tag inside] := .cons (.tag h) .nil

theorem alike_text (s t : String) : Alike [.text s] [.text t] := .cons (.text s t) .nil

theorem alike_newLine : Alike newLine newLine := alike_text _ _

theorem Alike.element {name attributes : String} (h : Alike ps qs)
    (hopening : '>' ∉ (name ++ attributes).toList := by decide)
    (hclosing : '>' ∉ ("/" ++ name).toList := by decide) :
    Alike (element name attributes ps) (element name attributes qs) :=
  ((alike_tag hopening).append h).append (alike_tag hclosing)

theorem alike_leaf {name attributes : String} (s t : String)
    (hopening : '>' ∉ (name ++ attributes).toList := by decide)
    (hclosing : '>' ∉ ("/" ++ name).toList := by decide) :
    Alike (leaf name attributes s) (leaf name attributes t) :=
  (alike_text s t).element hopening hclosing

/-- Lists whose members give pages that are alike. -/
theorem alike_flatMap {α : Type} {f g : α → List Piece} {as bs : List α}
    (h : List.Forall₂ (fun a b => Alike (f a) (g b)) as bs) :
    Alike (as.flatMap f) (bs.flatMap g) := by
  induction h with
  | nil => exact .nil
  | cons hab _ ih =>
    rw [List.flatMap_cons, List.flatMap_cons]
    exact hab.append ih

theorem alike_flatMap_of_length_eq {α : Type} {f g : α → List Piece} {as bs : List α}
    (hlength : as.length = bs.length) (h : ∀ a ∈ as, ∀ b ∈ bs, Alike (f a) (g b)) :
    Alike (as.flatMap f) (bs.flatMap g) := by
  refine alike_flatMap (List.forall₂_iff_zip.mpr ⟨hlength, fun {a b} hab => ?_⟩)
  obtain ⟨ha, hb⟩ := List.of_mem_zip hab
  exact h a ha b hb

/-- Lines without tags, taken as they are. -/
theorem alike_verbatimLines {lines : List String} (h : ∀ line ∈ lines, '<' ∉ line.toList) :
    Alike (verbatimLines lines) (verbatimLines lines) :=
  (alike_text _ _).append (alike_flatMap (List.forall₂_same.mpr fun line hline =>
    .cons (.verbatim (h line hline)) alike_newLine))

end

/-- A text is searched as the list of characters that it is made of, which spares decoding it. -/
theorem not_mem_of_eq_ofList {s : String} {cs : List Char} (h : s = String.ofList cs)
    (hcs : cs.contains '<' = false) : '<' ∉ s.toList := by
  subst h
  simpa using hcs

set_option maxRecDepth 2000 in
/-- Neither the style sheet nor the script has a tag. -/
theorem not_mem_style_append_script : ∀ line ∈ style ++ script, '<' ∉ line.toList := by
  simp only [style, script, List.cons_append, List.nil_append, List.forall_mem_cons,
    List.not_mem_nil, false_imp_iff, implies_true, and_true]
  repeat' apply And.intro
  all_goals
    refine not_mem_of_eq_ofList rfl ?_
    decide +kernel

theorem alike_style : Alike (verbatimLines style) (verbatimLines style) :=
  alike_verbatimLines fun line hline =>
    not_mem_style_append_script line (List.mem_append_left _ hline)

theorem alike_script : Alike (verbatimLines script) (verbatimLines script) :=
  alike_verbatimLines fun line hline =>
    not_mem_style_append_script line (List.mem_append_right _ hline)

theorem alike_head : Alike Html.head Html.head :=
  alike_newLine |>.append alike_tag |>.append alike_newLine |>.append alike_tag
    |>.append alike_newLine |>.append (alike_leaf _ _) |>.append alike_newLine
    |>.append (alike_newLine.append alike_style).element
    |>.append alike_newLine |>.element |>.append alike_newLine

end Html

open Html

/-! ## Reports of the same size -/

/-- The rows have a cell for each column and a score for each equation. -/
def Report.IsAligned (r : Report) : Prop :=
  ∀ row ∈ r.rows, row.cells.length = r.columns.length ∧ row.scores.length = r.equations.length

/-- The reports have as many columns, equations, rows and remarks. -/
structure Report.SameSize (r r' : Report) : Prop where
  columns : r.columns.length = r'.columns.length
  equations : r.equations.length = r'.equations.length
  rows : r.rows.length = r'.rows.length
  remarks : r.remarks.length = r'.remarks.length

section

variable {r r' : Report}

theorem Report.SameSize.headers (h : r.SameSize r') : r.headers.length = r'.headers.length := by
  simp [Report.headers, h.columns, h.equations]

theorem alike_htmlBanner : Alike r.htmlBanner r'.htmlBanner :=
  alike_newLine |>.append (alike_leaf _ _) |>.append alike_newLine |>.append (alike_leaf _ _)
    |>.append alike_newLine |>.element |>.append alike_newLine

/-- Heads of columns at one place are alike. -/
theorem alike_htmlHeader (h : r.columns.length = r'.columns.length) (place : Nat)
    (header header' : String) : Alike (r.htmlHeader place header) (r'.htmlHeader place header') := by
  have hdigits : '>' ∉ Nat.toDigits 10 place := fun hmem =>
    absurd (Nat.isDigit_of_mem_toDigits (by decide) (by decide) hmem) (by decide)
  have htexts : '>' ∉ (toString " onclick=\"sortTable(").toList ∧ '>' ∉ (toString ")\"").toList := by
    decide
  rw [Report.htmlHeader, Report.htmlHeader, h]
  refine alike_leaf _ _ ?_
  split <;> simp [hdigits, htexts]

/-- Rows of the same size are alike. -/
theorem alike_htmlRow {row row' : Row} (hcells : row.cells.length = row'.cells.length)
    (hscores : row.scores.length = row'.scores.length) :
    Alike (Report.htmlRow row) (Report.htmlRow row') := by
  refine (alike_leaf _ _ |>.append ?_ |>.append ?_ |>.element).append alike_newLine
  · exact alike_flatMap_of_length_eq hcells fun _ _ _ _ => alike_leaf _ _
  · exact alike_flatMap_of_length_eq hscores fun _ _ _ _ => alike_leaf _ _

theorem alike_headers (h : r.SameSize r') :
    Alike (r.headers.zipIdx.flatMap fun (header, place) => r.htmlHeader place header)
      (r'.headers.zipIdx.flatMap fun (header, place) => r'.htmlHeader place header) := by
  have hplaces : List.Forall₂ (fun a b => a.2 = b.2) r.headers.zipIdx r'.headers.zipIdx := by
    have hsame : r.headers.zipIdx.map Prod.snd = r'.headers.zipIdx.map Prod.snd := by
      rw [List.zipIdx_map_snd, List.zipIdx_map_snd, h.headers]
    rw [← List.forall₂_eq_eq_eq, List.forall₂_map_left_iff, List.forall₂_map_right_iff] at hsame
    exact hsame
  refine alike_flatMap (hplaces.imp fun a b hplace => ?_)
  obtain ⟨header, place⟩ := a
  obtain ⟨header', place'⟩ := b
  obtain rfl : place = place' := hplace
  exact alike_htmlHeader h.columns place header header'

theorem alike_htmlTable (h : r.SameSize r') {rows rows' : List Row}
    (hlength : rows.length = rows'.length)
    (hrows : ∀ row ∈ rows, ∀ row' ∈ rows', Alike (Report.htmlRow row) (Report.htmlRow row')) :
    Alike (r.htmlTable rows) (r'.htmlTable rows') := by
  have hbody : Alike (rows.flatMap Report.htmlRow) (rows'.flatMap Report.htmlRow) :=
    alike_flatMap_of_length_eq hlength hrows
  exact alike_newLine |>.append (alike_leaf _ _) |>.append alike_newLine
    |>.append (alike_newLine |>.append (alike_headers h).element.element |>.append alike_newLine
      |>.append (alike_newLine.append hbody).element).element
    |>.append alike_newLine |>.element |>.append alike_newLine

theorem alike_htmlRemarks (h : r.SameSize r') : Alike r.htmlRemarks r'.htmlRemarks := by
  have hremarks : Alike (r.remarks.flatMap Report.htmlRemark)
      (r'.remarks.flatMap Report.htmlRemark) :=
    alike_flatMap_of_length_eq h.remarks fun _ _ _ _ => (alike_leaf _ _).append alike_newLine
  have hempty : r.remarks.isEmpty = r'.remarks.isEmpty := by
    rw [Bool.eq_iff_iff, List.isEmpty_iff_length_eq_zero, List.isEmpty_iff_length_eq_zero, h.remarks]
  rw [Report.htmlRemarks, Report.htmlRemarks, hempty]
  split
  · exact .nil
  · exact alike_newLine |>.append (alike_leaf _ _) |>.append alike_newLine
      |>.append (alike_newLine.append hremarks).element |>.append alike_newLine |>.element
      |>.append alike_newLine

theorem alike_htmlData : Alike r.htmlData r'.htmlData :=
  alike_newLine |>.append (alike_newLine |>.append (alike_leaf _ _) |>.append alike_newLine
    |>.append (alike_leaf _ _).element |>.append alike_newLine).element
    |>.append alike_newLine |>.element |>.append alike_newLine

/-- The pages of two reports of the same size are alike. -/
theorem alike_htmlPieces (h : r.SameSize r') {rows rows' : List Row}
    (hlength : rows.length = rows'.length)
    (hrows : ∀ row ∈ rows, ∀ row' ∈ rows', Alike (Report.htmlRow row) (Report.htmlRow row')) :
    Alike (r.htmlPieces rows) (r'.htmlPieces rows') := by
  exact Alike.append alike_tag alike_newLine
    |>.append (alike_newLine |>.append alike_head
      |>.append (alike_newLine |>.append alike_htmlBanner |>.append (alike_htmlTable h hlength hrows)
        |>.append (alike_htmlRemarks h) |>.append alike_htmlData
        |>.append (alike_newLine.append alike_script).element |>.append alike_newLine).element
      |>.append alike_newLine).element

/-- Ranking moves rows and keeps them all. -/
theorem ordered_perm (r : Report) (sortBy : Option String) : (r.ordered sortBy).Perm r.rows := by
  cases sortBy with
  | none => exact .refl _
  | some name =>
    rw [Report.ordered, Option.elim_some, Report.rankedBy]
    split
    · exact List.mergeSort_perm _ _
    · exact .refl _

/-- Reports of the same size have pages that are alike, in whatever order their rows are. -/
theorem alike_html (h : r.SameSize r') (haligned : r.IsAligned) (haligned' : r'.IsAligned)
    (sortBy sortBy' : Option String) :
    Alike (r.htmlPieces (r.ordered sortBy)) (r'.htmlPieces (r'.ordered sortBy')) := by
  refine alike_htmlPieces h ?_ fun row hrow row' hrow' => ?_
  · rw [(ordered_perm r sortBy).length_eq, (ordered_perm r' sortBy').length_eq, h.rows]
  · obtain ⟨hcells, hscores⟩ := haligned row ((ordered_perm r sortBy).mem_iff.mp hrow)
    obtain ⟨hcells', hscores'⟩ := haligned' row' ((ordered_perm r' sortBy').mem_iff.mp hrow')
    exact alike_htmlRow (by rw [hcells, hcells', h.columns]) (by rw [hscores, hscores', h.equations])

end

/-- Escaping replaces the five characters of markup by references, the ampersand first.  Escaped text
has no other character of markup, each of its ampersands begins a reference, and replacing the
references gives the text back.  So the page of a report has the tags that it is made of and no
others, and reports of the same size, whatever they say and however they are ranked, have the same
tags. -/
theorem Report.tags_html :
    (∀ s : String,
      (escape s).toList = references.foldl replaced s.toList ∧
      (∀ c ∈ (escape s).toList, isMarkup c = false) ∧
      (∀ before after, (escape s).toList = before ++ '&' :: after →
        ∃ reference ∈ references, reference.1 <+: '&' :: after) ∧
      unescaped (escape s).toList = s.toList) ∧
    ∀ r r' : Report, r.SameSize r' → r.IsAligned → r'.IsAligned →
      ∀ sortBy sortBy' : Option String,
        tags (r.html (r.ordered sortBy)).toList =
          (r.htmlPieces (r.ordered sortBy)).filterMap Piece.tag? ∧
        tags (r.html (r.ordered sortBy)).toList = tags (r'.html (r'.ordered sortBy')).toList := by
  constructor
  · intro s
    have hescape : (escape s).toList = s.toList.flatMap escapedChar := String.toList_ofList
    rw [hescape]
    exact ⟨escaped_eq_foldl_replaced _, fun _ => isMarkup_of_mem_escaped,
      fun _ _ => exists_reference_of_escaped, unescaped_escaped _⟩
  · intro r r' h haligned haligned' sortBy sortBy'
    have hself : r.SameSize r := ⟨rfl, rfl, rfl, rfl⟩
    refine ⟨tags_render (alike_html hself haligned haligned sortBy sortBy), ?_⟩
    rw [Report.html, Report.html, tags_render (alike_html h haligned haligned' sortBy sortBy'),
      tags_render (alike_html ⟨rfl, rfl, rfl, rfl⟩ haligned' haligned' sortBy' sortBy')]

/-- A report of two rows with the given texts wherever a text may stand. -/
def filledReport (s t : String) (x : Float) : Report :=
  ⟨⟨0⟩, ⟨⟨2024, 1, 2, by decide⟩, 0, 0, 0⟩, [s], [t], [⟨t, [s], [x]⟩, ⟨s, [t], [0]⟩],
    [⟨s, some t, s⟩, ⟨t, none, s⟩], 0⟩

/-- A report whose texts look like markup. -/
def markupReport : Report := filledReport "<script>" "\"</td>&lt;" 1

/-- A report of the same size with harmless texts. -/
def plainReport : Report := filledReport "auto" "total" (-1)

/-- Texts that look like markup leave the tags as they are with harmless texts. -/
theorem tags_html_markupReport :
    markupReport.SameSize plainReport ∧ markupReport.IsAligned ∧ plainReport.IsAligned ∧
      tags (markupReport.html (markupReport.ordered (some "\"</td>&lt;"))).toList =
        tags (plainReport.html (plainReport.ordered none)).toList ∧
      unescaped (escape "\"</td>&lt;").toList = "\"</td>&lt;".toList := by
  obtain ⟨hescape, htags⟩ := Report.tags_html
  have haligned : ∀ s t x, (filledReport s t x).IsAligned := by
    intro s t x row hrow
    simp only [filledReport, List.mem_cons, List.not_mem_nil, or_false] at hrow
    rcases hrow with rfl | rfl <;> exact ⟨rfl, rfl⟩
  have hsize : markupReport.SameSize plainReport := ⟨rfl, rfl, rfl, rfl⟩
  have hsame := htags markupReport plainReport hsize (haligned _ _ _) (haligned _ _ _)
  exact ⟨hsize, haligned _ _ _, haligned _ _ _, (hsame (some "\"</td>&lt;") none).2,
    (hescape _).2.2.2⟩

end Scorecard
