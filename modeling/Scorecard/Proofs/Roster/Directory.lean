import Mathlib.Data.List.Sort
import Mathlib.Data.String.Basic
import Scorecard.Proofs.Batch.Reading
import Scorecard.Proofs.Report.Stamps

/-!
# Teams of a directory

The teams of a directory are those of its files with records, in the order of the file names.  The
order in which the directory lists the names does not matter, and no file has a say in what is taken
from another one (`Roster.loadDirectory_isolated`).

* `isRecordFile_iff` says which names are those of files with records.
* `Takes` lists what is taken from each file.  Names in order are determined by the names that are
  there, so there is one such list (`takes_iff`), and the teams are its teams put together.
* Two directories that have some files in common agree on what is taken from these
  (`View.filter_taken_eq`).
* From a name that is `Idle`, because it is not that of a file with records or because the file
  cannot be used, nothing is taken.
-/

namespace Scorecard

open Roster (isRecordFile recordPaths ofText loadFile loadDirectory Outcome)

/-! ## Names of files -/

/-- An extension is what follows the last point of a name, unless nothing stands in front of it. -/
theorem extension?_eq_some_iff {name ending : List Char} : extension? name = some ending ↔
    ∃ stem, stem ≠ [] ∧ '.' ∉ ending ∧ name = stem ++ '.' :: ending := by
  constructor
  · intro h
    have hpoint : ∀ c ∈ name.reverse.takeWhile (· ≠ '.'), c ≠ '.' := by
      intro c hc
      simpa using List.all_eq_true.mp List.all_takeWhile c hc
    have hhead := List.head?_dropWhile_not (fun c : Char => decide (c ≠ '.')) name.reverse
    have hparts : name.reverse.takeWhile (· ≠ '.') ++ name.reverse.dropWhile (· ≠ '.') =
        name.reverse := List.takeWhile_append_dropWhile
    unfold extension? at h
    dsimp only at h
    generalize name.reverse.takeWhile (· ≠ '.') = behind at h hpoint hparts
    generalize name.reverse.dropWhile (· ≠ '.') = before at hhead hparts
    have hname : name = before.reverse ++ behind.reverse := by
      rw [← List.reverse_append, hparts, List.reverse_reverse]
    subst hname
    match before with
    | [] => simp at h
    | [_] => simp at h
    | c :: d :: rest =>
      obtain rfl : c = '.' := by simpa using hhead
      obtain ⟨-, rfl⟩ : _ ∧ behind.reverse = ending := by simpa using h
      exact ⟨(d :: rest).reverse, by simp, fun hmem => hpoint '.' (by simpa using hmem) rfl,
        by simp⟩
  · rintro ⟨stem, hstem, hpoint, rfl⟩
    have hall : ∀ c ∈ ending.reverse, decide (c ≠ '.') = true := by
      intro c hc
      simp only [decide_eq_true_eq]
      rintro rfl
      exact hpoint (by simpa using hc)
    have hending : (stem ++ '.' :: ending).reverse.takeWhile (· ≠ '.') = ending.reverse := by
      rw [List.reverse_append, List.reverse_cons, List.append_assoc,
        List.takeWhile_append_of_pos hall]
      simp
    have hlength : 0 < stem.length := List.length_pos_iff.mpr hstem
    unfold extension?
    rw [hending, List.reverse_reverse]
    dsimp only
    rw [if_pos (by simp only [List.length_append, List.length_cons]; omega)]

/-- A file has records if something stands in front of one of the two endings of its name. -/
theorem isRecordFile_iff {name : String} : isRecordFile name = true ↔
    ∃ stem, stem ≠ [] ∧
      (name.toList = stem ++ ".json".toList ∨ name.toList = stem ++ ".toml".toList) := by
  have hpoint : '.' ∉ "json".toList ∧ '.' ∉ "toml".toList := by decide
  have hending : ∀ ending, '.' ∉ ending → (extension? name.toList = some ending ↔
      ∃ stem, stem ≠ [] ∧ name.toList = stem ++ '.' :: ending) := by
    intro ending h
    rw [extension?_eq_some_iff]
    simp [h]
  simp only [isRecordFile, Bool.or_eq_true, decide_eq_true_eq, hending _ hpoint.1,
    hending _ hpoint.2, ← exists_or, ← and_or_left]
  rfl
/-! ## Views -/

namespace View

variable (v : View) (directory key : String)

/-- Whether a name in a directory is that of a file with records. -/
def isEligible (name : String) : Bool :=
  isRecordFile name && v.isFile (joinPath directory name)

/-- The teams of a file, which has none if it cannot be used. -/
def teamsAt (path : String) : List Team :=
  match (ofText path key (v.readText path)).result with
  | .ok teams => teams
  | .error _ => []

/-- The names of the files with records among the names in a directory, in order. -/
def eligible (names : List String) : List String :=
  ((names.filter isRecordFile).mergeSort fun a b => a ≤ b).filter fun name =>
    v.isFile (joinPath directory name)

/-- What is taken from each file with records. -/
def taken (names : List String) : List (String × List Team) :=
  (v.eligible directory names).map fun name => (name, v.teamsAt key (joinPath directory name))

variable {v directory key} {names : List String}

theorem pairwise_eligible : (v.eligible directory names).Pairwise (· ≤ ·) :=
  (List.pairwise_mergeSort' (· ≤ ·) _).filter _

theorem eligible_perm :
    (v.eligible directory names).Perm (names.filter (v.isEligible directory)) := by
  have hfilter : names.filter (v.isEligible directory) =
      (names.filter isRecordFile).filter fun name => v.isFile (joinPath directory name) := by
    rw [List.filter_filter]
    exact List.filter_congr fun name _ => Bool.and_comm ..
  rw [hfilter]
  exact (List.mergeSort_perm _ _).filter _

theorem mem_eligible_iff {name : String} :
    name ∈ v.eligible directory names ↔ name ∈ names ∧ v.isEligible directory name = true := by
  rw [eligible_perm.mem_iff, List.mem_filter]

/-- The teams of a directory are what is taken from its files, put together. -/
theorem teams_eq_flatMap_taken :
    v.teams directory key names = (v.taken directory key names).flatMap Prod.snd := by
  have houtcomes : v.outcomes directory key names = (v.eligible directory names).map fun name =>
      (joinPath directory name,
        ofText (joinPath directory name) key (v.readText (joinPath directory name))) := by
    rw [outcomes, recordPaths, List.filter_map, List.map_map]
    rfl
  rw [teams, houtcomes, taken, List.flatMap_map, List.flatMap_map]
  rfl

/-- Two directories that have the same files under some names have the same of these names in
order. -/
theorem filter_eligible_eq {v' : View} {names' : List String} {kept : String → Bool}
    (hnames : (names.filter kept).Perm (names'.filter kept))
    (hfiles : ∀ name ∈ names, kept name = true →
      v.isFile (joinPath directory name) = v'.isFile (joinPath directory name)) :
    (v.eligible directory names).filter kept = (v'.eligible directory names').filter kept := by
  have hsame : (names.filter kept).filter (v.isEligible directory) =
      (names.filter kept).filter (v'.isEligible directory) := by
    refine List.filter_congr fun name hname => ?_
    obtain ⟨hmem, hkept⟩ := List.mem_filter.mp hname
    rw [isEligible, isEligible, hfiles name hmem hkept]
  have hswap : ∀ (w : View) (ns : List String), ((w.eligible directory ns).filter kept).Perm
      ((ns.filter kept).filter (w.isEligible directory)) := by
    intro w ns
    rw [List.filter_filter, List.filter_congr fun _ _ => Bool.and_comm .., ← List.filter_filter]
    exact eligible_perm.filter _
  refine List.Perm.eq_of_pairwise' (pairwise_eligible.filter _) (pairwise_eligible.filter _) ?_
  have hfirst := hswap v names
  rw [hsame] at hfirst
  exact hfirst.trans ((hnames.filter _).trans (hswap v' names').symm)

/-- Two directories that have the same files under some names agree on what is taken from them. -/
theorem filter_taken_eq (key : String) {v' : View} {names' : List String} {kept : String → Bool}
    (hnames : (names.filter kept).Perm (names'.filter kept))
    (hfiles : ∀ name ∈ names, kept name = true →
      v.isFile (joinPath directory name) = v'.isFile (joinPath directory name) ∧
        v.readText (joinPath directory name) = v'.readText (joinPath directory name)) :
    (v.taken directory key names).filter (fun t => kept t.1) =
      (v'.taken directory key names').filter fun t => kept t.1 := by
  have hfilter : ∀ (w : View) (ns : List String),
      (w.taken directory key ns).filter (fun t => kept t.1) =
        ((w.eligible directory ns).filter kept).map fun name =>
          (name, w.teamsAt key (joinPath directory name)) := fun w ns => List.filter_map
  have heligible := filter_eligible_eq hnames fun name hname hkept => (hfiles name hname hkept).1
  rw [hfilter, hfilter, ← heligible]
  refine List.map_congr_left fun name hname => ?_
  obtain ⟨hmem, hkept⟩ := List.mem_filter.mp hname
  rw [teamsAt, teamsAt, (hfiles name (mem_eligible_iff.mp hmem).1 hkept).2]

end View

/-- Leaving out what is mapped to nothing changes nothing. -/
theorem flatMap_filter_of_eq_nil {α β : Type} {f : α → List β} {p : α → Bool} {as : List α}
    (h : ∀ a ∈ as, p a = false → f a = []) : (as.filter p).flatMap f = as.flatMap f := by
  induction as with
  | nil => rfl
  | cons a as ih =>
    have hrest := ih fun b hb => h b (by simp [hb])
    rw [List.flatMap_cons]
    cases hp : p a with
    | true => rw [List.filter_cons_of_pos hp, List.flatMap_cons, hrest]
    | false => rw [List.filter_cons_of_neg (by simp [hp]), hrest, h a (by simp) hp, List.nil_append]

/-! ## States -/

namespace Roster

variable {σ : Type} [Workspace (StateM σ)] [Observed σ]

section

variable (s s' : σ) (directory key : String) (names : List String)

/-- The directory is there, and these are the names in it, as it lists them. -/
structure Holds : Prop where
  isDirectory : (viewOf s).isDirectory directory = true
  names_eq : (viewOf s).names directory = .ok names

/-- A path leads to the same in both states: to a file with the same text, or to no file. -/
structure SameFile (path : String) : Prop where
  isFile_eq : (viewOf s).isFile path = (viewOf s').isFile path
  readText_eq : (viewOf s).readText path = (viewOf s').readText path

/-- The reading of a file yields an outcome. -/
def FileYields (path : String) (result : Except RecordFault (List Team)) : Prop :=
  ∃ notices, ((loadFile path key : Attempt σ _).run.run s).1 = .ok ⟨result, notices⟩

/-- The reading of a directory yields teams. -/
def DirectoryYields (teams : List Team) : Prop :=
  ∃ notices, ((loadDirectory directory key : Attempt σ _).run.run s).1 = .ok ⟨.ok teams, notices⟩

/-- What is taken from the files of a directory: in the order of the names, each file with records
and its teams, or none if it cannot be used. -/
structure Takes (taken : List (String × List Team)) : Prop where
  sorted : (taken.map Prod.fst).Pairwise (· ≤ ·)
  perm : (taken.map Prod.fst).Perm (names.filter ((viewOf s).isEligible directory))
  teams : ∀ t ∈ taken, FileYields s key (joinPath directory t.1) (.ok t.2) ∨
    t.2 = [] ∧ ∃ fault, FileYields s key (joinPath directory t.1) (.error fault)

/-- Nothing is taken from what has a name: it is no file with records, or it cannot be used. -/
def Idle (name : String) : Prop :=
  (viewOf s).isEligible directory name = false ∨
    ∃ fault, FileYields s key (joinPath directory name) (.error fault)

end

variable {s s' : σ} {directory key : String} {names names' : List String}

theorem fileYields_iff {path : String} {result : Except RecordFault (List Team)} :
    FileYields s key path result ↔
      (ofText path key ((viewOf s).readText path)).result = result := by
  have hreads : Reads (loadFile path key : Attempt σ _)
      fun v => .ok (ofText path key (v.readText path)) :=
    (Reads.readText path).bind_ok fun text => Reads.pure (ofText path key text)
  rw [FileYields, (hreads s).1]
  constructor
  · rintro ⟨notices, h⟩
    rw [Except.ok.inj h]
  · rintro rfl
    exact ⟨_, rfl⟩

/-- What is taken from a file is determined by the reading of it. -/
theorem teamsAt_eq_iff {path : String} {teams : List Team} :
    (FileYields s key path (.ok teams) ∨ teams = [] ∧ ∃ fault, FileYields s key path (.error fault)) ↔
      teams = (viewOf s).teamsAt key path := by
  simp only [fileYields_iff, View.teamsAt]
  cases (ofText path key ((viewOf s).readText path)).result with
  | ok ts => simp [eq_comm]
  | error fault => simp

/-- There is one list of what is taken from the files of a directory. -/
theorem takes_iff {taken : List (String × List Team)} :
    Takes s directory key names taken ↔ taken = (viewOf s).taken directory key names := by
  constructor
  · rintro ⟨hsorted, hperm, hteams⟩
    have hnames : taken.map Prod.fst = (viewOf s).eligible directory names :=
      List.Perm.eq_of_pairwise' hsorted View.pairwise_eligible
        (hperm.trans View.eligible_perm.symm)
    rw [View.taken, ← hnames, List.map_map]
    refine (List.map_id taken).symm.trans (List.map_congr_left fun t ht => ?_)
    exact Prod.ext rfl (teamsAt_eq_iff.mp (hteams t ht))
  · rintro rfl
    have hnames : ((viewOf s).taken directory key names).map Prod.fst =
        (viewOf s).eligible directory names := by
      rw [View.taken, List.map_map]
      exact List.map_id _
    refine ⟨hnames ▸ View.pairwise_eligible, hnames ▸ View.eligible_perm, fun t ht => ?_⟩
    obtain ⟨name, -, rfl⟩ := List.mem_map.mp ht
    exact teamsAt_eq_iff.mpr rfl

/-- The teams of a directory are what is taken from its files, put together. -/
theorem directoryYields_taken (h : Holds s directory names) :
    DirectoryYields s directory key
      (((viewOf s).taken directory key names).flatMap Prod.snd) := by
  refine ⟨((viewOf s).roster directory key).notices, ?_⟩
  rw [(Reads.roster directory key s).1, ← View.teams_eq_flatMap_taken,
    ← View.result_roster h.isDirectory h.names_eq]

/-- Leaving out names from which nothing is taken changes no teams. -/
theorem flatMap_filter_taken {kept : String → Bool}
    (h : ∀ name ∈ names, kept name = false → Idle s directory key name) :
    (((viewOf s).taken directory key names).filter fun t => kept t.1).flatMap Prod.snd =
      ((viewOf s).taken directory key names).flatMap Prod.snd := by
  refine flatMap_filter_of_eq_nil fun t ht hkept => ?_
  obtain ⟨name, hname, rfl⟩ := List.mem_map.mp ht
  obtain ⟨hmem, heligible⟩ := View.mem_eligible_iff.mp hname
  rcases h name hmem hkept with hno | hfault
  · rw [heligible] at hno
    cases hno
  · exact (teamsAt_eq_iff.mp (.inr ⟨rfl, hfault⟩)).symm

/-- The teams of a directory are those of its files with records that can be used, in the order of
the names.  Let two directories have the same files under the names that are kept, in whatever order
these are listed.  Then the same is taken from each of these files, and if the other names are idle
in both directories, the directories have the same teams. -/
theorem loadDirectory_isolated (h : Holds s directory names) (h' : Holds s' directory names')
    (key : String) (kept : String → Bool)
    (hnames : (names.filter kept).Perm (names'.filter kept))
    (hfiles : ∀ name ∈ names, kept name = true → SameFile s s' (joinPath directory name)) :
    ∃ taken taken' : List (String × List Team),
      (∀ other, Takes s directory key names other ↔ other = taken) ∧
      (∀ other, Takes s' directory key names' other ↔ other = taken') ∧
      DirectoryYields s directory key (taken.flatMap Prod.snd) ∧
      DirectoryYields s' directory key (taken'.flatMap Prod.snd) ∧
      taken.filter (fun t => kept t.1) = taken'.filter (fun t => kept t.1) ∧
      ((∀ name ∈ names, kept name = false → Idle s directory key name) →
        (∀ name ∈ names', kept name = false → Idle s' directory key name) →
        taken.flatMap Prod.snd = taken'.flatMap Prod.snd) := by
  have hkept := View.filter_taken_eq key hnames fun name hname hk =>
    ⟨(hfiles name hname hk).isFile_eq, (hfiles name hname hk).readText_eq⟩
  refine ⟨_, _, fun _ => takes_iff, fun _ => takes_iff, directoryYields_taken h,
    directoryYields_taken h', hkept, fun hidle hidle' => ?_⟩
  rw [← flatMap_filter_taken hidle, ← flatMap_filter_taken hidle', hkept]

/-- A world with texts in the files of a directory. -/
def shelf (files : List (String × String)) : World where
  files := files.foldr (fun f t => t.withFile ["teams", f.1] f.2.toUTF8) .empty
  environment := []
  time := .leapSecond
  identifier := ⟨0⟩
  output := ""
  messages := ""

/-- Two files with a team each, and one that cannot be used. -/
def spoiled : World :=
  shelf [("b.json", "\x7b\"team_num\": 254\x7d"), ("a.json", "[\x7b\"team_num\": 118\x7d]"),
    ("c.json", "\x7b not json")]

/-- The two files, listed in the other order, and one without records. -/
def tidied : World :=
  shelf [("a.json", "[\x7b\"team_num\": 118\x7d]"), ("notes.txt", ""),
    ("b.json", "\x7b\"team_num\": 254\x7d")]

/-- Both directories have the teams of the two files, in the order of their names. -/
theorem loadDirectory_isolated_tidied : ∃ teams,
    DirectoryYields spoiled "teams" "team_num" teams ∧
      DirectoryYields tidied "teams" "team_num" teams ∧ teams.map Team.number = ["118", "254"] := by
  have hspoiled : Holds spoiled "teams" ["b.json", "a.json", "c.json"] :=
    ⟨by decide +kernel, by decide +kernel⟩
  have htidied : Holds tidied "teams" ["a.json", "notes.txt", "b.json"] :=
    ⟨by decide +kernel, by decide +kernel⟩
  have hsame : ∀ name ∈ ["a.json", "b.json"],
      SameFile spoiled tidied (joinPath "teams" name) := by
    have hall : ∀ name ∈ ["a.json", "b.json"],
        (viewOf spoiled).isFile (joinPath "teams" name) =
            (viewOf tidied).isFile (joinPath "teams" name) ∧
          (viewOf spoiled).readText (joinPath "teams" name) =
            (viewOf tidied).readText (joinPath "teams" name) := by
      decide +kernel
    exact fun name hname => ⟨(hall name hname).1, (hall name hname).2⟩
  have hfiles : ∀ name ∈ ["b.json", "a.json", "c.json"],
      ["a.json", "b.json"].contains name = true →
        SameFile spoiled tidied (joinPath "teams" name) :=
    fun name _ hkept => hsame name (by simpa using hkept)
  obtain ⟨taken, taken', htakes, -, hyields, hyields', -, hidle⟩ := loadDirectory_isolated
    hspoiled htidied "team_num" ["a.json", "b.json"].contains (by decide +kernel) hfiles
  have hteams : taken.flatMap Prod.snd = taken'.flatMap Prod.snd := by
    refine hidle ?_ ?_
    · have hunusable : Idle spoiled "teams" "team_num" "c.json" :=
        .inr ⟨.unparseable "teams/c.json", fileYields_iff.mpr (by decide +kernel)⟩
      simpa using hunusable
    · have hother : Idle tidied "teams" "team_num" "notes.txt" := .inl (by decide +kernel)
      simpa using hother
  have htaken : Takes spoiled "teams" "team_num" ["b.json", "a.json", "c.json"]
      [("a.json", [⟨"118", [("team_num", "118")]⟩]), ("b.json", [⟨"254", [("team_num", "254")]⟩]),
        ("c.json", [])] := by
    refine ⟨by decide +kernel, by decide +kernel, ?_⟩
    simp only [List.forall_mem_cons, teamsAt_eq_iff]
    exact ⟨by decide +kernel, by decide +kernel, by decide +kernel, by simp⟩
  refine ⟨_, hyields, hteams ▸ hyields', ?_⟩
  rw [← (htakes _).mp htaken]
  rfl

end Roster

end Scorecard
