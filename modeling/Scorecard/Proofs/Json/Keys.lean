import Mathlib.Data.String.Basic
import Scorecard.Toml.Document

/-!
# Keys of objects

`Json.InOrder` says that every object in a value lists its members in the strict order of their
keys, so that each key occurs once.  Every value that is read has this shape, from JSON
(`inOrder_parse`) and from TOML (`Toml.inOrder_parse`), because members go through `sortMembers`
wherever an object is made.
-/

namespace Scorecard

/-- The keys of the members are in strict order. -/
def KeysInOrder {α : Type} (members : List (String × α)) : Prop :=
  (members.map Prod.fst).Pairwise (· < ·)

/-- A member is what is found under its key. -/
theorem KeysInOrder.lookup_eq_some_iff {α : Type} {members : List (String × α)}
    (h : KeysInOrder members) {key : String} {a : α} :
    members.lookup key = some a ↔ (key, a) ∈ members := by
  induction members with
  | nil => simp
  | cons m ms ih =>
    obtain ⟨k, b⟩ := m
    obtain ⟨hfirst, hrest⟩ := List.pairwise_cons.mp h
    by_cases hkey : key = k
    · subst hkey
      have hnot : (key, a) ∉ ms := fun hmem =>
        absurd (hfirst key (List.mem_map.mpr ⟨_, hmem, rfl⟩)) (lt_irrefl key)
      simp [List.lookup_cons_self, hnot, eq_comm]
    · rw [List.lookup_cons, beq_false_of_ne hkey, ih hrest]
      simp [hkey]

/-- Two computations that are done one after the other both succeed, if the whole does. -/
theorem exists_of_do_eq_some {α β γ : Type} {x : Option α} {y : Option β} {f : α → β → γ} {c : γ}
    (h : (do let a ← x; let b ← y; return f a b) = some c) :
    ∃ a b, x = some a ∧ y = some b ∧ f a b = c := by
  obtain ⟨a, ha, h⟩ := Option.bind_eq_some_iff.mp h
  obtain ⟨b, hb, h⟩ := Option.bind_eq_some_iff.mp h
  exact ⟨a, b, ha, hb, Option.some.inj h⟩

namespace Json

/-- Every object in the value has its keys in order. -/
inductive InOrder : Json → Prop
  | null : InOrder .null
  | bool (b : Bool) : InOrder (.bool b)
  | int (n : Int) : InOrder (.int n)
  | float (x : Float) : InOrder (.float x)
  | string (s : String) : InOrder (.string s)
  | array {items : List Json} (h : ∀ v ∈ items, InOrder v) : InOrder (.array items)
  | object {members : List (String × Json)} (hkeys : KeysInOrder members)
      (h : ∀ m ∈ members, InOrder m.2) : InOrder (.object members)

/-! ## Sorted members -/

section

variable {members : List (String × Json)} {key : String} {v : Json}

theorem mem_insertMember {m : String × Json} (h : m ∈ insertMember key v members) :
    m = (key, v) ∨ m ∈ members := by
  induction members with
  | nil => simpa [insertMember] using h
  | cons n ms ih => grind [insertMember]

theorem keysInOrder_insertMember (h : KeysInOrder members) :
    KeysInOrder (insertMember key v members) := by
  induction members with
  | nil => simp [insertMember, KeysInOrder]
  | cons m ms ih =>
    obtain ⟨k, w⟩ := m
    obtain ⟨hfirst, hrest⟩ := List.pairwise_cons.mp h
    rw [insertMember]
    split_ifs with hlt heq
    · refine List.pairwise_cons.mpr ⟨fun other hother => ?_, h⟩
      rcases List.mem_cons.mp hother with rfl | hother
      · exact hlt
      · exact lt_trans hlt (hfirst other hother)
    · subst heq
      exact List.pairwise_cons.mpr ⟨hfirst, hrest⟩
    · have hafter : k < key := lt_of_le_of_ne (not_lt.mp hlt) (Ne.symm heq)
      refine List.pairwise_cons.mpr ⟨fun other hother => ?_, ih hrest⟩
      obtain ⟨m, hm, rfl⟩ := List.mem_map.mp hother
      rcases mem_insertMember hm with rfl | hm
      · exact hafter
      · exact hfirst _ (List.mem_map_of_mem hm)

/-- Whatever the members are, they are an object in order once they are sorted. -/
theorem inOrder_sortMembers (h : ∀ m ∈ members, InOrder m.2) :
    InOrder (.object (sortMembers members)) := by
  have hfold : ∀ sorted, KeysInOrder sorted → (∀ m ∈ sorted, InOrder m.2) →
      InOrder (.object (members.foldl (fun sorted m => insertMember m.1 m.2 sorted) sorted)) := by
    induction members with
    | nil => exact fun sorted hkeys hvalues => .object hkeys hvalues
    | cons m ms ih =>
      intro sorted hkeys hvalues
      refine ih (fun n hn => h n (by simp [hn])) _ (keysInOrder_insertMember hkeys) fun n hn => ?_
      rcases mem_insertMember hn with rfl | hn
      · exact h m (by simp)
      · exact hvalues n hn
  exact hfold [] .nil (by simp)

end

/-! ## JSON -/

theorem inOrder_ofNumeral? {negative : Bool} {n : Number.Numeral} {v : Json}
    (h : ofNumeral? negative n = some v) : InOrder v := by
  simp only [ofNumeral?] at h
  split at h
  · exact Option.some.inj h ▸ .int _
  · obtain ⟨x, -, rfl⟩ := Option.map_eq_some_iff.mp h
    exact .float _

namespace Document

mutual

/-- The value of a document is in order. -/
theorem inOrder_value? {depth : Nat} {d : Document} {v : Json} (h : d.value? depth = some v) :
    InOrder v := by
  cases d with
  | null => exact Option.some.inj h ▸ .null
  | bool b => exact Option.some.inj h ▸ .bool b
  | number negative n => exact inOrder_ofNumeral? h
  | string units =>
    obtain ⟨s, -, rfl⟩ := Option.map_eq_some_iff.mp h
    exact .string s
  | array items =>
    rw [value?] at h
    split at h
    · cases h
    · obtain ⟨vs, hvs, rfl⟩ := Option.map_eq_some_iff.mp h
      exact .array (inOrder_itemValues? hvs)
  | object members =>
    rw [value?] at h
    split at h
    · cases h
    · obtain ⟨ms, hms, rfl⟩ := Option.map_eq_some_iff.mp h
      exact inOrder_sortMembers (inOrder_memberValues? hms)

theorem inOrder_itemValues? {depth : Nat} {ds : List Document} {vs : List Json}
    (h : itemValues? depth ds = some vs) : ∀ v ∈ vs, InOrder v := by
  cases ds with
  | nil => simp [← Option.some.inj h]
  | cons d ds =>
    obtain ⟨v, rest, hv, hrest, rfl⟩ := exists_of_do_eq_some h
    exact List.forall_mem_cons.mpr ⟨inOrder_value? hv, inOrder_itemValues? hrest⟩

theorem inOrder_memberValues? {depth : Nat} {ms : List (List StringUnit × Document)}
    {members : List (String × Json)} (h : memberValues? depth ms = some members) :
    ∀ m ∈ members, InOrder m.2 := by
  cases ms with
  | nil => simp [← Option.some.inj h]
  | cons m ms =>
    obtain ⟨units, d⟩ := m
    obtain ⟨key, -, h⟩ := Option.bind_eq_some_iff.mp h
    obtain ⟨v, rest, hv, hrest, rfl⟩ := exists_of_do_eq_some h
    exact List.forall_mem_cons.mpr ⟨inOrder_value? hv, inOrder_memberValues? hrest⟩

end

end Document

/-- A value that is read from JSON is in order. -/
theorem inOrder_parse {cs : List Char} {v : Json} (h : parse cs = some v) : InOrder v := by
  obtain ⟨_, -, hv⟩ := Option.bind_eq_some_iff.mp h
  exact Document.inOrder_value? hv

end Json

/-! ## TOML -/

namespace Toml

open Json (InOrder inOrder_sortMembers)

theorem DateTime.inOrder_toJson (d : DateTime) : InOrder d.toJson :=
  .object (List.pairwise_singleton _ _) (by simp [InOrder.string])

mutual

/-- A value with its dates read is in order. -/
theorem inOrder_dated? {v w : Json} (h : dated? v = some w) : InOrder w := by
  cases v with
  | null => exact Option.some.inj h ▸ .null
  | bool b => exact Option.some.inj h ▸ .bool b
  | int n => exact Option.some.inj h ▸ .int n
  | float x => exact Option.some.inj h ▸ .float x
  | string s => exact Option.some.inj h ▸ .string s
  | array items =>
    obtain ⟨vs, hvs, rfl⟩ := Option.map_eq_some_iff.mp h
    exact .array (inOrder_datedItems? hvs)
  | object members =>
    cases members with
    | nil => exact Option.some.inj h ▸ .object .nil (by simp)
    | cons m members =>
      obtain ⟨key, v⟩ := m
      rw [dated?] at h
      split at h
      · obtain ⟨d, -, rfl⟩ := Option.map_eq_some_iff.mp h
        exact d.inOrder_toJson
      · obtain ⟨w, rest, hw, hrest, rfl⟩ := exists_of_do_eq_some h
        exact inOrder_sortMembers
          (List.forall_mem_cons.mpr ⟨inOrder_dated? hw, inOrder_datedMembers? hrest⟩)

theorem inOrder_datedItems? {vs ws : List Json} (h : datedItems? vs = some ws) :
    ∀ w ∈ ws, InOrder w := by
  cases vs with
  | nil => simp [← Option.some.inj h]
  | cons v vs =>
    obtain ⟨w, rest, hw, hrest, rfl⟩ := exists_of_do_eq_some h
    exact List.forall_mem_cons.mpr ⟨inOrder_dated? hw, inOrder_datedItems? hrest⟩

theorem inOrder_datedMembers? {ms ns : List (String × Json)} (h : datedMembers? ms = some ns) :
    ∀ n ∈ ns, InOrder n.2 := by
  cases ms with
  | nil => simp [← Option.some.inj h]
  | cons m ms =>
    obtain ⟨key, v⟩ := m
    obtain ⟨w, rest, hw, hrest, rfl⟩ := exists_of_do_eq_some h
    exact List.forall_mem_cons.mpr ⟨inOrder_dated? hw, inOrder_datedMembers? hrest⟩

end

/-- A value that is read from TOML is an object in order. -/
theorem inOrder_parse {cs : List Char} {v : Json} (h : parse cs = some v) : InOrder v := by
  obtain ⟨_, hms, rfl⟩ := Option.map_eq_some_iff.mp h
  obtain ⟨_, -, hdated⟩ := Option.bind_eq_some_iff.mp hms
  exact inOrder_sortMembers (inOrder_datedMembers? hdated)

end Toml

end Scorecard
