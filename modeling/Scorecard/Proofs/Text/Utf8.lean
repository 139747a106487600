import Scorecard.Text.Utf8

/-!
# Bytes and characters

A text that is cut between characters has its bytes cut at the offset of the cut.

* `utf8_toList`: the bytes of the characters of a string are the bytes of the string.
* `isValid_iff`: an offset is a position in a string exactly if a cut between characters is there.
* `slice?_append`: what stands between two such cuts is the slice.
* `Mirrors`: a test of bytes says of the first byte of every character what a test of characters
  says of the character, and holds of no other byte.
-/

namespace Scorecard.Text

variable {cs before after slice : List Char} {c : Char}

/-! ## Bytes -/

@[simp] theorem utf8_nil : utf8 [] = [] := rfl

theorem utf8_cons (c : Char) (cs : List Char) :
    utf8 (c :: cs) = String.utf8EncodeChar c ++ utf8 cs := by
  rw [utf8, utf8, List.flatMap_cons]

@[simp] theorem utf8_append (cs ds : List Char) : utf8 (cs ++ ds) = utf8 cs ++ utf8 ds := by
  rw [utf8, utf8, utf8, List.flatMap_append]

theorem length_utf8_cons (c : Char) (cs : List Char) :
    (utf8 (c :: cs)).length = c.utf8Size + (utf8 cs).length := by
  rw [utf8_cons, List.length_append, String.length_utf8EncodeChar]

/-- The bytes of a string. -/
theorem utf8_toList (s : String) : utf8 s.toList = s.toUTF8.data.toList := by
  have h : s.toUTF8 = s.toList.utf8Encode := by
    rw [← String.toByteArray_ofList, String.ofList_toList, String.toUTF8_eq_toByteArray]
  rw [h, List.utf8Encode, List.data_toByteArray]
  rfl

theorem length_utf8_toList (s : String) : (utf8 s.toList).length = s.utf8ByteSize := by
  rw [utf8_toList]
  rfl

/-- Texts with bytes are not empty. -/
theorem utf8_eq_nil_iff : utf8 cs = [] ↔ cs = [] := by
  cases cs with
  | nil => simp
  | cons c cs => simp [utf8_cons]

/-- The longer of two beginnings of a text has more bytes. -/
theorem length_utf8_le_iff {first second : List Char} (hfirst : first <+: cs)
    (hsecond : second <+: cs) :
    (utf8 first).length ≤ (utf8 second).length ↔ first.length ≤ second.length := by
  rcases List.prefix_or_prefix_of_prefix hfirst hsecond with ⟨more, rfl⟩ | ⟨more, rfl⟩
  · simp
  · rw [utf8_append, List.length_append, List.length_append]
    have hmore : (utf8 more).length = 0 ↔ more.length = 0 := by
      rw [List.length_eq_zero_iff, List.length_eq_zero_iff, utf8_eq_nil_iff]
    omega

/-! ## Tests of bytes -/

theorem utf8EncodeChar_of_ascii (h : c.toNat < 128) :
    String.utf8EncodeChar c = [UInt8.ofNat c.toNat] := by
  have hle : c.val.toNat ≤ 0x7f := Nat.le_of_lt_succ h
  rw [String.utf8EncodeChar]
  exact if_pos hle

/-- A character has a first byte. -/
theorem exists_utf8EncodeChar_eq_cons (c : Char) :
    ∃ b bs, String.utf8EncodeChar c = b :: bs :=
  List.exists_cons_of_ne_nil String.utf8EncodeChar_ne_nil

/-- A character beyond ASCII has no byte of ASCII in its form. -/
theorem le_of_mem_utf8EncodeChar (h : 128 ≤ c.toNat) {b : UInt8}
    (hb : b ∈ String.utf8EncodeChar c) : 128 ≤ b.toNat := by
  have hwide : ¬ c.val.toNat ≤ 0x7f := Nat.not_le_of_lt h
  simp only [String.utf8EncodeChar, hwide, if_false] at hb
  split at hb
  · simp only [List.mem_cons, List.not_mem_nil, or_false] at hb
    rcases hb with rfl | rfl <;> simp only [UInt8.toNat_ofNat'] <;> omega
  · split at hb
    · simp only [List.mem_cons, List.not_mem_nil, or_false] at hb
      rcases hb with rfl | rfl | rfl <;> simp only [UInt8.toNat_ofNat'] <;> omega
    · simp only [List.mem_cons, List.not_mem_nil, or_false] at hb
      rcases hb with rfl | rfl | rfl | rfl <;> simp only [UInt8.toNat_ofNat'] <;> omega

/-- A test of bytes is the same as a test of characters: the two agree on ASCII, and neither holds
of anything else. -/
structure Mirrors (p : UInt8 → Bool) (q : Char → Bool) : Prop where
  agree : ∀ n < 128, p (UInt8.ofNat n) = q (Char.ofNat n)
  low : ∀ n < 128, p (UInt8.ofNat (n + 128)) = false
  ascii : ∀ c : Char, q c = true → c.toNat < 128

section

variable {p : UInt8 → Bool} {q : Char → Bool}

/-- No byte beyond ASCII passes the test. -/
theorem Mirrors.of_le (h : Mirrors p q) {b : UInt8} (hb : 128 ≤ b.toNat) : p b = false := by
  have hlt := b.toNat_lt
  have hlow := h.low (b.toNat - 128) (by omega)
  rwa [Nat.sub_add_cancel hb, UInt8.ofNat_toNat] at hlow

/-- What the tests say of the first byte and of the character is the same. -/
theorem Mirrors.head (h : Mirrors p q) {b : UInt8} {bs : List UInt8}
    (hbytes : String.utf8EncodeChar c = b :: bs) : p b = q c := by
  rcases Nat.lt_or_ge c.toNat 128 with hc | hc
  · rw [utf8EncodeChar_of_ascii hc, List.cons.injEq] at hbytes
    rw [← hbytes.1, h.agree _ hc, Char.ofNat_toNat]
  · rw [h.of_le (le_of_mem_utf8EncodeChar hc (by simp [hbytes]))]
    exact (Bool.eq_false_iff.mpr fun hq => Nat.not_lt.mpr hc (h.ascii c hq)).symm

/-- A character that passes the test has one byte. -/
theorem Mirrors.utf8Size_eq_one (h : Mirrors p q) (hc : q c = true) : c.utf8Size = 1 := by
  rw [← String.length_utf8EncodeChar, utf8EncodeChar_of_ascii (h.ascii c hc),
    List.length_singleton]

end

/-! ## Offsets -/

theorem splitOffset?_append (before after : List Char) :
    splitOffset? (utf8 before).length (before ++ after) = some (before, after) := by
  induction before with
  | nil => rw [splitOffset?.eq_def]; rfl
  | cons c before ih =>
    have hpos := c.utf8Size_pos
    obtain ⟨n, hn⟩ : ∃ n, c.utf8Size + (utf8 before).length = n + 1 :=
      ⟨c.utf8Size + (utf8 before).length - 1, by omega⟩
    rw [length_utf8_cons, hn, List.cons_append, splitOffset?, if_pos (by omega), ← hn,
      Nat.add_sub_cancel_left, ih]
    rfl

/-- What stands between two cuts is a slice. -/
theorem slice?_append (before slice after : List Char) :
    slice? (utf8 before).length (utf8 (before ++ slice)).length (before ++ slice ++ after) =
      some slice := by
  have hsub : (utf8 (before ++ slice)).length - (utf8 before).length = (utf8 slice).length := by
    rw [utf8_append, List.length_append]
    omega
  have hle : ¬ (utf8 (before ++ slice)).length < (utf8 before).length := by
    rw [utf8_append, List.length_append]
    omega
  rw [slice?, if_neg hle, hsub, List.append_assoc]
  simp [splitOffset?_append]

/-- An offset is a position in a string exactly if a cut between characters is there. -/
theorem isValid_iff {s : String} {i : Nat} : (⟨i⟩ : String.Pos.Raw).IsValid s ↔
    ∃ before after, s.toList = before ++ after ∧ i = (utf8 before).length := by
  rw [String.Pos.Raw.isValid_iff_exists_append]
  constructor
  · rintro ⟨first, second, rfl, hi⟩
    refine ⟨first.toList, second.toList, String.toList_append, ?_⟩
    rw [length_utf8_toList]
    exact congrArg String.Pos.Raw.byteIdx hi
  · rintro ⟨before, after, hs, rfl⟩
    refine ⟨String.ofList before, String.ofList after, ?_, ?_⟩
    · rw [← String.toList_inj, hs]
      simp
    · rw [← String.toList_ofList (l := before), length_utf8_toList, String.ofList_toList]
      rfl

end Scorecard.Text
