import GraphBase.Proofs.Value.Stored

/-!
# The grammar of literals

A word on the command line may be a truth value, a number or a text, and nothing but its spelling
says which.  The readers of integers and of floating point numbers are tried one after the other,
so this module has two things to say.

## What is a number

The grammar is given without a reader: an optional sign (`Signed`), digits (`IsDigits`), an
exponent (`IsExponent`), a decimal number (`IsDecimal`), one of three words in any case (`IsWord`).
Each reader succeeds on the grammar and on nothing else.  A sign is where the two could part: a
reader takes it if there is one, whereas `Signed` would also let it stand, so it matters that
nothing that may follow a sign begins with one (`exists_signed_iff`).

Both grammars are decidable by their readers, and the integers are among the decimal numbers.  An
integer that does not fit 64 bits is therefore a floating point number, and not a text.

## What is what

`Scalar.IsClassified` says for every kind of scalar which words it is read from.  The kinds
exclude one another, since a reader has one answer, and exhaust all words, since it always has one.
A scalar that is displayed is read back, except for a floating point number, whose display need not
even be one (a large number is displayed with its digits and no point, and those may be read as an
integer).
-/

namespace GraphBase
namespace Scalar

open GraphBase.Number

variable {cs body ds : List Char} {negative : Bool}

/-! ## Signs -/

/-- The characters are an optional sign and what stands behind it; `true` stands for minus. -/
inductive Signed : Bool → List Char → List Char → Prop
  | none (body : List Char) : Signed false body body
  | plus (body : List Char) : Signed false ('+' :: body) body
  | minus (body : List Char) : Signed true ('-' :: body) body

/-- The characters begin with a sign. -/
def BeginsWithSign (cs : List Char) : Prop := ∃ c ∈ cs.head?, c = '+' ∨ c = '-'

theorem signed_takeSign (cs : List Char) : Signed (takeSign cs).1 cs (takeSign cs).2 := by
  unfold takeSign
  split
  · exact .minus _
  · exact .plus _
  · exact .none _

theorem takeSign_of_signed (h : Signed negative cs body) (hbody : ¬ BeginsWithSign body) :
    takeSign cs = (negative, body) := by
  cases h with
  | plus => rfl
  | minus => rfl
  | none =>
    unfold takeSign
    split
    · exact absurd ⟨'-', rfl, .inr rfl⟩ hbody
    · exact absurd ⟨'+', rfl, .inl rfl⟩ hbody
    · rfl

/-- **A sign is taken** whenever what may follow it does not begin with one. -/
theorem exists_signed_iff {P : Bool → List Char → Prop}
    (hP : ∀ negative body, P negative body → ¬ BeginsWithSign body) :
    (∃ negative body, Signed negative cs body ∧ P negative body) ↔
      P (takeSign cs).1 (takeSign cs).2 := by
  constructor
  · rintro ⟨negative, body, hsigned, h⟩
    rwa [takeSign_of_signed hsigned (hP negative body h)]
  · intro h
    exact ⟨_, _, signed_takeSign cs, h⟩

/-! ## Integers -/

/-- One or more digits. -/
def IsDigits (ds : List Char) : Prop := ds ≠ [] ∧ ∀ c ∈ ds, isDigit c = true

/-- The characters write an integer: an optional sign and one or more digits. -/
def IsInteger (cs : List Char) (i : Int) : Prop :=
  ∃ negative ds, Signed negative cs ds ∧ IsDigits ds ∧
    i = if negative then -(ofDigits ds : Int) else ofDigits ds

theorem not_isDigits_iff : (ds.isEmpty || !ds.all isDigit) = true ↔ ¬ IsDigits ds := by
  unfold IsDigits
  rw [Bool.or_eq_true, List.isEmpty_iff, Bool.not_eq_true', ← Bool.not_eq_true, List.all_eq_true,
    not_and_or, not_not]

theorem not_beginsWithSign_of_isDigit (h : ∀ c ∈ cs.head?, isDigit c = true) :
    ¬ BeginsWithSign cs := by
  rintro ⟨c, hc, rfl | rfl⟩
  · exact absurd (h _ hc) (by decide)
  · exact absurd (h _ hc) (by decide)

theorem IsDigits.not_beginsWithSign (h : IsDigits ds) : ¬ BeginsWithSign ds :=
  not_beginsWithSign_of_isDigit fun c hc => h.2 c (List.mem_of_mem_head? hc)

theorem isInteger_iff {i : Int} : IsInteger cs i ↔ IsDigits (takeSign cs).2 ∧
    i = if (takeSign cs).1 then -(ofDigits (takeSign cs).2 : Int) else ofDigits (takeSign cs).2 :=
  exists_signed_iff fun _ _ h => h.1.not_beginsWithSign

theorem fitsInt64_iff {i : Int} : fitsInt64 i = true ↔ -2 ^ 63 ≤ i ∧ i < 2 ^ 63 := by
  rw [fitsInt64, Bool.and_eq_true, decide_eq_true_iff, decide_eq_true_iff]
  rfl

/-- **The reader of integers** succeeds on the integers that fit 64 bits, and gives their value. -/
theorem readInt?_eq_some_iff {i : Int64} : readInt? cs = some i ↔ IsInteger cs i.toInt := by
  rw [isInteger_iff]
  unfold readInt?
  simp only
  generalize (if (takeSign cs).1 then -(ofDigits (takeSign cs).2 : Int)
    else ofDigits (takeSign cs).2) = value
  by_cases hdigits : IsDigits (takeSign cs).2
  · rw [if_neg fun hno => not_isDigits_iff.1 hno hdigits, and_iff_right hdigits]
    by_cases hfits : fitsInt64 value = true
    · rw [if_pos hfits, Option.some_inj, ← Int64.toInt_inj]
      obtain ⟨hle, hlt⟩ := fitsInt64_iff.1 hfits
      rw [Int64.toInt_ofInt_of_le hle hlt, eq_comm]
    · rw [if_neg hfits]
      constructor
      · intro h
        cases h
      · rintro rfl
        exact absurd (fitsInt64_toInt i) hfits
  · rw [if_pos (not_isDigits_iff.2 hdigits)]
    constructor
    · intro h
      cases h
    · exact fun h => absurd h.1 hdigits

/-- What is displayed for an integer is the integer. -/
theorem isInteger_integerText (i : Int) : IsInteger (integerText i).toList i := by
  unfold integerText
  rw [String.toList_ofList]
  have hdigits : IsDigits (toDigits i.natAbs) :=
    ⟨toDigits_ne_nil _, fun c hc => isDigit_of_mem_toDigits hc⟩
  by_cases hneg : i < 0
  · rw [if_pos hneg]
    refine ⟨true, _, .minus _, hdigits, ?_⟩
    rw [ofDigits_toDigits, if_pos rfl]
    omega
  · rw [if_neg hneg]
    refine ⟨false, _, .none _, hdigits, ?_⟩
    rw [ofDigits_toDigits, if_neg Bool.false_ne_true]
    omega

/-! ## Decimal numbers -/

/-- The characters are nothing, or an exponent: its mark and an integer. -/
def IsExponent (cs : List Char) : Prop :=
  cs = [] ∨ ∃ mark rest i, (mark = 'e' ∨ mark = 'E') ∧ cs = mark :: rest ∧ IsInteger rest i

/-- The characters write a decimal number: digits with a point at will, at least one of them on
either side of it, and an exponent at will. -/
inductive IsDecimal : List Char → Prop
  | whole (ds exponent : List Char) (h : IsDigits ds) (hexponent : IsExponent exponent) :
      IsDecimal (ds ++ exponent)
  | withPoint (a b exponent : List Char) (h : IsDigits (a ++ b))
      (hexponent : IsExponent exponent) : IsDecimal (a ++ '.' :: (b ++ exponent))

theorem isExponent_cons_iff {mark : Char} {rest : List Char} : IsExponent (mark :: rest) ↔
    (mark = 'e' ∨ mark = 'E') ∧ IsDigits (takeSign rest).2 := by
  constructor
  · rintro (h | ⟨mark', rest', i, hmark, h, hi⟩)
    · cases h
    · obtain ⟨rfl, rfl⟩ := List.cons.inj h
      exact ⟨hmark, (isInteger_iff.1 hi).1⟩
  · rintro ⟨hmark, hdigits⟩
    exact .inr ⟨mark, rest, _, hmark, rfl, isInteger_iff.2 ⟨hdigits, rfl⟩⟩

theorem isSome_readExponent?_iff : (readExponent? cs).isSome = true ↔ IsExponent cs := by
  cases cs with
  | nil => exact iff_of_true rfl (.inl rfl)
  | cons mark rest =>
    rw [isExponent_cons_iff]
    unfold readExponent?
    simp only
    by_cases hmark : mark = 'e' ∨ mark = 'E'
    · rw [if_pos hmark, and_iff_right hmark]
      by_cases hdigits : IsDigits (takeSign rest).2
      · rw [if_neg fun hno => not_isDigits_iff.1 hno hdigits]
        exact iff_of_true rfl hdigits
      · rw [if_pos (not_isDigits_iff.2 hdigits)]
        exact iff_of_false Bool.false_ne_true hdigits
    · rw [if_neg hmark]
      exact iff_of_false Bool.false_ne_true fun h => hmark h.1

/-- An exponent begins neither with a digit nor with a point. -/
theorem IsExponent.of_mem_head? (h : IsExponent cs) :
    ∀ c ∈ cs.head?, isDigit c = false ∧ c ≠ '.' := by
  rcases h with rfl | ⟨mark, rest, i, hmark, rfl, -⟩
  · intro c hc
    cases hc
  · rintro c ⟨⟩
    rcases hmark with rfl | rfl <;> decide

/-- Behind a point there are digits, and without one there is nothing to take. -/
theorem takeFraction_cases (cs : List Char) :
    (∃ b, (∀ c ∈ b, isDigit c = true) ∧ cs = '.' :: (b ++ (takeFraction cs).2) ∧
      (takeFraction cs).1 = b) ∨ (takeFraction cs).1 = [] ∧ (takeFraction cs).2 = cs := by
  unfold takeFraction
  split
  · rename_i rest
    refine .inl ⟨_, List.all_eq_true.1 List.all_takeWhile, ?_, rfl⟩
    simp only
    rw [List.takeWhile_append_dropWhile]
  · exact .inr ⟨rfl, rfl⟩

theorem takeFraction_eq_self (h : ∀ c ∈ cs.head?, c ≠ '.') : takeFraction cs = ([], cs) := by
  unfold takeFraction
  split
  · exact absurd rfl (h '.' rfl)
  · rfl

theorem isSome_readDecimal?_eq : (readDecimal? cs).isSome = true ↔
    cs.takeWhile isDigit ++ (takeFraction (cs.dropWhile isDigit)).1 ≠ [] ∧
      IsExponent (takeFraction (cs.dropWhile isDigit)).2 := by
  rw [← isSome_readExponent?_iff, Ne, List.append_eq_nil_iff, ← List.isEmpty_iff,
    ← List.isEmpty_iff, ← Bool.and_eq_true]
  unfold readDecimal?
  simp only
  split_ifs with hempty
  · exact iff_of_false Bool.false_ne_true fun h => h.1 hempty
  · rw [Option.isSome_map, and_iff_right hempty]

/-- **The reader of decimal numbers** succeeds on the decimal numbers. -/
theorem isSome_readDecimal?_iff : (readDecimal? cs).isSome = true ↔ IsDecimal cs := by
  constructor
  · intro h
    obtain ⟨hne, hexponent⟩ := isSome_readDecimal?_eq.1 h
    have hwhole := List.all_eq_true.1 (List.all_takeWhile (p := isDigit) (l := cs))
    rw [← List.takeWhile_append_dropWhile (p := isDigit) (l := cs)]
    obtain ⟨b, hb, hcs, hfraction⟩ | ⟨hfraction, hrest⟩ := takeFraction_cases (cs.dropWhile isDigit)
    · rw [hfraction] at hne
      rw [hcs]
      exact .withPoint _ b _ ⟨hne, List.forall_mem_append.2 ⟨hwhole, hb⟩⟩ hexponent
    · rw [hfraction, List.append_nil] at hne
      rw [hrest] at hexponent
      exact .whole _ _ ⟨hne, hwhole⟩ hexponent
  · intro h
    rw [isSome_readDecimal?_eq]
    cases h with
    | whole ds exponent hds hexponent =>
      obtain ⟨htake, hdrop⟩ := takeWhile_append hds.2 fun c hc => (hexponent.of_mem_head? c hc).1
      rw [htake, hdrop, takeFraction_eq_self fun c hc => (hexponent.of_mem_head? c hc).2,
        List.append_nil]
      exact ⟨hds.1, hexponent⟩
    | withPoint a b exponent hab hexponent =>
      obtain ⟨ha, hb⟩ := List.forall_mem_append.1 hab.2
      have hpoint : ∀ c ∈ ('.' :: (b ++ exponent)).head?, isDigit c = false := by
        rintro c ⟨⟩
        decide
      obtain ⟨htake, hdrop⟩ := takeWhile_append ha hpoint
      obtain ⟨htake', hdrop'⟩ := takeWhile_append hb fun c hc => (hexponent.of_mem_head? c hc).1
      rw [htake, hdrop, takeFraction, htake', hdrop']
      exact ⟨hab.1, hexponent⟩

theorem IsDecimal.not_beginsWithSign (h : IsDecimal cs) : ¬ BeginsWithSign cs := by
  cases h with
  | whole ds exponent hds hexponent =>
    refine not_beginsWithSign_of_isDigit fun c hc => hds.2 c (List.mem_of_mem_head? ?_)
    rwa [List.head?_append_of_ne_nil _ hds.1] at hc
  | withPoint a b exponent hab hexponent =>
    cases a with
    | nil =>
      rintro ⟨c, ⟨⟩, h | h⟩
      · cases h
      · cases h
    | cons d a =>
      refine not_beginsWithSign_of_isDigit ?_
      rintro c ⟨⟩
      exact hab.2 _ List.mem_cons_self

/-! ## Floating point numbers -/

/-- The characters spell, in any case, one of the words for what has no digits. -/
def IsWord (cs : List Char) : Prop :=
  cs.map Char.toLower = "inf".toList ∨ cs.map Char.toLower = "infinity".toList ∨
    cs.map Char.toLower = "nan".toList

/-- The characters write a floating point number: an optional sign and a word or a decimal
number. -/
def IsFloat (cs : List Char) : Prop :=
  ∃ negative body, Signed negative cs body ∧ (IsWord body ∨ IsDecimal body)

theorem lowerAscii_eq (c : Char) : Text.lowerAscii c = c.toLower := by
  rw [Text.lowerAscii]
  by_cases h : c.val ≥ 'A'.val ∧ c.val ≤ 'Z'.val
  · have hle : c.toNat ≤ 90 := UInt32.le_iff_toNat_le.1 h.2
    have hvalid : (c.toNat + 32).isValidChar := .inl (by omega)
    have hlower : c.toLower.val = c.val + ('a'.val - 'A'.val) := congrArg Char.val (dif_pos h)
    rw [if_pos (show 'A' ≤ c ∧ c ≤ 'Z' from h), Char.ofNat, dif_pos hvalid, Char.ext_iff, hlower,
      ← UInt32.toNat_inj]
    exact (Nat.mod_eq_of_lt (show c.toNat + 32 < 2 ^ 32 by omega)).symm
  · have hlower : c.toLower = c := dif_neg h
    rw [if_neg (show ¬('A' ≤ c ∧ c ≤ 'Z') from h), hlower]

theorem IsWord.not_beginsWithSign (h : IsWord cs) : ¬ BeginsWithSign cs := by
  rintro ⟨c, hc, hsign⟩
  obtain ⟨rest, rfl⟩ := List.head?_eq_some_iff.1 hc
  unfold IsWord at h
  rcases hsign with rfl | rfl
  · simp at h
  · simp at h

theorem isFloat_iff : IsFloat cs ↔ IsWord (takeSign cs).2 ∨ IsDecimal (takeSign cs).2 :=
  exists_signed_iff (P := fun _ body => IsWord body ∨ IsDecimal body) fun _ _ h =>
    h.elim IsWord.not_beginsWithSign IsDecimal.not_beginsWithSign

/-- **The reader of floating point numbers** succeeds on the floating point numbers. -/
theorem isSome_readFloat?_iff : (readFloat? cs).isSome = true ↔ IsFloat cs := by
  have hword : IsWord (takeSign cs).2 ↔
      (String.ofList ((takeSign cs).2.map Text.lowerAscii) = "inf" ∨
        String.ofList ((takeSign cs).2.map Text.lowerAscii) = "infinity") ∨
        String.ofList ((takeSign cs).2.map Text.lowerAscii) = "nan" := by
    simp only [IsWord, ← String.toList_inj, String.toList_ofList, funext lowerAscii_eq, or_assoc]
  rw [isFloat_iff, ← isSome_readDecimal?_iff, hword]
  unfold readFloat?
  simp only
  split_ifs with hinfinity hnan
  · exact iff_of_true rfl (.inl (.inl hinfinity))
  · exact iff_of_true rfl (.inl (.inr hnan))
  · rw [Option.isSome_map, or_iff_right (not_or.2 ⟨hinfinity, hnan⟩)]

/-- **Every integer is among the floating point numbers**, so one that fits no integer type is not
taken for a text. -/
theorem IsInteger.isFloat {i : Int} (h : IsInteger cs i) : IsFloat cs := by
  obtain ⟨negative, ds, hsigned, hds, -⟩ := h
  refine ⟨negative, ds, hsigned, .inr ?_⟩
  rw [← List.append_nil ds]
  exact .whole ds [] hds (.inl rfl)

/-! ## Literals -/

/-- The characters write an integer that fits 64 bits with a sign. -/
def IsInteger64 (cs : List Char) : Prop := ∃ i : Int, IsInteger cs i ∧ -2 ^ 63 ≤ i ∧ i ≤ 2 ^ 63 - 1

theorem IsInteger.unique {i j : Int} (hi : IsInteger cs i) (hj : IsInteger cs j) : i = j :=
  (isInteger_iff.1 hi).2.trans (isInteger_iff.1 hj).2.symm

theorem isInteger64_toInt {i : Int64} (h : IsInteger cs i.toInt) : IsInteger64 cs :=
  ⟨i.toInt, h, i.le_toInt, Int.le_sub_one_of_lt i.toInt_lt⟩

/-- The names of null and of the truth values write no number. -/
theorem IsFloat.ne_name {raw : String} (h : IsFloat raw.toList) :
    raw ≠ "null" ∧ raw ≠ "true" ∧ raw ≠ "false" := by
  rw [← isSome_readFloat?_iff] at h
  refine ⟨?_, ?_, ?_⟩
  all_goals
    rintro rfl
    revert h
    decide

theorem not_isInteger64_of_not_isFloat (h : ¬ IsFloat cs) : ¬ IsInteger64 cs :=
  fun ⟨_, hi, _⟩ => h hi.isFloat

/-- The scalar that a word spells, one constructor for each kind. -/
inductive Reads (raw : String) : Scalar → Prop
  | null (h : raw = "null") : Reads raw .null
  | bool (b : Bool) (h : raw = if b then "true" else "false") : Reads raw (.bool b)
  | int (i : Int64) (h : IsInteger raw.toList i.toInt) : Reads raw (.int i)
  | float (x : Binary64) (h : IsFloat raw.toList) (hint : ¬ IsInteger64 raw.toList) :
      Reads raw (.float x)
  | text (hnull : raw ≠ "null") (htrue : raw ≠ "true") (hfalse : raw ≠ "false")
      (h : ¬ IsFloat raw.toList) : Reads raw (.text raw)

theorem readInt?_eq_none_iff : readInt? cs = none ↔ ¬ IsInteger64 cs := by
  constructor
  · rintro hnone ⟨i, hi, hle, hle'⟩
    rw [← Int64.toInt_ofInt_of_le hle (Int.lt_of_le_sub_one hle'), ← readInt?_eq_some_iff,
      hnone] at hi
    cases hi
  · intro hno
    rw [Option.eq_none_iff_forall_ne_some]
    exact fun i hi => hno (isInteger64_toInt (readInt?_eq_some_iff.1 hi))

theorem readFloat?_eq_none_iff : readFloat? cs = none ↔ ¬ IsFloat cs := by
  rw [← isSome_readFloat?_iff, Bool.not_eq_true, Option.isSome_eq_false_iff,
    Option.isNone_iff_eq_none]

theorem reads_parseLiteral (raw : String) : Reads raw (parseLiteral raw) := by
  unfold parseLiteral
  split_ifs with hnull htrue hfalse
  · exact .null hnull
  · exact .bool true htrue
  · exact .bool false hfalse
  · cases hint : readInt? raw.toList with
    | some i => exact .int i (readInt?_eq_some_iff.1 hint)
    | none =>
      cases hfloat : readFloat? raw.toList with
      | some x =>
        refine .float x (isSome_readFloat?_iff.1 ?_) (readInt?_eq_none_iff.1 hint)
        rw [hfloat, Option.isSome_some]
      | none => exact .text hnull htrue hfalse (readFloat?_eq_none_iff.1 hfloat)

/-- What is no name is read as a number if it is one. -/
theorem parseLiteral_of_ne_name {raw : String} (h : raw ≠ "null" ∧ raw ≠ "true" ∧ raw ≠ "false") :
    parseLiteral raw = match readInt? raw.toList with
      | some i => .int i
      | none => ((readFloat? raw.toList).map Scalar.float).getD (.text raw) := by
  unfold parseLiteral
  rw [if_neg h.1, if_neg h.2.1, if_neg h.2.2]
  cases readFloat? raw.toList <;> rfl

theorem parseLiteral_of_isInteger {raw : String} {i : Int64} (h : IsInteger raw.toList i.toInt) :
    parseLiteral raw = .int i := by
  rw [parseLiteral_of_ne_name h.isFloat.ne_name, readInt?_eq_some_iff.2 h]

theorem exists_parseLiteral_of_isFloat {raw : String} (h : IsFloat raw.toList)
    (hint : ¬ IsInteger64 raw.toList) : ∃ x, parseLiteral raw = .float x := by
  obtain ⟨x, hx⟩ := Option.isSome_iff_exists.1 (isSome_readFloat?_iff.2 h)
  rw [parseLiteral_of_ne_name h.ne_name, readInt?_eq_none_iff.2 hint, hx]
  exact ⟨x, rfl⟩

theorem parseLiteral_of_not_isFloat {raw : String}
    (hname : raw ≠ "null" ∧ raw ≠ "true" ∧ raw ≠ "false") (h : ¬ IsFloat raw.toList) :
    parseLiteral raw = .text raw := by
  rw [parseLiteral_of_ne_name hname,
    readInt?_eq_none_iff.2 (not_isInteger64_of_not_isFloat h), readFloat?_eq_none_iff.2 h]
  rfl

/-- What is read from a word is what its spelling says. -/
structure IsClassified (read : String → Scalar) : Prop where
  null (raw : String) : read raw = .null ↔ raw = "null"
  bool (raw : String) (b : Bool) : read raw = .bool b ↔ raw = if b then "true" else "false"
  /-- An integer is read with its value. -/
  int (raw : String) (i : Int64) : read raw = .int i ↔ IsInteger raw.toList i.toInt
  /-- All other numbers are floating point numbers. -/
  float (raw : String) : (∃ x, read raw = .float x) ↔ IsFloat raw.toList ∧ ¬ IsInteger64 raw.toList
  /-- An integer that is too large for one is a number all the same. -/
  large (raw : String) (i : Int) : IsInteger raw.toList i → ¬ (-2 ^ 63 ≤ i ∧ i ≤ 2 ^ 63 - 1) →
    ∃ x, read raw = .float x
  /-- A text is kept as it is, and it is what is none of the others. -/
  text (raw s : String) : read raw = .text s ↔ s = raw ∧ raw ≠ "null" ∧ raw ≠ "true" ∧
    raw ≠ "false" ∧ ¬ IsInteger64 raw.toList ∧ ¬ IsFloat raw.toList
  /-- What is displayed is read back, unless it is a floating point number. -/
  displayed (raw : String) : (∀ x, read raw ≠ .float x) → read (read raw).display = read raw

/-- **Literals are classified by their grammar.** -/
theorem isClassified_parseLiteral : IsClassified parseLiteral where
  null raw := by
    constructor
    · intro h
      cases h ▸ reads_parseLiteral raw with
      | null hraw => exact hraw
    · rintro rfl
      rfl
  bool raw b := by
    constructor
    · intro h
      cases h ▸ reads_parseLiteral raw with
      | bool _ hraw => exact hraw
    · rintro rfl
      cases b <;> rfl
  int raw i := by
    constructor
    · intro h
      cases h ▸ reads_parseLiteral raw with
      | int _ hraw => exact hraw
    · exact parseLiteral_of_isInteger
  float raw := by
    constructor
    · rintro ⟨x, h⟩
      cases h ▸ reads_parseLiteral raw with
      | float _ hraw hint => exact ⟨hraw, hint⟩
    · rintro ⟨h, hint⟩
      exact exists_parseLiteral_of_isFloat h hint
  large raw i h hlarge := by
    refine exists_parseLiteral_of_isFloat h.isFloat ?_
    rintro ⟨j, hj, hfits⟩
    exact hlarge (h.unique hj ▸ hfits)
  text raw s := by
    constructor
    · intro h
      cases h ▸ reads_parseLiteral raw with
      | text hnull htrue hfalse hraw =>
        exact ⟨rfl, hnull, htrue, hfalse, not_isInteger64_of_not_isFloat hraw, hraw⟩
    · rintro ⟨rfl, hnull, htrue, hfalse, -, h⟩
      exact parseLiteral_of_not_isFloat ⟨hnull, htrue, hfalse⟩ h
  displayed raw hfloat := by
    cases hread : parseLiteral raw with
    | null => rfl
    | bool b => cases b <;> rfl
    | int i => exact parseLiteral_of_isInteger (isInteger_integerText i.toInt)
    | float x => exact absurd hread (hfloat x)
    | text s =>
      have hs : s = raw := by
        cases hread ▸ reads_parseLiteral raw with
        | text => rfl
      rw [display, hs]
      exact hs ▸ hread

/-- The least integer is one although its digits alone are not, and a sign alone is a text. -/
example : parseLiteral "-9223372036854775808" = .int Int64.minValue ∧
    parseLiteral "-" = .text "-" := by decide +kernel

end Scalar
end GraphBase
