import GraphBase.Proofs.Json.Escapes
import GraphBase.Proofs.Value.Stored

/-!
# Stored texts as the database reads them

The properties of a row are kept as a JSON text, and a filter on properties is decided on this
text.  The database that decides it reads it with a reader of its own, which takes much that is no
JSON.  This file says what that reader makes of the texts that a store writes
(`parse?_encode`): an object with the same members in the same order, each name with its escapes,
each number with its digits.

The reader tries a string first, then a word, then a number, so what has to be seen is that
nothing that was written can be taken for something else: a number is no word
(`readWord?_eq_none`), its digits are neither hexadecimal nor octal (`readUnsigned?_append`), and
it ends at the comma or the brace behind it.
-/

namespace GraphBase.Json

open GraphBase.Number (isDigit toDigits toDigits_ne_nil isDigit_of_mem_toDigits
  head?_toDigits_ne_zero)

namespace Lenient

/-- What is read of a string that was written. -/
def ofText (s : String) : Lenient := string (s.toList.flatMap escapeChar)

/-- What is read of a number that was written. -/
def ofNumeral (n : Numeral) : Lenient :=
  .number <| .decimal n.negative (toDigits n.whole)
    (if n.fraction.isEmpty then none else some n.fraction) (Numeral.exponentText n.exponent)

/-- What is read of a scalar that was written. -/
def ofScalar : Scalar → Lenient
  | .null => .null
  | .bool b => .bool b
  | .int i => ofNumeral (.ofInt i.toInt)
  | .float x =>
    match Numeral.ofBinary64? x with
    | some n => ofNumeral n
    | none => .null
  | .text s => ofText s

variable {c : Char} {cs rest : List Char} {fuel levels : Nat}

/-! ## Blanks -/

/-- Nothing is skipped where no blank and no comment begins. -/
theorem skip_cons (hblank : isBlank c = false) (hslash : c ≠ '/') : skip (c :: cs) = c :: cs := by
  have hkeep : (c :: cs).dropWhile isBlank = c :: cs := by
    rw [List.dropWhile_cons, hblank, if_neg Bool.false_ne_true]
  rw [skip, skipFrom, hkeep]
  split
  · rename_i heq
    exact absurd (List.cons.inj heq).1 hslash
  · rename_i heq
    exact absurd (List.cons.inj heq).1 hslash
  · rfl

/-! ## Strings -/

theorem splitEscape?_control {c : Char} (hc : c.toNat < 0x20) :
    splitEscape? ('u' :: '0' :: '0' :: Text.hexDigit (c.toNat / 16) ::
        Text.hexDigit (c.toNat % 16) :: rest) =
      some (['u', '0', '0', Text.hexDigit (c.toNat / 16), Text.hexDigit (c.toNat % 16)], rest) := by
  have hhigh := hexValue?_hexDigit (c.toNat / 16) (by omega)
  have hlow := hexValue?_hexDigit (c.toNat % 16) (by omega)
  have hzero : Text.hexValue? '0' = some 0 := rfl
  have hread : (readHex4 ('0' :: '0' :: Text.hexDigit (c.toNat / 16) ::
      Text.hexDigit (c.toNat % 16) :: rest)).isSome = true := by
    simp only [readHex4, hzero, hhigh, hlow, Option.isSome_some]
  rw [splitEscape?, if_pos hread]
  rfl

/-- A character that was written is taken in one step, with its escape. -/
theorem readContent_escapeChar (c : Char) :
    readContent '"' (fuel + 1) (escapeChar c ++ rest) =
      (readContent '"' fuel rest).map fun p => (escapeChar c ++ p.1, p.2) := by
  have hshort : ∀ d : Char, splitEscape? (d :: rest) = some ([d], rest) →
      readContent '"' (fuel + 1) ('\\' :: d :: rest) =
        (readContent '"' fuel rest).map fun p => ('\\' :: d :: p.1, p.2) := by
    intro d hd
    rw [readContent, if_neg (by decide), if_pos rfl, hd]
    rfl
  unfold escapeChar
  split_ifs with h₁ h₂ h₃ h₄ h₅ h₆ h₇ h₈
  rotate_left 7
  · rw [List.cons_append, readContent, if_neg (by decide), if_pos rfl]
    simp only [List.cons_append, List.nil_append, splitEscape?_control h₈]
  · rw [List.singleton_append, readContent, if_neg h₁, if_neg h₂]
    rfl
  all_goals exact hshort _ rfl

/-- The content of a string that was written ends at its quote. -/
theorem readContent_append (cs : List Char) (hfuel : cs.length < fuel) :
    readContent '"' fuel (cs.flatMap escapeChar ++ '"' :: rest) =
      some (cs.flatMap escapeChar, rest) := by
  induction cs generalizing fuel with
  | nil =>
    cases fuel with
    | zero => omega
    | succ fuel => rfl
  | cons c cs ih =>
    cases fuel with
    | zero => omega
    | succ fuel =>
      rw [List.length_cons] at hfuel
      rw [List.flatMap_cons, List.append_assoc, readContent_escapeChar, ih (by omega)]
      rfl

/-- **A string that was written is read** with its escapes. -/
theorem readString?_append (cs : List Char) :
    readString? ('"' :: (cs.flatMap escapeChar ++ ['"'] ++ rest)) =
      some (cs.flatMap escapeChar, rest) := by
  have hle := length_le_length_flatMap_escapeChar cs
  rw [readString?, if_pos (.inl rfl), List.append_assoc]
  refine readContent_append cs ?_
  rw [List.length_append]
  omega

/-! ## Words -/

/-- What numbers begin with is nothing else. -/
theorem notWord_of_begins (hc : isDigit c = true ∨ c = '-') :
    isBlank c = false ∧ Text.lowerAscii c = c ∧
      ∀ d : Char, isDigit d = false → d ≠ '-' → c ≠ d := by
  have hbounds : 0x2D ≤ c.toNat ∧ c.toNat ≤ 0x39 := by
    rcases hc with hc | rfl
    · rw [isDigit, Bool.and_eq_true, decide_eq_true_iff, decide_eq_true_iff] at hc
      have hlow : '0'.toNat ≤ c.toNat := hc.1
      have hhigh : c.toNat ≤ '9'.toNat := hc.2
      have hzero : '0'.toNat = 0x30 := rfl
      have hnine : '9'.toNat = 0x39 := rfl
      omega
    · decide
  refine ⟨?_, ?_, ?_⟩
  · rw [isBlank]
    simp only [Bool.or_eq_false_iff, Bool.and_eq_false_iff, decide_eq_false_iff_not,
      beq_eq_false_iff_ne]
    omega
  · rw [Text.lowerAscii, if_neg]
    rintro ⟨hlow, -⟩
    have hA : 'A'.toNat ≤ c.toNat := hlow
    have hvalue : 'A'.toNat = 0x41 := rfl
    omega
  · rintro d hd hminus rfl
    rcases hc with hc | hc
    · rw [hd] at hc
      cases hc
    · exact hminus hc

/-- A word is missing where its first letter is. -/
theorem dropStart?_eq_none {d : Char} {word : List Char} (hd : word.head? = some d) (hc : c ≠ d) :
    Text.dropStart? word (c :: cs) = none := by
  cases word with
  | nil => cases hd
  | cons e word =>
    obtain rfl := Option.some.inj hd
    rw [Text.dropStart?, if_neg (Ne.symm hc)]

theorem dropWord?_eq_none {d : Char} {word : String} (hd : word.toList.head? = some d)
    (hc : Text.lowerAscii c ≠ d) : dropWord? word (c :: cs) = none := by
  rw [dropWord?, if_neg]
  intro heq
  have hlength : word.length ≠ 0 := by
    rw [← String.length_toList]
    intro hzero
    rw [List.length_eq_zero_iff.1 hzero] at hd
    cases hd
  obtain ⟨n, hn⟩ := Nat.exists_eq_succ_of_ne_zero hlength
  rw [← heq, hn, List.take_succ_cons, List.map_cons, List.head?_cons] at hd
  exact hc (Option.some.inj hd)

/-- **A number is no word.** -/
theorem readWord?_eq_none (hc : isDigit c = true ∨ c = '-') : readWord? (c :: cs) = none := by
  obtain ⟨-, hlower, hne⟩ := notWord_of_begins hc
  have hexact : ∀ w ∈ exactWords, Text.dropStart? w.1.toList (c :: cs) = none := by
    intro w hw
    simp only [exactWords, List.mem_cons, List.not_mem_nil, or_false] at hw
    rcases hw with rfl | rfl | rfl <;>
      exact dropStart?_eq_none rfl (hne _ (by decide) (by decide))
  have hloose : ∀ w ∈ looseWords, dropWord? w.1 (c :: cs) = none := by
    intro w hw
    simp only [looseWords, List.mem_cons, List.not_mem_nil, or_false] at hw
    rcases hw with rfl | rfl | rfl | rfl | rfl <;>
      exact dropWord?_eq_none rfl (by rw [hlower]; exact hne _ (by decide) (by decide))
  rw [readWord?]
  simp only
  rw [List.findSome?_eq_none_iff.2, List.findSome?_eq_none_iff.2]
  · rfl
  · intro w hw
    rw [hloose w hw]
  · intro w hw
    rw [hexact w hw]

/-! ## Numbers -/

/-- What may stand behind a member. -/
def Closes (rest : List Char) : Prop := ∃ c cs, rest = c :: cs ∧ (c = ',' ∨ c = '\x7d')

theorem Closes.ends (h : Closes rest) : Numeral.Ends rest := by
  obtain ⟨c, cs, rfl, hc⟩ := h
  exact Numeral.ends_cons (hc.imp id .inr)

/-- An exponent is read as it was written. -/
theorem readExponent?_append (e : Option Int) (hrest : Closes rest) :
    readExponent? (Numeral.exponentText e ++ rest) = some (Numeral.exponentText e, rest) := by
  cases e with
  | none =>
    obtain ⟨c, cs, rfl, hc⟩ := hrest
    show readExponent? (c :: cs) = some ([], c :: cs)
    rw [readExponent?, if_neg]
    rcases hc with rfl | rfl <;> decide
  | some e =>
    have htake : Numeral.takeDigits (toDigits e.natAbs ++ rest) = (toDigits e.natAbs, rest) :=
      Numeral.takeDigits_append (fun c hc => isDigit_of_mem_toDigits hc)
        fun c hc => (hrest.ends c hc).1
    have hne := toDigits_ne_nil e.natAbs
    have hsign : ∀ sign : Char, sign = '+' ∨ sign = '-' →
        readExponent? ('e' :: sign :: (toDigits e.natAbs ++ rest)) =
          some ('e' :: sign :: toDigits e.natAbs, rest) := by
      intro sign h
      have hfilter : (([sign] : List Char).filter fun c => c == '+' || c == '-') = [sign] := by
        rcases h with rfl | rfl <;> rfl
      rw [readExponent?, if_pos (.inl rfl), List.take_succ_cons, List.take_zero, hfilter]
      simp only [List.length_singleton, List.drop_succ_cons, List.drop_zero, htake]
      cases hdigits : toDigits e.natAbs with
      | nil => exact absurd hdigits hne
      | cons d ds => rfl
    rw [Numeral.exponentText]
    split_ifs with hneg
    · exact hsign '-' (.inr rfl)
    · exact hsign '+' (.inl rfl)

/-- The digits of a number are taken apart as they were written. -/
theorem decimal?_append (negative : Bool) (k : Nat) {ds : List Char}
    (hds : ∀ c ∈ ds, isDigit c = true) (e : Option Int) (hrest : Closes rest) :
    readUnsigned?.decimal? negative (toDigits k ++ ((if ds.isEmpty then [] else '.' :: ds) ++
        (Numeral.exponentText e ++ rest))) =
      some (.decimal negative (toDigits k) (if ds.isEmpty then none else some ds)
        (Numeral.exponentText e), rest) := by
  have hdigits : ∀ c ∈ toDigits k, isDigit c = true := fun c hc => isDigit_of_mem_toDigits hc
  have hwhole := Numeral.takeDigits_append hdigits (Numeral.head?_behind_whole hrest.ends ds e)
  have hbehind := Numeral.head?_behind_fraction hrest.ends e
  have hne : (toDigits k).isEmpty = false := List.isEmpty_eq_false_iff.2 (toDigits_ne_nil k)
  have hexponent := readExponent?_append e hrest
  cases ds with
  | nil =>
    rw [show ((if ([] : List Char).isEmpty then [] else '.' :: []) : List Char) = [] from rfl,
      List.nil_append] at hwhole ⊢
    rw [readUnsigned?.decimal?, hwhole]
    cases htail : Numeral.exponentText e ++ rest with
    | nil =>
      obtain ⟨c, cs, rfl, -⟩ := hrest
      exact absurd htail (List.append_ne_nil_of_right_ne_nil _ (List.cons_ne_nil c cs))
    | cons c cs =>
      have hpoint : c ≠ '.' := (hbehind c (by rw [htail]; rfl)).2
      rw [htail] at hexponent
      simp only [hne, Bool.false_and]
      rw [if_neg Bool.false_ne_true]
      split
      · rename_i heq
        exact absurd (List.cons.inj heq).1 hpoint
      · rw [hexponent]
        rfl
  | cons d ds =>
    have htake := Numeral.takeDigits_append hds fun c hc => (hbehind c hc).1
    rw [readUnsigned?.decimal?, hwhole]
    simp only [List.isEmpty_cons, Bool.false_eq_true, if_false, List.cons_append] at htake ⊢
    simp only [htake, hne, Bool.false_and, hexponent]
    rfl

/-- What stands behind the integer part of a number. -/
theorem head?_behind (ds : List Char) (e : Option Int) (hrest : Closes rest) :
    ∀ x ∈ ((if ds.isEmpty then [] else '.' :: ds) ++ (Numeral.exponentText e ++ rest)).head?,
      x = '.' ∨ x = 'e' ∨ x = ',' ∨ x = '\x7d' := by
  intro x hx
  cases ds with
  | cons d ds => exact .inl (Option.some.inj hx).symm
  | nil =>
    cases e with
    | some e => exact .inr (.inl (Option.some.inj hx).symm)
    | none =>
      obtain ⟨c, cs, rfl, hc⟩ := hrest
      obtain rfl : c = x := Option.some.inj hx
      exact .inr (.inr hc)

/-- **The digits of a number are read** neither as hexadecimal nor as octal. -/
theorem readUnsigned?_append (negative : Bool) {n : Numeral} (hn : n.IsProper)
    (hrest : Closes rest) :
    readUnsigned? negative (toDigits n.whole ++ ((if n.fraction.isEmpty then [] else
        '.' :: n.fraction) ++ (Numeral.exponentText n.exponent ++ rest))) =
      some (.decimal negative (toDigits n.whole) (if n.fraction.isEmpty then none else
        some n.fraction) (Numeral.exponentText n.exponent), rest) := by
  have hdecimal := decimal?_append negative n.whole hn n.exponent hrest
  have hbehind := head?_behind n.fraction n.exponent hrest
  generalize (if n.fraction.isEmpty then [] else '.' :: n.fraction) ++
    (Numeral.exponentText n.exponent ++ rest) = tail at hdecimal hbehind ⊢
  rcases Nat.eq_zero_or_pos n.whole with hzero | hpos
  · rw [hzero] at hdecimal ⊢
    have hone : toDigits 0 = ['0'] := rfl
    rw [hone, List.singleton_append] at hdecimal ⊢
    cases tail with
    | nil => exact hdecimal
    | cons x tail =>
      have hplain : isDigit x = false ∧ ¬(x = 'x' ∨ x = 'X') := by
        rcases hbehind x rfl with rfl | rfl | rfl | rfl <;> decide
      cases tail with
      | nil =>
        rw [readUnsigned?, hplain.1, if_neg Bool.false_ne_true]
        exact hdecimal
      | cons y tail =>
        rw [readUnsigned?, if_neg fun h => hplain.2 h.1, hplain.1, if_neg Bool.false_ne_true]
        exact hdecimal
  · have hhead := head?_toDigits_ne_zero hpos
    cases hdigits : toDigits n.whole with
    | nil => exact absurd hdigits (toDigits_ne_nil _)
    | cons d ds =>
      rw [hdigits, List.head?_cons] at hhead
      rw [hdigits, List.cons_append] at hdecimal
      rw [List.cons_append, readUnsigned?]
      · exact hdecimal
      · rintro x y rest' heq
        exact hhead (congrArg some (List.cons.inj heq).1)
      · rintro x heq
        exact hhead (congrArg some (List.cons.inj heq).1)

/-- Behind a sign, digits are no word either. -/
theorem readSigned?_digit (negative : Bool) (hc : isDigit c = true) :
    readSigned? negative (c :: cs) = readUnsigned? negative (c :: cs) := by
  obtain ⟨-, hlower, hother⟩ := notWord_of_begins (.inl hc)
  have hi : Text.lowerAscii c ≠ 'i' := by
    rw [hlower]
    exact hother _ (by decide) (by decide)
  rw [readSigned?, dropWord?_eq_none rfl hi, dropWord?_eq_none rfl hi]

theorem readNumber?_append {n : Numeral} (hn : n.IsProper) (hrest : Closes rest) :
    readNumber? (n.toChars ++ rest) =
      some (.decimal n.negative (toDigits n.whole) (if n.fraction.isEmpty then none else
        some n.fraction) (Numeral.exponentText n.exponent), rest) := by
  have hunsigned := readUnsigned?_append n.negative hn hrest
  have hdigit := Numeral.head?_whole_append n.whole
    ((if n.fraction.isEmpty then [] else '.' :: n.fraction) ++
      (Numeral.exponentText n.exponent ++ rest))
  rw [Numeral.toChars]
  simp only [List.append_assoc]
  generalize toDigits n.whole ++ ((if n.fraction.isEmpty then [] else '.' :: n.fraction) ++
    (Numeral.exponentText n.exponent ++ rest)) = body at hunsigned hdigit ⊢
  cases body with
  | nil => cases hunsigned
  | cons c cs =>
    have hc : isDigit c = true := hdigit c rfl
    obtain ⟨-, -, hother⟩ := notWord_of_begins (.inl hc)
    cases hnegative : n.negative with
    | true =>
      rw [hnegative] at hunsigned
      exact (readSigned?_digit true hc).trans hunsigned
    | false =>
      rw [hnegative] at hunsigned
      rw [if_neg Bool.false_ne_true, List.nil_append, readNumber?]
      · exact hunsigned
      · rintro cs' heq
        rw [(List.cons.inj heq).1] at hc
        cases hc
      · rintro cs' heq
        rw [(List.cons.inj heq).1] at hc
        cases hc

/-- **A number that was written is read** digit by digit. -/
theorem readPlain?_numeral {n : Numeral} (hn : n.IsProper) (hrest : Closes rest) :
    readPlain? (n.toChars ++ rest) = some (ofNumeral n, rest) := by
  obtain ⟨c, cs, hchars, hc⟩ := exists_toChars_number n
  obtain ⟨-, hlower, hother⟩ := notWord_of_begins hc
  have hstring : readString? (n.toChars ++ rest) = none := by
    rw [hchars, List.cons_append, readString?, if_neg]
    rintro (h | h)
    · exact hother '"' (by decide) (by decide) h
    · exact hother '\'' (by decide) (by decide) h
  have hword : readWord? (n.toChars ++ rest) = none := by
    rw [hchars, List.cons_append]
    exact readWord?_eq_none hc
  rw [readPlain?, hstring, hword, readNumber?_append hn hrest]
  rfl

/-! ## Values -/

/-- A value that is neither an array nor an object. -/
theorem readValue_plain (hblank : isBlank c = false) (hslash : c ≠ '/') (hopen : c ≠ '[')
    (hbrace : c ≠ '\x7b') : readValue (fuel + 1) levels (c :: cs) = readPlain? (c :: cs) := by
  have hskip : skip (c :: cs) = c :: cs := skip_cons hblank hslash
  rw [readValue]
  · rw [hskip]
  · intro rest' levels' heq
    rw [hskip] at heq
    exact absurd (List.cons.inj heq).1 hopen
  · intro rest' levels' heq
    rw [hskip] at heq
    exact absurd (List.cons.inj heq).1 hbrace

theorem readValue_numeral {n : Numeral} (hn : n.IsProper) (hrest : Closes rest) :
    readValue (fuel + 1) levels (n.toChars ++ rest) = some (ofNumeral n, rest) := by
  obtain ⟨c, cs, hchars, hc⟩ := exists_toChars_number n
  obtain ⟨hblank, -, hother⟩ := notWord_of_begins hc
  have hplain := readPlain?_numeral hn hrest
  rw [hchars, List.cons_append] at hplain ⊢
  have hslash : c ≠ '/' := hother _ (by decide) (by decide)
  rw [readValue_plain hblank hslash (hother _ (by decide) (by decide))
    (hother _ (by decide) (by decide)), hplain]

/-- A word that was written is read, as nothing goes on with it. -/
theorem readPlain?_null (hrest : Closes rest) :
    readPlain? ('n' :: 'u' :: 'l' :: 'l' :: rest) = some (null, rest) := by
  obtain ⟨c, cs, rfl, hc⟩ := hrest
  rcases hc with rfl | rfl <;> rfl

theorem readPlain?_true (hrest : Closes rest) :
    readPlain? ('t' :: 'r' :: 'u' :: 'e' :: rest) = some (bool true, rest) := by
  obtain ⟨c, cs, rfl, hc⟩ := hrest
  rcases hc with rfl | rfl <;> rfl

theorem readPlain?_false (hrest : Closes rest) :
    readPlain? ('f' :: 'a' :: 'l' :: 's' :: 'e' :: rest) = some (bool false, rest) := by
  obtain ⟨c, cs, rfl, hc⟩ := hrest
  rcases hc with rfl | rfl <;> rfl

/-- **A scalar that was written is read** up to the comma or the brace behind it. -/
theorem readValue_scalar (x : Scalar) (hrest : Closes rest) :
    readValue (fuel + 1) levels (x.toJson.toChars ++ rest) = some (ofScalar x, rest) := by
  have hnull : readValue (fuel + 1) levels (Json.null.toChars ++ rest) = some (null, rest) := by
    rw [Json.toChars]
    exact (readValue_plain (by decide) (by decide) (by decide) (by decide)).trans
      (readPlain?_null hrest)
  cases x with
  | null => exact hnull
  | bool b =>
    cases b with
    | true =>
      rw [Scalar.toJson, Json.toChars]
      exact (readValue_plain (by decide) (by decide) (by decide) (by decide)).trans
        (readPlain?_true hrest)
    | false =>
      rw [Scalar.toJson, Json.toChars]
      exact (readValue_plain (by decide) (by decide) (by decide) (by decide)).trans
        (readPlain?_false hrest)
  | int i =>
    rw [Scalar.toJson, Json.ofInt, Json.toChars]
    exact readValue_numeral (Numeral.isProper_ofInt i.toInt) hrest
  | float x =>
    rw [Scalar.toJson, ofScalar]
    cases hx : Numeral.ofBinary64? x with
    | none => exact hnull
    | some n =>
      simp only
      rw [Json.toChars]
      exact readValue_numeral (Numeral.isProper_of_ofUnpacked? hx) hrest
  | text s =>
    rw [Scalar.toJson, toChars_string_append,
      readValue_plain (by decide) (by decide) (by decide) (by decide), readPlain?,
      readString?_append]
    rfl

/-- A name that was written is read with its escapes. -/
theorem readName?_append (cs : List Char) :
    readName? ('"' :: (cs.flatMap escapeChar ++ ['"'] ++ rest)) =
      some (cs.flatMap escapeChar, rest) := by
  rw [readName?, readString?_append]

/-- **Members that were written are read**, each with its name and its value. -/
theorem readMembers_entries (e : String × Scalar) (entries : List (String × Scalar))
    (hfuel : entries.length + 1 < fuel) :
    readMembers fuel levels
        (Json.memberChars ((e :: entries).map fun e => (e.1, e.2.toJson)) ++ rest) =
      some ((e :: entries).map fun e => (e.1.toList.flatMap escapeChar, ofScalar e.2), rest) := by
  induction entries generalizing fuel e with
  | nil =>
    obtain ⟨fuel, rfl⟩ : ∃ n, fuel = n + 2 := ⟨fuel - 2, by simp at hfuel; omega⟩
    have hvalue : readValue (fuel + 1) levels (e.2.toJson.toChars ++ '\x7d' :: rest) =
        some (ofScalar e.2, '\x7d' :: rest) := readValue_scalar e.2 ⟨_, _, rfl, .inr rfl⟩
    rw [List.map_singleton, memberChars_singleton_append, readMembers,
      skip_cons (by decide) (by decide)]
    split
    · rename_i heq
      exact absurd (List.cons.inj heq).1 (by decide)
    · rw [readName?_append]
      simp only
      rw [skip_cons (by decide) (by decide)]
      simp only [hvalue]
      rw [skip_cons (by decide) (by decide)]
      rfl
  | cons e' entries ih =>
    obtain ⟨fuel, rfl⟩ : ∃ n, fuel = n + 2 := ⟨fuel - 2, by simp at hfuel; omega⟩
    have hfuel' : entries.length + 1 < fuel + 1 := by
      rw [List.length_cons] at hfuel
      omega
    have hmore := ih e' hfuel'
    have hvalue : ∀ cs, readValue (fuel + 1) levels (e.2.toJson.toChars ++ ',' :: cs) =
        some (ofScalar e.2, ',' :: cs) :=
      fun cs => readValue_scalar e.2 ⟨_, _, rfl, .inl rfl⟩
    rw [List.map_cons] at hmore
    rw [List.map_cons, List.map_cons, memberChars_cons_append, readMembers,
      skip_cons (by decide) (by decide)]
    split
    · rename_i heq
      exact absurd (List.cons.inj heq).1 (by decide)
    · rw [readName?_append]
      simp only
      rw [skip_cons (by decide) (by decide)]
      simp only [hvalue]
      rw [skip_cons (by decide) (by decide)]
      simp only [hmore]
      rfl

/-- The object that a database reads in a stored text. -/
def ofProperties (p : Properties) : Lenient :=
  object (p.entries.map fun e => (e.1.toList.flatMap escapeChar, ofScalar e.2))

/-! ## Texts -/

/-- No NUL is written, not even for a NUL. -/
theorem nul_notMem_escapeChar (c : Char) : '\x00' ∉ escapeChar c := by
  have hdigit : ∀ n < 16, Text.hexDigit n ≠ '\x00' := by decide
  unfold escapeChar
  split_ifs with h₁ h₂ h₃ h₄ h₅ h₆ h₇ h₈
  rotate_left 7
  · have hhigh := hdigit (c.toNat / 16) (by omega)
    have hlow := hdigit (c.toNat % 16) (by omega)
    simp [hhigh.symm, hlow.symm]
  · intro hmem
    rw [← List.mem_singleton.1 hmem] at h₈
    exact h₈ (by decide)
  all_goals decide

theorem nul_notMem_stringChars (s : String) : '\x00' ∉ stringChars s := by
  intro hmem
  rw [stringChars, List.mem_append, List.mem_cons, List.mem_flatMap, List.mem_singleton] at hmem
  rcases hmem with (h | ⟨c, -, hc⟩) | h
  · cases h
  · exact nul_notMem_escapeChar c hc
  · cases h

theorem nul_notMem_numeral {n : Numeral} (hn : n.IsProper) : '\x00' ∉ n.toChars := by
  have hdigits : ∀ ds : List Char, (∀ c ∈ ds, isDigit c = true) → '\x00' ∉ ds :=
    fun ds hds hmem => absurd (hds _ hmem) (by decide)
  have htoDigits : ∀ k, '\x00' ∉ toDigits k :=
    fun k => hdigits _ fun c hc => isDigit_of_mem_toDigits hc
  have hexponent : '\x00' ∉ Numeral.exponentText n.exponent := by
    cases n.exponent with
    | none => exact List.not_mem_nil
    | some e =>
      rw [Numeral.exponentText]
      split_ifs <;> simp [htoDigits]
  rw [Numeral.toChars]
  simp only [List.mem_append, not_or]
  refine ⟨⟨⟨?_, htoDigits _⟩, ?_⟩, hexponent⟩
  · split_ifs <;> decide
  · split_ifs
    · exact List.not_mem_nil
    · simp [hdigits _ hn]

theorem nul_notMem_scalar (x : Scalar) : '\x00' ∉ x.toJson.toChars := by
  have hproper := x.isProper_toJson
  cases hx : x.toJson with
  | null =>
    rw [Json.toChars]
    decide
  | bool b => cases b <;> (rw [Json.toChars]; decide)
  | number n =>
    rw [hx, Json.IsProper] at hproper
    rw [Json.toChars]
    exact nul_notMem_numeral hproper
  | string s =>
    rw [Json.toChars]
    exact nul_notMem_stringChars s
  | array items =>
    cases x with
    | float x =>
      rw [Scalar.toJson] at hx
      split at hx <;> cases hx
    | _ => cases hx
  | object members =>
    cases x with
    | float x =>
      rw [Scalar.toJson] at hx
      split at hx <;> cases hx
    | _ => cases hx

theorem nul_notMem_members (entries : List (String × Scalar)) :
    '\x00' ∉ Json.memberChars (entries.map fun e => (e.1, e.2.toJson)) := by
  induction entries with
  | nil =>
    rw [List.map_nil, Json.memberChars]
    decide
  | cons e entries ih =>
    cases entries with
    | nil =>
      rw [List.map_singleton, Json.memberChars]
      simp [nul_notMem_stringChars, nul_notMem_scalar]
    | cons e' entries =>
      rw [List.map_cons] at ih
      rw [List.map_cons, List.map_cons, Json.memberChars]
      simp [nul_notMem_stringChars, nul_notMem_scalar, ih]

theorem length_le_memberChars (entries : List (String × Scalar)) :
    entries.length ≤ (Json.memberChars (entries.map fun e => (e.1, e.2.toJson))).length := by
  induction entries with
  | nil => exact Nat.zero_le _
  | cons e entries ih =>
    cases entries with
    | nil =>
      rw [List.map_singleton, Json.memberChars, List.length_append]
      exact Nat.le_add_left _ _
    | cons e' entries =>
      rw [List.map_cons] at ih
      rw [List.map_cons, List.map_cons, Json.memberChars, List.length_append, List.length_cons,
        @List.length_cons _ ',']
      omega

/-- An object is read member by member. -/
theorem readValue_object :
    readValue (fuel + 1) (levels + 1) ('\x7b' :: cs) =
      (readMembers fuel levels cs).map fun p => (object p.1, p.2) := by
  have hskip : skip ('\x7b' :: cs) = '\x7b' :: cs := skip_cons (by decide) (by decide)
  rw [readValue.eq_def]
  simp only [hskip]

/-- **A stored text is read as the object that it was written for.** -/
theorem parse?_encode (p : Properties) : parse? p.encode = some (ofProperties p) := by
  have hchars : p.encode.toList = '\x7b' :: Json.memberChars (p.entries.map fun e =>
      (e.1, e.2.toJson)) := by
    rw [Properties.encode, Json.render, String.toList_ofList, Properties.toJson, Json.toChars]
  have hwhole : p.encode.toList.takeWhile (· ≠ '\x00') = p.encode.toList := by
    refine cutName_eq_self ?_
    rw [hchars, List.mem_cons, not_or]
    exact ⟨by decide, nul_notMem_members p.entries⟩
  have hread : readValue (2 * p.encode.toList.length + 2) mostLevels p.encode.toList =
      some (ofProperties p, []) := by
    have hlength := length_le_memberChars p.entries
    rw [hchars, List.length_cons, mostLevels, readValue_object, ofProperties]
    cases hentries : p.entries with
    | nil => rfl
    | cons e entries =>
      rw [hentries, List.length_cons] at hlength
      have hmembers : ∀ fuel, entries.length + 1 < fuel →
          readMembers fuel 999 (Json.memberChars ((e :: entries).map fun e =>
            (e.1, e.2.toJson))) = some ((e :: entries).map fun e =>
              (e.1.toList.flatMap escapeChar, ofScalar e.2), []) := by
        intro fuel hfuel
        rw [← List.append_nil (Json.memberChars _), readMembers_entries e entries hfuel]
      rw [hmembers _ (by omega)]
      rfl
  rw [parse?]
  simp only [hwhole, hread]
  rfl

end Lenient

end GraphBase.Json
