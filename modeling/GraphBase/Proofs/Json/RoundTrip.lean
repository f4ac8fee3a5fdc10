import GraphBase.Json.Text
import GraphBase.Proofs.Json.Numerals

/-!
# JSON texts that read back

A compact text reads back as the value it was written for (`parse?_render`), as long as the
numerals in the value are written properly.

Nothing is known of what stands behind a value inside a text but that it is a comma or a closing
bracket, and this is enough: a number ends there, and everything else ends by itself.  The reader
counts its steps, and it never takes more than two for a character.
-/

namespace GraphBase.Json

open GraphBase.Text (hexDigit hexValue?)
open GraphBase.Number (isDigit toDigits toDigits_ne_nil isDigit_of_mem_toDigits)

variable {rest : List Char} {fuel : Nat}

/-! ## Strings -/

theorem hexValue?_hexDigit : ∀ n < 16, hexValue? (hexDigit n) = some n := by decide

/-- The escape of a control character reads back. -/
theorem readEscape_control {c : Char} (hc : c.toNat < 0x20) :
    readEscape ('u' :: '0' :: '0' :: hexDigit (c.toNat / 16) :: hexDigit (c.toNat % 16) :: rest) =
      some (c, rest) := by
  have hhigh := hexValue?_hexDigit (c.toNat / 16) (by omega)
  have hlow := hexValue?_hexDigit (c.toNat % 16) (by omega)
  have hread : readHex4 ('0' :: '0' :: hexDigit (c.toNat / 16) :: hexDigit (c.toNat % 16) :: rest) =
      some (c.toNat, rest) := by
    have hzero : hexValue? '0' = some 0 := rfl
    simp only [readHex4, hzero, hhigh, hlow, Option.some.injEq, Prod.mk.injEq, and_true]
    omega
  rw [readEscape]
  simp only [hread]
  rw [if_neg (by omega), if_neg (by omega), Char.ofNat_toNat]

/-- **A character that was written is read back** in one step. -/
theorem readString_escapeChar (c : Char) :
    readString (fuel + 1) (escapeChar c ++ rest) =
      (readString fuel rest).map fun p => (c :: p.1, p.2) := by
  unfold escapeChar
  split_ifs with h₁ h₂ h₃ h₄ h₅ h₆ h₇ h₈
  · subst h₁; rfl
  · subst h₂; rfl
  · subst h₃; rfl
  · subst h₄; rfl
  · subst h₅; rfl
  · subst h₆; rfl
  · subst h₇; rfl
  · rw [List.cons_append, readString, if_neg (by decide), if_pos rfl]
    simp only [List.cons_append, List.nil_append, readEscape_control h₈]
  · rw [List.cons_append, List.nil_append, readString, if_neg h₁, if_neg h₂, if_neg h₈]

/-- **A string that was written is read back**, up to its closing quote. -/
theorem readString_append (cs : List Char) (hfuel : cs.length < fuel) :
    readString fuel (cs.flatMap escapeChar ++ '"' :: rest) = some (cs, rest) := by
  induction cs generalizing fuel with
  | nil =>
    cases fuel with
    | zero => omega
    | succ fuel => rfl
  | cons c cs ih =>
    cases fuel with
    | zero => omega
    | succ fuel =>
      rw [List.length_cons] at hfuel
      rw [List.flatMap_cons, List.append_assoc, readString_escapeChar, ih (by omega)]
      rfl

theorem length_le_length_flatMap_escapeChar (cs : List Char) :
    cs.length ≤ (cs.flatMap escapeChar).length := by
  induction cs with
  | nil => exact Nat.le_refl 0
  | cons c cs ih =>
    have hc : 0 < (escapeChar c).length := by
      unfold escapeChar
      split_ifs <;> exact Nat.succ_pos _
    rw [List.flatMap_cons, List.length_append, List.length_cons]
    omega

/-- The string behind an opening quote is read back. -/
theorem readString_stringChars (s : String) :
    readString ((s.toList.flatMap escapeChar ++ ['"'] ++ rest).length + 1)
      (s.toList.flatMap escapeChar ++ ['"'] ++ rest) = some (s.toList, rest) := by
  have hle := length_le_length_flatMap_escapeChar s.toList
  rw [List.append_assoc]
  refine readString_append s.toList ?_
  rw [List.length_append]
  omega

/-! ## Values that are written properly -/

mutual

/-- All numerals in the value are written properly. -/
def IsProper : Json → Prop
  | number n => n.IsProper
  | array items => AreProper items
  | object members => HaveProper members
  | null | bool _ | string _ => True

/-- All numerals in the items are written properly. -/
def AreProper : List Json → Prop
  | [] => True
  | x :: rest => x.IsProper ∧ AreProper rest

/-- All numerals in the members are written properly. -/
def HaveProper : List (String × Json) → Prop
  | [] => True
  | m :: rest => m.2.IsProper ∧ HaveProper rest

end

theorem haveProper_iff {members : List (String × Json)} :
    HaveProper members ↔ ∀ m ∈ members, m.2.IsProper := by
  induction members with
  | nil => exact iff_of_true trivial fun m hm => absurd hm List.not_mem_nil
  | cons m rest ih => rw [HaveProper, ih, List.forall_mem_cons]

/-! ## The beginning of a value -/

theorem skipSpace_cons {c : Char} (hc : isSpace c = false) (cs : List Char) :
    skipSpace (c :: cs) = c :: cs := by
  rw [skipSpace, List.dropWhile_cons, hc, if_neg Bool.false_ne_true]

/-- A character that a number begins with begins nothing else. -/
theorem notSpecial_of_begins {c : Char} (hc : isDigit c = true ∨ c = '-') :
    isSpace c = false ∧ c ≠ 'n' ∧ c ≠ 't' ∧ c ≠ 'f' ∧ c ≠ '"' ∧ c ≠ '[' ∧ c ≠ ']' ∧
      c ≠ '\x7b' := by
  have hother : ∀ d : Char, isDigit d = false → d ≠ '-' → c ≠ d := by
    rintro d hd hminus rfl
    rcases hc with hc | hc
    · rw [hd] at hc
      cases hc
    · exact hminus hc
  have hspace : isSpace c = false := by
    have h₁ := hother ' ' rfl (by decide)
    have h₂ := hother '\t' rfl (by decide)
    have h₃ := hother '\n' rfl (by decide)
    have h₄ := hother '\r' rfl (by decide)
    simp only [isSpace, beq_eq_false_iff_ne.2 h₁, beq_eq_false_iff_ne.2 h₂,
      beq_eq_false_iff_ne.2 h₃, beq_eq_false_iff_ne.2 h₄, Bool.or_self]
  refine ⟨hspace, ?_, ?_, ?_, ?_, ?_, ?_, ?_⟩ <;> exact hother _ rfl (by decide)

theorem exists_toChars_number (n : Numeral) :
    ∃ c cs, n.toChars = c :: cs ∧ (isDigit c = true ∨ c = '-') := by
  obtain ⟨negative, whole, fraction, exponent⟩ := n
  cases negative with
  | true => exact ⟨'-', _, rfl, .inr rfl⟩
  | false =>
    cases hds : toDigits whole with
    | nil => exact absurd hds (toDigits_ne_nil whole)
    | cons c cs =>
      have hc : isDigit c = true := isDigit_of_mem_toDigits (hds ▸ List.mem_cons_self)
      refine ⟨c, cs ++ (if fraction.isEmpty then [] else '.' :: fraction) ++
        Numeral.exponentText exponent, ?_, .inl hc⟩
      rw [Numeral.toChars]
      simp only [hds]
      rfl

/-- A value begins with a character that is neither a blank nor a closing bracket. -/
theorem exists_toChars (j : Json) :
    ∃ c cs, j.toChars = c :: cs ∧ isSpace c = false ∧ c ≠ ']' := by
  cases j with
  | null => exact ⟨_, _, by rw [toChars], by decide, by decide⟩
  | bool b => cases b <;> exact ⟨_, _, by rw [toChars], by decide, by decide⟩
  | number n =>
    obtain ⟨c, cs, hn, hc⟩ := exists_toChars_number n
    obtain ⟨hspace, -, -, -, -, -, hclose, -⟩ := notSpecial_of_begins hc
    exact ⟨c, cs, by rw [toChars, hn], hspace, hclose⟩
  | string s => exact ⟨_, _, by rw [toChars, stringChars]; rfl, by decide, by decide⟩
  | array items => exact ⟨_, _, by rw [toChars], by decide, by decide⟩
  | object members => exact ⟨_, _, by rw [toChars], by decide, by decide⟩

/-! ## Values -/

/-- A number is read back. -/
theorem readValue_number {n : Numeral} (hn : n.IsProper) (hrest : Numeral.Ends rest) :
    readValue (fuel + 1) (n.toChars ++ rest) = some (number n, rest) := by
  have hread := Numeral.read_toChars hn hrest
  obtain ⟨c, cs, hchars, hc⟩ := exists_toChars_number n
  obtain ⟨hspace, hn, ht, hf, hquote, hopen, -, hbrace⟩ := notSpecial_of_begins hc
  rw [hchars, List.cons_append] at hread ⊢
  rw [readValue, skipSpace_cons hspace]
  split
  · rename_i heq
    exact absurd (List.cons.inj heq).1 hn
  · rename_i heq
    exact absurd (List.cons.inj heq).1 ht
  · rename_i heq
    exact absurd (List.cons.inj heq).1 hf
  · rename_i heq
    exact absurd (List.cons.inj heq).1 hquote
  · rename_i heq
    exact absurd (List.cons.inj heq).1 hopen
  · rename_i heq
    exact absurd (List.cons.inj heq).1 hbrace
  · rw [hread]
    rfl

theorem toChars_string_append (s : String) (rest : List Char) :
    (string s).toChars ++ rest = '"' :: (s.toList.flatMap escapeChar ++ ['"'] ++ rest) := by
  rw [toChars, stringChars]
  rfl

/-- What a reader finds behind an opening bracket is the first item. -/
theorem skipSpace_itemChars (x : Json) (xs : List Json) (rest : List Char) :
    ∃ c cs, itemChars (x :: xs) ++ rest = c :: cs ∧ skipSpace (c :: cs) = c :: cs ∧ c ≠ ']' := by
  obtain ⟨c, cs, hx, hspace, hclose⟩ := exists_toChars x
  cases xs with
  | nil => exact ⟨c, _, by rw [itemChars, hx]; rfl, skipSpace_cons hspace _, hclose⟩
  | cons y ys => exact ⟨c, _, by rw [itemChars, hx]; rfl, skipSpace_cons hspace _, hclose⟩

/-- A last member, as a reader takes it apart. -/
theorem memberChars_singleton_append (k : String) (v : Json) (rest : List Char) :
    memberChars [(k, v)] ++ rest =
      '"' :: (k.toList.flatMap escapeChar ++ ['"'] ++ ':' :: (v.toChars ++ '\x7d' :: rest)) := by
  rw [memberChars, stringChars]
  simp only [List.cons_append, List.append_assoc, List.nil_append]

/-- A member before others, as a reader takes it apart. -/
theorem memberChars_cons_append (k : String) (v : Json) (m : String × Json)
    (ms : List (String × Json)) (rest : List Char) :
    memberChars ((k, v) :: m :: ms) ++ rest =
      '"' :: (k.toList.flatMap escapeChar ++ ['"'] ++
        ':' :: (v.toChars ++ ',' :: (memberChars (m :: ms) ++ rest))) := by
  rw [memberChars, stringChars]
  simp only [List.cons_append, List.append_assoc, List.nil_append]

/-- What a reader finds behind an opening brace is the name of the first member. -/
theorem exists_memberChars (m : String × Json) (ms : List (String × Json)) (rest : List Char) :
    ∃ cs, memberChars (m :: ms) ++ rest = '"' :: cs := by
  obtain ⟨k, v⟩ := m
  cases ms with
  | nil => exact ⟨_, memberChars_singleton_append k v rest⟩
  | cons m ms => exact ⟨_, memberChars_cons_append k v m ms rest⟩

mutual

/-- **A value that was written is read back.** -/
theorem readValue_toChars : ∀ (j : Json) (fuel : Nat) (rest : List Char), j.IsProper →
    2 * j.toChars.length ≤ fuel → Numeral.Ends rest →
      readValue fuel (j.toChars ++ rest) = some (j, rest)
  | j, 0, rest, _, hfuel, _ => by
    obtain ⟨c, cs, hj, -⟩ := exists_toChars j
    rw [hj, List.length_cons] at hfuel
    omega
  | null, fuel + 1, rest, _, _, _ => by
    rw [toChars]
    rfl
  | bool true, fuel + 1, rest, _, _, _ => by
    rw [toChars]
    rfl
  | bool false, fuel + 1, rest, _, _, _ => by
    rw [toChars]
    rfl
  | number n, fuel + 1, rest, hj, _, hrest => by
    rw [IsProper] at hj
    rw [toChars]
    exact readValue_number hj hrest
  | string s, fuel + 1, rest, _, _, _ => by
    rw [toChars_string_append, readValue, skipSpace_cons (by decide)]
    simp only [readString_stringChars, Option.map_some, String.ofList_toList]
  | array [], fuel + 1, rest, _, _, _ => by
    rw [toChars, itemChars]
    rfl
  | array (x :: xs), fuel + 1, rest, hj, hfuel, _ => by
    rw [IsProper] at hj
    rw [toChars, List.length_cons] at hfuel
    have hitems := readItems_itemChars x xs fuel rest hj (by omega)
    obtain ⟨c, cs, heq, hskip, hclose⟩ := skipSpace_itemChars x xs rest
    rw [toChars, List.cons_append, readValue, skipSpace_cons (by decide)]
    simp only
    rw [heq] at hitems ⊢
    rw [hskip]
    split
    · rename_i h
      exact absurd (List.cons.inj h).1 hclose
    · rw [hitems]
      rfl
  | object [], fuel + 1, rest, _, _, _ => by
    rw [toChars, memberChars]
    rfl
  | object (m :: ms), fuel + 1, rest, hj, hfuel, _ => by
    rw [IsProper] at hj
    rw [toChars, List.length_cons] at hfuel
    have hmembers := readMembers_memberChars m ms fuel rest hj (by omega)
    obtain ⟨cs, heq⟩ := exists_memberChars m ms rest
    rw [toChars, List.cons_append, readValue, skipSpace_cons (by decide)]
    have hskip := skipSpace_cons (show isSpace '"' = false by decide) cs
    rw [heq] at hmembers ⊢
    simp only [hskip]
    split
    · rename_i h
      exact absurd (List.cons.inj h).1 (by decide)
    · rw [hmembers]
      rfl

/-- Items that were written are read back. -/
theorem readItems_itemChars : ∀ (x : Json) (xs : List Json) (fuel : Nat) (rest : List Char),
    AreProper (x :: xs) → 2 * (itemChars (x :: xs)).length ≤ fuel →
      readItems fuel (itemChars (x :: xs) ++ rest) = some (x :: xs, rest)
  | x, [], 0, rest, _, hfuel => by
    rw [itemChars, List.length_append, List.length_singleton] at hfuel
    omega
  | x, [], fuel + 1, rest, hj, hfuel => by
    rw [AreProper] at hj
    rw [itemChars, List.length_append, List.length_singleton] at hfuel
    have hx := readValue_toChars x fuel (']' :: rest) hj.1 (by omega)
      (Numeral.ends_cons (.inr (.inl rfl)))
    rw [itemChars, List.append_assoc, List.singleton_append, readItems, hx]
    rfl
  | x, y :: ys, 0, rest, _, hfuel => by
    rw [itemChars, List.length_append, List.length_cons] at hfuel
    omega
  | x, y :: ys, fuel + 1, rest, hj, hfuel => by
    rw [AreProper] at hj
    rw [itemChars, List.length_append, List.length_cons] at hfuel
    have hx := readValue_toChars x fuel (',' :: (itemChars (y :: ys) ++ rest)) hj.1 (by omega)
      (Numeral.ends_cons (.inl rfl))
    have hys := readItems_itemChars y ys fuel rest hj.2 (by omega)
    rw [itemChars, List.append_assoc, List.cons_append, readItems, hx]
    simp only
    rw [skipSpace_cons (by decide)]
    simp only [hys]
    rfl

/-- Members that were written are read back. -/
theorem readMembers_memberChars : ∀ (m : String × Json) (ms : List (String × Json)) (fuel : Nat)
    (rest : List Char), HaveProper (m :: ms) → 2 * (memberChars (m :: ms)).length ≤ fuel →
      readMembers fuel (memberChars (m :: ms) ++ rest) = some (m :: ms, rest)
  | m, ms, 0, rest, _, hfuel => by
    obtain ⟨cs, heq⟩ := exists_memberChars m ms []
    rw [List.append_nil] at heq
    rw [heq, List.length_cons] at hfuel
    omega
  | (k, v), [], fuel + 1, rest, hj, hfuel => by
    rw [HaveProper] at hj
    have hlength := congrArg List.length (memberChars_singleton_append k v [])
    simp only [List.length_cons, List.length_append, List.append_nil] at hlength
    have hv := readValue_toChars v fuel ('\x7d' :: rest) hj.1 (by omega)
      (Numeral.ends_cons (.inr (.inr rfl)))
    rw [memberChars_singleton_append, readMembers, skipSpace_cons (by decide)]
    simp only [readString_stringChars]
    rw [skipSpace_cons (by decide)]
    simp only [hv]
    rw [skipSpace_cons (by decide)]
    simp only [String.ofList_toList]
  | (k, v), m :: ms, fuel + 1, rest, hj, hfuel => by
    rw [HaveProper] at hj
    have hlength := congrArg List.length (memberChars_cons_append k v m ms [])
    simp only [List.length_cons, List.length_append, List.append_nil] at hlength
    have hv := readValue_toChars v fuel (',' :: (memberChars (m :: ms) ++ rest)) hj.1 (by omega)
      (Numeral.ends_cons (.inl rfl))
    have hms := readMembers_memberChars m ms fuel rest hj.2 (by omega)
    rw [memberChars_cons_append, readMembers, skipSpace_cons (by decide)]
    simp only [readString_stringChars]
    rw [skipSpace_cons (by decide)]
    simp only [hv]
    rw [skipSpace_cons (by decide)]
    simp only [hms, Option.map_some, String.ofList_toList]

end

/-- **A text that was written for a value reads as this value.** -/
theorem parse?_render {j : Json} (hj : j.IsProper) : parse? j.render = some j := by
  have hread := readValue_toChars j (2 * j.toChars.length + 2) [] hj (by omega) Numeral.ends_nil
  rw [List.append_nil] at hread
  rw [parse?, render, String.toList_ofList, parseChars?, hread]
  rfl

end GraphBase.Json
