import GraphBase.Json.Numeral
import GraphBase.Proofs.Number.Digits

/-!
# Numerals that read back

A numeral is *written properly* if its fraction is made of digits.  Such a numeral reads back as
it was written, whatever comes behind it, as long as that does not go on with the number
(`read_toChars`).  Integers are written properly, and so is every floating point number
(`isProper_ofInt`, `isProper_ofBinary64?`).
-/

namespace GraphBase.Json.Numeral

open GraphBase.Number

/-- The fraction is made of digits. -/
def IsProper (n : Numeral) : Prop := ∀ c ∈ n.fraction, isDigit c = true

/-- Nothing at the front of a text goes on with a number. -/
def Ends (rest : List Char) : Prop :=
  ∀ c ∈ rest.head?, isDigit c = false ∧ c ≠ '.' ∧ c ≠ 'e' ∧ c ≠ 'E'

variable {n : Numeral} {rest : List Char}

theorem ends_nil : Ends [] := fun c hc => by cases hc

theorem ends_cons {c : Char} (hc : c = ',' ∨ c = ']' ∨ c = '\x7d') : Ends (c :: rest) := by
  intro d hd
  rw [List.head?_cons, Option.mem_some_iff] at hd
  rw [← hd]
  rcases hc with rfl | rfl | rfl <;> decide

/-! ## The three parts -/

theorem takeDigits_append {ds : List Char} (hds : ∀ c ∈ ds, isDigit c = true)
    (hrest : ∀ c ∈ rest.head?, isDigit c = false) : takeDigits (ds ++ rest) = (ds, rest) := by
  obtain ⟨htake, hdrop⟩ := takeWhile_append hds hrest
  rw [takeDigits, htake, hdrop]

/-- An integer part reads back. -/
theorem readWhole_append (k : Nat) (hrest : ∀ c ∈ rest.head?, isDigit c = false) :
    readWhole (toDigits k ++ rest) = some (k, rest) := by
  rcases Nat.eq_zero_or_pos k with rfl | hk
  · rfl
  · have hne := toDigits_ne_nil k
    have hhead := head?_toDigits_ne_zero hk
    have htake : takeDigits (toDigits k ++ rest) = (toDigits k, rest) :=
      takeDigits_append (fun c hc => isDigit_of_mem_toDigits hc) hrest
    have hread := ofDigits_toDigits k
    cases hds : toDigits k with
    | nil => exact absurd hds hne
    | cons c ds =>
      rw [hds] at hhead htake hread
      rw [List.cons_append] at htake ⊢
      rw [readWhole]
      · rw [htake]
        simp only [hread]
      · rintro rest' heq
        exact hhead (congrArg (fun l => List.head? l) heq)

/-- A fraction reads back. -/
theorem readFraction_append {ds : List Char} (hds : ∀ c ∈ ds, isDigit c = true)
    (hrest : ∀ c ∈ rest.head?, isDigit c = false ∧ c ≠ '.') :
    readFraction ((if ds.isEmpty then [] else '.' :: ds) ++ rest) = some (ds, rest) := by
  cases ds with
  | nil =>
    cases rest with
    | nil => rfl
    | cons c rest =>
      have hpoint := (hrest c rfl).2
      show readFraction (c :: rest) = some ([], c :: rest)
      unfold readFraction
      split
      · rename_i heq
        exact absurd (List.cons.inj heq).1 hpoint
      · rfl
  | cons d ds =>
    have htake := takeDigits_append hds fun c hc => (hrest c hc).1
    show readFraction ('.' :: (d :: ds ++ rest)) = some (d :: ds, rest)
    rw [readFraction, htake]

/-- An exponent reads back. -/
theorem readExponent_append (e : Option Int)
    (hrest : ∀ c ∈ rest.head?, isDigit c = false ∧ c ≠ 'e' ∧ c ≠ 'E') :
    readExponent (exponentText e ++ rest) = some (e, rest) := by
  cases e with
  | none =>
    cases rest with
    | nil => rfl
    | cons c rest =>
      obtain ⟨-, hsmall, hlarge⟩ := hrest c rfl
      show readExponent (c :: rest) = some (none, c :: rest)
      unfold readExponent
      split
      · rename_i heq
        exact absurd (List.cons.inj heq).1 hsmall
      · rename_i heq
        exact absurd (List.cons.inj heq).1 hlarge
      · rfl
  | some e =>
    have htake : takeDigits (toDigits e.natAbs ++ rest) = (toDigits e.natAbs, rest) :=
      takeDigits_append (fun c hc => isDigit_of_mem_toDigits hc) fun c hc => (hrest c hc).1
    have hread := ofDigits_toDigits e.natAbs
    cases hds : toDigits e.natAbs with
    | nil => exact absurd hds (toDigits_ne_nil _)
    | cons c ds =>
      rw [hds] at htake hread
      rw [exponentText, hds]
      split_ifs with he
      · show readExponent ('e' :: '-' :: (c :: ds ++ rest)) = _
        simp only [readExponent, htake, hread]
        have hneg : -(e.natAbs : Int) = e := by omega
        rw [hneg, if_true]
      · show readExponent ('e' :: '+' :: (c :: ds ++ rest)) = _
        simp only [readExponent, htake, hread]
        have hpos : (e.natAbs : Int) = e := by omega
        rw [hpos]
        rfl

/-! ## The whole -/

theorem head?_whole_append (k : Nat) (cs : List Char) :
    ∀ c ∈ (toDigits k ++ cs).head?, isDigit c = true := by
  intro c hc
  rw [List.head?_append_of_ne_nil _ (toDigits_ne_nil k)] at hc
  exact isDigit_of_mem_toDigits (List.mem_of_mem_head? hc)

/-- What comes behind an integer part does not go on with it. -/
theorem head?_behind_whole (hrest : Ends rest) (ds : List Char) (e : Option Int) :
    ∀ c ∈ ((if ds.isEmpty then [] else '.' :: ds) ++ (exponentText e ++ rest)).head?,
      isDigit c = false := by
  intro c hc
  cases ds with
  | cons d ds =>
    obtain rfl := Option.some.inj hc
    rfl
  | nil =>
    cases e with
    | some e =>
      obtain rfl := Option.some.inj hc
      rfl
    | none => exact (hrest c hc).1

/-- What comes behind a fraction does not go on with it. -/
theorem head?_behind_fraction (hrest : Ends rest) (e : Option Int) :
    ∀ c ∈ (exponentText e ++ rest).head?, isDigit c = false ∧ c ≠ '.' := by
  intro c hc
  cases e with
  | some e =>
    obtain rfl := Option.some.inj hc
    exact ⟨rfl, by decide⟩
  | none =>
    obtain ⟨hdigit, hpoint, -⟩ := hrest c hc
    exact ⟨hdigit, hpoint⟩

/-- **A numeral that is written properly reads back.** -/
theorem read_toChars (hn : n.IsProper) (hrest : Ends rest) :
    read (n.toChars ++ rest) = some (n, rest) := by
  obtain ⟨negative, whole, fraction, exponent⟩ := n
  let tail := (if fraction.isEmpty then [] else '.' :: fraction) ++ (exponentText exponent ++ rest)
  have hwhole := readWhole_append whole (head?_behind_whole hrest fraction exponent)
  have hfraction := readFraction_append hn (head?_behind_fraction hrest exponent)
  have hexponent := readExponent_append exponent fun c hc =>
    ⟨(hrest c hc).1, (hrest c hc).2.2⟩
  have hchars : toChars ⟨negative, whole, fraction, exponent⟩ ++ rest =
      (if negative then ['-'] else []) ++ (toDigits whole ++ tail) := by
    rw [toChars]
    simp only [List.append_assoc, tail]
  rw [hchars]
  cases negative with
  | true =>
    show read ('-' :: (toDigits whole ++ tail)) = _
    simp only [read, tail, hwhole, hfraction, hexponent]
  | false =>
    show read (toDigits whole ++ tail) = _
    rw [read]
    · simp only [tail, hwhole, hfraction, hexponent]
    · intro cs heq
      have hhead := head?_whole_append whole tail
      rw [heq] at hhead
      exact absurd (hhead '-' rfl) (by decide)

/-! ## Numerals that are written -/

theorem isProper_ofInt (i : Int) : (ofInt i).IsProper := fun c hc => by cases hc

theorem isProper_numeral (layout : DataLayout) (negative : Bool) (d : Decimal) :
    (layout.numeral negative d).IsProper := by
  have hzero : ∀ c ∈ ['0'], isDigit c = true := by
    intro c hc
    rw [List.mem_singleton.1 hc]
    decide
  rw [DataLayout.numeral]
  split_ifs
  · exact hzero
  · split
    · exact hzero
    · intro c hc
      rcases List.mem_append.1 hc with hc | hc
      · rw [(List.mem_replicate.1 hc).2]
        decide
      · exact isDigit_of_mem_toDigits hc
  · intro c hc
    exact isDigit_of_mem_toDigits (List.mem_of_mem_drop hc)

theorem isProper_of_ofUnpacked? {f : Format} {layout : DataLayout} {u : Format.Unpacked}
    (h : ofUnpacked? f layout u = some n) : n.IsProper := by
  cases u with
  | finite negative m e =>
    rw [ofUnpacked?, Option.some_inj] at h
    rw [← h]
    exact isProper_numeral layout negative _
  | _ => cases h

end GraphBase.Json.Numeral
