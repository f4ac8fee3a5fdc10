import Mathlib.Data.List.TakeWhile
import GraphBase.Proofs.Json.Escapes

/-!
# Labels of keys

The path of a key has the key between quotes, with a backslash in front of every quote of its own
(`keyPath`).  What this label denotes depends on who reads it.

* With the escapes of JSON, where a quote behind a backslash does not end the label, it denotes the
  key if the key has no backslash, and only then (`denotes_escapeQuotes_iff`).
* The database ends the label at the first quote, and the path at the first NUL.  A key with a
  quote, a backslash or a NUL either leaves the label without an end, or it leads to a label that
  does not name it (`readPath_keyPath_of_mem`, `labelMatches_eq_false`).

## Marks

Both are a matter of counting.  An escape that stands for a quote or for a backslash has one of them
behind the backslash, and an escape of digits has a letter there.  So count these characters
(`isMark`): whatever a label is read as has no more of them than the label, and if there is a
backslash that begins an escape, it has less (`Denotes.marks_le`, `Escaped.marks_codesOf_lt`).  But a
label that denotes a key is written with as many marks as the key, and its quotes twice.
-/

namespace GraphBase.Json

/-- The quote, the backslash, and the two letters behind which an escape has digits. -/
def isMark (n : Nat) : Bool := [0x22, 0x5C, 0x75, 0x78].contains n

/-- How many marks some characters have. -/
def marks (cs : List Char) : Nat := cs.countP fun c => isMark c.toNat

/-- What a character counts. -/
def weight (n : Nat) : Nat := if isMark n then 1 else 0

theorem weight_le (n : Nat) : weight n ≤ 1 := by
  rw [weight]
  split_ifs <;> omega

theorem weight_of_mark {n : Nat} (h : isMark n = true) : weight n = 1 := if_pos h

theorem weight_of_notMark {n : Nat} (h : isMark n = false) : weight n = 0 :=
  if_neg (Bool.eq_false_iff.1 h)

theorem marks_cons (c : Char) (cs : List Char) : marks (c :: cs) = marks cs + weight c.toNat :=
  List.countP_cons

theorem marks_le_of_suffix {cs ds : List Char} (h : cs <:+ ds) : marks cs ≤ marks ds :=
  h.sublist.countP_le

theorem isMark_eq_false {n : Nat} (h : 0x80 ≤ n) : isMark n = false := by
  rw [isMark, Bool.eq_false_iff, ne_eq, List.contains_iff_mem]
  simp only [List.mem_cons, List.not_mem_nil, or_false]
  omega

/-! ## With the escapes of JSON -/

/-- A label and the quote behind it denote some characters: a backslash begins an escape, the first
quote that is in none of them ends the label, and nothing follows. -/
inductive Denotes : List Char → List Char → Prop
  | nil : Denotes ['"'] []
  | plain {c : Char} {written chars : List Char} (hquote : c ≠ '"') (hbackslash : c ≠ '\\')
      (h : Denotes written chars) : Denotes (c :: written) (c :: chars)
  | escape {c : Char} {written rest chars : List Char}
      (hescape : readEscape written = some (c, rest)) (h : Denotes rest chars) :
      Denotes ('\\' :: written) (c :: chars)

theorem suffix_of_readHex4 {cs rest : List Char} {n : Nat} (h : readHex4 cs = some (n, rest)) :
    rest <:+ cs := by
  unfold readHex4 at h
  split at h
  · split at h
    · obtain ⟨-, rfl⟩ := Prod.mk.inj (Option.some.inj h)
      exact ⟨[_, _, _, _], rfl⟩
    · cases h
  · cases h

theorem weight_add_le (c : Char) : weight c.toNat + [c].count '"' + [c].count '\\' ≤ 2 := by
  have hmark := weight_le c.toNat
  by_cases hquote : c = '"'
  · subst hquote
    decide
  · by_cases hbackslash : c = '\\'
    · subst hbackslash
      decide
    · rw [List.count_singleton, List.count_singleton, if_neg (by simpa using hquote),
        if_neg (by simpa using hbackslash)]
      omega

/-- An escape is written with a mark, and for a quote or a backslash with two. -/
theorem marks_readEscape {cs rest : List Char} {c : Char} (h : readEscape cs = some (c, rest)) :
    weight c.toNat + [c].count '"' + [c].count '\\' + marks rest ≤ marks cs + 1 := by
  have hdigits : ∀ {more : List Char}, rest <:+ more →
      weight c.toNat + [c].count '"' + [c].count '\\' + marks rest ≤
        marks ('u' :: more) + 1 := by
    intro more hmore
    have hweight := weight_add_le c
    have hle := marks_le_of_suffix hmore
    have hletter : weight 'u'.toNat = 1 := rfl
    rw [marks_cons, hletter]
    omega
  unfold readEscape at h
  split at h
  rotate_left 8
  · split at h
    · cases h
    · rename_i n more hhigh
      have hmore := suffix_of_readHex4 hhigh
      split_ifs at h
      · split at h
        · split at h
          · split_ifs at h
            obtain ⟨-, rfl⟩ := Prod.mk.inj (Option.some.inj h)
            rename_i hlow _
            exact hdigits (((suffix_of_readHex4 hlow).trans ⟨['\\', 'u'], rfl⟩).trans hmore)
          · cases h
        · cases h
      · obtain ⟨-, rfl⟩ := Prod.mk.inj (Option.some.inj h)
        exact hdigits hmore
  · cases h
  -- every other escape is one character behind the backslash
  all_goals
    obtain ⟨rfl, rfl⟩ := Prod.mk.inj (Option.some.inj h)
    rw [marks_cons, Nat.add_comm _ (marks _), Nat.add_assoc (marks _)]
    refine Nat.add_le_add_left ?_ _
    decide

/-- **A label has the marks of what it denotes**, and one more for every quote and every
backslash. -/
theorem Denotes.marks_le {written chars : List Char} (h : Denotes written chars) :
    marks chars + chars.count '"' + chars.count '\\' + 1 ≤ marks written := by
  induction h with
  | nil => decide
  | plain hquote hbackslash _ ih =>
    rw [marks_cons, marks_cons, List.count_cons_of_ne hquote, List.count_cons_of_ne hbackslash]
    omega
  | @escape c written rest chars hescape _ ih =>
    have hle := marks_readEscape hescape
    have hbackslash : weight '\\'.toNat = 1 := rfl
    have hcount : ∀ d, (c :: chars).count d = [c].count d + chars.count d := by
      intro d
      rw [← List.singleton_append, List.count_append]
    rw [marks_cons, marks_cons, hcount, hcount, hbackslash]
    omega

theorem marks_escapeQuotes (cs : List Char) : marks (escapeQuotes cs) = marks cs + cs.count '"' := by
  induction cs with
  | nil => rfl
  | cons c cs ih =>
    rw [escapeQuotes] at ih ⊢
    rw [List.flatMap_cons]
    by_cases hc : c = '"'
    · subst hc
      have htwo : weight '\\'.toNat = 1 := rfl
      rw [if_pos rfl, List.cons_append, List.singleton_append, marks_cons, marks_cons, marks_cons,
        ih, List.count_cons_self, htwo]
      omega
    · rw [if_neg hc, List.singleton_append, marks_cons, marks_cons, ih, List.count_cons_of_ne hc]
      omega

/-- The path of a key is a label, behind a point and a quote. -/
theorem toList_keyPath (key : String) :
    (keyPath key).toList = "$.\"".toList ++ (escapeQuotes key.toList ++ ['"']) := by
  show (String.ofList ("$.\"".toList ++ escapeQuotes key.toList ++ ['"'])).toList = _
  rw [String.toList_ofList, List.append_assoc]

/-- **With the escapes of JSON, the path of a key denotes the key** if there is no backslash in it,
and only then. -/
theorem denotes_escapeQuotes_iff (cs : List Char) :
    Denotes (escapeQuotes cs ++ ['"']) cs ↔ '\\' ∉ cs := by
  constructor
  · intro h
    have hle := h.marks_le
    have hlabel : marks (escapeQuotes cs ++ ['"']) = marks cs + cs.count '"' + 1 := by
      rw [marks, List.countP_append, ← marks, marks_escapeQuotes]
      rfl
    rw [← List.count_eq_zero]
    omega
  · intro h
    induction cs with
    | nil => exact .nil
    | cons c cs ih =>
      rw [List.mem_cons, not_or] at h
      rw [escapeQuotes] at ih ⊢
      rw [List.flatMap_cons, List.append_assoc]
      by_cases hc : c = '"'
      · subst hc
        exact .escape rfl (ih h.2)
      · rw [if_neg hc]
        exact .plain hc (Ne.symm h.1) (ih h.2)

/-! ## As the database reads a label -/

namespace Escaped

variable {bytes rest : List UInt8} {fuel n : Nat}

/-- How many marks some bytes have. -/
def markBytes (bytes : List UInt8) : Nat := bytes.countP fun b => isMark b.toNat

theorem markBytes_cons (b : UInt8) (bytes : List UInt8) :
    markBytes (b :: bytes) = markBytes bytes + weight b.toNat := List.countP_cons

/-- No byte with which a longer character begins makes up a short one. -/
def IsShortest (bytes : List UInt8) : Prop :=
  ∀ b rest, b :: rest <:+ bytes → ¬b < 0xC0 → 0x80 ≤ (takeCode (b :: rest)).1

theorem IsShortest.of_suffix (h : IsShortest bytes) (hrest : rest <:+ bytes) : IsShortest rest :=
  fun b more hmore hb => h b more (hmore.trans hrest) hb

theorem IsShortest.cons {b : UInt8} (h : IsShortest rest)
    (hb : ¬b < 0xC0 → 0x80 ≤ (takeCode (b :: rest)).1) : IsShortest (b :: rest) := by
  intro b' rest' hsuffix hb'
  rcases List.suffix_cons_iff.1 hsuffix with heq | hsuffix
  · obtain ⟨rfl, rfl⟩ := List.cons.inj heq
    exact hb hb'
  · exact h b' rest' hsuffix hb'

theorem IsShortest.append {more : List UInt8} (h : IsShortest rest)
    (hmore : ∀ b ∈ more, isContinuation b = true) : IsShortest (more ++ rest) := by
  induction more with
  | nil => exact h
  | cons b more ih =>
    rw [List.forall_mem_cons] at hmore
    refine (ih hmore.2).cons fun hb => ?_
    have hlow := hmore.1
    rw [isContinuation, Bool.and_eq_true, decide_eq_true_eq, decide_eq_true_eq] at hlow
    exact absurd hlow.2 hb

/-- A character is written with a first byte and bytes that go on with it. -/
theorem exists_utf8EncodeChar (c : Char) : ∃ b, ∃ more : List UInt8,
    String.utf8EncodeChar c = b :: more ∧ (∀ d ∈ more, isContinuation d = true) ∧
      (¬b < 0xC0 → 0x80 ≤ c.toNat) := by
  have htail : ∀ ns : List Nat, ∀ d ∈ ns.map tailByte, isContinuation d = true := by
    intro ns d hd
    obtain ⟨n, -, rfl⟩ := List.mem_map.1 hd
    exact isContinuation_tailByte n
  have hsame : c.toNat = c.val.toNat := rfl
  rw [hsame]
  unfold String.utf8EncodeChar
  simp only
  generalize c.val.toNat = v
  split_ifs with h₁ h₂ h₃
  · refine ⟨_, [], rfl, htail [], fun hb => absurd ?_ hb⟩
    have hlead : (0xC0 : UInt8).toNat = 192 := rfl
    rw [UInt8.lt_iff_toNat_lt, toNat_ofNat (by omega), hlead]
    omega
  · exact ⟨_, _, rfl, htail [v], fun _ => by omega⟩
  · exact ⟨_, _, rfl, htail [v / 64, v], fun _ => by omega⟩
  · exact ⟨_, _, rfl, htail [v / 4096, v / 64, v], fun _ => by omega⟩

theorem isShortest_flatMap (cs : List Char) : IsShortest (cs.flatMap String.utf8EncodeChar) := by
  induction cs with
  | nil => exact fun b rest hsuffix => absurd (List.suffix_nil.1 hsuffix) (List.cons_ne_nil _ _)
  | cons c cs ih =>
    have htake := takeCode_utf8EncodeChar c (starts_flatMap cs)
    obtain ⟨b, more, hbytes, hmore, hb⟩ := exists_utf8EncodeChar c
    rw [hbytes, List.cons_append] at htake
    rw [List.flatMap_cons, hbytes, List.cons_append]
    refine (ih.append hmore).cons fun hlead => ?_
    rw [htake]
    exact hb hlead

/-- A character that is read takes bytes from the front, and a mark for a mark. -/
structure Takes (bytes : List UInt8) (read : Nat × List UInt8) : Prop where
  suffix : read.2 <:+ bytes
  marks_le : markBytes read.2 + weight read.1 ≤ markBytes bytes

theorem Takes.of_mark {b : UInt8} (hb : isMark b.toNat = true) (hrest : rest <:+ bytes) :
    Takes (b :: bytes) (n, rest) := by
  have hle : markBytes rest ≤ markBytes bytes := hrest.sublist.countP_le
  refine ⟨hrest.trans (List.suffix_cons b bytes), ?_⟩
  rw [markBytes_cons, weight_of_mark hb]
  exact Nat.add_le_add hle (weight_le n)

theorem Takes.of_notMark (hn : isMark n = false) (hrest : rest <:+ bytes) :
    Takes bytes (n, rest) := by
  refine ⟨hrest, ?_⟩
  rw [weight_of_notMark hn]
  exact hrest.sublist.countP_le

theorem Takes.of_suffix {read : Nat × List UInt8} (h : Takes rest read) (hrest : rest <:+ bytes) :
    Takes bytes read :=
  ⟨h.suffix.trans hrest, Nat.le_trans h.marks_le hrest.sublist.countP_le⟩

theorem takes_takeCode (h : IsShortest bytes) : Takes bytes (takeCode bytes) := by
  cases bytes with
  | nil => exact .of_notMark rfl (List.nil_suffix)
  | cons b rest =>
    have hread := h b rest List.suffix_rfl
    rw [takeCode] at hread ⊢
    split_ifs at hread ⊢ with hb
    · cases hmark : isMark b.toNat with
      | true => exact .of_mark hmark List.suffix_rfl
      | false => exact .of_notMark hmark (List.suffix_cons b rest)
    · exact .of_notMark (isMark_eq_false (hread hb))
        ((List.drop_suffix _ rest).trans (List.suffix_cons b rest))

/-- The second half of a surrogate pair is taken from the front. -/
theorem suffix_of_secondHalf? {low : Nat} (h : secondHalf? bytes = some (low, rest)) :
    rest <:+ bytes := by
  unfold secondHalf? at h
  split at h
  · simp only at h
    split_ifs at h
    obtain ⟨-, rfl⟩ := Prod.mk.inj (Option.some.inj h)
    exact ⟨[_, _, _, _, _, _], rfl⟩
  · cases h

/-- An escape that stands for a mark has one. -/
theorem takes_takeEscape (bytes : List UInt8) : Takes bytes (takeEscape bytes) := by
  have hshort : ∀ e ∈ shortEscapes, isMark e.2 = true → isMark e.1.toNat = true := by decide
  unfold takeEscape
  split
  · rename_i a b c d rest
    have hrest : rest <:+ a :: b :: c :: d :: rest := ⟨[a, b, c, d], rfl⟩
    simp only
    split_ifs
    · split
      · rename_i hlow
        exact .of_mark (by decide) ((suffix_of_secondHalf? hlow).trans hrest)
      · exact .of_mark (by decide) hrest
    · exact .of_mark (by decide) hrest
  · exact .of_mark (by decide) ⟨[_, _], rfl⟩
  · rename_i b rest _ _
    split
    · rename_i letter n hfind
      have hletter : letter.toNat = b.toNat := by simpa using List.find?_some hfind
      cases hmark : isMark n with
      | true =>
        have hb := hshort _ (List.mem_of_find?_eq_some hfind) hmark
        exact .of_mark (hletter ▸ hb) List.suffix_rfl
      | false => exact .of_notMark hmark (List.suffix_cons b rest)
    · split_ifs
      · exact .of_notMark (by decide) List.nil_suffix
      · exact .of_notMark (by decide) (List.suffix_cons b rest)
  · exact .of_notMark (by decide) List.nil_suffix

theorem skipBreaks_suffix (bytes : List UInt8) : skipBreaks bytes <:+ bytes := by
  fun_induction skipBreaks bytes with
  | case1 rest ih => exact ih.trans ⟨[_, _], rfl⟩
  | case2 rest ih => exact ih.trans ⟨[_, _, _], rfl⟩
  | case3 rest _ ih => exact ih.trans ⟨[_, _], rfl⟩
  | case4 rest ih => exact ih.trans ⟨[_, _, _, _], rfl⟩
  | case5 rest ih => exact ih.trans ⟨[_, _, _, _], rfl⟩
  | case6 bytes => exact List.suffix_rfl

/-- **The backslash that begins an escape is a mark that nothing is read for.** -/
theorem takes_takeBackslash {bytes : List UInt8} (h : IsShortest bytes) :
    Takes bytes (takeBackslash (backslash :: bytes)) := by
  rw [takeBackslash]
  split_ifs with hlength
  · exact takes_takeEscape bytes
  · have hsuffix : skipBreaks (backslash :: bytes) <:+ bytes := by
      rcases List.suffix_cons_iff.1 (skipBreaks_suffix (backslash :: bytes)) with heq | hsuffix
      · exact absurd (congrArg List.length heq) hlength
      · exact hsuffix
    split
    · rename_i rest heq
      rw [heq] at hsuffix
      exact (takes_takeEscape rest).of_suffix ((List.suffix_cons _ rest).trans hsuffix)
    · exact (takes_takeCode (h.of_suffix hsuffix)).of_suffix hsuffix

/-- How many marks the characters have that some bytes are read as. -/
def codeMarks (codes : List Code) : Nat := (codes.map (·.value)).countP isMark

theorem codeMarks_cons (code : Code) (codes : List Code) :
    codeMarks (code :: codes) = codeMarks codes + weight code.value := List.countP_cons

/-- What some bytes are read as has no more marks than they have. -/
theorem marks_codesOf_le (h : IsShortest bytes) :
    codeMarks (codesOf fuel bytes) ≤ markBytes bytes := by
  induction fuel generalizing bytes with
  | zero => exact Nat.zero_le _
  | succ fuel ih =>
    cases bytes with
    | nil => exact Nat.zero_le _
    | cons b rest =>
      have hread : Takes (b :: rest)
          (if b = backslash then takeBackslash (b :: rest) else takeCode (b :: rest)) := by
        split_ifs with hb
        · subst hb
          exact (takes_takeBackslash (h.of_suffix (List.suffix_cons _ rest))).of_suffix
            (List.suffix_cons _ rest)
        · exact takes_takeCode h
      have hafter := ih (h.of_suffix hread.suffix)
      rw [codesOf, codeMarks_cons]
      exact Nat.le_trans (Nat.add_le_add_right hafter _) hread.marks_le

/-- No backslash is passed over. -/
theorem mem_takeCode {b : UInt8} (hb : b ≠ backslash) (h : backslash ∈ b :: rest) :
    backslash ∈ (takeCode (b :: rest)).2 := by
  have hrest : backslash ∈ rest := (List.mem_cons.1 h).resolve_left (Ne.symm hb)
  rw [takeCode]
  split_ifs with hlead
  · exact hrest
  · have hprefix : (rest.take 3).takeWhile isContinuation <+: rest :=
      (List.takeWhile_prefix _).trans (List.take_prefix 3 rest)
    rw [List.prefix_iff_eq_append] at hprefix
    rw [← hprefix, List.mem_append] at hrest
    refine hrest.resolve_left fun hmore => ?_
    exact absurd (List.all_eq_true.1 List.all_takeWhile _ hmore) (by decide)

/-- **Bytes with a backslash are read with fewer marks than they have.** -/
theorem marks_codesOf_lt (h : IsShortest bytes) (hbackslash : backslash ∈ bytes) :
    codeMarks (codesOf fuel bytes) < markBytes bytes := by
  induction fuel generalizing bytes with
  | zero => exact List.countP_pos_iff.2 ⟨backslash, hbackslash, by decide⟩
  | succ fuel ih =>
    cases bytes with
    | nil => cases hbackslash
    | cons b rest =>
      rw [codesOf, codeMarks_cons]
      by_cases hb : b = backslash
      · subst hb
        have hread := takes_takeBackslash (h.of_suffix (List.suffix_cons _ rest))
        have hafter := @marks_codesOf_le _ fuel
          (h.of_suffix (hread.suffix.trans (List.suffix_cons _ rest)))
        have hone : weight backslash.toNat = 1 := by decide
        rw [markBytes_cons, hone, if_pos rfl]
        exact Nat.lt_succ_of_le (Nat.le_trans (Nat.add_le_add_right hafter _) hread.marks_le)
      · have hread := takes_takeCode h
        have hafter := ih (h.of_suffix hread.suffix) (mem_takeCode hb hbackslash)
        rw [if_neg hb]
        exact Nat.lt_of_lt_of_le (Nat.add_lt_add_right hafter _) hread.marks_le

theorem markBytes_utf8EncodeChar (c : Char) :
    markBytes (String.utf8EncodeChar c) = weight c.toNat := by
  have hlt := toNat_lt c
  have hsame : c.toNat = c.val.toNat := rfl
  have hhigh : ∀ k, 0x80 ≤ k → k < 256 → weight (UInt8.ofNat k).toNat = 0 := by
    intro k hlow hk
    rw [toNat_ofNat hk, weight_of_notMark (isMark_eq_false hlow)]
  rw [hsame]
  unfold String.utf8EncodeChar
  simp only
  generalize c.val.toNat = v at hlt
  split_ifs with h₁ h₂ h₃
  · rw [markBytes_cons, toNat_ofNat (by omega)]
    exact Nat.zero_add _
  all_goals
    rw [weight_of_notMark (isMark_eq_false (by omega))]
    simp only [markBytes_cons]
    rw [hhigh _ (by omega) (by omega), hhigh _ (by omega) (by omega)]
  · rfl
  · rw [hhigh _ (by omega) (by omega)]
    rfl
  · rw [hhigh _ (by omega) (by omega), hhigh _ (by omega) (by omega)]
    rfl

theorem markBytes_flatMap (cs : List Char) :
    markBytes (cs.flatMap String.utf8EncodeChar) = marks cs := by
  induction cs with
  | nil => rfl
  | cons c cs ih =>
    rw [List.flatMap_cons, markBytes, List.countP_append, ← markBytes, ← markBytes, ih,
      markBytes_utf8EncodeChar, marks_cons, Nat.add_comm]

end Escaped

/-- **A label with a backslash does not name a member that has its marks**: what it is read as has
fewer. -/
theorem labelMatches_eq_false {label name : List Char} (hbackslash : '\\' ∈ label)
    (hmarks : marks label ≤ marks (cutName name)) :
    labelMatches label true (name.flatMap escapeChar) = false := by
  have hbytes : Escaped.backslash ∈ label.flatMap String.utf8EncodeChar :=
    List.mem_flatMap.2 ⟨_, hbackslash, by decide⟩
  have hfewer : (labelCodes true label).countP isMark < marks label := by
    rw [labelCodes, if_pos rfl, Escaped.codes, toList_toUTF8_ofList, ← Escaped.markBytes_flatMap]
    exact Nat.lt_of_le_of_lt (List.takeWhile_sublist _).countP_le
      (Escaped.marks_codesOf_lt (Escaped.isShortest_flatMap label) hbytes)
  have hname : (labelCodes true (name.flatMap escapeChar)).countP isMark =
      marks (cutName name) := by
    rw [labelCodes_escaped, List.countP_map]
    rfl
  rw [labelMatches, beq_eq_false_iff_ne]
  intro heq
  rw [heq, hname] at hfewer
  exact absurd hfewer (Nat.not_lt.2 hmarks)

/-! ## The first step -/

/-- What the path of a key has behind its first quote, up to the first NUL. -/
def behindQuote (cs : List Char) : List Char := cutName (escapeQuotes cs ++ ['"'])

theorem behindQuote_cons {c : Char} (cs : List Char) (hquote : c ≠ '"') (hnul : c ≠ '\x00') :
    behindQuote (c :: cs) = c :: behindQuote cs := by
  rw [behindQuote, escapeQuotes, List.flatMap_cons, if_neg hquote, cutName, List.append_assoc,
    List.singleton_append, List.takeWhile_cons, if_pos (decide_eq_true hnul)]
  rfl

/-- The first label that the database reads in the path of a key. -/
def firstLabel (cs : List Char) : List Char := (behindQuote cs).takeWhile (· ≠ '"')

theorem firstLabel_cons {c : Char} (cs : List Char) (hquote : c ≠ '"') (hnul : c ≠ '\x00') :
    firstLabel (c :: cs) = c :: firstLabel cs := by
  rw [firstLabel, behindQuote_cons cs hquote hnul, List.takeWhile_cons,
    if_pos (decide_eq_true hquote)]
  rfl

theorem marks_firstLabel_le (cs : List Char) : marks (firstLabel cs) ≤ marks (cutName cs) := by
  induction cs with
  | nil => decide
  | cons c cs ih =>
    by_cases hquote : c = '"'
    · subst hquote
      have hone : weight '"'.toNat = 1 := rfl
      have hlabel : marks (firstLabel ('"' :: cs)) = 1 := rfl
      have hcut : cutName ('"' :: cs) = '"' :: cutName cs := rfl
      rw [hlabel, hcut, marks_cons, hone]
      exact Nat.le_add_left _ _
    · by_cases hnul : c = '\x00'
      · subst hnul
        exact Nat.zero_le _
      · have hcut : cutName (c :: cs) = c :: cutName cs := by
          rw [cutName, List.takeWhile_cons, if_pos (decide_eq_true hnul)]
          rfl
        rw [firstLabel_cons cs hquote hnul, hcut, marks_cons, marks_cons]
        exact Nat.add_le_add_right ih _

/-- The label of a key that has a quote, a backslash or a NUL has a backslash, or it does not
end. -/
theorem mem_firstLabel {cs : List Char} (h : '"' ∈ cs ∨ '\\' ∈ cs ∨ '\x00' ∈ cs)
    (hends : '"' ∈ behindQuote cs) : '\\' ∈ firstLabel cs := by
  induction cs with
  | nil => simp at h
  | cons c cs ih =>
    by_cases hquote : c = '"'
    · subst hquote
      exact List.mem_cons_self
    · by_cases hnul : c = '\x00'
      · subst hnul
        cases hends
      · rw [behindQuote_cons cs hquote hnul] at hends
        rw [firstLabel_cons cs hquote hnul, List.mem_cons]
        by_cases hbackslash : c = '\\'
        · exact .inl hbackslash.symm
        · refine .inr (ih ?_ ((List.mem_cons.1 hends).resolve_left (Ne.symm hquote)))
          simpa only [List.mem_cons, Ne.symm hquote, Ne.symm hbackslash, Ne.symm hnul, false_or]
            using h

/-- The path of a key begins with its first label, if this ends. -/
theorem readPath_keyPath_eq (key : String) :
    ('"' ∈ behindQuote key.toList → ∃ p : KeyPath,
      Json.readPath (keyPath key) = p.push (.member (firstLabel key.toList) true)) ∧
    ('"' ∉ behindQuote key.toList → Json.readPath (keyPath key) = ⟨[], .malformed⟩) := by
  have hpath : (keyPath key).toList.takeWhile (· ≠ '\x00') =
      '$' :: '.' :: '"' :: behindQuote key.toList := by
    rw [toList_keyPath]
    rfl
  rw [readPath, hpath]
  simp only [List.length_cons, readSteps, readLabel?]
  constructor
  · intro hends
    cases hafter : (behindQuote key.toList).dropWhile (· ≠ '"') with
    | nil =>
      rw [List.dropWhile_eq_nil_iff] at hafter
      exact absurd (hafter _ hends) (by decide)
    | cons c after => exact ⟨_, rfl⟩
  · intro hends
    have hafter : (behindQuote key.toList).dropWhile (· ≠ '"') = [] := by
      rw [List.dropWhile_eq_nil_iff]
      intro c hc
      rw [decide_eq_true_eq]
      rintro rfl
      exact hends hc
    rw [hafter]

/-- **The path of a key with a quote, a backslash or a NUL** makes no sense, or it begins with a
label that does not name the key. -/
theorem readPath_keyPath_of_mem {key : String}
    (h : '"' ∈ key.toList ∨ '\\' ∈ key.toList ∨ '\x00' ∈ key.toList) :
    readPath (keyPath key) = ⟨[], .malformed⟩ ∨
      ∃ label p, readPath (keyPath key) = KeyPath.push (.member label true) p ∧
        labelMatches label true (key.toList.flatMap escapeChar) = false := by
  obtain ⟨hends, hopen⟩ := readPath_keyPath_eq key
  by_cases hquote : '"' ∈ behindQuote key.toList
  · obtain ⟨p, hp⟩ := hends hquote
    exact .inr ⟨_, p, hp, labelMatches_eq_false (mem_firstLabel h hquote) (marks_firstLabel_le _)⟩
  · exact .inl (hopen hquote)

end GraphBase.Json
