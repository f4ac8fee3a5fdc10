import GraphBase.Json.Path
import GraphBase.Proofs.Json.RoundTrip

/-!
# Escaped text that reads back

A database that looks into a JSON text works on bytes.  Text is handed to it in UTF-8, and it
reads one character at a time from the front (`Escaped.takeCode`), without a look at what comes
behind a character beyond its first byte.  This is enough, since no character begins with a byte
that goes on with one (`takeCode_utf8EncodeChar`).

So a string that was written character by character is read character by character, whether a
character was written as it is or behind a backslash (`codesOf_escapeChar`), and the text comes
back (`textOf?_codes`).

A label of a path is compared with the names of members in the same way, but the comparison ends
at the character zero (`labelMatches_iff`).
-/

namespace GraphBase.Json

open GraphBase.Text (hexDigit)

/-! ## Bytes -/

theorem toList_loop (bytes : ByteArray) (i : Nat) (acc : List UInt8) :
    ByteArray.toList.loop bytes i acc = acc.reverse ++ bytes.data.toList.drop i := by
  induction h : bytes.size - i generalizing i acc with
  | zero =>
    have hle : bytes.data.toList.length ≤ i := by
      have hsize : bytes.data.toList.length = bytes.size := rfl
      omega
    rw [ByteArray.toList.loop, if_neg (by omega), List.drop_eq_nil_of_le hle, List.append_nil]
  | succ n ih =>
    have hlt : i < bytes.data.toList.length := by
      have hsize : bytes.data.toList.length = bytes.size := rfl
      omega
    have hget : bytes.get! i = bytes.data.toList[i] := by
      rw [ByteArray.get!]
      exact getElem!_pos bytes.data i hlt
    rw [ByteArray.toList.loop, if_pos (by omega), ih (i + 1) _ (by omega), hget,
      List.drop_eq_getElem_cons hlt, List.reverse_cons, List.append_assoc]
    rfl

/-- The bytes of a text are those of its characters. -/
theorem toList_toUTF8_ofList (cs : List Char) :
    (String.ofList cs).toUTF8.toList = cs.flatMap String.utf8EncodeChar := by
  rw [String.toUTF8, String.toByteArray_ofList, List.utf8Encode, ByteArray.toList, toList_loop,
    List.data_toByteArray]
  rfl

namespace Escaped

/-- No character goes on at the front of some bytes. -/
def Starts (bytes : List UInt8) : Prop := ∀ b ∈ bytes.head?, isContinuation b = false

theorem starts_nil : Starts [] := fun b hb => by cases hb

variable {bytes rest : List UInt8} {fuel : Nat}

theorem toNat_lt (c : Char) : c.val.toNat < 0x110000 := by
  have hvalid := c.valid
  rw [UInt32.isValidChar, Nat.isValidChar] at hvalid
  omega

theorem toNat_ofNat {n : Nat} (h : n < 256) : (UInt8.ofNat n).toNat = n := by
  rw [UInt8.toNat_ofNat']
  exact Nat.mod_eq_of_lt h

theorem isContinuation_ofNat {n : Nat} (h : n < 256) :
    isContinuation (UInt8.ofNat n) = (decide (128 ≤ n) && decide (n < 192)) := by
  have hlow : (0x80 : UInt8).toNat = 128 := rfl
  have hhigh : (0xC0 : UInt8).toNat = 192 := rfl
  rw [isContinuation]
  simp only [UInt8.le_iff_toNat_le, UInt8.lt_iff_toNat_lt, toNat_ofNat h, hlow, hhigh]

/-- A character begins with a byte that goes on with none. -/
theorem starts_utf8EncodeChar_append (c : Char) (rest : List UInt8) :
    Starts (String.utf8EncodeChar c ++ rest) := by
  have hlt := toNat_lt c
  intro b hb
  unfold String.utf8EncodeChar at hb
  simp only at hb
  split_ifs at hb with h₁ h₂ h₃
  all_goals
    obtain rfl := Option.some.inj hb
    rw [isContinuation_ofNat (by omega)]
    simp only [Bool.and_eq_false_iff, decide_eq_false_iff_not]
    omega

theorem starts_flatMap (cs : List Char) : Starts (cs.flatMap String.utf8EncodeChar) := by
  cases cs with
  | nil => exact starts_nil
  | cons c cs =>
    rw [List.flatMap_cons]
    exact starts_utf8EncodeChar_append c _

/-! ## One character -/

/-- A byte that goes on with a character. -/
def tailByte (n : Nat) : UInt8 := UInt8.ofNat (n % 64 + 128)

theorem isContinuation_tailByte (n : Nat) : isContinuation (tailByte n) = true := by
  rw [tailByte, isContinuation_ofNat (by omega), decide_eq_true (by omega),
    decide_eq_true (by omega)]
  rfl

theorem not_ofNat_lt {n : Nat} (hlow : 192 ≤ n) (hhigh : n < 256) : ¬UInt8.ofNat n < 0xC0 := by
  have hlead : (0xC0 : UInt8).toNat = 192 := rfl
  rw [UInt8.lt_iff_toNat_lt, toNat_ofNat hhigh, hlead]
  omega

/-- What goes on with a character ends where the next one begins. -/
theorem takeWhile_isContinuation {more : List UInt8}
    (hmore : ∀ c ∈ more, isContinuation c = true) (hlength : more.length ≤ 3)
    (hrest : Starts rest) : ((more ++ rest).take 3).takeWhile isContinuation = more := by
  have hnone : (rest.take (3 - more.length)).takeWhile isContinuation = [] := by
    cases hcut : rest.take (3 - more.length) with
    | nil => rfl
    | cons c cs =>
      have hhead : c ∈ rest.head? := by
        have hne : 3 - more.length ≠ 0 := by
          intro hzero
          rw [hzero] at hcut
          cases hcut
        have hhead := List.head?_take (l := rest) (i := 3 - more.length)
        rw [if_neg hne, hcut] at hhead
        exact hhead ▸ rfl
      rw [List.takeWhile_cons, hrest c hhead]
      rfl
  rw [List.take_append, List.take_of_length_le hlength, List.takeWhile_append_of_pos hmore, hnone,
    List.append_nil]

/-- A first byte takes along what goes on with it, and no more. -/
theorem takeCode_cons {b : UInt8} (hb : ¬b < 0xC0) (ns : List Nat) (hlength : ns.length ≤ 3)
    (hrest : Starts rest) :
    takeCode (b :: (ns.map tailByte ++ rest)) =
      (ns.foldl (fun m n => m * 64 + n % 64) (leadBits b), rest) := by
  have hmore : ∀ c ∈ ns.map tailByte, isContinuation c = true := by
    intro c hc
    obtain ⟨n, -, rfl⟩ := List.mem_map.1 hc
    exact isContinuation_tailByte n
  have htake := takeWhile_isContinuation hmore (by rwa [List.length_map]) hrest
  have hbits : ∀ n, (tailByte n).toNat % 64 = n % 64 := by
    intro n
    rw [tailByte, toNat_ofNat (by omega)]
    omega
  rw [takeCode, if_neg hb]
  simp only [htake, List.drop_left, List.foldl_map, hbits]

/-- **A character is read back** from its bytes. -/
theorem takeCode_utf8EncodeChar (c : Char) (hrest : Starts rest) :
    takeCode (String.utf8EncodeChar c ++ rest) = (c.toNat, rest) := by
  have hlt := toNat_lt c
  have hsame : c.toNat = c.val.toNat := rfl
  rw [hsame]
  unfold String.utf8EncodeChar
  simp only
  generalize c.val.toNat = v at hlt
  split_ifs with h₁ h₂ h₃
  · have hb : UInt8.ofNat v < 0xC0 := by
      have hlead : (0xC0 : UInt8).toNat = 192 := rfl
      rw [UInt8.lt_iff_toNat_lt, toNat_ofNat (by omega), hlead]
      omega
    rw [List.singleton_append, takeCode, if_pos hb, toNat_ofNat (by omega)]
  · have hb := not_ofNat_lt (n := v / 64 % 32 + 192) (by omega) (by omega)
    refine (takeCode_cons hb [v] (by simp) hrest).trans ?_
    simp only [List.foldl_cons, List.foldl_nil, leadBits, Prod.mk.injEq, and_true]
    rw [toNat_ofNat (by omega), if_pos (by omega)]
    omega
  · have hb := not_ofNat_lt (n := v / 4096 % 16 + 224) (by omega) (by omega)
    refine (takeCode_cons hb [v / 64, v] (by simp) hrest).trans ?_
    simp only [List.foldl_cons, List.foldl_nil, leadBits, Prod.mk.injEq, and_true]
    rw [toNat_ofNat (by omega), if_neg (by omega), if_pos (by omega)]
    omega
  · have hb := not_ofNat_lt (n := v / 262144 % 8 + 240) (by omega) (by omega)
    refine (takeCode_cons hb [v / 4096, v / 64, v] (by simp) hrest).trans ?_
    simp only [List.foldl_cons, List.foldl_nil, leadBits, Prod.mk.injEq, and_true]
    rw [toNat_ofNat (by omega), if_neg (by omega), if_neg (by omega), if_pos (by omega)]
    omega

/-! ## Characters behind backslashes -/

/-- Whether a character is written behind a backslash. -/
def isBehindBackslash (c : Char) : Bool := (escapeChar c).head? == some '\\'

/-- What a character that was written is read as. -/
def codeOf (c : Char) : Code := ⟨c.toNat, isBehindBackslash c⟩

/-- Only a backslash begins with the byte of one. -/
theorem ne_backslash {c : Char} (hc : c ≠ '\\') :
    ∃ b bs, String.utf8EncodeChar c = b :: bs ∧ b ≠ backslash := by
  have hlt := toNat_lt c
  have hvalue : c.val.toNat ≠ 0x5C := by
    intro heq
    exact hc (Char.ext (UInt32.toNat_inj.1 heq))
  have hne : ∀ n, n < 256 → n ≠ 0x5C → UInt8.ofNat n ≠ backslash := by
    intro n hn hn' heq
    have hnat := congrArg UInt8.toNat heq
    rw [toNat_ofNat hn] at hnat
    exact hn' hnat
  unfold String.utf8EncodeChar
  simp only
  split_ifs with h₁ h₂ h₃
  · exact ⟨_, _, rfl, hne _ (by omega) hvalue⟩
  · exact ⟨_, _, rfl, hne _ (by omega) (by omega)⟩
  · exact ⟨_, _, rfl, hne _ (by omega) (by omega)⟩
  · exact ⟨_, _, rfl, hne _ (by omega) (by omega)⟩

/-- A character that stands for itself is read back. -/
theorem codesOf_utf8EncodeChar {c : Char} (hc : c ≠ '\\') (hrest : Starts rest) :
    codesOf (fuel + 1) (String.utf8EncodeChar c ++ rest) =
      ⟨c.toNat, false⟩ :: codesOf fuel rest := by
  have htake := takeCode_utf8EncodeChar c hrest
  obtain ⟨b, bs, hbytes, hb⟩ := ne_backslash hc
  rw [hbytes, List.cons_append] at htake ⊢
  rw [codesOf, if_neg hb]
  simp only [htake, beq_eq_false_iff_ne.2 hb]

/-- Nothing is skipped behind a backslash but line breaks. -/
theorem codesOf_backslash {b : UInt8} {n : Nat} (hb : b ≠ 0x0A ∧ b ≠ 0x0D ∧ b ≠ 0xE2)
    {more : List UInt8} (h : takeEscape (b :: more) = (n, rest)) :
    codesOf (fuel + 1) (0x5C :: b :: more) = ⟨n, true⟩ :: codesOf fuel rest := by
  have hskip : skipBreaks (0x5C :: b :: more) = 0x5C :: b :: more := by
    unfold skipBreaks
    split <;> simp_all
  rw [codesOf, if_pos (show (0x5C : UInt8) = backslash from rfl), takeBackslash, hskip, if_pos rfl,
    List.drop_succ_cons, List.drop_zero, h]
  rfl

theorem map_digitOf_hexDigit :
    ∀ n < 16, (String.utf8EncodeChar (hexDigit n)).map digitOf = [n] := by decide

/-- The escape of a control character is read back. -/
theorem takeEscape_control {c : Char} (hc : c.toNat < 0x20) :
    takeEscape (0x75 :: 0x30 :: 0x30 :: (String.utf8EncodeChar (hexDigit (c.toNat / 16)) ++
      (String.utf8EncodeChar (hexDigit (c.toNat % 16)) ++ rest))) = (c.toNat, rest) := by
  obtain ⟨a, ha, hdigit⟩ := List.map_eq_singleton_iff.1
    (map_digitOf_hexDigit (c.toNat / 16) (by omega))
  obtain ⟨b, hb, hdigit'⟩ := List.map_eq_singleton_iff.1
    (map_digitOf_hexDigit (c.toNat % 16) (by omega))
  have hnumber : fourDigits 0x30 0x30 a b = c.toNat := by
    have hzero : digitOf 0x30 = 0 := rfl
    rw [fourDigits, hzero, hdigit, hdigit']
    omega
  rw [ha, hb]
  show takeEscape (0x75 :: 0x30 :: 0x30 :: a :: b :: rest) = _
  rw [takeEscape]
  simp only [hnumber]
  rw [if_neg (by omega)]

/-- **A character that was written is read back**, whether it stands behind a backslash or
not. -/
theorem codesOf_escapeChar (c : Char) (hrest : Starts rest) :
    codesOf (fuel + 1) ((escapeChar c).flatMap String.utf8EncodeChar ++ rest) =
      codeOf c :: codesOf fuel rest := by
  rw [codeOf, isBehindBackslash]
  unfold escapeChar
  split_ifs with h₁ h₂ h₃ h₄ h₅ h₆ h₇ h₈
  rotate_left 7
  · have hbytes : ['\\', 'u', '0', '0', hexDigit (c.toNat / 16), hexDigit (c.toNat % 16)].flatMap
        String.utf8EncodeChar ++ rest =
        0x5C :: 0x75 :: 0x30 :: 0x30 :: (String.utf8EncodeChar (hexDigit (c.toNat / 16)) ++
          (String.utf8EncodeChar (hexDigit (c.toNat % 16)) ++ rest)) := by
      simp only [List.flatMap_cons, List.flatMap_nil, List.append_nil, List.append_assoc]
      rfl
    rw [hbytes]
    exact codesOf_backslash (by decide) (takeEscape_control h₈)
  · have hplain : ([c].head? == some '\\') = false := by
      simpa using h₂
    rw [List.flatMap_singleton, codesOf_utf8EncodeChar h₂ hrest, hplain]
  -- every other escape is one character behind the backslash
  all_goals
    subst_vars
    exact codesOf_backslash (by decide) rfl

/-! ## Texts -/

theorem length_le_length_flatMap_utf8EncodeChar (cs : List Char) :
    cs.length ≤ (cs.flatMap String.utf8EncodeChar).length := by
  induction cs with
  | nil => exact Nat.le_refl 0
  | cons c cs ih =>
    have hc : 0 < (String.utf8EncodeChar c).length := by
      unfold String.utf8EncodeChar
      simp only
      split_ifs <;> exact Nat.succ_pos _
    rw [List.flatMap_cons, List.length_append, List.length_cons]
    omega

/-- A text that was written with escapes is read back. -/
theorem codesOf_flatMap_escapeChar (cs : List Char) (hfuel : cs.length ≤ fuel) :
    codesOf fuel ((cs.flatMap escapeChar).flatMap String.utf8EncodeChar) = cs.map codeOf := by
  induction cs generalizing fuel with
  | nil => cases fuel <;> rfl
  | cons c cs ih =>
    cases fuel with
    | zero => cases hfuel
    | succ fuel =>
      rw [List.flatMap_cons, List.flatMap_append, codesOf_escapeChar c (starts_flatMap _),
        ih (Nat.le_of_succ_le_succ hfuel), List.map_cons]

/-- A text without backslashes is read as it is. -/
theorem codesOf_flatMap (cs : List Char) (hcs : '\\' ∉ cs) (hfuel : cs.length ≤ fuel) :
    codesOf fuel (cs.flatMap String.utf8EncodeChar) = cs.map fun c => ⟨c.toNat, false⟩ := by
  induction cs generalizing fuel with
  | nil => cases fuel <;> rfl
  | cons c cs ih =>
    cases fuel with
    | zero => cases hfuel
    | succ fuel =>
      rw [List.mem_cons, not_or] at hcs
      rw [List.flatMap_cons, codesOf_utf8EncodeChar (Ne.symm hcs.1) (starts_flatMap _),
        ih hcs.2 (Nat.le_of_succ_le_succ hfuel), List.map_cons]

theorem codes_escaped (cs : List Char) :
    codes (String.ofList (cs.flatMap escapeChar)).toUTF8.toList = cs.map codeOf := by
  rw [toList_toUTF8_ofList, codes]
  refine codesOf_flatMap_escapeChar cs ?_
  exact Nat.le_trans (length_le_length_flatMap_escapeChar cs)
    (length_le_length_flatMap_utf8EncodeChar _)

theorem codes_plain (cs : List Char) (hcs : '\\' ∉ cs) :
    codes (String.ofList cs).toUTF8.toList = cs.map fun c => ⟨c.toNat, false⟩ := by
  rw [toList_toUTF8_ofList, codes]
  exact codesOf_flatMap cs hcs (length_le_length_flatMap_utf8EncodeChar cs)

/-- No character behind a backslash counts as an escape without a meaning. -/
theorem isBehindBackslash_of_value {c : Char} (hc : c.toNat = noCharacter) :
    isBehindBackslash c = false := by
  have hne : ∀ d : Char, d.toNat < noCharacter → c ≠ d := by
    rintro d hd rfl
    rw [hc] at hd
    exact Nat.lt_irrefl _ hd
  have hsmall : ¬c.toNat < 0x20 := by
    rw [hc]
    decide
  rw [isBehindBackslash, escapeChar, if_neg (hne _ (by decide)), if_neg (hne _ (by decide)),
    if_neg (hne _ (by decide)), if_neg (hne _ (by decide)), if_neg (hne _ (by decide)),
    if_neg (hne _ (by decide)), if_neg (hne _ (by decide)), if_neg hsmall]
  simpa using hne '\\' (by decide)

/-- **A text that was written comes back.** -/
theorem textOf?_map_codeOf (cs : List Char) :
    textOf? (cs.map codeOf) = some (String.ofList cs) := by
  have hall : ((cs.map codeOf).filter fun c => !(c.isEscaped && c.value == noCharacter)) =
      cs.map codeOf := by
    refine List.filter_eq_self.2 fun code hcode => ?_
    obtain ⟨c, -, rfl⟩ := List.mem_map.1 hcode
    by_cases hc : c.toNat = noCharacter
    · rw [codeOf, isBehindBackslash_of_value hc]
      rfl
    · rw [codeOf, beq_eq_false_iff_ne.2 hc, Bool.and_false]
      rfl
  have hvalues : (cs.map codeOf).map (·.value) = cs.map Char.toNat := by
    rw [List.map_map]
    rfl
  have hvalid : (cs.map Char.toNat).all fun n => decide n.isValidChar := by
    rw [List.all_map, List.all_eq_true]
    exact fun c _ => decide_eq_true c.valid
  have hback : (cs.map Char.toNat).map Char.ofNat = cs := by
    rw [List.map_map]
    exact (List.map_congr_left fun c _ => Char.ofNat_toNat c).trans (List.map_id cs)
  rw [textOf?, hall, hvalues, if_pos hvalid, hback]

end Escaped

/-! ## Labels -/

/-- The characters of a name up to the character zero. -/
def cutName (name : List Char) : List Char := name.takeWhile (· ≠ '\x00')

theorem cutName_eq_self {name : List Char} (h : '\x00' ∉ name) : cutName name = name := by
  rw [cutName, ← List.append_nil name, List.takeWhile_append_of_pos]
  · rfl
  · intro c hc
    rw [decide_eq_true_eq]
    rintro rfl
    exact h hc

theorem takeWhile_toNat (cs : List Char) :
    (cs.map Char.toNat).takeWhile (· ≠ 0) = (cutName cs).map Char.toNat := by
  induction cs with
  | nil => rfl
  | cons c cs ih =>
    rw [cutName] at ih ⊢
    rw [List.map_cons, List.takeWhile_cons, List.takeWhile_cons, ih]
    by_cases hc : c = '\x00'
    · subst hc
      rfl
    · have hnat : c.toNat ≠ 0 := fun heq => hc (Char.toNat_inj.1 heq)
      rw [if_pos (decide_eq_true hnat), if_pos (decide_eq_true hc), List.map_cons]

/-- A name that was written is compared up to a NUL. -/
theorem labelCodes_escaped (name : List Char) :
    labelCodes true (name.flatMap escapeChar) = (cutName name).map Char.toNat := by
  rw [labelCodes, if_pos rfl, Escaped.codes_escaped, List.map_map]
  exact takeWhile_toNat name

/-- **A label without backslashes and NULs names the members** that have it for a name up to a
NUL. -/
theorem labelMatches_iff {label name : List Char} (hlabel : '\\' ∉ label ∧ '\x00' ∉ label) :
    labelMatches label true (name.flatMap escapeChar) = true ↔ cutName name = label := by
  have hcut : cutName label = label := cutName_eq_self hlabel.2
  have hleft : labelCodes true label = label.map Char.toNat := by
    rw [labelCodes, if_pos rfl, Escaped.codes_plain label hlabel.1, List.map_map]
    exact (takeWhile_toNat label).trans (congrArg _ hcut)
  rw [labelMatches, hleft, labelCodes_escaped, beq_iff_eq, eq_comm]
  exact (List.map_injective_iff.2 fun c d h => Char.toNat_inj.1 h).eq_iff

end GraphBase.Json
