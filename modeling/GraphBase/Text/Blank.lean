/-!
# Blank characters

Connection strings, filter arguments and stored property texts are all trimmed
before they are read, and all by the same class of characters: the Unicode
property `White_Space`.  Core's `Char.isWhitespace` is smaller (it knows ASCII
only), so the class is listed here once and everything else refers to it.

`trim` removes blanks at both ends and nothing else; `isBlank` says that nothing
is left after that.
-/

namespace GraphBase.Text

/-- The Unicode property `White_Space`: twenty-five code points. -/
def isBlankChar (c : Char) : Bool :=
  let n := c.toNat
  (9 ≤ n && n ≤ 13) || n == 0x20 || n == 0x85 || n == 0xA0 || n == 0x1680 ||
    (0x2000 ≤ n && n ≤ 0x200A) || n == 0x2028 || n == 0x2029 || n == 0x202F ||
    n == 0x205F || n == 0x3000

/-- The characters without the blanks at their front. -/
def trimLeft (cs : List Char) : List Char := cs.dropWhile isBlankChar

/-- The characters without the blanks at their end. -/
def trimRight (cs : List Char) : List Char := (trimLeft cs.reverse).reverse

/-- The text without the blanks at either end. -/
def trim (s : String) : String := String.ofList (trimRight (trimLeft s.toList))

/-- Whether a text holds blanks only. -/
def isBlank (s : String) : Bool := s.toList.all isBlankChar

/-! ## What trimming leaves -/

/-- Neither the first character is blank nor the last. -/
def IsTrimmed (cs : List Char) : Prop :=
  (∀ c ∈ cs.head?, isBlankChar c = false) ∧ ∀ c ∈ cs.getLast?, isBlankChar c = false

theorem not_isBlankChar_of_head?_trimLeft {cs : List Char} {c : Char}
    (h : c ∈ (trimLeft cs).head?) : isBlankChar c = false := by
  have hnot := List.head?_dropWhile_not isBlankChar cs
  rw [Option.mem_def, trimLeft] at h
  rwa [h] at hnot

theorem trimLeft_eq_self {cs : List Char} (h : ∀ c ∈ cs.head?, isBlankChar c = false) :
    trimLeft cs = cs := by
  cases cs with
  | nil => rfl
  | cons c cs =>
    unfold trimLeft
    rw [List.dropWhile_cons, if_neg (by simp [h c rfl])]

theorem trimRight_eq_self {cs : List Char} (h : ∀ c ∈ cs.getLast?, isBlankChar c = false) :
    trimRight cs = cs := by
  rw [trimRight, trimLeft_eq_self (by rwa [List.head?_reverse]), List.reverse_reverse]

theorem isTrimmed_trim (s : String) : IsTrimmed (trim s).toList := by
  unfold trim
  rw [String.toList_ofList]
  constructor
  · intro c hc
    obtain ⟨back, hback⟩ : trimRight (trimLeft s.toList) <+: trimLeft s.toList := by
      rw [trimRight, ← List.reverse_suffix, List.reverse_reverse]
      exact List.dropWhile_suffix isBlankChar
    refine @not_isBlankChar_of_head?_trimLeft s.toList c ?_
    rw [← hback, Option.mem_def, List.head?_append, Option.mem_def.1 hc, Option.some_or]
  · intro c hc
    rw [trimRight, List.getLast?_reverse] at hc
    exact not_isBlankChar_of_head?_trimLeft hc

/-- **Trimming changes nothing in a text without blanks at its ends**. -/
theorem trim_eq_self {s : String} (h : IsTrimmed s.toList) : trim s = s := by
  rw [trim, trimLeft_eq_self h.1, trimRight_eq_self h.2, String.ofList_toList]

theorem trimLeft_append_of_blank {front : List Char} (h : ∀ c ∈ front, isBlankChar c = true)
    (cs : List Char) : trimLeft (front ++ cs) = trimLeft cs :=
  List.dropWhile_append_of_pos h

/-- Blanks at the end do not change what trimming both ends leaves, also of a text of blanks
only, of which they are the rest. -/
theorem trimRight_trimLeft_append {back : List Char} (h : ∀ c ∈ back, isBlankChar c = true)
    (cs : List Char) : trimRight (trimLeft (cs ++ back)) = trimRight (trimLeft cs) := by
  have hback : trimLeft back = [] := by
    rw [← List.append_nil back, trimLeft_append_of_blank h, trimLeft, List.dropWhile_nil]
  rw [trimLeft, List.dropWhile_append]
  by_cases hcs : (cs.dropWhile isBlankChar).isEmpty = true
  · rw [if_pos hcs, trimLeft, List.isEmpty_iff.1 hcs, ← trimLeft, hback]
  · rw [if_neg hcs, trimRight, List.reverse_append, trimLeft_append_of_blank (by simpa using h)]
    rfl

/-- **Blanks around a text do not change what trimming leaves**. -/
theorem trim_append_blank {front back : String} (hfront : ∀ c ∈ front.toList, isBlankChar c = true)
    (hback : ∀ c ∈ back.toList, isBlankChar c = true) (s : String) :
    trim (front ++ s ++ back) = trim s := by
  unfold trim
  rw [String.toList_append, String.toList_append, List.append_assoc,
    trimLeft_append_of_blank hfront, trimRight_trimLeft_append hback]

end GraphBase.Text
