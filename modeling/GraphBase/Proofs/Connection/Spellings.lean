import Mathlib.Tactic.SplitIfs
import GraphBase.Connection.Target

/-!
# The spellings of a target

A connection string is read by prefixes that overlap: `sqlite://` begins with `sqlite:`, two
names of the database in memory begin with one of them, a path may itself begin like a URI.  Which
test comes first therefore decides what a string means, and the order is easy to get wrong: the
printer writes `sqlite://` before *every* path, so a path that was read from one spelling has to
survive being read from another.

## What a string means

`Target.Means s` says what `s` names, for a string `s` without blanks around it, one constructor for
each outcome and without an order of tests: every constructor carries all that has to be true of
`s`.  `Target.parse_eq_iff` says that reading a connection string is exactly this.

## What follows

* A target in memory is printed under a name that no path has.
* The path of a file is not empty, and it is not `:memory:`.  This is what keeps `sqlite://` in
  front of it from spelling the database in memory, or no database at all; any other path can
  be read back, also one that begins with slashes, with blanks, with `file:` or with `sqlite:`.
* A path ends where the string ended, so it does not end in a blank.  It may *begin* with one, and
  then it is the mark in front that protects it.

A path of two slashes is where the spellings part: `sqlite:` before `//a` is `sqlite://` before
`a`.  The last part of `Target.IsConsistent` therefore excludes it, and with it the three
beginnings and the mark that have a meaning of their own in a bare path.
-/

namespace GraphBase
namespace Target

open Text

variable {s : String} {t : Target} {r : Except Error Target}

/-! ## The path behind a scheme -/

theorem sqlite_slashes : "sqlite://".toList = "sqlite:".toList ++ "//".toList := rfl

/-- The longer mark is tried first, so the shorter one leaves no path that begins with slashes. -/
theorem schemePath?_eq_some_iff {cs path : List Char} :
    schemePath? cs = some path ↔ cs = "sqlite://".toList ++ path ∨
      cs = "sqlite:".toList ++ path ∧ ¬ "//".toList <+: path := by
  unfold schemePath?
  cases hlong : dropStart? "sqlite://".toList cs with
  | some rest =>
    obtain rfl := dropStart?_eq_some hlong
    constructor
    · intro h
      exact .inl (by rw [Option.some.inj h])
    · rintro (h | ⟨h, hslashes⟩)
      · rw [List.append_cancel_left h]
      · rw [sqlite_slashes, List.append_assoc] at h
        exact absurd ⟨rest, List.append_cancel_left h⟩ hslashes
  | none =>
    have hno := dropStart?_eq_none_iff.1 hlong
    constructor
    · intro h
      have hcs := dropStart?_eq_some h
      refine .inr ⟨hcs, ?_⟩
      rintro ⟨rest, rfl⟩
      exact hno ⟨rest, by rw [hcs, sqlite_slashes, List.append_assoc]⟩
    · rintro (h | ⟨h, -⟩)
      · exact absurd ⟨path, h.symm⟩ hno
      · rw [h]
        exact dropStart?_append _ _

theorem schemePath?_eq_none_iff {cs : List Char} :
    schemePath? cs = none ↔ ¬ "sqlite:".toList <+: cs := by
  rw [Option.eq_none_iff_forall_ne_some]
  constructor
  · rintro h ⟨path, rfl⟩
    by_cases hslashes : "//".toList <+: path
    · obtain ⟨rest, rfl⟩ := hslashes
      refine h rest (schemePath?_eq_some_iff.2 (.inl ?_))
      rw [sqlite_slashes, List.append_assoc]
    · exact h path (schemePath?_eq_some_iff.2 (.inr ⟨rfl, hslashes⟩))
  · intro h path hpath
    rcases schemePath?_eq_some_iff.1 hpath with rfl | ⟨rfl, -⟩
    · exact h ⟨"//".toList ++ path, by rw [sqlite_slashes, List.append_assoc]⟩
    · exact h ⟨path, rfl⟩

/-! ## What a string means -/

/-- The string is a path behind one of the two marks. -/
def IsMarked (s p : String) : Prop :=
  s = "sqlite://" ++ p ∨ s = "sqlite:" ++ p ∧ ¬ "//".toList <+: p.toList

/-- The string begins neither like a URI nor with a mark. -/
def IsUnmarked (s : String) : Prop :=
  ¬ "file:".toList <+: s.toList ∧ ¬ "sqlite:".toList <+: s.toList

/-- What a string without blanks around it names, or why it names nothing. -/
inductive Means (s : String) : Except Error Target → Prop
  | nothing (h : s = "") : Means s (.error (.config .emptyConnection))
  | memory (h : s ∈ memoryNames) : Means s (.ok .memory)
  | uri (h : "file:".toList <+: s.toList) : Means s (.ok (.uri s))
  | noPath (h : IsMarked s "") : Means s (.error (.config (.connectionWithoutPath s)))
  | path (p : String) (hp : p ≠ "") (hmemory : p ≠ ":memory:") (h : IsMarked s p) :
      Means s (.ok (.file p))
  | foreign (scheme : String) (rest : List Char) (h : IsUnmarked s)
      (hscheme : splitFirst? "://".toList s.toList = some (scheme.toList, rest)) :
      Means s (.error (.config (.foreignScheme scheme)))
  | bare (hs : s ≠ "") (hmemory : s ≠ ":memory:") (h : IsUnmarked s)
      (hscheme : ¬ "://".toList <:+: s.toList) : Means s (.ok (.file s))

theorem isMarked_iff {p : String} : IsMarked s p ↔ schemePath? s.toList = some p.toList := by
  unfold IsMarked
  rw [schemePath?_eq_some_iff, ← String.toList_inj, ← String.toList_inj, String.toList_append,
    String.toList_append]

/-- A marked path is a name of the database in memory only if it is `:memory:`. -/
theorem IsMarked.mem_memoryNames_iff {p : String} (h : IsMarked s p) :
    s ∈ memoryNames ↔ p = ":memory:" := by
  unfold memoryNames
  simp only [List.mem_cons, List.not_mem_nil, or_false]
  rw [← String.toList_inj, ← String.toList_inj, ← String.toList_inj, ← String.toList_inj]
  rcases h with rfl | ⟨rfl, hslashes⟩
  · simp
  · constructor
    · rintro (h | h | h)
      · simpa using h
      · simp at h
      · refine absurd ⟨":memory:".toList, ?_⟩ hslashes
        simpa using h.symm
    · intro h
      simp [h]

theorem IsUnmarked.mem_memoryNames_iff (h : IsUnmarked s) :
    s ∈ memoryNames ↔ s = ":memory:" := by
  unfold memoryNames
  simp only [List.mem_cons, List.not_mem_nil, or_false]
  constructor
  · rintro (rfl | rfl | rfl)
    · exact absurd ⟨":memory:".toList, rfl⟩ h.2
    · rfl
    · exact absurd ⟨"//:memory:".toList, rfl⟩ h.2
  · exact fun h => .inr (.inl h)

theorem IsMarked.not_file {p : String} (h : IsMarked s p) : ¬ "file:".toList <+: s.toList := by
  rintro ⟨rest, hrest⟩
  rcases h with rfl | ⟨rfl, -⟩ <;> simp at hrest

theorem IsMarked.ne_empty {p : String} (h : IsMarked s p) : s ≠ "" := by
  rcases h with rfl | ⟨rfl, -⟩ <;> simp

theorem IsMarked.sqlite {p : String} (h : IsMarked s p) : "sqlite:".toList <+: s.toList := by
  rcases h with rfl | ⟨rfl, -⟩ <;> rw [String.toList_append]
  · exact ⟨"//".toList ++ p.toList, by rw [sqlite_slashes, List.append_assoc]⟩
  · exact List.prefix_append _ _

/-- A mark alone has no path behind it, and a marked string without a path is a mark alone. -/
theorem IsMarked.eq_mark_iff {p : String} (h : IsMarked s p) :
    s = "sqlite:" ∨ s = "sqlite://" ↔ p = "" := by
  rw [← String.toList_inj, ← String.toList_inj, ← String.toList_inj]
  rcases h with rfl | ⟨rfl, hslashes⟩
  · simp
  · constructor
    · rintro (h | h)
      · simpa using h
      · refine absurd ⟨[], ?_⟩ hslashes
        simpa using h.symm
    · intro h
      simp [h]

/-- **Reading a connection string** finds what it means without the blanks around it. -/
theorem means_parse (connection : String) : Means (trim connection) (parse connection) := by
  unfold parse
  generalize trim connection = s
  simp only
  split_ifs with hempty hmemory hfile
  · exact .nothing (String.isEmpty_iff.1 hempty)
  · exact .memory hmemory
  · exact .uri (startsWith_iff.1 hfile)
  · have hnot : ¬ "file:".toList <+: s.toList := fun h => hfile (startsWith_iff.2 h)
    split
    · rename_i hpath
      exact .noPath (isMarked_iff.2 hpath)
    · rename_i path hne hpath
      have hmarked : IsMarked s (String.ofList path) := by
        rw [isMarked_iff, hpath, String.toList_ofList]
      refine .path _ ?_ ?_ hmarked
      · rintro h
        refine hne ?_
        have hlist := congrArg String.toList h
        rwa [String.toList_ofList] at hlist
      · exact fun h => hmemory (hmarked.mem_memoryNames_iff.2 h)
    · rename_i hpath
      have hun : IsUnmarked s := ⟨hnot, schemePath?_eq_none_iff.1 hpath⟩
      split
      · rename_i scheme rest hscheme
        exact .foreign _ rest hun (by rw [hscheme, String.toList_ofList])
      · rename_i hscheme
        refine .bare ?_ ?_ hun (splitFirst?_eq_none_iff.1 hscheme)
        · exact fun h => hempty (String.isEmpty_iff.2 h)
        · exact fun h => hmemory (hun.mem_memoryNames_iff.2 h)

/-- **A string means one thing**, and reading finds it: the outcomes exclude one another. -/
theorem parse_eq_of_means {connection : String} (h : Means (trim connection) r) :
    parse connection = r := by
  unfold parse
  generalize trim connection = s at h
  have hfile_iff : startsWith "file:".toList s.toList = true ↔ "file:".toList <+: s.toList :=
    startsWith_iff
  cases h with
  | nothing h => exact if_pos (String.isEmpty_iff.2 h)
  | memory h =>
    have hs : s ≠ "" := by
      rintro rfl
      exact absurd h (by decide)
    simp only
    rw [if_neg (fun he => hs (String.isEmpty_iff.1 he)), if_pos h]
  | uri h =>
    obtain ⟨rest, hrest⟩ := h
    have hs : s ≠ "" := by
      rintro rfl
      simp at hrest
    have hmemory : s ∉ memoryNames := by
      unfold memoryNames
      rintro hmem
      simp only [List.mem_cons, List.not_mem_nil, or_false] at hmem
      rcases hmem with rfl | rfl | rfl <;> simp at hrest
    simp only
    rw [if_neg (fun he => hs (String.isEmpty_iff.1 he)), if_neg hmemory,
      if_pos (hfile_iff.2 ⟨rest, hrest⟩)]
  | noPath h =>
    have hmemory : s ∉ memoryNames := fun hmem => by
      simpa using h.mem_memoryNames_iff.1 hmem
    simp only
    rw [if_neg (fun he => h.ne_empty (String.isEmpty_iff.1 he)), if_neg hmemory,
      if_neg (fun hf => h.not_file (hfile_iff.1 hf)), isMarked_iff.1 h]
    rfl
  | path p hp hne h =>
    have hmemory : s ∉ memoryNames := fun hmem => hne (h.mem_memoryNames_iff.1 hmem)
    simp only
    rw [if_neg (fun he => h.ne_empty (String.isEmpty_iff.1 he)), if_neg hmemory,
      if_neg (fun hf => h.not_file (hfile_iff.1 hf)), isMarked_iff.1 h]
    cases hchars : p.toList with
    | nil => exact absurd (String.toList_inj.1 hchars) hp
    | cons c cs =>
      simp only
      rw [← hchars, String.ofList_toList]
  | foreign scheme rest h hscheme =>
    have hs : s ≠ "" := by
      rintro rfl
      simp [splitFirst?] at hscheme
    have hmemory : s ∉ memoryNames := by
      rw [h.mem_memoryNames_iff]
      rintro rfl
      have hnone : splitFirst? "://".toList ":memory:".toList = none := rfl
      rw [hnone] at hscheme
      cases hscheme
    simp only
    rw [if_neg (fun he => hs (String.isEmpty_iff.1 he)), if_neg hmemory,
      if_neg (fun hf => h.1 (hfile_iff.1 hf)), schemePath?_eq_none_iff.2 h.2, hscheme]
    simp only
    rw [String.ofList_toList]
  | bare hs hne h hscheme =>
    simp only
    rw [if_neg (fun he => hs (String.isEmpty_iff.1 he)),
      if_neg (fun hmem => hne (h.mem_memoryNames_iff.1 hmem)),
      if_neg (fun hf => h.1 (hfile_iff.1 hf)), schemePath?_eq_none_iff.2 h.2,
      splitFirst?_eq_none_iff.2 hscheme]

theorem parse_eq_iff {connection : String} : parse connection = r ↔ Means (trim connection) r := by
  constructor
  · rintro rfl
    exact means_parse connection
  · exact parse_eq_of_means

/-! ## Printing and reading again -/

/-- A marked path has no blanks around it as soon as it ends in none. -/
theorem IsMarked.isTrimmed_iff {p : String} (h : IsMarked s p) (hp : p ≠ "") :
    IsTrimmed s.toList ↔ ∀ c ∈ p.toList.getLast?, isBlankChar c = false := by
  have hlast : ∀ mark : List Char, (mark ++ p.toList).getLast? = p.toList.getLast? := by
    intro mark
    rw [List.getLast?_append]
    cases hl : p.toList.getLast? with
    | none => exact absurd (String.toList_eq_nil_iff.1 (List.getLast?_eq_none_iff.1 hl)) hp
    | some c => rfl
  have hhead : ∀ c ∈ s.toList.head?, isBlankChar c = false := by
    have hs : s.toList.head? = some 's' := by
      rcases h with rfl | ⟨rfl, -⟩ <;> simp
    rw [hs]
    rintro c ⟨⟩
    decide
  have hs : s.toList.getLast? = p.toList.getLast? := by
    rcases h with rfl | ⟨rfl, -⟩ <;> rw [String.toList_append, hlast]
  rw [IsTrimmed, hs]
  exact and_iff_right hhead

/-- **What is printed means what was read**: the printed spelling has no blanks around it and means
the target it is printed for. -/
theorem Means.display (h : Means s (.ok t)) (hs : IsTrimmed s.toList) :
    IsTrimmed t.display.toList ∧ Means t.display (.ok t) := by
  cases h with
  | memory _ =>
    refine ⟨⟨?_, ?_⟩, .memory (.head _)⟩
    · rintro c ⟨⟩
      rfl
    · rintro c ⟨⟩
      rfl
  | uri h => exact ⟨hs, .uri h⟩
  | path p hp hmemory h =>
    have hmarked : IsMarked (Target.file p).display p := .inl rfl
    exact ⟨(hmarked.isTrimmed_iff hp).2 ((h.isTrimmed_iff hp).1 hs), .path p hp hmemory hmarked⟩
  | bare hne hmemory _ _ =>
    have hmarked : IsMarked (Target.file s).display s := .inl rfl
    exact ⟨(hmarked.isTrimmed_iff hne).2 hs.2, .path s hne hmemory hmarked⟩

/-- A string names nothing: it is empty, a mark alone, or has a foreign scheme. -/
def IsRefused (s : String) : Prop :=
  s = "" ∨ s = "sqlite:" ∨ s = "sqlite://" ∨
    ¬ "file:".toList <+: s.toList ∧ ¬ "sqlite:".toList <+: s.toList ∧ "://".toList <:+: s.toList

theorem isRefused_iff : IsRefused s ↔ s = "" ∨ (s = "sqlite:" ∨ s = "sqlite://") ∨
    IsUnmarked s ∧ "://".toList <:+: s.toList := by
  unfold IsRefused IsUnmarked
  rw [or_assoc, and_assoc]

theorem Means.not_isRefused (h : Means s (.ok t)) : ¬ IsRefused s := by
  rw [isRefused_iff]
  cases h with
  | memory h =>
    unfold memoryNames at h
    simp only [List.mem_cons, List.not_mem_nil, or_false] at h
    rcases h with rfl | rfl | rfl
    · rintro (h | h | ⟨hun, -⟩)
      · simp at h
      · simp at h
      · exact hun.2 ⟨":memory:".toList, rfl⟩
    · rintro (h | h | ⟨-, hscheme⟩)
      · simp at h
      · simp at h
      · exact splitFirst?_eq_none_iff.1 rfl hscheme
    · rintro (h | h | ⟨hun, -⟩)
      · simp at h
      · simp at h
      · exact hun.2 ⟨"//:memory:".toList, rfl⟩
  | uri h =>
    rintro (rfl | (rfl | rfl) | ⟨hun, -⟩)
    · simp at h
    · simp at h
    · simp at h
    · exact hun.1 h
  | path p hp hmemory h =>
    rintro (hs | hmark | ⟨hun, -⟩)
    · exact h.ne_empty hs
    · exact hp (h.eq_mark_iff.1 hmark)
    · exact hun.2 h.sqlite
  | bare hs hmemory h hscheme =>
    rintro (hs' | hmark | ⟨-, hscheme'⟩)
    · exact hs hs'
    · rcases hmark with rfl | rfl
      · exact h.2 ⟨[], rfl⟩
      · exact h.2 ⟨"//".toList, rfl⟩
    · exact hscheme hscheme'

/-- **A string is refused** exactly when it names nothing. -/
theorem Means.isRefused_iff (h : Means s r) : (∃ e, r = .error e) ↔ IsRefused s := by
  constructor
  · rintro ⟨e, rfl⟩
    rw [Target.isRefused_iff]
    cases h with
    | nothing h => exact .inl h
    | noPath h => exact .inr (.inl (h.eq_mark_iff.2 rfl))
    | foreign scheme rest h hscheme =>
      refine .inr (.inr ⟨h, ?_⟩)
      refine Classical.byContradiction fun hno => ?_
      rw [splitFirst?_eq_none_iff.2 hno] at hscheme
      cases hscheme
  · intro hrefused
    cases r with
    | ok t => exact absurd hrefused h.not_isRefused
    | error e => exact ⟨e, rfl⟩

/-- A path on its own, which means the same with a mark in front and without one. -/
def IsPlainPath (p : String) : Prop :=
  p ≠ "" ∧ trim p = p ∧ ¬ "//".toList <+: p.toList ∧ ¬ "file:".toList <+: p.toList ∧
    ¬ "sqlite:".toList <+: p.toList ∧ ¬ "://".toList <:+: p.toList

/-- A reader of connection strings agrees with the printer of targets, and with itself on
different spellings of one target. -/
structure IsConsistent (read : String → Except Error Target) : Prop where
  /-- It fails on the strings that name nothing, and on no others. -/
  refuses (connection : String) : (∃ e, read connection = .error e) ↔ IsRefused (trim connection)
  /-- A target is read back from its own spelling. -/
  printed (connection : String) (target : Target) :
    read connection = .ok target → read target.display = .ok target
  /-- A path is never one that would be read as something else. -/
  paths (connection p : String) : read connection = .ok (.file p) → p ≠ "" ∧ p ≠ ":memory:"
  /-- Blanks around a string make no difference. -/
  blanks (front connection back : String) : (∀ c ∈ front.toList, isBlankChar c = true) →
    (∀ c ∈ back.toList, isBlankChar c = true) → read (front ++ connection ++ back) = read connection
  /-- A path may be written with either mark or without one. -/
  spellings (p : String) : IsPlainPath p → ∃ target, read p = .ok target ∧
    read ("sqlite:" ++ p) = .ok target ∧ read ("sqlite://" ++ p) = .ok target

/-- **Connection strings parse and print consistently.** -/
theorem isConsistent_parse : IsConsistent parse where
  refuses connection := (means_parse connection).isRefused_iff
  printed connection target hread := by
    have hmeans := hread ▸ means_parse connection
    obtain ⟨htrimmed, hdisplay⟩ := hmeans.display (isTrimmed_trim connection)
    exact parse_eq_of_means (by rwa [trim_eq_self htrimmed])
  paths connection p hread := by
    have hmeans := hread ▸ means_parse connection
    cases hmeans with
    | path _ hp hmemory _ => exact ⟨hp, hmemory⟩
    | bare hp hmemory _ _ => exact ⟨hp, hmemory⟩
  blanks front connection back hfront hback := by
    rw [parse_eq_iff, trim_append_blank hfront hback]
    exact means_parse connection
  spellings p := by
    rintro ⟨hp, htrim, hslashes, hfile, hsqlite, hscheme⟩
    have hlast : ∀ c ∈ p.toList.getLast?, isBlankChar c = false := by
      rw [← htrim]
      exact (isTrimmed_trim p).2
    have hshort : IsMarked ("sqlite:" ++ p) p := .inr ⟨rfl, hslashes⟩
    have hlong : IsMarked ("sqlite://" ++ p) p := .inl rfl
    have hmarked : ∀ {s : String}, IsMarked s p → trim s = s := fun h =>
      trim_eq_self ((h.isTrimmed_iff hp).2 hlast)
    by_cases hmemory : p = ":memory:"
    · refine ⟨.memory, ?_, ?_, ?_⟩
      all_goals refine parse_eq_of_means (.memory ?_)
      · rw [hmemory]
        decide
      · rw [hmarked hshort]
        exact hshort.mem_memoryNames_iff.2 hmemory
      · rw [hmarked hlong]
        exact hlong.mem_memoryNames_iff.2 hmemory
    · refine ⟨.file p, ?_, ?_, ?_⟩
      all_goals refine parse_eq_of_means ?_
      · rw [htrim]
        exact .bare hp hmemory ⟨hfile, hsqlite⟩ hscheme
      · rw [hmarked hshort]
        exact .path p hp hmemory hshort
      · rw [hmarked hlong]
        exact .path p hp hmemory hlong

/-- Two slashes are a path of their own, but behind the short mark they are part of the long one. -/
example : parse "//a" = .ok (.file "//a") ∧ parse ("sqlite:" ++ "//a") = .ok (.file "a") :=
  ⟨rfl, rfl⟩

end Target
end GraphBase
