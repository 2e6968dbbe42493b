import Mathlib.Data.List.DropRight
import ClassAtlas.Proofs.Text.DottedName
import ClassAtlas.Text.Qualifier

namespace ClassAtlas.Text

def Blank (text : String) : Prop := ∀ c ∈ text.toList, isBlank c = true

theorem blank_empty : Blank "" := by simp [Blank]

theorem Blank.exists_cons {text : String} (hblank : Blank text) (hne : text ≠ "") :
    ∃ c rest, text.toList = c :: rest ∧ isBlank c = true := by
  obtain ⟨c, rest, hchars⟩ := List.exists_cons_of_ne_nil (l := text.toList) (by simpa using hne)
  exact ⟨c, rest, hchars, hblank c (by simp [hchars])⟩

theorem trimChars_blank_append {front : List Char} (hfront : ∀ c ∈ front, isBlank c = true)
    (chars : List Char) : trimChars (front ++ chars) = trimChars chars := by
  rw [trimChars, List.dropWhile_append_of_pos hfront, trimChars]

theorem trimChars_append_blank {back : List Char} (hback : ∀ c ∈ back, isBlank c = true)
    (chars : List Char) : trimChars (chars ++ back) = trimChars chars := by
  have hreverse : ∀ c ∈ back.reverse, isBlank c = true := by simpa using hback
  have hnone : back.dropWhile isBlank = [] := by simpa using hback
  rw [trimChars, trimChars, List.dropWhile_append]
  split
  · next hempty => rw [hnone, List.isEmpty_iff.mp hempty]
  · rw [List.reverse_append, List.dropWhile_append_of_pos hreverse]

-- Where a text starts with characters that are not blank, only its end is trimmed.
theorem trimChars_append_of_not_blank {start : List Char}
    (hstart : ∀ c ∈ start, isBlank c = false) (hne : start ≠ []) (rest : List Char) :
    trimChars (start ++ rest) = start ++ rest.rdropWhile isBlank := by
  obtain ⟨c, more, rfl⟩ := List.exists_cons_of_ne_nil hne
  have hfront : (c :: more ++ rest).dropWhile isBlank = c :: more ++ rest := by
    rw [List.cons_append, List.dropWhile_cons_of_neg (by simp [hstart c])]
  have hback : (c :: more).reverse.dropWhile isBlank = (c :: more).reverse := by
    obtain ⟨last, others, hlast⟩ := List.exists_cons_of_ne_nil (l := (c :: more).reverse) (by simp)
    have hmem : last ∈ c :: more := List.mem_reverse.mp (hlast ▸ List.mem_cons_self ..)
    rw [hlast, List.dropWhile_cons_of_neg (by simp [hstart last hmem])]
  rw [trimChars, hfront, List.reverse_append, List.dropWhile_append, List.rdropWhile]
  split
  · next hempty => rw [hback, List.isEmpty_iff.mp hempty]; simp
  · rw [List.reverse_append, List.reverse_reverse]

theorem trimChars_rdropWhile (chars : List Char) :
    trimChars (chars.rdropWhile isBlank) = trimChars chars := by
  have hback : ∀ c ∈ chars.rtakeWhile isBlank, isBlank c = true :=
    fun c hc => List.mem_rtakeWhile_imp hc
  conv_rhs => rw [← List.rdropWhile_append_rtakeWhile (p := isBlank) (l := chars)]
  rw [trimChars_append_blank hback]

-- Trimming only takes blanks away.
theorem exists_blank_around (text : String) :
    ∃ front back, Blank front ∧ Blank back ∧ text = front ++ trim text ++ back := by
  let inner := text.toList.dropWhile isBlank
  have hfront : Blank (String.ofList (text.toList.takeWhile isBlank)) := by
    intro c hc
    exact List.mem_takeWhile_imp (String.toList_ofList ▸ hc)
  have hback : Blank (String.ofList (inner.rtakeWhile isBlank)) := by
    intro c hc
    exact List.mem_rtakeWhile_imp (String.toList_ofList ▸ hc)
  refine ⟨_, _, hfront, hback, ?_⟩
  have hinner : trimChars text.toList ++ inner.rtakeWhile isBlank = inner :=
    List.rdropWhile_append_rtakeWhile
  rw [← String.toList_inj]
  simp only [trim, String.toList_append, String.toList_ofList, List.append_assoc, hinner]
  exact List.takeWhile_append_dropWhile.symm

theorem trim_blank_append_blank {front back : String} (hfront : Blank front) (hback : Blank back)
    (text : String) : trim (front ++ text ++ back) = trim text := by
  rw [trim, String.toList_append, String.toList_append, trimChars_append_blank hback,
    trimChars_blank_append hfront, trim]

theorem trim_trim (text : String) : trim (trim text) = trim text := by
  obtain ⟨front, back, hfront, hback, htext⟩ := exists_blank_around text
  conv_rhs => rw [htext]
  rw [trim_blank_append_blank hfront hback]

theorem trim_eq_self {text : String} (hfirst : ∀ c ∈ text.toList.head?, isBlank c = false)
    (hlast : ∀ c ∈ text.toList.getLast?, isBlank c = false) : trim text = text := by
  rw [trim, trimChars_eq_self hfirst hlast, String.ofList_toList]

theorem trim_of_isWord {text : String} (hword : isWord text.toList = true) : trim text = text := by
  rw [trim, trimChars_of_not_blank (Dotted.word hword).not_blank, String.ofList_toList]

theorem after?_eq_some_iff {start text rest : String} :
    after? start text = some rest ↔ text = start ++ rest := by
  rw [after?, Option.map_eq_some_iff, ← String.toList_inj, String.toList_append]
  constructor
  · rintro ⟨chars, hchars, rfl⟩
    rw [String.toList_ofList, List.isPrefixOf?_eq_some_iff_append_eq.mp hchars]
  · intro htext
    exact ⟨rest.toList, List.isPrefixOf?_eq_some_iff_append_eq.mpr htext.symm, String.ofList_toList⟩

theorem after?_eq_none_iff {start text : String} :
    after? start text = none ↔ ∀ rest, text ≠ start ++ rest := by
  simp only [Option.eq_none_iff_forall_ne_some, ne_eq, after?_eq_some_iff]

-- The two ways to name the current object in front of a member.
def qualifiers : List String := ["this.", "self."]

theorem qualifier_not_blank {qualifier : String} (hqualifier : qualifier ∈ qualifiers) :
    (∀ c ∈ qualifier.toList, isBlank c = false) ∧ qualifier.toList ≠ [] := by
  have hall : qualifier.toList.all (fun c => !isBlank c) = true ∧ qualifier.toList ≠ [] := by
    rcases List.mem_pair.mp hqualifier with rfl | rfl <;> decide
  exact ⟨by simpa using hall.1, hall.2⟩

theorem selfMember?_eq_some_iff {text member : String} :
    selfMember? text = some member ↔ ∃ qualifier ∈ qualifiers, text = qualifier ++ member := by
  rw [selfMember?, Option.or_eq_some_iff, after?_eq_some_iff, after?_eq_some_iff]
  constructor
  · rintro (hthis | ⟨-, hself⟩)
    · exact ⟨"this.", by decide, hthis⟩
    · exact ⟨"self.", by decide, hself⟩
  · rintro ⟨qualifier, hqualifier, htext⟩
    rcases List.mem_pair.mp hqualifier with rfl | rfl
    · exact Or.inl htext
    · right
      -- A text cannot start in both ways.
      refine ⟨after?_eq_none_iff.mpr fun other hother => ?_, htext⟩
      rw [htext, ← String.toList_inj] at hother
      simp at hother

theorem selfMember?_eq_none_iff {text : String} :
    selfMember? text = none ↔ ∀ qualifier ∈ qualifiers, ∀ member, text ≠ qualifier ++ member := by
  simp only [Option.eq_none_iff_forall_ne_some, ne_eq, selfMember?_eq_some_iff, not_exists, not_and]
  exact ⟨fun h qualifier hqualifier member => h member qualifier hqualifier,
    fun h member qualifier hqualifier => h qualifier hqualifier member⟩

-- A word has no dot in it.
theorem selfMember?_of_isWord {text : String} (hword : isWord text.toList = true) :
    selfMember? text = none := by
  rw [selfMember?_eq_none_iff]
  rintro qualifier hqualifier member rfl
  rw [String.toList_append] at hword
  rcases List.mem_pair.mp hqualifier with rfl | rfl <;> simp [isWord, isWordPart] at hword

-- A member of the current object, as it can be written: behind one of the qualifiers, with any
-- blanks behind the dot and around the whole.
inductive WritesMember (member : String) : String → Prop
  | mk {front qualifier gap back : String} (hqualifier : qualifier ∈ qualifiers)
      (hfront : Blank front) (hgap : Blank gap) (hback : Blank back) :
      WritesMember member (front ++ (qualifier ++ (gap ++ member ++ back)))

theorem WritesMember.exists_trim_eq {member text : String} (hwrites : WritesMember member text) :
    ∃ qualifier ∈ qualifiers, ∃ rest, trim text = qualifier ++ rest ∧ trim rest = trim member := by
  obtain ⟨hqualifier, hfront, hgap, hback⟩ := hwrites
  rename_i front qualifier gap back
  obtain ⟨hvisible, hne⟩ := qualifier_not_blank hqualifier
  let tail := (gap ++ member ++ back).toList.rdropWhile isBlank
  refine ⟨qualifier, hqualifier, String.ofList tail, ?_, ?_⟩
  · rw [trim, String.toList_append, trimChars_blank_append hfront, String.toList_append,
      trimChars_append_of_not_blank hvisible hne, String.ofList_append, String.ofList_toList]
  · have htail : trimChars tail = trimChars (gap ++ member ++ back).toList :=
      trimChars_rdropWhile _
    rw [trim, String.toList_ofList, htail, ← trim, trim_blank_append_blank hgap hback]

theorem trim_unqualified (text : String) : trim (unqualified text) = unqualified text :=
  trim_trim _

theorem unqualified_of_trim_eq {text qualifier member : String}
    (hqualifier : qualifier ∈ qualifiers) (htext : trim text = qualifier ++ member) :
    unqualified text = trim member := by
  have hmember : selfMember? (trim text) = some member :=
    selfMember?_eq_some_iff.mpr ⟨qualifier, hqualifier, htext⟩
  rw [unqualified, hmember, Option.getD_some]

theorem WritesMember.unqualified_eq {member text : String} (hwrites : WritesMember member text) :
    unqualified text = trim member := by
  obtain ⟨qualifier, hqualifier, rest, htext, hrest⟩ := hwrites.exists_trim_eq
  rw [unqualified_of_trim_eq hqualifier htext, hrest]

theorem writesMember_of_trim_eq {text qualifier member : String}
    (hqualifier : qualifier ∈ qualifiers) (htext : trim text = qualifier ++ member) :
    WritesMember (trim member) text := by
  obtain ⟨front, back, hfront, hback, houter⟩ := exists_blank_around text
  obtain ⟨gap, after, hgap, hafter, hinner⟩ := exists_blank_around member
  have hblank : Blank (after ++ back) := by
    intro c hc
    rw [String.toList_append] at hc
    exact (List.mem_append.mp hc).elim (hafter c) (hback c)
  have hparts : text = front ++ (qualifier ++ (gap ++ trim member ++ (after ++ back))) := by
    conv_lhs => rw [houter, htext, hinner]
    simp only [String.append_assoc]
  rw [hparts]
  exact .mk hqualifier hfront hgap hblank

-- A text that names a member of the current object.
def Qualified (text : String) : Prop :=
  ∃ qualifier ∈ qualifiers, ∃ member, trim text = qualifier ++ member

theorem Qualified.writesMember {text : String} (hqualified : Qualified text) :
    WritesMember (unqualified text) text := by
  obtain ⟨qualifier, hqualifier, member, htext⟩ := hqualified
  rw [unqualified_of_trim_eq hqualifier htext]
  exact writesMember_of_trim_eq hqualifier htext

end ClassAtlas.Text
