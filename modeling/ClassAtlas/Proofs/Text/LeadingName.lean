import ClassAtlas.Proofs.Text.Qualifier

namespace ClassAtlas.Text

-- A text without the blanks at both of its ends.
structure Trimmed (text inner : String) : Prop where
  around : ∃ front back, Blank front ∧ Blank back ∧ text = front ++ inner ++ back
  first : ∀ c ∈ inner.toList.head?, isBlank c = false
  last : ∀ c ∈ inner.toList.getLast?, isBlank c = false

theorem trimmed_trim (text : String) : Trimmed text (trim text) := by
  let inner := text.toList.dropWhile isBlank
  have hchars : (trim text).toList = inner.rdropWhile isBlank := String.toList_ofList
  refine ⟨exists_blank_around text, ?_, ?_⟩
  · intro c hc
    -- What is left starts where the text does once its front is gone.
    obtain ⟨back, hback⟩ : inner.rdropWhile isBlank <+: inner := List.rdropWhile_prefix _ _
    rw [hchars] at hc
    have hfirst : inner.head? = some c := by
      rw [← hback, List.head?_append, hc]
      rfl
    have hnot := List.head?_dropWhile_not isBlank text.toList
    rw [hfirst] at hnot
    simpa using hnot
  · intro c hc
    rw [hchars, List.rdropWhile, List.getLast?_reverse] at hc
    have hnot := List.head?_dropWhile_not isBlank inner.reverse
    rw [Option.mem_def.mp hc] at hnot
    simpa using hnot

theorem nameTail_isPrefix (chars : List Char) : nameTail chars <+: chars := by
  fun_induction nameTail chars with
  | case1 c rest _ ih =>
      exact List.cons_prefix_cons.mpr ⟨rfl, List.cons_prefix_cons.mpr ⟨rfl, ih⟩⟩
  | case2 => exact List.nil_prefix
  | case3 c rest _ _ ih => exact List.cons_prefix_cons.mpr ⟨rfl, ih⟩
  | case4 => exact List.nil_prefix
  | case5 => exact List.nil_prefix

theorem nameHead_isPrefix (chars : List Char) : nameHead chars <+: chars := by
  cases chars with
  | nil => exact List.nil_prefix
  | cons c rest =>
      rw [nameHead]
      split
      · exact List.cons_prefix_cons.mpr ⟨rfl, nameTail_isPrefix rest⟩
      · exact List.nil_prefix

-- The longest dotted name that a text starts with.
structure LeadingName (text name : String) : Prop where
  dotted : DottedName name
  starts : ∃ rest, text = name ++ rest
  longest : ∀ other rest, DottedName other → text = other ++ rest → other.length ≤ name.length

theorem LeadingName.unique {text name other : String} (hname : LeadingName text name)
    (hother : LeadingName text other) : name = other := by
  obtain ⟨rest, hrest⟩ := hname.starts
  obtain ⟨more, hmore⟩ := hother.starts
  have hle := hname.longest other more hother.dotted hmore
  have hge := hother.longest name rest hname.dotted hrest
  have hchars : name.toList ++ rest.toList = other.toList ++ more.toList := by
    rw [← String.toList_append, ← String.toList_append, ← hrest, hmore]
  have hlength : name.toList.length = other.toList.length := by
    rw [String.length_toList, String.length_toList]
    omega
  exact String.toList_inj.mp (List.append_inj hchars hlength).1

theorem typeName_toList (text : String) :
    (typeName text).toList = nameHead (trim text).toList := by
  rw [typeName, trim, String.toList_ofList, String.toList_ofList]

-- A dotted name at the head of a trimmed text is read, and more may be read behind it.
theorem typeName_of_starts {text name rest : String} (hname : DottedName name)
    (htext : trim text = name ++ rest) :
    typeName text = name ++ String.ofList (nameTail rest.toList) := by
  rw [← String.toList_inj, typeName_toList, htext, String.toList_append,
    Dotted.nameHead_append hname, String.toList_append, String.toList_ofList]

theorem leadingName_typeName {text : String} (hne : typeName text ≠ "") :
    LeadingName (trim text) (typeName text) := by
  refine ⟨(typeName_eq_empty_or_dottedName text).resolve_left hne, ?_, ?_⟩
  · obtain ⟨rest, hrest⟩ := nameHead_isPrefix (trim text).toList
    refine ⟨String.ofList rest, ?_⟩
    rw [← String.toList_inj, String.toList_append, typeName_toList, String.toList_ofList, hrest]
  · intro other rest hother htext
    rw [typeName_of_starts hother htext, String.length_append]
    omega

theorem typeName_eq_iff_leadingName {text name : String} (hne : name ≠ "") :
    typeName text = name ↔ LeadingName (trim text) name := by
  constructor
  · rintro rfl
    exact leadingName_typeName hne
  · intro hname
    obtain ⟨rest, hrest⟩ := hname.starts
    have hread : typeName text ≠ "" := by
      rw [typeName_of_starts hname.dotted hrest, Ne, String.append_eq_empty_iff]
      exact fun hempty => hne hempty.1
    exact (leadingName_typeName hread).unique hname

theorem typeName_eq_empty_iff {text : String} :
    typeName text = "" ↔ ∀ name rest, DottedName name → trim text ≠ name ++ rest := by
  constructor
  · intro hempty name rest hname htext
    rw [typeName_of_starts hname htext, String.append_eq_empty_iff] at hempty
    exact hname.ne_empty hempty.1
  · intro hnone
    by_contra hne
    obtain ⟨hdotted, ⟨rest, hrest⟩, -⟩ := leadingName_typeName hne
    exact hnone _ rest hdotted hrest

-- What carries a dotted name on: a character of its last word, or a dot with another word behind.
inductive Continues : List Char → Prop
  | part {c : Char} {rest : List Char} (hpart : isWordPart c = true) : Continues (c :: rest)
  | dot {c : Char} {rest : List Char} (hstart : isWordStart c = true) : Continues ('.' :: c :: rest)

theorem nameTail_eq_nil_iff {chars : List Char} : nameTail chars = [] ↔ ¬ Continues chars := by
  fun_cases nameTail chars with
  | case1 c rest hstart =>
      simp only [List.cons_ne_nil, false_iff, not_not]
      exact .dot hstart
  | case2 c rest hstart =>
      simp only [true_iff]
      rintro (hpart | hdot)
      · exact absurd hpart (by decide)
      · exact hstart hdot
  | case3 c rest _ hpart =>
      simp only [List.cons_ne_nil, false_iff, not_not]
      exact .part hpart
  | case4 c rest hlone hpart =>
      simp only [true_iff]
      rintro (hother | hdot)
      · exact hpart hother
      · exact hlone _ _ rfl rfl
  | case5 =>
      simp only [true_iff]
      rintro ⟨⟩

-- Blanks behind do not matter, since no blank belongs to a name.
theorem continues_append_blank {chars back : List Char} (hback : ∀ c ∈ back, isBlank c = true) :
    Continues (chars ++ back) ↔ Continues chars := by
  have hpart {c : Char} (hc : c ∈ back) : isWordPart c ≠ true := by
    intro hword
    have hblank := hback c hc
    rw [not_isBlank_of_isWordPart hword] at hblank
    cases hblank
  constructor
  · intro hcontinues
    rcases chars with _ | ⟨c, _ | ⟨d, rest⟩⟩
    · rw [List.nil_append] at hcontinues
      cases hcontinues with
      | part hword => exact absurd hword (hpart (by simp))
      | dot _ => exact absurd (hback '.' (by simp)) (by decide)
    · cases hcontinues with
      | part hword => exact .part hword
      | dot hstart => exact absurd (isWordPart_of_isWordStart hstart) (hpart (by simp))
    · cases hcontinues with
      | part hword => exact .part hword
      | dot hstart => exact .dot hstart
  · rintro (hword | hstart)
    · exact .part hword
    · exact .dot hstart

theorem typeName_append {name : String} (hname : DottedName name) (rest : String) :
    typeName (name ++ rest) =
      name ++ String.ofList (nameTail (rest.toList.rdropWhile isBlank)) := by
  have hne : name.toList ≠ [] := by
    obtain ⟨c, more, hchars, -⟩ := Dotted.exists_start hname
    rw [hchars]
    exact List.cons_ne_nil c more
  have htrim : trim (name ++ rest) = name ++ String.ofList (rest.toList.rdropWhile isBlank) := by
    rw [trim, String.toList_append, trimChars_append_of_not_blank hname.not_blank hne,
      String.ofList_append, String.ofList_toList]
  rw [typeName_of_starts hname htrim, String.toList_ofList]

-- The name is all that is read just when nothing carries it on.
theorem typeName_append_eq_iff {name : String} (hname : DottedName name) (rest : String) :
    typeName (name ++ rest) = name ↔ ¬ Continues rest.toList := by
  have hback : ∀ c ∈ rest.toList.rtakeWhile isBlank, isBlank c = true :=
    fun c hc => List.mem_rtakeWhile_imp hc
  have hcontinues : Continues rest.toList ↔ Continues (rest.toList.rdropWhile isBlank) := by
    conv_lhs => rw [← List.rdropWhile_append_rtakeWhile (p := isBlank) (l := rest.toList)]
    exact continues_append_blank hback
  rw [hcontinues, ← nameTail_eq_nil_iff, typeName_append hname, ← String.toList_inj,
    String.toList_append, String.toList_ofList, List.append_right_eq_self]

theorem typeName_blank_append_blank {front back : String} (hfront : Blank front)
    (hback : Blank back) (text : String) : typeName (front ++ text ++ back) = typeName text := by
  rw [← String.toList_inj, typeName_toList, typeName_toList, trim_blank_append_blank hfront hback]

theorem typeName_typeName (text : String) : typeName (typeName text) = typeName text := by
  rcases typeName_eq_empty_or_dottedName text with hempty | hname
  · rw [hempty]
    decide
  · exact hname.typeName_eq

-- The type that an expression names is the longest dotted name at the head of it, once the blanks
-- around are gone, and there is none just when no dotted name stands there. So names are kept,
-- reading twice changes nothing, and of anything behind a name just that is read which carries
-- the name on.
theorem typeName_is_leading_name (text : String) :
    Trimmed text (trim text) ∧
    (∀ name, name ≠ "" → (typeName text = name ↔ LeadingName (trim text) name)) ∧
    (typeName text = "" ↔ ∀ name rest, DottedName name → trim text ≠ name ++ rest) ∧
    typeName (typeName text) = typeName text ∧
    (∀ front back, Blank front → Blank back → typeName (front ++ text ++ back) = typeName text) ∧
    (DottedName text → typeName text = text ∧
      ∀ rest, typeName (text ++ rest) = text ↔ ¬ Continues rest.toList) := by
  refine ⟨trimmed_trim text, fun name hne => typeName_eq_iff_leadingName hne,
    typeName_eq_empty_iff, typeName_typeName text, ?_, ?_⟩
  · intro front back hfront hback
    exact typeName_blank_append_blank hfront hback text
  · intro hname
    exact ⟨hname.typeName_eq, typeName_append_eq_iff hname⟩

theorem genericType_is_leading_name :
    LeadingName (trim "\u3000ns.Base<T>[]\n") "ns.Base" ∧
      typeName ("\t" ++ "ns.Base" ++ " ") = "ns.Base" ∧
      typeName ("ns.Base" ++ "..?") = "ns.Base" := by
  obtain ⟨-, hlongest, -⟩ := typeName_is_leading_name "\u3000ns.Base<T>[]\n"
  obtain ⟨-, -, -, -, hblanks, hnames⟩ := typeName_is_leading_name "ns.Base"
  obtain ⟨hkept, hrest⟩ := hnames (by decide +kernel)
  have hfront : "\t".toList.all isBlank = true := by decide
  have hback : " ".toList.all isBlank = true := by decide
  refine ⟨(hlongest "ns.Base" (by decide)).mp (by decide +kernel), ?_, (hrest "..?").mpr ?_⟩
  · rw [hblanks "\t" " " (List.all_eq_true.mp hfront) (List.all_eq_true.mp hback), hkept]
  · exact nameTail_eq_nil_iff.mp (by decide)

end ClassAtlas.Text
