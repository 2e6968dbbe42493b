import Mathlib.Data.List.Basic
import ClassAtlas.Text.DottedName

namespace ClassAtlas.Text

-- One word, or several with single dots between them.
inductive Dotted : List Char → Prop
  | word {word : List Char} (hword : isWord word = true) : Dotted word
  | dot {word rest : List Char} (hword : isWord word = true) (hrest : Dotted rest) :
      Dotted (word ++ '.' :: rest)

def DottedName (text : String) : Prop := Dotted text.toList

theorem isWord_cons {c : Char} {rest : List Char} :
    isWord (c :: rest) = true ↔ isWordStart c = true ∧ ∀ d ∈ rest, isWordPart d = true := by
  simp [isWord]

theorem isWord_singleton {c : Char} (hstart : isWordStart c = true) : isWord [c] = true :=
  isWord_cons.mpr ⟨hstart, by simp⟩

theorem isWordPart_of_isWordStart {c : Char} (hstart : isWordStart c = true) :
    isWordPart c = true := by
  simp only [isWordStart, isWordPart, Char.isAlphanum, Bool.or_eq_true] at hstart ⊢
  rcases hstart with (halpha | hline) | hdollar
  · exact Or.inl (Or.inl (Or.inl halpha))
  · exact Or.inl (Or.inr hline)
  · exact Or.inr hdollar

theorem isWordPart_toNat {c : Char} (hpart : isWordPart c = true) :
    36 ≤ c.toNat ∧ c.toNat ≤ 122 ∧ c.toNat ≠ 46 := by
  have hranges : (((decide (65 ≤ c.val ∧ c.val ≤ 90) ||
      (decide (97 ≤ c.val) && decide (c.val ≤ 122))) ||
      (decide (48 ≤ c.val) && decide (c.val ≤ 57))) || c == '_' || c == '$') = true := hpart
  simp only [Bool.or_eq_true, Bool.and_eq_true, decide_eq_true_eq, beq_iff_eq,
    UInt32.le_iff_toNat_le] at hranges
  change ((((65 ≤ c.toNat ∧ c.toNat ≤ 90) ∨ (97 ≤ c.toNat ∧ c.toNat ≤ 122)) ∨
    (48 ≤ c.toNat ∧ c.toNat ≤ 57)) ∨ c = '_') ∨ c = '$' at hranges
  rcases hranges with (hletter | rfl) | rfl
  · omega
  · decide
  · decide

theorem ne_dot_of_isWordPart {c : Char} (hpart : isWordPart c = true) : c ≠ '.' := by
  rintro rfl
  exact absurd hpart (by decide)

theorem not_isBlank_of_isWordPart {c : Char} (hpart : isWordPart c = true) : isBlank c = false := by
  have hrange := isWordPart_toNat hpart
  simp only [isBlank, Bool.or_eq_false_iff, Bool.and_eq_false_iff, decide_eq_false_iff_not,
    beq_eq_false_iff_ne]
  omega

theorem isWord_append {word more : List Char} (hword : isWord word = true)
    (hmore : ∀ c ∈ more, isWordPart c = true) : isWord (word ++ more) = true := by
  cases word with
  | nil => cases hword
  | cons c rest =>
      obtain ⟨hstart, hrest⟩ := isWord_cons.mp hword
      refine isWord_cons.mpr ⟨hstart, fun d hd => ?_⟩
      exact (List.mem_append.mp hd).elim (hrest d) (hmore d)

-- What is read behind a word completes it to a dotted name. The word grows with each character,
-- and a dot starts a new one.
theorem dotted_append_nameTail {word : List Char} (hword : isWord word = true) (chars : List Char) :
    Dotted (word ++ nameTail chars) := by
  fun_induction nameTail chars generalizing word with
  | case1 c rest hstart ih =>
      exact .dot hword (ih (isWord_singleton hstart))
  | case2 => simpa using Dotted.word hword
  | case3 c rest _ hpart ih =>
      have hmore : ∀ d ∈ [c], isWordPart d = true := by simpa using hpart
      simpa using ih (isWord_append hword hmore)
  | case4 => simpa using Dotted.word hword
  | case5 => simpa using Dotted.word hword

theorem nameHead_eq_nil_or_dotted (chars : List Char) :
    nameHead chars = [] ∨ Dotted (nameHead chars) := by
  cases chars with
  | nil => exact Or.inl rfl
  | cons c rest =>
      by_cases hstart : isWordStart c = true
      · right
        rw [nameHead, if_pos hstart]
        exact dotted_append_nameTail (isWord_singleton hstart) rest
      · left
        rw [nameHead, if_neg hstart]

theorem nameTail_append {front : List Char} (hfront : ∀ c ∈ front, isWordPart c = true)
    (chars : List Char) : nameTail (front ++ chars) = front ++ nameTail chars := by
  induction front with
  | nil => rfl
  | cons c front ih =>
      obtain ⟨hpart, hfront⟩ := List.forall_mem_cons.mp hfront
      rw [List.cons_append, nameTail.eq_2 c, if_pos hpart, ih hfront, List.cons_append]
      intro _ _ hdot
      exact absurd hdot (ne_dot_of_isWordPart hpart)

theorem nameHead_word {word : List Char} (hword : isWord word = true) (chars : List Char) :
    nameHead (word ++ chars) = word ++ nameTail chars := by
  cases word with
  | nil => cases hword
  | cons c rest =>
      obtain ⟨hstart, hrest⟩ := isWord_cons.mp hword
      rw [List.cons_append, nameHead, if_pos hstart, nameTail_append hrest, List.cons_append]

theorem Dotted.exists_start {chars : List Char} (hdotted : Dotted chars) :
    ∃ c rest, chars = c :: rest ∧ isWordStart c = true := by
  have hstart {word : List Char} (hword : isWord word = true) :
      ∃ c rest, word = c :: rest ∧ isWordStart c = true := by
    cases word with
    | nil => cases hword
    | cons c rest => exact ⟨c, rest, rfl, (isWord_cons.mp hword).1⟩
  cases hdotted with
  | word hword => exact hstart hword
  | dot hword _ =>
      obtain ⟨c, rest, rfl, hc⟩ := hstart hword
      exact ⟨c, _, rfl, hc⟩

-- A dotted name is read to its end, and then on as far as what follows belongs to a name.
theorem Dotted.nameHead_append {name : List Char} (hname : Dotted name) (chars : List Char) :
    nameHead (name ++ chars) = name ++ nameTail chars := by
  induction hname with
  | word hword => exact nameHead_word hword chars
  | @dot word rest hword hrest ih =>
      obtain ⟨c, more, rfl, hstart⟩ := hrest.exists_start
      rw [List.append_assoc, nameHead_word hword, List.append_assoc]
      congr 1
      rw [List.cons_append, nameHead, if_pos hstart] at ih
      rw [List.cons_append, List.cons_append, nameTail, if_pos hstart, ih]
      rfl

theorem Dotted.nameHead_eq {name : List Char} (hname : Dotted name) : nameHead name = name := by
  simpa [nameTail] using hname.nameHead_append []

theorem Dotted.not_blank {chars : List Char} (hdotted : Dotted chars) :
    ∀ c ∈ chars, isBlank c = false := by
  have hword {word : List Char} (hword : isWord word = true) : ∀ c ∈ word, isBlank c = false := by
    cases word with
    | nil => cases hword
    | cons c rest =>
        obtain ⟨hstart, hrest⟩ := isWord_cons.mp hword
        refine List.forall_mem_cons.mpr ⟨?_, fun d hd => not_isBlank_of_isWordPart (hrest d hd)⟩
        exact not_isBlank_of_isWordPart (isWordPart_of_isWordStart hstart)
  induction hdotted with
  | word h => exact hword h
  | dot h _ ih =>
      intro c hc
      rcases List.mem_append.mp hc with hfront | hback
      · exact hword h c hfront
      · rcases List.mem_cons.mp hback with rfl | hback
        · decide
        · exact ih c hback

theorem dropWhile_isBlank_eq_self {chars : List Char}
    (hhead : ∀ c ∈ chars.head?, isBlank c = false) : chars.dropWhile isBlank = chars := by
  cases chars with
  | nil => rfl
  | cons c rest => rw [List.dropWhile_cons_of_neg (by simp [hhead c rfl])]

-- Where no blank stands at an end there is nothing to trim.
theorem trimChars_eq_self {chars : List Char} (hfirst : ∀ c ∈ chars.head?, isBlank c = false)
    (hlast : ∀ c ∈ chars.getLast?, isBlank c = false) : trimChars chars = chars := by
  have hback : ∀ c ∈ chars.reverse.head?, isBlank c = false := by
    rwa [List.head?_reverse]
  rw [trimChars, dropWhile_isBlank_eq_self hfirst, dropWhile_isBlank_eq_self hback,
    List.reverse_reverse]

theorem trimChars_of_not_blank {chars : List Char} (hchars : ∀ c ∈ chars, isBlank c = false) :
    trimChars chars = chars :=
  trimChars_eq_self (fun c hc => hchars c (List.mem_of_mem_head? hc))
    fun c hc => hchars c (List.mem_of_mem_getLast? hc)

theorem typeName_eq_empty_or_dottedName (text : String) :
    typeName text = "" ∨ DottedName (typeName text) := by
  unfold DottedName
  rcases nameHead_eq_nil_or_dotted (trimChars text.toList) with hnil | hdotted
  · left
    rw [typeName, hnil]
  · right
    rwa [typeName, String.toList_ofList]

theorem DottedName.ne_empty {text : String} (hname : DottedName text) : text ≠ "" := by
  rintro rfl
  obtain ⟨c, rest, hchars, -⟩ := Dotted.exists_start hname
  cases hchars

theorem DottedName.typeName_eq {text : String} (hname : DottedName text) :
    typeName text = text := by
  rw [typeName, trimChars_of_not_blank hname.not_blank, Dotted.nameHead_eq hname,
    String.ofList_toList]

-- Just the dotted names come through unchanged.
theorem typeName_eq_self_iff {text : String} (hne : text ≠ "") :
    typeName text = text ↔ DottedName text := by
  constructor
  · intro heq
    have hname := typeName_eq_empty_or_dottedName text
    rw [heq] at hname
    exact hname.resolve_left hne
  · exact DottedName.typeName_eq

instance (text : String) : Decidable (DottedName text) :=
  decidable_of_iff (typeName text = text ∧ text ≠ "") <| by
    constructor
    · rintro ⟨heq, hne⟩
      exact (typeName_eq_self_iff hne).mp heq
    · intro hname
      exact ⟨hname.typeName_eq, hname.ne_empty⟩

end ClassAtlas.Text
