import ClassAtlas.Proofs.Atlas.Identity
import ClassAtlas.Proofs.Atlas.Parents

namespace ClassAtlas

namespace Atlas

-- The first and the last place that declare a class of a name.
def NamesFirst (atlas : Atlas) (place : ClassPlace) (name : String) : Prop :=
  atlas.Names place name ∧ ∀ other, atlas.Names other name → other = place ∨ place.Before other

def NamesLast (atlas : Atlas) (place : ClassPlace) (name : String) : Prop :=
  atlas.Names place name ∧ ∀ other, atlas.Names other name → other = place ∨ other.Before place

theorem find?_placedClasses_eq_some_iff (atlas : Atlas) (name : String) (place : ClassPlace)
    (entry : ClassEntry) :
    atlas.placedClasses.find? (fun placed => placed.2.name == name) = some (place, entry) ↔
      atlas.NamesFirst place name ∧ atlas.class? place = some entry := by
  have hnames (other : ClassPlace) : atlas.Names other name ↔
      ∃ found, (other, found) ∈ atlas.placedClasses ∧ found.name = name := by
    simp only [Names, mem_placedClasses]
  have hsorted := atlas.placedClasses_pairwise
  simp only [NamesFirst, hnames, ← mem_placedClasses]
  rw [List.find?_eq_some_iff_append]
  constructor
  · rintro ⟨hname, before, behind, hsplit, hbefore⟩
    rw [hsplit] at hsorted ⊢
    have hentry : (place, entry) ∈ before ++ (place, entry) :: behind := by simp
    have hname : entry.name = name := by simpa using hname
    refine ⟨⟨⟨entry, hentry, hname⟩, ?_⟩, hentry⟩
    rintro other ⟨found, hfound, hother⟩
    rcases List.mem_append.mp hfound with hfront | hback
    · have hnot := hbefore _ hfront
      simp [hother] at hnot
    · rcases List.mem_cons.mp hback with heq | hback
      · exact Or.inl (Prod.mk.inj heq).1
      · obtain ⟨-, htail, -⟩ := List.pairwise_append.mp hsorted
        exact Or.inr ((List.pairwise_cons.mp htail).1 _ hback)
  · rintro ⟨⟨⟨found, hfound, hname⟩, hfirst⟩, hentry⟩
    obtain rfl : found = entry := by
      have hsame := (mem_placedClasses.mp hfound).symm.trans (mem_placedClasses.mp hentry)
      exact Option.some.inj hsame
    obtain ⟨before, behind, hsplit⟩ := List.append_of_mem hentry
    refine ⟨by simpa using hname, before, behind, hsplit, ?_⟩
    rintro ⟨other, earlier⟩ hearlier
    have hmem : (other, earlier) ∈ atlas.placedClasses := by
      rw [hsplit]
      exact List.mem_append_left _ hearlier
    rw [hsplit] at hsorted
    obtain ⟨-, -, hacross⟩ := List.pairwise_append.mp hsorted
    have hlt : other.Before place := hacross _ hearlier _ (List.mem_cons_self ..)
    have hne : earlier.name ≠ name := by
      intro hother
      rcases hfirst other ⟨earlier, hmem, hother⟩ with rfl | hback
      · exact hlt.asymm hlt
      · exact hlt.asymm hback
    simpa using hne

theorem firstClass?_eq_some_iff (atlas : Atlas) (name : String) (entry : ClassEntry) :
    atlas.firstClass? name = some entry ↔
      ∃ place, atlas.NamesFirst place name ∧ atlas.class? place = some entry := by
  rw [firstClass?, classes_eq_placedClasses, List.find?_map, Option.map_eq_some_iff]
  simp only [Function.comp_def, Prod.exists, find?_placedClasses_eq_some_iff]
  constructor
  · rintro ⟨place, found, hplace, rfl⟩
    exact ⟨place, hplace⟩
  · rintro ⟨place, hplace⟩
    exact ⟨place, entry, hplace, rfl⟩

theorem firstClass?_isSome_iff (atlas : Atlas) (name : String) :
    (atlas.firstClass? name).isSome ↔ ∃ place, atlas.Names place name := by
  rw [firstClass?, List.find?_isSome, exists_names_iff]
  simp only [List.mem_map, beq_iff_eq]

-- The first place is also the last one just when there is no other.
theorem NamesFirst.eq_last_iff {atlas : Atlas} {first last : ClassPlace} {name : String}
    (hfirst : atlas.NamesFirst first name) (hlast : atlas.NamesLast last name) :
    first = last ↔ ∃! place, atlas.Names place name := by
  constructor
  · rintro rfl
    refine ⟨first, hfirst.1, ?_⟩
    intro other hother
    rcases hfirst.2 other hother with heq | hbehind
    · exact heq
    · exact (hlast.2 other hother).resolve_right fun hbefore => hbefore.asymm hbehind
  · rintro ⟨place, -, honly⟩
    rw [honly first hfirst.1, honly last hlast.1]

-- No two classes have the same name.
def DistinctNames (atlas : Atlas) : Prop :=
  (atlas.classes.map (·.name)).Nodup

instance (atlas : Atlas) : Decidable atlas.DistinctNames :=
  inferInstanceAs (Decidable (List.Nodup _))

-- No method has a dot in its name. Classes may have dots.
def DotlessMethods (atlas : Atlas) : Prop :=
  ∀ entry ∈ atlas.classes, ∀ method ∈ entry.methods, dots method.name = 0

instance (atlas : Atlas) : Decidable atlas.DotlessMethods :=
  inferInstanceAs (Decidable (∀ entry ∈ atlas.classes, ∀ method ∈ entry.methods, _))

-- The method at a place is the last one of its name in its class.
def LastOfName (atlas : Atlas) (place : MethodPlace) (name : String) : Prop :=
  ∃ entry, atlas.class? place.owner = some entry ∧
    (∃ method, entry.methods[place.method]? = some method ∧ method.name = name) ∧
    ∀ position method, entry.methods[position]? = some method → method.name = name →
      position ≤ place.method

theorem DistinctNames.unique {atlas : Atlas} (hdistinct : atlas.DistinctNames)
    {place other : ClassPlace} {name : String} (hplace : atlas.Names place name)
    (hother : atlas.Names other name) : place = other := by
  obtain ⟨entry, hentry, hname⟩ := hplace
  obtain ⟨found, hfound, hname'⟩ := hother
  rw [DistinctNames, classes_eq_placedClasses, List.map_map] at hdistinct
  have hsame := List.inj_on_of_nodup_map hdistinct (mem_placedClasses.mpr hentry)
    (mem_placedClasses.mpr hfound) (hname.trans hname'.symm)
  exact (Prod.mk.inj hsame).1

theorem mem_classes_of_class? {atlas : Atlas} {place : ClassPlace} {entry : ClassEntry}
    (hentry : atlas.class? place = some entry) : entry ∈ atlas.classes := by
  rw [classes_eq_placedClasses]
  exact List.mem_map_of_mem (f := (·.2)) (mem_placedClasses.mpr hentry)

-- The name of a method without a dot starts behind the last dot of the name that is put together.
theorem DotlessMethods.declares_iff {atlas : Atlas} (hdotless : atlas.DotlessMethods)
    {name : String} (hname : dots name = 0) (place : MethodPlace) (owner : String) :
    atlas.Declares place (methodName owner name) ↔ atlas.DeclaresAs place owner name := by
  rw [Atlas.declares_iff]
  constructor
  · rintro ⟨owner', name', hdecl, hkey⟩
    obtain ⟨entry, method, hentry, hmethod, -, hmethodName⟩ := id hdecl
    have hdots : dots name' = 0 := by
      rw [← hmethodName]
      exact hdotless entry (mem_classes_of_class? hentry) method (List.mem_of_getElem? hmethod)
    obtain ⟨rfl, rfl⟩ := (methodName_eq_iff_dots hkey).mpr (hdots.trans hname.symm)
    exact hdecl
  · intro hdecl
    exact ⟨owner, name, hdecl, rfl⟩

section Tables

variable {atlas : Atlas} (hdistinct : atlas.DistinctNames) (hdotless : atlas.DotlessMethods)

include hdistinct hdotless

theorem method?_eq_some_iff_class {name : String} (hname : dots name = 0) (owner : String)
    (place : MethodPlace) :
    atlas.methodTable.method? owner name = some place ↔
      atlas.classTable[owner]? = some place.owner ∧ atlas.LastOfName place name := by
  rw [Table.method?, methodTable_eq_some_iff, DeclaresLast, classTable_eq_some_iff]
  simp only [hdotless.declares_iff hname]
  constructor
  · rintro ⟨⟨entry, method, hentry, hmethod, howner, hmethodName⟩, hlast⟩
    have hnames : atlas.Names place.owner owner := ⟨entry, hentry, howner⟩
    refine ⟨⟨hnames, fun other hother => Or.inl (hdistinct.unique hother hnames)⟩,
      entry, hentry, ⟨method, hmethod, hmethodName⟩, ?_⟩
    intro position found hfound hfoundName
    have hdecl : atlas.DeclaresAs ⟨place.file, place.index, position⟩ owner name :=
      ⟨entry, found, hentry, hfound, howner, hfoundName⟩
    rcases hlast _ hdecl with heq | hbefore
    · exact (congrArg MethodPlace.method heq).le
    · simp only [MethodPlace.Before, ClassPlace.Before, MethodPlace.owner] at hbefore
      omega
  · rintro ⟨⟨hnames, -⟩, entry, hentry, ⟨method, hmethod, hmethodName⟩, hlast⟩
    obtain ⟨entry', hentry', howner⟩ := id hnames
    obtain rfl := Option.some.inj (hentry.symm.trans hentry')
    refine ⟨⟨entry, method, hentry, hmethod, howner, hmethodName⟩, ?_⟩
    rintro other ⟨found, method', hfound, hmethod', howner', hmethodName'⟩
    -- the other method stands in the same class, and not behind the last one
    have hclass : other.owner = place.owner := hdistinct.unique ⟨found, hfound, howner'⟩ hnames
    rw [hclass, hentry] at hfound
    obtain rfl := Option.some.inj hfound
    have hle := hlast other.method method' hmethod' hmethodName'
    obtain ⟨file, index, position⟩ := place
    obtain ⟨file', index', position'⟩ := other
    simp only [MethodPlace.owner, ClassPlace.mk.injEq] at hclass
    simp only [MethodPlace.mk.injEq, MethodPlace.Before, ClassPlace.Before, MethodPlace.owner,
      ClassPlace.mk.injEq]
    dsimp only at hle
    omega

-- A recorded caller stands in the class that its receiver type names.
theorem Appends.names_receiver {place : MethodPlace} {usage : Usage}
    (happends : atlas.Appends place usage) (hmethod : dots usage.method = 0) :
    atlas.NamesFirst place.owner usage.receiver := by
  obtain ⟨-, -, -, hlast⟩ := mem_callersAt.mp ((atlas.appends_iff place usage).mp happends)
  have hfound := (atlas.methodTable_eq_some_iff place _).mpr hlast
  obtain ⟨hclass, -⟩ := (method?_eq_some_iff_class hdistinct hdotless hmethod _ place).mp hfound
  obtain ⟨hnames, -⟩ := (atlas.classTable_eq_some_iff _ _).mp hclass
  exact ⟨hnames, fun other hother => Or.inl (hdistinct.unique hother hnames)⟩

end Tables

theorem names_linkCalls (atlas : Atlas) (place : ClassPlace) (name : String) :
    atlas.linkCalls.1.Names place name ↔ atlas.Names place name := by
  simp only [Names, linkCalls_fst, mapMethods_eq_mapClasses, class?_mapClasses,
    Option.map_eq_some_iff]
  constructor
  · rintro ⟨_, ⟨entry, hentry, rfl⟩, hname⟩
    exact ⟨entry, hentry, hname⟩
  · rintro ⟨entry, hentry, hname⟩
    exact ⟨_, ⟨entry, hentry, rfl⟩, hname⟩

-- The three look-ups side by side. The search through the classes and the table of classes know
-- the same names, and answer with the first and the last class of a name. Where class names are
-- distinct and method names have no dots, the table of methods answers with the last method of
-- the name in the class that the table of classes gives, so that each caller that linking records
-- stands in the class that the search finds for its receiver type.
theorem look_ups_agree (atlas : Atlas) :
    (∀ name, (atlas.firstClass? name).isSome ↔ (atlas.classTable[name]?).isSome) ∧
      (∀ name entry, atlas.firstClass? name = some entry ↔
        ∃ place, atlas.NamesFirst place name ∧ atlas.class? place = some entry) ∧
      (∀ name place, atlas.classTable[name]? = some place ↔ atlas.NamesLast place name) ∧
      (∀ name first last, atlas.NamesFirst first name → atlas.NamesLast last name →
        (first = last ↔ ∃! place, atlas.Names place name)) ∧
      (atlas.DistinctNames → atlas.DotlessMethods →
        (∀ owner name place, dots name = 0 →
          (atlas.methodTable.method? owner name = some place ↔
            atlas.classTable[owner]? = some place.owner ∧ atlas.LastOfName place name)) ∧
        ∀ place usage, atlas.Appends place usage → dots usage.method = 0 →
          ∃ entry linked, atlas.firstClass? usage.receiver = some entry ∧
            atlas.class? place.owner = some entry ∧
            atlas.linkCalls.1.firstClass? usage.receiver = some linked ∧
            atlas.linkCalls.1.class? place.owner = some linked) := by
  refine ⟨?_, atlas.firstClass?_eq_some_iff,
    fun name place => atlas.classTable_eq_some_iff place name,
    fun name first last hfirst hlast => hfirst.eq_last_iff hlast, ?_⟩
  · intro name
    rw [firstClass?_isSome_iff, classTable_isSome_iff]
  · intro hdistinct hdotless
    refine ⟨fun owner name place hname =>
      method?_eq_some_iff_class hdistinct hdotless hname owner place, ?_⟩
    intro place usage happends hmethod
    have hfirst := happends.names_receiver hdistinct hdotless hmethod
    have hlinked : atlas.linkCalls.1.NamesFirst place.owner usage.receiver := by
      simpa only [NamesFirst, names_linkCalls] using hfirst
    obtain ⟨entry, hentry, -⟩ := hfirst.1
    obtain ⟨linked, hfound, -⟩ := hlinked.1
    exact ⟨entry, linked, (atlas.firstClass?_eq_some_iff _ _).mpr ⟨_, hfirst, hentry⟩, hentry,
      (atlas.linkCalls.1.firstClass?_eq_some_iff _ _).mpr ⟨_, hlinked, hfound⟩, hfound⟩

-- A class `B`, and a class `A.B` that declares a method twice and calls it.
def dottedClass : Atlas :=
  ⟨[⟨"a.ts", [⟨"B", [], none, [⟨"m", none⟩], []⟩,
    ⟨"A.B", [], none, [⟨"m", none⟩, ⟨"m", none⟩], [⟨"A.B", "m", "A.B"⟩]⟩]⟩]⟩

theorem dottedClass_look_ups_agree :
    dottedClass.DistinctNames ∧ dottedClass.DotlessMethods ∧
      dottedClass.NamesFirst ⟨0, 1⟩ "A.B" ∧ dottedClass.NamesLast ⟨0, 1⟩ "A.B" ∧
      (∃! place, dottedClass.Names place "A.B") ∧
      dottedClass.methodTable.method? "A.B" "m" = some ⟨0, 1, 1⟩ ∧
      dottedClass.Appends ⟨0, 1, 1⟩ ⟨"A.B", "m", "A.B"⟩ ∧
      ∃ linked, dottedClass.linkCalls.1.firstClass? "A.B" = some linked ∧
        dottedClass.linkCalls.1.class? ⟨0, 1⟩ = some linked := by
  have hdistinct : dottedClass.DistinctNames := by decide
  have hdotless : dottedClass.DotlessMethods := by decide
  have hnames : dottedClass.Names ⟨0, 1⟩ "A.B" := ⟨_, rfl, rfl⟩
  have honly (other : ClassPlace) (hother : dottedClass.Names other "A.B") : other = ⟨0, 1⟩ :=
    hdistinct.unique hother hnames
  have hfirst : dottedClass.NamesFirst ⟨0, 1⟩ "A.B" := ⟨hnames, fun other h => .inl (honly other h)⟩
  have hlast : dottedClass.NamesLast ⟨0, 1⟩ "A.B" := ⟨hnames, fun other h => .inl (honly other h)⟩
  have hmethod : dottedClass.LastOfName ⟨0, 1, 1⟩ "m" := by
    refine ⟨_, rfl, ⟨_, rfl, rfl⟩, ?_⟩
    intro position method hposition _
    obtain ⟨hlt, -⟩ := List.getElem?_eq_some_iff.mp hposition
    exact Nat.le_of_lt_succ hlt
  obtain ⟨-, -, htable, honce, hagree⟩ := look_ups_agree dottedClass
  obtain ⟨hmethods, hcallers⟩ := hagree hdistinct hdotless
  have hfound := (hmethods "A.B" "m" ⟨0, 1, 1⟩ (by decide)).mpr ⟨(htable _ _).mpr hlast, hmethod⟩
  have happends : dottedClass.Appends ⟨0, 1, 1⟩ ⟨"A.B", "m", "A.B"⟩ := by
    have husage : ⟨"A.B", "m", "A.B"⟩ ∈ dottedClass.usages := by decide
    have hreach := (dottedClass.methodTable_eq_some_iff _ _).mp hfound
    exact (dottedClass.appends_iff _ _).mpr
      (mem_callersAt.mpr ⟨husage, by decide, by decide, hreach⟩)
  obtain ⟨-, linked, -, -, hlinked⟩ := hcallers _ _ happends (by decide)
  exact ⟨hdistinct, hdotless, hfirst, hlast, (honce _ _ _ hfirst hlast).mp rfl, hfound, happends,
    linked, hlinked⟩

end Atlas

end ClassAtlas
