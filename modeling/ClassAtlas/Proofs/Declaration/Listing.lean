import ClassAtlas.Proofs.Declaration.Fit

namespace ClassAtlas

namespace DeclForm

variable {whole part : String} {forms : List DeclForm} {document : Document}

-- What a match shows: a declaration at the place of the sighting, by a way from its root.
structure ShownBy (whole part : String) (forms : List DeclForm) (document : Document)
    (sighting : Sighting) (form : DeclForm) (way : Path) (node name : Node) : Prop where
  form_mem : form ∈ forms
  place_eq : sighting.place = sighting.root ++ way
  stands : form.StandsAt document.root sighting.root way node
  names : form.Names node name
  captures_eq : sighting.found.captures = [(whole, node), (part, name)]

theorem ShownBy.declared {sighting : Sighting} {form : DeclForm} {way : Path} {node name : Node}
    (h : ShownBy whole part forms document sighting form way node name) :
    Declared forms document.root sighting.place node name :=
  ⟨form, h.form_mem, sighting.root, way, h.place_eq, h.stands, h.names⟩

theorem exists_shownBy {sighting : Sighting}
    (h : sighting.SeenBy (shownBelow whole part forms) document) :
    ∃ form way node name, ShownBy whole part forms document sighting form way node name := by
  obtain ⟨root, way, hroot, hshown, hplace⟩ := h
  obtain ⟨form, node, name, hform, hleads, hkind, hnames, hcaptures⟩ := mem_shownBelow.mp hshown
  exact ⟨form, way, node, name, List.mem_of_getElem? hform, hplace, ⟨root, hroot, hleads, hkind⟩,
    hnames, hcaptures⟩

theorem exists_seenBy {place : Path} {node name : Node}
    (h : Declared forms document.root place node name) :
    ∃ sighting : Sighting, sighting.SeenBy (shownBelow whole part forms) document ∧
      sighting.place = place := by
  obtain ⟨form, hform, above, way, rfl, ⟨root, hroot, hleads, hkind⟩, hnames⟩ := h
  obtain ⟨index, hindex⟩ := List.getElem?_of_mem hform
  have hshown : (way, ⟨index, [(whole, node), (part, name)]⟩) ∈ shownBelow whole part forms root :=
    mem_shownBelow.mpr ⟨form, node, name, hindex, hleads, hkind, hnames, rfl⟩
  exact ⟨⟨above, above ++ way, _⟩, ⟨root, way, hroot, hshown, rfl⟩, rfl⟩

theorem ShownBy.span_eq (hwf : document.root.WellFormed) {sighting : Sighting} {form : DeclForm}
    {way : Path} {node name : Node}
    (h : ShownBy whole part forms document sighting form way node name) :
    sighting.found.span = node.span := by
  obtain ⟨-, -, hstands, ⟨⟨hname, -⟩, -⟩, hcaptures⟩ := h
  obtain ⟨root, place, ⟨rule, captures⟩⟩ := sighting
  dsimp only at hcaptures
  subst hcaptures
  refine Match.span_eq_of_inside rule whole node _ ?_
  rw [List.forall_mem_singleton]
  exact (hwf.below hstands.at?_eq).nested.1 name hname

-- The order of the matches is that of the declarations in the tree. Where one of them encloses
-- the other the spans may not tell, but then the inner one is seen from further below.
theorem place_lt (hforms : Separate forms) (hwf : document.root.WellFormed) {a b : Sighting}
    {form form' : DeclForm} {way way' : Path} {node node' name name' : Node}
    (ha : ShownBy whole part forms document a form way node name)
    (hb : ShownBy whole part forms document b form' way' node' name')
    (hwidth : node'.span.start < node'.span.stop)
    (hapart : a.root = b.root → a.place ≠ b.place) (hbefore : a.found.before b.found = true)
    (htie : b.found.before a.found = true → a.root ≤ b.root) : a.place < b.place := by
  have hspans := ha.span_eq hwf
  have hspans' := hb.span_eq hwf
  obtain ⟨hform, hplace, hstands, -⟩ := ha
  obtain ⟨hform', hplace', hstands', -⟩ := hb
  rw [Match.before_iff, hspans, hspans'] at hbefore htie
  have hne : b.place ≠ a.place := by
    intro heq
    have hroots := hforms.unique hform hform' hstands hstands' (by rw [← hplace, ← hplace', heq])
    exact hapart hroots.2 heq.symm
  by_contra hnot
  have hlt : b.place < a.place := lt_of_le_of_ne (not_lt.mp hnot) hne
  rw [hplace, hplace'] at hlt hne
  by_cases habove : b.root ++ way' <+: a.root ++ way
  · obtain ⟨hbelow, hbelow'⟩ := hforms.way_below hform hform' hstands hstands' habove hne
    have hinside : node.span.Inside node'.span := by
      obtain ⟨rest, hrest⟩ := habove
      have hnode := hstands.at?_eq
      rw [← hrest, Node.at?_append, hstands'.at?_eq, Option.bind_some] at hnode
      exact (hwf.below hstands'.at?_eq).inside hnode
    have hroots : b.root < a.root := calc
      b.root ≤ b.root ++ way' := Path.le_of_isPrefix (List.prefix_append b.root way')
      _ < a.root := Path.lt_of_isPrefix hbelow hbelow'
    obtain ⟨hstart, hstop⟩ := hinside
    exact hroots.not_ge (htie (by omega))
  · have hstop := hwf.stop_le_start hstands'.at?_eq hstands.at?_eq hlt habove
    omega

-- A query for declarations finds each of them once, in the order of the tree.
theorem exists_order (hforms : Separate forms) (hwf : document.root.WellFormed)
    (hone : OneName forms document.root)
    (hwidth : ∀ place node name, Declared forms document.root place node name →
      node.span.start < node.span.stop) :
    ∃ order : List Path, order.Pairwise (· < ·) ∧
      (∀ place, place ∈ order ↔ ∃ node name, Declared forms document.root place node name) ∧
      List.Forall₂ (fun place found => ∃ node name, Declared forms document.root place node name ∧
        found.captures = [(whole, node), (part, name)])
        order ((query whole part forms).run document) := by
  obtain ⟨order, hrun, hmem, hsorted⟩ := Sighting.exists_order
    (@shownBelow_map_snd whole part forms document)
    fun path root hroot => shownBelow_distinct hforms (hone.below hroot)
  refine ⟨order.map (·.place), ?_, ?_, ?_⟩
  · refine List.pairwise_map.mpr (hsorted.imp_of_mem ?_)
    rintro a b ha hb ⟨hapart, hbefore, htie⟩
    obtain ⟨form, way, node, name, hshown⟩ := exists_shownBy ((hmem a).mp ha)
    obtain ⟨form', way', node', name', hshown'⟩ := exists_shownBy ((hmem b).mp hb)
    have hwide := hwidth b.place node' name' hshown'.declared
    exact place_lt hforms hwf hshown hshown' hwide hapart hbefore htie
  · intro place
    rw [List.mem_map]
    constructor
    · rintro ⟨sighting, hsighting, rfl⟩
      obtain ⟨form, way, node, name, hshown⟩ := exists_shownBy ((hmem sighting).mp hsighting)
      exact ⟨node, name, hshown.declared⟩
    · rintro ⟨node, name, hdeclared⟩
      obtain ⟨sighting, hseen, hplace⟩ := exists_seenBy hdeclared
      exact ⟨sighting, (hmem sighting).mpr hseen, hplace⟩
  · rw [← hrun, List.forall₂_map_left_iff, List.forall₂_map_right_iff, List.forall₂_same]
    intro sighting hsighting
    obtain ⟨form, way, node, name, hshown⟩ := exists_shownBy ((hmem sighting).mp hsighting)
    exact ⟨node, name, hshown.declared, hshown.captures_eq⟩

end DeclForm

-- Facts that tell about declarations, about each one once and in the order of the tree.
def ListedInOrder {α : Type} (declared : Path → Node → Node → Prop) (tell : Node → Node → α)
    (facts : List α) : Prop :=
  (∀ place node node' name name', declared place node name → declared place node' name' →
    node = node' ∧ name = name') ∧
  ∃ order : List Path, order.Pairwise (· < ·) ∧
    (∀ place, place ∈ order ↔ ∃ node name, declared place node name) ∧
    List.Forall₂ (fun place fact => ∃ node name, declared place node name ∧ fact = tell node name)
      order facts

theorem DeclForm.listedInOrder {α : Type} {forms : List DeclForm} (hforms : Separate forms)
    {document : Document} (hwf : document.root.WellFormed)
    (hone : OneName forms document.root)
    (hwidth : ∀ place node name, Declared forms document.root place node name →
      node.span.start < node.span.stop)
    {whole part : String} {ofMatch : Match → α} {tell : Node → Node → α}
    (htell : ∀ found node name, found.captures = [(whole, node), (part, name)] →
      ofMatch found = tell node name) :
    ListedInOrder (Declared forms document.root) tell
      (((query whole part forms).run document).map ofMatch) := by
  obtain ⟨order, hsorted, hmem, hfound⟩ := exists_order hforms hwf hone hwidth
  refine ⟨fun place node node' name name' h h' => h.unique hone h', order, hsorted, hmem, ?_⟩
  refine List.forall₂_map_right_iff.mpr (hfound.imp ?_)
  rintro place found ⟨node, name, hdeclared, hcaptures⟩
  exact ⟨node, name, hdeclared, htell found node name hcaptures⟩

namespace Language

variable {language : Language} {document : Document} (hwf : document.root.WellFormed)

include hwf

theorem classes_listedInOrder (hone : DeclForm.OneName language.classForms document.root)
    (hwidth : ∀ place node name, language.ClassAt document place node name →
      node.span.start < node.span.stop) :
    ListedInOrder (language.ClassAt document)
      (fun node name => ClassDecl.mk (document.text name) node.span)
      (Facts.gather (.builtIn language) document).classes := by
  change ListedInOrder _ _
    (((language.query .classes).run document).map (ClassDecl.ofMatch document))
  rw [language.query_classes_eq_forms]
  refine DeclForm.listedInOrder language.classForms_separate hwf hone hwidth ?_
  intro found node name hcaptures
  simp [ClassDecl.ofMatch, Match.text, Match.first?, hcaptures]

theorem methods_listedInOrder (hone : DeclForm.OneName language.methodForms document.root)
    (hwidth : ∀ place node name, language.MethodAt document place node name →
      node.span.start < node.span.stop) :
    ListedInOrder (language.MethodAt document)
      (fun node name => MethodDecl.mk (document.text name) node.span)
      (Facts.gather (.builtIn language) document).methods := by
  change ListedInOrder _ _
    (((language.query .methods).run document).map (MethodDecl.ofMatch document))
  rw [language.query_methods_eq_forms]
  refine DeclForm.listedInOrder language.methodForms_separate hwf hone hwidth ?_
  intro found node name hcaptures
  simp [MethodDecl.ofMatch, Match.text, Match.first?, hcaptures]

end Language

-- Classes and methods of a document are found once each, in the order of the tree, with their
-- names and spans.
theorem classes_and_methods_listed_in_order {language : Language} {document : Document}
    (hwf : document.root.WellFormed)
    (hone : DeclForm.OneName (language.classForms ++ language.methodForms) document.root)
    (hclasses : ∀ place node name, language.ClassAt document place node name →
      node.span.start < node.span.stop)
    (hmethods : ∀ place node name, language.MethodAt document place node name →
      node.span.start < node.span.stop) :
    ListedInOrder (language.ClassAt document)
        (fun node name => ClassDecl.mk (document.text name) node.span)
        (Facts.gather (.builtIn language) document).classes ∧
      ListedInOrder (language.MethodAt document)
        (fun node name => MethodDecl.mk (document.text name) node.span)
        (Facts.gather (.builtIn language) document).methods := by
  have hclassNames := hone.mono (List.subset_append_left _ _)
  have hmethodNames := hone.mono (List.subset_append_right _ _)
  exact ⟨Language.classes_listedInOrder hwf hclassNames hclasses,
    Language.methods_listedInOrder hwf hmethodNames hmethods⟩

theorem nestedClasses_listed_in_order :
    nestedClasses.root.WellFormed ∧ nestedClasses.root.DistinctFields ∧
      DeclForm.OneName (Language.python.classForms ++ Language.python.methodForms)
        nestedClasses.root ∧
      Language.python.ClassAt nestedClasses [0, 3, 0] nestedClass
        (.branch "identifier" (some "name") 17 18 []) ∧
      Language.python.MethodAt nestedClasses [0, 3, 0, 3, 0] nestedMethod
        (.branch "identifier" (some "name") 28 29 []) ∧
      ListedInOrder (Language.python.ClassAt nestedClasses)
        (fun node name => ClassDecl.mk (nestedClasses.text name) node.span)
        (Facts.gather (.builtIn .python) nestedClasses).classes ∧
      ListedInOrder (Language.python.MethodAt nestedClasses)
        (fun node name => MethodDecl.mk (nestedClasses.text name) node.span)
        (Facts.gather (.builtIn .python) nestedClasses).methods := by
  have hwf : nestedClasses.root.WellFormed := by decide
  have hfields : nestedClasses.root.DistinctFields := by decide
  have hone : DeclForm.OneName (Language.python.classForms ++ Language.python.methodForms)
      nestedClasses.root := DeclForm.oneName_of_distinctFields hfields
  have hwidth : ∀ node ∈ nestedClasses.root.preorder, node.span.start < node.span.stop := by decide
  have hdeclared {forms : List DeclForm} (place : Path) (node name : Node)
      (h : DeclForm.Declared forms nestedClasses.root place node name) :
      node.span.start < node.span.stop := by
    obtain ⟨form, -, hdeclares⟩ := h
    exact hwidth node (Node.mem_preorder.mpr ⟨place, hdeclares.at?_eq⟩)
  refine ⟨hwf, hfields, hone, ?_, ?_,
    classes_and_methods_listed_in_order hwf hone hdeclared hdeclared⟩
  · exact ⟨_, .head _, [0, 3, 0], [], rfl, ⟨nestedClass, rfl, .here _, rfl, rfl⟩,
      ⟨.tail _ (.head _), rfl⟩, rfl, rfl⟩
  · -- the method is seen from the class around it, two steps above
    refine ⟨_, .head _, [0, 3, 0], [3, 0], rfl, ⟨nestedClass, rfl, ?_, rfl, rfl⟩,
      ⟨.tail _ (.head _), rfl⟩, rfl, rfl⟩
    exact .down ⟨rfl, rfl⟩ rfl (by decide) (.down ⟨rfl, rfl⟩ rfl (by decide) (.here _))

end ClassAtlas
