import ClassAtlas.Proofs.Assembly
import ClassAtlas.Proofs.Declaration.Listing

namespace ClassAtlas

namespace Language

-- The nodes between a class and the members of its body.
def memberRoutes : Language → List (List Step)
  | typescript | tsx => [[⟨"class_body", none⟩], [⟨"interface_body", none⟩]]
  | javascript => [[⟨"class_body", none⟩]]
  | csharp => [[⟨"declaration_list", none⟩]]
  | java => [
      [⟨"class_body", none⟩],
      [⟨"interface_body", none⟩],
      [⟨"enum_body", none⟩, ⟨"enum_body_declarations", none⟩]]
  | python => [[⟨"block", none⟩], [⟨"block", none⟩, ⟨"decorated_definition", some "definition"⟩]]

theorem kind_not_mem_classKinds {language : Language} {route : List Step} {step : Step}
    (hroute : route ∈ language.memberRoutes) (hstep : step ∈ route) :
    step.kind ∉ language.classKinds := by
  have hkinds : ∀ route ∈ language.memberRoutes, ∀ step ∈ route,
      step.kind ∉ language.classKinds := by
    cases language <;> decide
  exact hkinds route hroute step hstep

-- A member of the body of a node, with nothing but that body in between.
def MemberOf (language : Language) (document : Document) (scope place : Path) : Prop :=
  ∃ index way body member, place = scope ++ index :: way ∧
    document.root.at? (scope ++ [index]) = some body ∧
    ∃ route ∈ language.memberRoutes, Leads route body way member

-- A class that is found, and that no class around it can be taken for.
def Recorded (language : Language) (document : Document) (place : Path) : Prop :=
  ∃ node, document.root.at? place = some node ∧ language.ClassNode document node ∧
    ∀ outer above, outer <+: place → outer ≠ place → document.root.at? outer = some above →
      language.ClassNode document above → above.span ≠ node.span

variable {language : Language} {document : Document}

theorem route_of_mem_classForms {form : DeclForm} (hform : form ∈ language.classForms) :
    form.route = [] ∧ form.kind ∈ language.classKinds := by
  obtain ⟨kind, hkind, rfl⟩ := List.mem_map.mp hform
  exact ⟨rfl, hkind⟩

theorem ClassAt.at?_eq {place : Path} {node name : Node}
    (hclass : language.ClassAt document place node name) :
    document.root.at? place = some node := by
  obtain ⟨form, -, hdeclares⟩ := hclass
  exact hdeclares.at?_eq

theorem MethodAt.at?_eq {place : Path} {node name : Node}
    (hmethod : language.MethodAt document place node name) :
    document.root.at? place = some node := by
  obtain ⟨form, -, hdeclares⟩ := hmethod
  exact hdeclares.at?_eq

theorem ClassAt.kind_mem {place : Path} {node name : Node}
    (hclass : language.ClassAt document place node name) : node.kind ∈ language.classKinds := by
  obtain ⟨form, hform, above, way, -, ⟨top, -, -, hkind⟩, -⟩ := hclass
  rw [hkind.2]
  exact (route_of_mem_classForms hform).2

-- The nodes that queries for classes match are those that declare a class.
theorem classNode_iff_classAt {place : Path} {node : Node}
    (hnode : document.root.at? place = some node) :
    language.ClassNode document node ↔ ∃ name, language.ClassAt document place node name := by
  rw [ClassNode, query_classes_eq_forms, ← DeclForm.shownBelow_map_snd, Ne, List.map_eq_nil_iff]
  constructor
  · intro hne
    obtain ⟨⟨way, found⟩, hshown⟩ := List.exists_mem_of_ne_nil _ hne
    obtain ⟨form, target, name, hindex, hleads, hkind, hnames, -⟩ :=
      DeclForm.mem_shownBelow.mp hshown
    have hform := List.mem_of_getElem? hindex
    have hstands : Leads form.route node [] node := by
      rw [(route_of_mem_classForms hform).1]
      exact .here node
    rw [(route_of_mem_classForms hform).1] at hleads
    cases hleads
    exact ⟨name, form, hform, place, [], (List.append_nil place).symm,
      ⟨node, hnode, hstands, hkind⟩, hnames⟩
  · rintro ⟨name, form, hform, above, way, rfl, ⟨top, htop, hleads, hkind⟩, hnames⟩
    obtain ⟨index, hindex⟩ := List.getElem?_of_mem hform
    have hway : way = [] := by
      have hlength := hleads.length_eq
      rw [(route_of_mem_classForms hform).1] at hlength
      exact List.length_eq_zero_iff.mp hlength
    subst hway
    rw [List.append_nil] at hnode
    obtain rfl := Option.some.inj (hnode.symm.trans htop)
    have hshown : ([], ⟨index, [("class.definition", node), ("class.name", name)]⟩) ∈
        DeclForm.shownBelow "class.definition" "class.name" language.classForms node :=
      DeclForm.mem_shownBelow.mpr ⟨form, node, name, hindex, hleads, hkind, hnames, rfl⟩
    exact List.ne_nil_of_mem hshown

theorem MemberOf.below {scope place : Path} (hmember : language.MemberOf document scope place) :
    scope <+: place ∧ scope ≠ place := by
  obtain ⟨index, way, -, -, rfl, -⟩ := hmember
  exact ⟨List.prefix_append _ _, by simp⟩

theorem MemberOf.no_class_between {scope place between : Path} {other : Node}
    (hmember : language.MemberOf document scope place) (houter : scope <+: between)
    (hne : scope ≠ between) (hinner : between <+: place) (hne' : between ≠ place)
    (hother : document.root.at? between = some other) : ¬ language.ClassNode document other := by
  intro hotherClass
  obtain ⟨index, way, body, member, rfl, hbody, route, hroute, hleads⟩ := hmember
  obtain ⟨rest, rfl⟩ := houter
  have hrest : rest <+: index :: way := (List.prefix_append_right_inj scope).mp hinner
  cases rest with
  | nil => simp at hne
  | cons first front =>
      obtain ⟨rfl, hfront⟩ := List.cons_prefix_cons.mp hrest
      have hlt : front.length < route.length := by
        rw [← hleads.length_eq]
        refine Nat.lt_of_le_of_ne hfront.length_le fun hlength => hne' ?_
        rw [hfront.eq_of_length hlength]
      obtain ⟨inner, hat, hkind⟩ := hleads.on_way (List.getElem?_eq_getElem hlt)
      rw [← List.prefix_iff_eq_take.mp hfront] at hat
      have hsame : document.root.at? (scope ++ first :: front) = some inner := by
        rw [List.append_cons, Node.at?_append, hbody, Option.bind_some, hat]
      obtain rfl := Option.some.inj (hother.symm.trans hsame)
      obtain ⟨name, hclassAt⟩ := (classNode_iff_classAt hother).mp hotherClass
      apply kind_not_mem_classKinds hroute (List.getElem_mem hlt)
      rw [← hkind.2]
      exact hclassAt.kind_mem

theorem MemberOf.nearestClass {scope place : Path} {node : Node}
    (hmember : language.MemberOf document scope place)
    (hnode : document.root.at? scope = some node) (hclass : language.ClassNode document node) :
    language.NearestClass document place node :=
  ⟨scope, hmember.below.1, hmember.below.2, hnode, hclass, fun _ _ => hmember.no_class_between⟩

theorem MemberOf.scope_unique {scope scope' place : Path} {node node' : Node}
    (hmember : language.MemberOf document scope place)
    (hmember' : language.MemberOf document scope' place)
    (hnode : document.root.at? scope = some node) (hclass : language.ClassNode document node)
    (hnode' : document.root.at? scope' = some node') (hclass' : language.ClassNode document node') :
    scope = scope' := by
  obtain ⟨hbelow, hne⟩ := hmember.below
  obtain ⟨hbelow', hne'⟩ := hmember'.below
  by_contra hother
  obtain hup | hdown := List.prefix_or_prefix_of_prefix hbelow hbelow'
  · exact hmember.no_class_between hup hother hbelow' hne' hnode' hclass'
  · exact hmember'.no_class_between hdown (Ne.symm hother) hbelow hne hnode hclass

-- A Python method stands in the body of a class in any case.
theorem MethodAt.exists_scope {place : Path} {node name : Node}
    (hmethod : python.MethodAt document place node name) :
    ∃ scope top, python.MemberOf document scope place ∧ document.root.at? scope = some top ∧
      top.IsKind "class_definition" := by
  obtain ⟨form, hform, above, way, rfl, ⟨top, htop, hleads, -⟩, -⟩ := hmethod
  have hroute : ∃ route ∈ python.memberRoutes,
      form.route = ⟨"class_definition", some "body"⟩ :: route := by
    have hforms : ∀ form ∈ python.methodForms, ∃ route ∈ python.memberRoutes,
        form.route = ⟨"class_definition", some "body"⟩ :: route := by decide
    exact hforms form hform
  obtain ⟨route, hroute, heq⟩ := hroute
  rw [heq] at hleads
  cases hleads with
  | @down _ _ _ child _ index way hkind hchild _ hrest =>
      refine ⟨above, top, ⟨index, way, child, node, rfl, ?_, route, hroute, hrest⟩, htop, hkind⟩
      rw [Node.at?_append, htop, Option.bind_some]
      exact Node.at?_cons_eq_some_iff.mpr ⟨child, hchild, rfl⟩

end Language

-- The places of the classes that are found, in the order of the tree.
structure ClassOrder (language : Language) (document : Document) (homes : List Path) : Prop where
  sorted : homes.Pairwise (· < ·)
  mem_iff : ∀ home, home ∈ homes ↔ ∃ node name, language.ClassAt document home node name
  listed : List.Forall₂ (fun home decl => ∃ node name, language.ClassAt document home node name ∧
      decl = ClassDecl.mk (document.text name) node.span)
    homes (Facts.gather (.builtIn language) document).classes

theorem exists_classOrder {language : Language} {document : Document}
    (hwf : document.root.WellFormed) (hone : DeclForm.OneName language.classForms document.root)
    (hwidth : ∀ place node name, language.ClassAt document place node name →
      node.span.start < node.span.stop) : ∃ homes, ClassOrder language document homes := by
  obtain ⟨-, homes, hsorted, hmem, hlisted⟩ := Language.classes_listedInOrder hwf hone hwidth
  exact ⟨homes, hsorted, hmem, hlisted⟩

namespace ClassOrder

variable {language : Language} {document : Document} {homes : List Path}
  (horder : ClassOrder language document homes) {offset owner : Nat} {home : Path}
  (howner : (Facts.gather (.builtIn language) document).owner? offset = some owner)
  (hhome : homes[owner]? = some home)

include horder hhome

theorem exists_decl :
    ∃ node name, document.root.at? home = some node ∧ language.ClassNode document node ∧
      (Facts.gather (.builtIn language) document).classes[owner]? =
        some ⟨document.text name, node.span⟩ := by
  obtain ⟨_, hdecl, node, name, hclass, rfl⟩ := Lists.forall₂_getElem? horder.listed hhome
  have hnode := hclass.at?_eq
  exact ⟨node, name, hnode, (Language.classNode_iff_classAt hnode).mpr ⟨name, hclass⟩, hdecl⟩

include howner

-- Of several classes with one span the outermost one owns what is inside.
theorem recorded : language.Recorded document home := by
  obtain ⟨node, name, hnode, hclass, hdecl⟩ := horder.exists_decl hhome
  refine ⟨node, hnode, hclass, ?_⟩
  intro outer above houter hne habove haboveClass hspan
  obtain ⟨aboveName, haboveAt⟩ := (Language.classNode_iff_classAt habove).mp haboveClass
  obtain ⟨j, hj⟩ := List.getElem?_of_mem ((horder.mem_iff outer).mpr ⟨above, aboveName, haboveAt⟩)
  obtain ⟨other, otherName, hother, -, hotherDecl⟩ := horder.exists_decl hj
  obtain rfl := Option.some.inj (habove.symm.trans hother)
  obtain ⟨span, hspanAt, hcontains, hfirst⟩ := Span.innermost?_spec howner
  rw [List.getElem?_map, hdecl] at hspanAt
  obtain rfl : node.span = span := Option.some.inj hspanAt
  have hle : owner ≤ j := by
    have hcompare := hfirst j above.span (by rw [List.getElem?_map, hotherDecl]; rfl)
      (by rw [hspan]; exact hcontains)
    rw [hspan] at hcompare
    omega
  have hlt : outer < home := Path.lt_of_isPrefix houter hne
  obtain ⟨howner', rfl⟩ := List.getElem?_eq_some_iff.mp hhome
  obtain ⟨hj', rfl⟩ := List.getElem?_eq_some_iff.mp hj
  rcases Nat.lt_or_eq_of_le hle with hbefore | rfl
  · exact lt_asymm hlt (List.pairwise_iff_getElem.mp horder.sorted owner j howner' hj' hbefore)
  · exact lt_irrefl _ hlt

-- What a class owns is a member of its body just if it is a member of some recorded class.
theorem memberOf_iff (hwf : document.root.WellFormed) {place : Path} {member : Node}
    (hmember : document.root.at? place = some member)
    (hwidth : member.span.start < member.span.stop)
    (hclear : language.ClearStart document member) (hoffset : offset = member.start) :
    home <+: place ∧ home ≠ place ∧
      (language.MemberOf document home place ↔
        ∃ scope, language.MemberOf document scope place ∧ language.Recorded document scope) := by
  subst hoffset
  obtain ⟨node, name, hnode, hclass, hdecl⟩ := horder.exists_decl hhome
  obtain ⟨decl, hdecl', hcontains⟩ := Facts.exists_decl_of_owner? howner
  obtain rfl := Option.some.inj (hdecl.symm.trans hdecl')
  obtain ⟨habove, hne⟩ :=
    (contains_start_iff_above hwf hmember hwidth hclear hnode hclass).mp hcontains
  refine ⟨habove, hne, ?_⟩
  constructor
  · intro hdirect
    exact ⟨home, hdirect, horder.recorded howner hhome⟩
  · rintro ⟨scope, hscope, top, htop, htopClass, houtermost⟩
    have hnearest := hscope.nearestClass htop htopClass
    obtain ⟨index, other, hindex, hother, hspan⟩ :=
      owner?_span_of_nearest hwf hmember hwidth hclear hnearest
    obtain rfl := Option.some.inj (howner.symm.trans hindex)
    obtain rfl := Option.some.inj (hdecl.symm.trans hother)
    -- the owner has the span of the nearest class, and it does not stand below that one
    have hbelow : home <+: scope := by
      obtain hup | hdown := List.prefix_or_prefix_of_prefix habove hscope.below.1
      · exact hup
      · by_cases hsame : scope = home
        · exact hsame ▸ List.prefix_refl _
        · exact absurd hclass (hscope.no_class_between hdown hsame habove hne hnode)
    by_contra hdirect
    refine houtermost home node hbelow ?_ hnode hclass hspan
    rintro rfl
    exact hdirect hscope

end ClassOrder

-- A recorded class owns the members of its body.
theorem ClassOrder.owner?_of_memberOf {language : Language} {document : Document}
    {homes : List Path} (horder : ClassOrder language document homes)
    (hwf : document.root.WellFormed) {place : Path} {member : Node}
    (hmember : document.root.at? place = some member)
    (hwidth : member.span.start < member.span.stop)
    (hclear : language.ClearStart document member) {owner : Nat} {home : Path}
    (hhome : homes[owner]? = some home) (hdirect : language.MemberOf document home place)
    (hrecorded : language.Recorded document home) :
    (Facts.gather (.builtIn language) document).owner? member.start = some owner := by
  obtain ⟨top, htop, htopClass, -⟩ := id hrecorded
  obtain ⟨index, decl, hindex, hdecl, -⟩ := owner?_span_of_nearest hwf hmember hwidth hclear
    (hdirect.nearestClass htop htopClass)
  have hlt : index < homes.length := by
    rw [horder.listed.length_eq]
    exact (List.getElem?_eq_some_iff.mp hdecl).1
  have hfound := List.getElem?_eq_getElem hlt
  obtain ⟨node, -, hnode, hclass, -⟩ := horder.exists_decl hfound
  obtain ⟨-, -, hiff⟩ := horder.memberOf_iff hindex hfound hwf hmember hwidth hclear rfl
  have hsame : homes[index] = home :=
    (hiff.mpr ⟨home, hdirect, hrecorded⟩).scope_unique hdirect hnode hclass htop htopClass
  have hnodup : homes.Nodup := horder.sorted.imp fun hbefore => ne_of_lt hbefore
  have howner : index = owner := by
    apply (List.getElem?_inj hlt hnodup).mp
    rw [hfound, hhome, hsame]
  rw [hindex, howner]

namespace Language

-- The methods that are listed for a class, in the order of the tree: the members of its body, and
-- besides them methods from inside it that are members of no recorded class.
def ListsMembers (language : Language) (document : Document) (home : Path)
    (methods : List MethodEntry) : Prop :=
  ∃ places : List Path, places.Pairwise (· < ·) ∧
    List.Forall₂ (fun place method => ∃ node name, language.MethodAt document place node name ∧
        method.name = document.text name ∧ home <+: place ∧ home ≠ place ∧
        (language.MemberOf document home place ↔
          ∃ scope, language.MemberOf document scope place ∧ language.Recorded document scope))
      places methods ∧
    (language.Recorded document home → ∀ place node name,
      language.MethodAt document place node name → language.MemberOf document home place →
        place ∈ places)

end Language

theorem ClassOrder.listsMembers {language : Language} {document : Document} {homes : List Path}
    (horder : ClassOrder language document homes) (hwf : document.root.WellFormed)
    (hone : DeclForm.OneName language.methodForms document.root)
    (hmethods : ∀ place node name, language.MethodAt document place node name →
      node.span.start < node.span.stop ∧ language.ClearStart document node)
    {owner : Nat} {home : Path} (hhome : homes[owner]? = some home) (decl : ClassDecl) :
    language.ListsMembers document home
      ((Facts.gather (.builtIn language) document).entryOf language owner decl).methods := by
  obtain ⟨-, places, hsorted, hmem, hlisted⟩ := Language.methods_listedInOrder hwf hone
    fun place node name hmethod => (hmethods place node name hmethod).1
  obtain ⟨kept, hkept, howned, hall⟩ := Lists.exists_forall₂_filter hlisted fun method =>
    (Facts.gather (.builtIn language) document).owner? method.span.start = some owner
  refine ⟨kept, hsorted.sublist hkept, List.forall₂_map_right_iff.mpr (howned.imp ?_), ?_⟩
  · rintro place _ ⟨⟨node, name, hmethod, rfl⟩, howner⟩
    obtain ⟨hwidth, hclear⟩ := hmethods place node name hmethod
    exact ⟨node, name, hmethod, rfl,
      horder.memberOf_iff (of_decide_eq_true howner) hhome hwf hmethod.at?_eq hwidth hclear rfl⟩
  · intro hrecorded place node name hmethod hdirect
    obtain ⟨hwidth, hclear⟩ := hmethods place node name hmethod
    obtain ⟨i, hi⟩ := List.getElem?_of_mem ((hmem place).mpr ⟨node, name, hmethod⟩)
    obtain ⟨_, hfact, node', name', hmethod', rfl⟩ := Lists.forall₂_getElem? hlisted hi
    obtain rfl := Option.some.inj (hmethod.at?_eq.symm.trans hmethod'.at?_eq)
    refine hall i place _ hi hfact (decide_eq_true ?_)
    exact horder.owner?_of_memberOf hwf hmethod.at?_eq hwidth hclear hhome hdirect hrecorded

-- The methods of a class stand inside it, and each one is a member of its body just if the class
-- that the method is a member of is recorded. In Python it is a member of a class in any case.
theorem listed_methods_are_members_iff {language : Language} {document : Document} (path : String)
    (hwf : document.root.WellFormed)
    (hone : DeclForm.OneName (language.classForms ++ language.methodForms) document.root)
    (hclasses : ∀ place node name, language.ClassAt document place node name →
      node.span.start < node.span.stop)
    (hmethods : ∀ place node name, language.MethodAt document place node name →
      node.span.start < node.span.stop ∧ language.ClearStart document node) :
    let file := (Extraction.ofDocument language (.builtIn language) path document).entry
    (∃ homes : List Path, homes.Pairwise (· < ·) ∧
        (∀ home, home ∈ homes ↔ ∃ node name, language.ClassAt document home node name) ∧
        List.Forall₂ (fun home entry => ∃ node name, language.ClassAt document home node name ∧
            entry.name = document.text name ∧ language.ListsMembers document home entry.methods)
          homes file.classes) ∧
      (language = .python → ∀ place node name, language.MethodAt document place node name →
        ∃ scope top, language.MemberOf document scope place ∧ document.root.at? scope = some top ∧
          top.IsKind "class_definition") := by
  intro file
  constructor
  · obtain ⟨homes, horder⟩ :=
      exists_classOrder hwf (hone.mono (List.subset_append_left _ _)) hclasses
    refine ⟨homes, horder.sorted, horder.mem_iff, ?_⟩
    change List.Forall₂ _ homes ((Facts.gather (.builtIn language) document).classEntries language)
    rw [Facts.classEntries_eq_mapIdx]
    apply Lists.forall₂_mapIdx_right horder.listed
    rintro owner home _ hhome - ⟨node, name, hclass, rfl⟩
    exact ⟨node, name, hclass, rfl, horder.listsMembers hwf
      (hone.mono (List.subset_append_right _ _)) hmethods hhome _⟩
  · rintro rfl place node name hmethod
    exact hmethod.exists_scope

theorem nestedClasses_methods_are_members :
    let file := (Extraction.ofDocument .python (.builtIn .python) "a.py" nestedClasses).entry
    nestedClasses.root.WellFormed ∧
      DeclForm.OneName (Language.python.classForms ++ Language.python.methodForms)
        nestedClasses.root ∧
      ∃ entry ∈ file.classes, entry.name = "B" ∧
        Language.python.ListsMembers nestedClasses [0, 3, 0] entry.methods := by
  intro file
  have hwf : nestedClasses.root.WellFormed := by decide
  have hone : DeclForm.OneName (Language.python.classForms ++ Language.python.methodForms)
      nestedClasses.root := by decide
  have hnodes : ∀ node ∈ nestedClasses.root.preorder, node.span.start < node.span.stop ∧
      (node.kind = "function_definition" → Language.python.ClearStart nestedClasses node) := by
    decide
  have hat {place : Path} {node : Node} (hnode : nestedClasses.root.at? place = some node) :=
    hnodes node (Node.mem_preorder.mpr ⟨place, hnode⟩)
  have hkind : ∀ form ∈ Language.python.methodForms, form.kind = "function_definition" := by decide
  obtain ⟨⟨homes, -, hmem, hlisted⟩, -⟩ := listed_methods_are_members_iff "a.py" hwf hone
    (fun place node name hclass => (hat hclass.at?_eq).1)
    (fun place node name hmethod => ⟨(hat hmethod.at?_eq).1, (hat hmethod.at?_eq).2 <| by
      obtain ⟨form, hform, _, _, -, ⟨_, -, -, hnode⟩, -⟩ := hmethod
      rw [hnode.2, hkind form hform]⟩)
  have hclass : Language.python.ClassAt nestedClasses [0, 3, 0] nestedClass
      (.branch "identifier" (some "name") 17 18 []) :=
    ⟨_, .head _, [0, 3, 0], [], rfl, ⟨nestedClass, rfl, .here _, rfl, rfl⟩,
      ⟨.tail _ (.head _), rfl⟩, rfl, rfl⟩
  obtain ⟨i, hi⟩ := List.getElem?_of_mem ((hmem _).mpr ⟨_, _, hclass⟩)
  obtain ⟨entry, hentry, node, name, hclass', hname, hmembers⟩ := Lists.forall₂_getElem? hlisted hi
  obtain ⟨-, rfl⟩ := hclass'.unique (hone.mono (List.subset_append_left _ _)) hclass
  have htext : nestedClasses.text (.branch "identifier" (some "name") 17 18 []) = "B" := by
    decide +kernel
  exact ⟨hwf, hone, entry, List.mem_of_getElem? hentry, hname.trans htext, hmembers⟩

-- A class `A` with a method `k`, and a class expression with a method `m` as the value of a field.
def innerMethod : Node :=
  .branch "method_definition" (some "member") 24 40 [
    .branch "property_identifier" (some "name") 24 25 [],
    .branch "formal_parameters" (some "parameters") 25 27 [.token "(" 25 26, .token ")" 26 27],
    .branch "statement_block" (some "body") 28 40 [
      .token "\x7b" 28 29,
      .branch "expression_statement" none 30 38 [
        .branch "call_expression" none 30 38 [
          .branch "member_expression" (some "function") 30 36 [
            .branch "this" (some "object") 30 34 [],
            .token "." 34 35,
            .branch "property_identifier" (some "property") 35 36 []],
          .branch "arguments" (some "arguments") 36 38 [.token "(" 36 37, .token ")" 37 38]]],
      .token "\x7d" 39 40]]

def innerClass : Node :=
  .branch "class" (some "value") 14 42 [
    .token "class" 14 19,
    .branch "identifier" (some "name") 20 21 [],
    .branch "class_body" (some "body") 22 42 [
      .token "\x7b" 22 23, innerMethod, .token "\x7d" 41 42]]

def outerMethod : Node :=
  .branch "method_definition" (some "member") 44 60 [
    .branch "property_identifier" (some "name") 44 45 [],
    .branch "formal_parameters" (some "parameters") 45 47 [.token "(" 45 46, .token ")" 46 47],
    .branch "statement_block" (some "body") 48 60 [
      .token "\x7b" 48 49,
      .branch "expression_statement" none 50 58 [
        .branch "call_expression" none 50 58 [
          .branch "member_expression" (some "function") 50 56 [
            .branch "this" (some "object") 50 54 [],
            .token "." 54 55,
            .branch "property_identifier" (some "property") 55 56 []],
          .branch "arguments" (some "arguments") 56 58 [.token "(" 56 57, .token ")" 57 58]]],
      .token "\x7d" 59 60]]

def classExpression : Document where
  source := "class A \x7b x = class B \x7b m() \x7b this.m() \x7d \x7d; k() \x7b this.k() \x7d \x7d"
  root := .branch "program" none 0 62 [
    .branch "class_declaration" none 0 62 [
      .token "class" 0 5,
      .branch "identifier" (some "name") 6 7 [],
      .branch "class_body" (some "body") 8 62 [
        .token "\x7b" 8 9,
        .branch "field_definition" (some "member") 10 42 [
          .branch "property_identifier" (some "property") 10 11 [],
          .token "=" 12 13,
          innerClass],
        .token ";" 42 43,
        outerMethod,
        .token "\x7d" 61 62]]]

theorem classExpression_method_is_no_member :
    let name : Node := .branch "property_identifier" (some "name") 24 25 []
    let file :=
      (Extraction.ofDocument .javascript (.builtIn .javascript) "f43.js" classExpression).entry
    classExpression.root.WellFormed ∧
      DeclForm.OneName (Language.javascript.classForms ++ Language.javascript.methodForms)
        classExpression.root ∧
      Language.javascript.MethodAt classExpression [0, 2, 1, 2, 2, 1] innerMethod name ∧
      classExpression.text name = "m" ∧
      Language.javascript.MemberOf classExpression [0, 2, 1, 2] [0, 2, 1, 2, 2, 1] ∧
      ¬ Language.javascript.MemberOf classExpression [0] [0, 2, 1, 2, 2, 1] ∧
      file.classes = [⟨"A", [], none, [⟨"m", none⟩, ⟨"k", none⟩],
        [⟨"A", "m", "A"⟩, ⟨"A", "k", "A"⟩]⟩] := by
  intro name file
  have hmethods : (RuleBook.builtIn .javascript).hits .methods classExpression =
      ((RuleBook.builtIn .javascript).unsorted .methods classExpression).reverse :=
    RuleBook.hits_of_perm (List.reverse_perm _).symm (by decide +kernel)
  have hcalls : (RuleBook.builtIn .javascript).hits .calls classExpression =
      (RuleBook.builtIn .javascript).unsorted .calls classExpression :=
    RuleBook.hits_of_sorted (by decide +kernel)
  have hclasses : file.classes = [⟨"A", [], none, [⟨"m", none⟩, ⟨"k", none⟩],
      [⟨"A", "m", "A"⟩, ⟨"A", "k", "A"⟩]⟩] := by
    change (Facts.gather (.builtIn .javascript) classExpression).classEntries _ = _
    rw [Facts.gather_eq, hmethods, hcalls]
    decide +kernel
  refine ⟨by decide, by decide, ?_, by decide +kernel, ?_, ?_, hclasses⟩
  · exact ⟨_, .head _, [0, 2, 1, 2, 2], [1], rfl,
      ⟨_, rfl, .down ⟨rfl, rfl⟩ rfl (by decide) (.here _), rfl, rfl⟩, ⟨.head _, rfl⟩, rfl,
      by decide⟩
  · exact ⟨2, [1], _, _, rfl, rfl, _, .head _, .down ⟨rfl, rfl⟩ rfl (by decide) (.here _)⟩
  · -- one step leads from the body to a member, and the method stands further below
    rintro ⟨index, way, body, member, hplace, -, route, hroute, hleads⟩
    obtain rfl : route = [⟨"class_body", none⟩] := List.mem_singleton.mp hroute
    have hlength := hleads.length_eq
    have hplaces := congrArg List.length hplace
    simp at hlength hplaces
    omega

end ClassAtlas
