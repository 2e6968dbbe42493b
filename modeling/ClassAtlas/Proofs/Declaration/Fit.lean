import ClassAtlas.Proofs.Declaration.Form

namespace ClassAtlas

open Catalog Pattern

namespace Step

def allows (step : Step) (child : Node) : Bool :=
  step.field.all fun name => child.field = some name

theorem allows_iff {step : Step} {child : Node} :
    step.allows child = true ↔ ∀ name ∈ step.field, child.field = some name := by
  simp [allows, Option.all_eq_true]

-- A step as a pattern: a node of its kind with a child that fits another pattern, in the field
-- of the step.
def childPattern (step : Step) (inner : Pattern) : Pattern :=
  match step.field with
  | some name => Pattern.field name inner
  | none => inner

def pattern (step : Step) (inner : Pattern) : Pattern :=
  Catalog.kind step.kind [step.childPattern inner]

theorem fits_childPattern (step : Step) (inner : Pattern) (child : Node) :
    fits (step.childPattern inner) child = if step.allows child then fits inner child else [] := by
  unfold childPattern allows
  cases step.field <;> simp [fits]

theorem isOptional_childPattern (step : Step) {inner : Pattern}
    (hinner : inner.isOptional = false) : (step.childPattern inner).isOptional = false := by
  unfold childPattern
  cases step.field
  · exact hinner
  · exact isOptional_field ..

-- What can be found below the children that a step leads to, with the number of the child put
-- in front of the way.
def descend (step : Step) (below : Node → List (Path × List Capture)) (top : Node) :
    List (Path × List Capture) :=
  if (NodeTest.kind step.kind).accepts top then
    top.children.zipIdx.flatMap fun (child, index) =>
      if step.allows child then (below child).map fun item => (index :: item.1, item.2) else []
  else []

variable {step : Step} {below : Node → List (Path × List Capture)} {top : Node}

theorem descend_map_snd {inner : Pattern} (hinner : inner.isOptional = false)
    (hbelow : ∀ node, (below node).map (·.2) = fits inner node) :
    (step.descend below top).map (·.2) = fits (step.pattern inner) top := by
  have hchild (child : Node) (index : Nat) :
      (if step.allows child then (below child).map fun item => (index :: item.1, item.2)
        else []).map (·.2) = if step.allows child then fits inner child else [] := by
    split
    · simp only [List.map_map, Function.comp_def, ← hbelow]
    · rfl
  rw [descend, pattern, Catalog.kind, fits,
    fitsAmong_single _ (step.isOptional_childPattern hinner)]
  split
  · simp only [List.map_flatMap, hchild, fits_childPattern]
    exact Lists.zipIdx_flatMap_fst top.children fun child =>
      if step.allows child then fits inner child else []
  · rfl

theorem mem_descend {way : Path} {captures : List Capture} :
    (way, captures) ∈ step.descend below top ↔
      ∃ index child rest, top.IsKind step.kind ∧ top.children[index]? = some child ∧
        (∀ name ∈ step.field, child.field = some name) ∧ (rest, captures) ∈ below child ∧
        way = index :: rest := by
  have haccepts : (NodeTest.kind step.kind).accepts top = true ↔ top.IsKind step.kind := by
    simp [NodeTest.accepts, Node.IsKind]
  simp only [descend, List.mem_ite_nil_right, haccepts, List.mem_flatMap, Prod.exists,
    List.mem_zipIdx_iff_getElem?, allows_iff, List.mem_map, Prod.mk.injEq]
  constructor
  · rintro ⟨htop, child, index, hchild, hfield, rest, _, hbelow, rfl, rfl⟩
    exact ⟨index, child, rest, htop, hchild, hfield, hbelow, rfl⟩
  · rintro ⟨index, child, rest, htop, hchild, hfield, hbelow, rfl⟩
    exact ⟨htop, child, index, hchild, hfield, rest, captures, hbelow, rfl, rfl⟩

theorem descend_distinct
    (hbelow : ∀ child ∈ top.children, (below child).Pairwise (fun a b => a.1 ≠ b.1)) :
    (step.descend below top).Pairwise (fun a b => a.1 ≠ b.1) := by
  unfold descend
  split
  · refine List.pairwise_flatMap.mpr ⟨?_, ?_⟩
    · rintro ⟨child, index⟩ hmem
      dsimp only
      split
      · have hchild := hbelow child (List.fst_mem_of_mem_zipIdx hmem)
        refine List.pairwise_map.mpr (hchild.imp ?_)
        intro a b hne heq
        exact hne (List.cons.inj heq).2
      · exact List.Pairwise.nil
    · refine (Lists.zipIdx_pairwise _).imp ?_
      intro a b hlt x hx y hy heq
      obtain ⟨_, _, rfl⟩ := List.mem_map.mp (List.mem_ite_nil_right.mp hx).2
      obtain ⟨_, _, rfl⟩ := List.mem_map.mp (List.mem_ite_nil_right.mp hy).2
      exact Nat.ne_of_lt hlt (List.cons.inj heq).1
  · exact List.Pairwise.nil

end Step

namespace DeclForm

def namePattern (form : DeclForm) : Pattern :=
  match form.nameKind with
  | some kind => ofKind kind
  | none => anyNamed

def nodePattern (whole part : String) (form : DeclForm) : Pattern :=
  capture whole (Catalog.kind form.kind [field "name" (capture part form.namePattern)])

def pattern (whole part : String) (form : DeclForm) : Pattern :=
  form.route.foldr Step.pattern (form.nodePattern whole part)

def query (whole part : String) (forms : List DeclForm) : Query :=
  forms.map fun form => rule (form.pattern whole part)

variable {whole part : String} {form : DeclForm} {forms : List DeclForm} {document : Document}

theorem mem_fits_nodePattern {node : Node} {captures : List Capture} :
    captures ∈ fits (form.nodePattern whole part) node ↔
      ∃ name, node.IsKind form.kind ∧ form.Names node name ∧
        captures = [(whole, node), (part, name)] := by
  have hname {name : Node} {inner : List Capture} : inner ∈ fits form.namePattern name ↔
      (name.named = true ∧ match form.nameKind with
        | some kind => name.kind = kind
        | none => name.kind ≠ "ERROR") ∧ inner = [] := by
    unfold namePattern
    cases form.nameKind with
    | some kind => rw [mem_fits_ofKind]; rfl
    | none => simp [anyNamed, fits, fitsAmong, NodeTest.accepts]
  rw [nodePattern, Catalog.kind, mem_fits_capture]
  simp only [mem_fits_kind, mem_fitsAmong_single (isOptional_field ..), mem_fits_field,
    mem_fits_capture, hname]
  constructor
  · rintro ⟨_, ⟨hkind, name, hmem, hfield, _, ⟨⟨hnamed, hnameKind⟩, rfl⟩, rfl⟩, rfl⟩
    exact ⟨name, hkind, ⟨⟨hmem, hfield⟩, hnamed, hnameKind⟩, rfl⟩
  · rintro ⟨name, hkind, ⟨⟨hmem, hfield⟩, hnamed, hnameKind⟩, rfl⟩
    exact ⟨_, ⟨hkind, name, hmem, hfield, _, ⟨⟨hnamed, hnameKind⟩, rfl⟩, rfl⟩, rfl⟩

-- A node of the kind of a declaration has no two children in the field for names.
def OneName (forms : List DeclForm) (root : Node) : Prop :=
  ∀ node ∈ root.preorder, (∃ form ∈ forms, node.kind = form.kind) →
    node.children.Pairwise fun a b => a.field = some "name" → b.field ≠ some "name"

instance (forms : List DeclForm) (root : Node) : Decidable (OneName forms root) :=
  inferInstanceAs (Decidable (∀ node ∈ root.preorder, _ → List.Pairwise _ _))

theorem OneName.below {root node : Node} (hone : OneName forms root) {path : Path}
    (hnode : root.at? path = some node) : OneName forms node :=
  fun inner hinner => hone inner (Node.mem_preorder_of_at? hnode hinner)

theorem OneName.child {root child : Node} (hone : OneName forms root)
    (hchild : child ∈ root.children) : OneName forms child :=
  fun inner hinner => hone inner (Node.mem_preorder_of_child hchild hinner)

theorem OneName.mono {root : Node} {fewer : List DeclForm} (hone : OneName forms root)
    (hfewer : fewer ⊆ forms) : OneName fewer root :=
  fun node hnode ⟨form, hform, hkind⟩ => hone node hnode ⟨form, hfewer hform, hkind⟩

theorem oneName_of_distinctFields {root : Node} (hfields : root.DistinctFields) :
    OneName forms root := by
  intro node hnode _
  obtain ⟨path, hpath⟩ := Node.mem_preorder.mp hnode
  exact (hfields.below hpath).pairwise.imp fun hapart hfield => hapart "name" hfield

theorem Declared.unique {root node node' name name' : Node} (hone : OneName forms root)
    {place : Path} (h : Declared forms root place node name)
    (h' : Declared forms root place node' name') : node = node' ∧ name = name' := by
  obtain ⟨form, hform, hdeclares⟩ := h
  obtain ⟨form', -, hdeclares'⟩ := h'
  have hnode := hdeclares.at?_eq
  obtain rfl := Option.some.inj (hnode.symm.trans hdeclares'.at?_eq)
  obtain ⟨-, -, -, ⟨-, -, -, hkind⟩, hname, -⟩ := hdeclares
  obtain ⟨-, -, -, -, hname', -⟩ := hdeclares'
  have hapart := hone node (Node.mem_preorder.mpr ⟨place, hnode⟩) ⟨form, hform, hkind.2⟩
  exact ⟨rfl, hname.unique hname' hapart⟩

theorem fits_namePattern_length_le_one (form : DeclForm) (name : Node) :
    (fits form.namePattern name).length ≤ 1 := by
  unfold namePattern
  cases form.nameKind <;>
  · simp only [ofKind, anyNamed, fits, fitsAmong]
    split <;> simp

theorem nodePattern_length_le_one (form : DeclForm) (whole part : String) {node : Node}
    (hone : node.kind = form.kind →
      node.children.Pairwise fun a b => a.field = some "name" → b.field ≠ some "name") :
    (fits (form.nodePattern whole part) node).length ≤ 1 := by
  rw [nodePattern, fits, List.length_map, Catalog.kind, fits,
    fitsAmong_single _ (isOptional_field ..)]
  split
  · next haccepts =>
    have hkind : node.named = true ∧ node.kind = form.kind := by
      simpa [NodeTest.accepts] using haccepts
    refine Lists.flatMap_length_le_one ((hone hkind.2).imp ?_) ?_
    · intro a b hapart
      by_cases hfield : a.field = some "name"
      · exact Or.inr (by simp [fits, hapart hfield])
      · exact Or.inl (by simp [fits, hfield])
    · intro name _
      rw [fits, fits]
      split
      · rw [List.length_map]
        exact form.fits_namePattern_length_le_one name
      · exact Nat.zero_le 1
  · exact Nat.zero_le 1

-- The fits of a form below a node, each one with the way to the declaration.
def fitsBelow (whole part : String) (form : DeclForm) : Node → List (Path × List Capture) :=
  form.route.foldr Step.descend fun node =>
    (fits (form.nodePattern whole part) node).map fun captures => ([], captures)

theorem fitsBelow_map_snd (top : Node) :
    (form.fitsBelow whole part top).map (·.2) = fits (form.pattern whole part) top := by
  have hboth : (form.pattern whole part).isOptional = false ∧
      ∀ node, (form.fitsBelow whole part node).map (·.2) = fits (form.pattern whole part) node := by
    unfold fitsBelow pattern
    induction form.route with
    | nil =>
        refine ⟨rfl, fun node => ?_⟩
        simp only [List.foldr_nil, List.map_map]
        exact List.map_id _
    | cons step route ih => exact ⟨rfl, fun node => Step.descend_map_snd ih.1 ih.2⟩
  exact hboth.2 top

theorem mem_fitsBelow {top : Node} {way : Path} {captures : List Capture} :
    (way, captures) ∈ form.fitsBelow whole part top ↔
      ∃ node, Leads form.route top way node ∧
        captures ∈ fits (form.nodePattern whole part) node := by
  unfold fitsBelow
  induction form.route generalizing top way with
  | nil =>
      simp only [List.foldr_nil, List.mem_map, Prod.mk.injEq]
      constructor
      · rintro ⟨_, hfits, rfl, rfl⟩
        exact ⟨top, .here top, hfits⟩
      · rintro ⟨node, hleads, hfits⟩
        cases hleads
        exact ⟨captures, hfits, rfl, rfl⟩
  | cons step route ih =>
      simp only [List.foldr_cons, Step.mem_descend, ih]
      constructor
      · rintro ⟨index, child, rest, htop, hchild, hfield, ⟨node, hleads, hfits⟩, rfl⟩
        exact ⟨node, .down htop hchild hfield hleads, hfits⟩
      · rintro ⟨node, hleads, hfits⟩
        cases hleads with
        | down htop hchild hfield hrest =>
            exact ⟨_, _, _, htop, hchild, hfield, ⟨node, hrest, hfits⟩, rfl⟩

theorem fitsBelow_distinct (hform : form ∈ forms) {top : Node} (hone : OneName forms top) :
    (form.fitsBelow whole part top).Pairwise (fun a b => a.1 ≠ b.1) := by
  unfold fitsBelow
  induction form.route generalizing top with
  | nil =>
      have hlength := form.nodePattern_length_le_one whole part fun hkind =>
        hone top (Node.mem_preorder.mpr ⟨[], rfl⟩) ⟨form, hform, hkind⟩
      exact Lists.pairwise_of_length_le_one (by rwa [List.foldr_nil, List.length_map])
  | cons step route ih =>
      exact Step.descend_distinct fun child hchild => ih (hone.child hchild)

-- The matches with a given root, each one with the way to the declaration that it shows.
def shownBelow (whole part : String) (forms : List DeclForm) (root : Node) :
    List (Path × Match) :=
  forms.zipIdx.flatMap fun (form, index) =>
    (form.fitsBelow whole part root).map fun item => (item.1, ⟨index, item.2⟩)

theorem shownBelow_map_snd (root : Node) :
    (shownBelow whole part forms root).map (·.2) =
      (query whole part forms).matchesAt document root := by
  simp only [shownBelow, Query.matchesAt, query, List.zipIdx_map, List.flatMap_map,
    List.map_flatMap, List.map_map, Function.comp_def, rule, List.all_nil, List.filter_true,
    Prod.map, ← fitsBelow_map_snd, id]

theorem mem_shownBelow {root : Node} {way : Path} {found : Match} :
    (way, found) ∈ shownBelow whole part forms root ↔
      ∃ form node name, forms[found.rule]? = some form ∧ Leads form.route root way node ∧
        node.IsKind form.kind ∧ form.Names node name ∧
        found.captures = [(whole, node), (part, name)] := by
  simp only [shownBelow, List.mem_flatMap, Prod.exists, List.mem_zipIdx_iff_getElem?,
    List.mem_map, mem_fitsBelow, mem_fits_nodePattern, Prod.mk.injEq]
  constructor
  · rintro ⟨form, index, hform, _, captures, ⟨node, hleads, name, hkind, hnames, rfl⟩, rfl, rfl⟩
    exact ⟨form, node, name, hform, hleads, hkind, hnames, rfl⟩
  · rintro ⟨form, node, name, hform, hleads, hkind, hnames, hcaptures⟩
    exact ⟨form, found.rule, hform, way, found.captures,
      ⟨node, hleads, name, hkind, hnames, hcaptures⟩, rfl, rfl⟩

theorem shownBelow_distinct (hforms : Separate forms) {root : Node}
    (hone : OneName forms root) :
    (shownBelow whole part forms root).Pairwise (fun a b => a.1 ≠ b.1) := by
  refine List.pairwise_flatMap.mpr ⟨?_, ?_⟩
  · rintro ⟨form, index⟩ hmem
    exact List.pairwise_map.mpr (fitsBelow_distinct (List.fst_mem_of_mem_zipIdx hmem) hone)
  · have hnodup : (forms.zipIdx.map (·.1)).Pairwise (· ≠ ·) := by
      rw [List.zipIdx_map_fst]
      exact hforms.1
    refine (List.pairwise_map.mp hnodup).imp_of_mem ?_
    rintro ⟨form, index⟩ ⟨form', index'⟩ hmem hmem' hne x hx y hy heq
    obtain ⟨⟨way, captures⟩, hfits, rfl⟩ := List.mem_map.mp hx
    obtain ⟨⟨way', captures'⟩, hfits', rfl⟩ := List.mem_map.mp hy
    obtain ⟨node, hleads, hnode⟩ := mem_fitsBelow.mp hfits
    obtain ⟨node', hleads', hnode'⟩ := mem_fitsBelow.mp hfits'
    obtain ⟨_, hkind, -⟩ := mem_fits_nodePattern.mp hnode
    obtain ⟨_, hkind', -⟩ := mem_fits_nodePattern.mp hnode'
    have hstands : form.StandsAt root [] way node := ⟨root, rfl, hleads, hkind⟩
    have hstands' : form'.StandsAt root [] way' node' := ⟨root, rfl, hleads', hkind'⟩
    exact hne (hforms.unique (List.fst_mem_of_mem_zipIdx hmem)
      (List.fst_mem_of_mem_zipIdx hmem') hstands hstands' heq).1

end DeclForm

namespace Language

theorem query_classes_eq_forms (language : Language) :
    language.query .classes =
      DeclForm.query "class.definition" "class.name" language.classForms := by
  cases language <;> rfl

theorem query_methods_eq_forms (language : Language) :
    language.query .methods =
      DeclForm.query "method.definition" "method.name" language.methodForms := by
  cases language <;> rfl

end Language

end ClassAtlas
