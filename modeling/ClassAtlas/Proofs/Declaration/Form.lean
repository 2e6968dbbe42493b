import ClassAtlas.Proofs.Ownership

namespace ClassAtlas

-- A step from a node of some kind down to one of its children, which stands in a field if the
-- step names one.
structure Step where
  kind : String
  field : Option String
  deriving DecidableEq

-- A way down from a node that follows steps one by one.
inductive Leads : List Step → Node → Path → Node → Prop
  | here (node : Node) : Leads [] node [] node
  | down {step : Step} {route : List Step} {top child node : Node} {index : Nat} {way : Path}
      (htop : top.IsKind step.kind) (hchild : top.children[index]? = some child)
      (hfield : ∀ name ∈ step.field, child.field = some name)
      (hrest : Leads route child way node) :
      Leads (step :: route) top (index :: way) node

namespace Leads

variable {route : List Step} {top node : Node} {way : Path}

theorem at?_eq (h : Leads route top way node) : top.at? way = some node := by
  induction h with
  | here node => rfl
  | down _ hchild _ _ ih => exact Node.at?_cons_eq_some_iff.mpr ⟨_, hchild, ih⟩

theorem length_eq (h : Leads route top way node) : way.length = route.length := by
  induction h with
  | here node => rfl
  | down _ _ _ _ ih => rw [List.length_cons, List.length_cons, ih]

-- Every node on the way, the last one apart, has the kind of the step that leaves it.
theorem on_way (h : Leads route top way node) {count : Nat} {step : Step}
    (hstep : route[count]? = some step) :
    ∃ between, top.at? (way.take count) = some between ∧ between.IsKind step.kind := by
  induction h generalizing count with
  | here node => simp at hstep
  | @down first route top child node index way htop hchild _ _ ih =>
      cases count with
      | zero =>
          obtain rfl : first = step := by simpa using hstep
          exact ⟨top, rfl, htop⟩
      | succ count =>
          obtain ⟨between, hbetween, hkind⟩ := ih (by simpa using hstep)
          exact ⟨between, Node.at?_cons_eq_some_iff.mpr ⟨child, hchild, hbetween⟩, hkind⟩

end Leads

-- How declarations of one sort are written: where they stand, of what kind they are, and of
-- what kind their name is. Without a kind any named node that is no error is a name.
structure DeclForm where
  route : List Step
  kind : String
  nameKind : Option String
  deriving DecidableEq

namespace DeclForm

def parentKind? (form : DeclForm) : Option String :=
  form.route.getLast?.map (·.kind)

def StandsAt (form : DeclForm) (root : Node) (above way : Path) (node : Node) : Prop :=
  ∃ top, root.at? above = some top ∧ Leads form.route top way node ∧ node.IsKind form.kind

def Names (form : DeclForm) (node name : Node) : Prop :=
  node.HasChild "name" name ∧ name.named = true ∧
    match form.nameKind with
    | some kind => name.kind = kind
    | none => name.kind ≠ "ERROR"

def DeclaresAt (form : DeclForm) (root : Node) (place : Path) (node name : Node) : Prop :=
  ∃ above way, place = above ++ way ∧ form.StandsAt root above way node ∧ form.Names node name

def Declared (forms : List DeclForm) (root : Node) (place : Path) (node name : Node) : Prop :=
  ∃ form ∈ forms, form.DeclaresAt root place node name

-- Forms that cannot be taken for each other: two forms for nodes of one kind ask for different
-- parents, and no way to a declaration leads through another one.
def Separate (forms : List DeclForm) : Prop :=
  forms.Nodup ∧
    (∀ form ∈ forms, ∀ other ∈ forms, form.kind = other.kind → form = other ∨
      form.parentKind?.isSome ∧ other.parentKind?.isSome ∧
        form.parentKind? ≠ other.parentKind?) ∧
    ∀ form ∈ forms, ∀ step ∈ form.route, ∀ other ∈ forms, step.kind ≠ other.kind

instance (forms : List DeclForm) : Decidable (Separate forms) :=
  inferInstanceAs (Decidable (_ ∧ _ ∧ _))

variable {root node other name : Node} {form form' : DeclForm} {forms : List DeclForm}
  {above above' way way' : Path}

theorem StandsAt.at?_eq (h : form.StandsAt root above way node) :
    root.at? (above ++ way) = some node := by
  obtain ⟨top, htop, hleads, -⟩ := h
  rw [Node.at?_append, htop, Option.bind_some, hleads.at?_eq]

theorem DeclaresAt.at?_eq {place : Path} (h : form.DeclaresAt root place node name) :
    root.at? place = some node := by
  obtain ⟨above, way, rfl, hstands, -⟩ := h
  exact hstands.at?_eq

theorem StandsAt.parent (h : form.StandsAt root above way node) {kind : String}
    (hkind : form.parentKind? = some kind) :
    ∃ parent, root.at? (above ++ way).dropLast = some parent ∧ parent.kind = kind := by
  obtain ⟨top, htop, hleads, -⟩ := h
  obtain ⟨step, hstep, rfl⟩ := Option.map_eq_some_iff.mp hkind
  rw [List.getLast?_eq_getElem?] at hstep
  obtain ⟨parent, hparent, hkind⟩ := hleads.on_way hstep
  have hway : way ≠ [] := by
    rintro rfl
    simp [List.length_eq_zero_iff.mp hleads.length_eq.symm] at hstep
  rw [← hleads.length_eq, ← List.dropLast_eq_take] at hparent
  refine ⟨parent, ?_, hkind.2⟩
  rw [List.dropLast_append_of_ne_nil hway, Node.at?_append, htop, Option.bind_some, hparent]

-- A place tells by which form a declaration stands there, and where its way starts.
theorem Separate.unique (hforms : Separate forms) (hform : form ∈ forms) (hform' : form' ∈ forms)
    (h : form.StandsAt root above way node) (h' : form'.StandsAt root above' way' other)
    (hplace : above ++ way = above' ++ way') : form = form' ∧ above = above' := by
  have hnode : node = other := Option.some.inj (h.at?_eq.symm.trans (hplace ▸ h'.at?_eq))
  have hsame : form = form' := by
    obtain ⟨-, -, -, -, hkind⟩ := id h
    obtain ⟨-, -, -, -, hkind'⟩ := id h'
    obtain hsame | ⟨hsome, hsome', hne⟩ :=
      hforms.2.1 form hform form' hform' (by rw [← hkind, ← hkind', hnode])
    · exact hsame
    · -- the two forms would ask for different parents of one node
      obtain ⟨kind, hparent⟩ := Option.isSome_iff_exists.mp hsome
      obtain ⟨kind', hparent'⟩ := Option.isSome_iff_exists.mp hsome'
      obtain ⟨parent, hat, rfl⟩ := h.parent hparent
      obtain ⟨parent', hat', rfl⟩ := h'.parent hparent'
      rw [hplace, hat'] at hat
      obtain rfl := Option.some.inj hat
      exact absurd (hparent.trans hparent'.symm) hne
  subst hsame
  obtain ⟨_, -, hleads, -⟩ := h
  obtain ⟨_, -, hleads', -⟩ := h'
  have hlength : way.length = way'.length := by rw [hleads.length_eq, hleads'.length_eq]
  exact ⟨rfl, (List.append_inj' hplace hlength).1⟩

-- Where one declaration stands below another one, its way starts below that one, too.
theorem Separate.way_below (hforms : Separate forms) (hform : form ∈ forms)
    (hform' : form' ∈ forms) (h : form.StandsAt root above way node)
    (h' : form'.StandsAt root above' way' other) (hbelow : above' ++ way' <+: above ++ way)
    (hne : above' ++ way' ≠ above ++ way) : above' ++ way' <+: above ∧ above' ++ way' ≠ above := by
  have houter := h'.at?_eq
  obtain ⟨-, -, -, -, hkind⟩ := h'
  obtain ⟨top, htop, hleads, -⟩ := h
  -- the outer declaration does not stand on the way
  have hoff : ¬ above <+: above' ++ way' := by
    rintro ⟨rest, heq⟩
    rw [← heq] at hbelow hne houter
    have hrest : rest <+: way := (List.prefix_append_right_inj above).mp hbelow
    have hlt : rest.length < form.route.length := by
      rw [← hleads.length_eq]
      refine Nat.lt_of_le_of_ne hrest.length_le fun hlength => hne ?_
      rw [hrest.eq_of_length hlength]
    obtain ⟨between, hat, hstep⟩ := hleads.on_way (List.getElem?_eq_getElem hlt)
    rw [← List.prefix_iff_eq_take.mp hrest] at hat
    rw [Node.at?_append, htop, Option.bind_some, hat] at houter
    obtain rfl := Option.some.inj houter
    exact hforms.2.2 form hform _ (List.getElem_mem hlt) form' hform' (hstep.2.symm.trans hkind)
  refine ⟨?_, fun heq => hoff (heq ▸ List.prefix_refl _)⟩
  exact (List.prefix_or_prefix_of_prefix hbelow (List.prefix_append above way)).resolve_right hoff

end DeclForm

namespace Language

def classForms (language : Language) : List DeclForm :=
  language.classKinds.map fun kind => ⟨[], kind, some language.classNameKind⟩

-- Methods are members of a class or an interface. Where a method cannot stand anywhere else,
-- its place does not matter.
def methodForms : Language → List DeclForm
  | typescript | tsx => [
      ⟨[⟨"class_body", none⟩], "method_definition", none⟩,
      ⟨[⟨"class_body", none⟩], "abstract_method_signature", none⟩,
      ⟨[⟨"interface_body", none⟩], "method_signature", none⟩]
  | javascript => [⟨[⟨"class_body", none⟩], "method_definition", none⟩]
  | csharp | java => [⟨[], "method_declaration", some "identifier"⟩]
  | python => [
      ⟨[⟨"class_definition", some "body"⟩, ⟨"block", none⟩], "function_definition",
        some "identifier"⟩,
      ⟨[⟨"class_definition", some "body"⟩, ⟨"block", none⟩,
        ⟨"decorated_definition", some "definition"⟩], "function_definition",
        some "identifier"⟩]

theorem classForms_separate (language : Language) : DeclForm.Separate language.classForms := by
  cases language <;> decide

theorem methodForms_separate (language : Language) : DeclForm.Separate language.methodForms := by
  cases language <;> decide

def ClassAt (language : Language) (document : Document) (place : Path) (node name : Node) :
    Prop :=
  DeclForm.Declared language.classForms document.root place node name

def MethodAt (language : Language) (document : Document) (place : Path) (node name : Node) :
    Prop :=
  DeclForm.Declared language.methodForms document.root place node name

end Language

end ClassAtlas
