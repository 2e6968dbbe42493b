import ClassAtlas.Language
import ClassAtlas.Proofs.Pattern.Fit
import ClassAtlas.Tree.Document

namespace ClassAtlas

-- How a member of an object is written: the object in one field, and in another field behind
-- it a name of some kind.
structure MemberForm where
  objectField : String
  namedObject : Bool
  nameField : String
  nameKinds : List String

def MemberForm.Names (form : MemberForm) (node object name : Node) : Prop :=
  [object, name].Sublist node.children ∧
    (object.field = some form.objectField ∧ object.kind ≠ "ERROR" ∧
      (form.namedObject = true → object.named = true)) ∧
    name.field = some form.nameField ∧ name.named = true ∧ name.kind ∈ form.nameKinds

theorem MemberForm.Names.hasName {form : MemberForm} {node object name : Node}
    (hnames : form.Names node object name) : node.HasChild form.nameField name :=
  ⟨hnames.1.subset (by simp), hnames.2.2.1⟩

theorem MemberForm.Names.hasObject {form : MemberForm} {node object name : Node}
    (hnames : form.Names node object name) : node.HasChild form.objectField object :=
  ⟨hnames.1.subset (by simp), hnames.2.1.1⟩

theorem MemberForm.Names.unique {form : MemberForm} {node object object' name name' : Node}
    (hfields : node.DistinctFields) (hnames : form.Names node object name)
    (hnames' : form.Names node object' name') : object = object' ∧ name = name' :=
  ⟨hfields.eq_of_hasChild hnames.hasObject hnames'.hasObject,
    hfields.eq_of_hasChild hnames.hasName hnames'.hasName⟩

-- How calls are written where the function of a call is a node of its own: an identifier, or
-- a node of some kind that names a member.
structure CallForm extends MemberForm where
  call : String
  member : String

inductive CallForm.Calls (form : CallForm) (call : Node) : Node → Option Node → Prop
  | plain {callee : Node} (hcall : call.IsKind form.call)
      (hcallee : call.HasChild "function" callee) (hkind : callee.IsKind "identifier") :
      Calls form call callee none
  | member {member object callee : Node} (hcall : call.IsKind form.call)
      (hmember : call.HasChild "function" member) (hkind : member.IsKind form.member)
      (hnames : form.Names member object callee) :
      Calls form call callee (some object)

-- The function of a call is one node, and no identifier names a member.
theorem CallForm.Calls.unique {form : CallForm} (hform : form.member ≠ "identifier")
    {call callee callee' : Node} {object object' : Option Node} (hfields : call.DistinctFields)
    (hcalls : form.Calls call callee object) (hcalls' : form.Calls call callee' object') :
    callee = callee' ∧ object = object' := by
  cases hcalls with
  | plain _ hcallee hkind =>
      cases hcalls' with
      | plain _ hcallee' _ => exact ⟨hfields.eq_of_hasChild hcallee hcallee', rfl⟩
      | member _ hmember hkind' _ =>
          obtain rfl := hfields.eq_of_hasChild hcallee hmember
          exact absurd (hkind'.2.symm.trans hkind.2) hform
  | member _ hmember hkind hnames =>
      cases hcalls' with
      | plain _ hcallee hkind' =>
          obtain rfl := hfields.eq_of_hasChild hcallee hmember
          exact absurd (hkind.2.symm.trans hkind'.2) hform
      | member _ hmember' _ hnames' =>
          obtain rfl := hfields.eq_of_hasChild hmember hmember'
          obtain ⟨rfl, rfl⟩ := hnames.unique (hfields.child hmember.1) hnames'
          exact ⟨rfl, rfl⟩

-- An invocation names a method itself, as a member of an object if there is one.
def invokedMember : MemberForm where
  objectField := "object"
  namedObject := true
  nameField := "name"
  nameKinds := ["identifier"]

inductive Invokes (call : Node) : Node → Option Node → Prop
  | plain {callee : Node} (hcall : call.IsKind "method_invocation")
      (hcallee : call.HasChild "name" callee) (hkind : callee.IsKind "identifier")
      (hnone : ∀ object, ¬ invokedMember.Names call object callee) :
      Invokes call callee none
  | member {object callee : Node} (hcall : call.IsKind "method_invocation")
      (hnames : invokedMember.Names call object callee) :
      Invokes call callee (some object)

theorem Invokes.unique {call callee callee' : Node} {object object' : Option Node}
    (hfields : call.DistinctFields) (hcalls : Invokes call callee object)
    (hcalls' : Invokes call callee' object') : callee = callee' ∧ object = object' := by
  cases hcalls with
  | plain _ hcallee _ hnone =>
      cases hcalls' with
      | plain _ hcallee' _ _ => exact ⟨hfields.eq_of_hasChild hcallee hcallee', rfl⟩
      | member _ hnames =>
          obtain rfl := hfields.eq_of_hasChild hcallee hnames.hasName
          exact absurd hnames (hnone _)
  | member _ hnames =>
      cases hcalls' with
      | plain _ hcallee _ hnone =>
          obtain rfl := hfields.eq_of_hasChild hcallee hnames.hasName
          exact absurd hnames (hnone _)
      | member _ hnames' =>
          obtain ⟨rfl, rfl⟩ := hnames.unique hfields hnames'
          exact ⟨rfl, rfl⟩

namespace Language

def callForm? : Language → Option CallForm
  | typescript | tsx | javascript => some {
      call := "call_expression"
      member := "member_expression"
      objectField := "object"
      namedObject := true
      nameField := "property"
      nameKinds := ["property_identifier", "private_property_identifier"] }
  | python => some {
      call := "call"
      member := "attribute"
      objectField := "object"
      namedObject := true
      nameField := "attribute"
      nameKinds := ["identifier"] }
  | csharp => some {
      call := "invocation_expression"
      member := "member_access_expression"
      objectField := "expression"
      namedObject := false
      nameField := "name"
      nameKinds := ["identifier"] }
  | java => none

-- A node is a call of something that a node names, on an object or on none.
def Calls (language : Language) (call callee : Node) (object : Option Node) : Prop :=
  match language.callForm? with
  | some form => form.Calls call callee object
  | none => Invokes call callee object

variable {language : Language}

theorem callForm?_member {form : CallForm} (hform : language.callForm? = some form) :
    form.member ≠ "identifier" := by
  cases language <;> cases hform <;> decide

theorem Calls.unique {call callee callee' : Node} {object object' : Option Node}
    (hfields : call.DistinctFields) (hcalls : language.Calls call callee object)
    (hcalls' : language.Calls call callee' object') : callee = callee' ∧ object = object' := by
  unfold Calls at hcalls hcalls'
  cases hform : language.callForm? with
  | none =>
      rw [hform] at hcalls hcalls'
      exact Invokes.unique hfields hcalls hcalls'
  | some form =>
      rw [hform] at hcalls hcalls'
      exact CallForm.Calls.unique (callForm?_member hform) hfields hcalls hcalls'

-- A call in the tree of a document.
def CallAt (language : Language) (document : Document) (path : Path) (call callee : Node)
    (object : Option Node) : Prop :=
  document.root.at? path = some call ∧ language.Calls call callee object

end Language

end ClassAtlas
