import Mathlib.Logic.Relation
import ClassAtlas.Atlas.Form
import ClassAtlas.Proofs.Json.Record

namespace ClassAtlas

open Json

namespace Usage

def fields : List Field :=
  [.plain "classUsedIn", .plain "methodName", .plain "objectType"]

variable {json : Json} {usage : Usage}

theorem ofJson?_eq_some_iff :
    ofJson? json = some usage ↔ ∃ caller method receiver,
      json.fields? (fields.map (·.key)) = some [caller, method, receiver] ∧
      required? string? caller = some usage.caller ∧
      required? string? method = some usage.method ∧
      required? string? receiver = some usage.receiver := by
  constructor
  · intro hread
    obtain ⟨answers, hanswers, hread⟩ := Option.bind_eq_some_iff.mp hread
    split at hread
    · obtain ⟨caller, hcaller, hread⟩ := Option.bind_eq_some_iff.mp hread
      obtain ⟨method, hmethod, hread⟩ := Option.bind_eq_some_iff.mp hread
      obtain ⟨receiver, hreceiver, hread⟩ := Option.bind_eq_some_iff.mp hread
      obtain rfl := Option.some.inj hread
      exact ⟨_, _, _, hanswers, hcaller, hmethod, hreceiver⟩
    · cases hread
  · rintro ⟨caller, method, receiver, hanswers, hcaller, hmethod, hreceiver⟩
    change (json.fields? (fields.map (·.key))).bind _ = _
    rw [hanswers]
    simp [hcaller, hmethod, hreceiver]

theorem ofJson?_toJson (usage : Usage) : ofJson? usage.toJson = some usage :=
  ofJson?_eq_some_iff.mpr ⟨_, _, _, rfl, rfl, rfl, rfl⟩

theorem kept : Kept ofJson? (RecordEdit fields) := by
  intro json other usage hedit hread
  obtain ⟨caller, method, receiver, hanswers, hcaller, hmethod, hreceiver⟩ :=
    ofJson?_eq_some_iff.mp hread
  obtain ⟨others, hothers, hfields⟩ := hedit.fields? (by decide) hanswers
  obtain _ | ⟨hcaller', _ | ⟨hmethod', _ | ⟨hreceiver', ⟨⟩⟩⟩⟩ := hfields
  exact ofJson?_eq_some_iff.mpr ⟨_, _, _, hothers, hcaller'.required? (kept_noEdit _) hcaller,
    hmethod'.required? (kept_noEdit _) hmethod, hreceiver'.required? (kept_noEdit _) hreceiver⟩

end Usage

namespace MethodEntry

def fields : List Field :=
  [.plain "name", .optionalList "usedIn" (RecordEdit Usage.fields)]

variable {json : Json} {method : MethodEntry}

theorem ofJson?_eq_some_iff :
    ofJson? json = some method ↔ ∃ name callers,
      json.fields? (fields.map (·.key)) = some [name, callers] ∧
      required? string? name = some method.name ∧
      optional? (list? Usage.ofJson?) callers = some method.callers := by
  constructor
  · intro hread
    obtain ⟨answers, hanswers, hread⟩ := Option.bind_eq_some_iff.mp hread
    split at hread
    · obtain ⟨name, hname, hread⟩ := Option.bind_eq_some_iff.mp hread
      obtain ⟨callers, hcallers, hread⟩ := Option.bind_eq_some_iff.mp hread
      obtain rfl := Option.some.inj hread
      exact ⟨_, _, hanswers, hname, hcallers⟩
    · cases hread
  · rintro ⟨name, callers, hanswers, hname, hcallers⟩
    change (json.fields? (fields.map (·.key))).bind _ = _
    rw [hanswers]
    simp [hname, hcallers]

theorem ofJson?_toJson (method : MethodEntry) : ofJson? method.toJson = some method := by
  obtain ⟨name, _ | callers⟩ := method
  · exact ofJson?_eq_some_iff.mpr ⟨_, _, rfl, rfl, rfl⟩
  · refine ofJson?_eq_some_iff.mpr ⟨_, _, rfl, rfl, ?_⟩
    exact congrArg (Option.map some) (list?_map Usage.ofJson?_toJson callers)

theorem kept : Kept ofJson? (RecordEdit fields) := by
  intro json other method hedit hread
  obtain ⟨name, callers, hanswers, hname, hcallers⟩ := ofJson?_eq_some_iff.mp hread
  obtain ⟨others, hothers, hfields⟩ := hedit.fields? (by decide) hanswers
  obtain _ | ⟨hname', _ | ⟨hcallers', ⟨⟩⟩⟩ := hfields
  exact ofJson?_eq_some_iff.mpr ⟨_, _, hothers, hname'.required? (kept_noEdit _) hname,
    hcallers'.optional? Usage.kept hcallers⟩

end MethodEntry

namespace ClassEntry

def fields : List Field :=
  [.plain "name", .plain "inheritance", .optionalList "parentClasses" NoEdit,
    .list "methods" (RecordEdit MethodEntry.fields), .list "methodsUsed" (RecordEdit Usage.fields)]

variable {json : Json} {entry : ClassEntry}

theorem ofJson?_eq_some_iff :
    ofJson? json = some entry ↔ ∃ name parents linked methods usages,
      json.fields? (fields.map (·.key)) = some [name, parents, linked, methods, usages] ∧
      required? string? name = some entry.name ∧
      required? (list? string?) parents = some entry.parents ∧
      optional? (list? string?) linked = some entry.linked ∧
      required? (list? MethodEntry.ofJson?) methods = some entry.methods ∧
      required? (list? Usage.ofJson?) usages = some entry.usages := by
  constructor
  · intro hread
    obtain ⟨answers, hanswers, hread⟩ := Option.bind_eq_some_iff.mp hread
    split at hread
    · obtain ⟨name, hname, hread⟩ := Option.bind_eq_some_iff.mp hread
      obtain ⟨parents, hparents, hread⟩ := Option.bind_eq_some_iff.mp hread
      obtain ⟨linked, hlinked, hread⟩ := Option.bind_eq_some_iff.mp hread
      obtain ⟨methods, hmethods, hread⟩ := Option.bind_eq_some_iff.mp hread
      obtain ⟨usages, husages, hread⟩ := Option.bind_eq_some_iff.mp hread
      obtain rfl := Option.some.inj hread
      exact ⟨_, _, _, _, _, hanswers, hname, hparents, hlinked, hmethods, husages⟩
    · cases hread
  · rintro ⟨name, parents, linked, methods, usages, hanswers, hname, hparents, hlinked, hmethods,
      husages⟩
    change (json.fields? (fields.map (·.key))).bind _ = _
    rw [hanswers]
    simp [hname, hparents, hlinked, hmethods, husages]

theorem ofJson?_toJson (entry : ClassEntry) : ofJson? entry.toJson = some entry := by
  have htext (text : String) : string? (.string text) = some text := rfl
  have htexts (texts : List String) : list? string? (.array (texts.map .string)) = some texts :=
    list?_map htext texts
  have hmethods := list?_map MethodEntry.ofJson?_toJson entry.methods
  have husages := list?_map Usage.ofJson?_toJson entry.usages
  obtain ⟨name, parents, _ | linked, methods, usages⟩ := entry
  · exact ofJson?_eq_some_iff.mpr
      ⟨_, _, _, _, _, rfl, rfl, htexts parents, rfl, hmethods, husages⟩
  · have hlinked : optional? (list? string?) (some (.array (linked.map .string))) =
        some (some linked) := congrArg (Option.map some) (htexts linked)
    exact ofJson?_eq_some_iff.mpr
      ⟨_, _, _, _, _, rfl, rfl, htexts parents, hlinked, hmethods, husages⟩

theorem kept : Kept ofJson? (RecordEdit fields) := by
  intro json other entry hedit hread
  obtain ⟨name, parents, linked, methods, usages, hanswers, hname, hparents, hlinked, hmethods,
    husages⟩ := ofJson?_eq_some_iff.mp hread
  obtain ⟨others, hothers, hfields⟩ := hedit.fields? (by decide) hanswers
  obtain _ | ⟨hname', _ | ⟨hparents', _ | ⟨hlinked', _ | ⟨hmethods', _ | ⟨husages', ⟨⟩⟩⟩⟩⟩⟩ :=
    hfields
  exact ofJson?_eq_some_iff.mpr ⟨_, _, _, _, _, hothers, hname'.required? (kept_noEdit _) hname,
    hparents'.required? (kept_noEdit _) hparents, hlinked'.optional? (kept_noEdit _) hlinked,
    hmethods'.required? MethodEntry.kept.list? hmethods,
    husages'.required? Usage.kept.list? husages⟩

end ClassEntry

namespace FileEntry

def detailFields : List Field := [.list "classes" (RecordEdit ClassEntry.fields)]

def fields : List Field := [.plain "path", ⟨"details", false, RecordEdit detailFields⟩]

variable {json : Json}

theorem classes?_eq_some_iff {entries : List ClassEntry} :
    classes? json = some entries ↔ ∃ classes,
      json.fields? (detailFields.map (·.key)) = some [classes] ∧
      required? (list? ClassEntry.ofJson?) classes = some entries := by
  constructor
  · intro hread
    obtain ⟨answers, hanswers, hread⟩ := Option.bind_eq_some_iff.mp hread
    split at hread
    · exact ⟨_, hanswers, hread⟩
    · cases hread
  · rintro ⟨classes, hanswers, hclasses⟩
    change (json.fields? (detailFields.map (·.key))).bind _ = _
    rw [hanswers]
    exact hclasses

theorem classes?_kept : Kept classes? (RecordEdit detailFields) := by
  intro json other entries hedit hread
  obtain ⟨classes, hanswers, hclasses⟩ := classes?_eq_some_iff.mp hread
  obtain ⟨others, hothers, hfields⟩ := hedit.fields? (by decide) hanswers
  obtain _ | ⟨hclasses', ⟨⟩⟩ := hfields
  exact classes?_eq_some_iff.mpr ⟨_, hothers, hclasses'.required? ClassEntry.kept.list? hclasses⟩

theorem ofJson?_eq_some_iff {file : FileEntry} :
    ofJson? json = some file ↔ ∃ path details,
      json.fields? (fields.map (·.key)) = some [path, details] ∧
      required? string? path = some file.path ∧
      required? classes? details = some file.classes := by
  constructor
  · intro hread
    obtain ⟨answers, hanswers, hread⟩ := Option.bind_eq_some_iff.mp hread
    split at hread
    · obtain ⟨path, hpath, hread⟩ := Option.bind_eq_some_iff.mp hread
      obtain ⟨classes, hclasses, hread⟩ := Option.bind_eq_some_iff.mp hread
      obtain rfl := Option.some.inj hread
      exact ⟨_, _, hanswers, hpath, hclasses⟩
    · cases hread
  · rintro ⟨path, details, hanswers, hpath, hclasses⟩
    change (json.fields? (fields.map (·.key))).bind _ = _
    rw [hanswers]
    simp [hpath, hclasses]

theorem ofJson?_toJson (file : FileEntry) : ofJson? file.toJson = some file := by
  have hclasses : classes? (.object [("classes", .array (file.classes.map ClassEntry.toJson))]) =
      some file.classes :=
    classes?_eq_some_iff.mpr ⟨_, rfl, list?_map ClassEntry.ofJson?_toJson file.classes⟩
  exact ofJson?_eq_some_iff.mpr ⟨_, _, rfl, rfl, hclasses⟩

theorem kept : Kept ofJson? (RecordEdit fields) := by
  intro json other file hedit hread
  obtain ⟨path, details, hanswers, hpath, hdetails⟩ := ofJson?_eq_some_iff.mp hread
  obtain ⟨others, hothers, hfields⟩ := hedit.fields? (by decide) hanswers
  obtain _ | ⟨hpath', _ | ⟨hdetails', ⟨⟩⟩⟩ := hfields
  exact ofJson?_eq_some_iff.mpr ⟨_, _, hothers, hpath'.required? (kept_noEdit _) hpath,
    hdetails'.required? classes?_kept hdetails⟩

end FileEntry

namespace Atlas

def fields : List Field := [.list "files" (RecordEdit FileEntry.fields)]

theorem ofJson?_eq_some_iff {json : Json} {atlas : Atlas} :
    ofJson? json = some atlas ↔ ∃ files,
      json.fields? (fields.map (·.key)) = some [files] ∧
      required? (list? FileEntry.ofJson?) files = some atlas.files := by
  constructor
  · intro hread
    obtain ⟨answers, hanswers, hread⟩ := Option.bind_eq_some_iff.mp hread
    split at hread
    · obtain ⟨files, hfiles, hread⟩ := Option.bind_eq_some_iff.mp hread
      obtain rfl := Option.some.inj hread
      exact ⟨_, hanswers, hfiles⟩
    · cases hread
  · rintro ⟨files, hanswers, hfiles⟩
    change (json.fields? (fields.map (·.key))).bind _ = _
    rw [hanswers]
    simp [hfiles]

theorem ofJson?_toJson (atlas : Atlas) : ofJson? atlas.toJson = some atlas :=
  ofJson?_eq_some_iff.mpr ⟨_, rfl, list?_map FileEntry.ofJson?_toJson atlas.files⟩

theorem kept : Kept ofJson? (RecordEdit fields) := by
  intro json other atlas hedit hread
  obtain ⟨files, hanswers, hfiles⟩ := ofJson?_eq_some_iff.mp hread
  obtain ⟨others, hothers, hfields⟩ := hedit.fields? (by decide) hanswers
  obtain _ | ⟨hfiles', ⟨⟩⟩ := hfields
  exact ofJson?_eq_some_iff.mpr ⟨_, hothers, hfiles'.required? FileEntry.kept.list? hfiles⟩

-- Any number of edits, in any of the records.
theorem kept_run : Kept ofJson? (Relation.ReflTransGen (RecordEdit fields)) := by
  intro json other atlas hedits hread
  induction hedits with
  | refl => exact hread
  | tail _ hedit ih => exact kept hedit ih

-- What is written is read back, and no two atlases are written alike. A value that is read as an
-- atlas is still read as that atlas after any edits of its records, and writing what was read
-- loses nothing.
theorem json_read_back (atlas : Atlas) :
    ofJson? atlas.toJson = some atlas ∧
      (∀ other : Atlas, other.toJson = atlas.toJson → other = atlas) ∧
      (∀ json edited : Json, ofJson? json = some atlas →
        Relation.ReflTransGen (RecordEdit fields) json edited → ofJson? edited = some atlas) ∧
      ∀ json : Json, ((ofJson? json).bind fun read => ofJson? read.toJson) = ofJson? json := by
  refine ⟨ofJson?_toJson atlas, ?_, fun json edited hread hedits => kept_run hedits hread, ?_⟩
  · intro other hsame
    have hother := ofJson?_toJson other
    rw [hsame, ofJson?_toJson] at hother
    exact (Option.some.inj hother).symm
  · intro json
    cases hread : ofJson? json with
    | none => rfl
    | some atlas => exact ofJson?_toJson atlas

-- A class as the array of its fields, in an atlas with one member too many.
theorem arrayClass_read_back :
    let atlas : Atlas := ⟨[⟨"a.ts", [⟨"A", ["B"], none, [⟨"m", some []⟩], []⟩]⟩]⟩
    let entry : Json := .array [.string "A", .array [.string "B"], .null,
      .array [.object [("name", .string "m"), ("usedIn", .array [])]], .array []]
    let file : Json := .object [("path", .string "a.ts"),
      ("details", .object [("classes", .array [entry])])]
    ofJson? (.object [("version", .null), ("files", .array [file])]) = some atlas := by
  intro atlas entry file
  obtain ⟨hwritten, -, hkept, -⟩ := json_read_back atlas
  have hentry : RecordEdit ClassEntry.fields
      (ClassEntry.toJson ⟨"A", ["B"], none, [⟨"m", some []⟩], []⟩) entry := .array _
  have hdetails : RecordEdit FileEntry.detailFields
      (.object [("classes", .array [ClassEntry.toJson ⟨"A", ["B"], none, [⟨"m", some []⟩], []⟩])])
      (.object [("classes", .array [entry])]) :=
    .member [] [] (List.mem_singleton_self _) (.element [] [] hentry)
  have hfile : RecordEdit FileEntry.fields
      (FileEntry.toJson ⟨"a.ts", [⟨"A", ["B"], none, [⟨"m", some []⟩], []⟩]⟩) file :=
    .member [("path", .string "a.ts")] [] (List.mem_cons_of_mem _ (List.mem_singleton_self _))
      hdetails
  have hfiles : RecordEdit fields atlas.toJson (.object [("files", .array [file])]) :=
    .member [] [] (List.mem_singleton_self _) (.element [] [] hfile)
  have hunknown : RecordEdit fields (.object [("files", .array [file])])
      (.object [("version", .null), ("files", .array [file])]) :=
    .unknown [] [("files", .array [file])] (by decide) .null
  exact hkept atlas.toJson _ hwritten (.tail (.single hfiles) hunknown)

end Atlas

end ClassAtlas
