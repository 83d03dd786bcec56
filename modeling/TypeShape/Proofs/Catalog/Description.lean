import Mathlib
import TypeShape.Proofs.Catalog.Clauses
import TypeShape.Proofs.Document.Writing
import TypeShape.Proofs.Table.Entries

/-!
Documents that describe catalogs.  Each declaration is an object that contains
the name of its kind and what belongs to that kind, and a catalog is an object
that contains the declarations by name.  However such a document is written, the
catalog that it describes is loaded from it.
-/
namespace TypeShape

/-! ### Fields and methods -/

theorem required_slot {α : Type} {name : String} {value : α}
    {seen : List String} (h : name ∈ seen) :
    Json.required name (slot seen name value) = .ok value := by
  rw [slot_of_mem h]
  rfl

namespace FieldDecl

def clauses (field : FieldDecl) : List Clause :=
  [⟨"name", IsText field.name, False⟩, ⟨"type", IsText field.type, False⟩]

def DescribedBy (field : FieldDecl) (document : Document) : Prop :=
  Describes field.clauses document

def draftOf (field : FieldDecl) (seen : List String) : Draft :=
  ⟨slot seen "name" field.name, slot seen "type" field.type⟩

theorem takenBy_readMember (field : FieldDecl) (levels : Nat) :
    ∀ clause ∈ field.clauses,
      clause.TakenBy levels readMember field.draftOf := by
  simp only [clauses, List.forall_mem_cons, List.not_mem_nil, false_implies,
    implies_true, and_true]
  constructor
  · refine Clause.takenBy_of_reads (fun document h => h.reads levels)
      fun json hread seen hfresh => ?_
    simp [readMember, draftOf, readOnce_slot hfresh hread, slot_cons_of_ne]
  · refine Clause.takenBy_of_reads (fun document h => h.reads levels)
      fun json hread seen hfresh => ?_
    simp [readMember, draftOf, readOnce_slot hfresh hread, slot_cons_of_ne]

theorem reads_of_describedBy {field : FieldDecl} {document : Document}
    (h : field.DescribedBy document) (levels : Nat) :
    Reads (levels + 1) read document field := by
  obtain ⟨members, rfl, hsaid⟩ := h
  obtain ⟨kept, seen, hkept, hread, hcomplete⟩ :=
    hsaid.exists_kept (field.takenBy_readMember levels)
  simp only [clauses, List.forall_mem_cons, or_false] at hcomplete
  obtain ⟨hname, htype, -⟩ := hcomplete
  have hname' : Json.required "name" (field.draftOf seen).name =
      .ok field.name :=
    required_slot hname
  have htype' : Json.required "type" (field.draftOf seen).type =
      .ok field.type :=
    required_slot htype
  refine ⟨.object kept, keep?_object hkept, ?_⟩
  -- the members are read first, and then the draft has both parts of the field
  refine Except.bind_eq_ok_iff.2 ⟨field.draftOf seen, hread, ?_⟩
  refine Except.bind_eq_ok_iff.2 ⟨field.name, hname', ?_⟩
  refine Except.bind_eq_ok_iff.2 ⟨field.type, htype', ?_⟩
  rfl

end FieldDecl

namespace MethodDecl

/-- What the object of a method contains.  It need not contain that nothing is
taken or returned. -/
def clauses (method : MethodDecl) : List Clause :=
  [⟨"name", IsText method.name, False⟩,
    ⟨"parameters", IsListOf IsText method.params, method.params = []⟩,
    ⟨"returns", IsText method.returns, method.returns = "void"⟩]

def DescribedBy (method : MethodDecl) (document : Document) : Prop :=
  Describes method.clauses document

def draftOf (method : MethodDecl) (seen : List String) : Draft :=
  ⟨slot seen "name" method.name, slot seen "parameters" method.params,
    slot seen "returns" method.returns⟩

theorem takenBy_readMember (method : MethodDecl) (levels : Nat) :
    ∀ clause ∈ method.clauses,
      clause.TakenBy (levels + 1) readMember method.draftOf := by
  simp only [clauses, List.forall_mem_cons, List.not_mem_nil, false_implies,
    implies_true, and_true]
  refine ⟨?_, ?_, ?_⟩
  · refine Clause.takenBy_of_reads (fun document h => h.reads _)
      fun json hread seen hfresh => ?_
    simp [readMember, draftOf, readOnce_slot hfresh hread, slot_cons_of_ne]
  · refine Clause.takenBy_of_reads
      (fun document h => h.reads fun text item hitem => hitem.reads levels)
      fun json hread seen hfresh => ?_
    simp [readMember, draftOf, Json.readStrings, readOnce_slot hfresh hread,
      slot_cons_of_ne]
  · refine Clause.takenBy_of_reads (fun document h => h.reads _)
      fun json hread seen hfresh => ?_
    simp [readMember, draftOf, readOnce_slot hfresh hread, slot_cons_of_ne]

theorem reads_of_describedBy {method : MethodDecl} {document : Document}
    (h : method.DescribedBy document) (levels : Nat) :
    Reads (levels + 2) read document method := by
  obtain ⟨members, rfl, hsaid⟩ := h
  obtain ⟨kept, seen, hkept, hread, hcomplete⟩ :=
    hsaid.exists_kept (method.takenBy_readMember levels)
  simp only [clauses, List.forall_mem_cons, or_false] at hcomplete
  obtain ⟨hname, hparams, hreturns, -⟩ := hcomplete
  have hname' : Json.required "name" (method.draftOf seen).name =
      .ok method.name :=
    required_slot hname
  have hparts : ofParts method.name (method.draftOf seen).params
      (method.draftOf seen).returns = method := by
    simp only [ofParts, draftOf, getD_slot hparams, getD_slot hreturns]
  refine ⟨.object kept, keep?_object hkept, ?_⟩
  refine Except.bind_eq_ok_iff.2 ⟨method.draftOf seen, hread, ?_⟩
  refine Except.bind_eq_ok_iff.2 ⟨method.name, hname', ?_⟩
  exact congrArg Except.ok hparts

end MethodDecl

/-! ### Declarations -/

namespace RecordDecl

/-- What the object of a record contains besides its kind.  It need not contain
what the record has none of. -/
def clauses (decl : RecordDecl) : List Clause :=
  [⟨"type_variables", IsListOf IsText decl.typeVars, decl.typeVars = []⟩,
   ⟨"fields", IsListOf FieldDecl.DescribedBy decl.fields, decl.fields = []⟩,
   ⟨"methods", IsListOf MethodDecl.DescribedBy decl.methods, decl.methods = []⟩]

def draftOf (decl : RecordDecl) (seen : List String) : Draft :=
  ⟨slot seen "type_variables" decl.typeVars, slot seen "fields" decl.fields,
    slot seen "methods" decl.methods⟩

theorem takenBy_readMember (decl : RecordDecl) (levels : Nat) :
    ∀ clause ∈ decl.clauses,
      clause.TakenBy (levels + 3) readMember decl.draftOf := by
  simp only [clauses, List.forall_mem_cons, List.not_mem_nil, false_implies,
    implies_true, and_true]
  refine ⟨?_, ?_, ?_⟩
  · refine Clause.takenBy_of_reads
      (fun document h => h.reads fun text item hitem => hitem.reads _)
      fun json hread seen hfresh => ?_
    simp [readMember, draftOf, Json.readStrings, readOnce_slot hfresh hread,
      slot_cons_of_ne]
  · refine Clause.takenBy_of_reads (fun document h =>
      h.reads fun field item hitem => FieldDecl.reads_of_describedBy hitem _)
      fun json hread seen hfresh => ?_
    simp [readMember, draftOf, readOnce_slot hfresh hread, slot_cons_of_ne]
  · refine Clause.takenBy_of_reads (fun document h =>
      h.reads fun method item hitem => MethodDecl.reads_of_describedBy hitem _)
      fun json hread seen hfresh => ?_
    simp [readMember, draftOf, readOnce_slot hfresh hread, slot_cons_of_ne]

theorem exists_kept {decl : RecordDecl}
    {members : List (Option String × Document)}
    (h : SaidBy decl.clauses members) (levels : Nat) :
    ∃ kept, List.Forall₂ (Kept (levels + 3)) members kept ∧
      ofMembers kept = .ok decl := by
  obtain ⟨kept, seen, hkept, hread, hcomplete⟩ :=
    h.exists_kept (decl.takenBy_readMember levels)
  simp only [clauses, List.forall_mem_cons] at hcomplete
  obtain ⟨htypeVars, hfields, hmethods, -⟩ := hcomplete
  have hdecl : (decl.draftOf seen).decl = decl := by
    simp only [draftOf, Draft.decl, getD_slot htypeVars, getD_slot hfields,
      getD_slot hmethods]
  exact ⟨kept, hkept, Except.bind_eq_ok_iff.2
    ⟨decl.draftOf seen, hread, congrArg Except.ok hdecl⟩⟩

end RecordDecl

namespace Declaration

def kindName : Declaration → String
  | enumeration _ => "enumeration"
  | collection => "collection"
  | mapping => "map"
  | record _ => "complex"

def innerClauses : Declaration → List Clause
  | enumeration constants => [⟨"constants", IsListOf IsText constants, False⟩]
  | collection | mapping => []
  | record decl => decl.clauses

def clauses (decl : Declaration) : List Clause :=
  ⟨"kind", IsText decl.kindName, False⟩ :: decl.innerClauses

def DescribedBy (decl : Declaration) (document : Document) : Prop :=
  Describes decl.clauses document

def kind : Declaration → DeclarationKind
  | enumeration _ => .enumeration
  | collection => .collection
  | mapping => .mapping
  | record _ => .record

theorem readKind_kindName (decl : Declaration) (path : List PathStep) :
    readKind path (.string (some decl.kindName)) = .ok decl.kind := by
  cases decl <;> rfl

def constantsDraft (constants : List String) (seen : List String) :
    Option (List String) :=
  slot seen "constants" constants

theorem takenBy_readConstantsMember (constants : List String) (levels : Nat) :
    ∀ clause ∈ (enumeration constants).innerClauses, clause.TakenBy (levels + 1)
      readConstantsMember (constantsDraft constants) := by
  simp only [innerClauses, List.forall_mem_singleton]
  refine Clause.takenBy_of_reads
    (fun document h => h.reads fun text item hitem => hitem.reads levels)
    fun json hread seen hfresh => ?_
  simp [readConstantsMember, constantsDraft, Json.readStrings,
    readOnce_slot hfresh hread]

theorem exists_kept {decl : Declaration}
    {members : List (Option String × Document)}
    (h : SaidBy decl.innerClauses members) :
    ∃ kept, List.Forall₂ (Kept innerLevels) members kept ∧
      ofMembers decl.kind kept = .ok decl := by
  -- a collection or a mapping has nothing besides its kind
  have hnone (hclauses : decl.innerClauses = []) : members = [] := by
    rw [hclauses] at h
    refine List.eq_nil_iff_forall_not_mem.2 fun member hmember => ?_
    obtain ⟨_, hclause, -⟩ := h.allowed member hmember
    cases hclause
  cases decl with
  | enumeration constants =>
      obtain ⟨kept, seen, hkept, hread, hcomplete⟩ :=
        h.exists_kept (takenBy_readConstantsMember constants _)
      simp only [innerClauses, List.forall_mem_singleton, or_false] at hcomplete
      have hconstants : constantsOfMembers kept = .ok constants := by
        refine Except.bind_eq_ok_iff.2
          ⟨constantsDraft constants seen, hread, ?_⟩
        rw [constantsDraft, slot_of_mem hcomplete]
        rfl
      exact ⟨kept, hkept, by rw [kind, ofMembers, hconstants]; rfl⟩
  | collection =>
      cases hnone rfl
      exact ⟨[], .nil, rfl⟩
  | mapping =>
      cases hnone rfl
      exact ⟨[], .nil, rfl⟩
  | record decl =>
      obtain ⟨kept, hkept, hread⟩ := RecordDecl.exists_kept h _
      exact ⟨kept, hkept, by rw [kind, ofMembers, hread]; rfl⟩

/-! ### The kind may stand anywhere -/

theorem readMember_of_kept {path : List PathStep}
    {member : Option String × Document} {kept : String × Json}
    (hkept : Kept innerLevels member kept) (hother : member.1 ≠ some "kind")
    (draft : Draft) :
    readMember path draft member =
      .ok { draft with members := draft.members ++ [kept] } := by
  obtain ⟨key, document⟩ := member
  obtain ⟨name, json⟩ := kept
  obtain ⟨rfl, hjson⟩ := hkept
  have hname : name ≠ "kind" := fun hname => hother (congrArg some hname)
  have hkeep : document.keep innerLevels = .ok json := by
    rw [Document.keep, hjson]
  refine Except.bind_eq_ok_iff.2 ⟨name, rfl, ?_⟩
  rw [if_neg hname]
  exact Except.bind_eq_ok_iff.2 ⟨json, hkeep, rfl⟩

theorem foldlM_readMember_of_kept {path : List PathStep}
    {members : List (Option String × Document)} {kept : List (String × Json)}
    (hkept : List.Forall₂ (Kept innerLevels) members kept)
    (hother : ∀ member ∈ members, member.1 ≠ some "kind") (draft : Draft) :
    members.foldlM (readMember path) draft =
      .ok { draft with members := draft.members ++ kept } := by
  induction hkept generalizing draft with
  | nil =>
      rw [List.append_nil]
      rfl
  | @cons member first members rest hmember hrest ih =>
      obtain ⟨hfirst, hother⟩ := List.forall_mem_cons.1 hother
      rw [List.foldlM_cons, readMember_of_kept hmember hfirst]
      have hlast := ih hother { draft with members := draft.members ++ [first] }
      simp only [List.append_assoc, List.singleton_append] at hlast
      exact hlast

/-- Wherever the kind stands, it is met, and the other members are kept in
turn. -/
theorem foldlM_readMember {path : List PathStep}
    {before after : List (Option String × Document)} {document : Document}
    {kind : DeclarationKind} {kept : List (String × Json)}
    (hkept : List.Forall₂ (Kept innerLevels) (before ++ after) kept)
    (hother : ∀ member ∈ before ++ after, member.1 ≠ some "kind")
    (hkind : readKind (path ++ [.member "kind"]) document = .ok kind)
    (members : List (String × Json)) :
    (before ++ (some "kind", document) :: after).foldlM (readMember path)
      ⟨none, members⟩ = .ok ⟨some kind, members ++ kept⟩ := by
  induction before generalizing kept members with
  | nil =>
      have hread : readMember path ⟨none, members⟩ (some "kind", document) =
          .ok ⟨some kind, members⟩ := by
        refine Except.bind_eq_ok_iff.2 ⟨"kind", rfl, ?_⟩
        rw [if_pos rfl]
        exact Except.bind_eq_ok_iff.2 ⟨some kind, by rw [hkind]; rfl, rfl⟩
      rw [List.nil_append, List.foldlM_cons, hread]
      exact foldlM_readMember_of_kept hkept hother _
  | cons member before ih =>
      rw [List.cons_append] at hkept hother
      obtain ⟨first, rest, hfirst, hrest, rfl⟩ :=
        List.forall₂_cons_left_iff.1 hkept
      obtain ⟨hmember, hother⟩ := List.forall_mem_cons.1 hother
      rw [List.cons_append, List.foldlM_cons, readMember_of_kept hfirst hmember]
      have hlast := ih hrest hother (members ++ [first])
      simp only [List.append_assoc, List.singleton_append] at hlast
      exact hlast

/-- A declaration is loaded from each of its documents. -/
theorem ofDocument_of_describedBy {decl : Declaration} {document : Document}
    (h : decl.DescribedBy document) (path : List PathStep) :
    ofDocument path document = .ok decl := by
  obtain ⟨members, rfl, hsaid⟩ := h
  have hnames : ∀ other ∈ decl.innerClauses, other.name ≠ "kind" := by
    cases decl <;> simp [innerClauses, RecordDecl.clauses]
  obtain ⟨before, document, after, rfl, hkind, hinner, hother⟩ :=
    hsaid.exists_of_required not_false hnames
  cases hkind
  obtain ⟨kept, hkept, hread⟩ := exists_kept hinner
  refine Except.bind_eq_ok_iff.2
    ⟨_, foldlM_readMember hkept hother (decl.readKind_kindName _) [], ?_⟩
  refine Except.bind_eq_ok_iff.2 ⟨decl.kind, rfl, ?_⟩
  rw [List.nil_append, hread]
  rfl

end Declaration

/-! ### Catalogs -/

namespace Catalog

/-- The documents of a catalog.  Its types are an object with a member for each
pair, in an order that may mix the names but keeps the pairs of one name as they
are.  Other members may hold anything. -/
inductive DescribedBy (pairs : List (String × Declaration)) : Document → Prop
  | object {before types after : List (Option String × Document)}
      {written : List (String × Declaration)}
      (hothers : ∀ member ∈ before ++ after,
        ∃ name, member.1 = some name ∧ name ≠ "types")
      (htypes : List.Forall₂ (fun pair member =>
        member.1 = some pair.1 ∧ pair.2.DescribedBy member.2) written types)
      (horder : ∀ name, written.filter (fun pair => pair.1 = name) =
        pairs.filter fun pair => pair.1 = name) :
      DescribedBy pairs
        (.object (before ++ (some "types", .object types) :: after))

theorem foldlM_readDeclaration {written : List (String × Declaration)}
    {types : List (Option String × Document)}
    (h : List.Forall₂
      (fun pair member => member.1 = some pair.1 ∧ pair.2.DescribedBy member.2)
      written types)
    (path : List PathStep) (table : Table Declaration) :
    types.foldlM (readDeclaration path) table = .ok (table.putAll written) := by
  induction h generalizing table with
  | nil => rfl
  | @cons pair member written types hmember _ ih =>
      obtain ⟨name, decl⟩ := pair
      obtain ⟨key, document⟩ := member
      obtain ⟨rfl, hdecl⟩ := hmember
      have hread : readDeclaration path table (some name, document) =
          .ok (table.put name decl) := by
        refine Except.bind_eq_ok_iff.2 ⟨name, rfl, ?_⟩
        exact Except.bind_eq_ok_iff.2
          ⟨decl, Declaration.ofDocument_of_describedBy hdecl _, rfl⟩
      rw [List.foldlM_cons, hread]
      exact ih (table.put name decl)

/-- Members of other names are passed over. -/
theorem foldlM_readMember_of_others {members : List (Option String × Document)}
    (hothers : ∀ member ∈ members,
      ∃ name, member.1 = some name ∧ name ≠ "types")
    (hsound : ∀ member ∈ members, member.2.sound = true)
    (types : Option (Table Declaration)) :
    members.foldlM readMember types = .ok types := by
  induction members with
  | nil => rfl
  | cons member rest ih =>
      obtain ⟨⟨name, hkey, hname⟩, hothers⟩ := List.forall_mem_cons.1 hothers
      obtain ⟨hmember, hsound⟩ := List.forall_mem_cons.1 hsound
      have hread : readMember types member = .ok types := by
        refine Except.bind_eq_ok_iff.2 ⟨name, by rw [hkey]; rfl, ?_⟩
        rw [if_neg hname, Document.skip, if_pos hmember]
        rfl
      rw [List.foldlM_cons, hread]
      exact ih hothers hsound

theorem ofDocument_of_describedBy {pairs : List (String × Declaration)}
    {document : Document} (h : DescribedBy pairs document)
    (hsound : document.sound = true) :
    ∃ written : List (String × Declaration),
      (∀ name, written.filter (fun pair => pair.1 = name) =
        pairs.filter fun pair => pair.1 = name) ∧
      ofDocument document = .ok ⟨.ofList written⟩ := by
  obtain @⟨before, types, after, written, hothers, htypes, horder⟩ := h
  rw [List.forall_mem_append] at hothers
  have hsounds := Document.soundMembers_iff.1 hsound
  rw [List.forall_mem_append, List.forall_mem_cons] at hsounds
  obtain ⟨hbefore, -, hafter⟩ := hsounds
  have htable : readMember none (some "types", .object types) =
      .ok (some (Table.ofList written)) := by
    refine Except.bind_eq_ok_iff.2 ⟨"types", rfl, ?_⟩
    rw [if_pos rfl, readTypes, foldlM_readDeclaration htypes]
    rfl
  refine ⟨written, horder,
    Except.bind_eq_ok_iff.2 ⟨some (Table.ofList written), ?_, rfl⟩⟩
  rw [List.foldlM_append, foldlM_readMember_of_others hothers.1 hbefore]
  refine Except.bind_eq_ok_iff.2 ⟨none, rfl, ?_⟩
  rw [List.foldlM_cons, htable]
  exact foldlM_readMember_of_others hothers.2 hafter _

/-- From every text that describes a catalog one is loaded, and it holds what
the text describes: under each name what stands last with that name, and nothing
else. -/
theorem ofJson_of_describedBy {pairs : List (String × Declaration)}
    {document : Document} {text : String}
    (hdescribed : DescribedBy pairs document)
    (hwritten : document.WrittenAs text.toList) :
    ∃ catalog, ofJson text = .ok catalog ∧
      (∀ name, catalog.get? name =
        ((pairs.filter fun pair => pair.1 = name).getLast?).map Prod.snd) ∧
      catalog.size = (entryNames pairs).toFinset.card := by
  obtain ⟨written, horder, hloaded⟩ :=
    ofDocument_of_describedBy hdescribed (Document.sound_of_writtenAs hwritten)
  have hnames : (entryNames written).toFinset =
      (entryNames pairs).toFinset := by
    ext name
    rw [List.mem_toFinset, List.mem_toFinset, mem_entryNames_iff_filter,
      mem_entryNames_iff_filter, horder]
  refine ⟨⟨.ofList written⟩, ?_, fun name => ?_, ?_⟩
  · rw [ofJson, Document.ofText_of_writtenAs hwritten, hloaded]
  · rw [get?, Table.get?_ofList, lookup_reverse, horder]
  · rw [size, Table.size_ofList, hnames]

/-- The name of the second declaration is spelled otherwise, its members stand
in another order, and what the method takes is left out. -/
theorem ofJson_of_describedBy_pair :
    ∃ catalog, ofJson ("\x7b \"note\": [1e2, \"\\uD800\"],\n\"types\": " ++
        "\x7b\"A\": \x7b\"kind\": \"collection\"\x7d, \"\\u0041\": " ++
        "\x7b\"methods\": [\x7b\"returns\": \"int\", \"name\": \"getX\"\x7d], " ++
        "\"kind\": \"complex\"\x7d\x7d\x7d") = .ok catalog ∧
      catalog.get? "A" = some (.record { methods := [⟨"getX", [], "int"⟩] }) ∧
      catalog.get? "B" = none ∧ catalog.size = 1 := by
  have hmethod : MethodDecl.DescribedBy ⟨"getX", [], "int"⟩
      (.object [(some "returns", .string (some "int")),
        (some "name", .string (some "getX"))]) :=
    ⟨_, rfl, by decide, by simp [MethodDecl.clauses, IsText],
      by simp [MethodDecl.clauses]⟩
  have hrecord : Declaration.DescribedBy
      (.record { methods := [⟨"getX", [], "int"⟩] })
      (.object [(some "methods", .list [.object [(some "returns",
        .string (some "int")), (some "name", .string (some "getX"))]]),
        (some "kind", .string (some "complex"))]) := by
    refine ⟨_, rfl, by decide, ?_, by
      simp [Declaration.clauses, Declaration.innerClauses, RecordDecl.clauses]⟩
    simp [Declaration.clauses, Declaration.innerClauses, RecordDecl.clauses,
      IsText, IsListOf, Declaration.kindName, hmethod]
  have hcollection : Declaration.DescribedBy .collection
      (.object [(some "kind", .string (some "collection"))]) :=
    ⟨_, rfl, by decide,
      by simp [Declaration.clauses, IsText, Declaration.kindName],
      by simp [Declaration.clauses, Declaration.innerClauses]⟩
  have hdescribed := @DescribedBy.object
    [("A", .collection), ("A", .record { methods := [⟨"getX", [], "int"⟩] })]
    [(some "note", .list [.number ⟨false, [1], none, some 2⟩, .string none])] _
    [] _ (by simp) (.cons (b := (some "A", _)) ⟨rfl, hcollection⟩
      (.cons (b := (some "A", _)) ⟨rfl, hrecord⟩ .nil)) fun _ => rfl
  refine (ofJson_of_describedBy hdescribed
    ((Document.writtenAs_iff_scan rfl).2 ?_)).imp
    fun catalog h => ⟨h.1, (h.2.1 "A").trans ?_, (h.2.1 "B").trans ?_, h.2.2⟩
  · decide +kernel
  · decide
  · decide

end Catalog

end TypeShape
