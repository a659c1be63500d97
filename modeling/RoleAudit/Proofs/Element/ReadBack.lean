import RoleAudit.Element.Codec
import RoleAudit.Proofs.Json.ReadBack

/-!
# Nodes and edges read back

Every part of a node or edge is read back off what was written for it. A reader of numbers takes words
of 32 or 64 bits only, so this asks that lines, columns and parameter positions are in that range.
-/

namespace RoleAudit

open Json (ReadsBack)

/-! ## Labels and ids -/

theorem TypeForm.find?_label (f : TypeForm) : all.find? (label · = label f) = some f := by
  cases f <;> decide

theorem TypeForm.readsBack (f : TypeForm) : ReadsBack decode toJson f :=
  .label f.find?_label

theorem TypeForm.readsBackInNode (f : TypeForm) : ReadsBack decodeInNode toJson f :=
  .tag f.find?_label

theorem Modifier.find?_label (m : Modifier) : all.find? (label · = label m) = some m := by
  cases m <;> decide

theorem Modifier.readsBack (m : Modifier) : ReadsBack decode toJson m :=
  .label m.find?_label

theorem Modifier.readsBackInNode (m : Modifier) : ReadsBack decodeInNode toJson m :=
  .tag m.find?_label

theorem EdgeKind.readsBack (k : EdgeKind) : ReadsBack decode toJson k :=
  .label (by cases k <;> decide)

theorem Provenance.readsBack (p : Provenance) : ReadsBack decode toJson p :=
  .label (by cases p <;> decide)

theorem NodeId.readsBack (id : NodeId) : ReadsBack decode toJson id :=
  (ReadsBack.string id.text).map rfl

/-! ## Parts of declarations -/

namespace TypeRef

theorem listToJson_eq_map (ts : List TypeRef) : listToJson ts = ts.map toJson := by
  induction ts with
  | nil => rfl
  | cons t ts ih => rw [listToJson, ih, List.map_cons]

theorem toJson_mk (name : String) (arguments : List TypeRef) :
    toJson ⟨name, arguments⟩ = .object [("qualified_name", .string name),
      ("arguments", .array (arguments.map toJson))] := by
  rw [toJson, listToJson_eq_map]

theorem readsBack_decodeOver {argument : Json → Option TypeRef} {name : String}
    {arguments : List TypeRef} (h : ∀ t ∈ arguments, argument t.toJson = some t) :
    ReadsBack (decodeOver argument) toJson ⟨name, arguments⟩ := by
  have hargument : ∀ t ∈ arguments, ReadsBack (fun _ => argument) toJson t :=
    fun t ht _ _ => h t ht
  refine .fullRecord (toJson_mk name arguments) rfl (by decide) fun r hr => ?_
  obtain ⟨hname, harguments, -⟩ := hr
  rw [(ReadsBack.string _).required hname, (ReadsBack.list hargument).defaulted harguments]
  rfl

/-- A reference is read back. Its arguments stand two levels below it. -/
theorem readsBack (t : TypeRef) : ReadsBack decode toJson t := by
  obtain ⟨name, arguments⟩ := t
  have ih : ∀ t ∈ arguments, ReadsBack decode toJson t := by
    intro t ht
    have hsmaller : sizeOf t < sizeOf arguments := List.sizeOf_lt_of_mem ht
    exact readsBack t
  intro levels hlevels
  have hobject := hlevels
  rw [toJson_mk] at hobject
  obtain ⟨outer, rfl, hmembers⟩ := Json.exists_levels_of_object hobject
  have harray := hmembers _ _ (List.mem_cons_of_mem _ List.mem_cons_self)
  obtain ⟨inner, rfl, hitems⟩ := Json.exists_levels_of_array harray
  rw [decode]
  refine readsBack_decodeOver (fun t ht => ?_) _ hlevels
  exact ih t ht inner (hitems _ (List.mem_map_of_mem ht))
termination_by sizeOf t

theorem readsBack_option (o : Option TypeRef) :
    ReadsBack (Json.decodeOption decode) (Json.ofOption toJson) o := by
  refine .option (fun t _ => t.readsBack) fun ⟨name, arguments⟩ => ?_
  rw [toJson_mk]
  exact nofun

theorem readsBack_list (ts : List TypeRef) :
    ReadsBack (Json.decodeList decode) (fun ts => .array (ts.map toJson)) ts :=
  .list fun t _ => t.readsBack

end TypeRef

theorem AnnotationRef.readsBack (a : AnnotationRef) : ReadsBack decode toJson a := by
  refine .fullRecord rfl rfl (by decide) fun r hr => ?_
  obtain ⟨hname, hsimpleName, hvalues, -⟩ := hr
  rw [(ReadsBack.string _).required hname, (ReadsBack.string _).required hsimpleName,
    (ReadsBack.stringDictionary _).defaulted hvalues]
  rfl

theorem AnnotationRef.readsBack_list (as : List AnnotationRef) :
    ReadsBack (Json.decodeList decode) (fun as => .array (as.map toJson)) as :=
  .list fun a _ => a.readsBack

/-- The line and the column are words of 32 bits. -/
structure Location.InRange (l : Location) : Prop where
  line : l.line < UInt32.size
  column : l.column < UInt32.size

theorem Location.readsBack {l : Location} (h : l.InRange) : ReadsBack decode toJson l := by
  refine .fullRecord rfl rfl (by decide) fun r hr => ?_
  obtain ⟨hfile, hline, hcolumn, -⟩ := hr
  rw [(ReadsBack.string _).required hfile, (ReadsBack.word h.line).required hline,
    (ReadsBack.word h.column).defaulted hcolumn]
  rfl

theorem Location.readsBack_option {o : Option Location} (h : ∀ l ∈ o, l.InRange) :
    ReadsBack (Json.decodeOption decode) (Json.ofOption toJson) o :=
  .option (fun l hl => readsBack (h l hl)) fun _ => nofun

theorem Parameter.readsBack (p : Parameter) : ReadsBack decode toJson p := by
  refine .fullRecord rfl rfl (by decide) fun r hr => ?_
  obtain ⟨hname, htype, hannotations, -⟩ := hr
  rw [(ReadsBack.string _).required hname, p.type.readsBack.required htype,
    (AnnotationRef.readsBack_list _).defaulted hannotations]
  rfl

/-! ## Nodes -/

theorem Modifier.readsBackInNode_list (ms : List Modifier) :
    ReadsBack (Json.decodeList decodeInNode) (fun ms => .array (ms.map toJson)) ms :=
  .list fun m _ => m.readsBackInNode

theorem Parameter.readsBack_list (ps : List Parameter) :
    ReadsBack (Json.decodeList decode) (fun ps => .array (ps.map toJson)) ps :=
  .list fun p _ => p.readsBack

theorem TypeNode.readsBack (kind : Json) {t : TypeNode} (h : ∀ l ∈ t.location, l.InRange) :
    ReadsBack decode (fun t => .object (("node", kind) :: t.members)) t := by
  refine .record ["node"] [] [("node", kind)] rfl rfl rfl (by decide) fun r hr _ => ?_
  obtain ⟨hid, hname, hsimpleName, hpackage, hform, hmodifiers, hsuperType, hinterfaces,
    hannotations, hlocation, -⟩ := hr
  rw [t.id.readsBack.required hid, (ReadsBack.string _).required hname,
    (ReadsBack.string _).required hsimpleName, (ReadsBack.string _).required hpackage,
    t.form.readsBackInNode.required hform,
    (Modifier.readsBackInNode_list _).required hmodifiers,
    (TypeRef.readsBack_option _).optional hsuperType,
    (TypeRef.readsBack_list _).required hinterfaces,
    (AnnotationRef.readsBack_list _).required hannotations,
    (Location.readsBack_option h).optional hlocation]
  rfl

theorem FieldNode.readsBack (kind : Json) {f : FieldNode} (h : ∀ l ∈ f.location, l.InRange) :
    ReadsBack decode (fun f => .object (("node", kind) :: f.members)) f := by
  refine .record ["node"] [] [("node", kind)] rfl rfl rfl (by decide) fun r hr _ => ?_
  obtain ⟨hid, howner, hsimpleName, hpackage, htype, hmodifiers, hannotations, hlocation, -⟩ := hr
  rw [f.id.readsBack.required hid, f.owner.readsBack.required howner,
    (ReadsBack.string _).required hsimpleName, (ReadsBack.string _).required hpackage,
    f.type.readsBack.required htype, (Modifier.readsBackInNode_list _).required hmodifiers,
    (AnnotationRef.readsBack_list _).required hannotations,
    (Location.readsBack_option h).optional hlocation]
  rfl

theorem MethodNode.readsBack (kind : Json) {m : MethodNode} (h : ∀ l ∈ m.location, l.InRange) :
    ReadsBack decode (fun m => .object (("node", kind) :: m.members)) m := by
  refine .record ["node"] [] [("node", kind)] rfl rfl rfl (by decide) fun r hr _ => ?_
  obtain ⟨hid, howner, hsimpleName, hpackage, hreturnType, hparameters, hmodifiers, hannotations,
    hlocation, -⟩ := hr
  rw [m.id.readsBack.required hid, m.owner.readsBack.required howner,
    (ReadsBack.string _).required hsimpleName, (ReadsBack.string _).required hpackage,
    m.returnType.readsBack.required hreturnType,
    (Parameter.readsBack_list _).required hparameters,
    (Modifier.readsBackInNode_list _).required hmodifiers,
    (AnnotationRef.readsBack_list _).required hannotations,
    (Location.readsBack_option h).optional hlocation]
  rfl

theorem ConstructorNode.readsBack (kind : Json) {c : ConstructorNode}
    (h : ∀ l ∈ c.location, l.InRange) :
    ReadsBack decode (fun c => .object (("node", kind) :: c.members)) c := by
  refine .record ["node"] [] [("node", kind)] rfl rfl rfl (by decide) fun r hr _ => ?_
  obtain ⟨hid, howner, hsimpleName, hpackage, hparameters, hmodifiers, hannotations, hlocation, -⟩ :=
    hr
  rw [c.id.readsBack.required hid, c.owner.readsBack.required howner,
    (ReadsBack.string _).required hsimpleName, (ReadsBack.string _).required hpackage,
    (Parameter.readsBack_list _).required hparameters,
    (Modifier.readsBackInNode_list _).required hmodifiers,
    (AnnotationRef.readsBack_list _).required hannotations,
    (Location.readsBack_option h).optional hlocation]
  rfl

namespace Node

/-- The place in the source has a line and a column of 32 bits. -/
def InRange (n : Node) : Prop := ∀ l ∈ n.location, l.InRange

/-- The kind in front says how the fields behind it are read. -/
theorem readsBack_of_fields {n : Node} {kind : NodeKind} {members : List (String × Json)}
    (hjson : n.toJson = .object (("node", kind.toJson) :: members))
    (hkeys : "node" ∉ members.map Prod.fst) (hfields : ReadsBack (decodeFields kind) toJson n) :
    ReadsBack decode toJson n := by
  have hkind : decodeKind kind.toJson = some kind := by
    cases kind <;> rfl
  have hnone : members.countP (·.1 = "node") = 0 := by
    refine List.countP_eq_zero.2 fun member hmember hkey => hkeys ?_
    exact of_decide_eq_true hkey ▸ List.mem_map_of_mem hmember
  have honce : (("node", kind.toJson) :: members).countP (·.1 = "node") ≤ 1 := by
    simp [hnone]
  intro levels hlevels
  have hread := hfields levels hlevels
  rw [hjson] at hread ⊢
  simp only [decode, guard, if_pos honce, List.lookup_cons_self, hkind, Option.pure_def,
    Option.bind_eq_bind, Option.bind_some]
  exact hread

theorem readsBack {n : Node} (h : n.InRange) : ReadsBack decode toJson n := by
  cases n with
  | type t =>
    refine readsBack_of_fields rfl ?_ ((TypeNode.readsBack NodeKind.type.toJson h).map rfl)
    simp [TypeNode.members]
  | field f =>
    refine readsBack_of_fields rfl ?_ ((FieldNode.readsBack NodeKind.field.toJson h).map rfl)
    simp [FieldNode.members]
  | method m =>
    refine readsBack_of_fields rfl ?_ ((MethodNode.readsBack NodeKind.method.toJson h).map rfl)
    simp [MethodNode.members]
  | constructor c =>
    refine readsBack_of_fields rfl ?_
      ((ConstructorNode.readsBack NodeKind.constructor.toJson h).map rfl)
    simp [ConstructorNode.members]

end Node

/-! ## Edges -/

/-- The position of a parameter is a word of 64 bits. -/
def SignaturePosition.InRange : SignaturePosition → Prop
  | .return => True
  | .parameter position => position < UInt64.size

theorem SignaturePosition.readsBack {p : SignaturePosition} (h : p.InRange) :
    ReadsBack decode toJson p := by
  intro levels hlevels
  cases p with
  | «return» => rfl
  | parameter position =>
    obtain ⟨inner, rfl, hmembers⟩ := Json.exists_levels_of_object hlevels
    have hread := ReadsBack.count h inner (hmembers _ _ List.mem_cons_self)
    exact congrArg (Option.map parameter) hread

theorem EdgeProof.readsBack {p : EdgeProof} (h : p.position.InRange) :
    ReadsBack decode toJson p := by
  refine .fullRecord rfl rfl (by decide) fun r hr => ?_
  obtain ⟨hmethod, hposition, -⟩ := hr
  rw [p.method.readsBack.required hmethod, (SignaturePosition.readsBack h).required hposition]
  rfl

/-- The parameter that justifies the edge has a position of 64 bits. -/
def Edge.InRange (e : Edge) : Prop := ∀ p ∈ e.proof, p.position.InRange

theorem Edge.readsBack {e : Edge} (h : e.InRange) : ReadsBack decode toJson e := by
  refine .fullRecord rfl rfl (by decide) fun r hr => ?_
  obtain ⟨hsource, htarget, hkind, hprovenance, hproof, -⟩ := hr
  have hoption := ReadsBack.option (fun p hp => EdgeProof.readsBack (h p hp)) fun _ => nofun
  rw [e.source.readsBack.required hsource, e.target.readsBack.required htarget,
    e.kind.readsBack.required hkind, e.provenance.readsBack.required hprovenance,
    hoption.optional hproof]
  rfl

end RoleAudit
