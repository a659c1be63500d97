import RoleAudit.Classification.Result
import RoleAudit.Model.Codec
import RoleAudit.Proofs.Element.ReadBack
import RoleAudit.Settings.Codec

/-!
# Models, settings and results read back

What is kept in files or handed on as JSON is read back as it was: models, settings, nodes, edges and
results of classification, with whatever texts and however deep their type references go. The only
condition is that numbers are in the range of the words that hold them.
-/

namespace RoleAudit

open Json (ReadsBack)

/-! ## Models -/

theorem Modifier.readsBack_list (ms : List Modifier) :
    ReadsBack (Json.decodeList decode) (fun ms => .array (ms.map toJson)) ms :=
  .list fun m _ => m.readsBack

theorem SourceField.readsBack {f : SourceField} (h : ∀ l ∈ f.location, l.InRange) :
    ReadsBack decode toJson f := by
  refine .fullRecord rfl rfl (by decide) fun r hr => ?_
  obtain ⟨hname, htype, hmodifiers, hannotations, hlocation, -⟩ := hr
  rw [(ReadsBack.string _).required hname, f.type.readsBack.required htype,
    (Modifier.readsBack_list _).defaulted hmodifiers,
    (AnnotationRef.readsBack_list _).defaulted hannotations,
    (Location.readsBack_option h).optionalTail hlocation]
  rfl

theorem SourceParameter.readsBack (p : SourceParameter) : ReadsBack decode toJson p := by
  refine .fullRecord rfl rfl (by decide) fun r hr => ?_
  obtain ⟨hname, htype, hannotations, -⟩ := hr
  rw [(ReadsBack.string _).required hname, p.type.readsBack.required htype,
    (AnnotationRef.readsBack_list _).defaulted hannotations]
  rfl

theorem SourceParameter.readsBack_list (ps : List SourceParameter) :
    ReadsBack (Json.decodeList decode) (fun ps => .array (ps.map toJson)) ps :=
  .list fun p _ => p.readsBack

theorem SourceMethod.readsBack {m : SourceMethod} (h : ∀ l ∈ m.location, l.InRange) :
    ReadsBack decode toJson m := by
  refine .fullRecord rfl rfl (by decide) fun r hr => ?_
  obtain ⟨hname, hreturnType, hparameters, hmodifiers, hannotations, hlocation, -⟩ := hr
  rw [(ReadsBack.string _).required hname, m.returnType.readsBack.required hreturnType,
    (SourceParameter.readsBack_list _).defaulted hparameters,
    (Modifier.readsBack_list _).defaulted hmodifiers,
    (AnnotationRef.readsBack_list _).defaulted hannotations,
    (Location.readsBack_option h).optionalTail hlocation]
  rfl

theorem SourceConstructor.readsBack {c : SourceConstructor} (h : ∀ l ∈ c.location, l.InRange) :
    ReadsBack decode toJson c := by
  refine .fullRecord rfl rfl (by decide) fun r hr => ?_
  obtain ⟨hparameters, hmodifiers, hannotations, hlocation, -⟩ := hr
  rw [(SourceParameter.readsBack_list _).defaulted hparameters,
    (Modifier.readsBack_list _).defaulted hmodifiers,
    (AnnotationRef.readsBack_list _).defaulted hannotations,
    (Location.readsBack_option h).optionalTail hlocation]
  rfl

/-- Every place in the source has a line and a column of 32 bits. -/
structure SourceType.InRange (t : SourceType) : Prop where
  location : ∀ l ∈ t.location, l.InRange
  fields : ∀ f ∈ t.fields, ∀ l ∈ f.location, l.InRange
  methods : ∀ m ∈ t.methods, ∀ l ∈ m.location, l.InRange
  constructors : ∀ c ∈ t.constructors, ∀ l ∈ c.location, l.InRange

theorem SourceType.readsBack {t : SourceType} (h : t.InRange) : ReadsBack decode toJson t := by
  refine .fullRecord rfl rfl (by decide) fun r hr => ?_
  obtain ⟨hname, hform, hmodifiers, hannotations, hsuperType, hinterfaces, hfields, hmethods,
    hconstructors, hlocation, -⟩ := hr
  rw [(ReadsBack.string _).required hname, t.form.readsBack.required hform,
    (Modifier.readsBack_list _).defaulted hmodifiers,
    (AnnotationRef.readsBack_list _).defaulted hannotations,
    (TypeRef.readsBack_option _).optionalTail hsuperType,
    (TypeRef.readsBack_list _).defaulted hinterfaces,
    (ReadsBack.list fun f hf => SourceField.readsBack (h.fields f hf)).defaulted hfields,
    (ReadsBack.list fun m hm => SourceMethod.readsBack (h.methods m hm)).defaulted hmethods,
    (ReadsBack.list fun c hc => SourceConstructor.readsBack (h.constructors c hc)).defaulted
      hconstructors,
    (Location.readsBack_option h.location).optionalTail hlocation]
  rfl

/-- Every place in the source has a line and a column of 32 bits. -/
def Model.InRange (m : Model) : Prop := ∀ t ∈ m.types, t.InRange

theorem Model.readsBack {m : Model} (h : m.InRange) : ReadsBack decode toJson m := by
  refine .fullRecord rfl rfl (by decide) fun r hr => ?_
  obtain ⟨hrootPackage, hlanguageLevel, htypes, -⟩ := hr
  rw [(ReadsBack.stringOption _).optionalTail hrootPackage,
    (ReadsBack.stringOption _).optionalTail hlanguageLevel,
    (ReadsBack.list fun t ht => SourceType.readsBack (h t ht)).defaulted htypes]
  rfl

/-! ## Settings -/

theorem ClassificationPolicy.readsBack (p : ClassificationPolicy) :
    ReadsBack (decodeWith .json) toJson p := by
  refine .fullRecord rfl rfl (by decide) fun r hr => ?_
  obtain ⟨hunclassified, hconflict, -⟩ := hr
  rw [(ReadsBack.bool _).defaulted hunclassified, (ReadsBack.bool _).defaulted hconflict]
  rfl

theorem ClassificationSettings.readsBack (s : ClassificationSettings) :
    ReadsBack (decodeWith .json) toJson s := by
  refine .fullRecord rfl rfl (by decide) fun r hr => ?_
  obtain ⟨hexcludePatterns, hexplicit, hpolicy, -⟩ := hr
  rw [(ReadsBack.strings _).defaulted hexcludePatterns,
    (ReadsBack.stringDictionary _).defaulted hexplicit, s.policy.readsBack.defaulted hpolicy]
  rfl

/-- Both limits are words of 64 bits. -/
structure CycleSettings.InRange (s : CycleSettings) : Prop where
  maxCycles : s.maxCycles < UInt64.size
  maxDependenciesPerEdge : s.maxDependenciesPerEdge < UInt64.size

theorem CycleSettings.readsBack {s : CycleSettings} (h : s.InRange) :
    ReadsBack (decodeWith .json) toJson s := by
  refine .fullRecord rfl rfl (by decide) fun r hr => ?_
  obtain ⟨hmaxCycles, hmaxDependencies, hincludeDerived, -⟩ := hr
  rw [(ReadsBack.count h.maxCycles).defaulted hmaxCycles,
    (ReadsBack.count h.maxDependenciesPerEdge).defaulted hmaxDependencies,
    (ReadsBack.bool _).defaulted hincludeDerived]
  rfl

theorem Severity.readsBack (s : Severity) : ReadsBack SettingsDialect.json.severity toJson s :=
  .label (by cases s <;> decide)

theorem ConstraintSettings.readsBack (s : ConstraintSettings) :
    ReadsBack (decodeWith .json) toJson s := by
  refine .fullRecord rfl rfl (by decide) fun r hr => ?_
  obtain ⟨hdisabled, hoverrides, hprefixes, hfailOn, -⟩ := hr
  have hseverities := ReadsBack.dictionary
    fun (v : Severity) (_ : v ∈ s.severityOverrides.entries.map Prod.snd) => v.readsBack
  rw [(ReadsBack.strings _).defaulted hdisabled, hseverities.defaulted hoverrides,
    (ReadsBack.strings _).defaulted hprefixes, s.failOn.readsBack.defaulted hfailOn]
  rfl

theorem Settings.readsBack {s : Settings} (h : s.cycles.InRange) : ReadsBack decode toJson s := by
  refine .fullRecord rfl rfl (by decide) fun r hr => ?_
  obtain ⟨hclassification, hcycles, hconstraints, -⟩ := hr
  rw [s.classification.readsBack.defaulted hclassification,
    (CycleSettings.readsBack h).defaulted hcycles, s.constraints.readsBack.defaulted hconstraints]
  rfl

/-! ## Results of classification -/

theorem Family.readsBack (f : Family) : ReadsBack decode toJson f :=
  .label (by cases f <;> decide)

theorem Direction.readsBack (d : Direction) : ReadsBack decode toJson d :=
  .label (by cases d <;> decide)

theorem Role.readsBack (r : Role) : ReadsBack decode toJson r :=
  .label (by cases r <;> decide)

theorem Confidence.readsBack (c : Confidence) : ReadsBack decode toJson c :=
  .label (by cases c <;> decide)

theorem Status.readsBack (s : Status) : ReadsBack decode toJson s :=
  .label (by cases s <;> decide)

theorem EvidenceKind.readsBack (k : EvidenceKind) :
    ReadsBack (Json.decodeLabel all label) (fun k => .string (label k)) k :=
  .label (by cases k <;> decide)

theorem ConflictSeverity.readsBack (s : ConflictSeverity) :
    ReadsBack (Json.decodeLabel all label) (fun s => .string (label s)) s :=
  .label (by cases s <;> decide)

theorem Evidence.readsBack (e : Evidence) : ReadsBack decode toJson e := by
  refine .fullRecord rfl rfl (by decide) fun r hr => ?_
  obtain ⟨hkind, hdescription, hrelated, -⟩ := hr
  have hids := ReadsBack.list fun (id : NodeId) (_ : id ∈ e.relatedNodes) => id.readsBack
  rw [e.kind.readsBack.required hkind, (ReadsBack.string _).required hdescription,
    hids.required hrelated]
  rfl

theorem Evidence.readsBack_list (es : List Evidence) :
    ReadsBack (Json.decodeList decode) (fun es => .array (es.map toJson)) es :=
  .list fun e _ => e.readsBack

theorem Conflict.readsBack {c : Conflict} (h : c.priority < UInt32.size) :
    ReadsBack decode toJson c := by
  refine .fullRecord rfl rfl (by decide) fun r hr => ?_
  obtain ⟨hrole, hcriterion, hpriority, hconfidence, hjustification, hseverity, -⟩ := hr
  rw [c.role.readsBack.required hrole, (ReadsBack.string _).required hcriterion,
    (ReadsBack.word h).required hpriority, c.confidence.readsBack.required hconfidence,
    (ReadsBack.string _).required hjustification, c.severity.readsBack.required hseverity]
  rfl

/-- All priorities are words of 32 bits. -/
structure ClassificationResult.InRange (r : ClassificationResult) : Prop where
  priority : ∀ p ∈ r.priority, p < UInt32.size
  conflicts : ∀ c ∈ r.conflicts, c.priority < UInt32.size

/-- A result is read back. Diagnostics are written only where there are some. -/
theorem ClassificationResult.readsBack {r : ClassificationResult} (h : r.InRange) :
    ReadsBack decode toJson r := by
  refine .record [] (if r.diagnostics.isEmpty then ["diagnostics"] else []) [] rfl rfl ?_ (by decide)
    fun s hs habsent => ?_
  · cases r.diagnostics.isEmpty <;> rfl
  obtain ⟨hnodeId, hstatus, htarget, hrole, hconfidence, hpriority, hcriterion, hjustification,
    hevidence, hconflicts, hdirection, hrest⟩ := hs
  have hdiagnostics : s.defaulted "diagnostics" [] (Json.decodeList Evidence.decode)
      = some r.diagnostics := by
    cases hempty : r.diagnostics.isEmpty with
    | true =>
      rw [hempty] at habsent
      rw [Json.Record.defaulted_of_missing habsent.1, List.isEmpty_iff.1 hempty]
    | false =>
      rw [hempty] at hrest
      exact (Evidence.readsBack_list _).defaulted hrest.1
  rw [r.nodeId.readsBack.required hnodeId, r.status.readsBack.required hstatus,
    (ReadsBack.option (fun f _ => Family.readsBack f) fun _ => nofun).optional htarget,
    (ReadsBack.option (fun r _ => Role.readsBack r) fun _ => nofun).optional hrole,
    (ReadsBack.option (fun c _ => Confidence.readsBack c) fun _ => nofun).optional hconfidence,
    (ReadsBack.option (fun p hp => ReadsBack.word (h.priority p hp)) fun _ => nofun).optional
      hpriority,
    (ReadsBack.stringOption _).optional hcriterion,
    (ReadsBack.stringOption _).optional hjustification,
    (Evidence.readsBack_list _).required hevidence,
    (ReadsBack.list fun c hc => Conflict.readsBack (h.conflicts c hc)).required hconflicts,
    (ReadsBack.option (fun d _ => Direction.readsBack d) fun _ => nofun).optional hdirection,
    hdiagnostics]
  rfl

/-! ## All of it -/

namespace Json

/-- What is written as JSON is read back as it was. -/
theorem written_reads_back :
    (∀ m : Model, m.InRange → Decoder.ofValue? Model.decode m.toJson = some m)
      ∧ (∀ s : Settings, s.cycles.InRange → Decoder.ofValue? Settings.decode s.toJson = some s)
      ∧ (∀ n : Node, n.InRange → Decoder.ofValue? Node.decode n.toJson = some n)
      ∧ (∀ e : Edge, e.InRange → Decoder.ofValue? Edge.decode e.toJson = some e)
      ∧ ∀ r : ClassificationResult, r.InRange →
        Decoder.ofValue? ClassificationResult.decode r.toJson = some r := by
  refine ⟨fun m hm => ?_, fun s hs => ?_, fun n hn => ?_, fun e he => ?_, fun r hr => ?_⟩
  · exact (Model.readsBack hm).ofValue?_eq
  · exact (Settings.readsBack hs).ofValue?_eq
  · exact (Node.readsBack hn).ofValue?_eq
  · exact (Edge.readsBack he).ofValue?_eq
  · exact (ClassificationResult.readsBack hr).ofValue?_eq

section Example

/-- The last line and the last column that a word holds. -/
def lastPlace : Location := { file := "Atlas.java", line := 4294967295, column := 4294967295 }

/-- A map from keys to lists of sheets. -/
def sheetIndex : TypeRef :=
  ⟨"java.util.Map", [.plain "atlas.Key", ⟨"java.util.List", [.plain "atlas.Sheet"]⟩]⟩

def indexField : SourceField := { name := "index", type := sheetIndex, location := some lastPlace }

/-- An annotated type whose field stands at the last place, in a model without a root package. -/
def atlas : Model where
  languageLevel := some ""
  types := [{
    name := "atlas.Atlas"
    form := .record
    modifiers := [.publicAccess, .sealed]
    annotations := [(AnnotationRef.ofName "atlas.Printed").withValue "scale" "1:\"25\""]
    superType := some sheetIndex
    fields := [indexField] }]

def wideSettings : Settings where
  classification := { explicit := .ofList [("atlas.Sheet", "ENTITY"), ("atlas.Key", "IDENTIFIER")] }
  cycles := { maxCycles := 0, maxDependenciesPerEdge := 18446744073709551615 }
  constraints := { severityOverrides := .ofList [("ddd:aggregate-cycle", .info)] }

def indexNode : Node := .field {
  id := .ofField "atlas.Atlas" "index"
  owner := .ofType "atlas.Atlas"
  simpleName := "index"
  package := "atlas"
  type := sheetIndex
  modifiers := [.final]
  annotations := []
  location := some lastPlace }

/-- An edge that the last parameter of a method justifies. -/
def lastParameterEdge : Edge :=
  .signatureUse ⟨"type:a"⟩ ⟨"type:b"⟩ ⟨⟨"method:a#m()"⟩, .parameter 18446744073709551615⟩

/-- A result with a warning and a diagnostic beside it. -/
def reviewed : ClassificationResult where
  nodeId := ⟨"type:atlas.Sheet"⟩
  status := .classified
  target := some .domain
  role := some .entity
  priority := some 4294967295
  evidence := [.ofRelationship "is reached" [⟨"type:atlas.Atlas"⟩]]
  conflicts := [⟨.aggregateRoot, "naming", 0, .low, "by name", .warning⟩]
  diagnostics := [.ofDiagnostic "a criterion failed"]

theorem lastPlace_inRange : lastPlace.InRange := ⟨by decide, by decide⟩

/-- Nested references, quotes in a text, the greatest numbers and a result with diagnostics. -/
theorem atlas_reads_back :
    Decoder.ofValue? Model.decode atlas.toJson = some atlas
      ∧ Decoder.ofValue? Settings.decode wideSettings.toJson = some wideSettings
      ∧ Decoder.ofValue? Node.decode indexNode.toJson = some indexNode
      ∧ Decoder.ofValue? Edge.decode lastParameterEdge.toJson = some lastParameterEdge
      ∧ Decoder.ofValue? ClassificationResult.decode reviewed.toJson = some reviewed := by
  obtain ⟨hmodel, hsettings, hnode, hedge, hresult⟩ := written_reads_back
  have hlast : ∀ l ∈ some lastPlace, l.InRange := by
    rintro l ⟨⟩
    exact lastPlace_inRange
  have hatlas : atlas.InRange := by
    intro t ht
    obtain rfl := List.mem_singleton.1 ht
    refine ⟨nofun, fun f hf => ?_, nofun, nofun⟩
    obtain rfl := List.mem_singleton.1 hf
    exact hlast
  refine ⟨hmodel _ hatlas, hsettings _ ⟨by decide, by decide⟩, hnode _ hlast, hedge _ ?_,
    hresult _ ⟨?_, ?_⟩⟩
  · rintro p ⟨⟩
    show 18446744073709551615 < UInt64.size
    decide
  · rintro p ⟨⟩
    decide
  · simp [reviewed]

end Example

end Json

end RoleAudit
