import Mathlib
import RoleAudit.Element.Id

/-!
# Ids and what they are made from

An id is a text that is put together from names, with a tag for the kind in front and with marks
between the names. The tag can always be read back, whatever the names are, so ids of different kinds
differ. The names can be read back as long as they do not contain the marks that end them: then
`read?` gives back what an id was made from, and two ids are the same only if they were made from the
same.
-/

namespace RoleAudit

theorem NodeKind.colon_not_mem_tag (k : NodeKind) : ':' ∉ k.tag.toList := by
  cases k <;> decide

namespace NodeId

/-! ## The tag and the value -/

/-- An id that starts with the tag of a kind and a colon is of this kind, and its value is the rest. -/
theorem kind?_and_value_of_toList {id : NodeId} {k : NodeKind} (rest : List Char)
    (h : id.text.toList = k.tag.toList ++ ':' :: rest) :
    id.kind? = some k ∧ id.value = String.ofList rest := by
  have htag : NodeKind.all.find? (·.tag = String.ofList k.tag.toList) = some k := by
    cases k <;> decide
  have hcut := Text.cutAtFirst?_append_cons rest k.colon_not_mem_tag
  constructor
  · rw [kind?, h, hcut]
    exact htag
  · rw [value, h, hcut]

/-- What an id is made from: the kind of node and the names that tell it apart. -/
inductive Origin where
  /-- The qualified name of a type. -/
  | type (name : String)
  /-- The owner and the name of a field. -/
  | field (owner name : String)
  /-- The owner, the name and the parameter types of a method. -/
  | method (owner name : String) (parameters : List String)
  /-- The owner and the parameter types of a constructor. -/
  | constructor (owner : String) (parameters : List String)
  deriving DecidableEq, Repr

namespace Origin

/-- The id that is made. -/
def id : Origin → NodeId
  | type name => .ofType name
  | field owner name => .ofField owner name
  | method owner name parameters => .ofMethod owner name parameters
  | constructor owner parameters => .ofConstructor owner parameters

/-- The kind of node. -/
def kind : Origin → NodeKind
  | type _ => .type
  | field .. => .field
  | method .. => .method
  | constructor .. => .constructor

/-- The names and the marks between them. -/
def body : Origin → String
  | type name => name
  | field owner name => owner ++ "#" ++ name
  | method owner name parameters =>
    owner ++ "#" ++ name ++ "(" ++ ",".intercalate parameters ++ ")"
  | constructor owner parameters => owner ++ "#<init>(" ++ ",".intercalate parameters ++ ")"

theorem text_id (o : Origin) : o.id.text = o.kind.tag ++ ":" ++ o.body := by
  cases o <;>
    simp [id, kind, body, ofType, ofField, ofMethod, ofConstructor, NodeKind.tag, ← String.toList_inj]

theorem kind?_and_value (o : Origin) : o.id.kind? = some o.kind ∧ o.id.value = o.body := by
  have htext : o.id.text.toList = o.kind.tag.toList ++ ':' :: o.body.toList := by
    simp [text_id]
  rw [← String.ofList_toList (s := o.body)]
  exact kind?_and_value_of_toList o.body.toList htext

theorem kind?_id (o : Origin) : o.id.kind? = some o.kind := o.kind?_and_value.1

theorem value_id (o : Origin) : o.id.value = o.body := o.kind?_and_value.2

theorem kind_eq_of_id_eq {a b : Origin} (h : a.id = b.id) : a.kind = b.kind := by
  have hkind : some a.kind = some b.kind := by rw [← kind?_id, ← kind?_id, h]
  exact Option.some.inj hkind

/-! ## Reading an id -/

/-- A name of a parameter type that can stand in a list of them. -/
def IsParameterName (name : String) : Prop := name ≠ "" ∧ ',' ∉ name.toList

/-- No name contains the mark that ends it. -/
def Separable : Origin → Prop
  | type _ => True
  | field owner _ => '#' ∉ owner.toList
  | method owner name parameters =>
    '#' ∉ owner.toList ∧ '(' ∉ name.toList ∧ ∀ p ∈ parameters, IsParameterName p
  | constructor owner parameters => '#' ∉ owner.toList ∧ ∀ p ∈ parameters, IsParameterName p

/-- The parameter types that a text between parentheses lists. -/
def readParameters (listed : List Char) : List String :=
  if listed = [] then [] else (listed.splitOn ',').map String.ofList

/-- The name before an opening parenthesis, and the parameter types from there to the end. -/
def readSignature? (chars : List Char) : Option (String × List String) :=
  (Text.cutAtFirst? '(' chars).map fun (name, rest) =>
    (String.ofList name, readParameters rest.dropLast)

/-- Reads what an id was made from, each name up to the first mark that can end it. -/
def read? (id : NodeId) : Option Origin :=
  match id.kind?, Text.cutAtFirst? '#' id.value.toList with
  | some .type, _ => some (type id.value)
  | some .field, some (owner, name) => some (field (String.ofList owner) (String.ofList name))
  | some .method, some (owner, rest) =>
    (readSignature? rest).map fun (name, parameters) =>
      method (String.ofList owner) name parameters
  | some .constructor, some (owner, rest) =>
    (readSignature? rest).map fun (_, parameters) => constructor (String.ofList owner) parameters
  | _, _ => none

theorem readParameters_intercalate {parameters : List String}
    (h : ∀ p ∈ parameters, IsParameterName p) :
    readParameters (",".intercalate parameters).toList = parameters := by
  have hlist : (",".intercalate parameters).toList
      = [','].intercalate (parameters.map String.toList) := String.toList_intercalate
  rw [readParameters, hlist]
  cases parameters with
  | nil => rfl
  | cons first rest =>
    -- a first name that is not empty tells a list of one from the list of none
    have hfirst : first.toList ≠ [] := fun hnil =>
      (h first List.mem_cons_self).1 (String.toList_eq_nil_iff.1 hnil)
    have hne : [','].intercalate ((first :: rest).map String.toList) ≠ [] := by
      cases rest <;> simp [hfirst]
    have hcomma : ∀ p ∈ (first :: rest).map String.toList, ',' ∉ p := by
      intro p hp
      obtain ⟨name, hname, rfl⟩ := List.mem_map.1 hp
      exact (h name hname).2
    rw [if_neg hne, List.splitOn_intercalate ',' hcomma (by simp), List.map_map]
    simp [Function.comp_def]

theorem readSignature?_append {name : String} {parameters : List String}
    (hname : '(' ∉ name.toList) (hparameters : ∀ p ∈ parameters, IsParameterName p) :
    readSignature? (name ++ "(" ++ ",".intercalate parameters ++ ")").toList
      = some (name, parameters) := by
  have hchars : (name ++ "(" ++ ",".intercalate parameters ++ ")").toList
      = name.toList ++ '(' :: ((",".intercalate parameters).toList ++ [')']) := by
    simp
  rw [readSignature?, hchars, Text.cutAtFirst?_append_cons _ hname]
  simp only [Option.map_some, List.dropLast_concat, readParameters_intercalate hparameters,
    String.ofList_toList]

/-- Reading undoes the making of an id. -/
theorem read?_id {o : Origin} (h : o.Separable) : read? o.id = some o := by
  have hcut : ∀ {owner rest : String}, o.body = owner ++ "#" ++ rest → '#' ∉ owner.toList →
      Text.cutAtFirst? '#' o.id.value.toList = some (owner.toList, rest.toList) := by
    intro owner rest hbody howner
    have hchars : o.id.value.toList = owner.toList ++ '#' :: rest.toList := by
      simp [value_id, hbody]
    rw [hchars, Text.cutAtFirst?_append_cons _ howner]
  have hkind := o.kind?_id
  cases o with
  | type name => simp only [read?, hkind, kind, value_id, body]
  | field owner name => simp only [read?, hkind, kind, hcut rfl h, String.ofList_toList]
  | method owner name parameters =>
    obtain ⟨howner, hname, hparameters⟩ := h
    have hbody : (method owner name parameters).body
        = owner ++ "#" ++ (name ++ "(" ++ ",".intercalate parameters ++ ")") := by
      simp only [body, String.append_assoc]
    simp only [read?, hkind, kind, hcut hbody howner, readSignature?_append hname hparameters,
      Option.map_some, String.ofList_toList]
  | constructor owner parameters =>
    obtain ⟨howner, hparameters⟩ := h
    have hbody : (constructor owner parameters).body
        = owner ++ "#" ++ ("<init>" ++ "(" ++ ",".intercalate parameters ++ ")") := by
      simp [body, ← String.toList_inj]
    have hinit : '(' ∉ "<init>".toList := by decide
    simp only [read?, hkind, kind, hcut hbody howner, readSignature?_append hinit hparameters,
      Option.map_some, String.ofList_toList]

/-- An id tells what it was made from. Where no name contains the mark that ends it, two ids are the
same exactly if they were made alike: by the same kind of node, from the same names. Whatever the
names are, ids of different kinds differ; the kind that is read is the one that the id was made for,
and the value is the text after the first colon, which the tag of a kind does not have. -/
theorem id_tells_origin :
    (∀ a b : Origin, a.Separable → b.Separable → (a.id = b.id ↔ a = b)) ∧
    (∀ a b : Origin, a.kind ≠ b.kind → a.id ≠ b.id) ∧
    ∀ a : Origin, a.id.kind? = some a.kind ∧ a.id.value = a.body ∧
      a.id.text = a.kind.tag ++ ":" ++ a.id.value ∧ ':' ∉ a.kind.tag.toList := by
  refine ⟨fun a b ha hb => ⟨fun heq => ?_, congrArg id⟩,
    fun a b hne heq => hne (kind_eq_of_id_eq heq),
    fun a => ⟨a.kind?_id, a.value_id, by rw [value_id, text_id], a.kind.colon_not_mem_tag⟩⟩
  have hread : some a = some b := by rw [← read?_id ha, ← read?_id hb, heq]
  exact Option.some.inj hread

/-- Two overloads, of which one has no parameters, have different ids, and both are methods. -/
theorem overloads_have_ids_of_their_own :
    let once := method "shop.Order" "ship" []
    let twice := method "shop.Order" "ship" ["java.lang.String", "int"]
    once.Separable ∧ twice.Separable ∧ once.id ≠ twice.id ∧ twice.id.kind? = some .method := by
  obtain ⟨hsame, -, hparts⟩ := id_tells_origin
  have honce : (method "shop.Order" "ship" []).Separable :=
    ⟨by decide, by decide, nofun⟩
  have htwice : (method "shop.Order" "ship" ["java.lang.String", "int"]).Separable :=
    ⟨by decide, by decide, by simp [IsParameterName]⟩
  exact ⟨honce, htwice, mt (hsame _ _ honce htwice).1 (by decide), (hparts _).1⟩

/-- A parameter type without a name would be taken for no parameter. -/
example : (method "shop.Order" "ship" [""]).id = (method "shop.Order" "ship" []).id := by decide

end Origin

end NodeId

end RoleAudit
