import Mathlib.Data.List.Nodup
import RoleAudit.Json.Decoder

/-!
# Reading back what was written

A reader is told how many levels it may open, so it gives a written value back as long as the levels
are at least the depth of the value. This is `ReadsBack`, with one lemma for each way to put a reader
together.

A record is written as an object. `ReadsBack.record` opens it: every member is then held by the record
under its key, with levels enough to read it, and what remains of the reader is its fields one after
the other. An object may have members that the record has no field for, and lack fields that the
writer left out.
-/

namespace RoleAudit

/-- The keys of a dictionary ascend, so putting its entries together again changes nothing. -/
theorem Dictionary.ofList_entries {β : Type} (d : Dictionary β) : ofList d.entries = d := by
  obtain ⟨entries, hascending⟩ := d
  rw [Dictionary.mk.injEq]
  exact entries_ofList hascending

namespace Json

/-! ## Depth -/

theorem depth_le_depthOfItems {item : Json} {items : List Json} (h : item ∈ items) :
    item.depth ≤ depthOfItems items := by
  induction items with
  | nil => cases h
  | cons first rest ih =>
    rw [depthOfItems]
    rcases List.mem_cons.1 h with rfl | h
    · exact Nat.le_max_left _ _
    · exact Nat.le_trans (ih h) (Nat.le_max_right _ _)

theorem depth_le_depthOfMembers {key : String} {value : Json} {members : List (String × Json)}
    (h : (key, value) ∈ members) : value.depth ≤ depthOfMembers members := by
  induction members with
  | nil => cases h
  | cons first rest ih =>
    rw [depthOfMembers]
    rcases List.mem_cons.1 h with rfl | h
    · exact Nat.le_max_left _ _
    · exact Nat.le_trans (ih h) (Nat.le_max_right _ _)

theorem exists_levels_of_array {items : List Json} {levels : Nat}
    (h : (Json.array items).depth ≤ levels) :
    ∃ inner, levels = inner + 1 ∧ ∀ item ∈ items, item.depth ≤ inner := by
  rw [depth] at h
  obtain ⟨inner, rfl⟩ : ∃ inner, levels = inner + 1 := ⟨levels - 1, by omega⟩
  refine ⟨inner, rfl, fun item hitem => ?_⟩
  have hdepth := depth_le_depthOfItems hitem
  omega

theorem exists_levels_of_object {members : List (String × Json)} {levels : Nat}
    (h : (Json.object members).depth ≤ levels) :
    ∃ inner, levels = inner + 1 ∧ ∀ key value, (key, value) ∈ members → value.depth ≤ inner := by
  rw [depth] at h
  obtain ⟨inner, rfl⟩ : ∃ inner, levels = inner + 1 := ⟨levels - 1, by omega⟩
  refine ⟨inner, rfl, fun key value hmember => ?_⟩
  have hdepth := depth_le_depthOfMembers hmember
  omega

/-! ## Scalars, lists and dictionaries -/

variable {α β : Type} {decode : Decoder α} {encode : α → Json}

/-- The reader gives `a` back from what was written for it, if it may open the levels of this. -/
def ReadsBack (decode : Decoder α) (encode : α → Json) (a : α) : Prop :=
  ∀ levels, (encode a).depth ≤ levels → decode levels (encode a) = some a

namespace ReadsBack

theorem ofValue?_eq {a : α} (h : ReadsBack decode encode a) :
    Decoder.ofValue? decode (encode a) = some a :=
  h _ (Nat.le_refl _)

theorem string (s : String) : ReadsBack decodeString .string s :=
  fun _ _ => rfl

theorem bool (b : Bool) : ReadsBack decodeBool .bool b :=
  fun _ _ => rfl

theorem nat {bound n : Nat} (h : n < bound) : ReadsBack (decodeNat bound) .ofNat n :=
  fun _ _ => if_pos h

theorem word {n : Nat} (h : n < UInt32.size) : ReadsBack decodeWord .ofNat n :=
  nat h

theorem count {n : Nat} (h : n < UInt64.size) : ReadsBack decodeCount .ofNat n :=
  nat h

/-- A label is read back if the list of all values has it once. -/
theorem label {all : List α} {label : α → String} {a : α}
    (h : all.find? (label · = label a) = some a) :
    ReadsBack (decodeLabel all label) (fun a => .string (label a)) a :=
  fun _ _ => h

theorem tag {all : List α} {label : α → String} {a : α}
    (h : all.find? (label · = label a) = some a) :
    ReadsBack (decodeTag all label) (fun a => .string (label a)) a := by
  intro levels _
  rw [decodeTag]
  · exact h
  · exact nofun

theorem map {wrap : α → β} {write : β → Json} {a : α} (h : ReadsBack decode encode a)
    (hwrite : write (wrap a) = encode a) :
    ReadsBack (fun levels value => (decode levels value).map wrap) write (wrap a) := by
  intro levels hlevels
  rw [hwrite] at hlevels ⊢
  exact congrArg (Option.map wrap) (h levels hlevels)

theorem option {o : Option α} (h : ∀ a ∈ o, ReadsBack decode encode a)
    (hnull : ∀ a, encode a ≠ .null) :
    ReadsBack (decodeOption decode) (ofOption encode) o := by
  intro levels hlevels
  cases o with
  | none => rfl
  | some a =>
    have hread : decodeOption decode levels (encode a) = (decode levels (encode a)).map some := by
      rw [decodeOption]
      exact hnull a
    rw [ofOption, hread, h a rfl levels hlevels, Option.map_some]

theorem stringOption (o : Option String) :
    ReadsBack (decodeOption decodeString) (ofOption .string) o :=
  option (fun s _ => string s) fun _ => nofun

theorem mapM_map_eq_some {f : β → Option α} {g : α → β} {as : List α}
    (h : ∀ a ∈ as, f (g a) = some a) : (as.map g).mapM f = some as := by
  induction as with
  | nil => rfl
  | cons a as ih =>
    have hrest := ih fun b hb => h b (List.mem_cons_of_mem _ hb)
    rw [List.map_cons, List.mapM_cons, h a List.mem_cons_self, hrest]
    rfl

theorem list {as : List α} (h : ∀ a ∈ as, ReadsBack decode encode a) :
    ReadsBack (decodeList decode) (fun as => .array (as.map encode)) as := by
  intro levels hlevels
  obtain ⟨inner, rfl, hfits⟩ := exists_levels_of_array hlevels
  rw [decodeList]
  refine mapM_map_eq_some fun a ha => ?_
  exact h a ha inner (hfits _ (List.mem_map_of_mem ha))

theorem strings (texts : List String) : ReadsBack (decodeList decodeString) ofStrings texts :=
  list fun s _ => string s

theorem dictionary {d : Dictionary α} (h : ∀ a ∈ d.entries.map Prod.snd, ReadsBack decode encode a) :
    ReadsBack (decodeDictionary decode) (ofDictionary encode) d := by
  intro levels hlevels
  obtain ⟨inner, rfl, hfits⟩ := exists_levels_of_object hlevels
  have hentries : (d.entries.map fun entry => (entry.1, encode entry.2)).mapM
      (fun member => (decode inner member.2).map fun a => (member.1, a)) = some d.entries := by
    refine mapM_map_eq_some fun entry hentry => ?_
    have hread := h _ (List.mem_map_of_mem hentry) inner (hfits _ _ (List.mem_map_of_mem hentry))
    simp only [hread, Option.map_some]
  calc decodeDictionary decode (inner + 1) (ofDictionary encode d)
      = some (Dictionary.ofList d.entries) := congrArg (Option.map Dictionary.ofList) hentries
    _ = some d := congrArg some d.ofList_entries

theorem stringDictionary (d : Dictionary String) :
    ReadsBack (decodeDictionary decodeString) (ofDictionary .string) d :=
  dictionary fun s _ => string s

end ReadsBack

/-! ## Records -/

/-- The record has this value under the key and may open the levels of the value. -/
structure Record.Holds (r : Record) (key : String) (value : Json) : Prop where
  slot : r.slot key = .value value
  fits : value.depth ≤ r.levels

/-- The record holds every one of these members. -/
def Record.HoldsAll (r : Record) : List (String × Json) → Prop
  | [] => True
  | (key, value) :: members => r.Holds key value ∧ r.HoldsAll members

/-- The record has nothing under any of these keys. -/
def Record.LacksAll (r : Record) : List String → Prop
  | [] => True
  | key :: keys => r.slot key = .missing ∧ r.LacksAll keys

theorem Record.holdsAll_iff {r : Record} {members : List (String × Json)} :
    r.HoldsAll members ↔ ∀ key value, (key, value) ∈ members → r.Holds key value := by
  induction members with
  | nil => simp [HoldsAll]
  | cons first rest ih =>
    rw [HoldsAll, ih]
    constructor
    · rintro ⟨hfirst, hrest⟩ key value hmember
      rcases List.mem_cons.1 hmember with rfl | hmember
      · exact hfirst
      · exact hrest key value hmember
    · intro h
      exact ⟨h _ _ List.mem_cons_self, fun key value hmember =>
        h key value (List.mem_cons_of_mem _ hmember)⟩

theorem Record.lacksAll_iff {r : Record} {keys : List String} :
    r.LacksAll keys ↔ ∀ key ∈ keys, r.slot key = .missing := by
  induction keys with
  | nil => simp [LacksAll]
  | cons key keys ih => rw [LacksAll, ih, List.forall_mem_cons]

theorem Record.defaulted_of_missing {r : Record} {key : String} {fallback : α}
    (h : r.slot key = .missing) : r.defaulted key fallback decode = some fallback := by
  rw [defaulted, h]

namespace ReadsBack

variable {r : Record} {key : String}

theorem required {a : α} (ha : ReadsBack decode encode a) (h : r.Holds key (encode a)) :
    r.required key decode = some a := by
  rw [Record.required, h.slot]
  exact ha r.levels h.fits

theorem defaulted {fallback a : α} (ha : ReadsBack decode encode a) (h : r.Holds key (encode a)) :
    r.defaulted key fallback decode = some a := by
  rw [Record.defaulted, h.slot]
  exact ha r.levels h.fits

theorem optional {o : Option α} (ho : ReadsBack (decodeOption decode) (ofOption encode) o)
    (h : r.Holds key (ofOption encode o)) : r.optional key decode = some o := by
  rw [Record.optional, h.slot]
  exact ho r.levels h.fits

theorem optionalTail {o : Option α} (ho : ReadsBack (decodeOption decode) (ofOption encode) o)
    (h : r.Holds key (ofOption encode o)) : r.optionalTail key decode = some o :=
  ho.defaulted h

end ReadsBack

theorem lookup_eq_some_of_mem {members : List (String × β)} (hkeys : (members.map Prod.fst).Nodup)
    {key : String} {value : β} (h : (key, value) ∈ members) : members.lookup key = some value := by
  obtain ⟨before, behind, rfl⟩ := List.append_of_mem h
  rw [List.map_append, List.map_cons] at hkeys
  refine List.lookup_eq_some_iff.2 ⟨before, behind, rfl, fun entry hentry => bne_iff_ne.2 ?_⟩
  rintro rfl
  have hapart := (List.nodup_append.1 hkeys).2.2
  exact hapart _ (List.mem_map_of_mem hentry) _ List.mem_cons_self rfl

theorem countP_key_le_one {members : List (String × β)} (hkeys : (members.map Prod.fst).Nodup)
    (key : String) : members.countP (·.1 = key) ≤ 1 := by
  have hcount := List.nodup_iff_count_le_one.1 hkeys key
  rw [List.count, List.countP_map] at hcount
  exact hcount

/-- An object with distinct keys opens as a record that holds every member that is a field and misses
every field that is no member. -/
theorem Record.ofJson?_object (fields : List String) {members : List (String × Json)} {levels : Nat}
    (hkeys : (members.map Prod.fst).Nodup) (hlevels : (Json.object members).depth ≤ levels) :
    ∃ r, Record.ofJson? fields levels (.object members) = some r
      ∧ (∀ key value, (key, value) ∈ members → key ∈ fields → r.Holds key value)
      ∧ ∀ field ∈ fields, field ∉ members.map Prod.fst → r.slot field = .missing := by
  obtain ⟨inner, rfl, hfits⟩ := exists_levels_of_object hlevels
  have hslot : ∀ field ∈ fields,
      ((fields.map fun field => (field, slotOfMembers members field)).lookup field).getD .missing
        = slotOfMembers members field := by
    intro field hfield
    rw [List.lookup_graph _ hfield, Option.getD_some]
  refine ⟨_, if_pos ?_, fun key value hmember hfield => ⟨?_, hfits key value hmember⟩, ?_⟩
  · exact List.all_eq_true.2 fun field _ => decide_eq_true (countP_key_le_one hkeys field)
  · refine (hslot key hfield).trans ?_
    rw [slotOfMembers, lookup_eq_some_of_mem hkeys hmember]
  · intro field hfield hmissing
    refine (hslot field hfield).trans ?_
    have hnone : members.lookup field = none := by
      refine List.lookup_eq_none_iff.2 fun entry hentry => bne_iff_ne.2 ?_
      rintro rfl
      exact hmissing (List.mem_map_of_mem hentry)
    rw [slotOfMembers, hnone]

/-- A record is read back if it is, field by field, off a record that holds the members. In front of
the members may stand `extra` ones, under the keys `others` that are no fields, and the writer may have
left out the `absent` fields at the end. -/
theorem ReadsBack.record {fields : List String} {members : List (String × Json)}
    {build : Record → Option α} {a : α} (others absent : List String)
    (extra : List (String × Json)) (hencode : encode a = .object (extra ++ members))
    (hextra : extra.map Prod.fst = others) (hfields : members.map Prod.fst ++ absent = fields)
    (hdistinct : (others ++ fields).Nodup)
    (hbuild : ∀ r : Record, r.HoldsAll members → r.LacksAll absent → build r = some a) :
    ReadsBack (fun levels value => Record.ofJson? fields levels value >>= build) encode a := by
  intro levels hlevels
  rw [hencode] at hlevels ⊢
  subst hextra hfields
  rw [← List.append_assoc, ← List.map_append] at hdistinct
  have hkeys : ((extra ++ members).map Prod.fst).Nodup := hdistinct.of_append_left
  obtain ⟨r, hr, hholds, hmissing⟩ :=
    Record.ofJson?_object (members.map Prod.fst ++ absent) hkeys hlevels
  have hpresent : r.HoldsAll members := by
    refine Record.holdsAll_iff.2 fun key value hmember => ?_
    refine hholds key value (List.mem_append_right _ hmember) ?_
    exact List.mem_append_left _ (List.mem_map_of_mem hmember)
  have habsent : r.LacksAll absent := by
    refine Record.lacksAll_iff.2 fun key hkey => ?_
    refine hmissing key (List.mem_append_right _ hkey) fun hmember => ?_
    exact (List.nodup_append.1 hdistinct).2.2 _ hmember _ hkey rfl
  change Record.ofJson? _ levels _ >>= build = some a
  rw [hr]
  exact hbuild r hpresent habsent

/-- A record that is written with all its fields and nothing else. -/
theorem ReadsBack.fullRecord {fields : List String} {members : List (String × Json)}
    {build : Record → Option α} {a : α} (hencode : encode a = .object members)
    (hmembers : members.map Prod.fst = fields) (hdistinct : fields.Nodup)
    (hbuild : ∀ r : Record, r.HoldsAll members → build r = some a) :
    ReadsBack (fun levels value => Record.ofJson? fields levels value >>= build) encode a :=
  .record [] [] [] hencode rfl ((List.append_nil _).trans hmembers) hdistinct
    fun r hr _ => hbuild r hr

end Json

end RoleAudit
