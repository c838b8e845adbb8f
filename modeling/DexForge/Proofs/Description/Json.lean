import DexForge.Description.Json
import DexForge.Proofs.Control.Pairing

/-! # Descriptions are read back from the JSON they are written as

What is written for a description names each field once, so it is read back as what stands under
each key. A description starts with a text when it is given as an array, and a list of descriptions
does not, so no value is both.
-/
set_option autoImplicit false

namespace DexForge

namespace JsonRecord

variable {n : Nat} {keys : Vector String n}

def under (keys : Vector String n) (members : List (String × JsonValue)) : JsonRecord n :=
  keys.map fun key => members.lookup key

theorem getElem_under {members : List (String × JsonValue)} {i : Nat} (hi : i < n) :
    (under keys members)[i] = members.lookup keys[i] := by
  rw [under, Vector.getElem_map]

theorem lookup_append_of_ne {read : List (String × JsonValue)} {key : String}
    {member : String × JsonValue} (h : key ≠ member.1) :
    (read ++ [member]).lookup key = read.lookup key := by
  rw [List.lookup_append, List.lookup_cons, beq_eq_false_iff_ne.mpr h, List.lookup_nil,
    Option.or_none]

theorem lookup_append_self {read : List (String × JsonValue)} {member : String × JsonValue}
    (h : member.1 ∉ read.map Prod.fst) :
    read.lookup member.1 = none ∧ (read ++ [member]).lookup member.1 = some member.2 := by
  have hNone : read.lookup member.1 = none := by
    rw [List.lookup_eq_none_iff]
    intro entry hEntry
    rw [bne_iff_ne]
    rintro hSame
    exact h (List.mem_map.mpr ⟨entry, hEntry, hSame.symm⟩)
  refine ⟨hNone, ?_⟩
  rw [List.lookup_append, hNone, List.lookup_cons_self, Option.none_or]

theorem not_mem_of_finIdxOf? {key : String} (h : keys.finIdxOf? key = none) : key ∉ keys := by
  rw [Vector.finIdxOf?, Option.map_eq_none_iff, Array.finIdxOf?_eq_none_iff] at h
  rwa [← Vector.mem_toArray_iff]

theorem get_of_finIdxOf? {key : String} {i : Fin n} (h : keys.finIdxOf? key = some i) :
    keys.get i = key := by
  obtain ⟨j, hj, rfl⟩ := Option.map_eq_some_iff.mp h
  exact (Array.finIdxOf?_eq_some_iff.mp hj).1

theorem addMember?_under (hKeys : ∀ i j, keys.get i = keys.get j → i = j)
    {read : List (String × JsonValue)} {member : String × JsonValue}
    (hNew : member.1 ∉ read.map Prod.fst) :
    addMember? keys (under keys read) member = some (under keys (read ++ [member])) := by
  obtain ⟨hNone, hSome⟩ := lookup_append_self hNew
  obtain ⟨key, value⟩ := member
  rw [addMember?]
  cases hIndex : keys.finIdxOf? key with
  | none =>
    have hUnknown := not_mem_of_finIdxOf? hIndex
    apply congrArg some
    apply Vector.ext
    intro i hi
    have hNe : keys[i] ≠ key := fun hSame => hUnknown (hSame ▸ Vector.getElem_mem hi)
    rw [getElem_under, getElem_under, lookup_append_of_ne hNe]
  | some i =>
    obtain rfl := get_of_finIdxOf? hIndex
    have hEmpty : (under keys read)[i] = none := (getElem_under i.isLt).trans hNone
    dsimp only
    rw [hEmpty, Option.isSome_none, if_neg Bool.false_ne_true]
    apply congrArg some
    apply Vector.ext
    intro j hj
    rw [Vector.getElem_set, getElem_under, getElem_under]
    split
    · next hSame =>
      subst hSame
      exact hSome.symm
    · next hOther =>
      have hNe : keys[j] ≠ keys.get i := by
        intro hSame
        have hIndices := hKeys i ⟨j, hj⟩ hSame.symm
        exact hOther (congrArg Fin.val hIndices)
      rw [lookup_append_of_ne hNe]

theorem foldlM_addMember? (hKeys : ∀ i j, keys.get i = keys.get j → i = j)
    {read members : List (String × JsonValue)}
    (hMembers : ((read ++ members).map Prod.fst).Nodup) :
    members.foldlM (addMember? keys) (under keys read) = some (under keys (read ++ members)) := by
  induction members generalizing read with
  | nil =>
    rw [List.append_nil]
    rfl
  | cons member members ih =>
    have hNew : member.1 ∉ read.map Prod.fst := by
      intro hOld
      rw [List.map_append, List.map_cons] at hMembers
      exact (List.nodup_append.mp hMembers).2.2 _ hOld _ List.mem_cons_self rfl
    rw [List.append_cons] at hMembers ⊢
    rw [List.foldlM_cons, addMember?_under hKeys hNew]
    exact ih hMembers

/-- Members that name no key twice are read as what stands under each key; members with other keys
are passed over. -/
theorem ofMembers?_eq_under (hKeys : ∀ i j, keys.get i = keys.get j → i = j)
    {members : List (String × JsonValue)} (hMembers : (members.map Prod.fst).Nodup) :
    ofMembers? keys members = some (under keys members) := by
  have hStart : Vector.replicate n none = under keys [] := by
    apply Vector.ext
    intro i hi
    rw [Vector.getElem_replicate, getElem_under, List.lookup_nil]
  rw [ofMembers?, hStart]
  exact foldlM_addMember? hKeys hMembers

theorem getElem_of_ofItems? {items : List JsonValue} {record : JsonRecord n}
    (h : ofItems? items = some record) {i : Nat} (hi : i < n) : record[i] = items[i]? := by
  rw [ofItems?] at h
  split at h
  · cases h
    rw [Vector.getElem_ofFn]
  · cases h

end JsonRecord

namespace JsonValue

variable {α : Type}

theorem text?_eq_some_iff {value : JsonValue} {text : String} :
    value.text? = some text ↔ value = .string text := by
  cases value <;> simp [text?]

theorem list?_eq_some_iff {item? : JsonValue → Option α} {value : JsonValue} {as : List α} :
    value.list? item? = some as ↔
      ∃ items, value = .array items ∧ List.Forall₂ (fun item a => item? item = some a) items as := by
  cases value with
  | array items =>
    rw [list?, Pairing.mapM_eq_some_iff]
    simp
  | _ => simp [list?]

theorem list?_map {item? : JsonValue → Option α} {write : α → JsonValue}
    (h : ∀ a, item? (write a) = some a) (as : List α) :
    list? item? (.array (as.map write)) = some as := by
  rw [list?_eq_some_iff]
  refine ⟨_, rfl, ?_⟩
  rw [List.forall₂_map_left_iff, List.forall₂_same]
  exact fun a _ => h a

theorem texts?_map (texts : List String) : texts? (.array (texts.map .string)) = some texts := by
  have hText : ∀ text, text? (.string text) = some text := fun _ => rfl
  exact list?_map hText texts

end JsonValue

theorem AccessKeyword.ofJson?_toJson (keyword : AccessKeyword) :
    ofJson? keyword.toJson = some keyword :=
  ofText?_text keyword

theorem MethodDescription.ofJson?_toJson (m : MethodDescription) : ofJson? m.toJson = some m := by
  have hParams := JsonValue.texts?_map m.params
  have hAccess := JsonValue.list?_map AccessKeyword.ofJson?_toJson m.access
  rw [toJson, ofJson?, JsonRecord.ofJson?, JsonRecord.ofMembers?_eq_under (by decide) (by simp)]
  simp [JsonRecord.getElem_under, keys, List.lookup_cons, JsonValue.text?, JsonValue.optional,
    hParams, hAccess]

namespace ClassDescription

theorem ofJson?_toJson (d : ClassDescription) : ofJson? d.toJson = some d := by
  have hInterfaces := JsonValue.texts?_map d.interfaces
  have hMethods := JsonValue.list?_map MethodDescription.ofJson?_toJson d.methods
  obtain ⟨name, superclass, interfaces, sourceFile, methods⟩ := d
  rw [toJson, ofJson?, JsonRecord.ofJson?]
  -- without a source file there is a key less
  cases sourceFile with
  | none =>
    rw [JsonRecord.ofMembers?_eq_under (by decide) (by simp)]
    simp [JsonRecord.getElem_under, keys, List.lookup_cons, JsonValue.text?, JsonValue.optional,
      hInterfaces, hMethods]
  | some file =>
    rw [JsonRecord.ofMembers?_eq_under (by decide) (by simp)]
    simp [JsonRecord.getElem_under, keys, List.lookup_cons, JsonValue.text?, JsonValue.optional,
      JsonValue.nullableText?, hInterfaces, hMethods]

theorem list?_map_toJson (ds : List ClassDescription) :
    JsonValue.list? ofJson? (.array (ds.map toJson)) = some ds :=
  JsonValue.list?_map ofJson?_toJson ds

theorem exists_name_of_ofJson? {items : List JsonValue} {d : ClassDescription}
    (h : ofJson? (.array items) = some d) : ∃ name rest, items = .string name :: rest := by
  obtain ⟨record, hRecord, h⟩ := Option.bind_eq_some_iff.mp h
  obtain ⟨name, hName, -⟩ := Option.bind_eq_some_iff.mp h
  rw [JsonRecord.getElem_of_ofItems? hRecord (by decide)] at hName
  obtain ⟨first, hFirst, hText⟩ := Option.bind_eq_some_iff.mp hName
  rw [JsonValue.text?_eq_some_iff] at hText
  subst hText
  obtain ⟨rest, rfl⟩ := List.head?_eq_some_iff.mp (List.head?_eq_getElem? ▸ hFirst)
  exact ⟨name, rest, rfl⟩

/-- No value is both a description and a list of descriptions: a text is no description. -/
theorem not_both (value : JsonValue) : ofJson? value = none ∨ value.list? ofJson? = none := by
  cases hOne : ofJson? value with
  | none => exact Or.inl rfl
  | some d =>
    refine Or.inr (Option.eq_none_iff_forall_ne_some.mpr fun ds hMany => ?_)
    obtain ⟨items, rfl, hItems⟩ := JsonValue.list?_eq_some_iff.mp hMany
    obtain ⟨name, rest, rfl⟩ := exists_name_of_ofJson? hOne
    obtain ⟨d', -, hFirst, -⟩ := List.forall₂_cons_left_iff.mp hItems
    cases hFirst

/-- What is written for descriptions is read back, alone and as a list, and the two readings of a
list never compete. -/
theorem json_read_back :
    (∀ d : ClassDescription, ofJson? d.toJson = some d ∧ listOfJson? d.toJson = some [d]) ∧
    (∀ ds : List ClassDescription, listOfJson? (.array (ds.map toJson)) = some ds) ∧
    ∀ value, (ofJson? value = none ∨ value.list? ofJson? = none) ∧
      listOfJson? value = (value.list? ofJson?).or ((ofJson? value).map fun d => [d]) := by
  have hOne : ∀ {value d}, ofJson? value = some d → listOfJson? value = some [d] := by
    intro value d h
    rw [listOfJson?, h]
  have hMany : ∀ {value}, ofJson? value = none → listOfJson? value = value.list? ofJson? := by
    intro value h
    rw [listOfJson?, h]
  refine ⟨fun d => ⟨ofJson?_toJson d, hOne (ofJson?_toJson d)⟩, fun ds => ?_, fun value => ?_⟩
  · have hList := list?_map_toJson ds
    have hNone := (not_both (.array (ds.map toJson))).resolve_right (by simp [hList])
    rw [hMany hNone, hList]
  · refine ⟨not_both value, ?_⟩
    cases hRead : ofJson? value with
    | none => rw [hMany hRead, Option.map_none, Option.or_none]
    | some d =>
      have hNone := (not_both value).resolve_left (by simp [hRead])
      rw [hOne hRead, hNone, Option.none_or, Option.map_some]

end ClassDescription

end DexForge
