import DexForge.Proofs.Descriptor.Grammar
import Mathlib.Data.Set.List

/-! # Prototypes and their texts

Descriptors stand side by side in a prototype. The brackets and the first letter of each tell where
it ends, and none of them holds a closing parenthesis, so the text can be taken apart in one way
only.
-/
set_option autoImplicit false

namespace DexForge

theorem ClassName.simple_of_segmentFault? {inSegment : Bool} {path : List Char}
    (h : segmentFault? inSegment path = none) :
    ∀ c ∈ path, c = '/' ∨ Name.isSimpleChar c = true := by
  induction path generalizing inSegment with
  | nil => simp
  | cons c path ih =>
    rw [segmentFault?] at h
    rw [List.forall_mem_cons]
    split at h
    · next hSlash =>
      split at h
      · exact ⟨.inl (eq_of_beq hSlash), ih h⟩
      · cases h
    · split at h
      · next hSimple => exact ⟨.inr hSimple, ih h⟩
      · cases h

theorem ClassName.simple_path (name : ClassName) :
    ∀ c ∈ name.path.toList, c = '/' ∨ Name.isSimpleChar c = true := by
  have hFault := name.wellFormed
  rw [fault?] at hFault
  split at hFault
  · cases hFault
  · exact simple_of_segmentFault? hFault

theorem TypeDescriptor.parenthesis_not_mem_text (type : TypeDescriptor) : ')' ∉ type.text.toList := by
  intro hMem
  cases type with
  | void => exact absurd hMem (by decide)
  | field dims element =>
    rw [toList_text_field, List.mem_append] at hMem
    obtain hMem | hMem := hMem
    · exact absurd (List.eq_of_mem_replicate hMem) (by decide)
    rw [ElementType.toList_text] at hMem
    cases element with
    | primitive p => cases p <;> exact absurd hMem (by decide)
    | object name =>
      simp only [List.mem_cons, List.mem_append, List.not_mem_nil, or_false] at hMem
      obtain hMem | hMem | hMem := hMem
      · cases hMem
      · obtain hMem | hMem := name.simple_path _ hMem <;> exact absurd hMem (by decide)
      · cases hMem

theorem takeWhile_until {c : Char} {front : List Char} (h : c ∉ front) (back : List Char) :
    (front ++ c :: back).takeWhile (· != c) = front := by
  have hFront : ∀ d ∈ front, (d != c) = true := by
    intro d hd
    rw [bne_iff_ne]
    rintro rfl
    exact h hd
  rw [List.takeWhile_append_of_pos hFront, List.takeWhile_cons_of_neg (by simp), List.append_nil]

theorem append_drop_takeWhile (p : Char → Bool) (cs : List Char) :
    cs.takeWhile p ++ cs.drop (cs.takeWhile p).length = cs :=
  (List.prefix_append_drop (List.takeWhile_prefix p)).symm

theorem first_until {c d : Char} {cs back : List Char}
    (h : cs.drop (cs.takeWhile (· != c)).length = d :: back) : d = c := by
  have hSplit := append_drop_takeWhile (· != c) cs
  by_contra hOther
  have hTaken := congrArg (List.takeWhile (· != c)) hSplit
  have hAll : ∀ e ∈ cs.takeWhile (· != c), (e != c) = true := List.all_eq_true.mp List.all_takeWhile
  rw [h, List.takeWhile_append_of_pos hAll, List.takeWhile_cons_of_pos (by simpa using hOther)]
    at hTaken
  simp at hTaken

def ProtoText (text : String) : Prop :=
  ∃ (fields : List String) (returns : String), (∀ field ∈ fields, FieldText field) ∧
    TypeText returns ∧ text = "(" ++ String.join fields ++ ")" ++ returns

namespace ProtoDescriptor

theorem append_of_takeField {cs field rest : List Char} (h : takeField cs = some (field, rest)) :
    cs = field ++ rest := by
  have hSplit := append_drop_takeWhile (· == '[') cs
  unfold takeField at h
  dsimp only at h
  split at h
  · cases h
  · next tail hTail =>
    have hName := append_drop_takeWhile (· != ';') tail
    split at h
    · cases h
    · next semicolon last hLast =>
      cases h
      rw [hLast] at hName
      rw [hTail, ← hName] at hSplit
      simpa using hSplit.symm
  · next c tail _ hTail =>
    cases h
    rw [hTail] at hSplit
    simpa using hSplit.symm

theorem takeField_text (dims : Fin 256) (element : ElementType) (rest : List Char) :
    takeField ((TypeDescriptor.field dims element).text.toList ++ rest) =
      some ((TypeDescriptor.field dims element).text.toList, rest) := by
  rw [TypeDescriptor.toList_text_field, List.append_assoc, takeField,
    TypeDescriptor.takeWhile_brackets, List.drop_left, ElementType.toList_text]
  cases element with
  | primitive p => cases p <;> rfl
  | object name =>
    have hSemicolon : ';' ∉ name.path.toList := by
      intro hMem
      obtain hMem | hMem := name.simple_path _ hMem <;> exact absurd hMem (by decide)
    have hName := takeWhile_until hSemicolon rest
    simp only [List.cons_append, List.append_assoc, List.nil_append, hName, List.drop_left]

theorem parseFields_of_ne_nil {cs : List Char} (h : cs ≠ []) (read : Array TypeDescriptor) :
    parseFields cs read = match takeField cs with
      | none => none
      | some (field, rest) =>
        match TypeDescriptor.parse (String.ofList field) with
        | .ok .void => none
        | .ok type => parseFields rest (read.push type)
        | .error _ => none := by
  rw [parseFields, if_neg (by simpa using h)]
  split
  · next hNone => simp only [hNone]
  · next field rest hSome =>
    cases hParse : TypeDescriptor.parse (String.ofList field) with
    | error fault => simp only [hSome, hParse]
    | ok type => cases type <;> simp only [hSome, hParse]

theorem parseFields_eq_some_iff {cs : List Char} {read result : Array TypeDescriptor} :
    parseFields cs read = some result ↔ ∃ params : List TypeDescriptor, (∀ t ∈ params, t ≠ .void) ∧
      cs = params.flatMap (fun t => t.text.toList) ∧ result = read ++ params.toArray := by
  constructor
  · intro h
    fun_induction parseFields cs read with
    | case1 cs read hEmpty =>
      cases h
      exact ⟨[], by simp, List.isEmpty_iff.mp hEmpty, by simp⟩
    | case2 cs read hEmpty hNone => cases h
    | case3 cs read hEmpty field rest hTake hLess hVoid => cases h
    | case4 cs read hEmpty field rest hTake hLess type hValue hParse ih =>
      obtain ⟨params, hParams, hRest, rfl⟩ := ih h
      have hText := TypeDescriptor.text_of_parse hParse
      refine ⟨type :: params, List.forall_mem_cons.mpr ⟨hValue, hParams⟩, ?_, by simp⟩
      rw [append_of_takeField hTake, hRest, List.flatMap_cons, hText, String.toList_ofList]
    | case5 => cases h
  · rintro ⟨params, hParams, rfl, rfl⟩
    induction params generalizing read with
    | nil => simp [parseFields]
    | cons type params ih =>
      rw [List.forall_mem_cons] at hParams
      cases type with
      | void => exact absurd rfl hParams.1
      | field dims element =>
        have hNonempty : (TypeDescriptor.field dims element).text.toList ++
            params.flatMap (fun t => t.text.toList) ≠ [] := by
          obtain ⟨c, tail, hText, -, -⟩ := element.head_text
          simp [TypeDescriptor.toList_text_field, hText]
        rw [List.flatMap_cons, parseFields_of_ne_nil hNonempty, takeField_text]
        dsimp only
        rw [String.ofList_toList, TypeDescriptor.parse_text]
        dsimp only
        rw [ih hParams.2]
        simp

theorem parseBody_eq_some_iff {cs : List Char} {p : ProtoDescriptor} :
    parseBody cs = some p ↔ (∀ t ∈ p.params, t ≠ .void) ∧
      cs = p.params.flatMap (fun t => t.text.toList) ++ ')' :: p.returns.text.toList := by
  have hSplit := append_drop_takeWhile (· != ')') cs
  constructor
  · intro h
    unfold parseBody at h
    dsimp only at h
    split at h
    · cases h
    · next c outside hOutside =>
      cases first_until hOutside
      split at h
      · next params returns hParams hReturns =>
        cases h
        obtain ⟨params, hValues, hInside, rfl⟩ := parseFields_eq_some_iff.mp hParams
        have hText := TypeDescriptor.text_of_parse hReturns
        rw [hOutside, hInside] at hSplit
        refine ⟨by simpa using hValues, ?_⟩
        rw [hText, String.toList_ofList]
        simpa using hSplit.symm
      · cases h
  · rintro ⟨hValues, rfl⟩
    have hInside : ')' ∉ p.params.flatMap fun t => t.text.toList := by
      intro hMem
      obtain ⟨t, -, hMem⟩ := List.mem_flatMap.mp hMem
      exact t.parenthesis_not_mem_text hMem
    have hParams : parseFields (p.params.flatMap fun t => t.text.toList) #[] =
        some p.params.toArray :=
      parseFields_eq_some_iff.mpr ⟨p.params, hValues, rfl, by simp⟩
    rw [parseBody, takeWhile_until hInside, List.drop_left]
    dsimp only
    rw [hParams, String.ofList_toList, TypeDescriptor.parse_text]

theorem toList_text (p : ProtoDescriptor) : p.text.toList =
    '(' :: (p.params.flatMap (fun t => t.text.toList) ++ ')' :: p.returns.text.toList) := by
  simp [text, String.toList_join, List.flatMap_map]

/-- A prototype without `void` parameters is read from its own text, and only from it. -/
theorem parse_eq_ok_iff {text : String} {p : ProtoDescriptor} :
    parse text = .ok p ↔ (∀ t ∈ p.params, t ≠ .void) ∧ p.text = text := by
  rw [← String.toList_inj, toList_text, parse]
  split
  · next rest hRest =>
    rw [hRest, List.cons.injEq, eq_comm (b := rest)]
    simp only [true_and, ← parseBody_eq_some_iff]
    cases parseBody rest <;> simp
  · next hOther =>
    simp only [reduceCtorEq, false_iff, not_and]
    intro _ hText
    exact hOther _ hText.symm

theorem protoText_iff (text : String) : ProtoText text ↔ ∃ p, parse text = .ok p := by
  simp only [parse_eq_ok_iff]
  constructor
  · rintro ⟨fields, returns, hFields, hReturns, rfl⟩
    obtain ⟨returns, hParse⟩ := (TypeDescriptor.typeText_iff _).mp hReturns
    obtain ⟨params, rfl⟩ : fields ∈ Set.range
        (List.map fun type : {type : TypeDescriptor // type ≠ .void} => type.val.text) := by
      rw [Set.range_list_map]
      intro field hField
      obtain ⟨dims, element, hText⟩ := (TypeDescriptor.fieldText_iff _).mp (hFields field hField)
      exact ⟨⟨.field dims element, by simp⟩, hText⟩
    refine ⟨⟨returns, params.map Subtype.val⟩, ?_, ?_⟩
    · intro type hType
      obtain ⟨value, -, rfl⟩ := List.mem_map.mp hType
      exact value.2
    · rw [← TypeDescriptor.text_of_parse hParse, text, List.map_map]
      rfl
  · rintro ⟨p, hValues, rfl⟩
    refine ⟨p.params.map TypeDescriptor.text, p.returns.text, ?_, ?_, rfl⟩
    · intro field hField
      obtain ⟨type, hType, rfl⟩ := List.mem_map.mp hField
      cases type with
      | void => exact absurd rfl (hValues _ hType)
      | field dims element => exact (TypeDescriptor.fieldText_iff _).mpr ⟨dims, element, rfl⟩
    · exact (TypeDescriptor.typeText_iff _).mpr ⟨_, TypeDescriptor.parse_text _⟩

end ProtoDescriptor

end DexForge
