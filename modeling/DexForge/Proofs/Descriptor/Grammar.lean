import DexForge.Proofs.Descriptor.Text

/-! # The grammar of type descriptors

A type is written `V`, or as up to 255 brackets in front of a primitive letter or of a class name
between `L` and `;`. These texts are told here without the reader, and the reader accepts no others.
What is known of the values of a type can be seen from its text.
-/
set_option autoImplicit false

namespace DexForge

namespace Name

def SimpleChar (c : Char) : Prop :=
  'A' ≤ c ∧ c ≤ 'Z' ∨ 'a' ≤ c ∧ c ≤ 'z' ∨ '0' ≤ c ∧ c ≤ '9' ∨ c = '$' ∨ c = '-' ∨ c = '_' ∨
    0xa1 ≤ c.toNat ∧ c.toNat ≤ 0x1fff ∨ 0x2010 ≤ c.toNat ∧ c.toNat ≤ 0x2027 ∨
    0x2030 ≤ c.toNat ∧ c.toNat ≤ 0xd7ff ∨ 0xe000 ≤ c.toNat ∧ c.toNat ≤ 0xffef ∨
    0x10000 ≤ c.toNat ∧ c.toNat ≤ 0x10ffff

def SimpleText (name : String) : Prop := name ≠ "" ∧ ∀ c ∈ name.toList, SimpleChar c

theorem isSimpleChar_iff (c : Char) : isSimpleChar c = true ↔ SimpleChar c := by
  have hAlpha : c.isAlpha = (decide ('A'.val ≤ c.val ∧ c.val ≤ 'Z'.val) ||
      decide ('a'.val ≤ c.val) && decide (c.val ≤ 'z'.val)) := rfl
  simp only [isSimpleChar, SimpleChar, wideRanges, Char.isAlphanum, hAlpha, Char.isDigit, Char.le_def,
    Bool.or_eq_true, Bool.and_eq_true, decide_eq_true_eq, beq_iff_eq, List.any_cons, List.any_nil,
    ge_iff_le, or_assoc, Bool.false_eq_true, or_false]

theorem isSimpleList_iff (name : String) : isSimpleList name.toList = true ↔ SimpleText name := by
  simp only [isSimpleList, SimpleText, Bool.and_eq_true, Bool.not_eq_true', List.isEmpty_eq_false_iff,
    List.all_eq_true, isSimpleChar_iff, ne_eq, String.toList_eq_nil_iff]

end Name

namespace ClassName

/-- What is left of the segment that is being read may be empty; no other segment may be. -/
theorem segmentFault?_eq_none_iff {inSegment : Bool} {path first : List Char}
    {others : List (List Char)} (hSplit : path.splitOn '/' = first :: others) :
    segmentFault? inSegment path = none ↔
      (inSegment = true ∨ first ≠ []) ∧ (∀ c ∈ first, Name.isSimpleChar c = true) ∧
      ∀ segment ∈ others, Name.isSimpleList segment = true := by
  induction path generalizing inSegment first others with
  | nil =>
    cases hSplit
    cases inSegment <;> simp [segmentFault?]
  | cons c path ih =>
    obtain ⟨first', others', hRest⟩ := List.exists_cons_of_ne_nil (List.splitOn_ne_nil '/' path)
    rw [segmentFault?]
    rw [List.splitOn_cons_eq_if_modifyHead, hRest] at hSplit
    split
    · next hSlash =>
      rw [if_pos hSlash] at hSplit
      cases hSplit
      cases inSegment with
      | false => simp
      | true =>
        rw [if_pos rfl, ih hRest]
        simp [Name.isSimpleList, and_assoc]
    · next hSlash =>
      rw [if_neg hSlash] at hSplit
      cases hSplit
      split
      · next hSimple =>
        rw [ih hRest]
        simp [hSimple]
      · next hSimple => simp [hSimple]

theorem fault?_eq_none_iff (path : List Char) :
    fault? path = none ↔ ∃ segments, segments ≠ [] ∧
      (∀ segment ∈ segments, Name.isSimpleList segment = true) ∧
      path = ['/'].intercalate segments := by
  have hFault : fault? path = none ↔ segmentFault? false path = none := by
    cases path with
    | nil => simp [fault?, segmentFault?]
    | cons c path => rfl
  have hSegments : segmentFault? false path = none ↔
      ∀ segment ∈ path.splitOn '/', Name.isSimpleList segment = true := by
    obtain ⟨first, others, hSplit⟩ := List.exists_cons_of_ne_nil (List.splitOn_ne_nil '/' path)
    rw [segmentFault?_eq_none_iff hSplit, hSplit]
    simp [Name.isSimpleList, and_assoc]
  rw [hFault, hSegments]
  constructor
  · intro hSimple
    exact ⟨_, List.splitOn_ne_nil '/' path, hSimple, (List.intercalate_splitOn '/').symm⟩
  · rintro ⟨segments, hNonempty, hSimple, rfl⟩
    rw [List.splitOn_intercalate '/' ?_ hNonempty]
    · exact hSimple
    · intro segment hSegment hSlash
      have hAll := hSimple segment hSegment
      rw [Name.isSimpleList, Bool.and_eq_true, List.all_eq_true] at hAll
      exact absurd (hAll.2 '/' hSlash) (by decide)

theorem ofChars_path (name : ClassName) : ofChars name.path.toList = .ok name := by
  unfold ofChars
  split
  · congr
    exact String.ofList_toList
  · next fault hFault =>
    rw [name.wellFormed] at hFault
    cases hFault

end ClassName

def Primitive.letters : List Char := ['Z', 'B', 'S', 'C', 'I', 'J', 'F', 'D']

theorem Primitive.mem_letters_iff (c : Char) : c ∈ letters ↔ ∃ p : Primitive, p.letter = c := by
  constructor
  · intro hc
    simp only [letters, List.mem_cons, List.not_mem_nil, or_false] at hc
    obtain rfl | rfl | rfl | rfl | rfl | rfl | rfl | rfl := hc
    exacts [⟨.boolean, rfl⟩, ⟨.byte, rfl⟩, ⟨.short, rfl⟩, ⟨.char, rfl⟩, ⟨.int, rfl⟩, ⟨.long, rfl⟩,
      ⟨.float, rfl⟩, ⟨.double, rfl⟩]
  · rintro ⟨p, rfl⟩
    cases p <;> decide

/-- A primitive letter, or a class name between `L` and `;`. -/
inductive ElementText : String → Prop where
  | primitive {letter : Char} (hLetter : letter ∈ Primitive.letters) : ElementText letter.toString
  | object {segments : List String} (hNonempty : segments ≠ [])
    (hSimple : ∀ segment ∈ segments, Name.SimpleText segment) :
    ElementText ("L" ++ "/".intercalate segments ++ ";")

/-- An element type behind at most 255 brackets. -/
def FieldText (text : String) : Prop :=
  ∃ (dims : Nat) (element : String), dims ≤ 255 ∧ ElementText element ∧
    text = String.ofList (List.replicate dims '[') ++ element

def TypeText (text : String) : Prop := text = "V" ∨ FieldText text

namespace ElementType

theorem elementText_iff (text : String) : ElementText text ↔ ∃ e : ElementType, e.text = text := by
  constructor
  · rintro (⟨hLetter⟩ | ⟨hNonempty, hSimple⟩)
    · obtain ⟨p, rfl⟩ := (Primitive.mem_letters_iff _).mp hLetter
      exact ⟨.primitive p, rfl⟩
    · next segments =>
      have hPath : ClassName.fault? ("/".intercalate segments).toList = none := by
        refine (ClassName.fault?_eq_none_iff _).mpr ⟨segments.map String.toList, by simpa, ?_, ?_⟩
        · intro cs hcs
          obtain ⟨segment, hSegment, rfl⟩ := List.mem_map.mp hcs
          exact (Name.isSimpleList_iff segment).mpr (hSimple segment hSegment)
        · exact String.toList_intercalate
      exact ⟨.object ⟨_, hPath⟩, rfl⟩
  · rintro ⟨e, rfl⟩
    cases e with
    | primitive p => exact .primitive ((Primitive.mem_letters_iff _).mpr ⟨p, rfl⟩)
    | object name =>
      obtain ⟨segments, hNonempty, hSimple, hPath⟩ :=
        (ClassName.fault?_eq_none_iff _).mp name.wellFormed
      have hText : name.path = "/".intercalate (segments.map String.ofList) := by
        apply String.toList_inj.mp
        rw [hPath, String.toList_intercalate, List.map_map]
        simp [Function.comp_def]
      rw [text, ClassName.text, hText]
      refine .object (by simpa) ?_
      intro segment hSegment
      obtain ⟨cs, hcs, rfl⟩ := List.mem_map.mp hSegment
      rw [← Name.isSimpleList_iff, String.toList_ofList]
      exact hSimple cs hcs

theorem parse_text (e : ElementType) : parse e.text.toList = .ok e := by
  rw [toList_text]
  cases e with
  | primitive p => cases p <;> rfl
  | object name =>
    have hLast : (name.path.toList ++ [';']).getLast? = some ';' := List.getLast?_concat
    simp only [parse, hLast, if_true, List.dropLast_concat, ClassName.ofChars_path]
    rfl

end ElementType

namespace TypeDescriptor

theorem takeWhile_brackets (dims : Nat) (e : ElementType) (rest : List Char) :
    (List.replicate dims '[' ++ (e.text.toList ++ rest)).takeWhile (· == '[') =
      List.replicate dims '[' := by
  obtain ⟨c, tail, hText, hBracket, -⟩ := e.head_text
  have hBrackets : ∀ c ∈ List.replicate dims '[', (c == '[') = true := by
    intro c hc
    rw [List.eq_of_mem_replicate hc]
    rfl
  rw [List.takeWhile_append_of_pos hBrackets, hText, List.cons_append,
    List.takeWhile_cons_of_neg (by simpa using hBracket), List.append_nil]

theorem parse_text (type : TypeDescriptor) : parse type.text = .ok type := by
  cases type with
  | void => rfl
  | field dims element =>
    have hVoid : (field dims element).text ≠ "V" := text_field_ne_void dims element
    have hEmpty : ¬(field dims element).text.isEmpty = true := by
      obtain ⟨c, tail, hText, -, -⟩ := element.head_text
      rw [String.isEmpty_iff, ← String.toList_eq_nil_iff, toList_text_field, hText]
      simp
    have hBrackets : (field dims element).text.toList.takeWhile (· == '[') =
        List.replicate dims '[' := by
      have hTake := takeWhile_brackets dims element []
      rwa [List.append_nil, ← toList_text_field] at hTake
    have hElement : (field dims element).text.toList.drop dims = element.text.toList := by
      rw [toList_text_field, List.drop_left' List.length_replicate]
    rw [parse, if_neg hEmpty, if_neg hVoid]
    simp only [hBrackets, List.length_replicate, dims.isLt, dite_true, hElement,
      ElementType.parse_text]

theorem parse_eq_ok_iff {text : String} {type : TypeDescriptor} :
    parse text = .ok type ↔ type.text = text := by
  constructor
  · exact text_of_parse
  · rintro rfl
    exact parse_text type

theorem fieldText_iff (text : String) :
    FieldText text ↔ ∃ dims element, (field dims element).text = text := by
  constructor
  · rintro ⟨dims, element, hDims, hElement, rfl⟩
    obtain ⟨e, rfl⟩ := (ElementType.elementText_iff _).mp hElement
    exact ⟨⟨dims, by omega⟩, e, rfl⟩
  · rintro ⟨dims, e, rfl⟩
    exact ⟨dims, e.text, by omega, (ElementType.elementText_iff _).mpr ⟨e, rfl⟩, rfl⟩

theorem typeText_iff (text : String) : TypeText text ↔ ∃ type, parse text = .ok type := by
  simp only [parse_eq_ok_iff]
  constructor
  · rintro (rfl | hField)
    · exact ⟨.void, rfl⟩
    · obtain ⟨dims, element, hText⟩ := (fieldText_iff text).mp hField
      exact ⟨.field dims element, hText⟩
  · rintro ⟨_ | ⟨dims, element⟩, hText⟩
    · exact .inl hText.symm
    · exact .inr ((fieldText_iff text).mpr ⟨dims, element, hText⟩)

structure Tells (text : String) (type : TypeDescriptor) : Prop where
  void : type.isVoid = true ↔ text = "V"
  primitive : type.primitive?.isSome = true ↔ ∃ letter ∈ Primitive.letters, text = letter.toString
  reference : type.isReference = true ↔ text.toList.head? = some 'L' ∨ text.toList.head? = some '['
  exclusive : [type.isVoid, type.primitive?.isSome, type.isReference].count true = 1
  width : type.width = if text = "V" then 0 else if text = "J" ∨ text = "D" then 2 else 1
  shorty : type.shorty = 'L' ↔ type.isReference = true
  letter : type.isReference = false → text = type.shorty.toString

theorem head_of_reference {type : TypeDescriptor} (hVoid : type.isVoid = false)
    (hPrimitive : type.primitive? = none) :
    type.shorty = 'L' ∧ (type.text.toList.head? = some 'L' ∨ type.text.toList.head? = some '[') := by
  cases type with
  | void => cases hVoid
  | field dims element =>
    rw [toList_text_field, ElementType.toList_text]
    match dims, element with
    | 0, .primitive p => cases hPrimitive
    | 0, .object name => exact ⟨rfl, .inl rfl⟩
    | ⟨n + 1, hn⟩, element => exact ⟨rfl, .inr rfl⟩

theorem tells_ofPrimitive (p : Primitive) : Tells (ofPrimitive p).text (ofPrimitive p) := by
  have hLetter : ∃ letter ∈ Primitive.letters, (ofPrimitive p).text = letter.toString :=
    ⟨p.letter, (Primitive.mem_letters_iff _).mpr ⟨p, rfl⟩, rfl⟩
  refine ⟨?_, ⟨fun _ => hLetter, fun _ => rfl⟩, ?_, ?_, ?_, ?_, ?_⟩ <;> cases p <;> decide

theorem tells_void : Tells void.text void := by
  refine ⟨by decide, ⟨nofun, ?_⟩, by decide, by decide, by decide, by decide, by decide⟩
  rintro ⟨letter, hLetter, hText⟩
  obtain ⟨p, rfl⟩ := (Primitive.mem_letters_iff _).mp hLetter
  cases p <;> exact absurd hText (by decide)

theorem tells_of_reference {type : TypeDescriptor} (hVoid : type.isVoid = false)
    (hPrimitive : type.primitive? = none) : Tells type.text type := by
  -- no type but a reference starts like one, so its text is none of the single letters
  obtain ⟨hShorty, hHead⟩ := head_of_reference hVoid hPrimitive
  have hReference : type.isReference = true := by simp [isReference, hVoid, hPrimitive]
  have hText : ∀ letter : Char, letter ≠ 'L' → letter ≠ '[' → type.text ≠ letter.toString := by
    intro letter hClass hArray hSame
    have hChars : type.text.toList = [letter] := by simp [hSame]
    rw [hChars, List.head?_cons, Option.some.injEq, Option.some.injEq] at hHead
    exact hHead.elim hClass hArray
  have hNotVoid : type.text ≠ "V" := hText 'V' (by decide) (by decide)
  have hNotLong : type.text ≠ "J" := hText 'J' (by decide) (by decide)
  have hNotDouble : type.text ≠ "D" := hText 'D' (by decide) (by decide)
  refine ⟨?_, ?_, ?_, ?_, ?_, ?_, ?_⟩
  · simp only [hVoid, Bool.false_eq_true, false_iff]
    exact hNotVoid
  · simp only [hPrimitive, Option.isSome_none, Bool.false_eq_true, false_iff, not_exists, not_and]
    intro letter hLetter
    refine hText letter ?_ ?_ <;> rintro rfl <;> exact absurd hLetter (by decide)
  · exact ⟨fun _ => hHead, fun _ => hReference⟩
  · simp [hVoid, hPrimitive, hReference]
  · rw [if_neg hNotVoid, if_neg (not_or.mpr ⟨hNotLong, hNotDouble⟩)]
    simp [width, hVoid, hPrimitive]
  · exact ⟨fun _ => hReference, fun _ => hShorty⟩
  · intro hOther
    rw [hReference] at hOther
    cases hOther

theorem tells_text (type : TypeDescriptor) : Tells type.text type := by
  cases type with
  | void => exact tells_void
  | field dims element =>
    cases hPrimitive : (field dims element).primitive? with
    | none => exact tells_of_reference rfl hPrimitive
    | some p =>
      rw [eq_of_primitive? hPrimitive]
      exact tells_ofPrimitive p

/-- Exactly the texts of the grammar are read as types, and each of them tells what its values are:
nothing, primitive or references, in how many registers, under which letter. -/
theorem parse_grammar (text : String) :
    ((∃ type, parse text = .ok type) ↔ TypeText text) ∧
    ∀ type, parse text = .ok type → Tells text type := by
  refine ⟨(typeText_iff text).symm, ?_⟩
  intro type hParse
  rw [← text_of_parse hParse]
  exact tells_text type

/-- An array of wide values is a reference in one register. -/
theorem parse_grammar_longArray :
    parse "[J" = .ok (field 1 (.primitive .long)) ∧ TypeText "[J" ∧
    Tells "[J" (field 1 (.primitive .long)) ∧ (field 1 (.primitive .long)).width = 1 := by
  have hParse : parse "[J" = .ok (field 1 (.primitive .long)) := parse_eq_ok_iff.mpr rfl
  exact ⟨hParse, (parse_grammar "[J").1.mp ⟨_, hParse⟩, (parse_grammar "[J").2 _ hParse, rfl⟩

end TypeDescriptor

end DexForge
