import DexForge.Descriptor.ProtoDescriptor
import Mathlib.Data.List.Infix
import Mathlib.Logic.Function.Basic

/-! # Descriptors and their texts

A descriptor is determined by its text, and is read from no other.
-/
set_option autoImplicit false

namespace DexForge

theorem Primitive.letter_injective : Function.Injective Primitive.letter := by
  intro p q h
  have hLetter := Primitive.ofLetter?_letter p
  rw [h, Primitive.ofLetter?_letter] at hLetter
  exact (Option.some.inj hLetter).symm

theorem Primitive.letter_of_ofLetter? {c : Char} {p : Primitive}
    (h : Primitive.ofLetter? c = some p) : p.letter = c := by
  unfold Primitive.ofLetter? at h
  split at h <;> cases h <;> rfl

namespace ElementType

theorem path_of_ofChars {cs : List Char} {name : ClassName} (h : ClassName.ofChars cs = .ok name) :
    name.path.toList = cs := by
  unfold ClassName.ofChars at h
  split at h
  · cases h
    exact String.toList_ofList
  · cases h

theorem toList_text (e : ElementType) :
    e.text.toList = match e with
      | primitive p => [p.letter]
      | object name => 'L' :: (name.path.toList ++ [';']) := by
  cases e with
  | primitive p => simp [text]
  | object name => simp [text, ClassName.text]

theorem text_injective : Function.Injective ElementType.text := by
  intro a b h
  have hChars := congrArg String.toList h
  rw [toList_text, toList_text] at hChars
  cases a with
  | primitive p =>
    cases b with
    | primitive q =>
      rw [List.cons.injEq] at hChars
      rw [Primitive.letter_injective hChars.1]
    | object name => simp at hChars
  | object name =>
    cases b with
    | primitive q => simp at hChars
    | object other =>
      simp only [List.cons.injEq, true_and, List.append_cancel_right_eq] at hChars
      have hPath : name.path = other.path := String.toList_inj.mp hChars
      cases name
      cases other
      cases hPath
      rfl

theorem head_text (e : ElementType) :
    ∃ c rest, e.text.toList = c :: rest ∧ c ≠ '[' ∧ c ≠ 'V' := by
  rw [toList_text]
  cases e with
  | primitive p => exact ⟨_, _, rfl, by cases p <;> decide, by cases p <;> decide⟩
  | object name => exact ⟨_, _, rfl, by decide, by decide⟩

theorem toList_text_of_parse {cs : List Char} {e : ElementType} (h : parse cs = .ok e) :
    e.text.toList = cs := by
  unfold parse at h
  split at h
  · cases h
  · cases h
  · next rest =>
    split at h
    · next hLast =>
      cases hName : ClassName.ofChars rest.dropLast with
      | error fault =>
        rw [hName] at h
        cases h
      | ok name =>
        rw [hName] at h
        cases h
        obtain ⟨path, rfl⟩ := List.getLast?_eq_some_iff.mp hLast
        rw [List.dropLast_concat] at hName
        rw [toList_text]
        dsimp only
        rw [path_of_ofChars hName]
    · cases h
  · next c rest _ _ =>
    split at h
    · next p hLetter =>
      split at h
      · next hEmpty =>
        cases h
        rw [toList_text, List.isEmpty_iff.mp hEmpty]
        dsimp only
        rw [Primitive.letter_of_ofLetter? hLetter]
      · cases h
    · cases h

end ElementType

namespace TypeDescriptor

theorem toList_text_field (dims : Fin 256) (element : ElementType) :
    (field dims element).text.toList = List.replicate dims '[' ++ element.text.toList := by
  simp [text]

theorem brackets_eq_takeWhile (cs : List Char) :
    List.replicate (cs.takeWhile (· == '[')).length '[' = cs.takeWhile (· == '[') := by
  refine (List.eq_replicate_of_mem fun c hc => ?_).symm
  exact eq_of_beq (List.all_eq_true.mp List.all_takeWhile c hc)

theorem text_of_parse {text : String} {type : TypeDescriptor} (h : parse text = .ok type) :
    type.text = text := by
  unfold parse at h
  split at h
  · cases h
  · split at h
    · next hVoid =>
      cases h
      exact hVoid.symm
    · dsimp only at h
      split at h
      · next hDims =>
        cases hElement : ElementType.parse
            (text.toList.drop (text.toList.takeWhile (· == '[')).length) with
        | error fault =>
          rw [hElement] at h
          cases h
        | ok element =>
          rw [hElement] at h
          cases h
          apply String.toList_inj.mp
          rw [toList_text_field, ElementType.toList_text_of_parse hElement, brackets_eq_takeWhile]
          exact (List.prefix_append_drop (List.takeWhile_prefix _)).symm
      · cases h

theorem text_of_className? {type : TypeDescriptor} {name : ClassName}
    (h : type.className? = some name) : type.text = name.text := by
  unfold className? at h
  split at h
  · cases h
    exact String.toList_inj.mp (toList_text_field 0 (.object name))
  · cases h

theorem eq_of_primitive? {type : TypeDescriptor} {p : Primitive} (h : type.primitive? = some p) :
    type = ofPrimitive p := by
  unfold primitive? at h
  split at h
  · cases h
    rfl
  · cases h

theorem brackets_injective {m n : Nat} {c d : Char} {cs ds : List Char} (hc : c ≠ '[')
    (hd : d ≠ '[') (h : List.replicate m '[' ++ c :: cs = List.replicate n '[' ++ d :: ds) :
    m = n ∧ c :: cs = d :: ds := by
  induction m generalizing n with
  | zero =>
    cases n with
    | zero => exact ⟨rfl, h⟩
    | succ n => exact absurd (List.cons.inj h).1 hc
  | succ m ih =>
    cases n with
    | zero => exact absurd (List.cons.inj h).1.symm hd
    | succ n =>
      obtain ⟨hSame, hRest⟩ := ih (List.cons.inj h).2
      exact ⟨congrArg Nat.succ hSame, hRest⟩

theorem text_field_ne_void (dims : Fin 256) (element : ElementType) :
    (field dims element).text ≠ void.text := by
  intro h
  have hChars := congrArg String.toList h
  obtain ⟨c, rest, hText, -, hVoid⟩ := element.head_text
  have hSingle : void.text.toList = ['V'] := by decide
  rw [toList_text_field, hText, hSingle] at hChars
  cases hDims : dims.val with
  | zero =>
    rw [hDims] at hChars
    exact hVoid (List.cons.inj hChars).1
  | succ n =>
    rw [hDims] at hChars
    exact absurd (List.cons.inj hChars).1 (by decide)

theorem text_injective : Function.Injective TypeDescriptor.text := by
  intro a b h
  cases a with
  | void =>
    cases b with
    | void => rfl
    | field dims element => exact absurd h.symm (text_field_ne_void dims element)
  | field dims element =>
    cases b with
    | void => exact absurd h (text_field_ne_void dims element)
    | field dims' element' =>
      have hChars := congrArg String.toList h
      obtain ⟨c, rest, hText, hc, -⟩ := element.head_text
      obtain ⟨c', rest', hText', hc', -⟩ := element'.head_text
      rw [toList_text_field, toList_text_field, hText, hText'] at hChars
      obtain ⟨hDims, hRest⟩ := brackets_injective hc hc' hChars
      rw [← hText, ← hText'] at hRest
      rw [Fin.ext hDims, ElementType.text_injective (String.toList_inj.mp hRest)]

end TypeDescriptor

end DexForge
