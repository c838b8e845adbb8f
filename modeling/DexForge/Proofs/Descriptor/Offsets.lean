import DexForge.Proofs.Descriptor.Prototypes

/-! # Reading by byte offsets

A descriptor can be read in place, every part of it cut out of its text between two byte offsets. A
cut is possible only between characters. Read in this way a text gives what it gives when it is read
character by character, so no cut is made inside a character.
-/
set_option autoImplicit false

namespace DexForge

namespace ByOffset

def byteLength (cs : List Char) : Nat := (String.ofList cs).utf8ByteSize

@[simp] theorem byteLength_nil : byteLength [] = 0 := by decide

@[simp] theorem byteLength_append (front back : List Char) :
    byteLength (front ++ back) = byteLength front + byteLength back := by
  simp [byteLength, String.ofList_append]

@[simp] theorem byteLength_cons (c : Char) (cs : List Char) :
    byteLength (c :: cs) = c.utf8Size + byteLength cs := by
  have hSingle : byteLength [c] = c.utf8Size := by simp [byteLength]
  rw [← List.singleton_append, byteLength_append, hSingle]

/-- The parts in front of and behind a byte offset; `none` inside a character and past the end. -/
def cutAt? : List Char → Nat → Option (List Char × List Char)
  | cs, 0 => some ([], cs)
  | [], _ + 1 => none
  | c :: cs, n + 1 =>
    if c.utf8Size ≤ n + 1 then
      (cutAt? cs (n + 1 - c.utf8Size)).map fun (front, back) => (c :: front, back)
    else none

theorem cutAt?_append (front back : List Char) :
    cutAt? (front ++ back) (byteLength front) = some (front, back) := by
  induction front with
  | nil =>
    rw [byteLength_nil, List.nil_append, cutAt?]
  | cons c front ih =>
    obtain ⟨n, hn⟩ := Nat.exists_eq_add_one_of_ne_zero (Nat.ne_of_gt c.utf8Size_pos)
    have hLength : byteLength (c :: front) = (n + byteLength front) + 1 := by
      rw [byteLength_cons]
      omega
    have hRest : n + byteLength front + 1 - c.utf8Size = byteLength front := by omega
    rw [hLength, List.cons_append, cutAt?, if_pos (by omega), hRest, ih]
    rfl

theorem cutAt?_takeWhile (p : Char → Bool) (cs : List Char) :
    cutAt? cs (byteLength (cs.takeWhile p)) =
      some (cs.takeWhile p, cs.drop (cs.takeWhile p).length) := by
  have hCut := cutAt?_append (cs.takeWhile p) (cs.drop (cs.takeWhile p).length)
  rwa [append_drop_takeWhile] at hCut

theorem of_cutAt? {cs front back : List Char} {offset : Nat}
    (h : cutAt? cs offset = some (front, back)) : cs = front ++ back ∧ offset = byteLength front := by
  fun_induction cutAt? cs offset generalizing front with
  | case1 cs =>
    cases h
    exact ⟨rfl, byteLength_nil.symm⟩
  | case2 n => cases h
  | case3 c cs n hFits ih =>
    obtain ⟨⟨front', back'⟩, hRest, hCut⟩ := Option.map_eq_some_iff.mp h
    cases hCut
    obtain ⟨rfl, hOffset⟩ := ih hRest
    refine ⟨rfl, ?_⟩
    rw [byteLength_cons]
    omega
  | case4 c cs n hLong => cases h

/-- The offsets at which a text can be cut are those between its characters. -/
theorem isSome_cutAt?_iff (text : String) (offset : Nat) :
    (cutAt? text.toList offset).isSome = true ↔ String.Pos.Raw.IsValid text ⟨offset⟩ := by
  rw [String.Pos.Raw.isValid_iff_exists_append, Option.isSome_iff_exists]
  constructor
  · rintro ⟨⟨front, back⟩, hCut⟩
    obtain ⟨hText, rfl⟩ := of_cutAt? hCut
    refine ⟨String.ofList front, String.ofList back, ?_, rfl⟩
    rw [← String.ofList_append, ← hText, String.ofList_toList]
  · rintro ⟨front, back, rfl, hOffset⟩
    have hLength : offset = byteLength front.toList := by
      rw [byteLength, String.ofList_toList]
      exact congrArg String.Pos.Raw.byteIdx hOffset
    rw [hLength, String.toList_append, cutAt?_append]
    exact ⟨_, rfl⟩

def piece? (cs : List Char) (start stop : Nat) : Option (List Char) := do
  let (front, _) ← cutAt? cs stop
  let (_, piece) ← cutAt? front start
  return piece

theorem piece?_append (front piece back : List Char) :
    piece? (front ++ (piece ++ back)) (byteLength front) (byteLength front + byteLength piece) =
      some piece := by
  have hStop := cutAt?_append (front ++ piece) back
  rw [List.append_assoc, byteLength_append] at hStop
  simp only [piece?, hStop, cutAt?_append, Option.bind_eq_bind, Option.bind_some, Option.pure_def]

def utf8Bytes (cs : List Char) : List UInt8 := cs.flatMap String.utf8EncodeChar

theorem utf8EncodeChar_of_ne {a c : Char} (hAscii : a.toNat < 128) (hOther : c ≠ a) :
    ∃ b rest, String.utf8EncodeChar c = b :: rest ∧ b ≠ UInt8.ofNat a.toNat := by
  have hByte : ∀ n, n < 256 → n ≠ a.toNat → UInt8.ofNat n ≠ UInt8.ofNat a.toNat := by
    intro n hn hNe hSame
    have hLeft : (UInt8.ofNat n).toNat = n := UInt8.toNat_ofNat_of_lt hn
    have hRight : (UInt8.ofNat a.toNat).toNat = a.toNat :=
      UInt8.toNat_ofNat_of_lt (by simp only [UInt8.size]; omega)
    rw [hSame, hRight] at hLeft
    exact hNe hLeft.symm
  have hChar : c.val.toNat ≠ a.toNat := fun hSame => hOther (Char.toNat_inj.mp hSame)
  unfold String.utf8EncodeChar
  dsimp only
  split
  · exact ⟨_, _, rfl, hByte _ (by omega) hChar⟩
  · split
    · exact ⟨_, _, rfl, hByte _ (by omega) (by omega)⟩
    · split <;> exact ⟨_, _, rfl, hByte _ (by omega) (by omega)⟩

def leadingBytes (b : UInt8) (cs : List Char) : Nat := ((utf8Bytes cs).takeWhile (· == b)).length

theorem leadingBytes_bracket (cs : List Char) :
    leadingBytes 0x5b cs = (cs.takeWhile (· == '[')).length := by
  induction cs with
  | nil => rfl
  | cons c cs ih =>
    rw [leadingBytes, utf8Bytes, List.flatMap_cons]
    by_cases hBracket : c = '['
    · subst hBracket
      have hBytes : String.utf8EncodeChar '[' = [0x5b] := by decide
      rw [hBytes, List.takeWhile_cons_of_pos rfl, List.length_cons, ← ih]
      rfl
    · obtain ⟨b, rest, hBytes, hb⟩ := utf8EncodeChar_of_ne (a := '[') (by decide) hBracket
      have hStop : (b == 0x5b) = false := beq_false_of_ne hb
      rw [List.takeWhile_cons_of_neg (by simpa using hBracket), hBytes, List.cons_append]
      simp [hStop]

theorem head?_utf8Bytes_iff (c : Char) (cs : List Char) :
    (utf8Bytes (c :: cs)).head? = some 0x4c ↔ c = 'L' := by
  rw [utf8Bytes, List.flatMap_cons]
  constructor
  · intro hHead
    by_contra hOther
    obtain ⟨b, rest, hBytes, hb⟩ := utf8EncodeChar_of_ne (a := 'L') (by decide) hOther
    rw [hBytes] at hHead
    exact hb (Option.some.inj hHead)
  · rintro rfl
    rfl

def find? (c : Char) : List Char → Option Nat
  | [] => none
  | d :: cs => if d = c then some 0 else (find? c cs).map (d.utf8Size + ·)

theorem find?_eq (c : Char) (cs : List Char) :
    find? c cs = match cs.drop (cs.takeWhile (· != c)).length with
      | [] => none
      | _ :: _ => some (byteLength (cs.takeWhile (· != c))) := by
  induction cs with
  | nil => rfl
  | cons d cs ih =>
    rw [find?]
    split
    · next hSame =>
      subst hSame
      simp
    · next hOther =>
      rw [ih, List.takeWhile_cons_of_pos (by simpa using hOther), List.length_cons,
        List.drop_succ_cons]
      split <;> simp

/-- Bytes that the first field descriptor takes, if there is one. -/
def fieldLength (cs : List Char) : Option (Option Nat) := do
  -- brackets are counted and the letter `L` is looked for among bytes, not characters
  let dims := leadingBytes 0x5b cs
  let (_, rest) ← cutAt? cs dims
  match rest with
  | [] => return none
  | first :: _ =>
    if (utf8Bytes rest).head? = some 0x4c then return (find? ';' rest).map (dims + · + 1)
    else return some (dims + first.utf8Size)

theorem byteLength_brackets (cs : List Char) :
    byteLength (cs.takeWhile (· == '[')) = (cs.takeWhile (· == '[')).length := by
  rw [← TypeDescriptor.brackets_eq_takeWhile]
  induction (cs.takeWhile (· == '[')).length with
  | zero => exact byteLength_nil
  | succ n ih =>
    rw [List.replicate_succ, byteLength_cons, ih, List.length_cons, Nat.add_comm]
    rfl

theorem fieldLength_eq (cs : List Char) : fieldLength cs =
    some ((ProtoDescriptor.takeField cs).map fun taken => byteLength taken.1) := by
  have hCut := cutAt?_takeWhile (· == '[') cs
  rw [byteLength_brackets] at hCut
  unfold fieldLength ProtoDescriptor.takeField
  simp only [leadingBytes_bracket, hCut, Option.bind_eq_bind, Option.bind_some]
  split
  · next hEmpty =>
    rw [hEmpty]
    rfl
  · next first tail hRest =>
    rw [hRest]
    simp only [head?_utf8Bytes_iff]
    split
    · next hClass =>
      subst hClass
      rw [find?, if_neg (by decide), find?_eq]
      cases hLast : tail.drop (tail.takeWhile (· != ';')).length with
      | nil =>
        simp only [hLast]
        rfl
      | cons semicolon last =>
        cases first_until hLast
        have hSemicolon : ';'.utf8Size = 1 := by decide
        simp [hLast, byteLength_brackets, hSemicolon, Nat.add_assoc]
    · next hOther =>
      split
      · next hNil => cases hNil
      · next rest hClass => exact absurd (List.cons.inj hClass).1 hOther
      · next c rest _ hSame =>
        cases hSame
        simp [byteLength_brackets]

def readElement (element : List Char) : Option (Except TypeFault ElementType) :=
  if element.head? = some 'L' then do
    let (_, name) ← cutAt? element 1
    return if name.getLast? = some ';' then (ClassName.ofChars name.dropLast).map .object
      else .error .unterminatedClass
  else some (ElementType.parse element)

theorem readElement_eq (element : List Char) :
    readElement element = some (ElementType.parse element) := by
  unfold readElement
  split
  · next hClass =>
    obtain ⟨name, rfl⟩ := List.head?_eq_some_iff.mp hClass
    have hCut : cutAt? ('L' :: name) 1 = some (['L'], name) := cutAt?_append ['L'] name
    rw [hCut]
    rfl
  · rfl

def readType (text : String) : Option (Except DescriptorError TypeDescriptor) :=
  if text.isEmpty then some (.error .empty)
  else if text = "V" then some (.ok .void)
  else
    let dims := leadingBytes 0x5b text.toList
    if h : dims < 256 then do
      let (_, rest) ← cutAt? text.toList dims
      match ← readElement rest with
      | .ok element => return .ok (.field ⟨dims, h⟩ element)
      | .error fault => return .error (.invalid text fault)
    else some (.error (.invalid text .dimensions))

theorem readType_eq (text : String) : readType text = some (TypeDescriptor.parse text) := by
  have hCut := cutAt?_takeWhile (· == '[') text.toList
  rw [byteLength_brackets] at hCut
  unfold readType TypeDescriptor.parse
  simp only [leadingBytes_bracket, hCut, readElement_eq, Option.bind_eq_bind, Option.bind_some,
    Option.pure_def]
  split
  · rfl
  split
  · rfl
  split
  · cases ElementType.parse (text.toList.drop (text.toList.takeWhile (· == '[')).length) <;> rfl
  · rfl

theorem fieldLength_pos {cs : List Char} {length : Nat} (h : fieldLength cs = some (some length)) :
    0 < length := by
  rw [fieldLength_eq, Option.some.injEq, Option.map_eq_some_iff] at h
  obtain ⟨⟨field, rest⟩, hTake, rfl⟩ := h
  have hShorter := ProtoDescriptor.length_lt_of_takeField hTake
  rw [ProtoDescriptor.append_of_takeField hTake, List.length_append] at hShorter
  cases field with
  | nil => simp at hShorter
  | cons c field =>
    have hSize := c.utf8Size_pos
    dsimp only
    rw [byteLength_cons]
    omega

def readFields (params : List Char) (cursor : Nat) (read : Array TypeDescriptor) :
    Option (Option (Array TypeDescriptor)) :=
  if cursor < byteLength params then
    match cutAt? params cursor with
    | none => none
    | some (_, rest) =>
      match h : fieldLength rest with
      | none => none
      | some none => some none
      | some (some length) =>
        have := fieldLength_pos h
        match (piece? params cursor (cursor + length)).bind fun piece =>
          readType (String.ofList piece) with
        | none => none
        | some (.error _) => some none
        | some (.ok .void) => some none
        | some (.ok type) => readFields params (cursor + length) (read.push type)
  else some (some read)
termination_by byteLength params - cursor

/-- A prototype read in place; `none` where a cut was not possible. -/
def readProto (text : String) : Option (Except DescriptorError ProtoDescriptor) :=
  match text.toList with
  | '(' :: rest =>
    match find? ')' rest with
    | none => some (.error (.invalidMethod text))
    | some close => do
      let (inside, _) ← cutAt? rest close
      let (_, outside) ← cutAt? rest (close + 1)
      match ← readFields inside 0 #[] with
      | none => return .error (.invalidMethod text)
      | some params =>
        match ← readType (String.ofList outside) with
        | .error _ => return .error (.invalidMethod text)
        | .ok returns => return .ok ⟨returns, params.toList⟩
  | _ => some (.error (.invalidMethod text))

theorem readFields_of_ne_nil (before : List Char) {rest : List Char} (h : rest ≠ [])
    (read : Array TypeDescriptor) :
    readFields (before ++ rest) (byteLength before) read =
      match ProtoDescriptor.takeField rest with
      | none => some none
      | some (field, _) =>
        match TypeDescriptor.parse (String.ofList field) with
        | .ok .void => some none
        | .ok type =>
          readFields (before ++ rest) (byteLength before + byteLength field) (read.push type)
        | .error _ => some none := by
  have hMore : byteLength before < byteLength (before ++ rest) := by
    obtain ⟨c, cs, rfl⟩ := List.exists_cons_of_ne_nil h
    have hSize := c.utf8Size_pos
    rw [byteLength_append, byteLength_cons]
    omega
  rw [readFields, if_pos hMore, cutAt?_append]
  dsimp only
  split
  · next hNone =>
    rw [fieldLength_eq] at hNone
    cases hNone
  · next hNone =>
    rw [fieldLength_eq, Option.some.injEq, Option.map_eq_none_iff] at hNone
    rw [hNone]
  · next length hLength =>
    rw [fieldLength_eq, Option.some.injEq, Option.map_eq_some_iff] at hLength
    obtain ⟨⟨field, tail⟩, hTake, rfl⟩ := hLength
    have hPiece : piece? (before ++ rest) (byteLength before)
        (byteLength before + byteLength field) = some field := by
      rw [ProtoDescriptor.append_of_takeField hTake]
      exact piece?_append before field tail
    simp only [hTake, hPiece, Option.bind_some, readType_eq]
    cases TypeDescriptor.parse (String.ofList field) with
    | error fault => rfl
    | ok type => cases type <;> rfl

theorem readFields_eq (before rest : List Char) (read : Array TypeDescriptor) :
    readFields (before ++ rest) (byteLength before) read =
      some (ProtoDescriptor.parseFields rest read) := by
  -- along the cursor: what is left gets shorter by one descriptor at each turn
  by_cases hEmpty : rest = []
  · subst hEmpty
    rw [readFields, if_neg (by simp), ProtoDescriptor.parseFields]
    rfl
  rw [readFields_of_ne_nil before hEmpty, ProtoDescriptor.parseFields_of_ne_nil hEmpty]
  cases hTake : ProtoDescriptor.takeField rest with
  | none => rfl
  | some taken =>
    obtain ⟨field, tail⟩ := taken
    have hShorter := ProtoDescriptor.length_lt_of_takeField hTake
    have hRest := ProtoDescriptor.append_of_takeField hTake
    dsimp only
    cases TypeDescriptor.parse (String.ofList field) with
    | error fault => rfl
    | ok type =>
      cases type with
      | void => rfl
      | field dims element =>
        have hRead := readFields_eq (before ++ field) tail (read.push (.field dims element))
        rwa [byteLength_append, List.append_assoc, ← hRest] at hRead
termination_by rest.length

theorem cutAt?_behind {cs outside : List Char}
    (h : cs.drop (cs.takeWhile (· != ')')).length = ')' :: outside) :
    cutAt? cs (byteLength (cs.takeWhile (· != ')')) + 1) =
      some (cs.takeWhile (· != ')') ++ [')'], outside) := by
  have hSplit := append_drop_takeWhile (· != ')') cs
  have hParenthesis : byteLength [')'] = 1 := by decide
  have hCut := cutAt?_append (cs.takeWhile (· != ')') ++ [')']) outside
  rw [h] at hSplit
  rwa [byteLength_append, hParenthesis, List.append_assoc, List.singleton_append, hSplit] at hCut

theorem readProto_eq (text : String) : readProto text = some (ProtoDescriptor.parse text) := by
  unfold readProto ProtoDescriptor.parse ProtoDescriptor.parseBody
  generalize text.toList = cs
  by_cases hOpen : cs.head? = some '('
  · obtain ⟨rest, rfl⟩ := List.head?_eq_some_iff.mp hOpen
    have hInside := cutAt?_takeWhile (· != ')') rest
    have hParams := readFields_eq [] (rest.takeWhile (· != ')')) #[]
    rw [List.nil_append, byteLength_nil] at hParams
    simp only [find?_eq]
    cases hOutside : rest.drop (rest.takeWhile (· != ')')).length with
    | nil => rfl
    | cons c outside =>
      cases first_until hOutside
      simp only [hInside, cutAt?_behind hOutside, hParams, readType_eq, Option.bind_eq_bind,
        Option.bind_some, Option.pure_def]
      cases ProtoDescriptor.parseFields (rest.takeWhile (· != ')')) #[] with
      | none => rfl
      | some params => cases TypeDescriptor.parse (String.ofList outside) <;> rfl
  · have hOther : ∀ rest, cs = '(' :: rest → False := by
      rintro rest rfl
      exact hOpen rfl
    simp only

end ByOffset

namespace ProtoDescriptor

/-- Reading and printing prototypes are inverse to each other on the texts of the grammar, and every
text, of the grammar or not, can be read by cuts between its characters. -/
theorem parse_prints :
    (∀ text, (∃ p, parse text = .ok p) ↔ ProtoText text) ∧
    (∀ text, ByOffset.readProto text = some (parse text)) ∧
    (∀ text offset, (ByOffset.cutAt? text.toList offset).isSome = true ↔
      String.Pos.Raw.IsValid text ⟨offset⟩) ∧
    (∀ text p, parse text = .ok p → p.text = text) ∧
    (∀ p, (∀ t ∈ p.params, t ≠ .void) → parse p.text = .ok p) ∧
    ∀ p q : ProtoDescriptor, (∀ t ∈ p.params, t ≠ .void) → (∀ t ∈ q.params, t ≠ .void) →
      p.text = q.text → p = q := by
  have hPrinted : ∀ p, (∀ t ∈ p.params, t ≠ .void) → parse p.text = .ok p :=
    fun p hValues => parse_eq_ok_iff.mpr ⟨hValues, rfl⟩
  refine ⟨fun text => (protoText_iff text).symm, ByOffset.readProto_eq,
    ByOffset.isSome_cutAt?_iff, ?_, hPrinted, ?_⟩
  · intro text p hParse
    exact (parse_eq_ok_iff.mp hParse).2
  · intro p q hp hq hSame
    have hParse := hPrinted p hp
    rw [hSame, hPrinted q hq] at hParse
    exact (Except.ok.inj hParse).symm

/-- Its name takes more bytes than characters. -/
def wideName : ProtoDescriptor :=
  ⟨.void, [.field ⟨2, by decide⟩ (.object ⟨"é/日", rfl⟩), .ofPrimitive .long]⟩

theorem parse_prints_wideName :
    parse "([[Lé/日;J)V" = .ok wideName ∧ ProtoText "([[Lé/日;J)V" ∧
    ByOffset.readProto "([[Lé/日;J)V" = some (.ok wideName) ∧
    ¬String.Pos.Raw.IsValid "é" ⟨1⟩ := by
  obtain ⟨hGrammar, hOffsets, hCuts, -, hPrinted, -⟩ := parse_prints
  have hParse : parse "([[Lé/日;J)V" = .ok wideName := hPrinted wideName (by decide)
  refine ⟨hParse, (hGrammar _).mp ⟨_, hParse⟩, ?_, ?_⟩
  · rw [hOffsets, hParse]
  · rw [← hCuts]
    decide

end ProtoDescriptor

end DexForge
