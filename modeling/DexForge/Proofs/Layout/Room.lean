import DexForge.Proofs.Layout.ClassOrder
import DexForge.Proofs.Layout.RoundTrip
import DexForge.Proofs.Pool.Finishing
import Mathlib.Algebra.GroupWithZero.Nat
import Mathlib.Algebra.Order.BigOperators.Group.List
import Mathlib.Algebra.Order.Group.Nat

/-! # The length of a file

Where every item of a file starts follows from the items in front of it. Classes that are linked and
can be lowered are written exactly when the file that they give ends below the largest offset; nothing
else can go wrong. A bound on that length depends on the number of items alone.
-/
set_option autoImplicit false

namespace DexForge

def offsetLimit : Nat := 0x100000000

theorem le_alignWord (n : Nat) : n ≤ alignWord n := by
  rw [alignWord]
  omega

namespace Placing

variable {α β : Type} {start middle stop : Nat} {m : Placing α} {a : α} {b : β}

/-- The action takes a region that ends at `start` to one that ends at `stop`, with the result `a`,
unless `stop` lies beyond the offsets. -/
structure Spans (start stop : Nat) (m : Placing α) (a : α) : Prop where
  le : start ≤ stop
  run : ∀ r : DataRegion, r.stop = start →
    (∃ r', m r = .ok (a, r') ∧ r'.stop = stop) ∨
      ∃ fault, m r = .error (.layoutOverflow fault) ∧ offsetLimit ≤ stop

theorem spans_pure (start : Nat) (a : α) : Spans start start (pure a) a :=
  ⟨Nat.le_refl start, fun r hr => Or.inl ⟨r, rfl, hr⟩⟩

theorem Spans.bind {f : α → Placing β} (h : Spans start middle m a)
    (hNext : Spans middle stop (f a) b) : Spans start stop (m >>= f) b := by
  refine ⟨Nat.le_trans h.le hNext.le, fun r hr => ?_⟩
  have hRun : (m >>= f) r = (m r >>= fun p => f p.1 p.2) := rfl
  obtain ⟨r', hOk, hStop⟩ | ⟨fault, hError, hLimit⟩ := h.run r hr
  · rw [hRun, hOk, Except.ok_bind]
    exact hNext.run r' hStop
  · rw [hRun, hError, Except.error_bind]
    exact Or.inr ⟨fault, rfl, Nat.le_trans hLimit hNext.le⟩

theorem Spans.exists_bind {f : α → Placing β} (h : Spans start middle m a)
    (hNext : ∃ b, Spans middle stop (f a) b) : ∃ b, Spans start stop (m >>= f) b := by
  obtain ⟨b, hb⟩ := hNext
  exact ⟨b, h.bind hb⟩

theorem Spans.congr_stop {stop' : Nat} (h : Spans start stop m a) (hStop : stop = stop') :
    Spans start stop' m a :=
  hStop ▸ h

theorem spans_lift {x : Except SynthesisError α} (hx : x = .ok a) :
    Spans start start (monadLift x : Placing α) a := by
  refine ⟨Nat.le_refl start, fun r hr => Or.inl ⟨r, ?_, hr⟩⟩
  rw [hx]
  rfl

theorem spans_here (placement : Placement) :
    Spans start start (here placement) (UInt32.ofNat start) := by
  refine ⟨Nat.le_refl start, fun r hr => ?_⟩
  have hRun : here placement r = (offset32 placement r.stop >>= fun o => .ok (o, r)) := rfl
  rw [hRun, hr, offset32]
  split
  · exact Or.inl ⟨r, rfl, hr⟩
  · next hLimit => exact Or.inr ⟨_, rfl, Nat.not_lt.mp hLimit⟩

theorem spans_append (bytes : List UInt8) :
    Spans start (start + bytes.length) (append bytes) () := by
  refine ⟨Nat.le_add_right start _, fun r hr => Or.inl ⟨r.append bytes, rfl, ?_⟩⟩
  rw [DataRegion.stop_append, hr]

theorem spans_align : Spans start (alignWord start) align () := by
  have hLe := le_alignWord start
  refine ⟨hLe, fun r hr => Or.inl ⟨r.pad, rfl, ?_⟩⟩
  rw [DataRegion.pad, DataRegion.stop_append, List.length_replicate, hr]
  omega

theorem spans_item (placement : Placement) (bytes : List UInt8) :
    Spans start (start + bytes.length) (item placement bytes) (UInt32.ofNat start) :=
  (spans_here placement).bind ((spans_append bytes).bind (spans_pure _ _))

theorem spans_alignedItem (placement : Placement) (bytes : List UInt8) :
    Spans start (alignWord start + bytes.length) (alignedItem placement bytes)
      (UInt32.ofNat (alignWord start)) :=
  spans_align.bind (spans_item placement bytes)

/-- What the elements of a list become, each from where the one in front of it ends. -/
def thread (step : Nat → α → Nat) (place : Nat → α → β) : Nat → List α → List β
  | _, [] => []
  | start, a :: rest => place start a :: thread step place (step start a) rest

theorem length_thread (step : Nat → α → Nat) (place : Nat → α → β) (start : Nat) (as : List α) :
    (thread step place start as).length = as.length := by
  induction as generalizing start with
  | nil => rfl
  | cons a as ih => rw [thread, List.length_cons, List.length_cons, ih]

theorem spans_mapM {f : α → Placing β} {step : Nat → α → Nat} {place : Nat → α → β} {as : List α}
    (h : ∀ a ∈ as, ∀ start, Spans start (step start a) (f a) (place start a)) (start : Nat) :
    Spans start (as.foldl step start) (as.mapM f) (thread step place start as) := by
  induction as generalizing start with
  | nil => exact spans_pure start []
  | cons a as ih =>
    rw [List.forall_mem_cons] at h
    rw [List.mapM_cons, List.foldl_cons, thread]
    exact (h.1 start).bind ((ih h.2 _).bind (spans_pure _ _))

end Placing

namespace Image

open Placing LittleEndian

variable {tables : Tables}

def codeUnits (tables : Tables) (body : MethodBody Slot) : List UInt16 :=
  match body.code.mapM (Operation.lower tables) with
  | .ok instructions => instructions.flatMap Instruction.encode
  | .error _ => []

def codeItemAt (tables : Tables) (start : Nat) (body : MethodBody Slot) : CodeItem :=
  ⟨UInt32.ofNat (alignWord start), body.registers, body.ins, body.outs, 0, 0, codeUnits tables body⟩

/-- Where a method's code ends: a head of sixteen bytes and two for each unit, at a multiple of
four. -/
def methodStop (tables : Tables) (start : Nat) (m : LinkedMethod) : Nat :=
  alignWord start + (16 + 2 * (codeUnits tables m.body).length)

def methodAt (tables : Tables) (start : Nat) (m : LinkedMethod) : MethodEntry :=
  ⟨m.method.toUInt32, m.access, (codeItemAt tables start m.body).offset,
   some (codeItemAt tables start m.body)⟩

def Lowers (tables : Tables) (c : LinkedClass) : Prop :=
  ∀ m ∈ c.directMethods ++ c.virtualMethods,
    ∃ is, m.body.code.mapM (Operation.lower tables) = .ok is

theorem spans_placeCode {body : MethodBody Slot}
    (h : ∃ is, body.code.mapM (Operation.lower tables) = .ok is) (start : Nat) :
    Spans start (alignWord start + (16 + 2 * (codeUnits tables body).length))
      (placeCode tables body) (codeItemAt tables start body) := by
  obtain ⟨is, hLower⟩ := h
  have hUnits : codeUnits tables body = is.flatMap Instruction.encode := by
    rw [codeUnits, hLower]
  refine spans_align.bind ((spans_here .codeItem).bind ((spans_lift hLower).bind ?_))
  rw [hUnits, codeItemAt, hUnits]
  dsimp only
  split
  · next hLimit =>
    refine ⟨Nat.le_add_right _ _, fun r _ => Or.inr ⟨_, rfl, ?_⟩⟩
    rw [offsetLimit]
    omega
  · refine Spans.bind ((spans_append _).congr_stop ?_) (spans_pure _ _)
    simp only [CodeItem.encode, List.length_append, length_ofUInt16, length_ofUInt32,
      length_flatMap_of_width length_ofUInt16]

theorem spans_placeMethod {m : LinkedMethod}
    (h : ∃ is, m.body.code.mapM (Operation.lower tables) = .ok is) (start : Nat) :
    Spans start (methodStop tables start m) (placeMethod tables m) (methodAt tables start m) :=
  (spans_placeCode h start).bind (spans_pure _ _)

/-- Where the code of a class ends, and what its class data then is, before it is sorted. -/
def classStop (tables : Tables) (start : Nat) (c : LinkedClass) : Nat :=
  c.virtualMethods.foldl (methodStop tables) (c.directMethods.foldl (methodStop tables) start)

def classDataAt (tables : Tables) (start : Nat) (c : LinkedClass) : ClassData :=
  ⟨c.staticFields, c.instanceFields,
   thread (methodStop tables) (methodAt tables) start c.directMethods,
   thread (methodStop tables) (methodAt tables) (c.directMethods.foldl (methodStop tables) start)
     c.virtualMethods⟩

theorem spans_placeMethods {c : LinkedClass} (h : Lowers tables c) (start : Nat) :
    Spans start (classStop tables start c) (placeMethods tables c) (classDataAt tables start c) := by
  obtain ⟨hDirect, hVirtual⟩ := List.forall_mem_append.mp h
  exact (spans_mapM (fun m hm => spans_placeMethod (hDirect m hm)) start).bind
    ((spans_mapM (fun m hm => spans_placeMethod (hVirtual m hm)) _).bind (spans_pure _ _))

def storedTypeLists (tables : Tables) (classes : List LinkedClass) : List (List UInt16) :=
  (collectTypeLists (tables.protos.entries.toList.map ProtoRow.params ++
    classes.map LinkedClass.interfaces)).entries.toList

/-- Entries of the map: one for the header, one for the map and one for each kind of item that the
file has. -/
def mapCount (tables : Tables) (classes : List LinkedClass) : Nat :=
  let ids := sections tables classes.length
  2 + [ids.strings, ids.types, ids.protos, ids.fields, ids.methods, ids.classes].countP
      (fun s => s.size ≠ 0) +
    [(classes.flatMap fun c => c.directMethods ++ c.virtualMethods).length,
      (storedTypeLists tables classes).length, tables.strings.size, classes.length].countP (· ≠ 0)

/-- Number of bytes of the file that defines `classes`, in this order: header and id sections, code
items, type lists, texts, class data and the map. -/
def fileLength (tables : Tables) (classes : List LinkedClass) : Nat :=
  let ids := (sections tables classes.length).stop
  let code := classes.foldl (classStop tables) ids
  let lists := (storedTypeLists tables classes).foldl
    (fun start types => alignWord start + (4 + 2 * types.length)) code
  let texts := tables.strings.entries.toList.foldl
    (fun start text => start + (encodeText text).length) lists
  let data := (thread (classStop tables) (classDataAt tables) ids classes).foldl
    (fun start d => start + (sortMembers d).encode.length) texts
  alignWord data + (4 + 12 * mapCount tables classes)

theorem length_encodeTypeList (types : List UInt16) :
    (encodeTypeList types).length = 4 + 2 * types.length := by
  rw [encodeTypeList, List.length_append, length_ofUInt32, length_flatMap_of_width length_ofUInt16]

theorem length_encodeMap (items : List MapItem) :
    (encodeMap items).length = 4 + 12 * items.length := by
  have hItem : ∀ item : MapItem, item.encode.length = 12 := fun _ => rfl
  rw [encodeMap, List.length_append, length_ofUInt32, length_flatMap_of_width hItem]

theorem length_mapSection (kind : ItemKind) (s : Section) :
    (mapSection kind s).length = if s.size ≠ 0 then 1 else 0 := by
  unfold mapSection
  split <;> simp [*]

theorem length_mapItems (kind : ItemKind) (offsets : List UInt32) :
    (mapItems kind offsets).length = if offsets.length ≠ 0 then 1 else 0 := by
  unfold mapItems
  split <;> simp

theorem length_codeOffsets (tables : Tables) (start : Nat) (classes : List LinkedClass) :
    ((thread (classStop tables) (classDataAt tables) start classes).flatMap fun d =>
      d.methods.map MethodEntry.codeOffset).length =
      (classes.flatMap fun c => c.directMethods ++ c.virtualMethods).length := by
  induction classes generalizing start with
  | nil => rfl
  | cons c classes ih =>
    rw [thread, List.flatMap_cons, List.flatMap_cons, List.length_append, List.length_append, ih]
    simp [classDataAt, ClassData.methods, length_thread]

theorem spans_placeData {classes : List LinkedClass} (h : ∀ c ∈ classes, Lowers tables c) :
    ∃ draft, Spans (sections tables classes.length).stop (fileLength tables classes)
      (placeData tables (sections tables classes.length) classes) draft := by
  have hLists : ∀ types ∈ storedTypeLists tables classes, ∀ start,
      Spans start (alignWord start + (4 + 2 * types.length))
        (alignedItem .typeList (encodeTypeList types)) (UInt32.ofNat (alignWord start)) := by
    intro types _ start
    rw [← length_encodeTypeList]
    exact spans_alignedItem .typeList (encodeTypeList types)
  have hTexts : ∀ text ∈ tables.strings.entries.toList, ∀ start,
      Spans start (start + (encodeText text).length) (item .stringData (encodeText text))
        (UInt32.ofNat start) := fun text _ start => spans_item .stringData (encodeText text)
  have hData : ∀ d ∈ (thread (classStop tables) (classDataAt tables)
      (sections tables classes.length).stop classes).map sortMembers, ∀ start,
      Spans start (start + d.encode.length) (item .classData d.encode) (UInt32.ofNat start) :=
    fun d _ start => spans_item .classData d.encode
  refine (spans_mapM (fun c hc => spans_placeMethods (h c hc)) _).exists_bind ?_
  refine (spans_mapM hLists _).exists_bind ?_
  refine (spans_mapM hTexts _).exists_bind ?_
  refine (spans_mapM hData _).exists_bind ?_
  refine spans_align.exists_bind ((spans_here .mapList).exists_bind ?_)
  refine Spans.exists_bind ((spans_append _).congr_stop ?_) ⟨_, spans_pure _ _⟩
  rw [length_encodeMap, List.foldl_map]
  simp only [List.length_append, length_mapSection, length_mapItems, length_codeOffsets,
    length_thread, List.length_map, List.length_cons, List.length_nil]
  refine congrArg (fun n => alignWord _ + (4 + 12 * n)) ?_
  simp only [mapCount, List.countP_cons, List.countP_nil, decide_eq_true_eq, Array.length_toList,
    Ranked.size]
  omega

theorem late_of_place {waiting : List LinkedClass} {e : SynthesisError}
    (h : ClassOrder.place waiting = .error e) : e.Late := by
  induction waiting using ClassOrder.place.induct with
  | case1 =>
    rw [ClassOrder.place] at h
    cases h
  | case2 first others hNone =>
    rw [ClassOrder.place_of_none hNone] at h
    cases h
    exact .cycle _
  | case3 first others i hSome hBound ih =>
    rw [ClassOrder.place_of_some hSome (List.getElem?_eq_getElem hBound)] at h
    refine ih ?_
    cases hRest : ClassOrder.place ((first :: others).eraseIdx i) with
    | error e' =>
      rw [hRest] at h
      exact h
    | ok rest =>
      rw [hRest] at h
      cases h

theorem late_of_arrange {classes : List LinkedClass} {e : SynthesisError}
    (h : ClassOrder.arrange classes = .error e) : e.Late := by
  unfold ClassOrder.arrange at h
  split at h
  · cases h
    exact .classTwice _
  · exact late_of_place h

section Writing

variable {classes : List ClassDefinition} {linked : List LinkedClass}
  (hLinked : classes.mapM tables.link = .ok linked) (hLowers : ∀ c ∈ linked, Lowers tables c)
include hLinked hLowers

/-- Classes that are linked and can be lowered are written, unless there is no order for them or
their file is too long. -/
theorem write_of_arrange {ordered : List LinkedClass}
    (hOrdered : ClassOrder.arrange linked = .ok ordered) :
    (∃ bytes, write tables classes = .ok bytes ∧ fileLength tables ordered < offsetLimit) ∨
      ∃ fault, write tables classes = .error (.layoutOverflow fault) ∧
        offsetLimit ≤ fileLength tables ordered := by
  have hLowers' : ∀ c ∈ ordered, Lowers tables c := fun c hc =>
    hLowers c ((ClassOrder.arrange_perm hOrdered).mem_iff.mp hc)
  obtain ⟨draft, hSpans⟩ := spans_placeData hLowers'
  have hPlaced := hSpans.run ⟨(sections tables ordered.length).stop, #[]⟩ (Nat.add_zero _)
  rw [write, hLinked, Except.ok_bind, hOrdered, Except.ok_bind]
  obtain ⟨region, hData, hStop⟩ | ⟨fault, hFault, hLimit⟩ := hPlaced
  · have hRun : (placeData tables (sections tables ordered.length) ordered).run
        ⟨(sections tables ordered.length).stop, #[]⟩ = .ok (draft, region) := hData
    dsimp only
    rw [hRun, Except.ok_bind]
    dsimp only
    rw [offset32, hStop]
    split
    · next hSize => exact Or.inl ⟨_, rfl, hSize⟩
    · next hSize => exact Or.inr ⟨_, rfl, Nat.not_lt.mp hSize⟩
  · have hRun : (placeData tables (sections tables ordered.length) ordered).run
        ⟨(sections tables ordered.length).stop, #[]⟩ = .error (.layoutOverflow fault) := hFault
    dsimp only
    rw [hRun, Except.error_bind]
    exact Or.inr ⟨fault, rfl, hLimit⟩

theorem exists_write_iff : (∃ bytes, write tables classes = .ok bytes) ↔
    ∃ ordered, ClassOrder.arrange linked = .ok ordered ∧ fileLength tables ordered < offsetLimit := by
  constructor
  · rintro ⟨bytes, hBytes⟩
    obtain ⟨linked', ordered, -, -, -, hLinked', hOrdered, -⟩ := write_eq_ok hBytes
    obtain rfl := Except.ok.inj (hLinked.symm.trans hLinked')
    obtain ⟨-, -, hLength⟩ | ⟨fault, hFault, -⟩ := write_of_arrange hLinked hLowers hOrdered
    · exact ⟨ordered, hOrdered, hLength⟩
    · rw [hFault] at hBytes
      cases hBytes
  · rintro ⟨ordered, hOrdered, hLength⟩
    obtain ⟨bytes, hBytes, -⟩ | ⟨-, -, hLimit⟩ := write_of_arrange hLinked hLowers hOrdered
    · exact ⟨bytes, hBytes⟩
    · exact absurd hLength (Nat.not_lt.mpr hLimit)

theorem late_of_write {e : SynthesisError} (h : write tables classes = .error e) : e.Late := by
  cases hOrdered : ClassOrder.arrange linked with
  | error e' =>
    rw [write, hLinked, Except.ok_bind, hOrdered, Except.error_bind] at h
    cases h
    exact late_of_arrange hOrdered
  | ok ordered =>
    obtain ⟨bytes, hOk, -⟩ | ⟨fault, hFault, -⟩ := write_of_arrange hLinked hLowers hOrdered
    · rw [hOk] at h
      cases h
    · rw [hFault] at h
      cases h
      exact .layoutOverflow fault

end Writing

end Image

theorem Instruction.size_le (i : Instruction) : i.size ≤ 3 := by
  cases i <;> simp [size]

theorem length_flatMap_le {α β : Type} {f : α → List β} {xs : List α} (width : Nat)
    (h : ∀ x ∈ xs, (f x).length ≤ width) : (xs.flatMap f).length ≤ width * xs.length := by
  induction xs with
  | nil => exact Nat.le_refl 0
  | cons x xs ih =>
    rw [List.forall_mem_cons] at h
    have hRest := ih h.2
    rw [List.flatMap_cons, List.length_append, List.length_cons, Nat.mul_succ]
    omega

namespace ClassData

/-- Room for the class data of so many members. -/
def room (fields methods : Nat) : Nat := 20 + 10 * fields + 15 * methods

theorem length_encode_le (d : ClassData) :
    d.encode.length ≤ room d.fields.length d.methods.length := by
  have hFields : ∀ fields : List FieldEntry, (encodeFields fields).length ≤ 10 * fields.length := by
    intro fields
    refine Nat.le_trans (length_flatMap_le 10 ?_) (by simp)
    rintro ⟨previous, f⟩ -
    have h₁ := Uleb128.length_encode_le (f.field - previous)
    have h₂ := Uleb128.length_encode_le f.access.bits
    simp only [encodeField, List.length_append]
    omega
  have hMethods : ∀ methods : List MethodEntry,
      (encodeMethods methods).length ≤ 15 * methods.length := by
    intro methods
    refine Nat.le_trans (length_flatMap_le 15 ?_) (by simp)
    rintro ⟨previous, m⟩ -
    have h₁ := Uleb128.length_encode_le (m.method - previous)
    have h₂ := Uleb128.length_encode_le m.access.bits
    have h₃ := Uleb128.length_encode_le m.codeOffset
    simp only [encodeMethod, List.length_append]
    omega
  have hCounts : ∀ counts : List Nat,
      (counts.flatMap fun n => Uleb128.encode (UInt32.ofNat n)).length ≤ 5 * counts.length :=
    fun counts => length_flatMap_le 5 fun n _ => Uleb128.length_encode_le _
  have h := hCounts [d.staticFields.length, d.instanceFields.length, d.directMethods.length,
    d.virtualMethods.length]
  have h₁ := hFields d.staticFields
  have h₂ := hFields d.instanceFields
  have h₃ := hMethods d.directMethods
  have h₄ := hMethods d.virtualMethods
  simp only [encode, room, fields, methods, List.length_append, List.length_cons, List.length_nil]
    at h ⊢
  omega

end ClassData

namespace Image

open Placing

variable {tables : Tables}

theorem foldl_le {α : Type} {step : Nat → α → Nat} (room : α → Nat) {as : List α}
    (h : ∀ a ∈ as, ∀ start, step start a ≤ start + room a) (start : Nat) :
    as.foldl step start ≤ start + (as.map room).sum := by
  induction as generalizing start with
  | nil => exact Nat.le_refl start
  | cons a as ih =>
    rw [List.forall_mem_cons] at h
    have hHead := h.1 start
    have hTail := ih h.2 (step start a)
    rw [List.foldl_cons, List.map_cons, List.sum_cons]
    omega

theorem alignWord_le (n : Nat) : alignWord n ≤ n + 3 := by
  rw [alignWord]
  omega

def codeRoom (body : MethodBody Slot) : Nat := 19 + 6 * body.code.length

theorem length_codeUnits_le (tables : Tables) (body : MethodBody Slot) :
    (codeUnits tables body).length ≤ 3 * body.code.length := by
  rw [codeUnits]
  split
  · next is hLower =>
    rw [(Except.mapM_eq_ok_iff.mp hLower).length_eq]
    refine length_flatMap_le 3 fun i _ => ?_
    rw [Instruction.length_encode]
    exact i.size_le
  · exact Nat.zero_le _

theorem methodStop_le (start : Nat) (m : LinkedMethod) :
    methodStop tables start m ≤ start + codeRoom m.body := by
  have hUnits := length_codeUnits_le tables m.body
  have hAlign := alignWord_le start
  rw [methodStop, codeRoom]
  omega

def classCodeRoom (c : LinkedClass) : Nat :=
  ((c.directMethods ++ c.virtualMethods).map fun m => codeRoom m.body).sum

def classDataRoom (c : LinkedClass) : Nat :=
  ClassData.room (c.staticFields.length + c.instanceFields.length)
    (c.directMethods.length + c.virtualMethods.length)

theorem classStop_le (start : Nat) (c : LinkedClass) :
    classStop tables start c ≤ start + classCodeRoom c := by
  rw [classStop, ← List.foldl_append, classCodeRoom]
  exact foldl_le (fun m => codeRoom m.body) (fun m _ start => methodStop_le start m) start

theorem length_encode_classDataAt_le (start : Nat) (c : LinkedClass) :
    (sortMembers (classDataAt tables start c)).encode.length ≤ classDataRoom c := by
  refine Nat.le_trans (ClassData.length_encode_le _) (Nat.le_of_eq ?_)
  simp [classDataRoom, sortMembers, sortFields, sortMethods, classDataAt, ClassData.fields,
    ClassData.methods, length_thread]

theorem foldl_classDataAt_le (classes : List LinkedClass) (start code : Nat) :
    (thread (classStop tables) (classDataAt tables) code classes).foldl
      (fun start d => start + (sortMembers d).encode.length) start ≤
      start + (classes.map classDataRoom).sum := by
  induction classes generalizing start code with
  | nil => exact Nat.le_refl start
  | cons c classes ih =>
    have hHead : (sortMembers (classDataAt tables code c)).encode.length ≤ classDataRoom c :=
      length_encode_classDataAt_le code c
    have hTail := ih (start + (sortMembers (classDataAt tables code c)).encode.length)
      (classStop tables code c)
    rw [thread, List.foldl_cons, List.map_cons, List.sum_cons]
    omega

theorem mapCount_le (classes : List LinkedClass) : mapCount tables classes ≤ 12 := by
  have hSections := List.countP_le_length (p := fun s : Section => decide (s.size ≠ 0))
    (l := [(sections tables classes.length).strings, (sections tables classes.length).types,
      (sections tables classes.length).protos, (sections tables classes.length).fields,
      (sections tables classes.length).methods, (sections tables classes.length).classes])
  have hItems := List.countP_le_length (p := fun n : Nat => decide (n ≠ 0))
    (l := [(classes.flatMap fun c => c.directMethods ++ c.virtualMethods).length,
      (storedTypeLists tables classes).length, tables.strings.size, classes.length])
  simp only [List.length_cons, List.length_nil] at hSections hItems
  simp only [mapCount]
  omega

def room (tables : Tables) (classes : List LinkedClass) : Nat :=
  (classes.map classCodeRoom).sum +
    ((storedTypeLists tables classes).map fun types => 7 + 2 * types.length).sum +
    (tables.strings.entries.toList.map fun text => (encodeText text).length).sum +
    (classes.map classDataRoom).sum + 151

theorem fileLength_le (tables : Tables) (classes : List LinkedClass) :
    fileLength tables classes ≤ (sections tables classes.length).stop + room tables classes := by
  have hCode : ∀ start, classes.foldl (classStop tables) start ≤
      start + (classes.map classCodeRoom).sum :=
    foldl_le classCodeRoom fun c _ start => classStop_le start c
  have hLists : ∀ start, (storedTypeLists tables classes).foldl
      (fun start types => alignWord start + (4 + 2 * types.length)) start ≤
      start + ((storedTypeLists tables classes).map fun types => 7 + 2 * types.length).sum := by
    refine foldl_le _ fun types _ start => ?_
    have hAlign := alignWord_le start
    omega
  have hTexts : ∀ start, tables.strings.entries.toList.foldl
      (fun start text => start + (encodeText text).length) start ≤
      start + (tables.strings.entries.toList.map fun text => (encodeText text).length).sum :=
    foldl_le _ fun _ _ _ => Nat.le_refl _
  have hData : ∀ start, (thread (classStop tables) (classDataAt tables)
      (sections tables classes.length).stop classes).foldl
        (fun start d => start + (sortMembers d).encode.length) start ≤
      start + (classes.map classDataRoom).sum := fun start => foldl_classDataAt_le classes start _
  have hMap : mapCount tables classes ≤ 12 := mapCount_le classes
  refine Nat.le_trans (Nat.add_le_add_right (alignWord_le _) _) ?_
  -- each part starts where the one in front of it ends
  refine Nat.le_trans (Nat.add_le_add_right (Nat.add_le_add_right (hData _) 3) _) ?_
  have hEnd := Nat.le_trans (hTexts _) (Nat.add_le_add_right (Nat.le_trans (hLists _)
    (Nat.add_le_add_right (hCode (sections tables classes.length).stop) _)) _)
  rw [room]
  omega

end Image

end DexForge
