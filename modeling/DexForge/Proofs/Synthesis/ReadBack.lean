import DexForge.Proofs.Layout.WellLaid
import DexForge.Proofs.Synthesis.SmallDescriptions

/-! # What is read back from a container

The reader undoes the writer. What it finds in a synthesized container is one class: the described
one, with the fields and the constructor of a proxy and a method for each that it overrides.
-/
set_option autoImplicit false

namespace DexForge

open DexForge.Except Image

namespace Image

/-- The reader undoes the writer: it finds the finished tables, entry by entry, and the definitions
of the given classes in the order that `arrange` puts them. -/
theorem load_write {pools : Pools} {tables : Tables} (hTables : pools.finish = .ok tables)
    {classes : List ClassDefinition} {bytes : Bytes} (hWrite : write tables classes = .ok bytes) :
    ∃ (c : Container) (order : List ClassDefinition) (linked ordered : List LinkedClass),
      Container.load bytes = .ok c ∧
      c.strings = tables.strings.entries ∧
      c.types = tables.types.entries ∧
      (c.protos.toList.map fun proto => (proto.shorty, proto.returns, proto.params)) =
        (tables.protos.entries.toList.map fun row =>
          (row.shorty, row.returns.toUInt32, row.params)) ∧
      c.fields = tables.fields.entries ∧
      c.methods = tables.methods.entries ∧
      classes.mapM tables.link = .ok linked ∧
      ClassOrder.arrange linked = .ok ordered ∧
      order.mapM tables.link = .ok ordered ∧
      order.Perm classes ∧
      List.Forall₂ (ClassStored tables) order c.classes.toList := by
  obtain ⟨linked, ordered, draft, region, fileSize, hLinked, hOrdered, hWritten⟩ :=
    write_eq_ok hWrite
  obtain ⟨items, hLoad⟩ := hWritten.load_eq_ok
  obtain ⟨order, hOrder, hPerm, hClasses⟩ := hWritten.exists_order hTables hLinked hOrdered
  refine ⟨_, order, linked, ordered, hLoad, rfl, rfl, ?_, rfl, rfl, hLinked, hOrdered, hOrder, hPerm,
    hClasses⟩
  have hProtos := hWritten.laid.protos
  rw [← List.forall₂_eq_eq_eq, List.forall₂_map_left_iff, List.forall₂_map_right_iff]
  refine hProtos.flip.imp ?_
  rintro proto row ⟨hRow, -⟩
  rw [hRow]
  rfl

theorem load_write_ledger : ∃ (pools : Pools) (tables : Tables) (definition : ClassDefinition)
    (bytes : Bytes) (c : Container), definition.descriptor = "Lbank/Ledger;" ∧
      pools.finish = .ok tables ∧ write tables [definition] = .ok bytes ∧
      Container.load bytes = .ok c ∧ c.strings = tables.strings.entries ∧
      List.Forall₂ (ClassStored tables) [definition] c.classes.toList := by
  obtain ⟨s, hSynthesized⟩ := HandlerBinding.exists_synthesize_ledger
  obtain ⟨definition, pools, tables, hRun, hTables, hWrite⟩ :=
    HandlerBinding.synthesize_eq_ok_iff.mp hSynthesized
  obtain ⟨-, -, hDescribes⟩ := ProxyClass.built_of_run hRun
  obtain ⟨c, order, -, -, hLoad, hStrings, -, -, -, -, -, -, -, hPerm, hStored⟩ :=
    load_write hTables hWrite
  obtain rfl := List.perm_singleton.mp hPerm
  exact ⟨pools, tables, definition, s.bytes, c, hDescribes.descriptor, hTables, hWrite, hLoad,
    hStrings, hStored⟩

/-- A file that was written loads, and in it every section and item of the tables and classes has a
place of its own, to which the header and the map list point. -/
theorem wellLaid_of_write {tables : Tables} {classes : List ClassDefinition} {bytes : Bytes}
    (hWrite : write tables classes = .ok bytes) :
    ∃ c : Container, Container.load bytes = .ok c ∧ c.bytes = bytes ∧ c.WellLaid ∧
      c.strings.size = tables.strings.size ∧ c.types.size = tables.types.size ∧
      c.protos.size = tables.protos.size ∧ c.fields.size = tables.fields.size ∧
      c.methods.size = tables.methods.size ∧ c.classes.size = classes.length := by
  obtain ⟨linked, ordered, draft, region, fileSize, hLinked, hOrdered, hWritten⟩ :=
    write_eq_ok hWrite
  obtain ⟨plan, hPlanned⟩ := hWritten.exists_planned
  obtain ⟨-, hProtos, hClasses⟩ := hPlanned.written.length_lists
  refine ⟨_, hPlanned.load_eq_ok, rfl, hPlanned.wellLaid, rfl, rfl, hProtos, rfl, rfl, ?_⟩
  calc
    _ = ordered.length := hClasses
    _ = linked.length := (ClassOrder.arrange_perm hOrdered).length_eq
    _ = classes.length := (mapM_eq_ok_iff.mp hLinked).length_eq.symm

theorem wellLaid_of_write_ledger : ∃ (tables : Tables) (definition : ClassDefinition)
    (bytes : Bytes) (c : Container), definition.descriptor = "Lbank/Ledger;" ∧
      write tables [definition] = .ok bytes ∧ Container.load bytes = .ok c ∧ c.bytes = bytes ∧
      c.WellLaid ∧ c.classes.size = 1 := by
  obtain ⟨s, hSynthesized⟩ := HandlerBinding.exists_synthesize_ledger
  obtain ⟨definition, pools, tables, hRun, -, hWrite⟩ :=
    HandlerBinding.synthesize_eq_ok_iff.mp hSynthesized
  obtain ⟨-, -, hDescribes⟩ := ProxyClass.built_of_run hRun
  obtain ⟨c, hLoad, hBytes, hLaid, -, -, -, -, -, hCount⟩ := wellLaid_of_write hWrite
  exact ⟨tables, definition, s.bytes, c, hDescribes.descriptor, hWrite, hLoad, hBytes, hLaid, hCount⟩

end Image

/-- `entry` is the method of the class `owner` that overrides `m`. -/
structure MethodEntry.Overrides (c : Container) (owner : String) (m : MethodDescription)
    (entry : MethodEntry) : Prop where
  ref : c.methodRef entry.method =
    .ok ⟨owner, m.name, "(" ++ String.join m.params ++ ")" ++ m.returns⟩
  types : ∃ shorty, c.methodTexts entry.method = .ok ⟨owner, m.name, ⟨shorty, m.returns, m.params⟩⟩
  access : entry.access =
    (if .isProtected ∈ m.access ∧ .isPublic ∉ m.access then .isProtected else .isPublic) |||
      (if .isVarargs ∈ m.access then .isVarargs else .none)

structure ClassData.OfProxy (c : Container) (binding : HandlerBinding) (d : ClassDescription)
    (data : ClassData) : Prop where
  staticFields : match binding.identity with
    | .methodArray name => ∃ entry, data.staticFields = [entry] ∧
        entry.access = .isPrivate ||| .isStatic ∧
        c.fieldRef entry.field = .ok ⟨d.name, name, "[Ljava/lang/reflect/Method;"⟩
    | .index | .name => data.staticFields = []
  instanceFields : ∃ entry, data.instanceFields = [entry] ∧
    entry.access = .isPrivate ||| .isFinal ∧
    c.fieldRef entry.field = .ok ⟨d.name, binding.field, binding.handler⟩
  directMethods : ∃ entry, data.directMethods = [entry] ∧
    entry.access = .isPublic ||| .isConstructor ∧
    c.methodTexts entry.method = .ok ⟨d.name, "<init>", ⟨"VL", "V", [binding.handler]⟩⟩
  virtualMethods : ∃ order, order.Perm d.overridable ∧
    List.Forall₂ (MethodEntry.Overrides c d.name) order data.virtualMethods

structure ClassDef.OfProxy (c : Container) (binding : HandlerBinding) (d : ClassDescription)
    (cls : ClassDef) : Prop where
  access : cls.access = .isPublic ||| .isFinal
  type : c.typeText cls.type = .ok d.name
  superclass : c.typeText cls.superclass = .ok d.superclass
  interfaces : cls.interfaces.mapM (fun index => c.typeText index.toUInt32) = .ok d.interfaces
  sourceFile : match d.sourceFile with
    | none => cls.sourceFile = noIndex
    | some file => c.string cls.sourceFile = .ok file
  members : ∃ data, cls.data = some data ∧ data.OfProxy c binding d

namespace Container.Shows

variable {p : Pools} {r : Ranking} {c : Container} {binding : HandlerBinding}
  {d : ClassDescription} {definition : ClassDefinition} {declared stored : ClassData}
  (h : c.Shows r) (hOrders : r.Orders p)
include h hOrders

theorem fieldRef_of_stored {owner name type : String} {f : FieldDefinition} {entry : FieldEntry}
    (hDenotes : Script.Denotes p f.field (.field owner name type))
    (hStored : FieldStored r.narrow f entry) : c.fieldRef entry.field = .ok ⟨owner, name, type⟩ :=
  h.lookup_of_place hOrders f.field hStored.field hDenotes

theorem overrides_of_stored {m : MethodDescription} {spec : MethodSpec} {ordinal : Nat}
    (hReads : m.Reads spec) {method : MethodDefinition} {entry : MethodEntry}
    (hAccess : method.access = spec.access.overriding)
    (hBody : ProxyClass.DescribesBody binding d (spec, ordinal) p method.body)
    (hStored : MethodStored r.narrow method entry) : entry.Overrides c d.name m := by
  have hTexts := h.methodTexts_of_place hOrders method.body.method hStored.method hBody.method
  have hProto : spec.proto.texts = ⟨spec.proto.shorty, m.returns, m.params⟩ := by
    rw [← hReads.texts, ← TypeDescriptor.text_of_parse hReads.returns]
    rfl
  have hFound : c.methodTexts entry.method =
      .ok ⟨d.name, m.name, ⟨spec.proto.shorty, m.returns, m.params⟩⟩ := by
    rw [hTexts, ← hProto, ← hReads.name]
    rfl
  refine ⟨methodRef_of_methodTexts hFound, ⟨_, hFound⟩, ?_⟩
  rw [hStored.access, hAccess, hReads.access, MethodDescription.overriding_flags]

theorem virtualMethods_of_stored (hDescribes : ProxyClass.Describes binding d p definition)
    (hStored : MembersStored r.narrow definition declared) (hSorts : SortsMembers declared stored) :
    ∃ order, order.Perm d.overridable ∧
      List.Forall₂ (MethodEntry.Overrides c d.name) order stored.virtualMethods := by
  obtain ⟨specs, hPlan, hMethods⟩ := hDescribes.virtualMethods
  have hReads := ClassDescription.specs_eq_ok_iff.mp (ProxyClass.specs_of_plan hPlan)
  rw [← List.zipIdx_map_fst 0 specs, List.forall₂_map_right_iff] at hReads
  have hDefinitions := Pairing.comp hReads hMethods (T := fun m method => ∃ spec : MethodSpec × Nat,
    m.Reads spec.1 ∧ method.access = spec.1.access.overriding ∧
      ProxyClass.DescribesBody binding d spec p method.body)
    fun _ spec _ hRead hMethod => ⟨spec, hRead.1, hMethod⟩
  have hDeclared : List.Forall₂ (fun entry m => MethodEntry.Overrides c d.name m entry)
      declared.virtualMethods d.overridable := by
    refine (Pairing.comp hDefinitions hStored.virtualMethods ?_).flip
    rintro m method entry ⟨spec, hRead, hAccess, hBody⟩ hOf
    exact h.overrides_of_stored hOrders hRead hAccess hBody hOf
  -- the entries were sorted by index, so the order of the methods follows them
  obtain ⟨order, hOrder, hPerm⟩ := List.perm_comp_forall₂ hSorts.virtualMethods.perm hDeclared
  exact ⟨order, hPerm, hOrder.flip⟩

theorem members_of_stored (hDescribes : ProxyClass.Describes binding d p definition)
    (hStored : MembersStored r.narrow definition declared) (hSorts : SortsMembers declared stored) :
    stored.OfProxy c binding d where
  staticFields := by
    have hArrays := hDescribes.staticFields
    rw [Delegation.methodArrays] at hArrays
    cases hIdentity : binding.identity with
    | methodArray name =>
      rw [hIdentity] at hArrays
      obtain ⟨f, rest, ⟨hField, hAccess⟩, hRest, hFields⟩ := List.forall₂_cons_left_iff.mp hArrays
      cases hRest
      obtain ⟨entry, hEntry, hOf⟩ :=
        exists_of_sorts_singleton (hFields ▸ hStored.staticFields) hSorts.staticFields
      exact ⟨entry, hEntry, hOf.access.trans hAccess, h.fieldRef_of_stored hOrders hField hOf⟩
    | index | name =>
      rw [hIdentity] at hArrays
      have hNone := hStored.staticFields
      rw [List.forall₂_nil_left_iff.mp hArrays, List.forall₂_nil_left_iff] at hNone
      exact List.perm_nil.mp (hNone ▸ hSorts.staticFields.perm)
  instanceFields := by
    obtain ⟨slot, hFields, hSlot⟩ := hDescribes.instanceFields
    obtain ⟨entry, hEntry, hOf⟩ :=
      exists_of_sorts_singleton (hFields ▸ hStored.instanceFields) hSorts.instanceFields
    exact ⟨entry, hEntry, hOf.access, h.fieldRef_of_stored hOrders hSlot hOf⟩
  directMethods := by
    obtain ⟨constructor, body, hMethods, hBody, hDenotes⟩ := hDescribes.directMethods
    obtain ⟨entry, hEntry, hOf⟩ :=
      exists_of_sorts_singleton (hMethods ▸ hStored.directMethods) hSorts.directMethods
    obtain ⟨handler, hHandler, rfl⟩ := Delegation.constructorBody_eq_ok hBody
    refine ⟨entry, hEntry, hOf.access, ?_⟩
    rw [h.methodTexts_of_place hOrders body.method hOf.method hDenotes.method,
      ← HandlerBinding.text_ofClass_of_handlerClass hHandler]
    rfl
  virtualMethods := h.virtualMethods_of_stored hOrders hDescribes hStored hSorts

theorem ofProxy_of_stored (hDescribes : ProxyClass.Describes binding d p definition)
    {cls : ClassDef} (hStored : ClassStored r.narrow definition cls) :
    cls.OfProxy c binding d where
  access := hStored.access.trans hDescribes.access
  type := h.lookup_of_place hOrders definition.type hStored.type hDescribes.type
  superclass := by
    obtain ⟨slot, hSlot, hDenotes⟩ := hDescribes.superclass
    have hSuperclass := hStored.superclass
    rw [hSlot] at hSuperclass
    exact h.lookup_of_place hOrders slot hSuperclass hDenotes
  interfaces := by
    rw [mapM_eq_ok_iff]
    exact (Pairing.comp hDescribes.interfaces hStored.interfaces fun _ slot _ hDenotes hIndex =>
      h.lookup_of_place hOrders slot hIndex hDenotes).flip
  sourceFile := by
    have hSlots := hDescribes.sourceFile
    have hIndex := hStored.sourceFile
    cases hFile : d.sourceFile with
    | none =>
      rw [hFile, Option.toList_none, List.forall₂_nil_left_iff, Option.toList_eq_nil_iff] at hSlots
      rwa [hSlots] at hIndex
    | some file =>
      rw [hFile] at hSlots
      cases hSlot : definition.sourceFile with
      | none =>
        rw [hSlot] at hSlots
        cases hSlots
      | some slot =>
        rw [hSlot] at hSlots hIndex
        exact h.lookup_of_place hOrders slot hIndex (List.forall₂_cons.mp hSlots).1
  members := by
    obtain ⟨declared, data, hData, hMembers, hSorts, -⟩ := hStored.members
    exact ⟨data, hData, h.members_of_stored hOrders hDescribes hMembers hSorts⟩

end Container.Shows

namespace HandlerBinding

/-- A synthesized container holds the class that was described and no other. -/
theorem ofProxy_of_synthesize {binding : HandlerBinding} {d : ClassDescription} {s : Synthesized}
    (h : binding.synthesize d = .ok s) :
    ∃ (c : Container) (cls : ClassDef), Container.load s.bytes = .ok c ∧
      c.classes.toList = [cls] ∧ cls.OfProxy c binding d := by
  obtain ⟨p, r, c, definition, cls, hOrders, hLoad, hShows, hClasses, hDescribes, hStored⟩ :=
    exists_stored h
  exact ⟨c, cls, hLoad, hClasses, hShows.ofProxy_of_stored hOrders hDescribes hStored⟩

theorem ofProxy_ledger : ∃ (s : Synthesized) (c : Container) (cls : ClassDef),
    HandlerBinding.reflect.synthesize .ledger = .ok s ∧ Container.load s.bytes = .ok c ∧
      c.classes.toList = [cls] ∧ cls.OfProxy c .reflect .ledger := by
  obtain ⟨s, hSynthesized⟩ := exists_synthesize_ledger
  obtain ⟨c, cls, hLoad, hClasses, hProxy⟩ := ofProxy_of_synthesize hSynthesized
  exact ⟨s, c, cls, hSynthesized, hLoad, hClasses, hProxy⟩

end HandlerBinding

end DexForge
