import DexForge.Proofs.Layout.ClassOrder
import DexForge.Proofs.Layout.RoundTrip
import DexForge.Proofs.Pool.Finishing

/-! # A written container holds its classes

What a reader finds is told in terms of the class definitions that were given: every reference is
the final index of its slot, and the members of a class are its own.
-/
set_option autoImplicit false

namespace DexForge

structure Tables.Links (tables : Tables) (c : ClassDefinition) (l : LinkedClass) : Prop where
  type : tables.type c.type = .ok l.type
  access : l.access = c.access
  superclass : c.superclass.mapM tables.type = .ok l.superclass
  interfaces : List.Forall₂ (fun slot index => tables.type slot = .ok index) c.interfaces
    l.interfaces
  sourceFile : c.sourceFile.mapM tables.string = .ok l.sourceFile
  staticFields : List.Forall₂ (fun f entry => tables.linkField f = .ok entry) c.staticFields
    l.staticFields
  instanceFields : List.Forall₂ (fun f entry => tables.linkField f = .ok entry) c.instanceFields
    l.instanceFields
  directMethods : List.Forall₂ (fun m l => tables.linkMethod m = .ok l) c.directMethods
    l.directMethods
  virtualMethods : List.Forall₂ (fun m l => tables.linkMethod m = .ok l) c.virtualMethods
    l.virtualMethods

theorem Tables.links_of_link {tables : Tables} {c : ClassDefinition} {l : LinkedClass}
    (h : tables.link c = .ok l) : tables.Links c l := by
  obtain ⟨type, hType, h⟩ := Except.bind_eq_ok_iff.mp h
  obtain ⟨superclass, hSuperclass, h⟩ := Except.bind_eq_ok_iff.mp h
  obtain ⟨interfaces, hInterfaces, h⟩ := Except.bind_eq_ok_iff.mp h
  obtain ⟨sourceFile, hSourceFile, h⟩ := Except.bind_eq_ok_iff.mp h
  obtain ⟨staticFields, hStatic, h⟩ := Except.bind_eq_ok_iff.mp h
  obtain ⟨instanceFields, hInstance, h⟩ := Except.bind_eq_ok_iff.mp h
  obtain ⟨directMethods, hDirect, h⟩ := Except.bind_eq_ok_iff.mp h
  obtain ⟨virtualMethods, hVirtual, h⟩ := Except.bind_eq_ok_iff.mp h
  rw [Except.pure_eq_ok_iff] at h
  subst h
  rw [Except.mapM_eq_ok_iff] at hInterfaces hStatic hInstance hDirect hVirtual
  exact ⟨hType, rfl, hSuperclass, hInterfaces, hSourceFile, hStatic, hInstance, hDirect, hVirtual⟩

namespace ClassData

/-- Each index is at least the one in front of it, so no stored difference is below zero. -/
structure Ascending (d : ClassData) : Prop where
  staticFields : d.staticFields.Pairwise fun a b => a.field ≤ b.field
  instanceFields : d.instanceFields.Pairwise fun a b => a.field ≤ b.field
  directMethods : d.directMethods.Pairwise fun a b => a.method ≤ b.method
  virtualMethods : d.virtualMethods.Pairwise fun a b => a.method ≤ b.method

end ClassData

namespace Image

/-- `index` is the final index of `slot`, in full. -/
def Remaps {α : Type} {t : TableName} (table : Ranked α) (slot : Slot t) (index : UInt32) : Prop :=
  table.rank[slot.position]? = some index.toNat

def RemapsOption {α : Type} {t : TableName} (table : Ranked α) (slot? : Option (Slot t))
    (index : UInt32) : Prop :=
  match slot? with
  | none => index = noIndex
  | some slot => Remaps table slot index

structure FieldStored (tables : Tables) (f : FieldDefinition) (entry : FieldEntry) : Prop where
  field : Remaps tables.fields f.field entry.field
  access : entry.access = f.access

structure MethodStored (tables : Tables) (m : MethodDefinition) (entry : MethodEntry) : Prop where
  method : Remaps tables.methods m.body.method entry.method
  access : entry.access = m.access
  code : ∃ code, entry.code = some code ∧ code.offset = entry.codeOffset ∧
    StoresCode tables m.body code

/-- `declared` has an entry for each member of `c`, in the order of declaration, which is also the
order of the code. -/
structure MembersStored (tables : Tables) (c : ClassDefinition) (declared : ClassData) : Prop where
  staticFields : List.Forall₂ (FieldStored tables) c.staticFields declared.staticFields
  instanceFields : List.Forall₂ (FieldStored tables) c.instanceFields declared.instanceFields
  directMethods : List.Forall₂ (MethodStored tables) c.directMethods declared.directMethods
  virtualMethods : List.Forall₂ (MethodStored tables) c.virtualMethods declared.virtualMethods
  directCode : declared.directMethods.Pairwise fun a b => a.codeOffset < b.codeOffset
  virtualCode : declared.virtualMethods.Pairwise fun a b => a.codeOffset < b.codeOffset

/-- `d` is the definition of `c`, its members in the order of their final indices. -/
structure ClassStored (tables : Tables) (c : ClassDefinition) (d : ClassDef) : Prop where
  type : Remaps tables.types c.type d.type
  access : d.access = c.access
  superclass : RemapsOption tables.types c.superclass d.superclass
  interfaces : List.Forall₂ (fun slot index => Remaps tables.types slot index.toUInt32) c.interfaces
    d.interfaces
  sourceFile : RemapsOption tables.strings c.sourceFile d.sourceFile
  members : ∃ declared data, d.data = some data ∧ MembersStored tables c declared ∧
    SortsMembers declared data ∧ data.Ascending

theorem SortsMembers.ascending {declared stored : ClassData} (h : SortsMembers declared stored) :
    stored.Ascending := by
  have hField : ∀ {a b : FieldEntry}, (compareFields a b).isLE → a.field ≤ b.field :=
    fun hLe => Std.isLE_compare.mp (Ordering.isLE_left_of_isLE_then hLe)
  have hMethod : ∀ {a b : MethodEntry}, (compareMethods a b).isLE → a.method ≤ b.method :=
    fun hLe => Std.isLE_compare.mp (Ordering.isLE_left_of_isLE_then hLe)
  exact ⟨h.staticFields.ascending.imp hField, h.instanceFields.ascending.imp hField,
    h.directMethods.ascending.imp hMethod, h.virtualMethods.ascending.imp hMethod⟩

section Remapping

variable {pools : Pools} {tables : Tables}

/-- The tables of pools whose strings an index of 32 bits reaches. -/
structure Finished (pools : Pools) (tables : Tables) : Prop where
  finish : pools.finish = .ok tables
  strings : tables.strings.entries.size < 0x100000000

theorem Finished.remaps (h : Finished pools tables) {t : TableName} {slot : Slot t} {i : UInt32}
    (hIndex : tables.index slot = .ok i) : (tables.rank t)[slot.position]? = some i.toNat := by
  obtain ⟨r, hOrders, rfl, hSizes⟩ := Pools.finish_eq_ok h.finish
  rw [Ranking.rank_narrow]
  refine (hOrders.index_eq_ok_iff ?_).mp hIndex
  exact Pools.size_le_capacity hOrders hSizes (Nat.le_of_lt h.strings)

variable (hFinished : Finished pools tables)
include hFinished

theorem Finished.remaps16 {t : TableName} {slot : Slot t}
    {index? : Except SynthesisError UInt16} {index : UInt16}
    (hSlot : tables.index slot = index?.map UInt16.toUInt32) (h : index? = .ok index) :
    (tables.rank t)[slot.position]? = some index.toUInt32.toNat :=
  hFinished.remaps (hSlot.trans (congrArg (Except.map UInt16.toUInt32) h))

theorem fieldStored_of_linkField {f : FieldDefinition}
    {entry : FieldEntry} (h : tables.linkField f = .ok entry) : FieldStored tables f entry := by
  obtain ⟨index, hIndex, h⟩ := Except.bind_eq_ok_iff.mp h
  rw [Except.pure_eq_ok_iff] at h
  subst h
  exact ⟨hFinished.remaps16 (t := .field) rfl hIndex, rfl⟩

theorem methodStored_of_linkMethod {m : MethodDefinition}
    {l : LinkedMethod} (h : tables.linkMethod m = .ok l) {entry : MethodEntry}
    (hStores : StoresMethod tables l entry) : MethodStored tables m entry := by
  obtain ⟨index, hIndex, h⟩ := Except.bind_eq_ok_iff.mp h
  rw [Except.pure_eq_ok_iff] at h
  subst h
  exact ⟨hStores.method ▸ hFinished.remaps16 (t := .method) rfl hIndex, hStores.access, hStores.code⟩

theorem classStored_of_link {c : ClassDefinition} {l : LinkedClass}
    (h : tables.link c = .ok l) {d : ClassDef} (hStores : StoresClass tables l d) :
    ClassStored tables c d := by
  have hLinks := Tables.links_of_link h
  obtain ⟨declared, data, hMembers, hSorts, hData⟩ := hStores.members
  refine ⟨hStores.type ▸ hFinished.remaps16 (t := .type) rfl hLinks.type,
    hStores.access.trans hLinks.access, ?_, ?_, ?_, declared, data, hData,
    ⟨?_, ?_, ?_, ?_, hMembers.directCode, hMembers.virtualCode⟩, hSorts, hSorts.ascending⟩
  · rw [hStores.superclass]
    obtain ⟨hNone, hNone'⟩ | ⟨slot, index, hSome, hSome', hIndex⟩ :=
      Except.optionMapM_eq_ok_iff.mp hLinks.superclass
    · rw [hNone, hNone']
      rfl
    · rw [hSome, hSome']
      exact hFinished.remaps16 (t := .type) rfl hIndex
  · rw [hStores.interfaces]
    exact hLinks.interfaces.imp fun _ _ hIndex => hFinished.remaps16 (t := .type) rfl hIndex
  · rw [hStores.sourceFile]
    obtain ⟨hNone, hNone'⟩ | ⟨slot, index, hSome, hSome', hIndex⟩ :=
      Except.optionMapM_eq_ok_iff.mp hLinks.sourceFile
    · rw [hNone, hNone']
      rfl
    · rw [hSome, hSome']
      exact hFinished.remaps (t := .string) hIndex
  · rw [hMembers.staticFields]
    exact hLinks.staticFields.imp fun _ _ hField => fieldStored_of_linkField hFinished hField
  · rw [hMembers.instanceFields]
    exact hLinks.instanceFields.imp fun _ _ hField => fieldStored_of_linkField hFinished hField
  · exact Pairing.comp hLinks.directMethods hMembers.directMethods
      fun _ _ _ hMethod => methodStored_of_linkMethod hFinished hMethod
  · exact Pairing.comp hLinks.virtualMethods hMembers.virtualMethods
      fun _ _ _ hMethod => methodStored_of_linkMethod hFinished hMethod

end Remapping

theorem Written.exists_order {pools : Pools} {tables : Tables} {classes : List ClassDefinition}
    {linked ordered : List LinkedClass} {bytes : Bytes} {draft : Draft} {region : DataRegion}
    {fileSize : UInt32} (h : Written tables ordered bytes draft region fileSize)
    (hTables : pools.finish = .ok tables) (hLinked : classes.mapM tables.link = .ok linked)
    (hOrdered : ClassOrder.arrange linked = .ok ordered) :
    ∃ order : List ClassDefinition, order.mapM tables.link = .ok ordered ∧ order.Perm classes ∧
      List.Forall₂ (ClassStored tables) order draft.classes := by
  have hSize : tables.strings.entries.size < 0x100000000 := by
    have hStop := h.stop_lt
    omega
  -- the arranged classes come from a rearrangement of the given ones
  obtain ⟨order, hOrder, hPerm⟩ :=
    List.perm_comp_forall₂ (ClassOrder.arrange_perm hOrdered) (Except.mapM_eq_ok_iff.mp hLinked).flip
  have hOrder := hOrder.flip
  refine ⟨order, Except.mapM_eq_ok_iff.mpr hOrder, hPerm, ?_⟩
  exact Pairing.comp hOrder h.laid.classes
    fun _ _ _ hLink hStores => classStored_of_link ⟨hTables, hSize⟩ hLink hStores.1

end Image

end DexForge
