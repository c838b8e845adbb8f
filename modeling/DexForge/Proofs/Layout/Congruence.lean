import DexForge.Layout.Image
import DexForge.Proofs.Layout.ClassOrder
import DexForge.Proofs.Pool.Finishing
import DexForge.Proofs.Proxy.Agreement

/-! # Writing does not depend on slots

Two lists of classes refer to entries by the slots of their own pools. When slots that correspond have
the same place in the two rankings, and the rankings have the same entries, the same bytes are
written.
-/
set_option autoImplicit false

namespace DexForge

open DexForge.Except

variable {r r' : Ranking}

namespace Ranking.SamePlace

theorem place_eq {t : TableName} {α : Type} {table table' : Ranked α} {slot slot' : Slot t} {j : Nat}
    (h : table.rank[slot.position]? = some j) (h' : table'.rank[slot'.position]? = some j) :
    Tables.place table slot = Tables.place table' slot' := by
  rw [Tables.place_eq_ok_iff.mpr h, Tables.place_eq_ok_iff.mpr h']

theorem string_eq {slot slot' : Slot .string} (h : r.SamePlace r' .string slot slot') :
    r.narrow.string slot = r'.narrow.string slot' := by
  obtain ⟨j, hj, hj'⟩ := h
  exact congrArg (Except.map UInt32.ofNat) (place_eq hj hj')

theorem type_eq {slot slot' : Slot .type} (h : r.SamePlace r' .type slot slot') :
    r.narrow.type slot = r'.narrow.type slot' := by
  obtain ⟨j, hj, hj'⟩ := h
  exact congrArg (Except.map UInt16.ofNat) (place_eq hj hj')

theorem field_eq {slot slot' : Slot .field} (h : r.SamePlace r' .field slot slot') :
    r.narrow.field slot = r'.narrow.field slot' := by
  obtain ⟨j, hj, hj'⟩ := h
  exact congrArg (Except.map UInt16.ofNat) (place_eq hj hj')

theorem method_eq {slot slot' : Slot .method} (h : r.SamePlace r' .method slot slot') :
    r.narrow.method slot = r'.narrow.method slot' := by
  obtain ⟨j, hj, hj'⟩ := h
  exact congrArg (Except.map UInt16.ofNat) (place_eq hj hj')

end Ranking.SamePlace

theorem Operation.lower_congr {op op' : Operation Slot} (h : op.Agrees (r.SamePlace r') op') :
    op.lower r.narrow = op'.lower r'.narrow := by
  cases h with
  | constString h => simp only [lower, lowerUnder, h.string_eq]
  | checkCast h => simp only [lower, lowerUnder, h.type_eq]
  | newArray h => simp only [lower, lowerUnder, h.type_eq]
  | igetObject h => simp only [lower, lowerUnder, h.field_eq]
  | iputObject h => simp only [lower, lowerUnder, h.field_eq]
  | sgetObject h => simp only [lower, lowerUnder, h.field_eq]
  | invoke h => simp only [lower, lowerUnder, h.method_eq]
  | _ => rfl

/-- The same method, with code that is lowered to the same instructions. -/
structure LinkedMethod.Alike (tables tables' : Tables) (m m' : LinkedMethod) : Prop where
  method : m.method = m'.method
  access : m.access = m'.access
  spec : m.body.spec = m'.body.spec
  registers : m.body.registers = m'.body.registers
  ins : m.body.ins = m'.body.ins
  outs : m.body.outs = m'.body.outs
  code : m.body.code.mapM (Operation.lower tables) = m'.body.code.mapM (Operation.lower tables')

def LinkedClass.shell (c : LinkedClass) : LinkedClass :=
  { c with directMethods := [], virtualMethods := [] }

structure LinkedClass.Alike (tables tables' : Tables) (c c' : LinkedClass) : Prop where
  shell : c.shell = c'.shell
  directMethods : List.Forall₂ (LinkedMethod.Alike tables tables') c.directMethods c'.directMethods
  virtualMethods : List.Forall₂ (LinkedMethod.Alike tables tables') c.virtualMethods
    c'.virtualMethods

theorem LinkedClass.Alike.sameNode {tables tables' : Tables} {c c' : LinkedClass}
    (h : c.Alike tables tables' c') : ClassOrder.SameNode c c' where
  type := show c.shell.type = c'.shell.type by rw [h.shell]
  descriptor := show c.shell.descriptor = c'.shell.descriptor by rw [h.shell]
  supertypes := show c.shell.supertypes = c'.shell.supertypes by rw [h.shell]

namespace Tables

theorem linkField_congr {f f' : FieldDefinition}
    (h : r.SamePlace r' .field f.field f'.field ∧ f.access = f'.access) :
    r.narrow.linkField f = r'.narrow.linkField f' := by
  rw [linkField, linkField, h.1.field_eq, h.2]

theorem linkMethod_congr {m m' : MethodDefinition}
    (h : m.access = m'.access ∧ m.body.Agrees (r.SamePlace r') m'.body) :
    Except.Matches (LinkedMethod.Alike r.narrow r'.narrow) (r.narrow.linkMethod m)
      (r'.narrow.linkMethod m') := by
  obtain ⟨hAccess, hBody⟩ := h
  refine (matches_of_eq hBody.method.method_eq (R := Eq) fun _ => rfl).bind ?_
  rintro index _ rfl
  exact .ok ⟨rfl, hAccess, hBody.spec, hBody.registers, hBody.ins, hBody.outs,
    Pairing.mapM_congr (hBody.code.imp fun _ _ => Operation.lower_congr)⟩

theorem link_congr {c c' : ClassDefinition} (h : c.Agrees (r.SamePlace r') c') :
    Except.Matches (LinkedClass.Alike r.narrow r'.narrow) (r.narrow.link c) (r'.narrow.link c') := by
  have hSuperclass := optionMapM_congr (h.superclass.imp fun _ _ hSlot => hSlot.type_eq)
  have hInterfaces := Pairing.mapM_congr (h.interfaces.imp fun _ _ hSlot => hSlot.type_eq)
  have hSourceFile := optionMapM_congr (h.sourceFile.imp fun _ _ hSlot => hSlot.string_eq)
  have hStatic := Pairing.mapM_congr (h.staticFields.imp fun _ _ => linkField_congr)
  have hInstance := Pairing.mapM_congr (h.instanceFields.imp fun _ _ => linkField_congr)
  have hDirect := matches_mapM (h.directMethods.imp fun _ _ => linkMethod_congr)
  have hVirtual := matches_mapM (h.virtualMethods.imp fun _ _ => linkMethod_congr)
  rw [link, link, h.type.type_eq, hSuperclass, hInterfaces, hSourceFile, hStatic, hInstance]
  have hRefl : ∀ {α : Type} (x : Except SynthesisError α), Except.Matches Eq x x := fun x =>
    matches_of_eq rfl fun _ => rfl
  refine (hRefl _).bind ?_
  rintro type _ rfl
  refine (hRefl _).bind ?_
  rintro superclass _ rfl
  refine (hRefl _).bind ?_
  rintro interfaces _ rfl
  refine (hRefl _).bind ?_
  rintro sourceFile _ rfl
  refine (hRefl _).bind ?_
  rintro staticFields _ rfl
  refine (hRefl _).bind ?_
  rintro instanceFields _ rfl
  refine hDirect.bind fun direct direct' hDirect => hVirtual.bind fun virtual virtual' hVirtual => ?_
  refine .ok ⟨?_, hDirect, hVirtual⟩
  rw [LinkedClass.shell, LinkedClass.shell, h.descriptor, h.access]

end Tables

namespace Image

theorem placeMethod_congr {tables tables' : Tables} {m m' : LinkedMethod}
    (h : m.Alike tables tables' m') : placeMethod tables m = placeMethod tables' m' := by
  simp only [placeMethod, placeCode, h.code, h.spec, h.registers, h.ins, h.outs, h.method, h.access]

theorem placeMethods_congr {tables tables' : Tables} {c c' : LinkedClass}
    (h : c.Alike tables tables' c') : placeMethods tables c = placeMethods tables' c' := by
  have hDirect := Pairing.mapM_congr (h.directMethods.imp fun _ _ => placeMethod_congr)
  have hVirtual := Pairing.mapM_congr (h.virtualMethods.imp fun _ _ => placeMethod_congr)
  have hStatic : c.staticFields = c'.staticFields :=
    show c.shell.staticFields = c'.shell.staticFields by rw [h.shell]
  have hInstance : c.instanceFields = c'.instanceFields :=
    show c.shell.instanceFields = c'.shell.instanceFields by rw [h.shell]
  rw [placeMethods, placeMethods, hDirect, hVirtual, hStatic, hInstance]

theorem classDef_shell (typeList : List UInt16 → UInt32) (c : LinkedClass) (data : ClassData)
    (dataOffset : UInt32) :
    classDef typeList c data dataOffset = classDef typeList c.shell data dataOffset := rfl

section

variable {tables tables' : Tables} (hSame : tables.SameEntries tables')
include hSame

theorem sections_congr (count : Nat) : sections tables count = sections tables' count := by
  simp only [sections, Ranked.size, hSame.strings, hSame.types, hSame.protos, hSame.fields,
    hSame.methods]

theorem idBytes_congr (draft : Draft) : idBytes tables draft = idBytes tables' draft := by
  simp only [idBytes, hSame.types, hSame.fields, hSame.methods]

theorem placeData_congr {classes classes' : List LinkedClass}
    (h : List.Forall₂ (LinkedClass.Alike tables tables') classes classes') (ids : Sections) :
    placeData tables ids classes = placeData tables' ids classes' := by
  have hMethods := Pairing.mapM_congr (h.imp fun _ _ => placeMethods_congr)
  have hInterfaces : classes.map LinkedClass.interfaces = classes'.map LinkedClass.interfaces := by
    rw [← List.forall₂_eq_eq_eq, List.forall₂_map_left_iff, List.forall₂_map_right_iff]
    exact h.imp fun c c' hc => show c.shell.interfaces = c'.shell.interfaces by rw [hc.shell]
  simp only [placeData, hMethods, hSame.strings, hSame.protos, hInterfaces]
  refine bind_congr fun declared => bind_congr fun listOffsets => bind_congr fun stringOffsets =>
    bind_congr fun dataOffsets => bind_congr fun _ => bind_congr fun mapOffset =>
    bind_congr fun _ => ?_
  rw [Pairing.map_zip_congr]
  refine h.imp fun c c' hc x => ?_
  dsimp only
  rw [classDef_shell, hc.shell, ← classDef_shell]

end

theorem write_congr (hSame : r.SameEntries r') {classes classes' : List ClassDefinition}
    (h : List.Forall₂ (ClassDefinition.Agrees (r.SamePlace r')) classes classes') :
    write r.narrow classes = write r'.narrow classes' := by
  refine Except.Matches.eq ?_
  refine (matches_mapM (h.imp fun _ _ => Tables.link_congr)).bind fun linked linked' hLinked => ?_
  refine (ClassOrder.arrange_congr LinkedClass.Alike.sameNode hLinked).bind ?_
  intro ordered ordered' hOrdered
  have hData := placeData_congr hSame.narrow hOrdered (sections r'.narrow ordered'.length)
  rw [hOrdered.length_eq, sections_congr hSame.narrow]
  refine matches_of_eq ?_ fun _ => rfl
  simp only [hData, idBytes_congr hSame.narrow]

end Image

end DexForge
