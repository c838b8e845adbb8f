import DexForge.Proofs.Layout.Lookup
import DexForge.Proofs.Pool.Narrowing
import DexForge.Proofs.Proxy.Resolution

/-! # Finished tables pass verification -/
set_option autoImplicit false

namespace DexForge

namespace Verify

theorem resolves_of_ok {α : Type} {lookup : Except ContainerError α} {a : α} (h : lookup = .ok a) :
    resolves lookup = .ok () := by
  rw [h]
  rfl

end Verify

theorem compare_toUInt32 (a b : UInt16) : compare a.toUInt32 b.toUInt32 = compare a b := by
  simp only [compare, compareOfLessAndEq, UInt32.lt_iff_toNat_lt, UInt16.lt_iff_toNat_lt,
    UInt16.toNat_toUInt32, ← UInt32.toNat_inj, ← UInt16.toNat_inj]

namespace Container.Shows

open Verify

variable {p : Pools} {r : Ranking} {c : Container}

theorem protos_sorted (h : c.Shows r) (hOrders : r.Orders p) (hp : p.WellFormed) :
    sorted .proto ProtoId.order c.protos = .ok () := by
  have hRows := strictlyAscending_iff.mp (hOrders.ascending hp h.small).protos
  simp only [Ranking.narrow, Ranked.map, Array.toList_map, List.pairwise_map] at hRows
  rw [sorted_eq_ok_iff, strictlyAscending_iff]
  refine Pairing.pairwise h.protos hRows ?_
  intro row _ row' _ proto proto' hShows hShows' hLess
  rw [ProtoId.order, hShows.returns, hShows'.returns, hShows.params, hShows'.params,
    compare_toUInt32]
  exact hLess

theorem verifyProto_eq_ok (h : c.Shows r) {row : ProtoPlaces} {proto : ProtoId} {texts : ProtoTexts}
    (hShows : ShowsProto row proto) (hTexts : r.protoOf? row = some texts) :
    c.verifyProto proto = .ok () := by
  obtain ⟨hShorty, hReturns, hParams⟩ := Ranking.protoOf?_eq_some_iff.mp hTexts
  rw [verifyProto, hShows.shorty, resolves_of_ok (h.string_eq_ok hShorty), Except.ok_bind,
    hShows.returns, resolves_of_ok (h.typeText_narrow hReturns), Except.ok_bind]
  refine each_eq_ok_iff.mpr ?_
  intro param hParam
  rw [hShows.params, List.mem_map] at hParam
  obtain ⟨j, hj, rfl⟩ := hParam
  obtain ⟨text, -, hText⟩ := Pairing.exists_of_mem_left hParams hj
  exact resolves_of_ok (h.typeText_narrow hText)

theorem each_indices (h : c.Shows r) (hOrders : r.Orders p) (hp : p.WellFormed) (t : TableName)
    {size : Nat} (hSize : size = r.size t) {check : UInt32 → Except ContainerError Unit}
    (hCheck : ∀ i, check i = resolves (c.lookup t i)) : each check (indices size) = .ok () := by
  refine each_eq_ok_iff.mpr ?_
  intro i hi
  obtain ⟨j, hj, rfl⟩ := List.mem_map.mp hi
  rw [List.mem_range, hSize] at hj
  obtain ⟨x, hx, -⟩ := hOrders.exists_contents hp hj
  rw [hCheck]
  exact resolves_of_ok (h.lookup_eq_ok hx)

theorem verifyTables_eq_ok (h : c.Shows r) (hOrders : r.Orders p) (hp : p.WellFormed) :
    c.verifyTables = .ok () := by
  have hAscending := hOrders.ascending hp h.small
  have hStrings : sorted .string compare (c.strings.map Utf16.encode) = .ok () :=
    sorted_eq_ok_iff.mpr (strings_ascending_iff.mpr (h.strings ▸ hAscending.strings))
  have hTypes : sorted .type compare c.types = .ok () :=
    sorted_eq_ok_iff.mpr (h.types ▸ hAscending.types)
  have hFieldOrder : sorted .field MemberId.order c.fields = .ok () :=
    sorted_eq_ok_iff.mpr (h.fields ▸ hAscending.fields)
  have hMethodOrder : sorted .method MemberId.order c.methods = .ok () :=
    sorted_eq_ok_iff.mpr (h.methods ▸ hAscending.methods)
  have hNames : each (fun name => resolves (c.string name)) c.types.toList = .ok () := by
    refine each_eq_ok_iff.mpr ?_
    intro name hName
    rw [h.types, Array.toList_map, List.mem_map] at hName
    obtain ⟨j, hj, rfl⟩ := hName
    obtain ⟨text, hText⟩ := hOrders.exists_resolve? (t := .type) hp hj
    exact resolves_of_ok (h.string_eq_ok hText)
  have hProtos : each c.verifyProto c.protos.toList = .ok () := by
    refine each_eq_ok_iff.mpr ?_
    intro proto hProto
    obtain ⟨row, hRow, hShows⟩ := Pairing.exists_of_mem_right h.protos hProto
    obtain ⟨texts, hTexts⟩ := hOrders.exists_resolve? (t := .proto) hp hRow
    exact h.verifyProto_eq_ok hShows hTexts
  have hFields : each (fun i => resolves (c.fieldRef i)) (indices c.fields.size) = .ok () :=
    h.each_indices hOrders hp .field (by rw [h.fields, Array.size_map]; rfl) fun _ => rfl
  have hMethods : each (fun i => resolves (c.methodRef i)) (indices c.methods.size) = .ok () :=
    h.each_indices hOrders hp .method (by rw [h.methods, Array.size_map]; rfl) fun _ => rfl
  simp only [verifyTables, hStrings, hTypes, hNames, hProtos, h.protos_sorted hOrders hp, hFields,
    hFieldOrder, hMethods, hMethodOrder, Except.ok_bind]

end Container.Shows

namespace Container

open Verify

variable {c : Container}

def lookup? (c : Container) (t : TableName) (i : UInt32) : Option (Referent t) :=
  (c.lookup t i).toOption

theorem lookup?_eq_some_iff {t : TableName} {i : UInt32} {x : Referent t} :
    c.lookup? t i = some x ↔ c.lookup t i = .ok x := by
  rw [lookup?]
  cases c.lookup t i <;> simp [Except.toOption]

theorem resolves_of_lookup? {α : Type} {t : TableName} {i : UInt32} {f : Referent t → Option α}
    {a : α} (h : (c.lookup? t i).bind f = some a) : resolves (c.lookup t i) = .ok () := by
  obtain ⟨x, hx, -⟩ := Option.bind_eq_some_iff.mp h
  exact resolves_of_ok (lookup?_eq_some_iff.mp hx)

theorem verifyReference_eq_ok {i : Instruction} {action : Operation Referent}
    (h : i.resolve? c.lookup? = some action) {reference : Reference}
    (hReference : i.reference? = some reference) : c.verifyReference reference = .ok () := by
  cases i
  case constString | constStringJumbo | checkCast | newArray | igetObject | iputObject |
      sgetObject =>
    cases hReference
    exact resolves_of_lookup? (Option.map_eq_bind.symm.trans h)
  case invoke | invokeRange =>
    cases hReference
    exact resolves_of_lookup? h
  all_goals cases hReference

end Container

end DexForge
