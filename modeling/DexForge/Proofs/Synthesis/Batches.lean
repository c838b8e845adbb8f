import DexForge.Proofs.Layout.SameClass
import DexForge.Proofs.Synthesis.Scheduling
import DexForge.Proofs.Synthesis.SmallDescriptions

/-! # Batching does not change a class

In a batch every table is larger than in the container of one class, and indices, offsets and even
the widths of instructions are others. Resolved to texts, the class is the same.
-/
set_option autoImplicit false

namespace DexForge

open DexForge.Except Image

namespace Image

theorem nodup_types {tables : Tables} {classes : List ClassDefinition} {bytes : Bytes}
    (hWrite : write tables classes = .ok bytes) {c : Container}
    (hLoad : Container.load bytes = .ok c) : (c.classes.toList.map ClassDef.type).Nodup := by
  obtain ⟨linked, ordered, draft, region, fileSize, -, hOrdered, hWritten⟩ := write_eq_ok hWrite
  obtain ⟨items, hRead⟩ := hWritten.load_eq_ok
  obtain rfl := Except.ok.inj (hRead.symm.trans hLoad)
  have hNodup := ClassOrder.nodup_of_arrange hOrdered
  rw [List.Nodup, List.pairwise_map] at hNodup ⊢
  refine Pairing.pairwise hWritten.laid.classes hNodup ?_
  rintro l - l' - d d' ⟨hStores, -⟩ ⟨hStores', -⟩ hNe hSame
  rw [hStores.type, hStores'.type] at hSame
  exact hNe (UInt16.toUInt32_inj.mp hSame)

theorem exists_displays {pools : Pools} {tables : Tables} (hp : pools.WellFormed)
    (hTables : pools.finish = .ok tables) {classes : List ClassDefinition} {bytes : Bytes}
    (hWrite : write tables classes = .ok bytes) :
    ∃ (r : Ranking) (c : Container) (order : List ClassDefinition),
      tables = r.narrow ∧ Container.load bytes = .ok c ∧ c.Displays r pools ∧
      order.Perm classes ∧ List.Forall₂ (ClassStored r.narrow) order c.classes.toList := by
  obtain ⟨r, c, order, rfl, hOrders, hLoad, hShows, hPerm, hStored, -⟩ := exists_shows hTables hWrite
  refine ⟨r, c, order, rfl, hLoad, ⟨hShows, hOrders, hp, ?_⟩, hPerm, hStored⟩
  -- each string takes four bytes of a file whose length has 32 bits
  obtain ⟨_, _, _, _, _, -, -, hWritten⟩ := write_eq_ok hWrite
  have hStop := hWritten.stop_lt
  have hStrings : r.narrow.strings.entries.size ≤ noIndex.toNat := by
    rw [show noIndex.toNat = 0xffffffff from rfl]
    omega
  exact hStrings

end Image

namespace Container

theorem mem_definitionsOf_iff {c : Container} {name : String} {cls : ClassDef} :
    cls ∈ c.definitionsOf name ↔ cls ∈ c.classes.toList ∧ c.typeText cls.type = .ok name := by
  rw [definitionsOf, List.mem_filter]
  apply and_congr_right
  intro _
  cases c.typeText cls.type <;> simp

/-- A type has one index, so that a name has one definition. -/
theorem Displays.definitionsOf_eq {c : Container} {r : Ranking} {p : Pools} (h : c.Displays r p)
    {order : List ClassDefinition}
    (hStored : List.Forall₂ (ClassStored r.narrow) order c.classes.toList)
    (hNodup : (c.classes.toList.map ClassDef.type).Nodup) {name : String} {cls : ClassDef}
    (hMem : cls ∈ c.classes.toList) (hName : r.contents? .type cls.type.toNat = some name) :
    c.definitionsOf name = [cls] := by
  have hDistinct : (c.definitionsOf name).Nodup := hNodup.of_map.filter _
  apply List.perm_singleton.mp
  rw [List.perm_ext_iff_of_nodup hDistinct (List.nodup_singleton cls)]
  intro cls'
  rw [mem_definitionsOf_iff, List.mem_singleton]
  constructor
  · rintro ⟨hMem', hName'⟩
    obtain ⟨definition, -, hClass⟩ := Pairing.exists_of_mem_right hStored hMem'
    have hPlace : r.place? definition.type = some cls'.type.toNat := hClass.type
    obtain ⟨x, hx, -⟩ := h.orders.exists_contents h.wellFormed (h.orders.lt_size_of_place hPlace)
    have hText : c.typeText cls'.type = .ok x := h.contents_eq_ok hx
    obtain rfl := Except.ok.inj (hText.symm.trans hName')
    have hSame := UInt32.toNat.inj (h.orders.contents_injective hx hName)
    exact List.inj_on_of_nodup_map hNodup hMem' hMem hSame
  · rintro rfl
    exact ⟨hMem, h.contents_eq_ok hName⟩

end Container

namespace HandlerBinding

variable {binding : HandlerBinding} {ds : List ClassDescription} {d : ClassDescription}

theorem exists_stored_of_mem {s : Synthesized} (h : binding.synthesizeBatch ds = .ok s)
    (hd : d ∈ ds) :
    ∃ (p : Pools) (r : Ranking) (c : Container) (definition : ClassDefinition) (cls : ClassDef),
      Container.load s.bytes = .ok c ∧ c.Displays r p ∧ c.definitionsOf d.name = [cls] ∧
      ProxyClass.Describes binding d p definition ∧ ClassStored r.narrow definition cls := by
  rw [synthesizeBatch_eq] at h
  have hBuilt := built_runAll binding ds
  obtain ⟨definitions, tables, hOk, hTables, hWrite⟩ := conclude_eq_ok_iff.mp h
  obtain ⟨r, c, order, rfl, hLoad, hDisplays, hPerm, hStored⟩ :=
    exists_displays hBuilt.wellFormed hTables hWrite
  obtain ⟨definition, hDefinition, hDescribes⟩ :=
    Pairing.exists_of_mem_left (hBuilt.describes hOk) hd
  obtain ⟨cls, hMem, hClass⟩ := Pairing.exists_of_mem_left hStored (hPerm.mem_iff.mpr hDefinition)
  have hPlace : r.place? definition.type = some cls.type.toNat := hClass.type
  have hName := (hDisplays.orders.contents_of_place hPlace).trans hDescribes.type
  exact ⟨_, r, c, definition, cls, hLoad, hDisplays,
    hDisplays.definitionsOf_eq hStored (nodup_types hWrite hLoad) hMem hName, hDescribes, hClass⟩

/-- A class of a batch reads as it does from its own container, and a batch of one description is
that container. -/
theorem classTexts_of_synthesizeBatch (binding : HandlerBinding) :
    (∀ ds batch, binding.synthesizeBatch ds = .ok batch →
      ∀ d ∈ ds, ∀ alone, binding.synthesize d = .ok alone →
        ∃ (c c' : Container) (cls cls' : ClassDef) (texts : ClassTexts),
          Container.load batch.bytes = .ok c ∧ Container.load alone.bytes = .ok c' ∧
          c.definitionsOf d.name = [cls] ∧ c'.definitionsOf d.name = [cls'] ∧
          c.classTexts cls = .ok texts ∧ c'.classTexts cls' = .ok texts) ∧
    ∀ d, binding.synthesizeBatch [d] = binding.synthesize d := by
  refine ⟨?_, fun d => (synthesize_eq binding d).symm⟩
  intro ds batch hBatch d hd alone hAlone
  rw [synthesize_eq] at hAlone
  obtain ⟨p, r, c, definition, cls, hLoad, hDisplays, hOnly, hDescribes, hClass⟩ :=
    exists_stored_of_mem hBatch hd
  obtain ⟨p', r', c', definition', cls', hLoad', hDisplays', hOnly', hDescribes', hClass'⟩ :=
    exists_stored_of_mem hAlone (List.mem_singleton.mpr rfl)
  obtain ⟨texts, hTexts, hTexts'⟩ :=
    hDisplays.concur_class hDisplays' (hDescribes.agrees hDescribes') hClass hClass'
  exact ⟨c, c', cls, cls', texts, hLoad, hLoad', hOnly, hOnly', hTexts, hTexts'⟩

end HandlerBinding

/-- A class beside the ledger, which shares names and types with it. -/
def ClassDescription.vault : ClassDescription where
  name := "Lbank/Vault;"
  superclass := "Ljava/lang/Object;"
  interfaces := ["Lbank/Account;", "Lbank/Guarded;"]
  sourceFile := none
  methods := [.new "audit" ["I"] "Ljava/lang/String;", .new "post" ["J"] "V"]

theorem HandlerBinding.classTexts_bank : ∃ (batch alone : Synthesized) (c c' : Container)
    (cls cls' : ClassDef) (texts : ClassTexts),
    HandlerBinding.reflect.synthesizeBatch [.vault, .ledger] = .ok batch ∧
      HandlerBinding.reflect.synthesize .ledger = .ok alone ∧
      Container.load batch.bytes = .ok c ∧ Container.load alone.bytes = .ok c' ∧
      c.definitionsOf "Lbank/Ledger;" = [cls] ∧ c'.definitionsOf "Lbank/Ledger;" = [cls'] ∧
      c.classTexts cls = .ok texts ∧ c'.classTexts cls' = .ok texts := by
  have hSmall : ProxyClass.SmallBatch .reflect [.vault, .ledger] := by decide +kernel
  obtain ⟨batch, hBatch⟩ := hSmall.exists_synthesizeBatch
  obtain ⟨alone, hAlone⟩ := exists_synthesize_ledger
  obtain ⟨c, c', cls, cls', texts, hTexts⟩ :=
    (classTexts_of_synthesizeBatch .reflect).1 _ batch hBatch .ledger (by simp) alone hAlone
  exact ⟨batch, alone, c, c', cls, cls', texts, hBatch, hAlone, hTexts⟩

end DexForge
