import DexForge.Proofs.Synthesis.Acceptance

/-! # Small descriptions are accepted

A sensible description whose class is none of its own supertypes can only ask for too much. Bounds on
what it asks for bound the tables and the file. The same goes for a few descriptions together.
-/
set_option autoImplicit false

namespace DexForge

open Pools

/-- Units of a text, or parameters of a prototype. -/
def Pools.Item.weight : Item → Nat
  | ⟨.string, text⟩ => Utf16.length text
  | ⟨.proto, texts⟩ => texts.params.length
  | _ => 0

theorem sum_map_le {α : Type} {f : α → Nat} {xs : List α} {count bound : Nat}
    (hCount : xs.length ≤ count) (h : ∀ x ∈ xs, f x ≤ bound) : (xs.map f).sum ≤ count * bound := by
  have hSum := List.sum_le_card_nsmul (xs.map f) bound (by simpa using h)
  rw [List.length_map] at hSum
  exact Nat.le_trans hSum (Nat.mul_le_mul_right bound hCount)

theorem length_encodeText_le (text : String) :
    (encodeText text).length ≤ 6 + 3 * Utf16.length text := by
  have hLength := Uleb128.length_encode_le (UInt32.ofNat (Utf16.length text))
  have hUnits : (Mutf8.encode text).length ≤ 3 * (Utf16.encode text).length := by
    refine length_flatMap_le 3 fun u _ => ?_
    simp only [Mutf8.encodeUnit]
    split
    · simp
    · split <;> simp
  rw [← Utf16.length_eq] at hUnits
  simp only [encodeText, List.length_append, List.length_singleton]
  omega

theorem Image.size_collect_le (lists : List (List UInt16)) (c : Catalog (List UInt16)) :
    (lists.foldl (fun c types => if types.isEmpty then c else (c.insert types).2) c).entries.size ≤
      c.entries.size + lists.length := by
  induction lists generalizing c with
  | nil => exact Nat.le_refl _
  | cons types lists ih =>
    have hStep : (if types.isEmpty then c else (c.insert types).2).entries.size ≤
        c.entries.size + 1 := by
      split
      · exact Nat.le_succ _
      · obtain ⟨-, hEntries⟩ | ⟨-, hEntries⟩ := c.entries_insert types
        · rw [hEntries]
          exact Nat.le_succ _
        · rw [hEntries, Array.size_push]
    have hRest := ih (if types.isEmpty then c else (c.insert types).2)
    rw [List.foldl_cons, List.length_cons]
    omega

structure Pools.Light (items : List Item) (n : Nat) : Prop where
  count : items.length ≤ n
  weight : ∀ item ∈ items, item.weight ≤ 4096

namespace Pools.Light

variable {items : List Item} {n : Nat} {p : Pools} {r : Ranking} (h : Light items n)
  (hOrders : r.Orders p) (hp : p.WellFormed) (hHolds : ∀ item, p.Holds item ↔ item ∈ items)
include h hOrders hp hHolds

theorem size_le (t : TableName) : r.size t ≤ n := by
  rw [hOrders.size_eq, hp.size_eq_tally hHolds]
  exact Nat.le_trans (tally_le _ t) h.count

theorem texts_le :
    (r.narrow.strings.entries.toList.map fun text => (encodeText text).length).sum ≤ n * 12294 := by
  refine sum_map_le (h.size_le hOrders hp hHolds .string) fun text hText => ?_
  obtain ⟨_, hHeld, ⟨⟩⟩ := (hOrders.mem_rows_iff (t := .string) hp).mp hText
  have hUnits : Utf16.length text ≤ 4096 := h.weight _ ((hHolds _).mp hHeld)
  have hBytes := length_encodeText_le text
  omega

theorem length_params_le {row : ProtoPlaces} (hRow : row ∈ r.protos.entries.toList) :
    row.params.length ≤ 4096 := by
  obtain ⟨texts, hTexts, hRow⟩ := (hOrders.mem_rows_iff (t := .proto) hp).mp hRow
  rw [(Ranking.protoOf?_eq_some_iff.mp hRow).2.2.length_eq]
  exact h.weight _ ((hHolds _).mp hTexts)

theorem typeLists_le {classes : List LinkedClass}
    (hInterfaces : ∀ l ∈ classes, l.interfaces.length ≤ 4096) :
    ((Image.storedTypeLists r.narrow classes).map fun types => 7 + 2 * types.length).sum ≤
      (n + classes.length) * 8199 := by
  have hRows : r.narrow.protos.entries.toList = r.protos.entries.toList.map ProtoPlaces.narrow :=
    Array.toList_map
  have hProtos : r.protos.entries.size ≤ n := h.size_le hOrders hp hHolds .proto
  have hLength := Image.size_collect_le (r.narrow.protos.entries.toList.map ProtoRow.params ++
    classes.map LinkedClass.interfaces) .empty
  refine sum_map_le ?_ fun types hTypes => ?_
  · rw [Image.storedTypeLists, Array.length_toList]
    refine Nat.le_trans hLength ?_
    simp only [Catalog.empty, hRows, List.length_append, List.length_map, Array.length_toList,
      List.size_toArray, List.length_nil]
    omega
  · have hEach : types.length ≤ 4096 := by
      obtain hNone | ⟨hMem, -⟩ := Image.mem_collect.mp (Array.mem_toList_iff.mp hTypes)
      · simp [Catalog.empty] at hNone
      obtain hMem | hMem := List.mem_append.mp hMem
      · rw [hRows, List.map_map] at hMem
        obtain ⟨row, hRow, rfl⟩ := List.mem_map.mp hMem
        rw [Function.comp_apply, ProtoPlaces.narrow, List.length_map]
        exact h.length_params_le hOrders hp hHolds hRow
      · obtain ⟨l, hl, rfl⟩ := List.mem_map.mp hMem
        exact hInterfaces l hl
    omega

theorem stop_sections_le (classCount : Nat) :
    (Image.sections r.narrow classCount).stop ≤ 112 + 36 * n + 32 * classCount := by
  have hSize := h.size_le hOrders hp hHolds
  have hStrings := hSize .string
  have hTypes := hSize .type
  have hProtos := hSize .proto
  have hFields := hSize .field
  have hMethods := hSize .method
  simp only [Ranking.size, Ranking.table] at hStrings hTypes hProtos hFields hMethods
  simp only [Image.sections, Ranked.size, Ranking.narrow, Ranked.map, Array.size_map, headerSize]
  omega

end Pools.Light

namespace Delegation

theorem length_packFrom_le (params : List TypeDescriptor) (position register : Nat) :
    (packFrom position register params).length ≤ 4 * params.length := by
  induction params generalizing position register with
  | nil => exact Nat.zero_le _
  | cons type rest ih =>
    have hFirst : (packArgument position (UInt16.ofNat register) type).length ≤ 4 := by
      rw [packArgument]
      split
      · exact Nat.le_refl 4
      · split <;> simp
    have hRest := ih (position + 1) (register + type.width)
    rw [packFrom, List.length_append, List.length_cons]
    omega

theorem length_code_le {ctx : Context} {spec : MethodSpec} {ordinal : Nat}
    {body : MethodBody Request} (h : Delegation.body ctx spec ordinal = .ok body) :
    body.code.length ≤ 12 + 4 * spec.params.length := by
  obtain ⟨handler, hBodied⟩ := body_eq_ok h
  have hIdentity : (loadIdentity ctx spec ordinal).length ≤ 3 := by
    rw [loadIdentity]
    split <;> simp
  have hPack := length_packFrom_le spec.params 0 6
  have hResult : (giveBack spec.returns).length ≤ 5 := by
    rw [giveBack]
    split
    · simp
    · cases spec.returns.primitive? with
      | none => simp
      | some p => cases p <;> simp [Primitive.isWide]
  rw [hBodied.eq, packArguments_eq]
  simp only [newArguments, List.length_append, List.length_cons, List.length_nil]
  omega

end Delegation

namespace ProxyClass

variable (binding : HandlerBinding) (d : ClassDescription)

structure Small : Prop where
  count : (Call.items (calls binding d)).length ≤ 4096
  weight : ∀ item ∈ Call.items (calls binding d), item.weight ≤ 4096
  methods : d.overridable.length ≤ 4096
  params : ∀ m ∈ d.overridable, m.params.length ≤ 4096
  interfaces : d.interfaces.length ≤ 4096

instance : Decidable (Small binding d) :=
  decidable_of_iff ((Call.items (calls binding d)).length ≤ 4096 ∧
      (∀ item ∈ Call.items (calls binding d), item.weight ≤ 4096) ∧
      d.overridable.length ≤ 4096 ∧ (∀ m ∈ d.overridable, m.params.length ≤ 4096) ∧
      d.interfaces.length ≤ 4096)
    ⟨fun ⟨a, b, c, d, e⟩ => ⟨a, b, c, d, e⟩, fun ⟨a, b, c, d, e⟩ => ⟨a, b, c, d, e⟩⟩

variable {binding d} {p : Pools} {c : ClassDefinition} {r : Ranking} {l : LinkedClass}

theorem Small.light (h : Small binding d) : Light (Call.items (calls binding d)) 4096 :=
  ⟨h.count, h.weight⟩

theorem Small.classCodeRoom_le (hSmall : Small binding d) (h : Describes binding d p c)
    {tables : Tables} (hLink : tables.link c = .ok l) :
    Image.classCodeRoom l ≤ 37 + 4096 * 98395 := by
  have hLinks := Tables.links_of_link hLink
  obtain ⟨constructor, body, hDirect, hConstructor, hDenotes⟩ := h.directMethods
  obtain ⟨specs, hPlan, hVirtual⟩ := h.virtualMethods
  have hReads := ClassDescription.specs_eq_ok_iff.mp (specs_of_plan hPlan)
  have hFirst : (l.directMethods.map fun m => Image.codeRoom m.body).sum = 37 := by
    have hDirectLinks := hLinks.directMethods
    rw [hDirect] at hDirectLinks
    obtain ⟨m, _, hm, hNone, hMethods⟩ := List.forall₂_cons_left_iff.mp hDirectLinks
    cases hNone
    obtain ⟨handler, -, rfl⟩ := Delegation.constructorBody_eq_ok hConstructor
    simp [hMethods, Image.codeRoom, Image.body_of_linkMethod hm, hDenotes.code.length_eq]
  have hRest : (l.virtualMethods.map fun m => Image.codeRoom m.body).sum ≤ 4096 * 98395 := by
    refine sum_map_le ?_ fun m hm => ?_
    · rw [← hLinks.virtualMethods.length_eq, ← hVirtual.length_eq, List.length_zipIdx,
        ← hReads.length_eq]
      exact hSmall.methods
    · obtain ⟨definition, hDefinition, hMethod⟩ :=
        Pairing.exists_of_mem_right hLinks.virtualMethods hm
      obtain ⟨spec, hSpec, -, body', hBody, hDenotes'⟩ :=
        Pairing.exists_of_mem_right hVirtual hDefinition
      obtain ⟨declaration, hDeclaration, hRead, -⟩ :=
        Pairing.exists_of_mem_right hReads (List.fst_mem_of_mem_zipIdx hSpec)
      have hParams := hSmall.params declaration hDeclaration
      have hCode := Delegation.length_code_le hBody
      rw [← hRead.params.length_eq] at hCode
      rw [Image.codeRoom, Image.body_of_linkMethod hMethod, hDenotes'.code.length_eq]
      omega
  rw [Image.classCodeRoom, List.map_append, List.sum_append, hFirst]
  omega

theorem Small.classDataRoom_le (hSmall : Small binding d) (h : Describes binding d p c)
    {tables : Tables} (hLink : tables.link c = .ok l) :
    Image.classDataRoom l ≤ 20 + 10 * 2 + 15 * 4097 := by
  have hLinks := Tables.links_of_link hLink
  obtain ⟨_, _, hDirect, -, -⟩ := h.directMethods
  obtain ⟨specs, hPlan, hVirtual⟩ := h.virtualMethods
  obtain ⟨_, hInstance, -⟩ := h.instanceFields
  have hReads := ClassDescription.specs_eq_ok_iff.mp (specs_of_plan hPlan)
  have hMethods := hSmall.methods
  have hStatic : (Delegation.methodArrays ⟨d.name, binding⟩).length ≤ 1 := by
    rw [Delegation.methodArrays]
    split <;> simp
  rw [Image.classDataRoom, ClassData.room, ← hLinks.staticFields.length_eq,
    ← hLinks.instanceFields.length_eq, ← hLinks.directMethods.length_eq,
    ← hLinks.virtualMethods.length_eq, ← h.staticFields.length_eq, hInstance, hDirect,
    ← hVirtual.length_eq, List.length_zipIdx, ← hReads.length_eq]
  simp only [List.length_cons, List.length_nil]
  omega

/-- A sensible description that asks for little is accepted, unless its class is its own
supertype. -/
theorem Small.accepts (hSmall : Small binding d) (hSensible : Sensible binding d)
    (hNames : d.name ≠ d.superclass ∧ d.name ∉ d.interfaces) : binding.Accepts d := by
  refine ⟨hSensible, hNames.1, hNames.2, fun text hText => ?_, fun t _ => ?_, ?_⟩
  · have hUnits : Utf16.length text ≤ 4096 := hSmall.weight _ hText
    omega
  · exact Nat.le_trans (tally_le _ t) (Nat.le_trans hSmall.count (by decide))
  · rintro tables l ⟨c, pools, hRun, hTables, hLink⟩
    obtain ⟨hp, hHolds, hDescribes⟩ := built_of_run hRun
    obtain ⟨r, hOrders, rfl, -⟩ := finish_eq_ok hTables
    have hInterfaces : l.interfaces.length ≤ 4096 := by
      rw [← (Tables.links_of_link hLink).interfaces.length_eq, ← hDescribes.interfaces.length_eq]
      exact hSmall.interfaces
    have hStop := hSmall.light.stop_sections_le hOrders hp hHolds 1
    have hCode := hSmall.classCodeRoom_le hDescribes hLink
    have hLists := hSmall.light.typeLists_le hOrders hp hHolds
      (List.forall_mem_singleton.mpr hInterfaces)
    have hTexts := hSmall.light.texts_le hOrders hp hHolds
    have hData := hSmall.classDataRoom_le hDescribes hLink
    refine Nat.lt_of_le_of_lt (Image.fileLength_le r.narrow [l]) ?_
    simp only [Image.room, List.map_cons, List.map_nil, List.sum_cons, List.sum_nil,
      List.length_singleton] at hLists ⊢
    omega

section Batch

variable {ds : List ClassDescription}

theorem Small.outcome_requests (hSmall : Small binding d) (hSensible : Sensible binding d) :
    (requests binding d).outcome = .ok () := by
  refine collects_requests.outcome.mpr ⟨⟨hSensible, ?_⟩, fault?_eq_none_iff.mpr fun text hText => ?_⟩
  · have hMethods := hSmall.methods
    omega
  · have hUnits : Utf16.length text ≤ 4096 := hSmall.weight _ hText
    omega

/-- The descriptions ask for little, each by itself, and their classes do not build on each other. -/
structure SmallBatch (binding : HandlerBinding) (ds : List ClassDescription) : Prop where
  few : ds.length ≤ 4
  small : ∀ d ∈ ds, Small binding d
  sensible : ∀ d ∈ ds, Sensible binding d
  names : (ds.map ClassDescription.name).Nodup
  unrelated : ∀ d ∈ ds, ∀ d' ∈ ds, d'.name ≠ d.superclass ∧ d'.name ∉ d.interfaces

instance : Decidable (SmallBatch binding ds) :=
  decidable_of_iff (ds.length ≤ 4 ∧ (∀ d ∈ ds, Small binding d) ∧ (∀ d ∈ ds, Sensible binding d) ∧
      (ds.map ClassDescription.name).Nodup ∧
      ∀ d ∈ ds, ∀ d' ∈ ds, d'.name ≠ d.superclass ∧ d'.name ∉ d.interfaces)
    ⟨fun ⟨a, b, c, d, e⟩ => ⟨a, b, c, d, e⟩, fun ⟨a, b, c, d, e⟩ => ⟨a, b, c, d, e⟩⟩

namespace SmallBatch

theorem light (h : SmallBatch binding ds) :
    Light (ds.flatMap fun d => Call.items (calls binding d)) 16384 := by
  refine ⟨?_, fun item hItem => ?_⟩
  · rw [List.length_flatMap]
    have hCounts := sum_map_le h.few fun d hd => (h.small d hd).count
    omega
  · obtain ⟨d, hd, hItem⟩ := List.mem_flatMap.mp hItem
    exact (h.small d hd).weight item hItem

theorem recipe_eq (h : SmallBatch binding ds) (hd : d ∈ ds) :
    recipe binding d = ⟨Call.items (calls binding d), .ok d⟩ := by
  have hOutcome := (h.small d hd).outcome_requests (h.sensible d hd)
  rw [recipe, Recipe.bind_of_ok hOutcome, collects_requests.items hOutcome]
  exact congrArg (Recipe.mk · (.ok d)) (List.append_nil _)

section Built

variable {results : List (Except SynthesisError ClassDefinition)}

theorem holds_iff (h : SmallBatch binding ds) (hBuilt : binding.Built ds results p) (item : Item) :
    p.Holds item ↔ item ∈ ds.flatMap fun d => Call.items (calls binding d) := by
  rw [hBuilt.holds, or_iff_right (not_holds_empty item), List.flatMap_map, List.mem_flatMap,
    List.mem_flatMap]
  refine exists_congr fun d => and_congr_right fun hd => ?_
  rw [h.recipe_eq hd]

theorem exists_definitions (h : SmallBatch binding ds) (hBuilt : binding.Built ds results p) :
    ∃ definitions, results.mapM id = .ok definitions := by
  refine Except.exists_mapM_eq_ok fun result hResult => ?_
  obtain ⟨_, hRecipe, hYields⟩ := Pairing.exists_of_mem_right hBuilt.yields hResult
  obtain ⟨d, hd, rfl⟩ := List.mem_map.mp hRecipe
  rw [Script.Yields, h.recipe_eq hd] at hYields
  obtain ⟨c, hOk, -⟩ := hYields
  exact ⟨c, hOk⟩

theorem arrange_eq_ok (h : SmallBatch binding ds) (hOrders : r.Orders p)
    (hSize : p.size .type ≤ maxIndexed) {linked : List LinkedClass}
    (hLinked : List.Forall₂ (fun d l => ∃ c, Describes binding d p c ∧ r.narrow.link c = .ok l)
      ds linked) : ClassOrder.arrange linked = .ok linked := by
  refine ClassOrder.arrange_of_unrelated ?_ ?_
  · have hNames := h.names
    rw [List.Nodup, List.pairwise_map] at hNames ⊢
    refine Pairing.pairwise hLinked hNames ?_
    rintro d - d' - l l' ⟨c, hDescribes, hLink⟩ ⟨c', hDescribes', hLink'⟩ hNe hSame
    have hTypes := Tables.links_of_link hLink
    have hTypes' := Tables.links_of_link hLink'
    exact hNe ((Ranking.type_eq_iff hOrders hSize hDescribes.type hDescribes'.type hTypes.type
      hTypes'.type).mp hSame)
  · intro l hl l' hl' hMem
    obtain ⟨d, hd, c, hDescribes, hLink⟩ := Pairing.exists_of_mem_right hLinked hl
    obtain ⟨d', hd', c', hDescribes', hLink'⟩ := Pairing.exists_of_mem_right hLinked hl'
    obtain ⟨hSuperclass, hInterfaces⟩ := h.unrelated d hd d' hd'
    rw [hDescribes.type_mem_supertypes_iff hDescribes' hOrders hSize hLink hLink'] at hMem
    exact hMem.elim hSuperclass hInterfaces

theorem fileLength_lt (h : SmallBatch binding ds) (hBuilt : binding.Built ds results p)
    (hOrders : r.Orders p) {linked : List LinkedClass}
    (hLinked : List.Forall₂ (fun d l => ∃ c, Describes binding d p c ∧ r.narrow.link c = .ok l)
      ds linked) : Image.fileLength r.narrow linked < 0x100000000 := by
  have hFew : linked.length ≤ 4 := hLinked.length_eq ▸ h.few
  have hInterfaces : ∀ l ∈ linked, l.interfaces.length ≤ 4096 := by
    intro l hl
    obtain ⟨d, hd, c, hDescribes, hLink⟩ := Pairing.exists_of_mem_right hLinked hl
    rw [← (Tables.links_of_link hLink).interfaces.length_eq, ← hDescribes.interfaces.length_eq]
    exact (h.small d hd).interfaces
  have hCode : (linked.map Image.classCodeRoom).sum ≤ 4 * (37 + 4096 * 98395) := by
    refine sum_map_le hFew fun l hl => ?_
    obtain ⟨d, hd, c, hDescribes, hLink⟩ := Pairing.exists_of_mem_right hLinked hl
    exact (h.small d hd).classCodeRoom_le hDescribes hLink
  have hData : (linked.map Image.classDataRoom).sum ≤ 4 * (20 + 10 * 2 + 15 * 4097) := by
    refine sum_map_le hFew fun l hl => ?_
    obtain ⟨d, hd, c, hDescribes, hLink⟩ := Pairing.exists_of_mem_right hLinked hl
    exact (h.small d hd).classDataRoom_le hDescribes hLink
  have hHolds := h.holds_iff hBuilt
  have hStop := h.light.stop_sections_le hOrders hBuilt.wellFormed hHolds linked.length
  have hLists := h.light.typeLists_le hOrders hBuilt.wellFormed hHolds hInterfaces
  have hTexts := h.light.texts_le hOrders hBuilt.wellFormed hHolds
  refine Nat.lt_of_le_of_lt (Image.fileLength_le r.narrow linked) ?_
  rw [Image.room]
  omega

end Built

theorem exists_synthesizeBatch (h : SmallBatch binding ds) :
    ∃ s, binding.synthesizeBatch ds = .ok s := by
  have hBuilt := HandlerBinding.built_runAll binding ds
  obtain ⟨definitions, hOk⟩ := h.exists_definitions hBuilt
  have hTally : ∀ t, Pools.size _ t ≤ maxIndexed := fun t => by
    rw [hBuilt.wellFormed.size_eq_tally (h.holds_iff hBuilt)]
    exact Nat.le_trans (tally_le _ t) (Nat.le_trans h.light.count (by decide))
  obtain ⟨tables, hTables⟩ := hBuilt.wellFormed.exists_finish_iff.mpr
    ⟨hTally .type, hTally .proto, hTally .field, hTally .method⟩
  obtain ⟨r, hOrders, rfl, -⟩ := finish_eq_ok hTables
  obtain ⟨linked, hLinked, hLowers⟩ := Image.exists_linked hOrders (hBuilt.sound hOk)
  have hClasses := Pairing.comp (hBuilt.describes hOk) (Except.mapM_eq_ok_iff.mp hLinked)
    (T := fun d l => ∃ c, Describes binding d _ c ∧ r.narrow.link c = .ok l)
    fun _ c _ hDescribes hLink => ⟨c, hDescribes, hLink⟩
  obtain ⟨bytes, hWrite⟩ := (Image.exists_write_iff hLinked hLowers).mpr
    ⟨linked, h.arrange_eq_ok hOrders (hTally .type) hClasses,
      h.fileLength_lt hBuilt hOrders hClasses⟩
  refine ⟨⟨bytes⟩, ?_⟩
  rw [HandlerBinding.synthesizeBatch_eq]
  exact HandlerBinding.conclude_eq_ok_iff.mpr ⟨definitions, _, hOk, hTables, hWrite⟩

end SmallBatch

end Batch

end ProxyClass

/-- A class with an interface and a source file, two methods of one name, a protected method with
variable arguments and a static method, which no proxy overrides. -/
def ClassDescription.ledger : ClassDescription where
  name := "Lbank/Ledger;"
  superclass := "Ljava/lang/Object;"
  interfaces := ["Lbank/Account;"]
  sourceFile := some "Ledger.java"
  methods := [.new "post" ["J", "Ljava/lang/String;"] "D", .new "post" ["J"] "V",
    ⟨"audit", ["[Ljava/lang/Object;"], "Z", [.isProtected, .isVarargs]⟩,
    ⟨"open", [], "V", [.isPublic, .isStatic]⟩]

theorem HandlerBinding.exists_synthesize_ledger :
    ∃ s, HandlerBinding.reflect.synthesize .ledger = .ok s := by
  have hSmall : ProxyClass.Small .reflect .ledger := by decide +kernel
  exact (hSmall.accepts (by decide +kernel) (by decide)).exists_synthesize

end DexForge
