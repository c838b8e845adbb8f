import DexForge.Container.Listing
import DexForge.Proofs.Container.Consistency

/-! # Verified containers can be listed

The listing walks the tables, the classes and the code by itself. Each lookup that it makes is one
that verification has made before, whatever the container holds and whatever the palette is.
-/
set_option autoImplicit false

namespace DexForge.Container

open Verify

variable {c : Container} {p : Palette}

theorem exists_tableLines {α : Type} {letter : String}
    {render : α → Except ContainerError String} {entries : List α}
    (h : ∀ a ∈ entries, ∃ text, render a = .ok text) :
    ∃ lines, tableLines p letter render entries = .ok lines := by
  apply Except.exists_mapM_eq_ok
  rintro ⟨a, i⟩ hEntry
  exact Except.exists_bind_pure_iff.mpr (h a (List.fst_mem_of_mem_zipIdx hEntry))

theorem exists_protoLine (hNames : ∀ name ∈ c.types, name.toNat < c.strings.size)
    (hProtos : ∀ proto ∈ c.protos, c.ProtoInRange proto) {proto : ProtoId} {i : Nat}
    (hEntry : (proto, i) ∈ c.protos.toList.zipIdx) :
    ∃ line, c.protoLine p (UInt32.ofNat i) proto = .ok line := by
  have hAt := List.mem_zipIdx_iff_getElem?.mp hEntry
  have hIndex : (UInt32.ofNat i).toNat < c.protos.size := by
    rw [UInt32.toNat_ofNat']
    exact Nat.lt_of_le_of_lt (Nat.mod_le _ _) (List.getElem?_eq_some_iff.mp hAt).1
  apply Except.exists_bind_eq_ok ((exists_protoText_iff hNames hProtos).mpr hIndex)
  intro text _
  apply Except.exists_bind_pure_iff.mpr
  exact exists_string_iff.mpr (hProtos proto (by simpa using List.mem_of_getElem? hAt)).1

theorem exists_fieldText_iff {i : UInt32} :
    (∃ text, c.fieldText p i = .ok text) ↔ ∃ r, c.fieldRef i = .ok r :=
  Except.exists_bind_pure_iff

theorem exists_methodText_iff {i : UInt32} :
    (∃ text, c.methodText p i = .ok text) ↔ ∃ r, c.methodRef i = .ok r :=
  Except.exists_bind_pure_iff

theorem exists_referenceText_iff {r : Reference} :
    (∃ text, c.referenceText p r = .ok text) ↔ c.verifyReference r = .ok () := by
  obtain ⟨kind, index⟩ := r
  cases kind with
  | string => exact Except.exists_map_iff.trans resolves_eq_ok_iff.symm
  | type => exact Except.exists_map_iff.trans resolves_eq_ok_iff.symm
  | field => exact exists_fieldText_iff.trans resolves_eq_ok_iff.symm
  | method => exact exists_methodText_iff.trans resolves_eq_ok_iff.symm

theorem exists_instructionText {code : CodeItem} {i : Instruction}
    (h : c.verifyInstruction code i = .ok ()) : ∃ text, c.instructionText p i = .ok text := by
  rw [verifyInstruction] at h
  split at h
  · cases h
  split at h
  · cases h
  · rw [instructionText]
    cases hReference : i.reference? with
    | none => exact ⟨_, rfl⟩
    | some r =>
      rw [hReference] at h
      exact Except.exists_map_iff.mpr (exists_referenceText_iff.mpr h)

theorem exists_codeLines {code : CodeItem} (h : c.verifyCode code = .ok ()) :
    ∃ lines, c.codeLines p code = .ok lines := by
  rw [verifyCode] at h
  split at h
  · cases h
  · obtain ⟨is, hDecoded, hEach⟩ := Except.bind_eq_ok_iff.mp h
    rw [codeLines, hDecoded, Except.ok_bind]
    apply Except.exists_bind_pure_iff.mpr
    apply Except.exists_mapM_eq_ok
    rintro ⟨pc, i⟩ hEntry
    apply Except.exists_bind_pure_iff.mpr
    exact exists_instructionText (each_eq_ok_iff.mp hEach _ hEntry)

theorem exists_fieldLine {label : String} {f : FieldEntry}
    (h : resolves (c.fieldRef f.field) = .ok ()) : ∃ line, c.fieldLine p label f = .ok line := by
  apply Except.exists_bind_pure_iff.mpr
  exact exists_fieldText_iff.mpr (resolves_eq_ok_iff.mp h)

theorem exists_methodLines {label : String} {m : MethodEntry} (h : c.verifyMethod m = .ok ()) :
    ∃ lines, c.methodLines p label m = .ok lines := by
  obtain ⟨hRef, hCode⟩ := seq_eq_ok_iff.mp h
  apply Except.exists_bind_eq_ok (exists_methodText_iff.mpr (resolves_eq_ok_iff.mp hRef))
  intro text _
  cases hSome : m.code with
  | none => exact ⟨_, rfl⟩
  | some code =>
    rw [hSome] at hCode
    exact Except.exists_bind_pure_iff.mpr (exists_codeLines hCode)

theorem exists_dataLines {data : ClassData}
    (hFields : ∀ f ∈ data.fields, resolves (c.fieldRef f.field) = .ok ())
    (hMethods : ∀ m ∈ data.methods, c.verifyMethod m = .ok ()) :
    ∃ lines, c.dataLines p data = .ok lines := by
  rw [ClassData.fields, List.forall_mem_append] at hFields
  rw [ClassData.methods, List.forall_mem_append] at hMethods
  have hFieldLines : ∀ label, ∀ fields : List FieldEntry,
      (∀ f ∈ fields, resolves (c.fieldRef f.field) = .ok ()) →
        ∃ lines, fields.mapM (c.fieldLine p label) = .ok lines :=
    fun _ _ h => Except.exists_mapM_eq_ok fun f hf => exists_fieldLine (h f hf)
  have hMethodLines : ∀ label, ∀ methods : List MethodEntry,
      (∀ m ∈ methods, c.verifyMethod m = .ok ()) →
        ∃ lines, methods.mapM (c.methodLines p label) = .ok lines :=
    fun _ _ h => Except.exists_mapM_eq_ok fun m hm => exists_methodLines (h m hm)
  apply Except.exists_bind_eq_ok (hFieldLines _ _ hFields.1)
  intro statics _
  apply Except.exists_bind_eq_ok (hFieldLines _ _ hFields.2)
  intro instances _
  apply Except.exists_bind_eq_ok (hMethodLines _ _ hMethods.1)
  intro directs _
  exact Except.exists_bind_pure_iff.mpr (hMethodLines _ _ hMethods.2)

theorem exists_interfaceText {owner : UInt32} {seen interfaces : List UInt16}
    (h : c.verifyInterfaces owner seen interfaces = .ok ()) :
    ∀ i ∈ interfaces, ∃ text, c.typeText i.toUInt32 = .ok text := by
  induction interfaces generalizing seen with
  | nil => simp
  | cons i rest ih =>
    obtain ⟨text, hText, hRest⟩ := Except.bind_eq_ok_iff.mp h
    rw [List.forall_mem_cons]
    refine ⟨⟨text, hText⟩, ?_⟩
    split at hRest
    · obtain ⟨_, _, hError⟩ := Except.bind_eq_ok_iff.mp hRest
      cases hError
    · exact ih hRest

/-- A missing superclass or source file is looked up by neither. -/
theorem exists_optional_bind {α : Type} {i : UInt32} {lookup : Except ContainerError String}
    {render : String → Lines} {next : Lines → Except ContainerError α}
    (h : i ≠ noIndex → resolves lookup = .ok ()) (hNext : ∀ lines, ∃ a, next lines = .ok a) :
    ∃ a, (if i = noIndex then Except.ok [] >>= next else lookup.map render >>= next) = .ok a := by
  split
  · exact hNext []
  · rename_i hSome
    obtain ⟨text, hText⟩ := resolves_eq_ok_iff.mp (h hSome)
    rw [hText]
    exact hNext (render text)

theorem exists_classLines {d : ClassDef} (h : c.verifyClass d = .ok ()) :
    ∃ lines, c.classLines p d = .ok lines := by
  simp only [verifyClass, seq_eq_ok_iff, optional_eq_ok_iff] at h
  obtain ⟨hType, hSuperclass, hSource, hInterfaces, hData⟩ := h
  apply Except.exists_bind_eq_ok (resolves_eq_ok_iff.mp hType)
  intro name _
  refine exists_optional_bind hSuperclass fun superclass => ?_
  apply Except.exists_bind_eq_ok
  · apply Except.exists_mapM_eq_ok
    intro i hi
    exact Except.exists_map_iff.mpr (exists_interfaceText hInterfaces i hi)
  intro interfaces _
  refine exists_optional_bind hSource fun source => ?_
  cases hSome : d.data with
  | none => exact ⟨_, rfl⟩
  | some data =>
    simp only [hSome, seq_eq_ok_iff, each_eq_ok_iff] at hData
    exact Except.exists_bind_pure_iff.mpr (exists_dataLines hData.1 hData.2)

theorem lt_of_mem_indices {count : Nat} {i : UInt32} (h : i ∈ indices count) : i.toNat < count := by
  obtain ⟨j, hj, rfl⟩ := List.mem_map.mp h
  rw [List.mem_range] at hj
  rw [UInt32.toNat_ofNat']
  exact Nat.lt_of_le_of_lt (Nat.mod_le _ _) hj

/-- Every lookup of the listing is one that verification has made. -/
theorem exists_listing_of_verify (h : c.verify = .ok ()) (p : Palette) :
    ∃ text, c.listing p = .ok text := by
  simp only [verify, verifyTables, seq_eq_ok_iff, each_eq_ok_iff] at h
  obtain ⟨⟨-, -, hNames, hProtos, -, hFields, -, hMethods, -⟩, hClasses⟩ := h
  replace hNames : ∀ name ∈ c.types, name.toNat < c.strings.size := fun name hName =>
    exists_string_iff.mp (resolves_eq_ok_iff.mp (hNames name (Array.mem_toList_iff.mpr hName)))
  replace hProtos : ∀ proto ∈ c.protos, c.ProtoInRange proto := fun proto hProto =>
    (verifyProto_eq_ok_iff hNames).mp (hProtos proto (Array.mem_toList_iff.mpr hProto))
  apply Except.exists_bind_eq_ok (exists_tableLines fun s _ => ⟨_, rfl⟩)
  intro strings _
  apply Except.exists_bind_eq_ok
  · refine exists_tableLines fun i hi => Except.exists_map_iff.mpr ?_
    exact (exists_typeText_iff hNames).mpr (lt_of_mem_indices hi)
  intro types _
  apply Except.exists_bind_eq_ok
  · refine exists_tableLines ?_
    rintro ⟨proto, i⟩ hEntry
    exact exists_protoLine hNames hProtos hEntry
  intro protos _
  apply Except.exists_bind_eq_ok
  · refine exists_tableLines fun i hi => exists_fieldText_iff.mpr ?_
    exact resolves_eq_ok_iff.mp (hFields i hi)
  intro fields _
  apply Except.exists_bind_eq_ok
  · refine exists_tableLines fun i hi => exists_methodText_iff.mpr ?_
    exact resolves_eq_ok_iff.mp (hMethods i hi)
  intro methods _
  apply Except.exists_bind_pure_iff.mpr
  exact Except.exists_mapM_eq_ok fun d hd => exists_classLines (hClasses d hd)

/-- One class with one method, which loads a string and returns. -/
def speaker : Container where
  bytes := #[]
  header := Header.blank
  strings := #["LSpeaker;", "V", "hello", "say"]
  types := #[0, 1]
  protos := #[⟨1, 1, 0, []⟩]
  fields := #[]
  methods := #[⟨0, 0, 3⟩]
  classes := #[⟨0, ⟨1⟩, noIndex, 0, noIndex, 0, 0, 0, [],
    some ⟨[], [], [⟨0, ⟨8⟩, 0, some ⟨0, 1, 0, 0, 0, 0, [0x001a, 2, 0x000e]⟩⟩], []⟩⟩]
  map := #[]

theorem exists_listing_speaker :
    speaker.verify = .ok () ∧
      ∀ enabled, ∃ text, speaker.listing (Palette.ofEnabled enabled) = .ok text := by
  have hVerify : speaker.verify = .ok () := by decide +kernel
  exact ⟨hVerify, fun enabled => exists_listing_of_verify hVerify (Palette.ofEnabled enabled)⟩

end DexForge.Container
